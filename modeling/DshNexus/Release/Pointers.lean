import DshNexus.Core.Fields
import DshNexus.Release.Effective
import DshNexus.Release.Store

/-!
# Restoring release pointers

`restore_release_pointers` writes only where the effective catalog differs from the request,
and the effective catalog shows of the stored pair what is selectable and confirmed.

* `releaseRootUnlocked_iff`: a release has a root if and only if it is selectable.
* `restoreReleasePointers_exact_iff`: after a restore the stored pair is the requested one, if
  and only if the pair was not already shown while another one was stored.
-/

namespace DshNexus.Release

open Durable Program

section Pointers

variable {δ : Type} [DecidableEq δ] {env : ReleaseEnvironment δ} {disk s s' : ReleaseDisk δ}
  {catalog : ReleaseCatalog} {id : String}

theorem ReleaseCatalog.Consistent.validateReleaseId (h : catalog.Consistent)
    (hid : catalog.Has id) : validateReleaseId id = .ok () := by
  obtain ⟨release, hrelease, rfl⟩ := List.mem_map.mp hid
  exact validateReleaseId_of_manifest (h.1 release hrelease)

omit [DecidableEq δ] in
theorem releaseRootUnlocked_iff (h : Loaded env disk catalog) :
    releaseRootUnlocked disk id catalog = .ok () ↔ Selectable disk id := by
  rw [← h.has_iff, releaseRootUnlocked]
  cases hfind : catalog.find id with
  | none =>
    rw [ReleaseCatalog.find_eq_none] at hfind
    exact iff_of_false (fun h => by cases h) hfind
  | some release =>
    have hid : catalog.Has id := by rw [← ReleaseCatalog.find_isSome, hfind]; rfl
    refine iff_of_true ?_ hid
    obtain ⟨slot, hslot, -⟩ := (h.has_iff id).mp hid
    dsimp only
    rw [slotDir, h.consistent.validateReleaseId hid]
    dsimp only [Bind.bind, Except.bind, pure, Except.pure]
    rw [hslot]

omit [DecidableEq δ] in
theorem checkOptionalRoot_iff (h : Loaded env disk catalog) {pointer : Option String} :
    checkOptionalRoot disk catalog pointer = .ok () ↔
      ∀ id, pointer = some id → Selectable disk id := by
  rcases pointer with _ | id
  · simp [checkOptionalRoot]
  · rw [checkOptionalRoot, releaseRootUnlocked_iff h]
    simp

omit [DecidableEq δ] in
theorem selectable_congr (hslots : s'.slots = s.slots) (howned : s'.owned = s.owned) :
    Selectable s' id ↔ Selectable s id := by
  rw [Selectable, Selectable, hslots, howned]

/-- The pair that the effective catalog shows. -/
def Shows (env : ReleaseEnvironment δ) (disk : ReleaseDisk δ) (current lkg : Option String) :
    Prop :=
  ∃ catalog, loadUnlocked env disk = .ok catalog ∧ catalog.currentRelease = current ∧
    catalog.lastKnownGood = lkg

def Stores (disk : ReleaseDisk δ) (current lkg : Option String) : Prop :=
  (pointerDocument disk).currentRelease = current ∧ (pointerDocument disk).lastKnownGood = lkg

theorem run_storedReleasePointers_iff (hload : loadUnlocked env s = .ok catalog)
    {current lkg : Option String} (hcurrent : ∀ id, current = some id → Selectable s id)
    (hlkg : ∀ id, lkg = some id → Selectable s id) :
    (storedReleasePointers env).run [] s = (.ok (current, lkg), s) ↔ Stores s current lkg := by
  have hl := loadUnlocked_eq_ok hload
  have hdocument := hl.schemaVersion
  have hrun : ∀ x : Except IoError (Option String × Option String),
      (Program.ofExcept x).run [] s = (.ok (current, lkg), s) ↔ x = .ok (current, lkg) := by
    rintro (e | pair)
    · exact iff_of_false (fun h => nomatch (Prod.mk.inj h).1) (fun h => nomatch h)
    · exact ⟨fun h => congrArg Except.ok (Outcome.ok.inj (Prod.mk.inj h).1),
        fun h => by rw [Except.ok.inj h]; rfl⟩
  refine (hrun _).trans ?_
  beta_reduce
  unfold Stores pointerDocument
  unfold pointerDocument at hdocument
  cases hp : s.pointers with
  | none => simp [eq_comm]
  | some document =>
    rw [hp] at hdocument
    dsimp only [Option.getD_some] at hdocument ⊢
    rw [if_neg (not_not.mpr hdocument), hload]
    constructor
    · intro h
      obtain ⟨_, -, h⟩ := bind_eq_ok h
      obtain ⟨_, -, h⟩ := bind_eq_ok h
      obtain ⟨_, -, h⟩ := bind_eq_ok h
      exact Prod.mk.inj (Except.ok.inj h)
    · rintro ⟨rfl, rfl⟩
      show (checkOptionalRoot s catalog document.currentRelease >>= _) = _
      rw [(checkOptionalRoot_iff hl).mpr hcurrent]
      show (checkOptionalRoot s catalog document.lastKnownGood >>= _) = _
      rw [(checkOptionalRoot_iff hl).mpr hlkg]
      rfl

/-- What a successful restore of the pointers does: it writes the pair, or finds it shown and
leaves the store as it is. -/
structure Restored (env : ReleaseEnvironment δ) (current lkg : Option String)
    (s s' : ReleaseDisk δ) : Prop where
  slots : s'.slots = s.slots
  owned : s'.owned = s.owned
  loads : ∃ catalog, loadUnlocked env s' = .ok catalog
  selectable : ∀ id, current = some id ∨ lkg = some id → Selectable s id
  written : (¬ Shows env s current lkg ∧ Stores s' current lkg) ∨
    (Shows env s current lkg ∧ s' = s)

theorem wp_restoreReleasePointers (env : ReleaseEnvironment δ) (current lkg : Option String) (s : ReleaseDisk δ) :
    (restoreReleasePointers env current lkg).wp (fun _ => Restored env current lkg s)
      (fun _ _ => True) (fun _ => True) s := by
  rw [restoreReleasePointers, wp_bind, wp_ofExcept]
  refine ⟨fun _ _ => ?_, fun _ _ => trivial⟩
  rw [wp_bind, wp_ofExcept]
  refine ⟨fun _ _ => ?_, fun _ _ => trivial⟩
  rw [wp_bind, wp_inspect]
  refine ⟨fun catalog hload => ?_, fun _ _ => trivial⟩
  have hl := loadUnlocked_eq_ok hload
  rw [wp_bind, wp_inspect]
  refine ⟨fun _ hcurrent => ?_, fun _ _ => trivial⟩
  rw [wp_bind, wp_inspect]
  refine ⟨fun _ hlkg => ?_, fun _ _ => trivial⟩
  have hselectable : ∀ id, current = some id ∨ lkg = some id → Selectable s id := by
    rintro id (hid | hid)
    · exact (checkOptionalRoot_iff hl).mp hcurrent id hid
    · exact (checkOptionalRoot_iff hl).mp hlkg id hid
  split
  · next hdiffers =>
    have hnot : ¬ Shows env s current lkg := by
      rintro ⟨catalog', hload', hc, hg⟩
      rw [hload] at hload'
      obtain rfl := Except.ok.inj hload'
      exact hdiffers.elim (fun h => h hc) fun h => h hg
    rw [wp_bind, wp_ofExcept]
    refine ⟨fun catalog' hnormal => ?_, fun _ _ => trivial⟩
    obtain ⟨-, -, -, -, rfl⟩ := ReleaseCatalog.normalize_eq_ok.mp hnormal
    rw [wp_bind, writePointers, wp_bind, wp_inspect]
    refine ⟨fun healthy _ => ?_, fun _ _ => trivial⟩
    rw [wp_durable]
    refine ⟨trivial, trivial, ?_, trivial, trivial⟩
    rw [wp_inspect]
    refine ⟨fun final hfinal => ?_, fun _ _ => trivial⟩
    exact ⟨rfl, rfl, ⟨final, hfinal⟩, hselectable, Or.inl ⟨hnot, rfl, rfl⟩⟩
  · next hsame =>
    rw [not_or, not_not, not_not] at hsame
    rw [wp_inspect]
    exact ⟨fun final hfinal => ⟨rfl, rfl, ⟨final, hfinal⟩, hselectable,
      Or.inr ⟨⟨catalog, hload, hsame⟩, rfl⟩⟩, fun _ _ => trivial⟩

/-- **When restoring release pointers is exact.**  After a restore that succeeds, the stored
pair is the requested one, if and only if it was stored before or the effective catalog showed
another pair. -/
theorem restoreReleasePointers_exact_iff (env : ReleaseEnvironment δ)
    (current lkg : Option String) (fs : List Fault) (s s' : ReleaseDisk δ)
    (catalog : ReleaseCatalog)
    (h : (restoreReleasePointers env current lkg).run fs s = (.ok catalog, s')) :
    (storedReleasePointers env).run [] s' = (.ok (current, lkg), s') ↔
      (Shows env s current lkg → Stores s current lkg) := by
  have hwp := (wp_iff_run _ _ _ _ _).mp (wp_restoreReleasePointers env current lkg s) fs
  rw [h] at hwp
  obtain ⟨hslots, howned, ⟨final, hfinal⟩, hselectable, hwritten⟩ := hwp
  have hsel : ∀ id, current = some id ∨ lkg = some id → Selectable s' id := fun id hid =>
    (selectable_congr hslots howned).mpr (hselectable id hid)
  rw [run_storedReleasePointers_iff hfinal (fun id hid => hsel id (Or.inl hid))
    fun id hid => hsel id (Or.inr hid)]
  rcases hwritten with ⟨hnot, hstores⟩ | ⟨hshows, rfl⟩
  · exact iff_of_true hstores fun hshows => absurd hshows hnot
  · exact ⟨fun hstores _ => hstores, fun himp => himp hshows⟩

end Pointers

/-! ## A store of two releases -/

def encodeSample (manifest : ReleaseManifest) : Bytes :=
  encodeFields [textNumbers manifest.id, textNumbers manifest.version, [manifest.installedAtUnix],
    optionNumbers manifest.source, optionNumbers manifest.note]

def decodeSample (bytes : Bytes) : Except String ReleaseManifest :=
  match decodeFields bytes 0 [] [] with
  | [id, version, [installedAtUnix], source, note] =>
      .ok ⟨numbersText id, numbersText version, installedAtUnix, numbersOption source,
        numbersOption note⟩
  | _ => .error "expected value at line 1 column 1"

theorem decodeSample_encodeSample (manifest : ReleaseManifest) :
    decodeSample (encodeSample manifest) = .ok manifest := by
  rw [decodeSample, encodeSample, decodeFields_encodeFields]
  simp only [List.reverse_nil, List.nil_append, numbersText_textNumbers,
    numbersOption_optionNumbers]

/-- A store in which a digest is the content itself. -/
def sampleEnvironment : ReleaseEnvironment Bytes where
  maxSlots := 8
  releasesDir := "releases"
  sha256 bytes := bytes
  encodeManifest := encodeSample
  decodeManifest := decodeSample
  decode_encode := decodeSample_encodeSample
  encodePointers _ := []
  fingerprintDigest entries := entries.flatMap fun entry => entry.contentSha256
  normalizeLaunch _ config := config

def emptyStore {δ : Type} : ReleaseDisk δ := ⟨∅, ∅, none, none⟩

def registration (id : String) : Registration := ⟨id, "1.0.0", none, none, 0⟩

def twoReleases : ReleaseDisk Bytes :=
  Session.after (register sampleEnvironment (registration "b")) []
    (Session.after (register sampleEnvironment (registration "a")) [] emptyStore)

/-- The pointers of an old journal: a last-known-good release without health evidence. -/
def unconfirmedPointers : ReleaseDisk Bytes :=
  Session.after (restoreReleasePointers sampleEnvironment (some "a") (some "b")) [] twoReleases

theorem restoreReleasePointers_of_twoReleases :
    (storedReleasePointers sampleEnvironment).run [] unconfirmedPointers =
      (.ok (some "a", some "b"), unconfirmedPointers) := by
  have hrun : ∃ catalog, (restoreReleasePointers sampleEnvironment (some "a") (some "b")).run []
      twoReleases = (.ok catalog, unconfirmedPointers) := by
    have hok : (((restoreReleasePointers sampleEnvironment (some "a") (some "b")).run []
        twoReleases).1 matches .ok _) = true := by decide +kernel
    unfold unconfirmedPointers Session.after
    rcases hr : (restoreReleasePointers sampleEnvironment (some "a") (some "b")).run [] twoReleases
      with ⟨_ | _ | _, s'⟩
    · exact ⟨_, rfl⟩
    · rw [hr] at hok; exact nomatch hok
    · rw [hr] at hok; exact nomatch hok
  obtain ⟨catalog, hrun⟩ := hrun
  refine (restoreReleasePointers_exact_iff sampleEnvironment _ _ _ _ _ _ hrun).mpr ?_
  rintro ⟨shown, hshown, hcurrent, -⟩
  have hnone : (loadUnlocked sampleEnvironment twoReleases).toOption.bind (·.currentRelease) =
      none := by decide +kernel
  rw [hshown] at hnone
  exact absurd (hcurrent.symm.trans hnone) (by decide)

/-- **A last-known-good release without evidence cannot be cleared**: the restore succeeds,
and the stored pair still has it. -/
theorem restoreReleasePointers_keeps_unconfirmed :
    (((restoreReleasePointers sampleEnvironment (some "a") none).run []
      unconfirmedPointers).1 matches .ok _) = true ∧
    ((storedReleasePointers sampleEnvironment).run [] (Session.after
      (restoreReleasePointers sampleEnvironment (some "a") none) [] unconfirmedPointers)).1 =
        .ok (some "a", some "b") :=
  ⟨by decide +kernel, by decide +kernel⟩

end DshNexus.Release
