import DshNexus.Checkpoint.Session
import DshNexus.Release.Pointers

/-!
# The validation of a committed checkpoint restore

`validate_committed_checkpoint_restore` of `crates/nexus-agent/src/lib.rs` compares the stores
with the target of the intent: the profile catalog as it loads, and the release pointers as they
are stored.  The target comes from `plan_checkpoint_restore`, which reads the effective catalog,
and `apply_checkpoint_target_selection` writes the pointers only where the effective catalog
differs from the target.

1. `encodeCatalog`: what `profiles.json` holds, which is read up to 4 MiB.
2. `wp_applyCheckpointTargetSelection_restored`, `wp_markCommitted_applied`: what the
   restore leaves in the stores.
3. `committed_validates_iff`: the stores validate if and only if the target catalog is small
   enough, and the target pointers were not already shown while other ones were stored.
-/

namespace DshNexus.Checkpoint

open Durable Program Release Snapshot

/-! ## 1. The size of a catalog -/

/-- The limit of `read_regular_file_bounded` for `profiles.json`. -/
def PROFILES_LIMIT : Nat := 4 * 1024 * 1024

/-- `encode_json` of a catalog; its names have no character that JSON escapes. -/
def encodeCatalog (catalog : ProfileCatalog) : String :=
  "\x7b\n  \"schema_version\": " ++ toString catalog.schemaVersion ++
    ",\n  \"active_profile\": \"" ++ catalog.activeProfile ++ "\",\n  \"profiles\": " ++
    (if catalog.profiles.isEmpty = true then "[]"
      else "[\n    \"" ++ "\",\n    \"".intercalate catalog.profiles ++ "\"\n  ]") ++ "\n\x7d"

/-- The bound of `read_unlocked`, on a catalog that `write_json_atomic` has written. -/
def checkCatalogSize (profiles : Option ProfileCatalog) : Except IoError Unit :=
  match profiles with
  | none => .ok ()
  | some catalog =>
      if (encodeCatalog catalog).utf8ByteSize > PROFILES_LIMIT then
        .error (invalidData "Configuration or backup must be an ordinary bounded file")
      else .ok ()

section Calls

variable {δ : Type} [DecidableEq δ] (env : CheckpointEnvironment δ)

/-- `validate_committed_checkpoint_restore` with the bounded read that it begins with. -/
def validateCommitted (journal : CheckpointRestoreJournal δ) : CheckpointProgram δ Unit := do
  onProfiles (Program.inspect checkCatalogSize)
  validateCommittedCheckpointRestore env journal

end Calls

/-! ## 2. What a restore leaves behind -/

section Stores

variable {δ : Type} [DecidableEq δ] {env : CheckpointEnvironment δ} {s : CheckpointDisk δ}
  {intent : CheckpointRestoreIntent δ}

/-- The stores hold the target as the restore leaves it: the catalog, and the pointers that a
restore of the pointers has settled. -/
structure AppliedTarget (env : CheckpointEnvironment δ) (intent : CheckpointRestoreIntent δ)
    (before : ReleaseDisk δ) (s : CheckpointDisk δ) : Prop where
  profiles : s.profiles = some intent.targetProfiles
  restored : Restored env.releases intent.targetCurrentRelease intent.targetLastKnownGood before
    s.releases

theorem wp_applyCheckpointTargetSelection_restored
    (hnormal : intent.targetProfiles.normalize = .ok intent.targetProfiles) :
    (applyCheckpointTargetSelection env intent).wp
      (fun _ s' => AppliedTarget env intent s.releases s') (fun _ _ => True) (fun _ => True) s := by
  rw [applyCheckpointTargetSelection, wp_bind, wp_onReleases]
  refine wp_mono (fun _ releases hrestored => ?_) (fun _ _ _ => trivial)
    (fun _ _ => trivial) (wp_restoreReleasePointers env.releases intent.targetCurrentRelease
      intent.targetLastKnownGood s.releases)
  rw [wp_bind, wp_onProfiles]
  refine wp_mono (fun _ profiles hprofiles => ?_) (fun _ _ _ => trivial)
    (fun _ _ => trivial) (wp_writeProfiles hnormal)
  rw [elsewhere, wp_attempt]
  exact ⟨trivial, ⟨hprofiles, hrestored⟩, trivial⟩

theorem wp_markCommitted_applied {before : ReleaseDisk δ} (h : AppliedTarget env intent before s) :
    (markCommitted env intent).wp
      (fun _ s' => AppliedTarget env intent before s' ∧
        ∃ journal, s'.journal = some journal ∧ journal.phase = .committed ∧
          journal.intent = intent)
      (fun _ _ => True) (fun _ => True) s := by
  rw [markCommitted, wp_bind]
  refine wp_loadJournal (fun journal _ _ => ?_) fun _ => trivial
  rcases journal with _ | journal
  · trivial
  · dsimp only
    split
    · trivial
    · next hsame =>
      rw [not_or, not_not, not_not] at hsame
      rw [writeJournal, wp_durable]
      exact ⟨trivial, trivial, ⟨⟨h.profiles, h.restored⟩, _, rfl, rfl, hsame.2⟩, trivial, trivial⟩

theorem returns_storedReleasePointers {releases : ReleaseDisk δ} {catalog : ReleaseCatalog}
    {current lkg : Option String} (hload : loadUnlocked env.releases releases = .ok catalog)
    (hselectable : ∀ id, current = some id ∨ lkg = some id → Selectable releases id) :
    (storedReleasePointers env.releases).returns
        (fun pair s' => pair = (current, lkg) ∧ s' = releases) releases ↔
      Stores releases current lkg := by
  rw [← run_storedReleasePointers_iff hload (fun id hid => hselectable id (.inl hid))
    (fun id hid => hselectable id (.inr hid)), returns_iff_run]
  constructor
  · rintro ⟨_, _, hrun, rfl, rfl⟩
    exact hrun
  · intro hrun
    exact ⟨_, _, hrun, rfl, rfl⟩

theorem returns_iff_of_end {σ ε α : Type} {p : Program σ ε α} {Q : α → σ → Prop} {t u : σ} {a : α}
    (hp : p.returns (fun b t' => b = a ∧ t' = u) t) : p.returns Q t ↔ Q a u := by
  obtain ⟨_, _, hrun, rfl, rfl⟩ := (returns_iff_run _ _ _).mp hp
  rw [returns_iff_run, hrun]
  constructor
  · rintro ⟨_, _, heq, hQ⟩
    obtain ⟨hresult, rfl⟩ := Prod.mk.inj heq
    obtain rfl := Outcome.ok.inj hresult
    exact hQ
  · intro hQ
    exact ⟨_, _, rfl, hQ⟩

omit [DecidableEq δ] in
theorem returns_checkCatalogSize {catalog : ProfileCatalog} {Q : CheckpointDisk δ → Prop}
    (hprofiles : s.profiles = some catalog) :
    (onProfiles (Program.inspect checkCatalogSize)).returns (fun _ => Q) s ↔
      (encodeCatalog catalog).utf8ByteSize ≤ PROFILES_LIMIT ∧ Q s := by
  rw [onProfiles, returns_zoom, returns_inspect]
  show (∃ _, checkCatalogSize s.profiles = _ ∧ Q s) ↔ _
  rw [hprofiles, checkCatalogSize]
  split
  · next hlarge =>
    constructor
    · rintro ⟨_, herror, _⟩
      cases herror
    · rintro ⟨hsmall, _⟩
      omega
  · next hsmall =>
    rw [not_lt] at hsmall
    constructor
    · rintro ⟨_, -, hQ⟩
      exact ⟨hsmall, hQ⟩
    · rintro ⟨-, hQ⟩
      exact ⟨(), rfl, hQ⟩

theorem returns_comparePointers {journal : CheckpointRestoreJournal δ} {catalog : ReleaseCatalog}
    (hload : loadUnlocked env.releases s.releases = .ok catalog)
    (hselectable : ∀ id, journal.intent.targetCurrentRelease = some id ∨
      journal.intent.targetLastKnownGood = some id → Selectable s.releases id) :
    (onReleases (storedReleasePointers env.releases)).returns (fun pointers s₁ =>
        (if journal.intent.targetProfiles ≠ journal.intent.targetProfiles ∨
            pointers ≠ (journal.intent.targetCurrentRelease, journal.intent.targetLastKnownGood)
          then throw (invalidData
            "committed checkpoint restore does not match durable Harness selection")
          else pure () : CheckpointProgram δ Unit).returns (fun _ s' => s' = s) s₁) s ↔
      Stores s.releases journal.intent.targetCurrentRelease
        journal.intent.targetLastKnownGood := by
  rw [← returns_storedReleasePointers hload hselectable, onReleases, returns_zoom,
    storedReleasePointers, returns_inspect, returns_inspect]
  refine exists_congr fun pointers => and_congr_right fun _ => ?_
  by_cases hpointers : pointers =
      (journal.intent.targetCurrentRelease, journal.intent.targetLastKnownGood)
  · rw [if_neg (by simp [hpointers])]
    exact iff_of_true rfl ⟨hpointers, rfl⟩
  · rw [if_pos (Or.inr hpointers)]
    exact iff_of_false (fun h => h) fun h => hpointers h.1

/-- **When stores with the target validate.** -/
theorem returns_validateCommitted {before : ReleaseDisk δ} (h : AppliedTarget env intent before s)
    (hnormal : intent.targetProfiles.normalize = .ok intent.targetProfiles)
    {journal : CheckpointRestoreJournal δ} (hjournal : journal.intent = intent) :
    (validateCommitted env journal).returns (fun _ s' => s' = s) s ↔
      (encodeCatalog intent.targetProfiles).utf8ByteSize ≤ PROFILES_LIMIT ∧
        Stores s.releases intent.targetCurrentRelease intent.targetLastKnownGood := by
  subst hjournal
  obtain ⟨catalog, hload⟩ := h.restored.loads
  have hselectable : ∀ id, journal.intent.targetCurrentRelease = some id ∨
      journal.intent.targetLastKnownGood = some id → Selectable s.releases id := fun id hid =>
    (selectable_congr h.restored.slots h.restored.owned).mpr (h.restored.selectable id hid)
  rw [validateCommitted, returns_bind, returns_checkCatalogSize h.profiles]
  refine and_congr_right fun _ => ?_
  rw [← returns_comparePointers hload hselectable, validateCommittedCheckpointRestore,
    returns_bind, onProfiles, returns_zoom]
  have hloaded := returns_loadProfiles hnormal
  rw [← h.profiles] at hloaded
  refine (returns_iff_of_end hloaded).trans ?_
  rw [returns_bind]
  exact Iff.rfl

end Stores

/-! ## 3. The validation -/

section Validation

variable {δ : Type} [DecidableEq δ]

/-- **When a committed restore validates.**  The target selection of a valid intent is applied
to any stores, and the journal is marked committed, whatever the two calls go through.  Then the
stores validate, and stay as they are for the next validation, if and only if the encoded target
catalog has at most 4 MiB, and the target pointers, if they were shown before, were stored. -/
theorem committed_validates_iff (env : CheckpointEnvironment δ) (intent : CheckpointRestoreIntent δ)
    (journal : CheckpointRestoreJournal δ) (s₁ s₂ s₃ : CheckpointDisk δ)
    (fsApply fsMark : List Fault)
    (hvalid : validateCheckpointRestoreIntent env intent = .ok ())
    (happly : (applyCheckpointTargetSelection env intent).run fsApply s₁ = (.ok (), s₂))
    (hmark : (markCommitted env intent).run fsMark s₂ = (.ok (), s₃))
    (hjournal : s₃.journal = some journal) :
    (validateCommitted env journal).run [] s₃ = (.ok (), s₃) ↔
      (encodeCatalog intent.targetProfiles).utf8ByteSize ≤ PROFILES_LIMIT ∧
        (Shows env.releases s₁.releases intent.targetCurrentRelease
            intent.targetLastKnownGood →
          Stores s₁.releases intent.targetCurrentRelease intent.targetLastKnownGood) := by
  have hnormal := (normalize_of_valid hvalid).2
  have hwp : (applyCheckpointTargetSelection env intent).wp
      (fun _ s' => AppliedTarget env intent s₁.releases s') (fun _ _ => True) (fun _ => True) s₁ :=
    wp_applyCheckpointTargetSelection_restored hnormal
  have happlied := (wp_iff_run _ _ _ _ _).mp hwp fsApply
  rw [happly] at happlied
  have hmarked := (wp_iff_run _ _ _ _ _).mp (wp_markCommitted_applied happlied) fsMark
  rw [hmark] at hmarked
  obtain ⟨happlied, committed, hcommitted, -, hintent⟩ := hmarked
  obtain rfl : committed = journal := Option.some.inj (hcommitted.symm.trans hjournal)
  have hreturns := returns_validateCommitted happlied hnormal hintent
  rw [returns_iff_run] at hreturns
  have hstores : Stores s₃.releases intent.targetCurrentRelease intent.targetLastKnownGood ↔
      (Shows env.releases s₁.releases intent.targetCurrentRelease intent.targetLastKnownGood →
        Stores s₁.releases intent.targetCurrentRelease intent.targetLastKnownGood) := by
    rcases happlied.restored.written with ⟨hhidden, hstored⟩ | ⟨hshown, hsame⟩
    · exact iff_of_true hstored fun hshown => absurd hshown hhidden
    · rw [hsame]
      exact ⟨fun hstored _ => hstored, fun himplied => himplied hshown⟩
  rw [← hstores, ← hreturns]
  constructor
  · intro hrun
    exact ⟨(), s₃, hrun, rfl⟩
  · rintro ⟨_, _, hrun, rfl⟩
    exact hrun

end Validation

/-! ## Restores without faults -/

section Samples

/-- A selection restored without faults: the journal is opened, the selection applied and the
journal marked. -/
def restoredSelection (intent : CheckpointRestoreIntent Bytes) (disk : CheckpointDisk Bytes) :
    CheckpointDisk Bytes × CheckpointDisk Bytes × CheckpointDisk Bytes :=
  let prepared := ((beginRestore twoFilesInstallation intent).run [] disk).2
  let selected := ((applyCheckpointTargetSelection twoFilesInstallation intent).run [] prepared).2
  (prepared, selected, ((markCommitted twoFilesInstallation intent).run [] selected).2)

def committedJournal (intent : CheckpointRestoreIntent Bytes) : CheckpointRestoreJournal Bytes :=
  ⟨1, 1, .committed, intent, none⟩

/-- A restore of the selection of a new installation validates. -/
theorem committed_validates_new :
    (validateCommitted twoFilesInstallation (committedJournal twoFilesIntent)).run []
        (restoredSelection twoFilesIntent firstInstallation).2.2 =
      (.ok (), (restoredSelection twoFilesIntent firstInstallation).2.2) := by
  have hrun : ∀ {α : Type} {p : CheckpointProgram Bytes α} {s : CheckpointDisk Bytes}
      {o : Outcome IoError α}, (p.run [] s).1 = o → p.run [] s = (o, (p.run [] s).2) := by
    rintro α p s o rfl
    rfl
  refine (committed_validates_iff twoFilesInstallation twoFilesIntent _
    (restoredSelection twoFilesIntent firstInstallation).1
    (restoredSelection twoFilesIntent firstInstallation).2.1 _ [] [] (by decide +kernel)
    (hrun (by decide +kernel)) (hrun (by decide +kernel)) (by decide +kernel)).mpr
      ⟨by decide +kernel, fun _ => ⟨by decide +kernel, by decide +kernel⟩⟩

def currentCheckpoint : ContentCheckpoint := ⟨"checkpoint-1", "web", some "a", "manual-1"⟩

/-- The stored pointers are `a` and the unconfirmed `b`, of which only `a` is shown. -/
def unconfirmedInstallation : CheckpointDisk Bytes :=
  ⟨some .initial, unconfirmedPointers, emptyProfile, none⟩

def currentIntent : CheckpointRestoreIntent Bytes :=
  ⟨"checkpoint-1", .initial, some "a", none, .initial, some "a", none, none⟩

/-- **A committed restore that never validates**: the plan takes the last-known-good release
without evidence for none, the selection finds the pair shown and writes nothing, and the stored
pair is another one. -/
theorem committed_never_validates :
    ((planCheckpointRestore twoFilesInstallation currentCheckpoint).run []
        unconfirmedInstallation).1 = .ok currentIntent ∧
      validateCheckpointRestoreIntent twoFilesInstallation currentIntent = .ok () ∧
      ((applyCheckpointTargetSelection twoFilesInstallation currentIntent).run []
        (restoredSelection currentIntent unconfirmedInstallation).1).1 = .ok () ∧
      ((markCommitted twoFilesInstallation currentIntent).run []
        (restoredSelection currentIntent unconfirmedInstallation).2.1).1 = .ok () ∧
      (restoredSelection currentIntent unconfirmedInstallation).2.2.journal =
        some (committedJournal currentIntent) ∧
      ((validateCommitted twoFilesInstallation (committedJournal currentIntent)).run []
        (restoredSelection currentIntent unconfirmedInstallation).2.2).1 =
          .error (invalidData
            "committed checkpoint restore does not match durable Harness selection") :=
  ⟨by decide +kernel, by decide +kernel, by decide +kernel, by decide +kernel, by decide +kernel,
    by decide +kernel⟩

end Samples

end DshNexus.Checkpoint
