import DshNexus.Snapshot.Filling
import DshNexus.Snapshot.RingSession

/-!
# Captures over a damaged ring

`next_healthy_slot` picks the slot of a capture: a free one, or the one with the smallest
creation time, where an unreadable manifest counts as time zero.  So a damaged slot is the
first that it picks.  `publish_healthy_snapshot` loads the snapshot that it replaces with the
strict loader, and refuses a damaged one.

## 1. Without orphans

`TidyRing` is a ring without orphans; its slots may be damaged.  A recovery leaves it alone
(`returns_recoverOrphanedHealthySlots_tidy`).

## 2. One capture

`settles_captureHealthy` is the whole of a capture without faults: the slot that was picked is
free or healthy, and then the capture replaces it, or it is damaged, and then the capture fails
and the ring is as before.

## 3. Many captures

A capture that succeeds leaves every damaged slot where it is, so no number of them repairs the
ring.  `healthy_captures_progress_iff` puts the two together.
-/

namespace DshNexus.Snapshot

open Durable Program

section Progress

variable {δ : Type} [DecidableEq δ] (env : SnapshotEnvironment δ)

/-! ## 1. Without orphans -/

structure TidyRing (s : RingDisk) : Prop where
  shape : RingShape env s
  orphans : ∀ i, NoOrphan i s

def NoDamage (s : RingDisk) : Prop :=
  ∀ i directory, s.get ⟨.slot, i⟩ = some directory → IsHealthy env directory

/-- The creation time that a manifest records, and zero where it cannot be read. -/
def createdUnixMs (directory : SnapshotDirectory) : Nat :=
  match readManifestBounded env directory with
  | .ok manifest => manifest.createdUnixMs
  | .error _ => 0

/-- The creation time of a slot, and zero where it is free. -/
def createdAt (s : RingDisk) (index : Nat) : Nat :=
  match s.get ⟨.slot, index⟩ with
  | some directory => createdUnixMs env directory
  | none => 0

variable {env} {s s' : RingDisk} {index : Nat}

omit [DecidableEq δ] in
theorem createdAt_some {directory : SnapshotDirectory}
    (h : s.get ⟨.slot, index⟩ = some directory) :
    createdAt env s index = createdUnixMs env directory := by
  rw [createdAt, h]

theorem returns_recoverSlot_tidy (h : NoOrphan index s) :
    (recoverSlot env index).returns (fun _ s' => s' = s) s := by
  obtain ⟨hold, hnext⟩ := h
  rw [recoverSlot, returns_bind, returns_read, if_pos ⟨hold, hnext⟩]
  rfl

theorem returns_recoverOrphanedHealthySlots_tidy (h : TidyRing env s) :
    (recoverOrphanedHealthySlots env).returns (fun _ s' => s' = s) s := by
  have hinventory : (validateHealthyInventory env).returns (fun _ s' => s' = s) s :=
    returns_mono (fun _ _ hs => hs.2)
      (returns_and_of_wp (returns_validateHealthyInventory h.shape)
        (readOnly_validateHealthyInventory.wp (Q := fun _ s' => s' = s) (E := fun _ _ => True)
          (C := fun _ => True) (fun _ => rfl) (fun _ => trivial) trivial))
  rw [recoverOrphanedHealthySlots, returns_bind, returns_read, h.shape.rootStrays]
  show (validateHealthyInventory env >>= _ : RingProgram Unit).returns _ s
  rw [returns_bind]
  refine returns_mono ?_ hinventory
  rintro _ t rfl
  exact returns_checks fun i _ => returns_recoverSlot_tidy (h.orphans i)

/-! ## 2. One capture -/

/-- The slot that a capture picks: it is free, or no slot is older. -/
structure NextSlot (env : SnapshotEnvironment δ) (s : RingDisk) (index : Nat) : Prop where
  range : 1 ≤ index ∧ index ≤ env.healthySlots
  oldest : s.get ⟨.slot, index⟩ = none ∨
    ∀ j, 1 ≤ j ∧ j ≤ env.healthySlots → createdAt env s index ≤ createdAt env s j

omit [DecidableEq δ] in
theorem oldestSlot_some (best i : Nat) :
    oldestSlot env s (some (createdAt env s best, best)) i =
      if createdAt env s i < createdAt env s best then some (createdAt env s i, i)
      else some (createdAt env s best, best) := by
  generalize createdAt env s best = current
  rw [oldestSlot, createdAt]
  rcases s.get ⟨.slot, i⟩ with _ | directory
  · rfl
  · show _ = if createdUnixMs env directory < current then some (createdUnixMs env directory, i)
      else some (current, best)
    rw [createdUnixMs, Option.map_some]
    cases readManifestBounded env directory <;> rfl

omit [DecidableEq δ] in
theorem foldl_oldestSlot_some (env : SnapshotEnvironment δ) (s : RingDisk) (indices : List Nat)
    (best : Nat) :
    ∃ i, indices.foldl (oldestSlot env s) (some (createdAt env s best, best)) =
        some (createdAt env s i, i) ∧
      createdAt env s i ≤ createdAt env s best ∧
        ∀ j ∈ indices, createdAt env s i ≤ createdAt env s j := by
  induction indices generalizing best with
  | nil => exact ⟨best, rfl, Nat.le_refl _, fun j hj => absurd hj List.not_mem_nil⟩
  | cons x indices ih =>
    rw [List.foldl_cons, oldestSlot_some]
    by_cases hx : createdAt env s x < createdAt env s best
    · obtain ⟨i, hfold, hbest, hall⟩ := ih x
      rw [if_pos hx]
      refine ⟨i, hfold, by omega, fun j hj => ?_⟩
      rcases List.mem_cons.mp hj with rfl | hj
      · exact hbest
      · exact hall j hj
    · obtain ⟨i, hfold, hbest, hall⟩ := ih best
      rw [if_neg hx]
      refine ⟨i, hfold, hbest, fun j hj => ?_⟩
      rcases List.mem_cons.mp hj with rfl | hj
      · omega
      · exact hall j hj

omit [DecidableEq δ] in
theorem foldl_oldestSlot (env : SnapshotEnvironment δ) (s : RingDisk) {indices : List Nat}
    (h : indices ≠ []) :
    ∃ i, indices.foldl (oldestSlot env s) none = some (createdAt env s i, i) ∧
      ∀ j ∈ indices, createdAt env s i ≤ createdAt env s j := by
  obtain ⟨x, indices, rfl⟩ := List.exists_cons_of_ne_nil h
  have hfirst : oldestSlot env s none x = some (createdAt env s x, x) := by
    rw [oldestSlot, createdAt]
    rcases s.get ⟨.slot, x⟩ with _ | directory
    · rfl
    · show _ = some (createdUnixMs env directory, x)
      rw [createdUnixMs, Option.map_some]
      cases readManifestBounded env directory <;> rfl
  obtain ⟨i, hfold, hx, hall⟩ := foldl_oldestSlot_some env s indices x
  rw [List.foldl_cons, hfirst]
  refine ⟨i, hfold, fun j hj => ?_⟩
  rcases List.mem_cons.mp hj with rfl | hj
  · exact hx
  · exact hall j hj

omit [DecidableEq δ] in
/-- **The slot of a capture** is free, or no slot is older. -/
theorem returns_nextHealthySlot (hslots : 1 ≤ env.healthySlots) :
    (nextHealthySlot env).returns (fun index s' => s' = s ∧ NextSlot env s index) s := by
  rw [nextHealthySlot, returns_bind, returns_attempt, returns_bind,
    returns_read]
  split
  · next i hfind =>
    have hfree := List.find?_some hfind
    rw [Option.isNone_iff_eq_none] at hfree
    exact ⟨rfl, mem_slotIndices.mp (List.mem_of_find?_eq_some hfind), Or.inl hfree⟩
  · have hne : slotIndices env ≠ [] :=
      List.ne_nil_of_mem (mem_slotIndices.mpr ⟨Nat.le_refl 1, hslots⟩)
    obtain ⟨i, hfold, hall⟩ := foldl_oldestSlot env s hne
    rw [hfold]
    refine ⟨rfl, mem_slotIndices.mp ?_, Or.inr fun j hj => hall j (mem_slotIndices.mpr hj)⟩
    rcases oldestSlot_foldl_mem s hfold with hmem | ⟨_, hnone⟩
    · exact hmem
    · cases hnone

theorem settles_checkPrevious (previous : Option SnapshotDirectory) :
    (checkPrevious env previous).settles
      (fun _ s' => s' = s ∧ ∀ directory, previous = some directory → IsHealthy env directory)
      (fun _ s' => s' = s ∧ ∃ directory, previous = some directory ∧ ¬ IsHealthy env directory)
      s := by
  rcases previous with _ | directory
  · exact ⟨rfl, fun _ h => by cases h⟩
  · rw [checkPrevious, settles_bind, settles_ofExcept]
    constructor
    · intro previous hload
      by_cases hkind : previous.kind = .healthy
      · rw [if_neg (not_not.mpr hkind)]
        refine ⟨rfl, fun d hd => ?_⟩
        rw [← Option.some.inj hd]
        exact isHealthy_of_loadValidSnapshot env hload hkind
      · rw [if_pos hkind]
        refine ⟨rfl, directory, rfl, fun hhealthy => hkind ?_⟩
        obtain ⟨manifest, hmanifest, hmanifestKind⟩ := exists_of_isHealthy env hhealthy
        obtain rfl := Except.ok.inj (hload.symm.trans hmanifest)
        exact hmanifestKind
    · intro e hload
      refine ⟨rfl, directory, rfl, fun hhealthy => ?_⟩
      obtain ⟨manifest, hmanifest, -⟩ := exists_of_isHealthy env hhealthy
      cases hload.symm.trans hmanifest

theorem settles_checkPublication {snapshotId : String} {staging : SnapshotDirectory}
    {candidate : SnapshotManifest δ} (hstaging : s.get ⟨.next, index⟩ = some staging)
    (hload : loadValidSnapshot env staging = .ok candidate)
    (hid : candidate.snapshotId = snapshotId) (hkind : candidate.kind = .healthy)
    (hold : s.get ⟨.old, index⟩ = none) :
    (checkPublication env index snapshotId).settles
      (fun _ s' => s' = s ∧
        ∀ directory, s.get ⟨.slot, index⟩ = some directory → IsHealthy env directory)
      (fun _ s' => s' = s ∧
        ∃ directory, s.get ⟨.slot, index⟩ = some directory ∧ ¬ IsHealthy env directory) s := by
  have hidentity : ¬ (candidate.snapshotId ≠ snapshotId ∨ candidate.kind ≠ .healthy) :=
    not_or.mpr ⟨not_not.mpr hid, not_not.mpr hkind⟩
  have hnone : ¬ ((s.get ⟨.old, index⟩).isSome = true) := by rw [hold]; exact Bool.noConfusion
  rw [checkPublication, settles_bind, settles_read, hstaging]
  show (Program.ofExcept (loadValidSnapshot env staging) >>= _ : RingProgram Unit).settles _ _ s
  rw [hload]
  show (if _ then _ else _ : RingProgram Unit).settles _ _ s
  rw [if_neg hidentity, if_neg hnone]
  exact settles_checkPrevious _

omit [DecidableEq δ] in
/-- **A publication without faults** puts the candidate into its slot. -/
theorem returns_publishHealthySnapshot {staging : SnapshotDirectory}
    (hstaging : s.get ⟨.next, index⟩ = some staging) (hold : s.get ⟨.old, index⟩ = none) :
    (publishHealthySnapshot env index).returns
      (fun _ s' => AtSlot index s s' ∧ s'.get ⟨.slot, index⟩ = some staging ∧ NoOrphan index s')
      s := by
  have hmoved : (moveDestination index).returns
      (fun _ s₁ => AtSlot index s s₁ ∧ s₁.get ⟨.slot, index⟩ = none ∧
        s₁.get ⟨.next, index⟩ = some staging) s := by
    rw [moveDestination, returns_bind, returns_read]
    split
    · next hoccupied =>
      obtain ⟨directory, hsource⟩ := Option.isSome_iff_exists.mp hoccupied
      refine returns_renameSlot hsource hold (by simp) fun s₁ h₁ =>
        ⟨h₁.atSlot, h₁.left, ?_⟩
      rw [h₁.others ⟨.next, index⟩ (by simp) (by simp)]
      exact hstaging
    · next hfree =>
      rw [Option.not_isSome_iff_eq_none] at hfree
      exact ⟨.refl index s, hfree, hstaging⟩
  rw [publishHealthySnapshot, returns_bind]
  refine returns_mono ?_ hmoved
  rintro _ s₁ ⟨hat₁, hfree, hnext⟩
  have hplaced : (moveCandidate index).returns
      (fun _ s₂ => AtSlot index s s₂ ∧ s₂.get ⟨.slot, index⟩ = some staging ∧
        s₂.get ⟨.next, index⟩ = none) s₁ := by
    exact returns_tryCatch (returns_renameSlot hnext hfree (by simp) fun s₂ h₂ =>
      ⟨hat₁.trans h₂.atSlot, h₂.arrived, h₂.left⟩)
  rw [returns_bind]
  refine returns_mono ?_ hplaced
  rintro _ s₂ ⟨hat₂, hslot, hgone⟩
  rw [returns_bind, returns_read]
  refine returns_mono ?_ (returns_removeIf rfl)
  rintro _ s₃ ⟨honly, hnone⟩
  refine ⟨hat₂.trans honly.atSlot, ?_, hnone, ?_⟩
  · rw [honly.others ⟨.slot, index⟩ (by simp)]
    exact hslot
  · rw [honly.others ⟨.next, index⟩ (by simp)]
    exact hgone

/-- A profile that can be captured: its files pass, and the loader accepts what is staged. -/
structure Capturable (env : SnapshotEnvironment δ) (input : CaptureInput) : Prop where
  dshVersion : validateMetadataText "DSH version" input.dshVersion MAX_METADATA_TEXT_BYTES = .ok ()
  staged : ∃ captured encoded, CapturesProfile env input.sources captured ∧
    env.encodeManifest (captureManifest env input (capturedFiles env captured)) = .ok encoded ∧
      loadValidSnapshot env (stagedDirectory captured encoded) =
        .ok (captureManifest env input (capturedFiles env captured))

/-- The directory is a healthy snapshot with this manifest. -/
def Holds (env : SnapshotEnvironment δ) (manifest : SnapshotManifest δ)
    (directory : SnapshotDirectory) : Prop :=
  loadValidSnapshot env directory = .ok manifest ∧ manifest.kind = .healthy

theorem Holds.isHealthy {manifest : SnapshotManifest δ} {directory : SnapshotDirectory}
    (h : Holds env manifest directory) : IsHealthy env directory :=
  isHealthy_of_loadValidSnapshot env h.1 h.2

/-- What a successful capture has done: it has put its snapshot into the slot that it picked,
which was not damaged, and left the other slots alone. -/
structure Filled (env : SnapshotEnvironment δ) (input : CaptureInput) (index : Nat)
    (manifest : SnapshotManifest δ) (s s' : RingDisk) : Prop where
  next : NextSlot env s index
  healthy : ∀ directory, s.get ⟨.slot, index⟩ = some directory → IsHealthy env directory
  snapshotId : manifest.snapshotId = input.snapshotId
  published : ∃ directory, s'.get ⟨.slot, index⟩ = some directory ∧ Holds env manifest directory
  atSlot : AtSlot index s s'
  tidy : TidyRing env s'

/-- What a failed capture has done: it has picked a damaged slot, and every directory is as
before. -/
structure Refused (env : SnapshotEnvironment δ) (s s' : RingDisk) : Prop where
  damaged : ∃ index directory, NextSlot env s index ∧ s.get ⟨.slot, index⟩ = some directory ∧
    ¬ IsHealthy env directory
  same : ∀ name, s'.get name = s.get name
  tidy : TidyRing env s'

omit [DecidableEq δ] in
theorem returns_fillStaging {input : CaptureInput} {name : SlotName}
    {captured : FileIndex → CapturedAllowedFile δ} (h : CapturesProfile env input.sources captured)
    {encoded : Bytes}
    (hencode : env.encodeManifest (captureManifest env input (capturedFiles env captured)) =
      .ok encoded) (hs : (s.get name).isSome = true) :
    (fillStaging env name input).returns
      (fun manifest s' => (manifest = captureManifest env input (capturedFiles env captured) ∧
        s'.get name = some (stagedDirectory captured encoded)) ∧ Only name s s') s := by
  refine returns_and_of_wp ?_ (within_fillStaging name input s)
  rw [fillStaging_eq]
  exact returns_fillDirectory (fun disk : RingDisk => disk.get name)
    (fun f disk => disk.get_modify_self name f) h hencode hs

omit [DecidableEq δ] in
theorem returns_removeStaging {t : RingDisk} (h : TidyRing env s)
    (hindex : 1 ≤ index ∧ index ≤ env.healthySlots) (honly : Only ⟨.next, index⟩ s t) :
    (Program.ignoreError (removeDirectoryAll env ⟨.next, index⟩)).returns
      (fun _ s' => (∀ name, s'.get name = s.get name) ∧ TidyRing env s') t := by
  have hdone : ∀ s', Only ⟨.next, index⟩ s s' → s'.get ⟨.next, index⟩ = none →
      (∀ name, s'.get name = s.get name) ∧ TidyRing env s' := fun s' hall hgone => by
    have hsame : ∀ name, s'.get name = s.get name := fun name => by
      by_cases hname : name = ⟨.next, index⟩
      · rw [hname, hgone, (h.orphans index).2]
      · exact hall.others name hname
    refine ⟨hsame, h.shape.atSlot hindex hall.atSlot, fun i => ?_⟩
    rw [NoOrphan, hsame, hsame]
    exact h.orphans i
  rw [returns_ignoreError]
  rcases hnext : t.get ⟨.next, index⟩ with _ | directory
  · -- there is nothing to remove
    rw [removeDirectoryAll, settles_bind, settles_read, hnext]
    exact hdone t honly hnext
  · refine settles_of_returns (returns_mono ?_ (returns_and_of_wp
      (returns_removeDirectoryAll (by rw [hnext]; rfl)) (wp_removeDirectoryAll ⟨.next, index⟩ t)))
    rintro _ s' ⟨-, hlast, hgone⟩
    exact hdone s' (honly.trans hlast) hgone

/-- **A capture without faults**, on a ring without orphans: it fills the slot that it picks, or
that slot is damaged and it fails. -/
theorem settles_captureHealthy (hslots : 1 ≤ env.healthySlots) (h : TidyRing env s)
    {input : CaptureInput} (hin : Capturable env input) :
    (captureHealthy env input).settles
      (fun manifest s' => ∃ index, Filled env input index manifest s s')
      (fun _ s' => Refused env s s') s := by
  obtain ⟨captured, encoded, hcaptured, hencode, hload⟩ := hin.staged
  rw [captureHealthy, hin.dshVersion]
  show Program.settles (recoverOrphanedHealthySlots env >>= _) _ _ s
  rw [settles_bind]
  refine settles_of_returns (returns_mono ?_
    (returns_recoverOrphanedHealthySlots_tidy h))
  rintro _ t rfl
  rw [settles_bind]
  refine settles_of_returns (returns_mono ?_ (returns_nextHealthySlot hslots))
  rintro index s₀ ⟨rfl, hnext⟩
  obtain ⟨holdNone, hnextNone⟩ := h.orphans index
  have hfree : ¬ ((s₀.get ⟨.next, index⟩).isSome = true) := by
    rw [hnextNone]; exact Bool.noConfusion
  rw [settles_bind, ensureNewDirectory, settles_bind, settles_read,
    if_neg hfree, settles_durable, settles_bind, settles_toExcept,
    settles_bind]
  have hput : Only ⟨.next, index⟩ s₀ (s₀.put ⟨.next, index⟩ ⟨none, none⟩) := .put s₀ _
  refine settles_of_returns (returns_mono ?_
    (returns_fillStaging hcaptured hencode (by rw [RingDisk.get_put_self]; rfl)))
  rintro manifest s₁ ⟨⟨rfl, hstaging⟩, hwithin⟩
  have honly := hput.trans hwithin
  have hslot₁ := honly.others ⟨.slot, index⟩ (by simp)
  have hold₁ : s₁.get ⟨.old, index⟩ = none := by
    rw [honly.others ⟨.old, index⟩ (by simp)]
    exact holdNone
  rw [settles_bind]
  refine settles_mono ?_ ?_ (settles_checkPublication hstaging hload rfl rfl hold₁)
  · -- the slot is free or healthy: the publication goes through
    rintro _ _ ⟨rfl, hhealthy⟩
    show (publishHealthySnapshot env index >>= fun _ => pure _).settles _ _ _
    rw [settles_bind]
    refine settles_of_returns (returns_mono ?_
      (returns_publishHealthySnapshot hstaging hold₁))
    rintro _ s₂ ⟨hat, hslot, horphan⟩
    have hall := honly.atSlot.trans hat
    rw [hslot₁] at hhealthy
    refine ⟨index, hnext, hhealthy, rfl, ⟨_, hslot, hload, rfl⟩, hall,
      h.shape.atSlot hnext.range hall, fun i => ?_⟩
    by_cases hi : i = index
    · rw [hi]; exact horphan
    · rw [NoOrphan, hall.others ⟨.old, i⟩ hi, hall.others ⟨.next, i⟩ hi]
      exact h.orphans i
  · -- the slot is damaged: the staging directory goes
    rintro e _ ⟨rfl, directory, hdirectory, hdamaged⟩
    rw [hslot₁] at hdirectory
    rw [settles_bind]
    refine settles_of_returns (returns_mono ?_
      (returns_removeStaging h hnext.range honly))
    rintro _ s₂ ⟨hsame, htidy⟩
    exact ⟨⟨index, directory, hnext, hdirectory, hdamaged⟩, hsame, htidy⟩

/-! ## 3. Many captures -/

/-- Captures one after another, up to the first that fails. -/
def captureAll (env : SnapshotEnvironment δ) (inputs : List CaptureInput) : RingProgram Unit :=
  inputs.forM fun input => (fun _ => ()) <$> captureHealthy env input

/-- A capture succeeds and publishes its snapshot.  Of the other slots none changes, and a valid
snapshot that is replaced is the one with the smallest creation time. -/
def Publishes (env : SnapshotEnvironment δ) (input : CaptureInput) (s : RingDisk) : Prop :=
  (captureHealthy env input).returns (fun manifest s' => manifest.snapshotId = input.snapshotId ∧
    ∃ index, (∃ directory, s'.get ⟨.slot, index⟩ = some directory ∧ Holds env manifest directory) ∧
      (∀ j, j ≠ index → s'.get ⟨.slot, j⟩ = s.get ⟨.slot, j⟩) ∧
      ∀ lost, s.get ⟨.slot, index⟩ = some lost → IsHealthy env lost →
        ∀ j other, s.get ⟨.slot, j⟩ = some other → IsHealthy env other →
          createdUnixMs env lost ≤ createdUnixMs env other) s

/-- As many captures as the ring has slots succeed, and after them no damaged slot remains. -/
def RemovesDamage (env : SnapshotEnvironment δ) (s : RingDisk) : Prop :=
  ∀ inputs : List CaptureInput, inputs.length = env.healthySlots →
    (∀ input ∈ inputs, Capturable env input) →
      (captureAll env inputs).returns (fun _ s' => NoDamage env s') s

variable {input : CaptureInput} {manifest : SnapshotManifest δ}

theorem Filled.oldest (h : TidyRing env s) (hfilled : Filled env input index manifest s s')
    {lost : SnapshotDirectory} (hlost : s.get ⟨.slot, index⟩ = some lost) {j : Nat}
    {other : SnapshotDirectory} (hother : s.get ⟨.slot, j⟩ = some other) :
    createdUnixMs env lost ≤ createdUnixMs env other := by
  rcases hfilled.next.oldest with hfree | holdest
  · rw [hlost] at hfree
    exact nomatch hfree
  · have hle := holdest j (h.shape.indices ⟨.slot, j⟩ (by rw [hother]; rfl))
    rw [createdAt_some hlost, createdAt_some hother] at hle
    exact hle

theorem Filled.keeps_damaged (hfilled : Filled env input index manifest s s') {j : Nat}
    {damaged : SnapshotDirectory} (hslot : s.get ⟨.slot, j⟩ = some damaged)
    (hdamaged : ¬ IsHealthy env damaged) : s'.get ⟨.slot, j⟩ = some damaged := by
  have hne : j ≠ index := fun heq => by
    subst heq
    exact hdamaged (hfilled.healthy damaged hslot)
  rw [hfilled.atSlot.others ⟨.slot, j⟩ hne]
  exact hslot

theorem Filled.noDamage (hfilled : Filled env input index manifest s s') (h : NoDamage env s) :
    NoDamage env s' := by
  intro j directory hslot
  by_cases hj : j = index
  · obtain ⟨published, hpublished, hholds⟩ := hfilled.published
    rw [hj, hpublished] at hslot
    rw [← Option.some.inj hslot]
    exact hholds.isHealthy
  · rw [hfilled.atSlot.others ⟨.slot, j⟩ hj] at hslot
    exact h j directory hslot

theorem returns_captureHealthy (hslots : 1 ≤ env.healthySlots) (h : TidyRing env s)
    (hdamage : NoDamage env s) (hin : Capturable env input) :
    (captureHealthy env input).returns
      (fun manifest s' => ∃ index, Filled env input index manifest s s') s := by
  refine returns_of_settles (settles_captureHealthy hslots h hin) fun e t ht => ?_
  obtain ⟨index, directory, -, hslot, hdamaged⟩ := ht.damaged
  exact hdamaged (hdamage index directory hslot)

/-- **One capture on a ring without damage.** -/
theorem publishes_of_noDamage (hslots : 1 ≤ env.healthySlots) (h : TidyRing env s)
    (hdamage : NoDamage env s) (hin : Capturable env input) : Publishes env input s := by
  refine returns_mono ?_ (returns_captureHealthy hslots h hdamage hin)
  rintro manifest s' ⟨index, hfilled⟩
  refine ⟨hfilled.snapshotId, index, hfilled.published, fun j hj => ?_,
    fun lost hlost _ j other hother _ => hfilled.oldest h hlost hother⟩
  exact hfilled.atSlot.others ⟨.slot, j⟩ hj

/-- **Any number of captures on a ring without damage.** -/
theorem returns_captureAll (hslots : 1 ≤ env.healthySlots) (h : TidyRing env s)
    (hdamage : NoDamage env s) {inputs : List CaptureInput}
    (hin : ∀ input ∈ inputs, Capturable env input) :
    (captureAll env inputs).returns (fun _ s' => NoDamage env s') s := by
  refine returns_mono (fun _ s' hs' => hs'.2.1) (returns_forM
    (I := fun todo s' => TidyRing env s' ∧ NoDamage env s' ∧ ∀ input ∈ todo, Capturable env input)
    (fun input todo t ht => ?_) inputs s ⟨h, hdamage, hin⟩)
  obtain ⟨htidy, hnone, hall⟩ := ht
  rw [returns_map]
  refine returns_mono ?_
    (returns_captureHealthy hslots htidy hnone (hall input (List.mem_cons_self ..)))
  rintro manifest t' ⟨index, hfilled⟩
  exact ⟨hfilled.tidy, hfilled.noDamage hnone, fun other ho => hall other (List.mem_cons_of_mem _ ho)⟩

/-- **Captures repair nothing.**  After any number of captures that succeed, a damaged slot is
still there. -/
theorem settles_captureAll (hslots : 1 ≤ env.healthySlots) (h : TidyRing env s) {j : Nat}
    {damaged : SnapshotDirectory} (hslot : s.get ⟨.slot, j⟩ = some damaged)
    (hdamaged : ¬ IsHealthy env damaged) {inputs : List CaptureInput}
    (hin : ∀ input ∈ inputs, Capturable env input) :
    (captureAll env inputs).settles (fun _ s' => s'.get ⟨.slot, j⟩ = some damaged)
      (fun _ _ => True) s := by
  refine settles_mono (fun _ s' hs' => hs'.2.1) (fun _ _ _ => trivial)
    (settles_forM (I := fun todo s' => TidyRing env s' ∧
      s'.get ⟨.slot, j⟩ = some damaged ∧ ∀ input ∈ todo, Capturable env input)
    (E := fun _ _ => True) (fun input todo t ht => ?_) inputs s ⟨h, hslot, hin⟩)
  obtain ⟨htidy, hthere, hall⟩ := ht
  rw [settles_map]
  refine settles_mono ?_ (fun _ _ _ => trivial)
    (settles_captureHealthy hslots htidy (hall input (List.mem_cons_self ..)))
  rintro manifest t' ⟨index, hfilled⟩
  exact ⟨hfilled.tidy, hfilled.keeps_damaged hthere hdamaged,
    fun other ho => hall other (List.mem_cons_of_mem _ ho)⟩

/-- **Healthy captures keep making progress if and only if no slot is damaged.**  On a ring
without orphans a capture publishes its snapshot and loses at most the oldest valid one, and as
many captures as there are slots leave no damaged slot, exactly where there is none to begin
with. -/
theorem healthy_captures_progress_iff (hslots : 1 ≤ env.healthySlots) (h : TidyRing env s)
    (hin : Capturable env input) :
    Publishes env input s ∧ RemovesDamage env s ↔ NoDamage env s := by
  constructor
  · rintro ⟨-, hremoves⟩ j directory hslot
    by_contra hdamaged
    have hall : ∀ other ∈ List.replicate env.healthySlots input, Capturable env other :=
      fun other ho => (List.eq_of_mem_replicate ho).symm ▸ hin
    have hreturns := hremoves _ (List.length_replicate ..) hall
    obtain ⟨_, s', -, hnone, hstill⟩ := (returns_iff_run _ _ _).mp
      (returns_and_settles hreturns (settles_captureAll hslots h hslot hdamaged hall))
    exact hdamaged (hnone j directory hstill)
  · intro hdamage
    exact ⟨publishes_of_noDamage hslots h hdamage hin,
      fun inputs _ hall => returns_captureAll hslots h hdamage hall⟩

end Progress

/-! ## A damaged slot -/

/-- The policy files of a profile that has nothing but its package, captured. -/
def packageCaptured (i : FileIndex) : CapturedAllowedFile Bytes :=
  if i = 0 then presentFile id (FILE_POLICY i) ⟨strippedText, 0o600⟩ ⟨strippedText, []⟩
  else missingFile (FILE_POLICY i)

def packageInput (snapshotId : String) : CaptureInput :=
  ⟨"1.0.0", fun i => if i = 0 then some ⟨strippedText, 0o600⟩ else none, snapshotId, 0⟩

theorem sources_packageInput_of_ne {i : FileIndex} (hi : i ≠ 0) (snapshotId : String) :
    (packageInput snapshotId).sources i = none := if_neg hi

theorem packageCaptured_of_ne {i : FileIndex} (hi : i ≠ 0) :
    packageCaptured i = missingFile (FILE_POLICY i) := if_neg hi

theorem capturesProfile_packageInput (snapshotId : String) :
    CapturesProfile oneSlotEnvironment (packageInput snapshotId).sources packageCaptured where
  files i := by
    by_cases hi : i = 0
    · subst hi
      rfl
    · rw [sources_packageInput_of_ne hi, packageCaptured_of_ne hi]
      rfl
  package := ⟨strippedText, rfl, by decide +kernel⟩
  modes i source hs := by
    by_cases hi : i = 0
    · subst hi
      rw [← Option.some.inj hs]
      exact Nat.le_of_ble_eq_true rfl
    · rw [sources_packageInput_of_ne hi] at hs
      exact nomatch hs

theorem captureManifest_packageInput (snapshotId : String) :
    captureManifest oneSlotEnvironment (packageInput snapshotId)
      (capturedFiles oneSlotEnvironment packageCaptured) = packageManifest snapshotId := by
  have hfiles : (capturedFiles oneSlotEnvironment packageCaptured).records =
      (packageManifest snapshotId).files := by
    funext i
    rw [capturedFiles, foldl_addCaptured_records, if_pos (List.mem_finRange i)]
    by_cases hi : i = 0
    · subst hi
      rfl
    · rw [packageCaptured_of_ne hi]
      exact (if_neg hi).symm
  rw [captureManifest, hfiles]
  rfl

theorem capturable_packageInput : Capturable oneSlotEnvironment (packageInput "healthy-1") where
  dshVersion := by decide +kernel
  staged := by
    refine ⟨packageCaptured, ascii "healthy-1", capturesProfile_packageInput _, rfl, ?_⟩
    rw [captureManifest_packageInput]
    have hhealthy : IsHealthy oneSlotEnvironment
        (stagedDirectory packageCaptured (ascii "healthy-1")) := by decide +kernel
    obtain ⟨manifest, hload, -⟩ := exists_of_isHealthy _ hhealthy
    have hread : readManifestBounded oneSlotEnvironment
        (stagedDirectory packageCaptured (ascii "healthy-1")) =
          .ok (packageManifest "healthy-1") := rfl
    rw [hload, ← readManifestBounded_of_loadValidSnapshot hload, hread]

theorem tidyRing_emptyRing : TidyRing oneSlotEnvironment emptyRing :=
  ⟨ringInvariant_emptyRing.shape, fun _ => ⟨rfl, rfl⟩⟩

/-- On the empty ring captures make progress. -/
theorem empty_ring_progresses : Publishes oneSlotEnvironment (packageInput "healthy-1") emptyRing ∧
    RemovesDamage oneSlotEnvironment emptyRing :=
  (healthy_captures_progress_iff (Nat.le_refl 1) tidyRing_emptyRing capturable_packageInput).mpr
    fun _ _ h => nomatch h

/-- A ring whose only slot has lost its manifest. -/
def damagedRing : RingDisk := emptyRing.put ⟨.slot, 1⟩ ⟨none, some [("0", strippedText)]⟩

theorem get_damagedRing_of_ne {name : SlotName} (hne : name ≠ ⟨.slot, 1⟩) :
    damagedRing.get name = none := RingDisk.get_put_of_ne _ _ hne

theorem tidyRing_damagedRing : TidyRing oneSlotEnvironment damagedRing where
  shape := by
    refine ⟨fun name hname => ?_, rfl, rfl⟩
    by_cases hne : name = ⟨.slot, 1⟩
    · rw [hne]
      exact ⟨Nat.le_refl 1, Nat.le_refl 1⟩
    · rw [get_damagedRing_of_ne hne] at hname
      exact absurd hname Bool.noConfusion
  orphans _ := ⟨get_damagedRing_of_ne (by simp), get_damagedRing_of_ne (by simp)⟩

/-- **A damaged slot blocks every capture.**  The slot counts as the oldest, and the publication
does not load it. -/
theorem damaged_slot_blocks_captures :
    TidyRing oneSlotEnvironment damagedRing ∧
    Capturable oneSlotEnvironment (packageInput "healthy-1") ∧
    ((captureAll oneSlotEnvironment [packageInput "healthy-1"]).run [] damagedRing).1 =
      .error (.invalidManifest "missing manifest.json") ∧
    ¬ Publishes oneSlotEnvironment (packageInput "healthy-1") damagedRing := by
  have herror : ((captureAll oneSlotEnvironment [packageInput "healthy-1"]).run [] damagedRing).1 =
      .error (.invalidManifest "missing manifest.json") := by decide +kernel
  refine ⟨tidyRing_damagedRing, capturable_packageInput, herror, fun hpublishes => ?_⟩
  have hall : (captureAll oneSlotEnvironment [packageInput "healthy-1"]).returns
      (fun _ _ => True) damagedRing := by
    rw [captureAll, List.forM_eq_forM, List.forM_cons, returns_bind, returns_map]
    exact returns_mono (fun _ _ _ => trivial) hpublishes
  obtain ⟨_, s', hrun, -⟩ := (returns_iff_run _ _ _).mp hall
  rw [hrun] at herror
  exact nomatch herror

end DshNexus.Snapshot
