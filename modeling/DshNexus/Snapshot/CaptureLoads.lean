import DshNexus.Snapshot.RingProgress
import DshNexus.Snapshot.Store

/-!
# A capture before its publication

Two statements about `capture`, for healthy and for manual snapshots.

## 1. Failures

Before the publication a capture changes the staging directory, and nothing else of its own.
The recovery at its start may publish a complete candidate that an earlier, interrupted capture
has left in a free slot (`Waits`); `wp_recoverSlot_kept` says that it does no more than that,
on any ring.  `fails_safely` is the result.

## 2. What is staged

`describesProfile_capture` relates the manifest of a capture to the captured files.  Then the
loader accepts what is staged exactly as in `loadValidSnapshot_staged_iff`, and the capture goes
through (`returns_capture`).

`capture_loads_iff` puts the two together.
-/

namespace DshNexus.Snapshot

open Durable Program

section Failures

variable {δ : Type} [DecidableEq δ] (env : SnapshotEnvironment δ)

/-! ## 1. Failures -/

/-- A complete candidate of an interrupted capture is waiting in a free slot. -/
def Waits (s : RingDisk) (index : Nat) : Prop :=
  s.published index = none ∧
    ∃ directory, s.get ⟨.next, index⟩ = some directory ∧ IsHealthy env directory

/-- What is published in a slot is as before, or a waiting candidate has been published. -/
def KeptAt (index : Nat) (s s' : RingDisk) : Prop :=
  s'.published index = s.published index ∨
    Waits env s index ∧ s'.published index = s.get ⟨.next, index⟩

variable {env} {index : Nat} {s s' s'' : RingDisk}

theorem KeptAt.of_only_next (h : Only ⟨.next, index⟩ s s') : KeptAt env index s s' := by
  refine Or.inl ?_
  rw [RingDisk.published, h.others ⟨.slot, index⟩ (by simp), h.others ⟨.old, index⟩ (by simp)]
  rfl

theorem published_of_occupied {directory : SnapshotDirectory}
    (h : s.get ⟨.slot, index⟩ = some directory) : s.published index = some directory := by
  rw [RingDisk.published, h]
  rfl

/-- The work of the recovery on one slot. -/
structure Touched (env : SnapshotEnvironment δ) (index : Nat) (s s' : RingDisk) : Prop where
  atSlot : AtSlot index s s'
  kept : KeptAt env index s s'

theorem Touched.refl (index : Nat) (s : RingDisk) : Touched env index s s :=
  ⟨.refl index s, Or.inl rfl⟩

theorem Touched.of_only_next (h : Only ⟨.next, index⟩ s s') : Touched env index s s' :=
  ⟨h.atSlot, .of_only_next h⟩

theorem wp_quarantineCandidate_kept (s : RingDisk) :
    (quarantineCandidate env index).wp
      (fun isPresent s' => (s' = s ∧ isPresent = true ∧
          ∃ directory, s.get ⟨.next, index⟩ = some directory ∧ IsHealthy env directory) ∨
        (Only ⟨.next, index⟩ s s' ∧ isPresent = false ∧ s'.get ⟨.next, index⟩ = none))
      (fun _ => Only ⟨.next, index⟩ s) (Only ⟨.next, index⟩ s) s := by
  rw [quarantineCandidate, wp_bind, wp_read]
  split
  · next hnone => exact Or.inr ⟨.refl _ s, rfl, hnone⟩
  · next directory hdirectory =>
    split
    · next hhealthy => exact Or.inl ⟨rfl, rfl, directory, hdirectory, hhealthy⟩
    · have haside : Only ⟨.next, index⟩ s (s.setAside ⟨.next, index⟩) := .setAside s
      rw [wp_bind, wp_durable]
      exact ⟨.refl _ s, haside, Or.inr ⟨haside, rfl, get_setAside_self s _⟩, .refl _ s, haside⟩

/-- The end of a round, on any ring. -/
theorem wp_settleSlot_kept {nextPresent : Bool}
    (hpresent : nextPresent = (s.get ⟨.next, index⟩).isSome)
    (hhealthy : ∀ directory, s.get ⟨.next, index⟩ = some directory → IsHealthy env directory) :
    (settleSlot env index (s.get ⟨.slot, index⟩).isSome (s.get ⟨.old, index⟩).isSome
      nextPresent).wp (fun _ => Touched env index s) (fun _ => Touched env index s)
      (Touched env index s) s := by
  have hstay : Touched env index s s := .refl index s
  rw [settleSlot]
  split
  · next hoccupied =>
    -- the slot is occupied: what is removed does not count
    obtain ⟨directory, hdirectory⟩ := Option.isSome_iff_exists.mp hoccupied
    rw [wp_bind]
    refine wp_mono ?_ (fun _ _ => .of_only_next) (fun _ => .of_only_next)
      (wp_removeIf hpresent)
    rintro _ s₁ ⟨honly, -⟩
    have hslot₁ : s₁.get ⟨.slot, index⟩ = some directory := by
      rw [honly.others ⟨.slot, index⟩ (by simp)]
      exact hdirectory
    have hlast : ∀ t, Only ⟨.old, index⟩ s₁ t → Touched env index s t := fun t ht => by
      have hslot : t.get ⟨.slot, index⟩ = some directory := by
        rw [ht.others ⟨.slot, index⟩ (by simp)]
        exact hslot₁
      refine ⟨honly.atSlot.trans ht.atSlot, Or.inl ?_⟩
      rw [published_of_occupied hslot, published_of_occupied hdirectory]
    exact wp_mono (fun _ t ht => hlast t ht.1) (fun _ => hlast) hlast
      (wp_removeIf (by rw [honly.others ⟨.old, index⟩ (by simp)]))
  · next hfree =>
    rw [Option.not_isSome_iff_eq_none] at hfree
    split
    · -- the old snapshot goes back into its slot
      rw [wp_bind]
      refine wp_renameSlot (by simp) hstay (fun _ => hstay) fun directory s₁ hsource _ hmoved => ?_
      have hpublished : s.published index = some directory := by
        rw [RingDisk.published, hfree, hsource]
        rfl
      have hmove : Touched env index s s₁ := by
        refine ⟨hmoved.atSlot, Or.inl ?_⟩
        rw [published_of_occupied hmoved.arrived, hpublished]
      have hlast : ∀ t, Only ⟨.next, index⟩ s₁ t → Touched env index s t := fun t ht => by
        have hslot : t.get ⟨.slot, index⟩ = some directory := by
          rw [ht.others ⟨.slot, index⟩ (by simp)]
          exact hmoved.arrived
        refine ⟨hmoved.atSlot.trans ht.atSlot, Or.inl ?_⟩
        rw [published_of_occupied hslot, hpublished]
      have hnext₁ := hmoved.others ⟨.next, index⟩ (by simp) (by simp)
      exact ⟨hmove, fun _ => hmove, wp_mono (fun _ t ht => hlast t ht.1) (fun _ => hlast)
        hlast (wp_removeIf (by rw [hnext₁]; exact hpresent))⟩
    · next hnone =>
      rw [Option.not_isSome_iff_eq_none] at hnone
      split
      · -- a waiting candidate is published
        refine wp_renameSlot (by simp) hstay (fun _ => hstay)
          fun directory s₁ hsource _ hmoved => ?_
        have hmove : Touched env index s s₁ := by
          refine ⟨hmoved.atSlot, Or.inr ⟨⟨?_, directory, hsource, hhealthy directory hsource⟩, ?_⟩⟩
          · rw [RingDisk.published, hfree, hnone]
            rfl
          · rw [published_of_occupied hmoved.arrived, hsource]
        exact ⟨hmove, fun _ => hmove, hmove⟩
      · exact hstay

/-- **One round of the recovery, on any ring**: nothing that is published changes, but that a
waiting candidate may be published. -/
theorem wp_recoverSlot_kept (s : RingDisk) :
    (recoverSlot env index).wp (fun _ => Touched env index s) (fun _ => Touched env index s)
      (Touched env index s) s := by
  have hstay : Touched env index s s := .refl index s
  rw [recoverSlot, wp_bind, wp_read]
  split
  · exact hstay
  · rw [wp_bind]
    refine (readOnly_checkCandidate _).wp (fun _ => ?_) (fun _ => hstay) hstay
    rw [wp_bind]
    refine (readOnly_checkCandidate _).wp (fun _ => ?_) (fun _ => hstay) hstay
    rw [wp_bind]
    refine wp_mono ?_ (fun _ _ => .of_only_next) (fun _ => .of_only_next)
      (wp_quarantineCandidate_kept s)
    rintro isPresent s₁ (⟨rfl, rfl, directory, hnext, hhealthy⟩ | ⟨honly, rfl, hgone⟩)
    · refine wp_settleSlot_kept (by rw [hnext]; rfl) fun d hd => ?_
      rw [hnext] at hd
      rw [← Option.some.inj hd]
      exact hhealthy
    · -- the candidate is gone, and the others are as before
      have hslot₁ := honly.others ⟨.slot, index⟩ (by simp)
      have hold₁ := honly.others ⟨.old, index⟩ (by simp)
      have hall : ∀ t, Touched env index s₁ t → Touched env index s t := fun t ht => by
        refine ⟨honly.atSlot.trans ht.atSlot, Or.inl ?_⟩
        rcases ht.kept with hsame | ⟨⟨-, d, hd, -⟩, -⟩
        · rw [hsame, RingDisk.published, hslot₁, hold₁]
          rfl
        · rw [hgone] at hd
          cases hd
      rw [← hslot₁, ← hold₁]
      exact wp_mono (fun _ => hall) (fun _ => hall) hall (wp_settleSlot_kept
        (by rw [hgone]; rfl) fun d hd => by rw [hgone] at hd; cases hd)

/-- What the loop of the recovery has done: the slots ahead are as they were. -/
structure Sweeping (env : SnapshotEnvironment δ) (s : RingDisk) (todo : List Nat)
    (s' : RingDisk) : Prop where
  kept : ∀ i, KeptAt env i s s'
  nodup : todo.Nodup
  ahead : ∀ i ∈ todo, ∀ kind, s'.get ⟨kind, i⟩ = s.get ⟨kind, i⟩

theorem wp_recoverSlot_sweeping {todo : List Nat} (h : Sweeping env s (index :: todo) s') :
    (recoverSlot env index).wp (fun _ => Sweeping env s todo)
      (fun _ t => ∀ i, KeptAt env i s t) (fun t => ∀ i, KeptAt env i s t) s' := by
  obtain ⟨hindex, hnodup⟩ := List.nodup_cons.mp h.nodup
  have hhere := h.ahead index (List.mem_cons_self ..)
  have hkept : ∀ t, Touched env index s' t → ∀ i, KeptAt env i s t := fun t ht i => by
    by_cases hi : i = index
    · subst hi
      have hpublished : s'.published i = s.published i := by
        rw [RingDisk.published, hhere, hhere]
        rfl
      rcases ht.kept with hsame | ⟨⟨hfree, d, hd, hhealthy⟩, hnew⟩
      · exact Or.inl (hsame.trans hpublished)
      · rw [hpublished] at hfree
        rw [hhere] at hd hnew
        exact Or.inr ⟨⟨hfree, d, hd, hhealthy⟩, hnew⟩
    · rw [KeptAt, ht.atSlot.published hi]
      exact h.kept i
  refine wp_mono (fun _ t ht => ⟨hkept t ht, hnodup, fun i hi kind => ?_⟩)
    (fun _ => hkept) hkept (wp_recoverSlot_kept s')
  have hne : i ≠ index := fun heq => hindex (heq ▸ hi)
  rw [ht.atSlot.others ⟨kind, i⟩ hne]
  exact h.ahead i (List.mem_cons_of_mem _ hi) kind

/-- **A recovery, on any ring.** -/
theorem wp_recoverOrphanedHealthySlots_kept (s : RingDisk) :
    (recoverOrphanedHealthySlots env).wp (fun _ s' => ∀ i, KeptAt env i s s')
      (fun _ s' => ∀ i, KeptAt env i s s') (fun s' => ∀ i, KeptAt env i s s') s := by
  have hstay : ∀ i, KeptAt env i s s := fun _ => Or.inl rfl
  rw [recoverOrphanedHealthySlots, wp_bind, wp_read]
  split
  · exact hstay
  · rw [wp_bind]
    refine readOnly_validateHealthyInventory.wp (fun _ => ?_) (fun _ => hstay) hstay
    exact wp_imp (fun _ _ ht => ht.kept)
      (wp_forM (I := Sweeping env s) (fun _ _ _ ht => wp_recoverSlot_sweeping ht) _ s
        ⟨hstay, List.nodup_range', fun _ _ _ => rfl⟩)

theorem wp_stageHealthy_kept (input : CaptureInput) (s : RingDisk) :
    (stageHealthy env input).wp (fun _ s' => ∀ i, KeptAt env i s s')
      (fun _ s' => ∀ i, KeptAt env i s s') (fun s' => ∀ i, KeptAt env i s s') s := by
  have hstay : ∀ i, KeptAt env i s s := fun _ => Or.inl rfl
  rw [stageHealthy, wp_bind, wp_ofExcept]
  refine ⟨fun _ _ => ?_, fun _ _ => hstay⟩
  rw [wp_bind, wp_attempt]
  refine ⟨hstay, ?_, hstay⟩
  rw [wp_bind]
  refine wp_imp (fun _ s₁ h₁ => ?_)
    (wp_recoverOrphanedHealthySlots_kept s)
  rw [wp_bind]
  refine wp_nextHealthySlot (fun index _ => ?_) (fun _ => h₁) h₁
  have hkept : ∀ t, Only ⟨.next, index⟩ s₁ t → ∀ i, KeptAt env i s t := fun t ht i => by
    have hpublished : t.published i = s₁.published i := by
      rw [RingDisk.published, ht.others ⟨.slot, i⟩ (by simp), ht.others ⟨.old, i⟩ (by simp)]
      rfl
    rw [KeptAt, hpublished]
    exact h₁ i
  have hput : Only ⟨.next, index⟩ s₁ (s₁.put ⟨.next, index⟩ ⟨none, none⟩) := .put s₁ _
  rw [wp_bind, ensureNewDirectory, wp_bind, wp_read]
  split
  · exact h₁
  · rw [wp_durable]
    refine ⟨h₁, hkept _ hput, ?_, h₁, hkept _ hput⟩
    have hfail : ∀ e t, Only ⟨.next, index⟩ s₁ t → Program.wp (do
        Program.ignoreError (removeDirectoryAll env ⟨.next, index⟩)
        throw e : RingProgram (Nat × SnapshotManifest δ)) (fun _ s' => ∀ i, KeptAt env i s s')
        (fun _ s' => ∀ i, KeptAt env i s s') (fun s' => ∀ i, KeptAt env i s s') t := by
      intro e t ht
      rw [wp_bind, wp_ignoreError]
      exact wp_mono (fun _ t' ht' => hkept t' (ht.trans ht'.1))
        (fun _ t' ht' => hkept t' (ht.trans ht')) (fun t' ht' => hkept t' (ht.trans ht'))
        (wp_removeDirectoryAll _ t)
    rw [wp_bind, wp_toExcept, wp_bind]
    refine wp_mono (fun manifest s₂ h₂ => ?_) (fun e t ht => hfail e t (hput.trans ht))
      (fun t ht => hkept t (hput.trans ht)) (within_fillStaging ⟨.next, index⟩ input _)
    have honly := hput.trans h₂
    rw [wp_bind]
    exact wp_checkPublication (fun _ _ _ _ => hkept s₂ honly) (fun e => hfail e s₂ honly)
      (hkept s₂ honly)

/-! ### Manual captures -/

structure OnlyStaging (disk disk' : StoreDisk) : Prop where
  ring : disk'.ring = disk.ring
  manual : disk'.manual = disk.manual
  manualStrays : disk'.manualStrays = disk.manualStrays

theorem OnlyStaging.refl (disk : StoreDisk) : OnlyStaging disk disk := ⟨rfl, rfl, rfl⟩

theorem OnlyStaging.trans {disk disk' disk'' : StoreDisk} (h : OnlyStaging disk disk')
    (h' : OnlyStaging disk' disk'') : OnlyStaging disk disk'' :=
  ⟨h'.ring.trans h.ring, h'.manual.trans h.manual, h'.manualStrays.trans h.manualStrays⟩

theorem OnlyStaging.modifyStaging (id : String) (f : SnapshotDirectory → SnapshotDirectory)
    (disk : StoreDisk) : OnlyStaging disk (disk.modifyStaging id f) := by
  rw [StoreDisk.modifyStaging]
  split
  · exact ⟨rfl, rfl, rfl⟩
  · exact .refl disk

omit [DecidableEq δ] in
theorem within_removeStaging (id : String) : (removeStaging env id).Within OnlyStaging := by
  refine Program.Within.bind (R := OnlyStaging) OnlyStaging.trans
    (Program.ReadOnly.within OnlyStaging.refl readOnly_read) fun disk => ?_
  split
  · exact Program.ReadOnly.within OnlyStaging.refl (readOnly_throw _)
  · refine Program.Within.bind (R := OnlyStaging) OnlyStaging.trans
      (within_forM OnlyStaging.refl OnlyStaging.trans (fun entry =>
        within_durable OnlyStaging.refl fun disk => .modifyStaging id _ disk) _) fun _ => ?_
    exact within_durable OnlyStaging.refl fun disk => ⟨rfl, rfl, rfl⟩

omit [DecidableEq δ] in
theorem within_dropStaging {α : Type} (id : String) (e : SnapshotError) :
    (dropStaging env id e : StoreProgram α).Within OnlyStaging :=
  Program.Within.bind (R := OnlyStaging) OnlyStaging.trans
    (Program.Within.ignoreError (within_removeStaging id))
    fun _ => Program.ReadOnly.within OnlyStaging.refl (readOnly_throw e)

def StagedManual (env : SnapshotEnvironment δ) (id : String) (disk : StoreDisk) : Prop :=
  ∃ staging manifest, disk.staging.lookup id = some staging ∧
    loadValidSnapshot env staging = .ok manifest ∧ manifest.snapshotId = id

theorem wp_checkManualCandidate (id : String) (disk : StoreDisk) :
    (checkManualCandidate env id).wp (fun _ disk' => disk' = disk ∧ StagedManual env id disk)
      (fun _ disk' => disk' = disk) (fun disk' => disk' = disk) disk := by
  rw [checkManualCandidate, wp_bind, wp_read]
  split
  · exact rfl
  · next staging hstaging =>
    rw [wp_bind, wp_ofExcept]
    refine ⟨fun candidate hcandidate => ?_, fun _ _ => rfl⟩
    split
    · exact rfl
    · next hidentity =>
      rw [not_or, not_not] at hidentity
      exact ⟨rfl, staging, candidate, hstaging, hcandidate, hidentity.1⟩

/-- **Before its rename** a manual capture changes nothing but its staging directory, and where it
gets to the rename its snapshot is staged. -/
theorem wp_stageManual (config : SnapshotStoreConfig) (label : Option String)
    (input : CaptureInput) (disk : StoreDisk) :
    (stageManual env config label input).wp
      (fun _ disk' => OnlyStaging disk disk' ∧ StagedManual env input.snapshotId disk')
      (fun _ => OnlyStaging disk) (OnlyStaging disk) disk := by
  have hstay : OnlyStaging disk disk := .refl disk
  have hcount : (checkManualCount config).ReadOnly := by
    refine readOnly_read.bind fun disk => (readOnly_ofExcept _).bind fun ds => ?_
    split
    · exact readOnly_throw _
    · exact readOnly_pure _
  rw [stageManual, wp_bind, wp_ofExcept]
  refine ⟨fun _ _ => ?_, fun _ _ => hstay⟩
  rw [wp_bind, wp_ofExcept]
  refine ⟨fun _ _ => ?_, fun _ _ => hstay⟩
  rw [wp_bind, wp_attempt]
  refine ⟨hstay, ?_, hstay⟩
  rw [wp_bind, wp_attempt]
  refine ⟨hstay, ?_, hstay⟩
  rw [wp_bind]
  refine hcount.wp (fun _ => ?_) (fun _ => hstay) hstay
  rw [wp_bind, ensureNewStaging, wp_bind, wp_read]
  split
  · exact hstay
  · have hnew : OnlyStaging disk
        { disk with staging := disk.staging.insert input.snapshotId ⟨none, none⟩ } := ⟨rfl, rfl, rfl⟩
    have hdrop : ∀ e t, OnlyStaging disk t →
        (dropStaging env input.snapshotId e : StoreProgram (SnapshotManifest δ)).wp
          (fun _ disk' => OnlyStaging disk disk' ∧ StagedManual env input.snapshotId disk')
          (fun _ => OnlyStaging disk) (OnlyStaging disk) t := by
      intro e t ht
      rw [dropStaging, wp_bind, wp_ignoreError]
      exact wp_mono (fun _ t' ht' => ht.trans ht') (fun _ t' ht' => ht.trans ht')
        (fun t' ht' => ht.trans ht') (within_removeStaging input.snapshotId t)
    rw [wp_durable]
    refine ⟨hstay, hnew, ?_, hstay, hnew⟩
    rw [wp_bind, wp_toExcept, wp_bind]
    refine wp_mono (fun manifest t ht => ?_) (fun e t ht => hdrop e t (hnew.trans ht))
      (fun t ht => hnew.trans ht)
      (within_fillDirectory OnlyStaging.refl OnlyStaging.trans
        (fun f disk => .modifyStaging input.snapshotId f disk) _)
    rw [wp_bind]
    refine wp_mono ?_ ?_ ?_ (wp_checkManualCandidate input.snapshotId t)
    · rintro _ t' ⟨rfl, hstaged⟩
      exact ⟨hnew.trans ht, hstaged⟩
    · rintro e t' rfl
      exact hdrop e t' (hnew.trans ht)
    · rintro t' rfl
      exact hnew.trans ht

/-- A capture that fails before its publication leaves the published snapshots as they were, but
that a candidate which an interrupted capture has completed may have been published. -/
def FailsSafely (env : SnapshotEnvironment δ) : Prop :=
  ∀ config kind input disk fs e disk', (stage env config kind input).run fs disk = (.error e, disk') →
    (capture env config kind input).run fs disk = (.error e, disk') ∧
      (∀ i, disk'.ring.published i = disk.ring.published i ∨
        Waits env disk.ring i ∧ disk'.ring.published i = disk.ring.get ⟨.next, i⟩) ∧
      disk'.manual = disk.manual

/-- **Failures before the publication.** -/
theorem fails_safely (env : SnapshotEnvironment δ) : FailsSafely env := by
  intro config kind input disk fs e disk' hrun
  refine ⟨(run_bind_of_not_ok _).1 e disk' hrun, ?_⟩
  rcases kind with _ | label
  · have hwp : (stage env config .healthy input).wp
        (fun _ t => (∀ i, KeptAt env i disk.ring t.ring) ∧ t.manual = disk.manual)
        (fun _ t => (∀ i, KeptAt env i disk.ring t.ring) ∧ t.manual = disk.manual)
        (fun t => (∀ i, KeptAt env i disk.ring t.ring) ∧ t.manual = disk.manual) disk := by
      rw [stage, wp_bind, onRing, wp_zoom]
      exact wp_mono (fun _ t ht => ⟨ht, rfl⟩) (fun _ t ht => ⟨ht, rfl⟩)
        (fun t ht => ⟨ht, rfl⟩) (wp_stageHealthy_kept input disk.ring)
    have hmeets := (wp_iff_run _ _ _ _ _).mp hwp fs
    rw [hrun] at hmeets
    exact hmeets
  · have hwp : (stage env config (.manual label) input).Within OnlyStaging :=
      Program.Within.bind (R := OnlyStaging) OnlyStaging.trans
        (fun disk => wp_imp (fun _ _ ht => ht.1)
          (wp_stageManual config label input disk))
        fun _ => Program.ReadOnly.within OnlyStaging.refl (readOnly_pure _)
    have hmeets := (wp_iff_run _ _ _ _ _).mp (hwp disk) fs
    rw [hrun] at hmeets
    exact ⟨fun i => Or.inl (by rw [hmeets.ring]), hmeets.manual⟩

end Failures

/-! ## 2. What is staged -/

section Staged

variable {δ : Type} [DecidableEq δ] {env : SnapshotEnvironment δ} {input : CaptureInput}
  {captured : FileIndex → CapturedAllowedFile δ} {kind : SnapshotKind}

def manifestFor (env : SnapshotEnvironment δ) (kind : SnapshotKind) (input : CaptureInput)
    (files : CapturedFiles δ) : SnapshotManifest δ :=
  { captureManifest env input files with kind := kind }

omit [DecidableEq δ] in
theorem countP_present (h : CapturesProfile env input.sources captured) (xs : List FileIndex) :
    xs.countP (fun i => decide ((captured i).record.state = .present)) =
      (stagedBlobs captured xs).length := by
  induction xs with
  | nil => rfl
  | cons x xs ih =>
    have hblobs : stagedBlobs captured (x :: xs) =
        ((captured x).bytes.toList.map fun bytes => (toString x.val, bytes)) ++
          stagedBlobs captured xs := by rw [stagedBlobs, List.flatMap_cons, stagedBlobs]
    have hpresent := h.state_present_iff x
    rw [List.countP_cons, ih, hblobs, List.length_append, List.length_map, Nat.add_comm]
    rcases hbytes : (captured x).bytes with _ | bytes
    · rw [hbytes] at hpresent
      rw [if_neg (by rw [decide_eq_true_eq, hpresent]; exact Bool.noConfusion)]
      rfl
    · rw [hbytes] at hpresent
      rw [if_pos (decide_eq_true (hpresent.mpr rfl))]
      rfl

omit [DecidableEq δ] in
theorem records_capturedFiles (i : FileIndex) :
    (capturedFiles env captured).records i = (captured i).record := by
  rw [capturedFiles, foldl_addCaptured_records, if_pos (List.mem_finRange i)]

omit [DecidableEq δ] in
theorem describesProfile_capture (h : CapturesProfile env input.sources captured)
    (hid : validateIdentifier input.snapshotId = .ok ())
    (hversion : validateMetadataText "DSH version" input.dshVersion MAX_METADATA_TEXT_BYTES = .ok ())
    (hlabel : ∀ label, kind = .manual (some label) →
      validateMetadataText "manual label" label MAX_METADATA_TEXT_BYTES = .ok ()) :
    DescribesProfile env captured (manifestFor env kind input (capturedFiles env captured)) where
  snapshotId := hid
  dshVersion := hversion
  label := hlabel
  schema := rfl
  profileName := rfl
  files := records_capturedFiles
  fileCount := by
    show (List.finRange 7).countP (fun i =>
      decide (((capturedFiles env captured).records i).state = .present)) = _
    simp only [records_capturedFiles]
    exact countP_present h _
  totalBytes := by
    show (capturedFiles env captured).totalBytes = _
    rw [capturedFiles, foldl_addCaptured_totalBytes]
    exact Nat.zero_add _
  pluginCount := by
    show (capturedFiles env captured).pluginCount = _
    rw [capturedFiles, foldl_addCaptured_pluginCount, if_pos (List.mem_finRange 0)]

/-- A store in which nothing stands in the way of a capture: for a healthy snapshot, a ring
without orphans and without damage; for a manual one, room in `manual`, and a new identifier. -/
def Admits (env : SnapshotEnvironment δ) (config : SnapshotStoreConfig) (kind : SnapshotKind)
    (input : CaptureInput) (disk : StoreDisk) : Prop :=
  match kind with
  | .healthy => TidyRing (env.configured config) disk.ring ∧ NoDamage env disk.ring
  | .manual _ => disk.manualStrays = [] ∧
      disk.manualDirectories.length < config.maxManualSnapshots ∧
        disk.staging.lookup input.snapshotId = none ∧ disk.manual.lookup input.snapshotId = none

/-- The snapshot with the manifest is published. -/
def Stored (env : SnapshotEnvironment δ) (kind : SnapshotKind) (input : CaptureInput)
    (manifest : SnapshotManifest δ) (disk : StoreDisk) : Prop :=
  manifest.snapshotId = input.snapshotId ∧ ∃ directory,
    loadValidSnapshot env directory = .ok manifest ∧
      match kind with
      | .healthy => ∃ index, disk.ring.get ⟨.slot, index⟩ = some directory
      | .manual _ => disk.manual.lookup input.snapshotId = some directory

theorem lookup_modifyStaging (id : String) (f : SnapshotDirectory → SnapshotDirectory)
    (disk : StoreDisk) :
    (disk.modifyStaging id f).staging.lookup id = (disk.staging.lookup id).map f := by
  rw [StoreDisk.modifyStaging]
  split
  · next directory h => rw [h]; exact AList.lookup_insert _
  · next h => rw [h]; rfl

theorem returns_capture_healthy {config : SnapshotStoreConfig} (hconfig : config.Valid)
    {disk : StoreDisk} (hdisk : Admits env config .healthy input disk)
    (h : CapturesProfile env input.sources captured)
    (hversion : validateMetadataText "DSH version" input.dshVersion MAX_METADATA_TEXT_BYTES = .ok ())
    {encoded : Bytes} (hencode : env.encodeManifest
      (manifestFor env .healthy input (capturedFiles env captured)) = .ok encoded)
    (hload : loadValidSnapshot env (stagedDirectory captured encoded) =
      .ok (manifestFor env .healthy input (capturedFiles env captured))) :
    (capture env config .healthy input).returns (Stored env .healthy input) disk := by
  have hcapturable : Capturable (env.configured config) input :=
    ⟨hversion, captured, encoded, ⟨h.files, h.package, h.modes⟩, hencode, hload⟩
  rw [capture_healthy, onRing, returns_zoom]
  refine returns_mono ?_
    (returns_captureHealthy hconfig.1.1 hdisk.1 hdisk.2 hcapturable)
  rintro manifest ring ⟨index, hfilled⟩
  obtain ⟨directory, hslot, hholds⟩ := hfilled.published
  exact ⟨hfilled.snapshotId, directory, hholds.1, index, hslot⟩

omit [DecidableEq δ] in
theorem returns_fillManual {label : Option String}
    (h : CapturesProfile env input.sources captured) {encoded : Bytes}
    (hencode : env.encodeManifest (manifestFor env (.manual label) input
      (capturedFiles env captured)) = .ok encoded) {disk : StoreDisk} {new : SnapshotDirectory}
    (hnew : disk.staging.lookup input.snapshotId = some new) :
    (fillDirectory (StoreDisk.modifyStaging input.snapshotId) env (manualManifest env label input)
      input.sources).returns
      (fun manifest disk' => (manifest = manifestFor env (.manual label) input
          (capturedFiles env captured) ∧
        disk'.staging.lookup input.snapshotId = some (stagedDirectory captured encoded)) ∧
          OnlyStaging disk disk') disk := by
  refine returns_and_of_wp ?_ (within_fillDirectory OnlyStaging.refl OnlyStaging.trans
    (fun f disk => .modifyStaging input.snapshotId f disk) disk)
  exact returns_fillDirectory (fun disk : StoreDisk => disk.staging.lookup input.snapshotId)
    (lookup_modifyStaging input.snapshotId) h hencode (by rw [hnew]; rfl)

/-- The stage of a manual capture of what the loader accepts. -/
theorem returns_stageManual {config : SnapshotStoreConfig} {label : Option String}
    {disk : StoreDisk} (hdisk : Admits env config (.manual label) input disk)
    (h : CapturesProfile env input.sources captured)
    (hversion : validateMetadataText "DSH version" input.dshVersion MAX_METADATA_TEXT_BYTES = .ok ())
    (hlabel : checkLabel label = .ok ()) {encoded : Bytes} (hencode : env.encodeManifest
      (manifestFor env (.manual label) input (capturedFiles env captured)) = .ok encoded)
    (hload : loadValidSnapshot env (stagedDirectory captured encoded) =
      .ok (manifestFor env (.manual label) input (capturedFiles env captured))) :
    (stageManual env config label input).returns
      (fun manifest disk' => manifest = manifestFor env (.manual label) input
          (capturedFiles env captured) ∧
        disk'.staging.lookup input.snapshotId = some (stagedDirectory captured encoded) ∧
          disk'.manual.lookup input.snapshotId = none) disk := by
  obtain ⟨hstrays, hcount, hstaging, hmanual⟩ := hdisk
  have hbounded : boundedSubdirectories disk (config.maxManualSnapshots + 1) =
      .ok disk.manualDirectories := by
    rw [boundedSubdirectories, hstrays]
    show (if _ then _ else _ : Except SnapshotError (List SnapshotDirectory)) = _
    rw [if_neg (by omega)]
  have hnew : ¬ ((disk.staging.lookup input.snapshotId).isSome = true) := by
    rw [hstaging]; exact Bool.noConfusion
  rw [stageManual, hlabel, hversion]
  show (checkManualCount config >>= _ : StoreProgram (SnapshotManifest δ)).returns _ disk
  rw [returns_bind, checkManualCount, returns_bind, returns_read, hbounded]
  show (if _ then _ else _ : StoreProgram Unit).returns _ disk
  rw [if_neg (by omega)]
  show (ensureNewStaging input.snapshotId >>= _ : StoreProgram (SnapshotManifest δ)).returns _ disk
  rw [returns_bind, ensureNewStaging, returns_bind, returns_read,
    if_neg hnew, returns_durable, returns_bind, Program.toExcept]
  refine returns_tryCatch ?_
  rw [returns_map, returns_bind]
  refine returns_mono ?_ (returns_fillManual h hencode (AList.lookup_insert _))
  rintro manifest disk₁ ⟨⟨rfl, hstaged⟩, honly⟩
  rw [returns_bind, checkManualCandidate, returns_bind, returns_read,
    hstaged]
  show (Program.ofExcept (loadValidSnapshot env _) >>= _ : StoreProgram Unit).returns _ disk₁
  rw [hload]
  show (if _ then _ else _ : StoreProgram Unit).returns _ disk₁
  have hcandidate : ¬ ((manifestFor env (.manual label) input
      (capturedFiles env captured)).snapshotId ≠ input.snapshotId ∨
        (manifestFor env (.manual label) input (capturedFiles env captured)).kind = .healthy) :=
    not_or.mpr ⟨not_not.mpr rfl, fun hkind => by cases hkind⟩
  rw [if_neg hcandidate]
  refine ⟨rfl, hstaged, ?_⟩
  rw [honly.manual]
  exact hmanual
theorem returns_capture_manual {config : SnapshotStoreConfig} {label : Option String}
    {disk : StoreDisk} (hdisk : Admits env config (.manual label) input disk)
    (h : CapturesProfile env input.sources captured)
    (hversion : validateMetadataText "DSH version" input.dshVersion MAX_METADATA_TEXT_BYTES = .ok ())
    (hlabel : checkLabel label = .ok ()) {encoded : Bytes} (hencode : env.encodeManifest
      (manifestFor env (.manual label) input (capturedFiles env captured)) = .ok encoded)
    (hload : loadValidSnapshot env (stagedDirectory captured encoded) =
      .ok (manifestFor env (.manual label) input (capturedFiles env captured))) :
    (capture env config (.manual label) input).returns (Stored env (.manual label) input) disk := by
  rw [capture, stage, returns_bind, returns_bind]
  refine returns_mono ?_ (returns_stageManual hdisk h hversion hlabel hencode hload)
  rintro _ disk₁ ⟨rfl, hstaged, hmanual⟩
  show (publishManual env input.snapshotId >>= fun _ => pure _).returns _ disk₁
  rw [returns_bind, publishManual]
  refine returns_tryCatch ?_
  rw [returns_bind, returns_read, if_pos ⟨by rw [hstaged]; rfl, hmanual⟩,
    returns_durable]
  refine ⟨rfl, _, hload, ?_⟩
  show (StoreDisk.publishStaging input.snapshotId disk₁).manual.lookup input.snapshotId = _
  rw [StoreDisk.publishStaging, hstaged]
  exact AList.lookup_insert _

/-- **What the loader accepts, and what a capture can do**: the capture of a profile whose files
are captured goes through, and the loader accepts what it stages, if and only if the encoded
manifest is within its bound and no key on the way to a secret contains a control character.
A capture that fails before its publication leaves the published snapshots alone. -/
theorem capture_loads_iff (h : CapturesProfile env input.sources captured)
    (hid : validateIdentifier input.snapshotId = .ok ())
    (hversion : validateMetadataText "DSH version" input.dshVersion MAX_METADATA_TEXT_BYTES = .ok ())
    (hlabel : ∀ label, kind = .manual (some label) →
      validateMetadataText "manual label" label MAX_METADATA_TEXT_BYTES = .ok ())
    {encoded : Bytes}
    (hencode : env.encodeManifest (manifestFor env kind input (capturedFiles env captured)) =
      .ok encoded)
    (hparse : env.parseManifest encoded =
      .ok (manifestFor env kind input (capturedFiles env captured))) :
    (loadValidSnapshot env (stagedDirectory captured encoded) =
        .ok (manifestFor env kind input (capturedFiles env captured)) ∧
      (∀ config disk, config.Valid → Admits env config kind input disk →
        (capture env config kind input).returns (Stored env kind input) disk) ∧
      FailsSafely env) ↔
      encoded.length ≤ MAX_MANIFEST_BYTES ∧ ∀ i source, input.sources i = some source →
        PlainSource env.codecs (FILE_POLICY i) source := by
  have hiff := loadValidSnapshot_staged_iff h
    (describesProfile_capture h hid hversion hlabel) hparse
  constructor
  · rintro ⟨hload, -⟩
    exact hiff.mp hload
  · intro hplain
    have hload := hiff.mpr hplain
    refine ⟨hload, fun config disk hconfig hdisk => ?_, fails_safely env⟩
    rcases kind with _ | label
    · exact returns_capture_healthy hconfig hdisk h hversion hencode hload
    · have hchecked : checkLabel label = .ok () := by
        rcases label with _ | text
        · rfl
        · exact hlabel text rfl
      exact returns_capture_manual hdisk h hversion hchecked hencode hload

end Staged

/-! ## A package without secrets -/

/-- The snapshot of a package without secrets is one that the loader accepts. -/
theorem loadValidSnapshot_packageInput :
    loadValidSnapshot oneSlotEnvironment (stagedDirectory packageCaptured (ascii "healthy-1")) =
      .ok (packageManifest "healthy-1") := by
  have hmanifest : manifestFor oneSlotEnvironment .healthy (packageInput "healthy-1")
      (capturedFiles oneSlotEnvironment packageCaptured) = packageManifest "healthy-1" :=
    captureManifest_packageInput "healthy-1"
  have hparse : oneSlotEnvironment.parseManifest (ascii "healthy-1") =
      .ok (manifestFor oneSlotEnvironment .healthy (packageInput "healthy-1")
        (capturedFiles oneSlotEnvironment packageCaptured)) := by
    rw [hmanifest]
    rfl
  have hsecrets : secretPaths jsonSyntax (lastWins strippedTree) = [] := by decide +kernel
  have hlabel : ∀ label, SnapshotKind.healthy = .manual (some label) →
      validateMetadataText "manual label" label MAX_METADATA_TEXT_BYTES = .ok () :=
    fun _ hkind => nomatch hkind
  have hload := (capture_loads_iff (capturesProfile_packageInput "healthy-1") (by decide +kernel)
    (by decide +kernel) hlabel rfl hparse).mpr
      ⟨by decide +kernel, fun i source hs => by
        by_cases hi : i = 0
        · subst hi
          obtain rfl := Option.some.inj hs
          intro sanitized _ value hvalue path hpath
          obtain rfl := Except.ok.inj hvalue
          rw [hsecrets] at hpath
          exact absurd hpath List.not_mem_nil
        · rw [sources_packageInput_of_ne hi] at hs
          exact nomatch hs⟩
  exact hload.1.trans (congrArg Except.ok hmanifest)

/-! ## A control character above a secret -/

/-- A package whose only member has a control character in its key and a secret below it. -/
def controlText : Bytes := ascii "\x7b\"\\u0001\":\x7b\"token\":\"x\"\x7d\x7d"

def controlStripped : Bytes := ascii "\x7b\n  \"\\u0001\": \x7b\x7d\n\x7d"

/-- What the JSON parser and encoder do on the two texts. -/
def controlJson : DocumentCodec String Empty where
  parse bytes :=
    if bytes = controlText then
      .ok (.mapping [("\x01", .mapping [("token", .scalar (.text "x"))])])
    else if bytes = controlStripped then .ok (.mapping [("\x01", .mapping [])])
    else .error (.invalid "expected value at line 1 column 1")
  print
    | .mapping [("\x01", .mapping [])] => .ok controlStripped
    | _ => .error "not one of the texts"
  parse_print t bytes t' hprint hparse := by
    split at hprint
    · rw [← Except.ok.inj hprint] at hparse
      exact (Except.ok.inj hparse).symm
    · exact nomatch hprint

/-- The policy files of the profile, captured. -/
def controlCaptured (i : FileIndex) : CapturedAllowedFile Bytes :=
  if i = 0 then
    presentFile id (FILE_POLICY i) ⟨controlText, 0o600⟩ ⟨controlStripped, ["/\x01/token"]⟩
  else missingFile (FILE_POLICY i)

def controlInput : CaptureInput :=
  ⟨"1.0.0", fun i => if i = 0 then some ⟨controlText, 0o600⟩ else none, "healthy-1", 0⟩

/-- An environment that encodes the manifest of this capture as its identifier. -/
def controlEnvironment : SnapshotEnvironment Bytes :=
  let base := { oneSlotEnvironment with codecs := { sampleCodecs with json := controlJson } }
  { base with
    parseManifest := fun bytes =>
      if bytes = ascii "healthy-1" then
        .ok (manifestFor base .healthy controlInput (capturedFiles base controlCaptured))
      else .error "expected value at line 1 column 1" }

theorem capturesProfile_controlInput :
    CapturesProfile controlEnvironment controlInput.sources controlCaptured where
  files i := by
    by_cases hi : i = 0
    · subst hi
      rfl
    · have hsource : controlInput.sources i = none := if_neg hi
      have hcaptured : controlCaptured i = missingFile (FILE_POLICY i) := if_neg hi
      rw [hsource, hcaptured]
      rfl
  package := ⟨controlStripped, rfl, by decide +kernel⟩
  modes i source hs := by
    by_cases hi : i = 0
    · subst hi
      rw [← Option.some.inj hs]
      exact Nat.le_of_ble_eq_true rfl
    · have hsource : controlInput.sources i = none := if_neg hi
      rw [hsource] at hs
      exact nomatch hs

def emptyStore : StoreDisk := ⟨emptyRing, ∅, [], ∅⟩

/-- **A key with a control character blocks every capture.**  Redaction lists its path, and the
loader refuses the path. -/
theorem control_character_blocks_capture :
    CapturesProfile controlEnvironment controlInput.sources controlCaptured ∧
    validateIdentifier controlInput.snapshotId = .ok () ∧
    controlEnvironment.encodeManifest (manifestFor controlEnvironment .healthy controlInput
      (capturedFiles controlEnvironment controlCaptured)) = .ok (ascii "healthy-1") ∧
    controlEnvironment.parseManifest (ascii "healthy-1") = .ok (manifestFor controlEnvironment
      .healthy controlInput (capturedFiles controlEnvironment controlCaptured)) ∧
    Admits controlEnvironment ⟨1, 1⟩ .healthy controlInput emptyStore ∧
    (((fun _ => ()) <$> capture controlEnvironment ⟨1, 1⟩ .healthy controlInput).run []
      emptyStore).1 = .error (.invalidManifest "invalid redacted path: /\x01/token") := by
  have htidy : TidyRing (controlEnvironment.configured ⟨1, 1⟩) emptyRing :=
    ⟨⟨fun _ h => (nomatch h), rfl, rfl⟩, fun _ => ⟨rfl, rfl⟩⟩
  exact ⟨capturesProfile_controlInput, by decide +kernel, rfl, rfl, ⟨htidy, fun _ _ h => (nomatch h)⟩,
    by decide +kernel⟩

end DshNexus.Snapshot
