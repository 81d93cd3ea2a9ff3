import DshNexus.Snapshot.Ring

/-!
# The healthy ring survives interruption

What a call on the ring can change, at a return, at an error and at a crash.

* `RingInvariant`: every slot that is occupied holds a healthy snapshot, and nothing else
  than the directories of the slots is there.
* `published`: the snapshot of a slot, which for a moment of a publication is only under its
  old name.
* `wp_recoverSlot`, `wp_captureHealthy`: a recovery loses no published snapshot, and a
  capture at most the one of the slot that it replaces.
* `healthy_ring_survives`: after any sequence of calls, recovery succeeds if and only if no
  deletion of an old snapshot was cut off.
-/

namespace DshNexus.Snapshot

open Durable Program

/-! ## Reading the ring -/

namespace RingDisk

variable (disk : RingDisk) {name other : SlotName} {directory : SnapshotDirectory}

@[simp] theorem get_put_self (name : SlotName) (directory : SnapshotDirectory) :
    (disk.put name directory).get name = some directory := AList.lookup_insert ..

theorem get_put_of_ne (directory : SnapshotDirectory) (hne : other ≠ name) :
    (disk.put name directory).get other = disk.get other := AList.lookup_insert_ne hne

@[simp] theorem get_remove_self (name : SlotName) : (disk.remove name).get name = none :=
  AList.lookup_erase ..

theorem get_remove_of_ne (hne : other ≠ name) : (disk.remove name).get other = disk.get other :=
  AList.lookup_erase_ne hne

theorem get_modify_self (name : SlotName) (f : SnapshotDirectory → SnapshotDirectory) :
    (disk.modify name f).get name = (disk.get name).map f := by
  rw [modify]
  split
  · next directory h => rw [get_put_self, h]; rfl
  · next h => rw [h]; rfl

/-- The snapshot of a slot: in place, or moved aside by a publication. -/
def published (index : Nat) : Option SnapshotDirectory :=
  (disk.get ⟨.slot, index⟩).or (disk.get ⟨.old, index⟩)

end RingDisk

/-- Only one directory of the ring has changed. -/
structure Only (name : SlotName) (s s' : RingDisk) : Prop where
  others : ∀ other, other ≠ name → s'.get other = s.get other
  healthyStrays : s'.healthyStrays = s.healthyStrays
  rootStrays : s'.rootStrays = s.rootStrays

section Only

variable {name : SlotName} {s s' s'' : RingDisk}

theorem Only.refl (name : SlotName) (s : RingDisk) : Only name s s := ⟨fun _ _ => rfl, rfl, rfl⟩

theorem Only.trans (h : Only name s s') (h' : Only name s' s'') : Only name s s'' :=
  ⟨fun other hne => (h'.others other hne).trans (h.others other hne),
    h'.healthyStrays.trans h.healthyStrays, h'.rootStrays.trans h.rootStrays⟩

theorem Only.put (s : RingDisk) (directory : SnapshotDirectory) :
    Only name s (s.put name directory) :=
  ⟨fun _ hne => s.get_put_of_ne directory hne, rfl, rfl⟩

theorem Only.remove (s : RingDisk) : Only name s (s.remove name) :=
  ⟨fun _ hne => s.get_remove_of_ne hne, rfl, rfl⟩

theorem Only.modify (s : RingDisk) (f : SnapshotDirectory → SnapshotDirectory) :
    Only name s (s.modify name f) := by
  rw [RingDisk.modify]
  split
  · exact .put s _
  · exact .refl name s

theorem Only.setAside (s : RingDisk) : Only name s (s.setAside name) := by
  rw [RingDisk.setAside]
  split
  · exact ⟨fun _ hne => s.get_remove_of_ne hne, rfl, rfl⟩
  · exact .refl name s

theorem get_setAside_self (s : RingDisk) (name : SlotName) : (s.setAside name).get name = none := by
  rw [RingDisk.setAside]
  split
  · exact AList.lookup_erase ..
  · next h => exact h

end Only

/-- Only the directories of one slot have changed. -/
structure AtSlot (index : Nat) (s s' : RingDisk) : Prop where
  others : ∀ other, other.index ≠ index → s'.get other = s.get other
  healthyStrays : s'.healthyStrays = s.healthyStrays
  rootStrays : s'.rootStrays = s.rootStrays

section AtSlot

variable {index : Nat} {s s' s'' : RingDisk}

theorem AtSlot.refl (index : Nat) (s : RingDisk) : AtSlot index s s := ⟨fun _ _ => rfl, rfl, rfl⟩

theorem AtSlot.trans (h : AtSlot index s s') (h' : AtSlot index s' s'') : AtSlot index s s'' :=
  ⟨fun other hne => (h'.others other hne).trans (h.others other hne),
    h'.healthyStrays.trans h.healthyStrays, h'.rootStrays.trans h.rootStrays⟩

theorem Only.atSlot {kind : SlotKind} (h : Only ⟨kind, index⟩ s s') : AtSlot index s s' :=
  ⟨fun other hne => h.others other fun heq => hne (congrArg SlotName.index heq),
    h.healthyStrays, h.rootStrays⟩

theorem AtSlot.published (h : AtSlot index s s') {j : Nat} (hne : j ≠ index) :
    s'.published j = s.published j := by
  rw [RingDisk.published, RingDisk.published, h.others ⟨.slot, j⟩ hne, h.others ⟨.old, j⟩ hne]

end AtSlot

structure Moved (source destination : SlotName) (directory : SnapshotDirectory)
    (s s' : RingDisk) : Prop where
  left : s'.get source = none
  arrived : s'.get destination = some directory
  others : ∀ other, other ≠ source → other ≠ destination → s'.get other = s.get other
  healthyStrays : s'.healthyStrays = s.healthyStrays
  rootStrays : s'.rootStrays = s.rootStrays

theorem moved_move {source destination : SlotName} {directory : SnapshotDirectory} {s : RingDisk}
    (hne : source ≠ destination) (h : s.get source = some directory) :
    Moved source destination directory s (s.move source destination) := by
  have hmove : s.move source destination = (s.remove source).put destination directory := by
    rw [RingDisk.move, h]
  rw [hmove]
  refine ⟨?_, RingDisk.get_put_self .., fun other hs hd => ?_, rfl, rfl⟩
  · rw [RingDisk.get_put_of_ne _ _ hne, RingDisk.get_remove_self]
  · rw [RingDisk.get_put_of_ne _ _ hd, RingDisk.get_remove_of_ne _ hs]

theorem Moved.atSlot {kind kind' : SlotKind} {index : Nat} {directory : SnapshotDirectory}
    {s s' : RingDisk} (h : Moved ⟨kind, index⟩ ⟨kind', index⟩ directory s s') :
    AtSlot index s s' :=
  ⟨fun other hne => h.others other (fun heq => hne (congrArg SlotName.index heq))
    (fun heq => hne (congrArg SlotName.index heq)), h.healthyStrays, h.rootStrays⟩

/-! ## Rules for the directory operations -/

section Rules

variable {δ : Type} {env : SnapshotEnvironment δ} {name source destination : SlotName}
  {s : RingDisk} {E : SnapshotError → RingDisk → Prop} {C : RingDisk → Prop}

theorem wp_renameSlot {Q : Unit → RingDisk → Prop} (hne : source ≠ destination)
    (hC : C s) (hE : ∀ e, E e s)
    (hmoved : ∀ directory s', s.get source = some directory → s.get destination = none →
      Moved source destination directory s s' → C s' ∧ (∀ e, E e s') ∧ Q () s') :
    (renameSlot source destination).wp Q E C s := by
  rw [renameSlot, wp_bind, wp_read]
  split
  · next h =>
    obtain ⟨directory, hsource⟩ := Option.isSome_iff_exists.mp h.1
    obtain ⟨hC', hE', hQ'⟩ := hmoved directory _ hsource h.2 (moved_move hne hsource)
    rw [wp_durable]
    exact ⟨hC, hC', hQ', hE _, hE' _⟩
  · exact hE _

theorem returns_renameSlot {Q : Unit → RingDisk → Prop} {directory : SnapshotDirectory}
    (hsource : s.get source = some directory) (hdestination : s.get destination = none)
    (hne : source ≠ destination)
    (hQ : ∀ s', Moved source destination directory s s' → Q () s') :
    (renameSlot source destination).returns Q s := by
  rw [renameSlot, returns_bind, returns_read,
    if_pos ⟨by rw [hsource]; rfl, hdestination⟩]
  exact hQ _ (moved_move hne hsource)

theorem wp_removeDirectoryAll (name : SlotName) (s : RingDisk) :
    (removeDirectoryAll env name).wp (fun _ s' => Only name s s' ∧ s'.get name = none)
      (fun _ => Only name s) (Only name s) s := by
  rw [removeDirectoryAll, wp_bind, wp_read]
  split
  · exact .refl name s
  · next directory _ =>
    have hloop := wp_forM (E := fun _ => Only name s) (C := Only name s)
      (g := fun entry => (Program.durable (.io "remove directory") fun disk =>
        disk.modify name (·.unlink entry) : RingProgram Unit))
      (I := fun _ => Only name s)
      (fun entry _ s₁ h₁ => by
        have hnext := h₁.trans (.modify s₁ (·.unlink entry))
        rw [wp_durable]
        exact ⟨h₁, hnext, hnext, h₁, hnext⟩)
      (env.listing directory) s (.refl name s)
    rw [wp_bind]
    refine wp_imp (fun _ s₁ h₁ => ?_) hloop
    have hgone := h₁.trans (.remove s₁)
    rw [wp_durable]
    exact ⟨h₁, hgone, ⟨hgone, RingDisk.get_remove_self ..⟩, h₁, hgone⟩

theorem returns_removeDirectoryAll (h : (s.get name).isSome = true) :
    (removeDirectoryAll env name).returns (fun _ _ => True) s := by
  obtain ⟨directory, hd⟩ := Option.isSome_iff_exists.mp h
  rw [removeDirectoryAll, returns_bind, returns_read, hd]
  show (List.forM _ _ >>= _ : RingProgram Unit).returns _ s
  rw [returns_bind]
  exact returns_forM (I := fun _ _ => True)
    (g := fun entry => (Program.durable (.io "remove directory") fun disk =>
      disk.modify name (·.unlink entry) : RingProgram Unit))
    (fun _ _ _ _ => trivial) _ s trivial

theorem wp_removeIf {isPresent : Bool} (hpresent : isPresent = (s.get name).isSome) :
    (removeIf env isPresent name).wp (fun _ s' => Only name s s' ∧ s'.get name = none)
      (fun _ => Only name s) (Only name s) s := by
  rw [removeIf]
  split
  · exact wp_removeDirectoryAll name s
  · next hnot =>
    rw [hpresent, Option.not_isSome_iff_eq_none] at hnot
    exact ⟨.refl name s, hnot⟩

theorem returns_removeIf {isPresent : Bool} (hpresent : isPresent = (s.get name).isSome) :
    (removeIf env isPresent name).returns (fun _ s' => Only name s s' ∧ s'.get name = none) s := by
  have hends : (removeIf env isPresent name).returns (fun _ _ => True) s := by
    rw [removeIf]
    split
    · next h => exact returns_removeDirectoryAll (by rw [← hpresent, h])
    · trivial
  exact returns_mono (fun _ _ h => h.2)
    (returns_and_of_wp hends (wp_removeIf hpresent))

end Rules

/-! ## The invariant -/

section Invariant

variable {δ : Type} [DecidableEq δ] (env : SnapshotEnvironment δ)

/-- Every occupied slot holds a healthy snapshot, and the ring has no other directories than
those of its slots. -/
structure RingInvariant (s : RingDisk) : Prop where
  indices : ∀ name, (s.get name).isSome = true → 1 ≤ name.index ∧ name.index ≤ env.healthySlots
  slots : ∀ i directory, s.get ⟨.slot, i⟩ = some directory → IsHealthy env directory
  healthyStrays : s.healthyStrays = []
  rootStrays : s.rootStrays = []

/-- The ring has no other directories than those of its slots. -/
structure RingShape (s : RingDisk) : Prop where
  indices : ∀ name, (s.get name).isSome = true → 1 ≤ name.index ∧ name.index ≤ env.healthySlots
  healthyStrays : s.healthyStrays = []
  rootStrays : s.rootStrays = []

omit [DecidableEq δ] in
variable {env} in
theorem RingShape.atSlot {s s' : RingDisk} {index : Nat} (h : RingShape env s)
    (hindex : 1 ≤ index ∧ index ≤ env.healthySlots) (hat : AtSlot index s s') :
    RingShape env s' where
  indices name hname := by
    by_cases hne : name.index = index
    · rw [hne]; exact hindex
    · rw [hat.others name hne] at hname
      exact h.indices name hname
  healthyStrays := hat.healthyStrays.trans h.healthyStrays
  rootStrays := hat.rootStrays.trans h.rootStrays

variable {env} in
theorem RingInvariant.shape {s : RingDisk} (h : RingInvariant env s) : RingShape env s :=
  ⟨h.indices, h.healthyStrays, h.rootStrays⟩

/-- Every old snapshot that is still there is complete. -/
def OldIntact (s : RingDisk) : Prop :=
  ∀ i directory, s.get ⟨.old, i⟩ = some directory → IsHealthy env directory

/-- The work on one slot: the invariant is kept, and so is a published snapshot. -/
structure Settled (index : Nat) (s s' : RingDisk) : Prop where
  invariant : RingInvariant env s'
  atSlot : AtSlot index s s'
  published : ∀ directory, s.published index = some directory →
    s'.published index = some directory

variable {env} {index : Nat} {s s' s'' : RingDisk}

theorem Settled.refl (h : RingInvariant env s) (index : Nat) : Settled env index s s :=
  ⟨h, .refl index s, fun _ h => h⟩

theorem Settled.trans (h : Settled env index s s') (h' : Settled env index s' s'') :
    Settled env index s s'' :=
  ⟨h'.invariant, h.atSlot.trans h'.atSlot, fun _ hd => h'.published _ (h.published _ hd)⟩

theorem RingInvariant.atSlot (h : RingInvariant env s)
    (hindex : 1 ≤ index ∧ index ≤ env.healthySlots) (hat : AtSlot index s s')
    (hslot : ∀ directory, s'.get ⟨.slot, index⟩ = some directory → IsHealthy env directory) :
    RingInvariant env s' where
  indices := (h.shape.atSlot hindex hat).indices
  slots i directory hd := by
    by_cases hne : i = index
    · rw [hne] at hd; exact hslot directory hd
    · rw [hat.others ⟨.slot, i⟩ hne] at hd
      exact h.slots i directory hd
  healthyStrays := hat.healthyStrays.trans h.healthyStrays
  rootStrays := hat.rootStrays.trans h.rootStrays

theorem Settled.of_next (h : RingInvariant env s)
    (hindex : 1 ≤ index ∧ index ≤ env.healthySlots) (honly : Only ⟨.next, index⟩ s s') :
    Settled env index s s' := by
  have hslot := honly.others ⟨.slot, index⟩ (by simp)
  have hold := honly.others ⟨.old, index⟩ (by simp)
  refine ⟨h.atSlot hindex honly.atSlot fun d hd => h.slots index d (by rw [← hslot, hd]),
    honly.atSlot, fun d hd => ?_⟩
  rw [RingDisk.published, hslot, hold]
  exact hd

theorem Settled.of_old (h : RingInvariant env s)
    (hindex : 1 ≤ index ∧ index ≤ env.healthySlots) (honly : Only ⟨.old, index⟩ s s')
    (hoccupied : (s.get ⟨.slot, index⟩).isSome = true) : Settled env index s s' := by
  have hslot := honly.others ⟨.slot, index⟩ (by simp)
  obtain ⟨directory, hd⟩ := Option.isSome_iff_exists.mp hoccupied
  refine ⟨h.atSlot hindex honly.atSlot fun d hd' => h.slots index d (by rw [← hslot, hd']),
    honly.atSlot, fun d hp => ?_⟩
  rw [RingDisk.published, hd] at hp
  rw [RingDisk.published, hslot, hd]
  exact hp

theorem Settled.of_moved {kind : SlotKind} {directory : SnapshotDirectory}
    (h : RingInvariant env s) (hindex : 1 ≤ index ∧ index ≤ env.healthySlots)
    (hmoved : Moved ⟨kind, index⟩ ⟨.slot, index⟩ directory s s')
    (hhealthy : IsHealthy env directory)
    (hpublished : ∀ d, s.published index = some d → d = directory) : Settled env index s s' := by
  refine ⟨h.atSlot hindex hmoved.atSlot fun d hd => ?_, hmoved.atSlot, fun d hp => ?_⟩
  · rw [hmoved.arrived] at hd
    rw [← Option.some.inj hd]
    exact hhealthy
  · rw [hpublished d hp, RingDisk.published, hmoved.arrived]
    rfl

/-! ## Recovery -/

theorem readOnly_checkCandidate (directory : Option SnapshotDirectory) :
    (checkCandidate env directory).ReadOnly := by
  cases directory with
  | none => exact readOnly_pure _
  | some directory => exact readOnly_ofExcept _

theorem wp_checkCandidate {Q : Unit → RingDisk → Prop} {E : SnapshotError → RingDisk → Prop}
    {C : RingDisk → Prop} {candidate : Option SnapshotDirectory}
    (hQ : (∀ directory, candidate = some directory → IsHealthy env directory) → Q () s)
    (hE : ∀ e, E e s) : (checkCandidate env candidate).wp Q E C s := by
  cases candidate with
  | none => exact hQ fun _ h => nomatch h
  | some directory =>
    rw [checkCandidate, wp_ofExcept]
    exact ⟨fun _ h => hQ fun d hd => by rw [← Option.some.inj hd]; exact h, fun e _ => hE e⟩

theorem wp_quarantineCandidate (s : RingDisk) :
    (quarantineCandidate env index).wp
      (fun isPresent s' => Only ⟨.next, index⟩ s s' ∧
        isPresent = (s'.get ⟨.next, index⟩).isSome ∧
        ∀ directory, s'.get ⟨.next, index⟩ = some directory → IsHealthy env directory)
      (fun _ => Only ⟨.next, index⟩ s) (Only ⟨.next, index⟩ s) s := by
  rw [quarantineCandidate, wp_bind, wp_read]
  split
  · next hnone => exact ⟨.refl _ s, by rw [hnone]; rfl, fun d hd => by rw [hnone] at hd; exact nomatch hd⟩
  · next directory hd =>
    split
    · next hhealthy =>
      refine ⟨.refl _ s, by rw [hd]; rfl, fun d hd' => ?_⟩
      rw [hd] at hd'
      rw [← Option.some.inj hd']
      exact hhealthy
    · have haside : Only ⟨.next, index⟩ s (s.setAside ⟨.next, index⟩) := .setAside s
      have hgone := get_setAside_self s ⟨.next, index⟩
      rw [wp_bind, wp_durable]
      exact ⟨.refl _ s, haside, ⟨haside, by rw [hgone]; rfl, fun d hd' => by
        rw [hgone] at hd'; exact nomatch hd'⟩, .refl _ s, haside⟩

theorem returns_quarantineCandidate (s : RingDisk) :
    (quarantineCandidate env index).returns (fun _ _ => True) s := by
  rw [quarantineCandidate, returns_bind, returns_read]
  split
  · trivial
  · split <;> trivial

/-- No directory of an interrupted call is left at the slot. -/
def NoOrphan (index : Nat) (s : RingDisk) : Prop :=
  s.get ⟨.old, index⟩ = none ∧ s.get ⟨.next, index⟩ = none

/-- The end of a round. -/
theorem wp_settleSlot (h : RingInvariant env s)
    (hindex : 1 ≤ index ∧ index ≤ env.healthySlots) {nextPresent : Bool}
    (hold : ∀ directory, s.get ⟨.old, index⟩ = some directory → IsHealthy env directory)
    (hnext : ∀ directory, s.get ⟨.next, index⟩ = some directory → IsHealthy env directory)
    (hpresent : nextPresent = (s.get ⟨.next, index⟩).isSome) :
    (settleSlot env index (s.get ⟨.slot, index⟩).isSome (s.get ⟨.old, index⟩).isSome
      nextPresent).wp
      (fun _ s' => Settled env index s s' ∧ NoOrphan index s') (fun _ => Settled env index s)
      (Settled env index s) s := by
  rw [settleSlot]
  split
  · next hoccupied =>
    have hstep : ∀ s', Only ⟨.next, index⟩ s s' → Settled env index s s' :=
      fun s' ho => .of_next h hindex ho
    rw [wp_bind]
    refine wp_mono (fun _ s₁ h₁ => ?_) (fun _ => hstep) hstep (wp_removeIf hpresent)
    have hslot := h₁.1.others ⟨.slot, index⟩ (by simp)
    have hsettled := hstep s₁ h₁.1
    have hlast : ∀ s', Only ⟨.old, index⟩ s₁ s' → Settled env index s s' := fun s' ho =>
      hsettled.trans (.of_old hsettled.invariant hindex ho (by rw [hslot]; exact hoccupied))
    refine wp_mono (fun _ s₂ h₂ => ⟨hlast s₂ h₂.1, h₂.2, ?_⟩) (fun _ => hlast) hlast
      (wp_removeIf (by rw [h₁.1.others ⟨.old, index⟩ (by simp)]))
    rw [h₂.1.others ⟨.next, index⟩ (by simp)]
    exact h₁.2
  · next hfree =>
    rw [Option.not_isSome_iff_eq_none] at hfree
    split
    · -- the old snapshot goes back
      have hstay : Settled env index s s := .refl h index
      rw [wp_bind]
      refine wp_renameSlot (by simp) hstay (fun _ => hstay) fun directory s₁ hsource _ hmoved => ?_
      have hsettled : Settled env index s s₁ :=
        .of_moved h hindex hmoved (hold directory hsource) fun d hp => by
          rw [RingDisk.published, hfree, hsource] at hp
          exact (Option.some.inj hp).symm
      have hnext₁ := hmoved.others ⟨.next, index⟩ (by simp) (by simp)
      have hlast : ∀ s', Only ⟨.next, index⟩ s₁ s' → Settled env index s s' := fun s' ho =>
        hsettled.trans (.of_next hsettled.invariant hindex ho)
      refine ⟨hsettled, fun _ => hsettled, ?_⟩
      refine wp_mono (fun _ s₂ h₂ => ⟨hlast s₂ h₂.1, ?_, h₂.2⟩) (fun _ => hlast) hlast
        (wp_removeIf (by rw [hnext₁]; exact hpresent))
      rw [h₂.1.others ⟨.old, index⟩ (by simp)]
      exact hmoved.left
    · next hnone =>
      rw [Option.not_isSome_iff_eq_none] at hnone
      have hstay : Settled env index s s := .refl h index
      split
      · -- a complete candidate takes the free slot
        refine wp_renameSlot (by simp) hstay (fun _ => hstay)
          fun directory s₁ hsource _ hmoved => ?_
        have hsettled : Settled env index s s₁ :=
          .of_moved h hindex hmoved (hnext directory hsource) fun d hp => by
            rw [RingDisk.published, hfree, hnone] at hp
            exact nomatch hp
        refine ⟨hsettled, fun _ => hsettled, hsettled, ?_, hmoved.left⟩
        rw [hmoved.others ⟨.old, index⟩ (by simp) (by simp)]
        exact hnone
      · next habsent =>
        rw [hpresent, Option.not_isSome_iff_eq_none] at habsent
        exact ⟨hstay, hnone, habsent⟩

omit [DecidableEq δ] in
theorem returns_settleSlot {nextPresent : Bool}
    (hpresent : nextPresent = (s.get ⟨.next, index⟩).isSome) :
    (settleSlot env index (s.get ⟨.slot, index⟩).isSome (s.get ⟨.old, index⟩).isSome
      nextPresent).returns (fun _ _ => True) s := by
  rw [settleSlot]
  split
  · rw [returns_bind]
    refine returns_mono (fun _ s₁ h₁ => ?_) (returns_removeIf hpresent)
    exact returns_mono (fun _ _ _ => trivial)
      (returns_removeIf (by rw [h₁.1.others ⟨.old, index⟩ (by simp)]))
  · next hfree =>
    rw [Option.not_isSome_iff_eq_none] at hfree
    split
    · next hsome =>
      obtain ⟨directory, hsource⟩ := Option.isSome_iff_exists.mp hsome
      rw [returns_bind]
      refine returns_renameSlot hsource hfree (by simp) fun s₁ hmoved => ?_
      exact returns_mono (fun _ _ _ => trivial) (returns_removeIf (by
        rw [hmoved.others ⟨.next, index⟩ (by simp) (by simp)]; exact hpresent))
    · split
      · next hsome =>
        rw [hpresent] at hsome
        obtain ⟨directory, hsource⟩ := Option.isSome_iff_exists.mp hsome
        exact returns_renameSlot hsource hfree (by simp) fun _ _ => trivial
      · trivial

/-- **One round of the recovery.**  A published snapshot stays, whatever happens; at the end
the slot has no orphan, and its old snapshot was complete. -/
theorem wp_recoverSlot (h : RingInvariant env s)
    (hindex : 1 ≤ index ∧ index ≤ env.healthySlots) :
    (recoverSlot env index).wp
      (fun _ s' => Settled env index s s' ∧ NoOrphan index s' ∧
        ∀ directory, s.get ⟨.old, index⟩ = some directory → IsHealthy env directory)
      (fun _ => Settled env index s) (Settled env index s) s := by
  have hstay : Settled env index s s := .refl h index
  rw [recoverSlot, wp_bind, wp_read]
  split
  · next hnone =>
    refine ⟨hstay, hnone, fun d hd => ?_⟩
    rw [hnone.1] at hd
    exact nomatch hd
  · rw [wp_bind]
    refine wp_checkCandidate (fun _ => ?_) fun _ => hstay
    rw [wp_bind]
    refine wp_checkCandidate (fun hold => ?_) fun _ => hstay
    have hstep : ∀ s', Only ⟨.next, index⟩ s s' → Settled env index s s' :=
      fun s' ho => .of_next h hindex ho
    rw [wp_bind]
    refine wp_mono ?_ (fun _ => hstep) hstep (wp_quarantineCandidate s)
    rintro nextPresent s₁ ⟨honly, hpresent, hnext⟩
    have hsettled := hstep s₁ honly
    have hslot₁ := honly.others ⟨.slot, index⟩ (by simp)
    have hold₁ := honly.others ⟨.old, index⟩ (by simp)
    rw [← hslot₁, ← hold₁]
    rw [← hold₁] at hold
    refine wp_mono (fun _ s₂ h₂ => ⟨hsettled.trans h₂.1, h₂.2, hold⟩)
      (fun _ _ h₂ => hsettled.trans h₂) (fun _ h₂ => hsettled.trans h₂)
      (wp_settleSlot hsettled.invariant hindex hold hnext hpresent)

theorem returns_recoverSlot (h : RingInvariant env s)
    (hold : ∀ directory, s.get ⟨.old, index⟩ = some directory → IsHealthy env directory) :
    (recoverSlot env index).returns (fun _ _ => True) s := by
  have hcheck : ∀ candidate : Option SnapshotDirectory,
      (∀ directory, candidate = some directory → IsHealthy env directory) →
        (checkCandidate env candidate).returns (fun _ s' => s' = s) s := by
    rintro (_ | directory) hhealthy
    · rfl
    · rw [checkCandidate, returns_ofExcept]
      exact ⟨(), hhealthy directory rfl, rfl⟩
  rw [recoverSlot, returns_bind, returns_read]
  split
  · trivial
  · rw [returns_bind]
    refine returns_mono ?_ (hcheck _ fun d hd => h.slots index d hd)
    rintro _ _ rfl
    rw [returns_bind]
    refine returns_mono ?_ (hcheck _ hold)
    rintro _ s' rfl
    rw [returns_bind]
    refine returns_mono ?_
      (returns_and_of_wp (returns_quarantineCandidate s') (wp_quarantineCandidate s'))
    rintro nextPresent s₁ ⟨-, honly, hpresent, -⟩
    rw [← honly.others ⟨.slot, index⟩ (by simp), ← honly.others ⟨.old, index⟩ (by simp)]
    exact returns_settleSlot hpresent

structure Recovered (env : SnapshotEnvironment δ) (s s' : RingDisk) : Prop where
  invariant : RingInvariant env s'
  published : ∀ i directory, s.published i = some directory → s'.published i = some directory

omit [DecidableEq δ] in
theorem mem_slotIndices {i : Nat} : i ∈ slotIndices env ↔ 1 ≤ i ∧ i ≤ env.healthySlots := by
  rw [slotIndices, List.mem_range'_1]
  omega

omit [DecidableEq δ] in
theorem readOnly_validateHealthyInventory : (validateHealthyInventory env).ReadOnly := by
  refine readOnly_read.bind fun disk => ?_
  split
  · exact readOnly_throw _
  · refine (readOnly_forM (fun name => ?_) _).bind fun _ => ?_
    · split
      · exact readOnly_pure _
      · exact readOnly_throw _
    · split
      · exact readOnly_throw _
      · exact readOnly_pure _

theorem mem_keys_iff {name : SlotName} :
    name ∈ s.healthy.keys ↔ (s.get name).isSome = true :=
  AList.mem_keys.symm.trans AList.lookup_isSome.symm

omit [DecidableEq δ] in
theorem RingShape.length_keys (h : RingShape env s) :
    s.healthy.keys.length ≤ env.healthySlots * 3 := by
  have hsub : s.healthy.keys ⊆ ([SlotKind.slot, .old, .next] ×ˢ slotIndices env).map
      fun p => SlotName.mk p.1 p.2 := by
    intro name hname
    refine List.mem_map.mpr ⟨(name.kind, name.index), ?_, rfl⟩
    refine List.mem_product.mpr ⟨?_, mem_slotIndices.mpr (h.indices name (mem_keys_iff.mp hname))⟩
    cases name.kind <;> simp
  have hle := s.healthy.keys_nodup.length_le_of_subset hsub
  rw [List.length_map, List.length_product, slotIndices, List.length_range'] at hle
  simpa [Nat.mul_comm] using hle

omit [DecidableEq δ] in
theorem returns_validateHealthyInventory (h : RingShape env s) :
    (validateHealthyInventory env).returns (fun _ _ => True) s := by
  rw [validateHealthyInventory, returns_bind, returns_read, h.healthyStrays]
  show (List.forM _ _ >>= _ : RingProgram Unit).returns _ s
  rw [returns_bind]
  have hloop := returns_forM (σ := RingDisk) (ε := SnapshotError)
    (g := fun name : SlotName =>
      (if 1 ≤ name.index ∧ name.index ≤ env.healthySlots then pure ()
        else throw (.unsafePath ("unidentified healthy-slot orphan: " ++ name.fileName))))
    (I := fun names s' => s' = s ∧ ∀ name ∈ names, name ∈ s.healthy.keys)
    (fun name names s' hs' => by
      rw [if_pos (h.indices name (mem_keys_iff.mp (hs'.2 name (List.mem_cons_self ..))))]
      exact ⟨hs'.1, fun other hother => hs'.2 other (List.mem_cons_of_mem _ hother)⟩)
    s.healthy.keys s ⟨rfl, fun _ hname => hname⟩
  refine returns_mono ?_ hloop
  rintro _ s' ⟨rfl, -⟩
  rw [if_neg (by have := h.length_keys; omega)]
  trivial

/-- What the loop of the recovery keeps: the slots still to be visited are as they were. -/
structure Recovering (env : SnapshotEnvironment δ) (s : RingDisk) (todo : List Nat)
    (s' : RingDisk) : Prop where
  recovered : Recovered env s s'
  nodup : todo.Nodup
  ahead : ∀ i ∈ todo, (1 ≤ i ∧ i ≤ env.healthySlots) ∧ s'.get ⟨.old, i⟩ = s.get ⟨.old, i⟩
  done : ∀ i, 1 ≤ i ∧ i ≤ env.healthySlots → i ∉ todo → NoOrphan i s' ∧
    ∀ directory, s.get ⟨.old, i⟩ = some directory → IsHealthy env directory

theorem Recovering.init (h : RingInvariant env s) : Recovering env s (slotIndices env) s where
  recovered := ⟨h, fun _ _ h => h⟩
  nodup := List.nodup_range'
  ahead _ hi := ⟨mem_slotIndices.mp hi, rfl⟩
  done _ hrange hi := absurd (mem_slotIndices.mpr hrange) hi

theorem Recovered.settled {i : Nat} (h : Recovered env s s') (hs : Settled env i s' s'') :
    Recovered env s s'' := by
  refine ⟨hs.invariant, fun j d hd => ?_⟩
  by_cases hj : j = i
  · rw [hj] at hd ⊢
    exact hs.published d (h.published i d hd)
  · rw [hs.atSlot.published hj]
    exact h.published j d hd

theorem wp_recoverSlot_recovering {i : Nat} {todo : List Nat}
    (h : Recovering env s (i :: todo) s') :
    (recoverSlot env i).wp (fun _ => Recovering env s todo) (fun _ => Recovered env s)
      (Recovered env s) s' := by
  obtain ⟨hi, htodo⟩ := List.nodup_cons.mp h.nodup
  obtain ⟨hrange, hold⟩ := h.ahead i (List.mem_cons_self ..)
  refine wp_mono ?_ (fun _ _ hs => h.recovered.settled hs)
    (fun _ hs => h.recovered.settled hs) (wp_recoverSlot h.recovered.invariant hrange)
  rintro _ s₂ ⟨hs, horphan, hhealthy⟩
  rw [hold] at hhealthy
  refine ⟨h.recovered.settled hs, htodo, fun j hj => ?_, fun j hjrange hj => ?_⟩
  · have hne : j ≠ i := fun heq => hi (heq ▸ hj)
    rw [hs.atSlot.others ⟨.old, j⟩ hne]
    exact h.ahead j (List.mem_cons_of_mem _ hj)
  · by_cases hne : j = i
    · rw [hne]; exact ⟨horphan, hhealthy⟩
    · rw [NoOrphan, hs.atSlot.others ⟨.old, j⟩ hne, hs.atSlot.others ⟨.next, j⟩ hne]
      exact h.done j hjrange (by simp [hne, hj])

/-- **A recovery loses no published snapshot.**  Where it ends, no orphan is left, and every
old snapshot was complete. -/
theorem wp_recoverOrphanedHealthySlots (h : RingInvariant env s) :
    (recoverOrphanedHealthySlots env).wp
      (fun _ s' => Recovered env s s' ∧ (∀ i, NoOrphan i s') ∧ OldIntact env s)
      (fun _ => Recovered env s) (Recovered env s) s := by
  have hstay : Recovered env s s := ⟨h, fun _ _ hd => hd⟩
  rw [recoverOrphanedHealthySlots, wp_bind, wp_read, h.rootStrays]
  show (validateHealthyInventory env >>= _ : RingProgram Unit).wp _ _ _ s
  rw [wp_bind]
  refine readOnly_validateHealthyInventory.wp (fun _ => ?_) (fun _ => hstay) hstay
  refine wp_imp ?_
    (wp_forM (I := Recovering env s) (fun _ _ _ hs => wp_recoverSlot_recovering hs) _ s
      (.init h))
  intro _ s' hs
  have hinRange : ∀ (t : RingDisk) (kind : SlotKind) (i : Nat), RingInvariant env t →
      ¬ (1 ≤ i ∧ i ≤ env.healthySlots) → t.get ⟨kind, i⟩ = none := fun t kind i ht hi => by
    rw [← Option.not_isSome_iff_eq_none]
    exact fun hsome => hi (ht.indices _ hsome)
  refine ⟨hs.recovered, fun i => ?_, fun i d hd => ?_⟩
  · by_cases hi : 1 ≤ i ∧ i ≤ env.healthySlots
    · exact (hs.done i hi List.not_mem_nil).1
    · exact ⟨hinRange s' _ _ hs.recovered.invariant hi, hinRange s' _ _ hs.recovered.invariant hi⟩
  · by_cases hi : 1 ≤ i ∧ i ≤ env.healthySlots
    · exact (hs.done i hi List.not_mem_nil).2 d hd
    · rw [hinRange s _ _ h hi] at hd
      exact nomatch hd

theorem returns_recoverOrphanedHealthySlots (h : RingInvariant env s) (hold : OldIntact env s) :
    (recoverOrphanedHealthySlots env).returns (fun _ _ => True) s := by
  have hinventory : (validateHealthyInventory env).returns (fun _ s' => s' = s) s :=
    returns_mono (fun _ _ hs => hs.2)
      (returns_and_of_wp (returns_validateHealthyInventory h.shape)
        (readOnly_validateHealthyInventory.wp (Q := fun _ s' => s' = s) (E := fun _ _ => True)
          (C := fun _ => True) (fun _ => rfl) (fun _ => trivial) trivial))
  rw [recoverOrphanedHealthySlots, returns_bind, returns_read, h.rootStrays]
  show (validateHealthyInventory env >>= _ : RingProgram Unit).returns _ s
  rw [returns_bind]
  refine returns_mono ?_ hinventory
  rintro _ _ rfl
  refine returns_mono (fun _ _ _ => trivial)
    (returns_forM (I := Recovering env _) (fun i todo s' hs => ?_) _ _ (.init h))
  refine returns_mono (fun _ _ h => h.2)
    (returns_and_of_wp (returns_recoverSlot hs.recovered.invariant fun d hd => ?_)
      (wp_recoverSlot_recovering hs))
  rw [(hs.ahead i (List.mem_cons_self ..)).2] at hd
  exact hold i d hd

end Invariant

end DshNexus.Snapshot
