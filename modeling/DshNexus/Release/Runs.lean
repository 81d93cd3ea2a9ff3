import DshNexus.Release.Fallback

/-!
# Runs of the release store

Every sequence of calls from a new store, each of which may fail or crash at any durable step,
leaves a store that can be loaded, with a catalog that is in order.  Nothing is asked of the
calls: a rollback may publish a fallback that is being removed, and the next load leaves it out.

1. `Loaded.length_le`: a store that lists no new release lists no more of them.
2. `Repoints`: promotion, rollback, health observation and the restores of pointers write the
   pointer document and leave the slots alone.
3. `Ended`: a deletion that has begun stays so until its slot is gone, in whatever order the
   files of the slot are deleted.
4. `release_catalog_sound`: what holds after every run.
-/

namespace DshNexus.Release

open Durable Program

section Runs

variable {δ : Type} [DecidableEq δ] {env : ReleaseEnvironment δ} {s s' s'' : ReleaseDisk δ}
  {id : String}

/-! ## 1. The number of releases -/

omit [DecidableEq δ] in
theorem Loaded.length_le {catalog catalog' : ReleaseCatalog} (h : Loaded env s catalog)
    (h' : Loaded env s' catalog') (ids : List String)
    (hlisted : ∀ id, Selectable s' id → id ∈ ids ∨ Selectable s id) :
    catalog'.releases.length ≤ ids.length + catalog.releases.length := by
  have hsub : catalog'.releases.map (·.id) ⊆ ids ++ catalog.releases.map (·.id) := by
    intro id hid
    rw [List.mem_append]
    exact (hlisted id ((h'.has_iff id).mp hid)).imp_right (h.has_iff id).mpr
  have hlength := (h'.consistent.2.subperm hsub).length_le
  rw [List.length_append, List.length_map, List.length_map] at hlength
  exact hlength

/-- The invariant of a run: the store is sound, and it lists no more releases than it has room
for. -/
structure RunSound (env : ReleaseEnvironment δ) (s : ReleaseDisk δ) : Prop where
  store : StoreSound env s
  bounded : ∀ catalog, loadUnlocked env s = .ok catalog → catalog.releases.length ≤ env.maxSlots

theorem RunSound.of_listed (h : RunSound env s) (hstore : StoreSound env s')
    (hlisted : ∀ id, Selectable s' id → Selectable s id) : RunSound env s' := by
  refine ⟨hstore, fun catalog' hload' => ?_⟩
  obtain ⟨catalog, hload⟩ := h.store.loads
  have hle := (loadUnlocked_eq_ok hload).length_le (loadUnlocked_eq_ok hload') [] fun id hid =>
    Or.inr (hlisted id hid)
  have hbounded := h.bounded catalog hload
  rw [List.length_nil] at hle
  omega

/-- The deletion of the slot has begun: its ownership record is written. -/
def Begun (s : ReleaseDisk δ) (id : String) : Prop := (s.owned.lookup id).isSome = true

/-- A deletion that has begun is still under way, or its slot is gone. -/
def Ended (s : ReleaseDisk δ) (id : String) : Prop := Begun s id ∨ s.slots.lookup id = none

omit [DecidableEq δ] in
theorem Ended.not_selectable (h : Ended s id) : ¬ Selectable s id := by
  rintro ⟨slot, hslot, howned, -⟩
  rcases h with hbegun | hnone
  · rw [Begun, howned] at hbegun
    cases hbegun
  · rw [hnone] at hslot
    cases hslot

structure Leaves (env : ReleaseEnvironment δ) (s s' : ReleaseDisk δ) : Prop where
  sound : RunSound env s'
  ended : ∀ id, Begun s id → Ended s' id

theorem RunSound.leaves (h : RunSound env s) : Leaves env s s := ⟨h, fun _ => Or.inl⟩

omit [DecidableEq δ] in
theorem Works.storeSound (h : Works env id s s') (hsound : StoreSound env s) :
    StoreSound env s' := by
  have hdocument : pointerDocument s' = pointerDocument s := by
    rw [pointerDocument, pointerDocument, h.touches.pointers]
  refine ⟨fun other slot hslot => ?_, by rw [hdocument]; exact hsound.document⟩
  by_cases hne : other = id
  · subst hne
    exact h.sound (fun slot' hslot' => hsound.slots other slot' hslot') slot hslot
  · rw [h.touches.slots other hne] at hslot
    exact hsound.slots other slot hslot

omit [DecidableEq δ] in
theorem Touches.selectable_iff (h : Touches id s s') {other : String} (hne : other ≠ id) :
    Selectable s' other ↔ Selectable s other := by
  rw [Selectable, Selectable, h.slots other hne, h.owned other hne]

theorem Registers.leaves {request : Registration} (h : Registers env request s s')
    (hsound : RunSound env s) : Leaves env s s' := by
  rcases h with rfl | ⟨-, ⟨catalog, hload, hroom⟩, hfills⟩
  · exact hsound.leaves
  · have hbegun : ∀ id, Begun s id → Begun s' id := fun id hid => by
      rw [Begun, hfills.owned]
      exact hid
    refine ⟨⟨hfills.works.storeSound hsound.store, fun catalog' hload' => ?_⟩,
      fun id hid => Or.inl (hbegun id hid)⟩
    have hle := (loadUnlocked_eq_ok hload).length_le (loadUnlocked_eq_ok hload') [request.id]
      fun id hid => by
        by_cases hne : id = request.id
        · exact Or.inl (by rw [hne]; exact List.mem_singleton_self _)
        · exact Or.inr ((hfills.works.touches.selectable_iff hne).mp hid)
    rw [List.length_singleton] at hle
    omega

/-! ## 2. The pointers -/

/-- The slots and the ownership records are left alone, in a sound store. -/
structure Repoints (env : ReleaseEnvironment δ) (s s' : ReleaseDisk δ) : Prop where
  store : StoreSound env s'
  slots : s'.slots = s.slots
  owned : s'.owned = s.owned

theorem Repoints.leaves (h : Repoints env s s') (hsound : RunSound env s) : Leaves env s s' := by
  refine ⟨hsound.of_listed h.store fun id hid => (selectable_congr h.slots h.owned).mp hid,
    fun id hid => Or.inl ?_⟩
  rw [Begun, h.owned]
  exact hid

/-- The pointers of the catalog can be stored. -/
structure Storable (catalog : ReleaseCatalog) : Prop where
  valid : ∀ id, catalog.currentRelease = some id ∨ catalog.lastKnownGood = some id →
    validateReleaseId id = .ok ()
  differ : ¬ (catalog.currentRelease.isSome = true ∧
    catalog.currentRelease = catalog.lastKnownGood)

omit [DecidableEq δ] in
theorem Loaded.storable {catalog : ReleaseCatalog} (h : Loaded env s catalog) :
    Storable catalog := ⟨h.pointers_valid, h.differ⟩

theorem storable_of_normalize {catalog catalog' : ReleaseCatalog}
    (h : catalog.normalize = .ok catalog') : Storable catalog' := by
  obtain ⟨-, hcurrent, hlkg, hdiffer, rfl⟩ := ReleaseCatalog.normalize_eq_ok.mp h
  exact ⟨fun id hid => hid.elim (fun h => (hcurrent id h).1) fun h => (hlkg id h).1, hdiffer⟩

omit [DecidableEq δ] in
theorem Confirms.validateReleaseId {record : HealthyReleaseEvidence δ}
    (h : Confirms env s record) : validateReleaseId record.releaseId = .ok () := by
  unfold Confirms healthFingerprint at h
  cases hpath : normalPath record.entry with
  | none => rw [hpath] at h; cases h
  | some entry =>
    rw [hpath] at h
    obtain ⟨_, hslot, -⟩ := bind_eq_ok h
    obtain ⟨_, hvalid, -⟩ := bind_eq_ok hslot
    exact hvalid

theorem storable_of_fallback {catalog : ReleaseCatalog} {selected : String}
    {fallback : Option String} (hvalid : validateReleaseId selected = .ok ())
    (hfallback : verifiedFallback env s (some selected) = .ok fallback)
    (hcurrent : catalog.currentRelease = some selected)
    (hlkg : catalog.lastKnownGood = fallback) : Storable catalog := by
  have hrecord := verifiedFallback_eq_ok hfallback
  refine ⟨fun id hid => ?_, ?_⟩
  · rw [hcurrent, hlkg] at hid
    rcases hid with hid | hid
    · rw [← Option.some.inj hid]
      exact hvalid
    · obtain ⟨record, hr, rfl⟩ := (hrecord id).mp hid
      obtain ⟨-, -, -, ⟨-, hconfirms⟩, -⟩ := hr
      exact hconfirms.validateReleaseId
  · rintro ⟨-, heq⟩
    rw [hcurrent, hlkg] at heq
    obtain ⟨record, hr, hid⟩ := (hrecord selected).mp heq.symm
    obtain ⟨-, -, -, ⟨hne, -⟩, -⟩ := hr
    exact hne (by rw [hid])

omit [DecidableEq δ] in
theorem Storable.repoints {catalog : ReleaseCatalog} (h : Storable catalog)
    (hsound : StoreSound env s) {healthy : List (HealthyReleaseEvidence δ)}
    (hbounded : healthy.length ≤ 256) :
    Repoints env s { s with pointers := some ⟨RELEASE_SCHEMA_VERSION, catalog.currentRelease,
      catalog.lastKnownGood, healthy⟩ } :=
  ⟨⟨hsound.slots, ⟨rfl, h.valid, h.differ, hbounded⟩⟩, rfl, rfl⟩

omit [DecidableEq δ] in
theorem StoreSound.repoints (h : StoreSound env s) : Repoints env s s := ⟨h, rfl, rfl⟩

omit [DecidableEq δ] in
theorem repoints_writePointers {catalog : ReleaseCatalog} (h : Storable catalog)
    (hsound : StoreSound env s) : (writePointers catalog).wp (fun _ => Repoints env s)
      (fun _ => Repoints env s) (Repoints env s) s := by
  have hsame := hsound.repoints
  rw [writePointers, wp_bind, wp_inspect]
  refine ⟨fun healthy hhealthy => ?_, fun _ _ => hsame⟩
  obtain rfl := healthRecords_eq_ok hhealthy
  have hnext := h.repoints hsound hsound.document.bounded
  rw [wp_durable]
  exact ⟨hsame, hnext, hnext, hsame, hnext⟩

theorem repoints_publish {catalog : ReleaseCatalog} (newCurrent : Option String)
    (hsound : StoreSound env s) (h : Storable catalog) :
    (do
      retargetLaunchPlaceholder env newCurrent
      writePointers catalog
      pure catalog : ReleaseProgram δ ReleaseCatalog).wp (fun _ => Repoints env s)
        (fun _ => Repoints env s) (Repoints env s) s := by
  have hsame : ∀ s₁, SameStore s s₁ → Repoints env s s₁ := by
    rintro s₁ ⟨hslots, howned, hpointers⟩
    refine ⟨⟨by rw [hslots]; exact hsound.slots, ?_⟩, hslots, howned⟩
    rw [pointerDocument, hpointers]
    exact hsound.document
  rw [wp_bind]
  refine wp_mono (fun _ s₁ hs₁ => ?_) (fun _ => hsame) hsame (within_retarget newCurrent s)
  have h₁ := hsame s₁ hs₁
  have htrans : ∀ s₂, Repoints env s₁ s₂ → Repoints env s s₂ := fun s₂ h₂ =>
    ⟨h₂.store, h₂.slots.trans h₁.slots, h₂.owned.trans h₁.owned⟩
  rw [wp_bind]
  exact wp_mono (fun _ => htrans) (fun _ => htrans) htrans
    (repoints_writePointers h h₁.store)

theorem repoints_promoteInner (id : String) (requireRollback : Bool) (confirmation : Option δ)
    (h : StoreSound env s) : (promoteInner env id requireRollback confirmation).wp
      (fun _ => Repoints env s) (fun _ => Repoints env s) (Repoints env s) s := by
  have hsame := h.repoints
  rw [promoteInner, wp_bind, wp_ofExcept]
  refine ⟨fun _ _ => ?_, fun _ _ => hsame⟩
  rw [wp_bind, wp_inspect]
  refine ⟨fun catalog hload => ?_, fun _ _ => hsame⟩
  have hrest : (if catalog.currentRelease ≠ some id then do
        let fallback ← Program.inspect fun disk => verifiedFallback env disk (some id)
        let catalog ← Program.ofExcept
          { catalog with currentRelease := some id, lastKnownGood := fallback }.normalize
        retargetLaunchPlaceholder env (some id)
        writePointers catalog
        pure catalog
      else pure catalog : ReleaseProgram δ ReleaseCatalog).wp
        (fun _ => Repoints env s) (fun _ => Repoints env s) (Repoints env s) s := by
    split
    · rw [wp_bind, wp_inspect]
      refine ⟨fun fallback _ => ?_, fun _ _ => hsame⟩
      rw [wp_bind, wp_ofExcept]
      refine ⟨fun catalog' hnormal => ?_, fun _ _ => hsame⟩
      exact repoints_publish (some id) h (storable_of_normalize hnormal)
    · exact hsame
  split
  · exact hsame
  by_cases hprotected : requireRollback = true
  · rw [if_pos hprotected, wp_bind, wp_inspect]
    exact ⟨fun _ _ => hrest, fun _ _ => hsame⟩
  · rw [if_neg hprotected]
    exact hrest

theorem repoints_rollback (h : StoreSound env s) : (rollback env).wp (fun _ => Repoints env s)
    (fun _ => Repoints env s) (Repoints env s) s := by
  have hsame := h.repoints
  rw [rollback, wp_bind, wp_inspect]
  refine ⟨fun catalog hload => ?_, fun _ _ => hsame⟩
  have hl := loadUnlocked_eq_ok hload
  split
  · exact hsame
  next lkg hlkg =>
  rw [wp_bind, wp_inspect]
  refine ⟨fun fallback hfallback => ?_, fun _ _ => hsame⟩
  exact repoints_publish (some lkg) h
    (storable_of_fallback (hl.pointers_valid lkg (Or.inr hlkg)) hfallback rfl rfl)

theorem repoints_restoreCheckpointRelease (releaseId : Option String) (h : StoreSound env s) :
    (restoreCheckpointRelease env releaseId).wp (fun _ => Repoints env s)
      (fun _ => Repoints env s) (Repoints env s) s := by
  have hsame := h.repoints
  rw [restoreCheckpointRelease, wp_bind, wp_ofExcept]
  refine ⟨fun _ _ => ?_, fun _ _ => hsame⟩
  rw [wp_bind, wp_inspect]
  refine ⟨fun catalog hload => ?_, fun _ _ => hsame⟩
  rw [wp_bind, wp_inspect]
  refine ⟨fun catalog' happly => repoints_publish _ h ?_, fun _ _ => hsame⟩
  rw [applyCheckpointRelease] at happly
  obtain ⟨_, -, happly⟩ := bind_eq_ok happly
  split at happly
  · obtain ⟨fallback, -, hnormal⟩ := bind_eq_ok happly
    exact storable_of_normalize hnormal
  · rw [← Except.ok.inj happly]
    exact (loadUnlocked_eq_ok hload).storable

theorem repoints_restoreReleasePointers (current lkg : Option String) (h : StoreSound env s) :
    (restoreReleasePointers env current lkg).wp (fun _ => Repoints env s)
      (fun _ => Repoints env s) (Repoints env s) s := by
  have hsame := h.repoints
  rw [restoreReleasePointers, wp_bind, wp_ofExcept]
  refine ⟨fun _ _ => ?_, fun _ _ => hsame⟩
  rw [wp_bind, wp_ofExcept]
  refine ⟨fun _ _ => ?_, fun _ _ => hsame⟩
  rw [wp_bind, wp_inspect]
  refine ⟨fun catalog _ => ?_, fun _ _ => hsame⟩
  rw [wp_bind, wp_inspect]
  refine ⟨fun _ _ => ?_, fun _ _ => hsame⟩
  rw [wp_bind, wp_inspect]
  refine ⟨fun _ _ => ?_, fun _ _ => hsame⟩
  split
  · rw [wp_bind, wp_ofExcept]
    refine ⟨fun catalog' hnormal => ?_, fun _ _ => hsame⟩
    rw [wp_bind]
    refine wp_imp (fun _ s₁ h₁ => ?_)
      (repoints_writePointers (storable_of_normalize hnormal) h)
    rw [wp_inspect]
    exact ⟨fun _ _ => h₁, fun _ _ => h₁⟩
  · rw [wp_inspect]
    exact ⟨fun _ _ => hsame, fun _ _ => hsame⟩

theorem repoints_recordHealthyRelease (evidence : HealthyReleaseEvidence δ) (now : Nat)
    (h : StoreSound env s) : (recordHealthyRelease env evidence now).wp
      (fun _ => Repoints env s) (fun _ => Repoints env s) (Repoints env s) s := by
  have hsame := h.repoints
  rw [recordHealthyRelease, wp_bind, wp_inspect]
  refine ⟨fun _ _ => ?_, fun _ _ => hsame⟩
  rw [wp_bind, wp_inspect]
  refine ⟨fun catalog hload => ?_, fun _ _ => hsame⟩
  split
  · exact hsame
  rw [wp_bind, wp_inspect]
  refine ⟨fun records _ => ?_, fun _ _ => hsame⟩
  split
  · exact hsame
  next hbounded =>
  have hnext := (loadUnlocked_eq_ok hload).storable.repoints h (Nat.not_lt.mp hbounded)
  rw [wp_durable]
  exact ⟨hsame, hnext, hnext, hsame, hnext⟩

/-! ## 3. Deletion -/

omit [DecidableEq δ] in
theorem begun_modifySlot (h : Begun s id) (f : Slot → Slot) : Begun (s.modifySlot id f) id := h

omit [DecidableEq δ] in
theorem ended_removeOwned (h : s.slots.lookup id = none) :
    (Program.durable fileOperationFailed fun disk : ReleaseDisk δ => disk.removeOwned id).wp
      (fun _ s' => Ended s' id) (fun _ s' => Ended s' id) (fun s' => Ended s' id) s := by
  have hgone : ∀ s' : ReleaseDisk δ, s'.slots.lookup id = none → Ended s' id := fun _ => Or.inr
  rw [wp_durable]
  exact ⟨hgone _ h, hgone _ h, hgone _ h, hgone _ h, hgone _ h⟩

theorem ended_deleteInOrder (files : DeletionOrder δ) (ownership : CleanupOwnership δ)
    (guard : Except IoError Unit) (h : Begun s id) :
    (deleteInOrder env files id ownership guard).wp (fun _ s' => Ended s' id)
      (fun _ s' => Ended s' id) (fun s' => Ended s' id) s := by
  rw [deleteInOrder, wp_bind, wp_ofExcept]
  refine ⟨fun _ _ => ?_, fun _ _ => Or.inl h⟩
  rw [wp_bind, wp_inspect]
  refine ⟨fun current hcurrent => ?_, fun _ _ => Or.inl h⟩
  rcases current with _ | current
  · refine ended_removeOwned ?_
    rw [remaining] at hcurrent
    split at hcurrent
    · next hslot => exact hslot
    · obtain ⟨_, -, hcurrent⟩ := bind_eq_ok hcurrent
      cases hcurrent
  · show (((files.order current).forM _ >>= _ : ReleaseProgram δ Unit)).wp _ _ _ s
    rw [wp_bind]
    refine wp_imp (fun _ s₁ hs₁ => ?_)
      (wp_forM (I := fun _ s₁ => Begun s₁ id) (fun entry _ s₁ hs₁ => ?_)
        (files.order current) s h)
    · -- the slot goes first, then its record
      rw [wp_bind, wp_durable]
      have hnone : (s₁.removeSlot id).slots.lookup id = none := AList.lookup_erase _ _
      exact ⟨Or.inl hs₁, Or.inr hnone, ended_removeOwned hnone, Or.inl hs₁, Or.inr hnone⟩
    · rw [wp_bind, wp_inspect]
      refine ⟨fun _ _ => ?_, fun _ _ => Or.inl hs₁⟩
      have hnext := begun_modifySlot hs₁ fun slot => slot.erase entry.relative
      rw [wp_durable]
      exact ⟨Or.inl hs₁, Or.inl hnext, hnext, Or.inl hs₁, Or.inl hnext⟩

/-- What a removal leaves of its slot: nothing has happened to it, or its deletion has begun. -/
def Removes (id : String) (s s' : ReleaseDisk δ) : Prop := s' = s ∨ Ended s' id

theorem removes_beginBound (manifest : ReleaseManifest) (expected : Option δ) :
    (beginBound env id manifest expected).wp (fun _ s' => Begun s' id) (fun _ => Removes id s)
      (Removes id s) s := by
  rw [beginBound, wp_bind, wp_read]
  split
  · next ownership howned =>
    have hbegun : Begun s id := by rw [Begun, howned]; rfl
    rw [wp_bind, wp_inspect]
    refine ⟨fun _ _ => ?_, fun _ _ => Or.inl rfl⟩
    rw [wp_bind, wp_ofExcept]
    exact ⟨fun _ _ => hbegun, fun _ _ => Or.inl rfl⟩
  split
  · exact Or.inl rfl
  rw [wp_bind, wp_ofExcept]
  refine ⟨fun _ _ => ?_, fun _ _ => Or.inl rfl⟩
  rw [wp_bind, wp_durable]
  have hbegun : ∀ ownership : CleanupOwnership δ, Begun (s.putOwned id ownership) id := by
    intro ownership
    rw [Begun, ReleaseDisk.putOwned, AList.lookup_insert]
    rfl
  exact ⟨Or.inl rfl, Or.inr (Or.inl (hbegun _)), hbegun _, Or.inl rfl,
    Or.inr (Or.inl (hbegun _))⟩

theorem wp_removeInOrder (files : DeletionOrder δ) (digest : Option δ)
    (guard : Except IoError Unit) : (removeInOrder env files id digest guard).wp
      (fun _ s' => Works env id s s' ∧ Removes id s s')
      (fun _ s' => Works env id s s' ∧ Removes id s s')
      (fun s' => Works env id s s' ∧ Removes id s s') s := by
  have hsame : Works env id s s ∧ Removes id s s := ⟨.refl env id s, Or.inl rfl⟩
  rw [removeInOrder, wp_bind, wp_ofExcept]
  refine ⟨fun _ hvalid => ?_, fun _ _ => hsame⟩
  rw [wp_bind, wp_inspect]
  refine ⟨fun catalog _ => ?_, fun _ _ => hsame⟩
  rw [wp_bind, wp_inspect]
  refine ⟨fun pending _ => ?_, fun _ _ => hsame⟩
  split
  · exact hsame
  split
  · exact hsame
  split
  · exact hsame
  rw [wp_bind, wp_ofExcept]
  refine ⟨fun _ _ => ?_, fun _ _ => hsame⟩
  refine wp_and ?_ ?_
  · refine within_bind (within_beginBound _ digest) (fun ownership => ?_) s
    refine within_bind (within_deleteInOrder files hvalid ownership guard) fun _ => ?_
    exact within_readOnly (readOnly_ofExcept _)
  · have hended : ∀ s', Ended s' id → Removes id s s' := fun _ => Or.inr
    rw [wp_bind]
    refine wp_imp (fun ownership s₁ hs₁ => ?_)
      (removes_beginBound _ digest)
    rw [wp_bind]
    refine wp_mono (fun _ s₂ hs₂ => ?_) (fun _ => hended) hended
      (ended_deleteInOrder files ownership guard hs₁)
    rw [wp_ofExcept]
    exact ⟨fun _ _ => hended s₂ hs₂, fun _ _ => hended s₂ hs₂⟩

theorem Removes.leaves (h : Removes id s s') (hworks : Works env id s s')
    (hsound : RunSound env s) : Leaves env s s' := by
  rcases h with rfl | hended
  · exact hsound.leaves
  · refine ⟨hsound.of_listed (hworks.storeSound hsound.store) fun other hother => ?_,
      fun other hother => ?_⟩
    · by_cases hne : other = id
      · exact absurd (hne ▸ hother) hended.not_selectable
      · exact (hworks.touches.selectable_iff hne).mp hother
    · by_cases hne : other = id
      · exact hne ▸ hended
      · refine Or.inl ?_
        rw [Begun, hworks.touches.owned other hne]
        exact hother

/-! ## 4. Runs -/

/-- A call of a run of the release store. -/
inductive CatalogCall (δ : Type)
  | register (request : Registration)
  | registerPrepared (candidate : PreparedCandidate) (request : Registration)
  /-- `promote`, `promote_with_rollback` and `promote_confirmed` -/
  | promote (id : String) (requireRollback : Bool) (confirmation : Option δ)
  | rollback
  | recordHealthyRelease (evidence : HealthyReleaseEvidence δ) (now : Nat)
  | restoreReleasePointers (currentRelease lastKnownGood : Option String)
  | restoreCheckpointRelease (releaseId : Option String)
  /-- `remove` and its variant with a digest -/
  | remove (files : DeletionOrder δ) (id : String) (digest : Option δ)
      (guard : Except IoError Unit)

def CatalogCall.program (env : ReleaseEnvironment δ) : CatalogCall δ → ReleaseProgram δ Unit
  | register request => (fun _ => ()) <$> Release.register env request
  | registerPrepared candidate request =>
      (fun _ => ()) <$> Release.registerPrepared env candidate request
  | promote id requireRollback confirmation =>
      (fun _ => ()) <$> promoteInner env id requireRollback confirmation
  | rollback => (fun _ => ()) <$> Release.rollback env
  | recordHealthyRelease evidence now => Release.recordHealthyRelease env evidence now
  | restoreReleasePointers currentRelease lastKnownGood =>
      (fun _ => ()) <$> Release.restoreReleasePointers env currentRelease lastKnownGood
  | restoreCheckpointRelease releaseId =>
      (fun _ => ()) <$> Release.restoreCheckpointRelease env releaseId
  | remove files id digest guard => (fun _ => ()) <$> removeInOrder env files id digest guard

/-- **What a call leaves**, at a return, at an error and at a crash. -/
theorem wp_catalogCall (call : CatalogCall δ) (h : RunSound env s) :
    (call.program env).wp (fun _ => Leaves env s) (fun _ => Leaves env s) (Leaves env s) s := by
  have hregister : ∀ request s', Registers env request s s' → Leaves env s s' :=
    fun _ _ hs => hs.leaves h
  have hrepoint : ∀ s', Repoints env s s' → Leaves env s s' := fun _ hs => hs.leaves h
  cases call with
  | register request =>
    exact (wp_map _ _).mpr (wp_mono (fun _ => hregister request)
      (fun _ => hregister request) (hregister request) (registers_register request))
  | registerPrepared candidate request =>
    exact (wp_map _ _).mpr (wp_mono (fun _ => hregister request)
      (fun _ => hregister request) (hregister request)
      (registers_registerPrepared candidate request))
  | promote id requireRollback confirmation =>
    exact (wp_map _ _).mpr (wp_mono (fun _ => hrepoint) (fun _ => hrepoint)
      hrepoint (repoints_promoteInner id requireRollback confirmation h.store))
  | rollback =>
    exact (wp_map _ _).mpr (wp_mono (fun _ => hrepoint) (fun _ => hrepoint)
      hrepoint (repoints_rollback h.store))
  | recordHealthyRelease evidence now =>
    exact wp_mono (fun _ => hrepoint) (fun _ => hrepoint) hrepoint
      (repoints_recordHealthyRelease evidence now h.store)
  | restoreReleasePointers currentRelease lastKnownGood =>
    exact (wp_map _ _).mpr (wp_mono (fun _ => hrepoint) (fun _ => hrepoint)
      hrepoint (repoints_restoreReleasePointers currentRelease lastKnownGood h.store))
  | restoreCheckpointRelease releaseId =>
    exact (wp_map _ _).mpr (wp_mono (fun _ => hrepoint) (fun _ => hrepoint)
      hrepoint (repoints_restoreCheckpointRelease releaseId h.store))
  | remove files id digest guard =>
    have hremove : ∀ s', Works env id s s' ∧ Removes id s s' → Leaves env s s' :=
      fun _ hs => hs.2.leaves hs.1 h
    exact (wp_map _ _).mpr (wp_mono (fun _ => hremove) (fun _ => hremove) hremove
      (wp_removeInOrder files digest guard))

theorem leaves_after (call : CatalogCall δ) (fs : List Fault) (h : RunSound env s) :
    Leaves env s (Session.after (call.program env) fs s) :=
  Session.after_of_wp fs (wp_catalogCall call h)

def runStore (env : ReleaseEnvironment δ) (config : Option Bytes)
    (calls : List (CatalogCall δ × List Fault)) : ReleaseDisk δ :=
  Session.finalState (CatalogCall.program env) calls (newStore config)

theorem runSound_runStore (config : Option Bytes) (calls : List (CatalogCall δ × List Fault)) :
    RunSound env (runStore env config calls) := by
  refine Session.finalState_preserves (I := RunSound env) (fun call s h => ?_) calls _ ?_
  · exact wp_mono (fun _ _ hs => hs.sound) (fun _ _ hs => hs.sound)
      (fun _ hs => hs.sound) (wp_catalogCall call h)
  · refine ⟨(kept_newStore config).1, fun catalog hload => ?_⟩
    have hnil : catalog.releases.map (·.id) = [] := by
      rw [List.eq_nil_iff_forall_not_mem]
      intro id hid
      obtain ⟨slot, hslot, -⟩ := ((loadUnlocked_eq_ok hload).has_iff id).mp hid
      cases hslot
    rw [← List.length_map (f := ReleaseManifest.id), hnil]
    exact Nat.zero_le _

/-- A catalog in order: its releases are valid and have different ids, there are no more of them
than the store has room for, and the two selections are registered and differ.  The
last-known-good release has health evidence that matches its slot. -/
structure CatalogSound (env : ReleaseEnvironment δ) (s : ReleaseDisk δ)
    (catalog : ReleaseCatalog) : Prop where
  unique : (catalog.releases.map (·.id)).Nodup
  wellFormed : ∀ release ∈ catalog.releases, validateReleaseManifest release = .ok () ∧
    validateReleaseId release.id = .ok ()
  bounded : catalog.releases.length ≤ env.maxSlots
  current : ∀ id, catalog.currentRelease = some id → catalog.Has id
  lastKnownGood : ∀ id, catalog.lastKnownGood = some id → catalog.Has id ∧
    ∃ record ∈ (pointerDocument s).healthy, record.releaseId = id ∧
      healthEvidenceMatches env s record = .ok true
  differ : ∀ id, catalog.currentRelease = some id → catalog.lastKnownGood ≠ some id

theorem RunSound.catalogSound (h : RunSound env s) {catalog : ReleaseCatalog}
    (hload : loadUnlocked env s = .ok catalog) : CatalogSound env s catalog := by
  have hl := loadUnlocked_eq_ok hload
  refine ⟨hl.consistent.2, fun release hrelease => ?_, h.bounded catalog hload, fun id hid => ?_,
    fun id hid => ?_, fun id hcurrent hlkg => ?_⟩
  · have hvalid := hl.consistent.1 release hrelease
    exact ⟨hvalid, validateReleaseId_of_manifest hvalid⟩
  · exact (hl.has_iff id).mpr ((hl.current_iff id).mp hid).2
  · obtain ⟨-, hselectable, record, hrecord, heq, hconfirms⟩ := (hl.lkg_iff id).mp hid
    refine ⟨(hl.has_iff id).mpr hselectable, record, hrecord, heq, ?_⟩
    rw [healthEvidenceMatches_eq, decide_eq_true hconfirms]
  · exact hl.differ ⟨by rw [hcurrent]; rfl, hcurrent.trans hlkg.symm⟩

end Runs

end DshNexus.Release
