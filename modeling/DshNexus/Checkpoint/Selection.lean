import DshNexus.Checkpoint.Restore
import DshNexus.Release.Fallback
import DshNexus.Release.Pointers

/-!
# The selection that a checkpoint restore plans and writes

The selection of a checkpoint restore is the profile catalog and the pair of release pointers
that the effective catalog shows.  No call of a checkpoint restore changes a slot, an ownership
record or the health records, so a pair that can be shown once can be shown throughout.

* `Showable`: a pair that the effective catalog shows when it is stored.
* `wp_restoreReleasePointers_shows`: after restoring a showable pair, it is the pair shown.
* `wp_planCheckpointRestore`: the previous selection of a plan is the one that is there, and
  the target can be shown.
-/

namespace DshNexus.Checkpoint

open Durable Program Release Snapshot

/-! ## Release pointers -/

section Pointers

variable {δ : Type} {env : ReleaseEnvironment δ} {s s' : ReleaseDisk δ}
  {current lkg : Option String}

/-- The slots, the ownership records and the health records are the same. -/
structure SameSlots (s s' : ReleaseDisk δ) : Prop where
  slots : s'.slots = s.slots
  owned : s'.owned = s.owned
  healthy : (pointerDocument s').healthy = (pointerDocument s).healthy

theorem SameSlots.refl (s : ReleaseDisk δ) : SameSlots s s := ⟨rfl, rfl, rfl⟩

theorem SameSlots.trans {s'' : ReleaseDisk δ} (h : SameSlots s s') (h' : SameSlots s' s'') :
    SameSlots s s'' :=
  ⟨h'.slots.trans h.slots, h'.owned.trans h.owned, h'.healthy.trans h.healthy⟩

/-- The effective catalog shows the pair when it is stored: both releases are selectable, and
the last-known-good one is confirmed. -/
structure Showable (env : ReleaseEnvironment δ) (s : ReleaseDisk δ)
    (current lkg : Option String) : Prop where
  current : ∀ id, current = some id → Selectable s id
  lkg : ∀ id, lkg = some id → Selectable s id ∧
    ∃ record ∈ (pointerDocument s).healthy, record.releaseId = id ∧ Confirms env s record

theorem Showable.congr (h : Showable env s current lkg) (hs : SameSlots s s') :
    Showable env s' current lkg where
  current id hid := (selectable_congr hs.slots hs.owned).mpr (h.current id hid)
  lkg id hid := by
    obtain ⟨hselectable, record, hrecord, hrelease, hconfirms⟩ := h.lkg id hid
    refine ⟨(selectable_congr hs.slots hs.owned).mpr hselectable, record, ?_, hrelease, ?_⟩
    · rw [hs.healthy]
      exact hrecord
    · exact (confirms_congr (by rw [hs.slots])).mpr hconfirms

variable [DecidableEq δ]

omit [DecidableEq δ] in
theorem showable_of_loaded {catalog : ReleaseCatalog} (h : Loaded env s catalog) :
    Showable env s catalog.currentRelease catalog.lastKnownGood where
  current id hid := ((h.current_iff id).mp hid).2
  lkg id hid := ((h.lkg_iff id).mp hid).2

theorem Showable.shows (h : Showable env s current lkg) (hstores : Stores s current lkg)
    (hloads : ∃ catalog, loadUnlocked env s = .ok catalog) : Shows env s current lkg := by
  obtain ⟨catalog, hload⟩ := hloads
  have hl := loadUnlocked_eq_ok hload
  refine ⟨catalog, hload, Option.ext fun id => ?_, Option.ext fun id => ?_⟩
  · show catalog.currentRelease = some id ↔ current = some id
    rw [hl.current_iff, hstores.1]
    exact ⟨fun hid => hid.1, fun hid => ⟨hid, h.current id hid⟩⟩
  · show catalog.lastKnownGood = some id ↔ lkg = some id
    rw [hl.lkg_iff, hstores.2]
    exact ⟨fun hid => hid.1, fun hid => ⟨hid, h.lkg id hid⟩⟩

omit [DecidableEq δ] in
theorem wp_writePointers {Q : Unit → ReleaseDisk δ → Prop} {E : IoError → ReleaseDisk δ → Prop}
    {C : ReleaseDisk δ → Prop} (catalog : ReleaseCatalog)
    (hQ : ∀ s', SameSlots s s' → Stores s' catalog.currentRelease catalog.lastKnownGood → Q () s')
    (hE : ∀ e s', SameSlots s s' → E e s') (hC : ∀ s', SameSlots s s' → C s') :
    (writePointers catalog).wp Q E C s := by
  rw [writePointers, wp_bind, wp_inspect]
  refine ⟨fun healthy hhealthy => ?_, fun e _ => hE e s (.refl s)⟩
  have hnext : SameSlots s { s with
      pointers := some ⟨RELEASE_SCHEMA_VERSION, catalog.currentRelease, catalog.lastKnownGood,
        healthy⟩ } := ⟨rfl, rfl, healthRecords_eq_ok hhealthy⟩
  rw [wp_durable]
  exact ⟨hC s (.refl s), hC _ hnext, hQ _ hnext ⟨rfl, rfl⟩, hE _ s (.refl s), hE _ _ hnext⟩

/-- **Restoring a pair that can be shown.**  Every cut keeps the slots, and after a restore
that succeeds the effective catalog shows the pair. -/
theorem wp_restoreReleasePointers_shows (h : Showable env s current lkg) :
    (restoreReleasePointers env current lkg).wp
      (fun _ s' => SameSlots s s' ∧ Shows env s' current lkg)
      (fun _ s' => SameSlots s s') (fun s' => SameSlots s s') s := by
  have hrefl := SameSlots.refl s
  rw [restoreReleasePointers, wp_bind, wp_ofExcept]
  refine ⟨fun _ _ => ?_, fun _ _ => hrefl⟩
  rw [wp_bind, wp_ofExcept]
  refine ⟨fun _ _ => ?_, fun _ _ => hrefl⟩
  rw [wp_bind, wp_inspect]
  refine ⟨fun catalog hload => ?_, fun _ _ => hrefl⟩
  rw [wp_bind, wp_inspect]
  refine ⟨fun _ _ => ?_, fun _ _ => hrefl⟩
  rw [wp_bind, wp_inspect]
  refine ⟨fun _ _ => ?_, fun _ _ => hrefl⟩
  split
  · rw [wp_bind, wp_ofExcept]
    refine ⟨fun catalog' hnormal => ?_, fun _ _ => hrefl⟩
    obtain ⟨-, -, -, -, rfl⟩ := ReleaseCatalog.normalize_eq_ok.mp hnormal
    rw [wp_bind]
    refine wp_writePointers _ (fun s' hs' hstores => ?_) (fun _ _ hs' => hs') fun _ hs' => hs'
    rw [wp_inspect]
    exact ⟨fun final hfinal => ⟨hs', (h.congr hs').shows hstores ⟨final, hfinal⟩⟩, fun _ _ => hs'⟩
  · next hsame =>
    rw [not_or, not_not, not_not] at hsame
    rw [wp_inspect]
    exact ⟨fun final hfinal => ⟨hrefl, catalog, hload, hsame⟩, fun _ _ => hrefl⟩

theorem showable_of_plan {catalog target : ReleaseCatalog} {releaseId : Option String}
    (hload : loadUnlocked env s = .ok catalog)
    (happly : applyCheckpointRelease env s catalog releaseId = .ok target) :
    Showable env s target.currentRelease target.lastKnownGood := by
  have hl := loadUnlocked_eq_ok hload
  obtain ⟨_, hroot, happly⟩ := bind_eq_ok happly
  split at happly
  · obtain ⟨fallback, hfallback, hnormal⟩ := bind_eq_ok happly
    obtain ⟨-, -, hlkg, -, rfl⟩ := ReleaseCatalog.normalize_eq_ok.mp hnormal
    refine ⟨fun id hid => (checkOptionalRoot_iff hl).mp hroot id hid, fun id hid => ?_⟩
    have hselectable : Selectable s id := (hl.has_iff id).mp (hlkg id hid).2
    obtain ⟨record, hrecord, hrelease⟩ := (verifiedFallback_eq_ok hfallback id).mp hid
    obtain ⟨before, after, hsplit, ⟨-, hconfirms⟩, -⟩ := hrecord
    refine ⟨hselectable, record, ?_, hrelease, hconfirms⟩
    rw [hsplit]
    exact List.mem_append_right _ (List.mem_cons_self ..)
  · rw [← Except.ok.inj happly]
    exact showable_of_loaded hl

end Pointers

/-! ## Profiles -/

section Profiles

variable {profiles : Option ProfileCatalog} {catalog : ProfileCatalog}

theorem wp_writeProfiles (h : catalog.normalize = .ok catalog) :
    (writeProfiles catalog).wp (fun _ profiles' => profiles' = some catalog)
      (fun _ profiles' => profiles' = profiles ∨ profiles' = some catalog)
      (fun profiles' => profiles' = profiles ∨ profiles' = some catalog) profiles := by
  rw [writeProfiles, wp_bind, wp_inspect]
  refine ⟨fun _ _ => ?_, fun _ _ => Or.inl rfl⟩
  rw [h]
  show (publishProfiles catalog).wp _ _ _ _
  rw [publishProfiles, wp_durable]
  exact ⟨Or.inl rfl, Or.inr rfl, rfl, Or.inl rfl, Or.inr rfl⟩

theorem wp_loadProfiles : loadProfiles.wp (fun catalog profiles' => profiles' = some catalog)
    (fun _ _ => True) (fun _ => True) profiles := by
  rw [loadProfiles, wp_bind, wp_inspect]
  refine ⟨fun read hread => ?_, fun _ _ => trivial⟩
  rcases read with _ | before
  · dsimp only
    rw [publishProfiles, wp_bind, wp_durable]
    exact ⟨trivial, trivial, rfl, trivial, trivial⟩
  · have hstored : profiles = some before := by
      unfold readProfiles at hread
      split at hread
      · exact nomatch hread
      · split at hread
        · exact nomatch hread
        · exact Except.ok.inj hread
    dsimp only
    rw [wp_bind, wp_ofExcept]
    refine ⟨fun catalog _ => ?_, fun _ _ => trivial⟩
    split
    · rw [publishProfiles, wp_bind, wp_durable]
      exact ⟨trivial, trivial, rfl, trivial, trivial⟩
    · next hsame =>
      rw [not_not] at hsame
      rw [hsame]
      exact hstored

theorem wp_loadProfiles_of_normalized (h : catalog.normalize = .ok catalog) :
    loadProfiles.wp (fun loaded profiles' => loaded = catalog ∧ profiles' = some catalog)
      (fun _ profiles' => profiles' = some catalog) (fun profiles' => profiles' = some catalog)
      (some catalog) := by
  rw [loadProfiles, wp_bind, wp_inspect]
  refine ⟨fun read hread => ?_, fun _ _ => rfl⟩
  have hread' : read = some catalog := by
    unfold readProfiles at hread
    dsimp only at hread
    split at hread
    · exact nomatch hread
    · exact (Except.ok.inj hread).symm
  rw [hread']
  dsimp only
  rw [wp_bind, wp_ofExcept]
  refine ⟨fun loaded hloaded => ?_, fun _ _ => rfl⟩
  rw [h] at hloaded
  rw [← Except.ok.inj hloaded]
  rw [if_neg (not_not.mpr rfl)]
  exact ⟨rfl, rfl⟩

theorem returns_loadProfiles (h : catalog.normalize = .ok catalog) :
    loadProfiles.returns (fun loaded profiles' => loaded = catalog ∧ profiles' = some catalog)
      (some catalog) := by
  have hschema : ¬ catalog.schemaVersion > PROFILE_SCHEMA_VERSION := by
    intro hnew
    rw [ProfileCatalog.normalize, if_pos hnew] at h
    exact nomatch h
  have hread : readProfiles (some catalog) = .ok (some catalog) := by
    rw [readProfiles]
    exact if_neg hschema
  rw [loadProfiles, returns_bind, returns_inspect]
  refine ⟨some catalog, hread, ?_⟩
  dsimp only
  rw [returns_bind, returns_ofExcept]
  refine ⟨catalog, h, ?_⟩
  rw [if_neg (not_not.mpr rfl)]
  exact ⟨rfl, rfl⟩

end Profiles

/-! ## Plans -/

section Plans

variable {δ : Type} [DecidableEq δ] {α : Type} {env : CheckpointEnvironment δ}
  {s : CheckpointDisk δ} {Q : α → CheckpointDisk δ → Prop} {E : IoError → CheckpointDisk δ → Prop}
  {C : CheckpointDisk δ → Prop}

omit [DecidableEq δ] in
theorem wp_onProfiles (p : Program (Option ProfileCatalog) IoError α) :
    (onProfiles p).wp Q E C s ↔ p.wp (fun a profiles => Q a { s with profiles })
      (fun e profiles => E e { s with profiles }) (fun profiles => C { s with profiles })
      s.profiles := wp_zoom _ _ _ _

omit [DecidableEq δ] in
theorem wp_onReleases (p : ReleaseProgram δ α) :
    (onReleases p).wp Q E C s ↔ p.wp (fun a releases => Q a { s with releases })
      (fun e releases => E e { s with releases }) (fun releases => C { s with releases })
      s.releases := wp_zoom _ _ _ _

omit [DecidableEq δ] in
theorem wp_onRestore (p : RestoreProgram δ α) :
    (onRestore env p).wp Q E C s ↔ p.wp (fun a restore => Q a { s with restore })
      (fun e restore => E (env.snapshotError e) { s with restore })
      (fun restore => C { s with restore }) s.restore := wp_zoom _ _ _ _

structure Selects (env : CheckpointEnvironment δ) (s : CheckpointDisk δ)
    (profiles : ProfileCatalog) (current lkg : Option String) : Prop where
  profiles : s.profiles = some profiles
  shows : Shows env.releases s.releases current lkg

/-- The plan of a restore that may start: the previous selection is there, and the target can
be shown. -/
structure Accepted (env : CheckpointEnvironment δ) (intent : CheckpointRestoreIntent δ)
    (s : CheckpointDisk δ) : Prop where
  journal : s.journal = none
  previous : Selects env s intent.previousProfiles intent.previousCurrentRelease
    intent.previousLastKnownGood
  showable : Showable env.releases s.releases intent.previousCurrentRelease
    intent.previousLastKnownGood
  target : Showable env.releases s.releases intent.targetCurrentRelease
    intent.targetLastKnownGood

/-- **What a plan says**: no restore is pending, and the plan fits the stores. -/
theorem wp_acceptCheckpointRestore (checkpoint : ContentCheckpoint) :
    (acceptCheckpointRestore env checkpoint).wp
      (fun intent s' => Accepted env intent s' ∧ s'.restore = s.restore)
      (fun _ _ => True) (fun _ => True) s := by
  rw [acceptCheckpointRestore, wp_bind, loadJournal, wp_inspect]
  refine ⟨fun journal hjournal => ?_, fun _ _ => trivial⟩
  rcases journal with _ | journal
  · have hnone : s.journal = none := by
      unfold readJournal at hjournal
      split at hjournal
      · next hnone => exact hnone
      · split at hjournal
        · exact nomatch hjournal
        · obtain ⟨_, -, h⟩ := bind_eq_ok hjournal
          exact nomatch h
    show ((elsewhere : CheckpointProgram δ Unit) >>= _).wp _ _ _ _
    rw [elsewhere, wp_bind, wp_attempt]
    refine ⟨trivial, ?_, trivial⟩
    rw [planCheckpointRestore, wp_bind, wp_onProfiles]
    refine wp_mono (fun previous profiles hprofiles => ?_) (fun _ _ _ => trivial)
      (fun _ _ => trivial) wp_loadProfiles
    rw [wp_bind, wp_ofExcept]
    refine ⟨fun target _ => ?_, fun _ _ => trivial⟩
    rw [wp_bind, wp_onReleases, wp_inspect]
    refine ⟨fun catalog hload => ?_, fun _ _ => trivial⟩
    rw [wp_bind, wp_onReleases, planCheckpointRelease, wp_bind,
      wp_ofExcept]
    refine ⟨fun _ _ => ?_, fun _ _ => trivial⟩
    rw [wp_bind, wp_inspect]
    refine ⟨fun catalog' hload' => ?_, fun _ _ => trivial⟩
    rw [wp_inspect]
    refine ⟨fun target' happly => ?_, fun _ _ => trivial⟩
    exact ⟨⟨hnone, ⟨hprofiles, catalog, hload, rfl, rfl⟩,
      showable_of_loaded (loadUnlocked_eq_ok hload), showable_of_plan hload' happly⟩, rfl⟩
  · exact trivial

end Plans

end DshNexus.Checkpoint
