import DshNexus.Checkpoint.Selection

/-!
# The parts of a checkpoint restore

What the calls on the journal and on the selection do, at every cut: a call on the journal
keeps every property that does not depend on what it writes, and a call on the selection
changes the profile catalog and the release pointers only.

* `wp_orPending`: a call whose failure leaves the restore pending.
* `wp_applyCheckpointTargetSelection`, `wp_rollbackCheckpointSelection`: the selection after
  they succeed.
-/

namespace DshNexus.Checkpoint

open Durable Program Release Snapshot

variable {δ : Type}

/-! ## The journal -/

section Journal

variable {env : CheckpointEnvironment δ} {s : CheckpointDisk δ}
  {E : IoError → CheckpointDisk δ → Prop} {C : CheckpointDisk δ → Prop}

theorem wp_loadJournal {Q : Option (CheckpointRestoreJournal δ) → CheckpointDisk δ → Prop}
    (hQ : ∀ journal, s.journal = journal →
      (∀ entry ∈ journal, validateCheckpointRestoreIntent env entry.intent = .ok ()) → Q journal s)
    (hE : ∀ e, E e s) : (loadJournal env).wp Q E C s := by
  rw [loadJournal, wp_inspect]
  refine ⟨fun journal hjournal => ?_, fun e _ => hE e⟩
  unfold readJournal at hjournal
  split at hjournal
  · next hnone =>
    rw [← Except.ok.inj hjournal]
    exact hQ none hnone fun entry hentry => by cases hentry
  · next entry hsome =>
    split at hjournal
    · cases hjournal
    · obtain ⟨_, hvalid, hjournal⟩ := bind_eq_ok hjournal
      rw [← Except.ok.inj hjournal]
      refine hQ (some entry) hsome fun other hother => ?_
      rw [← Option.some.inj hother]
      exact hvalid

variable {I : CheckpointDisk δ → Prop}

theorem wp_clearJournal [DecidableEq δ] {phase : CheckpointRestorePhase}
    {intent : CheckpointRestoreIntent δ} (hs : I s) (hcleared : I { s with journal := none }) :
    (clearJournal env phase intent).wp (fun _ => I) (fun _ => I) I s := by
  rw [clearJournal, wp_bind]
  refine wp_loadJournal (fun journal hjournal _ => ?_) fun _ => hs
  rcases journal with _ | journal
  · exact hs
  · dsimp only
    split
    · exact hs
    · rw [writeJournal, wp_durable]
      exact ⟨hs, hcleared, hcleared, hs, hcleared⟩

/-- A property that does not depend on the diagnostic of the journal. -/
def IgnoresError (I : CheckpointDisk δ → Prop) : Prop :=
  ∀ s journal error, s.journal = some journal → I s →
    I { s with journal := some { journal with error := error } }

theorem wp_recordError [DecidableEq δ] {phase : CheckpointRestorePhase}
    {intent : CheckpointRestoreIntent δ} (hI : IgnoresError I) (hs : I s) (error : String) :
    (recordError env phase intent error).wp (fun _ => I) (fun _ => I) I s := by
  rw [recordError, wp_bind]
  refine wp_loadJournal (fun journal hjournal _ => ?_) fun _ => hs
  rcases journal with _ | journal
  · exact hs
  · have hnext := hI s journal (some error) hjournal hs
    dsimp only
    split
    · exact hs
    · split
      · exact hs
      · rw [writeJournal, wp_durable]
        exact ⟨hs, hnext, hnext, hs, hnext⟩

theorem wp_pendingContentRestore [DecidableEq δ] {intent : CheckpointRestoreIntent δ}
    (hI : IgnoresError I) (hs : I s) (error : IoError) (outcome : Option RestoreOutcome) :
    (pendingContentRestore env intent error outcome).wp (fun _ => I) (fun _ => I) I s := by
  rw [pendingContentRestore, wp_bind]
  refine wp_loadJournal (fun journal _ _ => ?_) fun _ => hs
  rcases journal with _ | journal
  · exact hs
  · dsimp only
    rw [wp_bind]
    refine wp_imp (fun _ s' hs' => ?_)
      (wp_recordError hI hs _)
    rw [wp_bind]
    refine wp_loadJournal (fun journal _ _ => ?_) fun _ => hs'
    rcases journal with _ | journal
    · exact hs'
    · exact hs'

theorem wp_orPending [DecidableEq δ] {α : Type} {intent : CheckpointRestoreIntent δ}
    {outcome : Option RestoreOutcome} {p : CheckpointProgram δ α}
    {next : α → CheckpointProgram δ (Option CheckpointRestoreStatus)} (hI : IgnoresError I)
    (hp : p.wp (fun a s' => (next a).wp (fun _ => I) (fun _ => I) I s') (fun _ => I) I s) :
    (orPending env intent outcome p next).wp (fun _ => I) (fun _ => I) I s := by
  rw [orPending, wp_bind, wp_toExcept]
  exact wp_mono (fun _ _ h => h)
    (fun error s' hs' => wp_pendingContentRestore hI hs' error outcome) (fun _ h => h) hp

end Journal

/-! ## Selections -/

section Selection

variable [DecidableEq δ] {env : CheckpointEnvironment δ} {intent : CheckpointRestoreIntent δ}
  {s : CheckpointDisk δ}

omit [DecidableEq δ] in
theorem normalize_of_valid (h : validateCheckpointRestoreIntent env intent = .ok ()) :
    intent.previousProfiles.normalize = .ok intent.previousProfiles ∧
      intent.targetProfiles.normalize = .ok intent.targetProfiles := by
  have hnormal : ∀ {catalog : ProfileCatalog} {name : String},
      checkNormalized catalog name = .ok () → catalog.normalize = .ok catalog := by
    intro catalog name hcheck
    obtain ⟨normalized, hnormalized, hcheck⟩ := bind_eq_ok hcheck
    split at hcheck
    · exact nomatch hcheck
    · next hsame =>
      rw [not_not] at hsame
      rw [hnormalized, hsame]
  obtain ⟨_, -, h⟩ := bind_eq_ok h
  obtain ⟨_, hprevious, h⟩ := bind_eq_ok h
  obtain ⟨_, htarget, -⟩ := bind_eq_ok h
  exact ⟨hnormal hprevious, hnormal htarget⟩

/-- Only the profile catalog and the release pointers differ. -/
structure SelectionOnly (s s' : CheckpointDisk δ) : Prop where
  releases : SameSlots s.releases s'.releases
  restore : s'.restore = s.restore
  journal : s'.journal = s.journal

omit [DecidableEq δ] in
theorem SelectionOnly.trans {s' s'' : CheckpointDisk δ} (h : SelectionOnly s s')
    (h' : SelectionOnly s' s'') : SelectionOnly s s'' :=
  ⟨h.releases.trans h'.releases, h'.restore.trans h.restore, h'.journal.trans h.journal⟩

theorem wp_selectReleases {current lkg : Option String}
    (h : Showable env.releases s.releases current lkg) :
    (onReleases (restoreReleasePointers env.releases current lkg)).wp
      (fun _ s' => SelectionOnly s s' ∧ Shows env.releases s'.releases current lkg)
      (fun _ => SelectionOnly s) (SelectionOnly s) s := by
  rw [wp_onReleases]
  exact wp_mono (fun _ _ h => ⟨⟨h.1, rfl, rfl⟩, h.2⟩) (fun _ _ h => ⟨h, rfl, rfl⟩)
    (fun _ h => ⟨h, rfl, rfl⟩) (wp_restoreReleasePointers_shows h)

omit [DecidableEq δ] in
theorem wp_selectProfiles {catalog : ProfileCatalog} (h : catalog.normalize = .ok catalog) :
    (onProfiles (writeProfiles catalog) : CheckpointProgram δ Unit).wp
      (fun _ s' => s' = { s with profiles := some catalog }) (fun _ => SelectionOnly s)
      (SelectionOnly s) s := by
  rw [wp_onProfiles]
  exact wp_mono (fun _ _ h => by rw [h]) (fun _ _ _ => ⟨.refl _, rfl, rfl⟩)
    (fun _ _ => ⟨.refl _, rfl, rfl⟩) (wp_writeProfiles h)

theorem wp_applyCheckpointTargetSelection
    (hvalid : validateCheckpointRestoreIntent env intent = .ok ())
    (hshow : Showable env.releases s.releases intent.targetCurrentRelease
      intent.targetLastKnownGood) :
    (applyCheckpointTargetSelection env intent).wp
      (fun _ s' => SelectionOnly s s' ∧ Selects env s' intent.targetProfiles
        intent.targetCurrentRelease intent.targetLastKnownGood)
      (fun _ => SelectionOnly s) (SelectionOnly s) s := by
  rw [applyCheckpointTargetSelection, wp_bind]
  refine wp_imp ?_ (wp_selectReleases hshow)
  rintro catalog s₁ ⟨h₁, hshows⟩
  rw [wp_bind]
  refine wp_mono ?_ (fun _ _ h => h₁.trans h) (fun _ h => h₁.trans h)
    (wp_selectProfiles (normalize_of_valid hvalid).2)
  rintro _ s₂ rfl
  have h₂ : SelectionOnly s { s₁ with profiles := some intent.targetProfiles } :=
    ⟨h₁.releases, h₁.restore, h₁.journal⟩
  rw [elsewhere, wp_attempt]
  exact ⟨h₂, ⟨h₂, rfl, hshows⟩, h₂⟩

theorem wp_rollbackCheckpointSelection
    (hvalid : validateCheckpointRestoreIntent env intent = .ok ())
    (hshow : Showable env.releases s.releases intent.previousCurrentRelease
      intent.previousLastKnownGood) :
    (rollbackCheckpointSelection env intent).wp
      (fun _ s' => SelectionOnly s s' ∧ Selects env s' intent.previousProfiles
        intent.previousCurrentRelease intent.previousLastKnownGood)
      (fun _ => SelectionOnly s) (SelectionOnly s) s := by
  -- what is left of the rollback after the pointers
  have hrest : ∀ (pointers : Except IoError ReleaseCatalog) s₁, SelectionOnly s s₁ →
      (∀ catalog, pointers = .ok catalog → Shows env.releases s₁.releases
        intent.previousCurrentRelease intent.previousLastKnownGood) →
      (do
        let profiles ← Program.toExcept (onProfiles (writeProfiles intent.previousProfiles))
        let agent ← Program.toExcept (elsewhere : CheckpointProgram δ Unit)
        let failures := rollbackFailure "release pointer rollback failed: " pointers ++
          rollbackFailure "profile rollback failed: " profiles ++
          rollbackFailure "Agent metadata rollback failed: " agent
        if failures.isEmpty = true then pure ()
        else throw ⟨.other, "; ".intercalate failures⟩ : CheckpointProgram δ Unit).wp
      (fun _ s' => SelectionOnly s s' ∧ Selects env s' intent.previousProfiles
        intent.previousCurrentRelease intent.previousLastKnownGood)
      (fun _ => SelectionOnly s) (SelectionOnly s) s₁ := by
    intro pointers s₁ h₁ hpointers
    rw [wp_bind, wp_toExcept]
    refine wp_mono ?_ (fun error s₂ h₂ => ?_) (fun _ h => h₁.trans h)
      (wp_selectProfiles (normalize_of_valid hvalid).1)
    · rintro _ s₂ rfl
      have h₂ : SelectionOnly s { s₁ with profiles := some intent.previousProfiles } :=
        ⟨h₁.releases, h₁.restore, h₁.journal⟩
      rw [wp_bind, wp_toExcept, elsewhere, wp_attempt]
      refine ⟨h₂, ?_, ?_⟩
      · rcases pointers with error | catalog
        · exact h₂
        · exact ⟨h₂, rfl, hpointers catalog rfl⟩
      · rcases pointers with error | catalog <;> exact h₂
    · have h₃ := h₁.trans h₂
      rw [wp_bind, wp_toExcept, elsewhere, wp_attempt]
      refine ⟨h₃, ?_, ?_⟩ <;> rcases pointers with error | catalog <;> exact h₃
  rw [rollbackCheckpointSelection, wp_bind, wp_toExcept]
  refine wp_mono ?_ (fun error s₁ h₁ => ?_) (fun _ h => h) (wp_selectReleases hshow)
  · rintro catalog s₁ ⟨h₁, hshows⟩
    exact hrest (.ok catalog) s₁ h₁ fun _ _ => hshows
  · exact hrest (.error error) s₁ h₁ fun catalog h => by cases h

theorem wp_startupSelection (hvalid : validateCheckpointRestoreIntent env intent = .ok ())
    (hshow : Showable env.releases s.releases intent.previousCurrentRelease
      intent.previousLastKnownGood) :
    (do
      let _ ← onReleases (restoreReleasePointers env.releases intent.previousCurrentRelease
        intent.previousLastKnownGood)
      onProfiles (writeProfiles intent.previousProfiles) : CheckpointProgram δ Unit).wp
      (fun _ s' => SelectionOnly s s' ∧ Selects env s' intent.previousProfiles
        intent.previousCurrentRelease intent.previousLastKnownGood)
      (fun _ => SelectionOnly s) (SelectionOnly s) s := by
  rw [wp_bind]
  refine wp_imp ?_ (wp_selectReleases hshow)
  rintro _ s₁ ⟨h₁, hshows⟩
  refine wp_mono ?_ (fun _ _ h₂ => h₁.trans h₂) (fun _ h₂ => h₁.trans h₂)
    (wp_selectProfiles (normalize_of_valid hvalid).1)
  rintro _ s₂ rfl
  have h₂ : SelectionOnly s { s₁ with profiles := some intent.previousProfiles } :=
    ⟨h₁.releases, h₁.restore, h₁.journal⟩
  exact ⟨h₂, rfl, hshows⟩

theorem wp_validateCommitted {journal : CheckpointRestoreJournal δ} {I : CheckpointDisk δ → Prop}
    (hvalid : validateCheckpointRestoreIntent env intent = .ok ())
    (hprofiles : s.profiles = some intent.targetProfiles) (hs : I s) :
    (validateCommittedCheckpointRestore env journal).wp (fun _ => I) (fun _ => I) I s := by
  have hsame : ∀ profiles, profiles = some intent.targetProfiles → I { s with profiles } := by
    rintro _ rfl
    rw [← hprofiles]
    exact hs
  rw [validateCommittedCheckpointRestore, wp_bind, wp_onProfiles, hprofiles]
  refine wp_mono ?_ (fun _ => hsame) hsame
    (wp_loadProfiles_of_normalized (normalize_of_valid hvalid).2)
  rintro profiles stored ⟨-, hstored⟩
  have hs₁ := hsame stored hstored
  rw [wp_bind, wp_onReleases, storedReleasePointers, wp_inspect]
  refine ⟨fun pointers _ => ?_, fun _ _ => hs₁⟩
  split
  · exact hs₁
  · exact hs₁

end Selection

end DshNexus.Checkpoint
