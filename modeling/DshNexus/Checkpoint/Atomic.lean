import DshNexus.Checkpoint.Flow
import DshNexus.Snapshot.RestoreFrames
import DshNexus.Snapshot.RestoreSession

/-!
# What the journal of a checkpoint restore says about the contents

While the journal is prepared, the restore record may be anywhere, and the selection may be the
old one or the new one.  Once it is committed, the selection and the files are the target ones.
It is cleared when everything is old or everything is new.

* `IsPrevious`, `IsTarget`: old and new.
* `Prepared`, `Committed`, `Ended`: what holds in each phase of the journal.
* `atomicFlow`: they are the stages of a checkpoint restore.
-/

namespace DshNexus.Checkpoint

open Durable Program Release Snapshot

variable {δ : Type} [DecidableEq δ] {env : CheckpointEnvironment δ}
  {intent : CheckpointRestoreIntent δ} {disk s : CheckpointDisk δ} {snapshotId : String}

/-! ## Old and new -/

/-- Everything is as it was on `disk`. -/
structure IsPrevious (env : CheckpointEnvironment δ) (intent : CheckpointRestoreIntent δ)
    (disk s : CheckpointDisk δ) : Prop where
  selects : Selects env s intent.previousProfiles intent.previousCurrentRelease
    intent.previousLastKnownGood
  files : ∀ i, (s.restore.target i).map (·.bytes) = (disk.restore.target i).map (·.bytes)

/-- The selection is the target, and every file that the snapshot does not omit has the
content that it is to have. -/
structure IsTarget (env : CheckpointEnvironment δ) (intent : CheckpointRestoreIntent δ)
    (snapshotId : String) (disk s : CheckpointDisk δ) : Prop where
  selects : Selects env s intent.targetProfiles intent.targetCurrentRelease
    intent.targetLastKnownGood
  files : ∃ manifest, detail env.restore snapshotId = .ok manifest ∧
    ∀ i, (manifest.files i).state ≠ .omitted → ∃ desired,
      desiredFile env.restore manifest i ((disk.restore.target i).map (·.bytes)) = .ok desired ∧
        (s.restore.target i).map (·.bytes) = desired.bytes

/-- The journal has been cleared, or never written, and everything is old or everything is
new. -/
def Ended (env : CheckpointEnvironment δ) (intent : CheckpointRestoreIntent δ)
    (snapshotId : String) (disk s : CheckpointDisk δ) : Prop :=
  s.journal = none ∧ (IsPrevious env intent disk s ∨ IsTarget env intent snapshotId disk s)

/-- The plan of a restore that has begun: the intent with its binding is valid, its selections
can be shown, and the record of its ticket describes the files of `disk`. -/
structure Begun (env : CheckpointEnvironment δ) (snapshotId : String) (disk : CheckpointDisk δ)
    (intent : CheckpointRestoreIntent δ) (ticket : RestoreTicket δ) (plan : RestorePlan) :
    Prop where
  valid : validateCheckpointRestoreIntent env intent = .ok ()
  snapshot : intent.snapshot = some (bindingFor env ticket)
  previous : Showable env.releases disk.releases intent.previousCurrentRelease
    intent.previousLastKnownGood
  target : Showable env.releases disk.releases intent.targetCurrentRelease
    intent.targetLastKnownGood
  plan : ∃ manifest, plan.IsFor env.restore snapshotId disk.restore manifest

section Begun

variable {ticket : RestoreTicket δ} {plan : RestorePlan}

/-- The journal is prepared, and the restore record is sound. -/
structure Prepared (env : CheckpointEnvironment δ) (disk : CheckpointDisk δ)
    (intent : CheckpointRestoreIntent δ) (ticket : RestoreTicket δ) (plan : RestorePlan)
    (s : CheckpointDisk δ) : Prop where
  phase : InPhase intent .prepared s
  releases : SameSlots disk.releases s.releases
  sound : Sound env.restore plan True ticket.ticketId s.restore

/-- Every file that the snapshot does not omit is in place. -/
def Placed (plan : RestorePlan) (s : CheckpointDisk δ) : Prop :=
  ∀ i, plan.state i ≠ .omitted → (s.restore.target i).map (·.bytes) = plan.want i

/-- The journal is committed, and the selection and the files are the target ones. -/
structure Committed (env : CheckpointEnvironment δ) (disk : CheckpointDisk δ)
    (intent : CheckpointRestoreIntent δ) (ticket : RestoreTicket δ) (plan : RestorePlan)
    (s : CheckpointDisk δ) : Prop where
  phase : InPhase intent .committed s
  releases : SameSlots disk.releases s.releases
  sound : Sound env.restore plan True ticket.ticketId s.restore
  placed : Placed plan s
  selects : Selects env s intent.targetProfiles intent.targetCurrentRelease
    intent.targetLastKnownGood

/-- The files are as they were on `disk`. -/
def FilesBack (disk s : CheckpointDisk δ) : Prop :=
  ∀ i, (s.restore.target i).map (·.bytes) = (disk.restore.target i).map (·.bytes)

omit [DecidableEq δ] in
theorem Prepared.of_restore {restore : RestoreDisk δ} (h : Prepared env disk intent ticket plan s)
    (hsound : Sound env.restore plan True ticket.ticketId restore) :
    Prepared env disk intent ticket plan { s with restore } := ⟨h.phase, h.releases, hsound⟩

omit [DecidableEq δ] in
theorem Prepared.of_selectionOnly {s' : CheckpointDisk δ}
    (h : Prepared env disk intent ticket plan s) (hs : SelectionOnly s s') :
    Prepared env disk intent ticket plan s' := by
  obtain ⟨journal, hjournal, his⟩ := h.phase
  refine ⟨⟨journal, by rw [hs.journal, hjournal], his⟩, h.releases.trans hs.releases, ?_⟩
  rw [hs.restore]
  exact h.sound

omit [DecidableEq δ] in
theorem Placed.of_sameTargets {restore : RestoreDisk δ} (h : Placed plan s)
    (hsame : SameTargets s.restore restore) : Placed plan { s with restore } := by
  intro i hkept
  show (restore.target i).map (·.bytes) = plan.want i
  rw [hsame]
  exact h i hkept

theorem isTarget_of_placed (h : Begun env snapshotId disk intent ticket plan)
    (hselects : Selects env s intent.targetProfiles intent.targetCurrentRelease
      intent.targetLastKnownGood) (hplaced : Placed plan s) :
    IsTarget env intent snapshotId disk s := by
  obtain ⟨manifest, hplan⟩ := h.plan
  refine ⟨hselects, manifest, hplan.detail, fun i hkept => ?_⟩
  obtain ⟨desired, hdesired, hbytes⟩ := hplan.desired i
  refine ⟨desired, hdesired, ?_⟩
  rw [hbytes]
  exact hplaced i (by rw [hplan.state]; exact hkept)

/-! ## The parts of a restore -/

theorem wp_rollbackContent (h : Begun env snapshotId disk intent ticket plan)
    (hs : Prepared env disk intent ticket plan s) :
    (onRestore env (rollbackRestore env.restore ticket)).wp
      (fun _ s' => Prepared env disk intent ticket plan s' ∧ FilesBack disk s')
      (fun _ => Prepared env disk intent ticket plan) (Prepared env disk intent ticket plan) s := by
  obtain ⟨manifest, hplan⟩ := h.plan
  rw [wp_onRestore]
  refine wp_mono ?_ (fun _ _ hsound => hs.of_restore hsound)
    (fun _ hsound => hs.of_restore hsound) (wp_rollbackRestore hs.sound)
  rintro result restore ⟨hsound, record, hfind, hstatus, -⟩
  refine ⟨hs.of_restore hsound, fun i => ?_⟩
  obtain ⟨-, hinv⟩ := hsound.of_stored hfind
  rw [StatusInvariant, hstatus] at hinv
  exact (hinv i).trans (hplan.orig i)

theorem IsPrevious.of_filesBack {s' : CheckpointDisk δ} (hback : FilesBack disk s)
    (hs : SelectionOnly s s') (hselects : Selects env s' intent.previousProfiles
      intent.previousCurrentRelease intent.previousLastKnownGood) :
    IsPrevious env intent disk s' :=
  ⟨hselects, fun i => by rw [hs.restore]; exact hback i⟩

/-- The record may be applied again: the apply does not build on half a rollback, and a record
that is applied has every file in place. -/
structure MayResume (env : CheckpointEnvironment δ) (ticket : RestoreTicket δ)
    (plan : RestorePlan) (s : CheckpointDisk δ) : Prop where
  publish : ∀ record, findRecord ticket.ticketId s.restore.transactions = some record →
    record.status = .applying → ∀ i,
      MayPublish plan True i (record.operations i).status (s.restore.cell ticket.ticketId i)
  placed : ∀ record, findRecord ticket.ticketId s.restore.transactions = some record →
    record.status = .applied → Placed plan s

theorem wp_applyContent (hs : Prepared env disk intent ticket plan s)
    (hmay : MayResume env ticket plan s) :
    (onRestore env (applyRestore env.restore ticket)).wp
      (fun _ s' => Prepared env disk intent ticket plan s' ∧ Placed plan s')
      (fun _ => Prepared env disk intent ticket plan) (Prepared env disk intent ticket plan) s := by
  rw [wp_onRestore]
  -- a record that is applied already is left as it is
  by_cases happlied : ∃ record, findRecord ticket.ticketId s.restore.transactions = some record ∧
      record.status = .applied
  · obtain ⟨record, hfind, hstatus⟩ := happlied
    rw [applyRestore, wp_bind]
    refine wp_readMatchingTransaction (fun other hother _ => ?_) fun _ => hs
    rw [hfind] at hother
    rw [← Option.some.inj hother, hstatus]
    exact ⟨hs, hmay.placed record hfind hstatus⟩
  · refine wp_mono ?_ (fun _ _ hsound => hs.of_restore hsound)
      (fun _ hsound => hs.of_restore hsound) (wp_applyRestore hs.sound hmay.publish)
    rintro outcome restore ⟨hsound, -, hplaced⟩
    refine ⟨hs.of_restore hsound, hplaced ?_⟩
    intro record hfind hstatus
    exact happlied ⟨record, hfind, hstatus⟩

theorem wp_markContent (hs : Prepared env disk intent ticket plan s) (hplaced : Placed plan s) :
    (onRestore env (markMaterialized env.restore ticket)).wp
      (fun _ s' => Prepared env disk intent ticket plan s' ∧ Placed plan s')
      (fun _ => Prepared env disk intent ticket plan) (Prepared env disk intent ticket plan) s := by
  rw [wp_onRestore]
  refine wp_mono ?_ ?_ ?_ (wp_and (wp_markMaterialized hs.sound)
    (within_markMaterialized env.restore ticket s.restore))
  · rintro result restore ⟨hsound, hsame⟩
    exact ⟨hs.of_restore hsound, hplaced.of_sameTargets hsame⟩
  · rintro error restore ⟨hsound, -⟩
    exact hs.of_restore hsound
  · rintro restore ⟨hsound, -⟩
    exact hs.of_restore hsound

theorem wp_commitContent (hs : Committed env disk intent ticket plan s) :
    (onRestore env (commitRestore env.restore ticket)).wp
      (fun _ => Committed env disk intent ticket plan)
      (fun _ => Committed env disk intent ticket plan)
      (Committed env disk intent ticket plan) s := by
  have hnext : ∀ restore, Sound env.restore plan True ticket.ticketId restore →
      SameTargets s.restore restore → Committed env disk intent ticket plan { s with restore } :=
    fun restore hsound hsame => ⟨hs.phase, hs.releases, hsound, hs.placed.of_sameTargets hsame,
      hs.selects.profiles, hs.selects.shows⟩
  rw [wp_onRestore]
  refine wp_mono ?_ ?_ ?_ (wp_and
    (wp_commitRestore hs.sound fun record _ _ _ i hkept => hs.placed i hkept)
    (within_commitRestore env.restore ticket s.restore))
  · rintro result restore ⟨⟨hsound, -⟩, hsame⟩
    exact hnext restore hsound hsame
  · rintro error restore ⟨hsound, hsame⟩
    exact hnext restore hsound hsame
  · rintro restore ⟨hsound, hsame⟩
    exact hnext restore hsound hsame

/-- **The stages of a restore that is all or nothing.** -/
def atomicFlow (h : Begun env snapshotId disk intent ticket plan) :
    RestoreFlow env intent ticket where
  prepared := Prepared env disk intent ticket plan
  mayResume := MayResume env ticket plan
  back s := Prepared env disk intent ticket plan s ∧ FilesBack disk s
  restored s := Prepared env disk intent ticket plan s ∧ IsPrevious env intent disk s
  placed _ s := Prepared env disk intent ticket plan s ∧ Placed plan s
  selected s := Prepared env disk intent ticket plan s ∧ Placed plan s ∧
    Selects env s intent.targetProfiles intent.targetCurrentRelease intent.targetLastKnownGood
  committed := Committed env disk intent ticket plan
  ended := Ended env intent snapshotId disk
  snapshot := h.snapshot
  prepared_phase hs := hs.phase
  prepared_error _ _ _ hjournal hs := ⟨inPhase_recordError hjournal hs.phase, hs.releases, hs.sound⟩
  prepared_of_placed hs := hs.1
  prepared_of_selected hs := hs.1
  prepared_of_restored hs := hs.1
  prepared_of_back hs := hs.1
  committed_phase hs := hs.phase
  committed_error _ _ _ hjournal hs := ⟨inPhase_recordError hjournal hs.phase, hs.releases,
    hs.sound, hs.placed, hs.selects.profiles, hs.selects.shows⟩
  ended_journal hs := hs.1
  rollback hs := wp_rollbackContent h hs
  rollbackSelection hs := wp_mono
    (fun _ _ h₁ => ⟨hs.of_selectionOnly h₁.1, fun hback =>
      ⟨hs.of_selectionOnly h₁.1, .of_filesBack hback.2 h₁.1 h₁.2⟩⟩)
    (fun _ _ h₁ => hs.of_selectionOnly h₁) (fun _ h₁ => hs.of_selectionOnly h₁)
    (wp_rollbackCheckpointSelection h.valid (h.previous.congr hs.releases))
  startupSelection hs := wp_mono
    (fun _ _ h₁ => ⟨hs.1.of_selectionOnly h₁.1, .of_filesBack hs.2 h₁.1 h₁.2⟩)
    (fun _ _ h₁ => hs.1.of_selectionOnly h₁) (fun _ h₁ => hs.1.of_selectionOnly h₁)
    (wp_startupSelection h.valid (h.previous.congr hs.1.releases))
  clear_restored hs := ⟨rfl, Or.inl ⟨⟨hs.2.selects.profiles, hs.2.selects.shows⟩, hs.2.files⟩⟩
  apply hs hmay := wp_applyContent hs hmay
  mark hs := wp_markContent hs.1 hs.2
  select hs := wp_mono
    (fun _ _ h₁ => ⟨hs.1.of_selectionOnly h₁.1,
      fun i hkept => by rw [h₁.1.restore]; exact hs.2 i hkept, h₁.2⟩)
    (fun _ _ h₁ => hs.1.of_selectionOnly h₁) (fun _ h₁ => hs.1.of_selectionOnly h₁)
    (wp_applyCheckpointTargetSelection h.valid (h.target.congr hs.1.releases))
  commitJournal hs his := ⟨⟨_, rfl, his⟩, hs.1.releases, hs.1.sound, hs.2.1,
    hs.2.2.profiles, hs.2.2.shows⟩
  commit hs := wp_commitContent hs
  validateCommitted hs _ := wp_validateCommitted h.valid hs.selects.profiles hs
  clear_committed hs := by
    have htarget := isTarget_of_placed h hs.selects hs.placed
    exact ⟨rfl, Or.inr ⟨⟨htarget.selects.profiles, htarget.selects.shows⟩, htarget.files⟩⟩

end Begun

end DshNexus.Checkpoint
