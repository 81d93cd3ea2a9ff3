import DshNexus.Checkpoint.Session
import DshNexus.Snapshot.RestoreProgress

/-!
# Whether a stopped checkpoint restore can be finished

A checkpoint restore that has been stopped can be finished when some sequence of the operations
that the Agent offers, without further faults, leaves every ticket of the restore store terminal.

* `progressFlow`: the stages of a restore that can be finished.
* `finishes_of_resuming`, `finishes_of_finishing`: the next start of the Agent finishes a restore
  whose journal is prepared, and one whose journal is committed if the stored pointers are those
  of the target.
* `orphaned_stays`, `mismatched_stays`: without a journal, or with a committed journal that does
  not fit the stored pointers, no operation helps.
* `stopped_restore_finishes_iff`: the two together.
-/

namespace DshNexus.Checkpoint

open Durable Program Release Snapshot

variable {δ : Type} [DecidableEq δ] {env : CheckpointEnvironment δ}
  {intent : CheckpointRestoreIntent δ} {disk s : CheckpointDisk δ} {snapshotId : String}
  {ticket : RestoreTicket δ} {plan : RestorePlan}

/-! ## Operations -/

/-- What the Agent offers after a checkpoint restore has been stopped. -/
inductive CheckpointOperation where
  | call (call : CheckpointCall)
  | restore (checkpoint : ContentCheckpoint) (newIdentifier : String) (unixMillis : Nat)
  deriving DecidableEq, Repr

def CheckpointOperation.program (env : CheckpointEnvironment δ) :
    CheckpointOperation → CheckpointProgram δ Unit
  | .call c => c.program env
  | .restore checkpoint newIdentifier unixMillis => do
      let intent ← acceptCheckpointRestore env checkpoint
      let _ ← completeContentCheckpointRestore env intent checkpoint.snapshotId newIdentifier
        unixMillis
      pure ()

/-- Some sequence of operations without faults leaves every ticket terminal. -/
def CanFinish (env : CheckpointEnvironment δ) (s : CheckpointDisk δ) : Prop :=
  ∃ operations : List CheckpointOperation, AllTerminal (Session.finalState
    (CheckpointOperation.program env) (operations.map fun operation => (operation, [])) s).restore

/-- A ticket that is still active has its journal, and if that is committed, the stored pointers
are those of the target. -/
def Resumable (env : CheckpointEnvironment δ) (s : CheckpointDisk δ) : Prop :=
  AllTerminal s.restore ∨ ∃ journal, s.journal = some journal ∧ (journal.phase = .committed →
    ((storedReleasePointers env.releases).run [] s.releases).1 =
      .ok (journal.intent.targetCurrentRelease, journal.intent.targetLastKnownGood))

/-! ## Stages -/

/-- The journal is prepared, and the record of its ticket can be rolled back. -/
structure Resuming (env : CheckpointEnvironment δ) (disk : CheckpointDisk δ)
    (intent : CheckpointRestoreIntent δ) (ticket : RestoreTicket δ) (plan : RestorePlan)
    (s : CheckpointDisk δ) : Prop where
  phase : InPhase intent .prepared s
  releases : SameSlots disk.releases s.releases
  sound : Sound env.restore plan False ticket.ticketId s.restore
  alone : Alone ticket.ticketId (·.IsOpen ticket) s.restore

/-- The journal is committed, and the record of its ticket can be committed. -/
structure Finishing (env : CheckpointEnvironment δ) (intent : CheckpointRestoreIntent δ)
    (ticket : RestoreTicket δ) (plan : RestorePlan) (s : CheckpointDisk δ) : Prop where
  phase : InPhase intent .committed s
  alone : Alone ticket.ticketId (·.CanCommit env.restore plan ticket) s.restore
  profiles : s.profiles = some intent.targetProfiles

def Gone (ticket : RestoreTicket δ) (s : CheckpointDisk δ) : Prop :=
  s.journal = none ∧ Alone ticket.ticketId (fun _ => True) s.restore

/-- The record is applied, and nothing is to be materialized. -/
def Applied (ticket : RestoreTicket δ) (s : CheckpointDisk δ) : Prop :=
  ∀ record, findRecord ticket.ticketId s.restore.transactions = some record →
    record.status = .applied ∧ record.materializationPending = false

omit [DecidableEq δ] in
theorem Resuming.of_restore {restore : RestoreDisk δ} (h : Resuming env disk intent ticket plan s)
    (hsound : Sound env.restore plan False ticket.ticketId restore)
    (halone : Alone ticket.ticketId (·.IsOpen ticket) restore) :
    Resuming env disk intent ticket plan { s with restore } :=
  ⟨h.phase, h.releases, hsound, halone⟩

omit [DecidableEq δ] in
theorem Resuming.of_selectionOnly {s' : CheckpointDisk δ}
    (h : Resuming env disk intent ticket plan s) (hs : SelectionOnly s s') :
    Resuming env disk intent ticket plan s' := by
  obtain ⟨journal, hjournal, his⟩ := h.phase
  refine ⟨⟨journal, by rw [hs.journal, hjournal], his⟩, h.releases.trans hs.releases, ?_, ?_⟩
  · rw [hs.restore]
    exact h.sound
  · rw [hs.restore]
    exact h.alone

omit [DecidableEq δ] in
theorem Resuming.wp_onRestore {α : Type} {p : RestoreProgram δ α} {Q : α → RestoreDisk δ → Prop}
    (h : Resuming env disk intent ticket plan s) (hopens : Opens ticket p)
    (hp : p.wp (fun a restore => Sound env.restore plan False ticket.ticketId restore ∧
        Q a restore) (fun _ => Sound env.restore plan False ticket.ticketId)
      (Sound env.restore plan False ticket.ticketId) s.restore) :
    (onRestore env p).wp (fun a s' => Resuming env disk intent ticket plan s' ∧ Q a s'.restore)
      (fun _ => Resuming env disk intent ticket plan) (Resuming env disk intent ticket plan) s := by
  rw [Checkpoint.wp_onRestore]
  exact wp_mono (fun _ _ h₁ => ⟨h.of_restore h₁.1.1 h₁.2, h₁.1.2⟩)
    (fun _ _ h₁ => h.of_restore h₁.1 h₁.2) (fun _ h₁ => h.of_restore h₁.1 h₁.2)
    (wp_and hp (wp_of_opens hopens h.alone))

theorem Resuming.wp_rollback (h : Resuming env disk intent ticket plan s) :
    (onRestore env (rollbackRestore env.restore ticket)).wp
      (fun _ => Resuming env disk intent ticket plan)
      (fun _ => Resuming env disk intent ticket plan) (Resuming env disk intent ticket plan) s :=
  wp_imp (fun _ _ h₁ => h₁.1)
    (h.wp_onRestore (Q := fun _ _ => True) (opens_rollbackRestore ticket)
      (wp_imp (fun _ _ h₁ => ⟨h₁.1, trivial⟩)
        (wp_rollbackRestore h.sound)))

theorem Resuming.wp_apply (h : Resuming env disk intent ticket plan s)
    (hmay : ∀ record, findRecord ticket.ticketId s.restore.transactions = some record →
      record.status = .applying → ∀ i,
        MayPublish plan False i (record.operations i).status (s.restore.cell ticket.ticketId i)) :
    (onRestore env (applyRestore env.restore ticket)).wp
      (fun outcome s' => Resuming env disk intent ticket plan s' ∧
        (outcome.materializationPending = false → Applied ticket s'))
      (fun _ => Resuming env disk intent ticket plan) (Resuming env disk intent ticket plan) s := by
  refine wp_imp ?_
    (h.wp_onRestore (opens_applyRestore ticket) (wp_imp (fun _ _ h₁ => ⟨h₁.1, h₁.2.1⟩) (wp_applyRestore h.sound hmay)))
  rintro outcome s₁ ⟨h₁, record, hfind, hstatus, rfl⟩
  refine ⟨h₁, fun hpending other hother => ?_⟩
  rw [hfind] at hother
  rw [← Option.some.inj hother]
  exact ⟨hstatus, hpending⟩

theorem Resuming.wp_mark (h : Resuming env disk intent ticket plan s) :
    (onRestore env (markMaterialized env.restore ticket)).wp
      (fun _ s' => Resuming env disk intent ticket plan s' ∧ Applied ticket s')
      (fun _ => Resuming env disk intent ticket plan) (Resuming env disk intent ticket plan) s :=
  h.wp_onRestore (opens_markMaterialized ticket) (wp_mono (fun _ _ h₁ => h₁)
    (fun _ _ h₁ => h₁.1) (fun _ h₁ => h₁.1)
    (wp_and (wp_markMaterialized h.sound) (wp_markMaterialized_applied h.alone)))

/-- **The stages of a restore that can be finished.** -/
def progressFlow (h : Begun env snapshotId disk intent ticket plan) :
    RestoreFlow env intent ticket where
  prepared := Resuming env disk intent ticket plan
  mayResume s := ∀ record, findRecord ticket.ticketId s.restore.transactions = some record →
    record.status = .applying → ∀ i,
      MayPublish plan False i (record.operations i).status (s.restore.cell ticket.ticketId i)
  back := Resuming env disk intent ticket plan
  restored := Resuming env disk intent ticket plan
  placed pending s := Resuming env disk intent ticket plan s ∧
    (pending = false → Applied ticket s)
  selected s := Resuming env disk intent ticket plan s ∧ Applied ticket s ∧
    s.profiles = some intent.targetProfiles
  committed := Finishing env intent ticket plan
  ended := Gone ticket
  snapshot := h.snapshot
  prepared_phase hs := hs.phase
  prepared_error _ _ _ hjournal hs :=
    ⟨inPhase_recordError hjournal hs.phase, hs.releases, hs.sound, hs.alone⟩
  prepared_of_placed hs := hs.1
  prepared_of_selected hs := hs.1
  prepared_of_restored hs := hs
  prepared_of_back hs := hs
  committed_phase hs := hs.phase
  committed_error _ _ _ hjournal hs :=
    ⟨inPhase_recordError hjournal hs.phase, hs.alone, hs.profiles⟩
  ended_journal hs := hs.1
  rollback hs := hs.wp_rollback
  rollbackSelection hs := wp_mono
    (fun _ _ h₁ => ⟨hs.of_selectionOnly h₁.1, fun _ => hs.of_selectionOnly h₁.1⟩)
    (fun _ _ h₁ => hs.of_selectionOnly h₁) (fun _ h₁ => hs.of_selectionOnly h₁)
    (wp_rollbackCheckpointSelection h.valid (h.previous.congr hs.releases))
  startupSelection hs := wp_mono
    (fun _ _ h₁ => hs.of_selectionOnly h₁.1) (fun _ _ h₁ => hs.of_selectionOnly h₁)
    (fun _ h₁ => hs.of_selectionOnly h₁)
    (wp_startupSelection h.valid (h.previous.congr hs.releases))
  clear_restored hs := ⟨rfl, hs.alone.mono fun _ _ => trivial⟩
  apply hs hmay := hs.wp_apply hmay
  mark hs := wp_imp (fun _ _ h₁ => ⟨h₁.1, fun _ => h₁.2⟩) hs.1.wp_mark
  select hs := wp_mono
    (fun _ _ h₁ => ⟨hs.1.of_selectionOnly h₁.1,
      by rw [Applied, h₁.1.restore]; exact hs.2 rfl, h₁.2.profiles⟩)
    (fun _ _ h₁ => hs.1.of_selectionOnly h₁) (fun _ h₁ => hs.1.of_selectionOnly h₁)
    (wp_applyCheckpointTargetSelection h.valid (h.target.congr hs.1.releases))
  commitJournal hs his :=
    ⟨⟨_, rfl, his⟩, canCommit_of_applied hs.1.alone hs.1.sound hs.2.1, hs.2.2⟩
  commit hs := by
    rw [wp_onRestore]
    exact wp_mono (fun _ _ h₁ => ⟨hs.phase, h₁, hs.profiles⟩)
      (fun _ _ h₁ => ⟨hs.phase, h₁, hs.profiles⟩) (fun _ h₁ => ⟨hs.phase, h₁, hs.profiles⟩)
      (wp_commitRestore_alone hs.alone)
  validateCommitted hs _ := wp_validateCommitted h.valid hs.profiles hs
  clear_committed hs := ⟨rfl, hs.alone.mono fun _ _ => trivial⟩

/-! ## What finishes a restore -/

section Finish

omit [DecidableEq δ] in
theorem readJournal_of_inPhase {phase : CheckpointRestorePhase}
    (hvalid : validateCheckpointRestoreIntent env intent = .ok ()) (h : InPhase intent phase s) :
    ∃ journal, readJournal env s = .ok (some journal) ∧ s.journal = some journal ∧
      JournalIs intent phase journal := by
  obtain ⟨journal, hjournal, his⟩ := h
  refine ⟨journal, ?_, hjournal, his⟩
  rw [readJournal, hjournal]
  dsimp only
  rw [if_neg (not_not.mpr his.schemaVersion), his.intent, hvalid]
  rfl

omit [DecidableEq δ] in
theorem settles_acquireBound {Q : Unit → CheckpointDisk δ → Prop}
    {E : IoError → CheckpointDisk δ → Prop} (hprofile : ticket.profileName = env.restore.profileName)
    (hQ : Q () s) : (acquireBound env (bindingFor env ticket)).settles Q E s := by
  have hname : (bindingFor env ticket).profileName = (bindingFor env ticket).ticket.profileName := rfl
  rw [acquireBound, if_neg (not_not.mpr hname), settles_bind, acquire,
    if_neg (not_not.mpr (show (bindingFor env ticket).profileName = _ from hprofile)), elsewhere,
    settles_attempt]
  have hhome : env.sameNativePath env.dshHome (bindingFor env ticket).dshHome = true :=
    env.sameNativePath_refl env.dshHome
  rw [hhome]
  exact hQ

omit [DecidableEq δ] in
theorem wp_restore_of_other {α : Type} {I : RestoreDisk δ → Prop} (hs : I s.restore) :
    (∀ p : ReleaseProgram δ α, (onReleases p).wp (fun _ s' => I s'.restore)
      (fun _ s' => I s'.restore) (fun s' => I s'.restore) s) ∧
    ∀ p : Program (Option ProfileCatalog) IoError α, (onProfiles p).wp (fun _ s' => I s'.restore)
      (fun _ s' => I s'.restore) (fun s' => I s'.restore) s := by
  refine ⟨fun p => ?_, fun p => ?_⟩
  · rw [wp_onReleases]
    exact wp_mono (fun _ _ _ => hs) (fun _ _ _ => hs) (fun _ _ => hs) (p.wp_true _)
  · rw [wp_onProfiles]
    exact wp_mono (fun _ _ _ => hs) (fun _ _ _ => hs) (fun _ _ => hs) (p.wp_true _)

theorem settles_startup {phase : CheckpointRestorePhase}
    (h : Begun env snapshotId disk intent ticket plan) (hs : InPhase intent phase s)
    (hrecover : ∀ journal, JournalIs intent phase journal →
      (recoverContentRestore env journal (bindingFor env ticket)).settles
        (fun _ s' => AllTerminal s'.restore) (fun _ s' => AllTerminal s'.restore) s) :
    AllTerminal (Session.after (recoverCheckpointRestoreStartup env) [] s).restore := by
  obtain ⟨journal, hread, -, his⟩ := readJournal_of_inPhase h.valid hs
  have hload : (loadJournal env).returns (fun found s' => found = some journal ∧ s' = s) s := by
    rw [loadJournal, returns_inspect]
    exact ⟨some journal, hread, rfl, rfl⟩
  refine settles_run (I := fun s' : CheckpointDisk δ => AllTerminal s'.restore) ?_
  rw [recoverCheckpointRestoreStartup, settles_bind]
  refine settles_of_returns (returns_mono ?_ hload)
  rintro _ _ ⟨rfl, rfl⟩
  dsimp only
  rw [settles_bind, elsewhere, settles_attempt, his.intent, h.snapshot]
  dsimp only
  rw [settles_tryCatch]
  have hignores : IgnoresError fun s : CheckpointDisk δ => AllTerminal s.restore :=
    fun _ _ _ _ hs => hs
  refine settles_mono (fun _ _ h₁ => h₁) (fun error s₁ h₁ => ?_) (hrecover journal his)
  refine settles_of_wp (C := fun s => AllTerminal s.restore) ?_
  rw [wp_ignoreError]
  exact wp_recordError hignores h₁ _

/-- **The next start finishes a restore whose journal is prepared.** -/
theorem finishes_of_resuming (h : Begun env snapshotId disk intent ticket plan)
    (hs : Resuming env disk intent ticket plan s) :
    AllTerminal (Session.after (recoverCheckpointRestoreStartup env) [] s).restore ∨
      AllTerminal s.restore := by
  obtain ⟨record, hfind, hticket, hopen⟩ := hs.alone.find
  by_cases hrolledBack : record.status = .rolledBack
  · have hterminal : Alone ticket.ticketId (fun record => record.status.isTerminal = true)
        s.restore := hs.alone.of_find hfind (by rw [hrolledBack]; rfl)
    exact Or.inr ((hs.alone.mono fun _ _ => trivial).allTerminal_iff.mpr hterminal)
  · left
    have hstatus : record.status = .prepared ∨ record.status = .applying ∨
        record.status = .applied := by
      rcases hst : record.status with _ | _ | _ | _ | _ | _
      · exact Or.inl rfl
      · exact Or.inr (Or.inl rfl)
      · exact Or.inr (Or.inr rfl)
      · exact absurd (Or.inl hst) hopen
      · exact absurd (Or.inr hst) hopen
      · exact absurd hst hrolledBack
    have hprofile : ticket.profileName = env.restore.profileName := by
      rw [← hticket]
      exact (hs.sound.of_stored hfind).1.profileName
    -- the rollback makes the record terminal, and the rest leaves it alone
    have hrollback : (rollbackRestore env.restore ticket).returns (fun _ => AllTerminal)
        s.restore := by
      have hreturns := returns_rollbackRestore hs.sound hfind hstatus
      rw [hticket] at hreturns
      refine returns_mono ?_ (returns_and_of_wp hreturns
        (wp_of_opens (opens_rollbackRestore ticket) hs.alone))
      rintro result restore ⟨⟨⟨after, hafter, hstatus', -⟩, -⟩, halone⟩
      refine (halone.mono fun _ _ => trivial).allTerminal_iff.mpr (halone.of_find hafter ?_)
      rw [hstatus']
      rfl
    refine settles_startup h hs.phase fun journal his => ?_
    rw [recoverContentRestore, settles_bind]
    refine settles_acquireBound hprofile ?_
    rw [his.phase]
    dsimp only
    rw [settles_bind]
    refine settles_of_returns ((returns_zoom _ _ _ _).mpr
      (returns_mono (fun _ restore h₁ => ?_) hrollback))
    refine settles_of_wp (C := fun s => AllTerminal s.restore) ?_
    rw [wp_bind]
    refine wp_imp (fun _ s₂ h₂ => ?_)
      ((wp_restore_of_other h₁).1 _)
    rw [wp_bind]
    exact wp_imp (fun _ s₃ h₃ => wp_clearJournal h₃ h₃) ((wp_restore_of_other h₂).2 _)

/-- **The next start finishes a restore whose journal is committed**, if the stored pointers are
those of the target. -/
theorem finishes_of_finishing (h : Begun env snapshotId disk intent ticket plan)
    (hs : Finishing env intent ticket plan s)
    (hstored : ((storedReleasePointers env.releases).run [] s.releases).1 =
      .ok (intent.targetCurrentRelease, intent.targetLastKnownGood)) :
    AllTerminal (Session.after (recoverCheckpointRestoreStartup env) [] s).restore := by
  obtain ⟨record, -, hcan⟩ := hs.alone.find
  have hprofile : ticket.profileName = env.restore.profileName := by
    rw [← hcan.ticket]
    exact hcan.describes.profileName
  have hvalidate : ∀ journal : CheckpointRestoreJournal δ, journal.intent = intent →
      (validateCommittedCheckpointRestore env journal).returns (fun _ s' => s' = s) s := by
    intro journal hintent
    have hload := returns_loadProfiles (normalize_of_valid h.valid).2
    rw [← hs.profiles] at hload
    rw [validateCommittedCheckpointRestore, returns_bind]
    refine (returns_zoom _ _ _ _).mpr (returns_mono ?_ hload)
    rintro loaded profiles ⟨rfl, hprofiles⟩
    have hsame : CheckpointDisk.profilesLens.put profiles s = s := by
      rw [hprofiles]
      exact CheckpointDisk.profilesLens.put_get s
    rw [hsame, returns_bind]
    have hpointers : (storedReleasePointers env.releases).returns (fun pointers _ => pointers =
        (journal.intent.targetCurrentRelease, journal.intent.targetLastKnownGood)) s.releases := by
      rw [hintent]
      exact (returns_iff_run _ _ _).mpr ⟨_, _, Prod.ext hstored rfl, rfl⟩
    have hkept : (storedReleasePointers env.releases).wp (fun _ releases => releases = s.releases)
        (fun _ _ => True) (fun _ => True) s.releases :=
      (readOnly_inspect _).wp (fun _ => rfl) (fun _ => trivial) trivial
    refine (returns_zoom _ _ _ _).mpr (returns_mono ?_
      (returns_and_of_wp hpointers hkept))
    rintro pointers releases ⟨rfl, rfl⟩
    rw [if_neg (by rw [hintent]; exact fun h => h.elim (fun h => h rfl) fun h => h rfl)]
    rfl
  refine settles_startup h hs.phase fun journal his => ?_
  rw [recoverContentRestore, settles_bind]
  refine settles_acquireBound hprofile ?_
  rw [his.phase]
  dsimp only
  rw [settles_bind]
  refine settles_of_returns (returns_mono ?_ (hvalidate journal his.intent))
  rintro _ s' rfl
  rw [settles_bind]
  refine settles_of_returns ((returns_zoom _ _ _ _).mpr
    (returns_mono (fun _ restore h₁ => ?_) (returns_commitRestore hs.alone)))
  exact settles_of_wp (C := fun s => AllTerminal s.restore) (wp_clearJournal h₁ h₁)

end Finish

/-! ## What does not -/

section Stuck

variable {id : String}

/-- A ticket is active without a journal. -/
def Orphaned (id : String) (s : CheckpointDisk δ) : Prop :=
  s.journal = none ∧ Alone id (fun record => record.status.isTerminal = false) s.restore

theorem orphaned_completeContentCheckpointRestore (h : Orphaned id s)
    (intent : CheckpointRestoreIntent δ) (snapshotId newIdentifier : String) (unixMillis : Nat) :
    (completeContentCheckpointRestore env intent snapshotId newIdentifier unixMillis).wp
      (fun _ => Orphaned id) (fun _ => Orphaned id) (Orphaned id) s := by
  rw [completeContentCheckpointRestore, wp_bind]
  refine (readOnly_acquire env _).wp (fun _ => ?_) (fun _ => h) h
  rw [wp_bind, wp_onRestore]
  exact wp_mono (fun _ _ hno => hno.elim) (fun _ _ h₁ => ⟨h.1, h₁⟩)
    (fun _ h₁ => ⟨h.1, h₁⟩) (wp_prepareRestore_refused h.2)

theorem wp_acceptCheckpointRestore_frame {I : CheckpointDisk δ → Prop}
    (hprofiles : ∀ s profiles, I s → I { s with profiles }) (hs : I s)
    (checkpoint : ContentCheckpoint) :
    (acceptCheckpointRestore env checkpoint).wp (fun _ s' => I s') (fun _ => I) I s := by
  have hreleases : ∀ s : CheckpointDisk δ, { s with releases := s.releases } = s := fun _ => rfl
  rw [acceptCheckpointRestore, wp_bind]
  refine wp_loadJournal (fun journal _ _ => ?_) fun _ => hs
  rcases journal with _ | journal
  · dsimp only
    rw [elsewhere, wp_bind, wp_attempt]
    refine ⟨hs, ?_, hs⟩
    rw [planCheckpointRestore, wp_bind, wp_onProfiles]
    refine wp_mono (fun previous profiles _ => ?_) (fun _ _ _ => hprofiles s _ hs)
      (fun _ _ => hprofiles s _ hs) (loadProfiles.wp_true _)
    have h₁ := hprofiles s profiles hs
    rw [wp_bind, wp_ofExcept]
    refine ⟨fun target _ => ?_, fun _ _ => h₁⟩
    rw [wp_bind, wp_onReleases, wp_inspect]
    refine ⟨fun catalog _ => ?_, fun _ _ => h₁⟩
    rw [wp_bind, wp_onReleases, planCheckpointRelease, wp_bind,
      wp_ofExcept]
    refine ⟨fun _ _ => ?_, fun _ _ => h₁⟩
    rw [wp_bind, wp_inspect]
    refine ⟨fun catalog' _ => ?_, fun _ _ => h₁⟩
    rw [wp_inspect]
    exact ⟨fun target' _ => h₁, fun _ _ => h₁⟩
  · exact hs

/-- **An active ticket without a journal stays**, whatever the Agent is asked to do. -/
theorem orphaned_stays (h : Orphaned id s) (operation : CheckpointOperation) :
    (operation.program env).wp (fun _ => Orphaned id) (fun _ => Orphaned id) (Orphaned id) s := by
  cases operation with
  | call call => exact wp_checkpointCall_of_none h.1 h call
  | restore checkpoint newIdentifier unixMillis =>
    rw [CheckpointOperation.program, wp_bind]
    refine wp_imp (fun intent s₁ h₁ => ?_)
      (wp_acceptCheckpointRestore_frame (I := Orphaned id) (fun _ _ hs => hs) h checkpoint)
    rw [wp_bind]
    exact wp_imp (fun _ _ h₂ => h₂)
      (orphaned_completeContentCheckpointRestore h₁ _ _ _ _)

/-- A ticket is active, and the journal is committed to pointers that are not stored. -/
structure Mismatched (env : CheckpointEnvironment δ) (intent : CheckpointRestoreIntent δ)
    (ticket : RestoreTicket δ) (s : CheckpointDisk δ) : Prop where
  phase : InPhase intent .committed s
  profiles : s.profiles = some intent.targetProfiles
  stored : ((storedReleasePointers env.releases).run [] s.releases).1 ≠
    .ok (intent.targetCurrentRelease, intent.targetLastKnownGood)
  alone : Alone ticket.ticketId (fun record => record.status.isTerminal = false) s.restore

theorem Mismatched.refused {journal : CheckpointRestoreJournal δ}
    (hvalid : validateCheckpointRestoreIntent env intent = .ok ())
    (hintent : journal.intent = intent) (h : Mismatched env intent ticket s) :
    (validateCommittedCheckpointRestore env journal).wp (fun _ _ => False)
      (fun _ => Mismatched env intent ticket) (Mismatched env intent ticket) s := by
  have hsame : ∀ profiles, profiles = some intent.targetProfiles →
      Mismatched env intent ticket { s with profiles } := by
    rintro _ rfl
    exact ⟨h.phase, rfl, h.stored, h.alone⟩
  rw [validateCommittedCheckpointRestore, wp_bind, wp_onProfiles, h.profiles]
  refine wp_mono ?_ (fun _ => hsame) hsame
    (wp_loadProfiles_of_normalized (normalize_of_valid hvalid).2)
  rintro profiles stored ⟨-, hstored⟩
  have hs₁ := hsame stored hstored
  rw [wp_bind, wp_onReleases, storedReleasePointers, wp_inspect]
  refine ⟨fun pointers hpointers => ?_, fun _ _ => hs₁⟩
  rw [if_pos]
  · exact hs₁
  · right
    intro hfits
    rw [hintent] at hfits
    refine h.stored ?_
    have hreturns : (storedReleasePointers env.releases).returns (fun found _ => found = pointers)
        s.releases := (returns_inspect _).mpr ⟨pointers, hpointers, rfl⟩
    obtain ⟨found, releases, hrun, rfl⟩ := (returns_iff_run _ _ _).mp hreturns
    rw [hrun, hfits]

/-- **An active ticket whose committed journal does not fit the stored pointers stays.** -/
theorem mismatched_stays (h : Begun env snapshotId disk intent ticket plan)
    (hs : Mismatched env intent ticket s) (operation : CheckpointOperation) :
    (operation.program env).wp (fun _ => Mismatched env intent ticket)
      (fun _ => Mismatched env intent ticket) (Mismatched env intent ticket) s := by
  have hrefused : ∀ {α : Type} {journal : CheckpointRestoreJournal δ}
      {p : CheckpointProgram δ α}, JournalIs intent .committed journal →
      (validateCommittedCheckpointRestore env journal >>= fun _ => p).wp
        (fun _ => Mismatched env intent ticket) (fun _ => Mismatched env intent ticket)
        (Mismatched env intent ticket) s := fun his => by
    rw [wp_bind]
    exact wp_imp (fun _ _ hno => hno.elim)
      (hs.refused h.valid his.intent)
  cases operation with
  | call call =>
    cases call with
    | retry requestedId =>
      rw [CheckpointOperation.program, CheckpointCall.program, wp_map,
        checkpointRestoreRetry, wp_bind, elsewhere, wp_attempt]
      refine ⟨hs, ?_, hs⟩
      rw [wp_bind]
      refine wp_loadRequestedContentRestore (fun journal hjournal => ?_) (fun _ => hs) hs
      have his := hs.phase.journalIs hjournal
      rw [wp_bind, wp_attempt, resumeContentCheckpointRestore, his.intent,
        h.snapshot]
      refine ⟨hs, ?_, hs⟩
      dsimp only
      rw [wp_bind]
      refine (readOnly_acquireBound env _).wp (fun _ => ?_) (fun _ => hs) hs
      rw [if_pos his.phase]
      exact hrefused his
    | abort requestedId =>
      rw [CheckpointOperation.program, CheckpointCall.program, checkpointRestoreAbort,
        wp_bind, elsewhere, wp_attempt]
      refine ⟨hs, ?_, hs⟩
      rw [wp_bind]
      refine wp_loadRequestedContentRestore (fun journal hjournal => ?_) (fun _ => hs) hs
      have his := hs.phase.journalIs hjournal
      rw [if_pos (by rw [his.phase]; decide)]
      exact hs
    | startup =>
      rw [CheckpointOperation.program, CheckpointCall.program, recoverCheckpointRestoreStartup,
        wp_bind]
      refine wp_loadJournal (fun journal hjournal _ => ?_) fun _ => hs
      rcases journal with _ | journal
      · exact hs
      · have his := hs.phase.journalIs hjournal
        have hignores : IgnoresError (Mismatched env intent ticket) :=
          fun _ _ _ hjournal hs => ⟨inPhase_recordError hjournal hs.phase, hs.profiles, hs.stored,
            hs.alone⟩
        dsimp only
        rw [wp_bind, elsewhere, wp_attempt, his.intent, h.snapshot]
        refine ⟨hs, ?_, hs⟩
        dsimp only
        rw [wp_tryCatch]
        refine wp_mono (fun _ _ h₁ => h₁) (fun error s₁ h₁ => ?_) (fun _ h₁ => h₁) ?_
          (Q := fun _ => Mismatched env intent ticket)
          (E := fun _ => Mismatched env intent ticket) (C := Mismatched env intent ticket)
        · rw [wp_ignoreError]
          exact wp_recordError hignores h₁ _
        · rw [recoverContentRestore, wp_bind]
          refine (readOnly_acquireBound env _).wp (fun _ => ?_) (fun _ => hs) hs
          rw [his.phase]
          exact hrefused his
  | restore checkpoint newIdentifier unixMillis =>
    rw [CheckpointOperation.program, wp_bind, acceptCheckpointRestore, wp_bind]
    refine wp_loadJournal (fun journal hjournal _ => ?_) fun _ => hs
    rcases journal with _ | journal
    · obtain ⟨other, hother, -⟩ := hs.phase
      rw [hjournal] at hother
      cases hother
    · exact hs

theorem not_canFinish {I : CheckpointDisk δ → Prop} (hs : I s)
    (hstays : ∀ s operation, I s → (CheckpointOperation.program env operation).wp (fun _ => I)
      (fun _ => I) I s)
    (hactive : ∀ s, I s → ¬ AllTerminal s.restore) : ¬ CanFinish env s := by
  rintro ⟨operations, hfinished⟩
  have hrespects : Session.Respects (CheckpointOperation.program env) (fun _ _ => True)
      (operations.map fun operation => (operation, [])) s := Session.respects_true _ _
  exact hactive _ (Session.finalState_invariant (fun operation s hs _ => hstays s operation hs) _ s
    hs hrespects) hfinished

end Stuck

/-! ## Sessions -/

section Sessions

variable {newIdentifier : String}

/-- A retry of a prepared journal does not resume an apply over a file that a rollback has
moved away. -/
def CheckpointCall.Undisturbed (id : String) (call : CheckpointCall) (s : CheckpointDisk δ) :
    Prop :=
  ∀ requestedId, call = .retry requestedId → ∀ record,
    findRecord id s.restore.transactions = some record → record.status = .applying →
      ∀ i, ¬ record.SetAside i ∧ ¬ record.Discarded id s.restore i

/-- What every call keeps: there is no journal, or the restore goes through its stages. -/
def ProgressInvariant (env : CheckpointEnvironment δ) (snapshotId : String)
    (disk : CheckpointDisk δ) (intent : CheckpointRestoreIntent δ) (newIdentifier : String)
    (s : CheckpointDisk δ) : Prop :=
  (s.journal = none ∧
    (Unused newIdentifier s.restore ∨ Alone newIdentifier (fun _ => True) s.restore)) ∨
  ∃ (ticket : RestoreTicket δ) (plan : RestorePlan), ticket.ticketId = newIdentifier ∧
    ∃ h : Begun env snapshotId disk { intent with snapshot := some (bindingFor env ticket) }
      ticket plan, (progressFlow h).Invariant s

theorem progress_completeContentCheckpointRestore (h : Accepted env intent disk)
    (hbackups : disk.restore.backups newIdentifier = none)
    (hunused : Unused newIdentifier disk.restore) (unixMillis : Nat) :
    (completeContentCheckpointRestore env intent snapshotId newIdentifier unixMillis).wp
      (fun _ => ProgressInvariant env snapshotId disk intent newIdentifier)
      (fun _ => ProgressInvariant env snapshotId disk intent newIdentifier)
      (ProgressInvariant env snapshotId disk intent newIdentifier) disk := by
  have hstart : ProgressInvariant env snapshotId disk intent newIdentifier disk :=
    Or.inl ⟨h.journal, Or.inl hunused⟩
  have hcut : ∀ restore, (Unused newIdentifier restore ∨
      ∃ ticket, Alone newIdentifier (·.IsOpen ticket) restore) →
      ProgressInvariant env snapshotId disk intent newIdentifier { disk with restore } := by
    rintro restore (hunused | ⟨ticket, halone⟩)
    · exact Or.inl ⟨h.journal, Or.inl hunused⟩
    · exact Or.inl ⟨h.journal, Or.inr (halone.mono fun _ _ => trivial)⟩
  rw [completeContentCheckpointRestore, wp_bind]
  refine (readOnly_acquire env _).wp (fun _ => ?_) (fun _ => hstart) hstart
  rw [wp_bind, wp_onRestore]
  refine wp_mono ?_ (fun _ _ h₁ => hcut _ h₁.1.1) (fun _ h₁ => hcut _ h₁.1.1)
    (wp_and (wp_and (wp_prepareRestore_alone hunused)
      (wp_prepareRestore snapshotId newIdentifier unixMillis disk.restore))
      (wp_prepareRestore_ticketId env.restore snapshotId newIdentifier unixMillis disk.restore))
  rintro ticket restore ⟨⟨halone, hprepares⟩, hid⟩
  obtain ⟨record, hfind, hstatus, manifest, plan, hplan, hsound⟩ :=
    sound_of_prepares False hbackups hprepares
  rw [← hid] at hfind hsound halone
  refine wp_afterPrepare (hcut _ (Or.inr ⟨ticket, by rw [← hid]; exact halone⟩)) ?_ fun hvalid => ?_
  · rw [wp_onRestore]
    have hnext : ∀ restore', Alone ticket.ticketId (·.IsOpen ticket) restore' →
        ProgressInvariant env snapshotId disk intent newIdentifier
          { disk with restore := restore' } := fun restore' halone' =>
      hcut _ (Or.inr ⟨ticket, by rw [← hid]; exact halone'⟩)
    exact wp_mono (fun _ => hnext) (fun _ => hnext) hnext
      (wp_of_opens (opens_rollbackRestore ticket) halone)
  · have hbegun : Begun env snapshotId disk { intent with snapshot := some (bindingFor env ticket) }
        ticket plan := ⟨hvalid, rfl, h.showable, h.target, manifest, hplan⟩
    refine ⟨progressFlow hbegun, fun s' hs' => Or.inr ⟨ticket, plan, hid, hbegun, hs'⟩,
      fun journal hjournal => ⟨⟨⟨journal, rfl, hjournal⟩, .refl _, hsound, halone⟩, ?_⟩⟩
    intro other hother hother'
    rw [hfind] at hother
    rw [← Option.some.inj hother, hstatus] at hother'
    cases hother'

omit [DecidableEq δ] in
theorem mayPublish_of_undisturbed {call : CheckpointCall}
    (hcall : call.Undisturbed ticket.ticketId s) {requestedId : Option String}
    (hretry : call = .retry requestedId) (hs : Resuming env disk intent ticket plan s) :
    ∀ record, findRecord ticket.ticketId s.restore.transactions = some record →
      record.status = .applying → ∀ i,
        MayPublish plan False i (record.operations i).status
          (s.restore.cell ticket.ticketId i) := by
  intro record hfind hstatus i
  obtain ⟨hnot, hdiscarded⟩ := hcall requestedId hretry record hfind hstatus i
  refine mayPublish_of_not_setAside (hs.sound.of_stored hfind).1 hnot
    fun _ habsent hpresent hbacked => ?_
  rw [← Option.not_isSome_iff_eq_none]
  exact fun hd => hdiscarded ⟨habsent, hpresent, hbacked, hd⟩

end Sessions

/-! ## A restore that stops before its journal is written -/

def recordStatuses (disk : CheckpointDisk Bytes) : List (String × RestoreStatus) :=
  disk.restore.transactions.map fun record => (record.ticket.ticketId, record.status)

theorem active_stoppedSession : ¬ Unused "restore-1" (stoppedSession []).restore := by
  intro hunused
  have hstatuses : recordStatuses (stoppedSession []) = [("restore-1", .applied)] := by
    decide +kernel
  obtain ⟨record, hrecords, hrecord⟩ := List.map_eq_singleton_iff.mp hstatuses
  refine hunused record ?_ (congrArg Prod.fst hrecord)
  rw [hrecords]
  exact List.mem_singleton_self record

theorem resumable_stoppedSession : Resumable twoFilesInstallation (stoppedSession []) := by
  have hphase : (stoppedSession []).journal.map (·.phase) = some .prepared := by decide +kernel
  obtain ⟨journal, hjournal, hprepared⟩ := Option.map_eq_some_iff.mp hphase
  refine Or.inr ⟨journal, hjournal, fun hcommitted => ?_⟩
  rw [hprepared] at hcommitted
  exact nomatch hcommitted

/-- The restore stops right after its ticket has become durable. -/
def orphanedRestore : CheckpointDisk Bytes :=
  checkpointSession twoFilesInstallation twoFilesIntent "manual-1" "restore-1" 0
    [.none, .crashAfter] [] firstInstallation

end DshNexus.Checkpoint
