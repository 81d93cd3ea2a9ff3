import DshNexus.Checkpoint.Atomic

/-!
# A checkpoint restore never mixes old and new

A checkpoint restore is followed by any finite sequence of Retry requests, Abort requests and
Agent starts, each of which may fail or crash at any step.

* `wp_completeContentCheckpointRestore`: every cut of the start leaves everything as it was, or
  a restore that is under way.
* `checkpoint_all_or_nothing`: once the journal has been cleared, everything is the target or
  everything is as before.

The result needs the condition that a retry does not build on half a rollback: the restore
record does not say that a rollback has begun, so a retry takes a record that is still applied
for complete, and commits it.
-/

namespace DshNexus.Checkpoint

open Durable Program Release Snapshot

variable {δ : Type} [DecidableEq δ] {env : CheckpointEnvironment δ}
  {intent : CheckpointRestoreIntent δ} {disk s : CheckpointDisk δ} {snapshotId : String}

/-! ## The start of a restore -/

section Start

variable {newIdentifier : String}

/-- A restore that has begun is under way for the intent, with the binding of its ticket. -/
def UnderWay (env : CheckpointEnvironment δ) (snapshotId : String) (disk : CheckpointDisk δ)
    (intent : CheckpointRestoreIntent δ) (newIdentifier : String) (s : CheckpointDisk δ) : Prop :=
  ∃ (ticket : RestoreTicket δ) (plan : RestorePlan), ticket.ticketId = newIdentifier ∧
    ∃ h : Begun env snapshotId disk { intent with snapshot := some (bindingFor env ticket) }
      ticket plan, (atomicFlow h).Invariant s

/-- What every call keeps: nothing is pending and everything is old or new, or the restore is
under way. -/
def SessionInvariant (env : CheckpointEnvironment δ) (snapshotId : String)
    (disk : CheckpointDisk δ) (intent : CheckpointRestoreIntent δ) (newIdentifier : String)
    (s : CheckpointDisk δ) : Prop :=
  Ended env intent snapshotId disk s ∨ UnderWay env snapshotId disk intent newIdentifier s

theorem ended_of_restore (h : Accepted env intent disk) {restore : RestoreDisk δ}
    (hsame : ∀ i, (restore.target i).map (·.bytes) = (disk.restore.target i).map (·.bytes)) :
    Ended env intent snapshotId disk { disk with restore } :=
  ⟨h.journal, Or.inl ⟨⟨h.previous.profiles, h.previous.shows⟩, hsame⟩⟩

omit [DecidableEq δ] in
theorem target_of_prepares {env : RestoreEnvironment δ} {disk restore : RestoreDisk δ}
    (h : Pruned disk restore ∨ Prepares env snapshotId newIdentifier disk restore) :
    restore.target = disk.target := by
  rcases h with hpruned | ⟨s₁, record, -, -, hpruned, rfl, -⟩
  · exact hpruned.target
  · exact hpruned.target

theorem ended_of_prepares (h : Accepted env intent disk) {restore : RestoreDisk δ}
    (hprepares : Pruned disk.restore restore ∨
      Prepares env.restore snapshotId newIdentifier disk.restore restore) :
    Ended env intent snapshotId disk { disk with restore } :=
  ended_of_restore h fun i => by rw [target_of_prepares hprepares]

theorem within_rollbackPrepared {record : TransactionRecord δ} {restore : RestoreDisk δ}
    {ticket : RestoreTicket δ}
    (hfind : findRecord ticket.ticketId restore.transactions = some record)
    (hstatus : record.status = .prepared) :
    (rollbackRestore env.restore ticket).wp (fun _ => SameTargets restore)
      (fun _ => SameTargets restore) (SameTargets restore) restore := by
  rw [rollbackRestore, wp_bind]
  refine wp_readMatchingTransaction (fun other hother _ => ?_) fun _ => rfl
  rw [hfind] at hother
  rw [← Option.some.inj hother, hstatus]
  dsimp only
  rw [finishRollback, wp_bind]
  exact wp_writeTransaction rfl (fun _ => ⟨rfl, rfl⟩) ⟨rfl, rfl⟩

omit [DecidableEq δ] in
theorem wp_prepareRestore_ticketId (env : RestoreEnvironment δ)
    (snapshotId newIdentifier : String) (unixMillis : Nat) (restore : RestoreDisk δ) :
    (prepareRestore env snapshotId newIdentifier unixMillis).wp
      (fun ticket _ => ticket.ticketId = newIdentifier) (fun _ _ => True) (fun _ => True)
      restore := by
  have hany : ∀ {α : Type} (p : RestoreProgram δ α),
      p.StepsIn (fun f => ∀ s : RestoreDisk δ, True → True) fun _ => True := fun p =>
    stepsIn_of_forall (fun _ _ _ => trivial) p
  have hsteps : (prepareRestore env snapshotId newIdentifier unixMillis).StepsIn
      (fun f => ∀ s : RestoreDisk δ, True → True) fun ticket => ticket.ticketId = newIdentifier := by
    refine (hany _).then fun _ => (hany _).then fun active => ?_
    rcases active with _ | ⟨active, _⟩
    · refine (hany _).then fun manifest => (hany _).then fun digest => ?_
      refine (hany _).then fun prepared => ?_
      exact (hany _).then fun _ => rfl
    · trivial
  exact wp_mono (fun _ _ h => h.1) (fun _ _ _ => trivial) (fun _ _ => trivial)
    (hsteps.wp (I := fun _ => True) trivial)

omit [DecidableEq δ] in
theorem sound_of_prepares {env : RestoreEnvironment δ} {disk restore : RestoreDisk δ}
    (clash : Prop) (hbackups : disk.backups newIdentifier = none)
    (h : Prepares env snapshotId newIdentifier disk restore) :
    ∃ record, findRecord newIdentifier restore.transactions = some record ∧
      record.status = .prepared ∧ ∃ manifest plan,
        RestorePlan.IsFor env snapshotId disk manifest plan ∧
          Sound env plan clash newIdentifier restore := by
  have hsession : Snapshot.SessionInvariant env snapshotId newIdentifier disk clash restore :=
    sessionInvariant_of_prepares hbackups h
  obtain ⟨s₁, record, manifest, plan, -, rfl, hid, hstatus, -⟩ := h
  have hfind : findRecord newIdentifier (s₁.writeRecord record).transactions = some record := by
    rw [← hid]
    exact findRecord_putRecord_self record _
  refine ⟨record, hfind, hstatus, hsession.resolve_left fun hnone => ?_⟩
  rw [hfind] at hnone
  exact nomatch hnone

theorem wp_completeContentCheckpointRestore (h : Accepted env intent disk)
    (hbackups : disk.restore.backups newIdentifier = none) (unixMillis : Nat) :
    (completeContentCheckpointRestore env intent snapshotId newIdentifier unixMillis).wp
      (fun _ => SessionInvariant env snapshotId disk intent newIdentifier)
      (fun _ => SessionInvariant env snapshotId disk intent newIdentifier)
      (SessionInvariant env snapshotId disk intent newIdentifier) disk := by
  have hstart : SessionInvariant env snapshotId disk intent newIdentifier disk :=
    Or.inl (ended_of_restore h fun _ => rfl)
  rw [completeContentCheckpointRestore, wp_bind]
  refine (readOnly_acquire env _).wp (fun _ => ?_) (fun _ => hstart) hstart
  rw [wp_bind, wp_onRestore]
  refine wp_mono ?_ (fun _ _ h₁ => Or.inl (ended_of_prepares h h₁.1))
    (fun _ h₁ => Or.inl (ended_of_prepares h h₁.1)) (wp_and
      (wp_prepareRestore snapshotId newIdentifier unixMillis disk.restore)
      (wp_prepareRestore_ticketId env.restore snapshotId newIdentifier unixMillis disk.restore))
  rintro ticket restore ⟨hprepares, hid⟩
  obtain ⟨record, hfind, hstatus, manifest, plan, hplan, hsound⟩ :=
    sound_of_prepares True hbackups hprepares
  rw [← hid] at hfind hsound
  refine wp_afterPrepare (Or.inl (ended_of_prepares h (Or.inr hprepares))) ?_ fun hvalid => ?_
  · rw [wp_onRestore]
    have hended : ∀ restore', SameTargets restore restore' →
        SessionInvariant env snapshotId disk intent newIdentifier
          { disk with restore := restore' } := fun restore' hsame =>
      Or.inl (ended_of_restore h fun i => by
        rw [hsame, target_of_prepares (Or.inr hprepares)])
    exact wp_mono (fun _ => hended) (fun _ => hended) hended
      (within_rollbackPrepared hfind hstatus)
  · have hbegun : Begun env snapshotId disk { intent with snapshot := some (bindingFor env ticket) }
        ticket plan := ⟨hvalid, rfl, h.showable, h.target, manifest, hplan⟩
    refine ⟨atomicFlow hbegun, fun s' hs' => Or.inr ⟨ticket, plan, hid, hbegun, hs'⟩,
      fun journal hjournal => ⟨⟨⟨journal, rfl, hjournal⟩, .refl _, hsound⟩, ?_, ?_⟩⟩
    -- the record is prepared, so the apply does not build on anything
    · intro other hother hother'
      rw [hfind] at hother
      rw [← Option.some.inj hother, hstatus] at hother'
      exact nomatch hother'
    · intro other hother hother'
      rw [hfind] at hother
      rw [← Option.some.inj hother, hstatus] at hother'
      exact nomatch hother'

end Start

/-! ## Sessions -/

/-- The call does not build on half a rollback: a retry of a prepared journal does not resume
an apply over a file that is set aside, and does not take an applied record for complete when a
file has been taken back to another content. -/
def CheckpointCall.Consistent (id : String) (call : CheckpointCall) (s : CheckpointDisk δ) : Prop :=
  ∀ requestedId, call = .retry requestedId → ∀ journal, s.journal = some journal →
    journal.phase = .prepared → ∀ record, findRecord id s.restore.transactions = some record →
      (record.status = .applying → ∀ i, ¬ record.SetAside i) ∧
      (record.status = .applied → ∀ i, (record.operations i).desiredState ≠ .omitted →
        (record.operations i).desiredSha256 ≠ (record.operations i).original.sha256 →
          ¬ record.TakenBack id s.restore i)

omit [DecidableEq δ] in
theorem mayResume_of_consistent {ticket : RestoreTicket δ} {plan : RestorePlan}
    {call : CheckpointCall} (hcall : call.Consistent ticket.ticketId s) {requestedId : Option String}
    (hretry : call = .retry requestedId) (hs : Prepared env disk intent ticket plan s) :
    MayResume env ticket plan s := by
  obtain ⟨journal, hjournal, his⟩ := hs.phase
  have hconsistent := hcall requestedId hretry journal hjournal his.phase
  refine ⟨fun record hfind hstatus i => ?_, fun record hfind hstatus i hkept => ?_⟩
  · obtain ⟨hdescribes, -⟩ := hs.sound.of_stored hfind
    exact mayPublish_of_not_setAside hdescribes ((hconsistent record hfind).1 hstatus i)
      fun hno => absurd trivial hno
  · obtain ⟨hdescribes, hinv⟩ := hs.sound.of_stored hfind
    rw [StatusInvariant, hstatus] at hinv
    refine target_of_not_takenBack hinv.1 (hinv.2 i) hkept
      ((hconsistent record hfind).2 hstatus i ?_)
    rw [(hdescribes.operations i).desiredState]
    exact hkept

/-- The stores after a checkpoint restore and the calls that follow it. -/
def checkpointSession (env : CheckpointEnvironment δ) (intent : CheckpointRestoreIntent δ)
    (snapshotId newIdentifier : String) (unixMillis : Nat) (fs : List Fault)
    (cs : List (CheckpointCall × List Fault)) (disk : CheckpointDisk δ) : CheckpointDisk δ :=
  Session.finalState (CheckpointCall.program env) cs (Session.after
    (completeContentCheckpointRestore env intent snapshotId newIdentifier unixMillis) fs disk)

def twoFilesInstallation : CheckpointEnvironment Bytes where
  releases := sampleEnvironment
  restore := twoFilesEnvironment
  dshHome := "/dsh"
  isDshHome _ := true
  sameNativePath := fun path other => decide (path = other)
  sameNativePath_refl _ := decide_eq_true rfl
  snapshotError _ := ⟨.other, "snapshot"⟩

def twoFilesCheckpoint : ContentCheckpoint := ⟨"checkpoint-1", "default", none, "manual-1"⟩

def newInstallation : CheckpointDisk Bytes := ⟨none, emptyStore, emptyProfile, none⟩

/-- The installation after its first profile catalog has been written. -/
def firstInstallation : CheckpointDisk Bytes := { newInstallation with profiles := some .initial }

def twoFilesIntent : CheckpointRestoreIntent Bytes :=
  ⟨"checkpoint-1", .initial, none, none, ⟨1, "default", ["default", "web"]⟩, none, none, none⟩

theorem acceptCheckpointRestore_twoFiles :
    (acceptCheckpointRestore twoFilesInstallation twoFilesCheckpoint).run [] newInstallation =
      (.ok twoFilesIntent, firstInstallation) := rfl

/-- A restore that stops after the content has been applied, and the calls that follow. -/
def stoppedSession (cs : List (CheckpointCall × List Fault)) : CheckpointDisk Bytes :=
  checkpointSession twoFilesInstallation twoFilesIntent "manual-1" "restore-1" 0
    (List.replicate 31 .none ++ [.crashAfter]) cs firstInstallation

/-- The restore stops after its content has been applied, the next start of the Agent stops
after it has moved file 4 away, and a retry runs without a fault. -/
def retriedOverRollback : CheckpointDisk Bytes :=
  stoppedSession [(.startup, List.replicate 4 .none ++ [.crashAfter]), (.retry none, [])]

end DshNexus.Checkpoint
