import DshNexus.Checkpoint.Journal

/-!
# The calls of a checkpoint restore

`crates/nexus-agent/src/checkpoint_api.rs` and `recover_checkpoint_restore_startup` of
`crates/nexus-agent/src/lib.rs`: a checkpoint with a content snapshot is restored by one owner
that prepares the restore ticket, opens the journal, applies the content, runs the dependency
installation, writes the selection, marks the journal committed, commits the ticket and clears
the journal.  What it leaves behind is finished by a Retry, an Abort or the next Agent start.

What other parts of the Agent decide (whether the Harness is stopped, whether the snapshot
store can be built, the dependency installation, the publication of the Agent state) is a step
that may fail and changes none of the stores.
-/

namespace DshNexus.Checkpoint

open Durable Release Snapshot

inductive CheckpointContentState where
  | prepared
  | applied
  | materializationPending
  | committed
  | rolledBack
  deriving DecidableEq, Repr

structure CheckpointRestoreStatus where
  checkpointId : String
  snapshotId : String
  ticketId : String
  state : CheckpointContentState
  materializationPending : Bool
  retryable : Bool
  abortable : Bool
  error : Option String
  deriving DecidableEq, Repr

structure ContentCheckpoint where
  id : String
  profile : String
  release : Option String
  snapshotId : String
  deriving DecidableEq, Repr

def boundedCheckpointDiagnostic (error : IoError) : String :=
  let text := String.ofList
    ((error.message.toList.map fun c => if isControl c then ' ' else c).take 4096)
  if text.isEmpty then "checkpoint restore failed" else text

def combineResults : Except IoError Unit → Except IoError Unit → Except IoError Unit
  | .ok (), .ok () => .ok ()
  | .error first, .ok () => .error first
  | .ok (), .error second => .error second
  | .error first, .error second =>
      .error ⟨first.kind, first.message ++ "; selection rollback also failed: " ++ second.message⟩

def checkpointTransactionError (primary : IoError) : Except IoError Unit → IoError
  | .ok () => primary
  | .error rollback =>
      ⟨primary.kind, primary.message ++ "; checkpoint rollback also failed: " ++ rollback.message⟩

def restoreStatus {δ : Type} (journal : CheckpointRestoreJournal δ)
    (outcome : Option RestoreOutcome) : Option CheckpointRestoreStatus :=
  journal.intent.snapshot.map fun binding =>
    let pending := match outcome with
      | some outcome => outcome.materializationPending
      | none => binding.ticket.needsMaterialization && decide (journal.phase = .prepared)
    let state : CheckpointContentState :=
      if journal.phase = .committed ∨ outcome.map (·.status) = some .committed then .committed
      else if outcome.map (·.status) = some .rolledBack then .rolledBack
      else if pending = true then .materializationPending
      else if outcome.map (·.status) = some .applied then .applied
      else .prepared
    ⟨journal.intent.checkpointId, binding.ticket.snapshotId, binding.ticket.ticketId, state,
      pending, true, decide (journal.phase = .prepared), journal.error⟩

section Calls

variable {δ : Type} [DecidableEq δ] {α : Type} (env : CheckpointEnvironment δ)

/-! ## The parts of a restore -/

/-- What another part of the Agent decides. -/
def elsewhere : CheckpointProgram δ Unit := Program.attempt fileOperationFailed

/-- `acquire`: the store of the profile. -/
def acquire (profile : String) : CheckpointProgram δ Unit :=
  if profile ≠ env.restore.profileName then
    throw ⟨.notFound, "the profile is not the one that is followed"⟩
  else elsewhere

def acquireBound (binding : BoundSnapshotRestore δ) : CheckpointProgram δ Unit :=
  if binding.profileName ≠ binding.ticket.profileName then
    throw (invalidData "restore ticket profile does not match its outer binding")
  else do
    acquire env binding.profileName
    if env.sameNativePath env.dshHome binding.dshHome = false then
      throw (invalidData "restore ticket belongs to a different resolved DSH home")
    else pure ()

def bindingFor (ticket : RestoreTicket δ) : BoundSnapshotRestore δ :=
  ⟨ticket, env.dshHome, ticket.profileName⟩

def pendingContentRestore (intent : CheckpointRestoreIntent δ) (error : IoError)
    (outcome : Option RestoreOutcome) :
    CheckpointProgram δ (Option CheckpointRestoreStatus) := do
  match ← loadJournal env with
  | none => throw ⟨.notFound, "content restore failed after its outer journal disappeared"⟩
  | some journal => do
      recordError env journal.phase intent (boundedCheckpointDiagnostic error)
      match ← loadJournal env with
      | none => throw ⟨.other, "content restore journal disappeared"⟩
      | some journal => pure (restoreStatus journal outcome)

/-- Go on with the result of a call, or leave the restore pending. -/
def orPending (intent : CheckpointRestoreIntent δ) (outcome : Option RestoreOutcome)
    (p : CheckpointProgram δ α)
    (next : α → CheckpointProgram δ (Option CheckpointRestoreStatus)) :
    CheckpointProgram δ (Option CheckpointRestoreStatus) := do
  match ← Program.toExcept p with
  | .ok a => next a
  | .error error => pendingContentRestore env intent error outcome

def applyCheckpointTargetSelection (intent : CheckpointRestoreIntent δ) :
    CheckpointProgram δ Unit := do
  let _ ← onReleases (restoreReleasePointers env.releases intent.targetCurrentRelease
    intent.targetLastKnownGood)
  onProfiles (writeProfiles intent.targetProfiles)
  elsewhere

def rollbackFailure (label : String) : Except IoError α → List String
  | .ok _ => []
  | .error error => [label ++ error.message]

def rollbackCheckpointSelection (intent : CheckpointRestoreIntent δ) :
    CheckpointProgram δ Unit := do
  let pointers ← Program.toExcept (onReleases (restoreReleasePointers env.releases
    intent.previousCurrentRelease intent.previousLastKnownGood))
  let profiles ← Program.toExcept (onProfiles (writeProfiles intent.previousProfiles))
  let agent ← Program.toExcept (elsewhere : CheckpointProgram δ Unit)
  let failures := rollbackFailure "release pointer rollback failed: " pointers ++
    rollbackFailure "profile rollback failed: " profiles ++
    rollbackFailure "Agent metadata rollback failed: " agent
  if failures.isEmpty = true then pure () else throw ⟨.other, "; ".intercalate failures⟩

/-- A restore whose selection or commit failed is taken back, and the failure is returned. -/
def rollbackContentRestore (intent : CheckpointRestoreIntent δ) (ticket : RestoreTicket δ)
    (primary : IoError) : CheckpointProgram δ (Option CheckpointRestoreStatus) := do
  let content ← Program.toExcept
    ((fun _ => ()) <$> onRestore env (rollbackRestore env.restore ticket))
  let selection ← Program.toExcept (rollbackCheckpointSelection env intent)
  match combineResults content selection with
  | .error error => throw (checkpointTransactionError primary (.error error))
  | .ok () => do
      let cleared ← Program.toExcept (clearJournal env .prepared intent)
      throw (checkpointTransactionError primary cleared)

/-- The commit of the ticket, and the end of the journal. -/
def commitContentRestore (intent : CheckpointRestoreIntent δ) (ticket : RestoreTicket δ)
    (outcome : Option RestoreOutcome) : CheckpointProgram δ (Option CheckpointRestoreStatus) :=
  orPending env intent outcome (onRestore env (commitRestore env.restore ticket)) fun _ => do
    clearJournal env .committed intent
    pure none

/-- The selection and the commit of an applied restore. -/
def publishContentRestore (intent : CheckpointRestoreIntent δ) (ticket : RestoreTicket δ)
    (outcome : RestoreOutcome) : CheckpointProgram δ (Option CheckpointRestoreStatus) := do
  match ← Program.toExcept (applyCheckpointTargetSelection env intent) with
  | .error primary => rollbackContentRestore env intent ticket primary
  | .ok _ => do
      match ← Program.toExcept (markCommitted env intent) with
      | .ok _ => commitContentRestore env intent ticket (some outcome)
      | .error primary => do
          -- the journal says whether the commit has become durable
          match ← Program.toExcept (loadJournal env) with
          | .error inspection =>
              throw ⟨primary.kind, primary.message ++
                "; cannot inspect checkpoint commit outcome: " ++ inspection.message⟩
          | .ok none => throw primary
          | .ok (some journal) =>
              if journal.intent ≠ intent then throw primary
              else if journal.phase = .committed then
                commitContentRestore env intent ticket (some outcome)
              else rollbackContentRestore env intent ticket primary

/-- The rest of a restore whose content has been applied. -/
def finishContentRestore (intent : CheckpointRestoreIntent δ) (ticket : RestoreTicket δ)
    (outcome : RestoreOutcome) : CheckpointProgram δ (Option CheckpointRestoreStatus) :=
  if outcome.materializationPending = true then
    orPending env intent (some outcome) elsewhere fun _ =>
      orPending env intent (some outcome) (onRestore env (markMaterialized env.restore ticket))
        fun outcome => publishContentRestore env intent ticket outcome
  else publishContentRestore env intent ticket outcome

/-! ## The calls -/

def planCheckpointRestore (checkpoint : ContentCheckpoint) :
    CheckpointProgram δ (CheckpointRestoreIntent δ) := do
  let previousProfiles ← onProfiles loadProfiles
  let targetProfiles ← Program.ofExcept
    (ProfileCatalog.new checkpoint.profile previousProfiles.profiles)
  let previousReleases ← onReleases (Program.inspect (loadUnlocked env.releases))
  let targetReleases ← onReleases (planCheckpointRelease env.releases checkpoint.release)
  pure ⟨checkpoint.id, previousProfiles, previousReleases.currentRelease,
    previousReleases.lastKnownGood, targetProfiles, targetReleases.currentRelease,
    targetReleases.lastKnownGood, none⟩

/-- The part of `checkpoint_restore` before its owner starts: no content restore is pending,
the Harness is stopped, and the plan is made. -/
def acceptCheckpointRestore (checkpoint : ContentCheckpoint) :
    CheckpointProgram δ (CheckpointRestoreIntent δ) := do
  match ← loadJournal env with
  | some _ => throw ⟨.alreadyExists,
      "a content restore is pending; use checkpoint retry or checkpoint abort"⟩
  | none => do
      elsewhere
      planCheckpointRestore env checkpoint

/-- `complete_content_checkpoint_restore`, with the identifier of the new ticket and the
time. -/
def completeContentCheckpointRestore (intent : CheckpointRestoreIntent δ)
    (snapshotId newIdentifier : String) (unixMillis : Nat) :
    CheckpointProgram δ (Option CheckpointRestoreStatus) := do
  acquire env intent.targetProfiles.activeProfile
  let ticket ← onRestore env (prepareRestore env.restore snapshotId newIdentifier unixMillis)
  let intent := { intent with snapshot := some (bindingFor env ticket) }
  match ← Program.toExcept (beginRestore env intent) with
  | .error error => do
      let rollback ← Program.toExcept
        ((fun _ => ()) <$> onRestore env (rollbackRestore env.restore ticket))
      throw (checkpointTransactionError error rollback)
  | .ok _ =>
      orPending env intent none (onRestore env (applyRestore env.restore ticket))
        fun outcome => finishContentRestore env intent ticket outcome

def validateCommittedCheckpointRestore (journal : CheckpointRestoreJournal δ) :
    CheckpointProgram δ Unit := do
  let profiles ← onProfiles loadProfiles
  let pointers ← onReleases (storedReleasePointers env.releases)
  if profiles ≠ journal.intent.targetProfiles ∨
      pointers ≠ (journal.intent.targetCurrentRelease, journal.intent.targetLastKnownGood) then
    throw (invalidData "committed checkpoint restore does not match durable Harness selection")
  else pure ()

def resumeContentCheckpointRestore (journal : CheckpointRestoreJournal δ) :
    CheckpointProgram δ (Option CheckpointRestoreStatus) := do
  match journal.intent.snapshot with
  | none => throw ⟨.invalidInput, "legacy restore has no content ticket"⟩
  | some binding => do
      acquireBound env binding
      if journal.phase = .committed then do
        validateCommittedCheckpointRestore env journal
        commitContentRestore env journal.intent binding.ticket none
      else
        orPending env journal.intent none
          (onRestore env (recoverRestore env.restore binding.ticket .resumeApply))
          fun outcome => finishContentRestore env journal.intent binding.ticket outcome

def loadRequestedContentRestore (requestedId : Option String) :
    CheckpointProgram δ (CheckpointRestoreJournal δ) := do
  match ← loadJournal env with
  | none => throw ⟨.notFound, "no checkpoint restore is pending"⟩
  | some journal => do
      elsewhere
      match journal.intent.snapshot with
      | none => throw ⟨.invalidInput,
          "the pending legacy restore has no content retry or abort action"⟩
      | some binding =>
          if requestedId.any (fun id => decide (id ≠ journal.intent.checkpointId) &&
              decide (id ≠ binding.ticket.ticketId)) = true then
            throw ⟨.notFound, "requested restore does not match the pending transaction"⟩
          else pure journal

def checkpointRestoreRetry (requestedId : Option String) :
    CheckpointProgram δ (Option CheckpointRestoreStatus) := do
  elsewhere
  let journal ← loadRequestedContentRestore env requestedId
  elsewhere
  resumeContentCheckpointRestore env journal

def checkpointRestoreAbort (requestedId : Option String) : CheckpointProgram δ Unit := do
  elsewhere
  let journal ← loadRequestedContentRestore env requestedId
  if journal.phase ≠ .prepared then
    throw ⟨.invalidData, "a committed content restore can only be finished with retry"⟩
  else do
    elsewhere
    match journal.intent.snapshot with
    | none => throw ⟨.invalidInput, "legacy restore has no content ticket"⟩
    | some binding => do
        acquireBound env binding
        let _ ← onRestore env (rollbackRestore env.restore binding.ticket)
        rollbackCheckpointSelection env journal.intent
        clearJournal env .prepared journal.intent

def recoverContentRestore (journal : CheckpointRestoreJournal δ)
    (binding : BoundSnapshotRestore δ) : CheckpointProgram δ Unit := do
  acquireBound env binding
  match journal.phase with
  | .prepared => do
      let _ ← onRestore env (rollbackRestore env.restore binding.ticket)
      let _ ← onReleases (restoreReleasePointers env.releases
        journal.intent.previousCurrentRelease journal.intent.previousLastKnownGood)
      onProfiles (writeProfiles journal.intent.previousProfiles)
      clearJournal env .prepared journal.intent
  | .committed => do
      validateCommittedCheckpointRestore env journal
      let _ ← onRestore env (commitRestore env.restore binding.ticket)
      clearJournal env .committed journal.intent

def recoverSelectionRestore (journal : CheckpointRestoreJournal δ) : CheckpointProgram δ Unit := do
  match journal.phase with
  | .prepared => do
      let _ ← onReleases (restoreReleasePointers env.releases
        journal.intent.previousCurrentRelease journal.intent.previousLastKnownGood)
      onProfiles (writeProfiles journal.intent.previousProfiles)
      clearJournal env .prepared journal.intent
  | .committed => do
      validateCommittedCheckpointRestore env journal
      clearJournal env .committed journal.intent

def recoverCheckpointRestoreStartup : CheckpointProgram δ Unit := do
  match ← loadJournal env with
  | none => pure ()
  | some journal => do
      elsewhere
      match journal.intent.snapshot with
      | some binding =>
          tryCatch (recoverContentRestore env journal binding) fun error =>
            Program.ignoreError (recordError env journal.phase journal.intent
              ("startup checkpoint restore recovery remains pending: " ++ error.message))
      | none => recoverSelectionRestore env journal

end Calls

end DshNexus.Checkpoint
