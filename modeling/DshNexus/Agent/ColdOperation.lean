import DshNexus.Concurrent.System
import DshNexus.Core.Table

/-!
# The record of the cold operation

`ColdCoordinator` of `crates/nexus-agent/src/cold.rs`.  One file records the operation that
installs a release; the tasks of the Agent read it and rewrite it under one gate, and some of them
hold only the identifier of an operation that may be over.  A second file, the publication
journal, is there while a release is published.

Every section under the gate is one step.  Its durable writes may fail, before or after they have
taken effect, and the Agent may stop and start again between any two steps.  The check of `begin`
that no journal is there comes before the gate, and is a step of its own.
-/

namespace DshNexus.Agent

open Concurrent

/-! ## Operations -/

inductive ColdOperationPhase where
  | queued
  | cloning
  | planning
  | awaitingConfirmation
  | supplying
  | installing
  | building
  | verifying
  | registering
  | promoting
  | cancelling
  | prepared
  | succeeded
  | cancelled
  | failed
  deriving DecidableEq, Repr

def ColdOperationPhase.isTerminal : ColdOperationPhase → Bool
  | .prepared | .succeeded | .cancelled | .failed => true
  | _ => false

structure ColdOperation where
  /-- the time in the identifier `cold-…` -/
  operationId : Nat
  kind : String
  phase : ColdOperationPhase
  progressPercent : Nat
  candidateRevision : Option String
  foundationPlanId : Option String
  warning : Option String
  outputTail : Option String
  error : Option String
  /-- no process of the operation is left -/
  ownerQuiescent : Bool
  /-- files of the operation are left -/
  cleanupPending : Bool
  cleanupError : Option String
  deriving DecidableEq, Repr

structure PublicationIntent where
  prepareOnly : Bool
  committed : Bool
  preserveCurrent : Bool
  operation : ColdOperation
  deriving DecidableEq, Repr

/-- The record that `begin` writes. -/
def queuedOperation (id : Nat) (kind : String) : ColdOperation :=
  ⟨id, kind, .queued, 0, none, none, none, none, none, false, false, none⟩

namespace ColdOperation

variable (operation : ColdOperation)

/-- `update`. -/
def updated (phase : ColdOperationPhase) (progress : Nat) (error : Option String) : ColdOperation :=
  { operation with phase := phase, progressPercent := min progress 100, error := error }

/-- The record of a failure whose files are left, in `write_failure_pending` and at the end of
`settle_failure`. -/
def failurePending (primary : String) (ownerQuiescent : Bool) (cleanupError : Option String) :
    ColdOperation :=
  { operation with
    phase := if operation.phase = .cancelling then .cancelled else .failed
    progressPercent := 100
    error := some primary
    ownerQuiescent := ownerQuiescent
    cleanupPending := true
    cleanupError := cleanupError }

/-- The result of `cleanup_candidate`. -/
def cleanedUp (cleaned : Bool) : ColdOperation :=
  if cleaned = true then { operation with cleanupPending := false, cleanupError := none }
  else { operation with cleanupError := some "candidate cleanup failed" }

/-- An operation that `cancel` finds running. -/
def cancelRunning (cleaned : Bool) : ColdOperation :=
  if operation.phase = .awaitingConfirmation then
    { operation with
      phase := .cancelled
      progressPercent := 100
      ownerQuiescent := true
      cleanupPending := true
      error := some "cold install cancelled" }.cleanedUp cleaned
  else { operation with phase := .cancelling }

/-- An operation that `recover` finds running: its Agent is gone. -/
def interrupted : ColdOperation :=
  { operation with
    phase := .failed
    progressPercent := 100
    error := some (if operation.kind = "offline_import" then
        "previous cold-install owner was not attached; retry the offline import"
      else if operation.kind = "offline_export" then
        "previous cold-install owner was not attached; retry the offline export"
      else "previous cold-install owner was not attached; start the tag switch again")
    ownerQuiescent := true
    cleanupPending := true
    cleanupError := none }

/-- A record that a recovery leaves without open ends. -/
def concluded (phase : ColdOperationPhase) (error : Option String) : ColdOperation :=
  { operation with
    phase := phase
    progressPercent := 100
    error := error
    ownerQuiescent := true
    cleanupPending := false
    cleanupError := none }

end ColdOperation

/-- `reconcile_publication`: the record that the journal stands for. -/
def PublicationIntent.reconciled (intent : PublicationIntent) : ColdOperation :=
  if intent.preserveCurrent = true then
    intent.operation.concluded .cancelled (some
      "Publication recovery ended by keeping current configuration and all existing version/candidate files. Retained candidate files are not automatically cleaned.")
  else if intent.committed = true then
    intent.operation.concluded (if intent.prepareOnly = true then .prepared else .succeeded) none
  else intent.operation.concluded .failed
    (some "publication interrupted before commit; previous selection restored")

/-! ## Faults -/

inductive WriteFault where
  | none
  /-- an error, and the file is the old one -/
  | before
  /-- an error, and the file is the new one -/
  | after
  deriving DecidableEq, Repr

def WriteFault.applies : WriteFault → Bool
  | .before => false
  | _ => true

/-- How `recover_publication` ends when a journal is there. -/
inductive PublicationRecovery where
  /-- an error before the record is written -/
  | failed
  /-- an error of `finish_publication` after the record is written -/
  | finishFailed (journalKept : Bool)
  | finished
  deriving DecidableEq, Repr

/-- How `recover` goes. -/
structure RecoverOutcome where
  /-- the candidate and the release of the record are gone -/
  uninstalled : Bool
  /-- no process of an earlier Agent is left -/
  reconciled : Bool
  publication : PublicationRecovery
  interrupted : WriteFault
  cleaned : Bool
  cleanup : WriteFault
  deriving DecidableEq, Repr

/-- The sections that commit a publication. -/
inductive PublicationSite where
  /-- `build_and_publish` -/
  | build
  /-- `reuse_prepared_release` -/
  | reuse
  /-- `initialize_selected_release` -/
  | initializeSelected
  deriving DecidableEq, Repr

inductive PublicationOutcome where
  /-- an error before the journal is there -/
  | stopped (registered : Bool)
  /-- an error while the journal is there, before the record is finished -/
  | journaled (committed : Bool)
  /-- an error after the record is finished -/
  | reported (journalKept : Bool)
  | done
  deriving DecidableEq, Repr

/-- How `settle_failure` goes. -/
inductive SettleOutcome where
  /-- an error before any write of the record -/
  | abandoned
  /-- the gate of the updater is busy, the processes are not quiescent, or the publication cannot
  be reconciled -/
  | pending (write : WriteFault)
  /-- `finish_publication` fails -/
  | finishFailed (recordWritten journalKept : Bool) (write : WriteFault)
  | settled (failure : WriteFault) (cleaned : Bool) (cleanup : WriteFault)
  deriving DecidableEq, Repr

/-- How `cancel` goes. -/
structure CancelOutcome where
  /-- the processes of the operation are gone -/
  reconciled : Bool
  cleaned : Bool
  write : WriteFault
  deriving DecidableEq, Repr

/-! ## The coordinator -/

inductive ColdTask where
  /-- `begin` has seen no journal, and waits for the gate -/
  | beginning (kind : String)
  /-- the owner of an operation -/
  | owner (id : Nat)
  /-- the owner after an error -/
  | failed (id : Nat) (primary : String) (ownerQuiescent : Bool)
  /-- the owner before `release_settled_owner` -/
  | settled (id : Nat)
  deriving DecidableEq, Repr

/-- The operation that a task works for, until it is settled. -/
def ColdTask.live : ColdTask → Option Nat
  | .owner id | .failed id _ _ => some id
  | _ => none

def ColdTask.operation : ColdTask → Option Nat
  | .beginning _ => none
  | .owner id | .failed id _ _ | .settled id => some id

structure ColdCoordinator where
  /-- `cold-operation.json` -/
  record : Option ColdOperation
  /-- `cold-publication.json` -/
  intent : Option PublicationIntent
  ownerActive : Bool
  /-- the cancellation token, and whether it is cancelled -/
  cancellation : Option (Nat × Bool)
  tasks : AList fun _ : Nat => ColdTask
  /-- the identifiers that have been given out; read by no step of the code -/
  begun : List Nat

inductive ColdEvent where
  | check (task : Nat) (kind : String)
  | begin (task id : Nat) (write : WriteFault)
  | token (task : Nat)
  | update (task : Nat) (phase : ColdOperationPhase) (progress : Nat) (error : Option String)
      (write : WriteFault)
  | recordFoundationPlan (task : Nat) (planId : String) (warning : Option String)
      (write : WriteFault)
  | recordCandidateRevision (task : Nat) (revision : String) (write : WriteFault)
  | publish (task : Nat) (site : PublicationSite) (outcome : PublicationOutcome)
  | fail (task : Nat) (primary : String) (ownerQuiescent : Bool)
  | settle (task : Nat) (outcome : SettleOutcome)
  | release (task : Nat)
  | tail (id : Nat) (text : String) (write : WriteFault)
  | signal (id : Nat)
  | cancel (id : Nat) (outcome : CancelOutcome)
  | clearFinished (id : Nat) (write : WriteFault)
  | recoverExplicit (id : Nat) (preserveCurrent : Bool) (outcome : PublicationRecovery)
  | maintain (outcome : RecoverOutcome)
  | restart (outcome : RecoverOutcome)
  deriving DecidableEq, Repr

namespace ColdCoordinator

variable (s : ColdCoordinator)

def write (operation : ColdOperation) (fault : WriteFault) : ColdCoordinator :=
  if fault.applies = true then { s with record := some operation } else s

def endTask (task : Nat) : ColdCoordinator := { s with tasks := s.tasks.erase task }

/-- The owner of an operation stops with an error. -/
def failTask (task id : Nat) (primary : String) : ColdCoordinator :=
  { s with tasks := s.tasks.insert task (.failed id primary true) }

/-- The section of `begin_with_details` under the gate. -/
def beginOperation (task id : Nat) (kind : String) (fault : WriteFault) : ColdCoordinator :=
  if s.ownerActive = true then s.endTask task
  else if s.record.any (fun current => current.cleanupPending || !current.phase.isTerminal) = true then
    s.endTask task
  else match fault with
    | .none =>
        { s with
          record := some (queuedOperation id kind)
          cancellation := some (id, false)
          ownerActive := true
          tasks := s.tasks.insert task (.owner id)
          begun := id :: s.begun }
    | .before => s.endTask task
    | .after =>
        { s.endTask task with record := some (queuedOperation id kind), begun := id :: s.begun }

/-- `token`. -/
def takeToken (id : Nat) : ColdCoordinator :=
  if s.cancellation.any (·.1 = id) = true then s else { s with cancellation := some (id, false) }

/-- The phases that the callers of `update` pass. -/
def updatePhases : List ColdOperationPhase := [.cloning, .planning, .installing, .building, .verifying]

def update (task id : Nat) (phase : ColdOperationPhase) (progress : Nat) (error : Option String)
    (fault : WriteFault) : ColdCoordinator :=
  match s.record with
  | none => s.failTask task id "cold operation not found"
  | some operation =>
      if operation.operationId ≠ id then s.failTask task id "cold operation changed"
      else if (operation.phase.isTerminal = true ∨ operation.phase = .cancelling) ∧
          operation.phase ≠ phase ∧ phase ≠ .cancelled then
        s.failTask task id "cold operation is already terminal"
      else
        let s := s.write (operation.updated phase progress error) fault
        if fault = .none then s else s.failTask task id "cold operation cannot be written"

/-- `record_foundation_plan` and `record_candidate_revision`. -/
def recordDetail (task id : Nat) (change : ColdOperation → ColdOperation) (fault : WriteFault) :
    ColdCoordinator :=
  match s.record with
  | none => s.failTask task id "cold operation not found"
  | some operation =>
      if operation.operationId ≠ id then s.failTask task id "cold operation changed"
      else
        let s := s.write (change operation) fault
        if fault = .none then s else s.failTask task id "cold operation cannot be written"

/-- The section of `tail_command_output` under the gate. -/
def refreshTail (id : Nat) (text : String) (fault : WriteFault) : ColdCoordinator :=
  match s.record with
  | none => s
  | some operation =>
      if operation.operationId ≠ id ∨ operation.phase.isTerminal = true then s
      else s.write { operation with outputTail := some text } fault

/-! ### Publication -/

/-- The check of the record before a commit. -/
def mayCommit (id : Nat) : PublicationSite → Bool
  | .build => s.record.any fun operation => operation.operationId = id &&
      operation.phase = .verifying && !operation.cleanupPending
  | .reuse => s.record.any fun operation => operation.operationId = id && !operation.phase.isTerminal
  | .initializeSelected => true

/-- The record before the journal is written. -/
def registered (site : PublicationSite) : Option ColdOperation :=
  match site with
  | .build => s.record.map fun operation =>
      { operation with phase := .registering, progressPercent := 90 }
  | _ => s.record

def journalOperation (id : Nat) : PublicationSite → ColdOperation
  | .initializeSelected => { queuedOperation id "cold_switch" with phase := .promoting }
  | .build =>
      { (s.registered .build).getD (queuedOperation id "cold_switch") with
        warning := some "Version prepared only. Stop Harness when ready, then select this version in Release slots. The current selection and configuration are unchanged." }
  | .reuse =>
      { s.record.getD (queuedOperation id "cold_switch") with
        warning := some "Version already prepared. Current selection and configuration are unchanged." }

def journal (id : Nat) (site : PublicationSite) (committed : Bool) : PublicationIntent :=
  ⟨site ≠ .initializeSelected, committed, false, s.journalOperation id site⟩

/-- The commit of a publication, under the gate. -/
def publish (task id : Nat) (site : PublicationSite) : PublicationOutcome → ColdCoordinator
  | .stopped registered =>
      { s with
        record := if registered = true then s.registered site else s.record
        tasks := s.tasks.insert task (.failed id "publication" true) }
  | .journaled committed =>
      { s with
        record := s.registered site
        intent := some (s.journal id site committed)
        tasks := s.tasks.insert task (.failed id "publication" true) }
  | .reported journalKept =>
      { s with
        record := some (s.journal id site true).reconciled
        intent := if journalKept = true then some (s.journal id site true) else none
        tasks := s.tasks.insert task (.failed id "publication" true) }
  | .done =>
      { s with
        record := some (s.journal id site true).reconciled
        intent := none
        tasks := s.tasks.insert task (.settled id) }

/-! ### Failures -/

def writeFailurePending (id : Nat) (primary : String) (ownerQuiescent : Bool) (fault : WriteFault) :
    ColdCoordinator :=
  match s.record with
  | none => s
  | some operation =>
      if operation.operationId = id then
        s.write (operation.failurePending primary ownerQuiescent
          (some "failure reconciliation is pending")) fault
      else s

/-- The end of `settle_failure`. -/
def writeSettledFailure (id : Nat) (primary : String) (failure : WriteFault) (cleaned : Bool)
    (cleanup : WriteFault) : ColdCoordinator :=
  match s.record with
  | none => s
  | some operation =>
      if operation.operationId = id then
        let operation := operation.failurePending primary true none
        let s := s.write operation failure
        if failure = .none then s.write (operation.cleanedUp cleaned) cleanup else s
      else s

/-- `settle_failure`, where it can go as the outcome says. -/
def settle (id : Nat) (primary : String) (ownerQuiescent : Bool) :
    SettleOutcome → Option ColdCoordinator
  | .abandoned => some s
  | .pending fault => some (s.writeFailurePending id primary ownerQuiescent fault)
  | .finishFailed recordWritten journalKept fault =>
      match ownerQuiescent, s.intent with
      | true, some intent =>
          let finished : ColdCoordinator :=
            { s with
              record := if recordWritten = true then some intent.reconciled else s.record
              intent := if recordWritten = true ∧ journalKept = false then none else some intent }
          some (finished.writeFailurePending id primary true fault)
      | _, _ => none
  | .settled failure cleaned cleanup =>
      match ownerQuiescent, s.intent with
      | false, _ => none
      | true, none => some (s.writeSettledFailure id primary failure cleaned cleanup)
      | true, some intent =>
          let finished : ColdCoordinator := { s with record := some intent.reconciled, intent := none }
          if intent.reconciled.phase = .succeeded ∨ intent.reconciled.phase = .prepared then
            some finished
          else some (finished.writeSettledFailure id primary failure cleaned cleanup)

def releaseSettledOwner (id : Nat) : ColdCoordinator :=
  if s.record.any (fun operation => operation.operationId = id && operation.ownerQuiescent &&
      (operation.phase.isTerminal || operation.phase = .awaitingConfirmation)) = true then
    { s with ownerActive := false }
  else s

/-! ### Requests -/

/-- The signal of `cancel`, before it waits for the gate. -/
def signalCancel (id : Nat) : ColdCoordinator :=
  match s.cancellation with
  | some (owner, _) => if owner = id then { s with cancellation := some (owner, true) } else s
  | none => s

/-- The end of a `cancel` that finds the operation over. -/
def cancelTerminal (operation : ColdOperation) (outcome : CancelOutcome) : ColdCoordinator :=
  if operation.cleanupPending = true ∧ operation.ownerQuiescent = false ∧
      outcome.reconciled = false then s
  else if operation.cleanupPending = true then
    let cleaned := { operation with ownerQuiescent := true }.cleanedUp outcome.cleaned
    let s := s.write cleaned outcome.write
    if outcome.write = .none then { s with ownerActive := false } else s
  else if operation.ownerQuiescent = true then { s with ownerActive := false }
  else s

/-- The section of `cancel` under the gate. -/
def cancel (id : Nat) (outcome : CancelOutcome) : ColdCoordinator :=
  match s.record with
  | none => s
  | some operation =>
      if operation.operationId ≠ id then s
      else if operation.phase.isTerminal = true then s.cancelTerminal operation outcome
      else (s.signalCancel id).write (operation.cancelRunning outcome.cleaned) outcome.write

def clearFinished (id : Nat) (fault : WriteFault) : ColdCoordinator :=
  match s.record with
  | none => s
  | some operation =>
      if operation.operationId ≠ id then s
      else if operation.phase.isTerminal = false ∨ operation.cleanupPending = true ∨
          s.ownerActive = true ∨ s.intent.isSome = true then s
      else if fault.applies = true then { s with record := none } else s

/-! ### Recovery -/

/-- `recover_publication`, and whether it succeeds. -/
def recoverPublication (outcome : PublicationRecovery) : ColdCoordinator × Bool :=
  match s.intent with
  | none => (s, true)
  | some intent =>
      match outcome with
      | .failed => (s, false)
      | .finishFailed journalKept =>
          ({ s with
            record := some intent.reconciled
            intent := if journalKept = true then some intent else none }, false)
      | .finished => ({ s with record := some intent.reconciled, intent := none }, true)

/-- The record that `prune_uninstalled_history` forgets. -/
def isFinishedHistory : Bool :=
  s.intent.isNone && !s.ownerActive && s.record.any fun operation =>
    operation.kind ≠ "offline_export" && operation.phase.isTerminal &&
      !operation.cleanupPending && operation.ownerQuiescent

/-- The last part of `recover`. -/
def recoverCleanup (operation : ColdOperation) (outcome : RecoverOutcome) : ColdCoordinator :=
  if operation.cleanupPending = true then
    s.write ({ operation with ownerQuiescent := true }.cleanedUp outcome.cleaned) outcome.cleanup
  else s

/-- The part of `recover` after the publication. -/
def recoverRecord (outcome : RecoverOutcome) : ColdCoordinator :=
  match s.record with
  | none => s
  | some operation =>
      if operation.phase.isTerminal = false ∧ operation.phase ≠ .awaitingConfirmation then
        let s := s.write operation.interrupted outcome.interrupted
        if outcome.interrupted = .none then s.recoverCleanup operation.interrupted outcome else s
      else s.recoverCleanup operation outcome

def recover (outcome : RecoverOutcome) : ColdCoordinator :=
  let s := if outcome.uninstalled = true ∧ s.isFinishedHistory = true then { s with record := none }
    else s
  if outcome.reconciled = false then s
  else
    match s.recoverPublication outcome.publication with
    | (s, false) => s
    | (s, true) => s.recoverRecord outcome

/-- The recovery of `try_acquire_maintenance`. -/
def maintain (outcome : RecoverOutcome) : ColdCoordinator :=
  if s.ownerActive = false ∧ s.record.any (fun operation => operation.cleanupPending ||
      !operation.ownerQuiescent && operation.phase ≠ .awaitingConfirmation) = true then
    s.recover outcome
  else s

def recoverExplicit (id : Nat) (preserveCurrent : Bool) (outcome : PublicationRecovery) :
    ColdCoordinator :=
  match s.intent with
  | none => s
  | some intent =>
      if s.ownerActive = true ∨ intent.operation.operationId ≠ id then s
      else
        let intent := { intent with preserveCurrent := intent.preserveCurrent || preserveCurrent }
        (({ s with intent := some intent } : ColdCoordinator).recoverPublication outcome).1

/-! ### Steps -/

/-- The Agent is gone, and the files are left. -/
def stopped : ColdCoordinator :=
  { s with ownerActive := false, cancellation := none, tasks := ∅ }

def step (s : ColdCoordinator) : ColdEvent → Option ColdCoordinator
  | .check task kind =>
      match s.tasks.lookup task, s.intent with
      | none, none => some { s with tasks := s.tasks.insert task (.beginning kind) }
      | none, some _ => some s
      | some _, _ => none
  | .begin task id fault =>
      match s.tasks.lookup task with
      | some (.beginning kind) =>
          if id ∈ s.begun then none else some (s.beginOperation task id kind fault)
      | _ => none
  | .token task =>
      match s.tasks.lookup task with
      | some (.owner id) => some (s.takeToken id)
      | _ => none
  | .update task phase progress error fault =>
      match s.tasks.lookup task with
      | some (.owner id) =>
          if phase ∈ updatePhases then some (s.update task id phase progress error fault) else none
      | _ => none
  | .recordFoundationPlan task planId warning fault =>
      match s.tasks.lookup task with
      | some (.owner id) => some (s.recordDetail task id
          (fun operation => { operation with foundationPlanId := some planId, warning := warning })
          fault)
      | _ => none
  | .recordCandidateRevision task revision fault =>
      match s.tasks.lookup task with
      | some (.owner id) => some (s.recordDetail task id
          (fun operation => { operation with candidateRevision := some revision }) fault)
      | _ => none
  | .publish task site outcome =>
      match s.tasks.lookup task with
      | some (.owner id) =>
          if s.cancellation = some (id, true) then some (s.failTask task id "cold install cancelled")
          else if s.mayCommit id site = false then
            some (s.failTask task id "cold operation cannot be committed")
          else some (s.publish task id site outcome)
      | _ => none
  | .fail task primary ownerQuiescent =>
      match s.tasks.lookup task with
      | some (.owner id) =>
          some { s with tasks := s.tasks.insert task (.failed id primary ownerQuiescent) }
      | _ => none
  | .settle task outcome =>
      match s.tasks.lookup task with
      | some (.failed id primary ownerQuiescent) =>
          ({ s with tasks := s.tasks.insert task (.settled id) } : ColdCoordinator).settle id primary
            ownerQuiescent outcome
      | _ => none
  | .release task =>
      match s.tasks.lookup task with
      | some (.settled id) => some ((s.releaseSettledOwner id).endTask task)
      | _ => none
  | .tail id text fault => some (s.refreshTail id text fault)
  | .signal id => some (s.signalCancel id)
  | .cancel id outcome => some (s.cancel id outcome)
  | .clearFinished id fault => some (s.clearFinished id fault)
  | .recoverExplicit id preserveCurrent outcome => some (s.recoverExplicit id preserveCurrent outcome)
  | .maintain outcome => some (s.maintain outcome)
  | .restart outcome =>
      some (s.stopped.recover outcome)

def system : System ColdCoordinator ColdEvent where
  init := ⟨none, none, false, none, ∅, []⟩
  step := step

end ColdCoordinator
end DshNexus.Agent
