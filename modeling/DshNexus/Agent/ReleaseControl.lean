import DshNexus.Concurrent.LockProgram
import DshNexus.Core.Io

/-!
# The locks of a release control request

`release_control_inner` of `crates/nexus-agent/src/lib.rs`, with what it calls in the supervisor,
in the updater and in `cold.rs`.  The requests take the lifecycle lock of the supervisor by
waiting and the gate of the updater without waiting; neither knows its holder.

A request is a task whose steps have outcomes from outside, one for each place where the code
asks for it.

* `settleFailure_neverReacquires`: the settlement of a failed cold operation takes its locks in
  order, when its caller holds none.
* `releaseControl_neverWaits_iff`: a request never waits for itself exactly when it is not the
  promotion of a release whose initialisation fails after it has begun.
-/

namespace DshNexus.Agent

open Concurrent Concurrent.LockProgram

/-! ## Locks, steps and responses -/

/-- The non-reentrant locks on the path of a release request. -/
inductive AgentLock where
  /-- `HarnessSupervisor::lifecycle` -/
  | lifecycle
  /-- `UpdateExecutor::gate` -/
  | updateGate
  /-- `ColdCoordinator::gate` -/
  | coldGate
  /-- `ColdCoordinator::cancellation` -/
  | cancellation
  | harnessSync
  /-- `AppState::runtime` -/
  | runtime
  /-- `HarnessSupervisor::inner` -/
  | supervisor
  deriving DecidableEq, Repr

/-- The order in which the code takes the locks. -/
def AgentLock.rank : AgentLock → Nat
  | .lifecycle => 0
  | .updateGate => 1
  | .coldGate => 2
  | .cancellation => 3
  | .harnessSync => 4
  | .runtime => 5
  | .supervisor => 6

inductive ReleaseResponse where
  | ok
  | created
  | confirmation (confirmation : Option String)
  | dataError (e : IoError) (code : String)
  | updateError (code : String)
  | conflict (code : String)
  deriving DecidableEq, Repr

inductive ReleaseAction where
  | list
  | current
  | register
  | promote
  | rollback
  | remove
  deriving DecidableEq, Repr

structure ReleaseCommand where
  inspectOnly : Bool
  rollbackConfirmation : Option String
  action : ReleaseAction
  id : Option String
  version : Option String
  source : Option String
  note : Option String
  deriving DecidableEq, Repr

/-- A pending checkpoint restore, as far as a mutation reads it. -/
structure PendingRestore where
  committed : Bool
  /-- it restores the content of a snapshot -/
  content : Bool
  deriving DecidableEq, Repr

/-- What `initialize_selected_release` reads of the configuration. -/
structure LaunchConfigured where
  harness : Bool
  externalHarness : Bool
  deriving DecidableEq, Repr

/-- What `begin` and `release_settled_owner` read of the operation record. -/
structure ColdRecordView where
  sameOperation : Bool
  terminal : Bool
  awaitingConfirmation : Bool
  ownerQuiescent : Bool
  cleanupPending : Bool
  deriving DecidableEq, Repr

/-- The calls of `update_agent_state`. -/
inductive PublishSite where
  | settled
  | refreshed
  | selected
  | reconciled
  deriving DecidableEq, Repr

/-- The steps of a request, with the type of their outcome. -/
inductive ReleaseStep : Type → Type where
  -- `ensure_mutation_ready_for_owner`
  | shuttingDown : ReleaseStep Bool
  | reconcileRunDirectory : ReleaseStep (Except IoError Unit)
  | ensureCanaryIdle : ReleaseStep (Except IoError Unit)
  | publicationPending : ReleaseStep Bool
  | coldCleanupPending : ReleaseStep (Except IoError Bool)
  | loadPendingRestore : ReleaseStep (Except IoError (Option PendingRestore))
  -- `settle_checkpoint_restore`
  | loadSettledRestore : ReleaseStep (Except IoError (Option PendingRestore))
  | validateCommittedRestore : ReleaseStep (Except IoError Unit)
  | restoreReleasePointers : ReleaseStep (Except IoError Unit)
  | writeProfiles : ReleaseStep (Except IoError Unit)
  | clearRestore : ReleaseStep (Except IoError Unit)
  -- `update_agent_state`, with the number of the attempt
  | pollChild (site : PublishSite) (attempt : Nat) : ReleaseStep Bool
  | persistIfCurrent (site : PublishSite) (attempt : Nat) : ReleaseStep Bool
  | persistAgentSnapshot (site : PublishSite) (attempt : Nat) : ReleaseStep (Except IoError Bool)
  -- the checks of `try_acquire_gate`
  | gateChecks (settling : Bool) : ReleaseStep (Except String Unit)
  | selectionQuiescent : ReleaseStep Bool
  -- `ReleaseStore`
  | loadReleases : ReleaseStep (Except IoError (Option String))
  | register (id version : String) (source note : Option String) : ReleaseStep (Except IoError Unit)
  | remove (id : String) : ReleaseStep (Except IoError Unit)
  | rollback : ReleaseStep (Except IoError Unit)
  | promote (id : String) : ReleaseStep (Except IoError Unit)
  | promoteConfirmed (id : String) (confirmation : Option String) : ReleaseStep (Except IoError Unit)
  | promotionRisk (id : String) : ReleaseStep (Except IoError (Option String))
  | compatibility (id : String) : ReleaseStep (Except IoError Unit)
  /-- whether an external Harness is configured -/
  | loadConfig : ReleaseStep (Except IoError Bool)
  -- `initialize_selected_release`
  | loadLaunchConfig : ReleaseStep (Except IoError LaunchConfigured)
  | releaseRoot (id : String) : ReleaseStep (Except IoError Unit)
  | entryIsFile (id : String) : ReleaseStep Bool
  | findRelease (id : String) : ReleaseStep (Except IoError Unit)
  /-- whether every suggested action uses a runtime that is there -/
  | planRegisteredRelease (id : String) : ReleaseStep (Except IoError Bool)
  | verifiedRuntime : ReleaseStep (Except IoError Unit)
  | prepareCompatibility (id : String) : ReleaseStep (Except IoError Unit)
  -- `begin_with_details`
  | validateUpdateRef : ReleaseStep (Except IoError Unit)
  | intentExists : ReleaseStep Bool
  | ownerActive : ReleaseStep Bool
  | loadOperation : ReleaseStep (Except IoError (Option ColdRecordView))
  | writeOperation : ReleaseStep (Except IoError Unit)
  -- the commit of the initialisation
  | ensureNotCancelled : ReleaseStep (Except IoError Unit)
  | preparePublication : ReleaseStep (Except IoError Unit)
  | promoteSelected (id : String) (confirmation : Option String) : ReleaseStep (Except IoError Unit)
  | writeIntent : ReleaseStep (Except IoError Unit)
  | recoverPublication : ReleaseStep (Except IoError Unit)
  | loadPromoted : ReleaseStep (Except IoError Unit)
  -- `settle_failure` and `release_settled_owner`
  /-- whether the operation that reconciliation returned has succeeded -/
  | reconcilePublication : ReleaseStep (Except IoError (Option Bool))
  | loadReconciled : ReleaseStep (Except IoError Unit)
  | finishPublication : ReleaseStep (Except IoError Unit)
  | writeFailurePending : ReleaseStep (Except IoError Unit)
  | loadFailed : ReleaseStep (Except IoError (Option ColdRecordView))
  | writeFailed : ReleaseStep (Except IoError Unit)
  | cleanupCandidate : ReleaseStep (Except IoError Unit)
  | writeCleaned : ReleaseStep (Except IoError Unit)
  | loadSettled : ReleaseStep (Except IoError (Option ColdRecordView))

abbrev AgentTask := LockProgram ReleaseStep AgentLock

/-! ## Agent state -/

/-- `status_observation` of the supervisor. -/
def statusObservation (site : PublishSite) (attempt : Nat) : AgentTask Unit := do
  let changed ← withLock .supervisor (perform (.pollChild site attempt))
  if changed = true then
    -- `persist_if_current`, and a second look when the observation is stale
    let stale ← withLock .supervisor (perform (.persistIfCurrent site attempt))
    if stale = true then withLock .supervisor (pure ()) else pure ()
  else pure ()

/-- The loop of `update_agent_state_inner`, with the number of attempts that are left. -/
def publishAttempts (site : PublishSite) : Nat → Nat → AgentTask (Except IoError Unit)
  | 0, _ => pure (.error ⟨.wouldBlock,
      "Agent or Harness state changed while runtime metadata was being published"⟩)
  | left + 1, attempt => do
      withLock .runtime (pure ())
      match ← withLock .supervisor (perform (.persistAgentSnapshot site attempt)) with
      | .error e => pure (.error e)
      | .ok true => pure (.ok ())
      | .ok false =>
          statusObservation site (attempt + 1)
          publishAttempts site left (attempt + 1)

def updateAgentState (site : PublishSite) : AgentTask (Except IoError Unit) :=
  withLock .harnessSync do
    statusObservation site 0
    publishAttempts site 3 0

/-- `sync_harness_state`: a state that cannot be persisted is observed again. -/
def syncHarnessState : AgentTask Unit := do
  match ← updateAgentState .refreshed with
  | .ok _ => pure ()
  | .error _ => statusObservation .refreshed 4

/-! ## Readiness -/

/-- The writes of `settle_checkpoint_restore` before the Agent state. -/
def restoreSelection (committed : Bool) : AgentTask (Except IoError Unit) :=
  if committed = true then perform .validateCommittedRestore
  else do
    match ← perform .restoreReleasePointers with
    | .error e => pure (.error e)
    | .ok _ => perform .writeProfiles

def settleCheckpointRestore : AgentTask (Except IoError Unit) := do
  match ← perform .loadSettledRestore with
  | .error e => pure (.error e)
  | .ok none => pure (.ok ())
  | .ok (some journal) =>
      -- a content restore waits for an explicit retry or abort
      if journal.content = true then pure (.ok ())
      else
        match ← restoreSelection journal.committed with
        | .error e => pure (.error e)
        | .ok _ =>
            match ← updateAgentState .settled with
            | .error e => pure (.error e)
            | .ok _ => perform .clearRestore

def ensureCheckpointMutationReady : AgentTask (Except ReleaseResponse Unit) := do
  if (← perform .shuttingDown) = true then pure (.error (.conflict "agent_shutting_down"))
  else
  match ← perform .reconcileRunDirectory with
  | .error e => pure (.error (.dataError e "process_recovery_pending"))
  | .ok _ =>
  match ← perform .ensureCanaryIdle with
  | .error e => pure (.error (.dataError e "canary_pending"))
  | .ok _ =>
  if (← perform .publicationPending) = true then
    pure (.error (.conflict "cold_publication_pending"))
  else
  match ← perform .coldCleanupPending with
  | .error e => pure (.error (.dataError e "cold_operation_unavailable"))
  | .ok true => pure (.error (.conflict "cold_cleanup_pending"))
  | .ok false =>
  match ← settleCheckpointRestore with
  | .error e => pure (.error (.dataError e "checkpoint_recovery_failed"))
  | .ok _ =>
  match ← perform .loadPendingRestore with
  | .error e => pure (.error (.dataError e "checkpoint_restore_journal_failed"))
  | .ok pending =>
      if pending.any (·.content) = true then pure (.error (.conflict "checkpoint_restore_pending"))
      else pure (.ok ())

/-- `ensure_harness_selection_quiescent` with the code `release_change_conflict`. -/
def ensureHarnessSelectionQuiescent : AgentTask (Except ReleaseResponse Unit) := do
  syncHarnessState
  if (← withLock .supervisor (perform .selectionQuiescent)) = true then pure (.ok ())
  else pure (.error (.conflict "release_change_conflict"))

def applyReleaseCatalog : AgentTask ReleaseResponse := do
  match ← updateAgentState .selected with
  | .error e => pure (.dataError e "release_state_persistence_failed")
  | .ok _ => pure .ok

/-! ## The cold operation of an initialisation -/

def beginWithDetails : AgentTask (Except IoError Unit) := do
  match ← perform .validateUpdateRef with
  | .error e => pure (.error e)
  | .ok _ =>
  if (← perform .intentExists) = true then
    pure (.error ⟨.resourceBusy, "publication recovery is pending"⟩)
  else withLock .coldGate do
    if (← perform .ownerActive) = true then
      pure (.error ⟨.resourceBusy, "cold owner cleanup is pending"⟩)
    else
    match ← perform .loadOperation with
    | .error e => pure (.error e)
    | .ok current =>
        if current.any (·.cleanupPending) = true then
          pure (.error
            ⟨.resourceBusy, "cold cleanup is pending; retry cancel or restart Nexus"⟩)
        else if current.any (fun operation => !operation.terminal) = true then
          pure (.error ⟨.resourceBusy, "a cold-install operation is already active"⟩)
        else
          match ← perform .writeOperation with
          | .error e => pure (.error e)
          | .ok _ =>
              withLock .cancellation (pure ())
              pure (.ok ())

def releaseSettledOwner : AgentTask Unit :=
  withLock .coldGate do
    let _ ← perform .loadSettled
    pure ()

/-- The end of `settle_failure`, when the record is still that of the operation. -/
def writeSettledFailure (ownerQuiescent : Bool) : AgentTask (Except IoError Unit) := do
  match ← perform .loadFailed with
  | .error e => pure (.error e)
  | .ok record =>
      if record.any (·.sameOperation) = true then
        match ← perform .writeFailed with
        | .error e => pure (.error e)
        | .ok _ =>
            if ownerQuiescent = true then
              let _ ← perform .cleanupCandidate
              perform .writeCleaned
            else pure (.ok ())
      else pure (.ok ())

/-- Leave the failure to a later recovery, and return the error. -/
def failPending (e : IoError) : AgentTask (Except IoError Unit) := do
  match ← perform .writeFailurePending with
  | .error e => pure (.error e)
  | .ok _ => pure (.error e)

/-- The part of `settle_failure` under all its locks. -/
def reconcileFailure (ownerQuiescent : Bool) (primary : IoError) : AgentTask (Except IoError Unit) := do
  if ownerQuiescent = false then failPending primary
  else
  match ← perform .reconcilePublication with
  | .error e => failPending e
  | .ok none => writeSettledFailure ownerQuiescent
  | .ok (some succeeded) =>
      match ← perform .loadReconciled with
      | .error e => pure (.error e)
      | .ok _ =>
      match ← updateAgentState .reconciled with
      | .error e => failPending e
      | .ok _ =>
      match ← perform .finishPublication with
      | .error e => failPending e
      | .ok _ =>
          if succeeded = true then pure (.ok ()) else writeSettledFailure ownerQuiescent

/-- The response of a gate that another task holds, or that its checks refuse. -/
def updateAlreadyRunning : String := "update_already_running"

/-- The part of `settle_failure` that needs the gate of the updater; without the gate, the reason. -/
def settleUnderGate (ownerQuiescent : Bool) (primary : IoError) :
    AgentTask (Except String (Except IoError Unit)) :=
  withTryLock .updateGate (.error updateAlreadyRunning) do
    match ← perform (.gateChecks true) with
    | .error code => pure (.error code)
    | .ok _ =>
        let settled ← withLock .coldGate (reconcileFailure ownerQuiescent primary)
        pure (.ok settled)

def settleFailure (ownerQuiescent : Bool) (primary : IoError) : AgentTask (Except IoError Unit) :=
  withLock .lifecycle do
    match ← settleUnderGate ownerQuiescent primary with
    | .error code => withLock .coldGate (failPending ⟨.resourceBusy, code⟩)
    | .ok settled => pure settled

/-- `initialize_selected_release` until its operation has begun; `false` when there is nothing to
initialise. -/
def beginSelected (id : String) : AgentTask (Except IoError Bool) := do
  match ← perform .loadLaunchConfig with
  | .error e => pure (.error e)
  | .ok config =>
  if config.harness = true ∨ config.externalHarness = true then pure (.ok false)
  else
  match ← perform (.releaseRoot id) with
  | .error e => pure (.error e)
  | .ok _ =>
  if (← perform (.entryIsFile id)) = false then pure (.ok false)
  else
  match ← perform (.findRelease id) with
  | .error e => pure (.error e)
  | .ok _ =>
  match ← perform (.planRegisteredRelease id) with
  | .error e => pure (.error e)
  | .ok false => pure (.error
      ⟨.other, "Configure the required runtime before selecting this release"⟩)
  | .ok true =>
  match ← perform .verifiedRuntime with
  | .error e => pure (.error e)
  | .ok _ =>
  match ← perform (.prepareCompatibility id) with
  | .error e => pure (.error e)
  | .ok _ =>
  match ← beginWithDetails with
  | .error e => pure (.error e)
  | .ok _ =>
      -- `token`
      withLock .cancellation (pure ())
      pure (.ok true)

/-- The commit of the initialisation, under the cold gate. -/
def commitSelected (id : String) (confirmation : Option String) : AgentTask (Except IoError Unit) :=
  withLock .coldGate do
    match ← perform .ensureNotCancelled with
    | .error e => pure (.error e)
    | .ok _ =>
    match ← perform .preparePublication with
    | .error e => pure (.error e)
    | .ok _ =>
    match ← perform (.promoteSelected id confirmation) with
    | .error e => pure (.error e)
    | .ok _ =>
    match ← perform .writeIntent with
    | .error e => pure (.error e)
    | .ok _ =>
    match ← perform .recoverPublication with
    | .error e => pure (.error e)
    | .ok _ => perform .loadPromoted

/-- `initialize_selected_release`: whether it has promoted the release. -/
def initializeSelectedRelease (id : String) (confirmation : Option String) :
    AgentTask (Except IoError Bool) := do
  match ← beginSelected id with
  | .error e => pure (.error e)
  | .ok false => pure (.ok false)
  | .ok true =>
      match ← commitSelected id confirmation with
      | .error e =>
          -- the copy of the error has no process cleanup in it
          let _ ← settleFailure true e
          releaseSettledOwner
          pure (.error e)
      | .ok _ =>
          releaseSettledOwner
          pure (.ok true)

/-! ## The requests -/

/-- A guard of the gate of the updater for the rest of the request. -/
def withUpdateGate (body : AgentTask ReleaseResponse) : AgentTask ReleaseResponse :=
  withTryLock .updateGate (.updateError updateAlreadyRunning) do
    match ← perform (.gateChecks false) with
    | .error code => pure (.updateError code)
    | .ok _ => body

/-- The checks of a request that changes the selection, under the lifecycle lock and the gate. -/
def withSelectionOwner (body : AgentTask ReleaseResponse) : AgentTask ReleaseResponse := do
  match ← ensureCheckpointMutationReady with
  | .error response => pure response
  | .ok _ =>
      withUpdateGate do
        match ← ensureHarnessSelectionQuiescent with
        | .error response => pure response
        | .ok _ => body

def releaseList : AgentTask ReleaseResponse :=
  withTryLock .lifecycle (.conflict "lifecycle_busy") do
    match ← settleCheckpointRestore with
    | .error e => pure (.dataError e "checkpoint_recovery_failed")
    | .ok _ =>
        match ← perform .loadReleases with
        | .error e => pure (.dataError e "release_catalog_unavailable")
        | .ok _ => pure .ok

/-- `ReleaseAction::Register`. -/
def registerRelease (command : ReleaseCommand) (id version : String) : AgentTask ReleaseResponse :=
  withUpdateGate do
    match ← ensureCheckpointMutationReady with
    | .error response => pure response
    | .ok _ =>
        match ← perform (.register id version command.source command.note) with
        | .ok _ => pure .created
        | .error e =>
            if e.kind = .resourceBusy then pure (.dataError e "release_slots_full")
            else pure (.dataError e "release_register_failed")

/-- The promotion of a release that needs no initialisation. -/
def promoteInitialized (command : ReleaseCommand) (id : String) (external : Bool) :
    AgentTask ReleaseResponse := do
  match ← perform (.compatibility id) with
  | .error e => pure (.dataError e "profile_compatibility_failed")
  | .ok _ =>
  match ← (if external = true then perform (.promote id)
    else perform (.promoteConfirmed id command.rollbackConfirmation)) with
  | .error e => pure (.dataError e "release_promote_failed")
  | .ok _ => applyReleaseCatalog

/-- `inspect_only` of `ReleaseAction::Promote`. -/
def inspectPromotion (id : String) (external : Bool) : AgentTask ReleaseResponse := do
  match ← (if external = true then pure (.ok none) else perform (.promotionRisk id)) with
  | .error e => pure (.dataError e "release_promote_failed")
  | .ok confirmation => pure (.confirmation confirmation)

/-- `ReleaseAction::Promote`. -/
def promoteRelease (command : ReleaseCommand) (id : String) : AgentTask ReleaseResponse :=
  withLock .lifecycle <| withSelectionOwner do
    match ← perform .loadConfig with
    | .error e => pure (.dataError e "config_read_failed")
    | .ok external =>
    if command.inspectOnly = true then inspectPromotion id external
    else
      match ← initializeSelectedRelease id command.rollbackConfirmation with
      | .error e => pure (.dataError e "release_promote_failed")
      | .ok true => applyReleaseCatalog
      | .ok false => promoteInitialized command id external

/-- `ReleaseAction::Remove`: the guards go to the task that removes the slot. -/
def removeRelease (id : String) : AgentTask ReleaseResponse := do
  let removed ← withLock .lifecycle <| withSelectionOwner do
    match ← perform (.remove id) with
    | .ok _ => pure .ok
    | .error e =>
        if e.kind = .resourceBusy then pure (.dataError e "release_slot_protected")
        else if e.kind = .notFound then pure (.dataError e "release_not_found")
        else pure (.dataError e "release_remove_failed")
  if removed = .ok then applyReleaseCatalog else pure removed

/-- The check of the release that a rollback selects. -/
def checkPrevious : Option String → AgentTask (Except IoError Unit)
  | some id => perform (.compatibility id)
  | none => pure (.ok ())

/-- `ReleaseAction::Rollback`. -/
def rollbackRelease : AgentTask ReleaseResponse :=
  withLock .lifecycle <| withSelectionOwner do
    match ← perform .loadReleases with
    | .error e => pure (.dataError e "release_rollback_failed")
    | .ok previous =>
    match ← checkPrevious previous with
    | .error e => pure (.dataError e "profile_compatibility_failed")
    | .ok _ =>
    match ← perform .rollback with
    | .error e => pure (.dataError e "release_rollback_failed")
    | .ok _ => applyReleaseCatalog

/-- The response to a request without an identifier or a version. -/
def invalidRelease (message : String) : ReleaseResponse :=
  .dataError ⟨.invalidInput, message⟩ "release_invalid"

/-- `release_control_inner`. -/
def releaseControl (command : ReleaseCommand) : AgentTask ReleaseResponse :=
  match command.action with
  | .list | .current => releaseList
  | .register =>
      match command.id, command.version with
      | none, _ => pure (invalidRelease "release id is required")
      | some _, none => pure (invalidRelease "release version is required")
      | some id, some version => registerRelease command id version
  | .promote =>
      match command.id with
      | none => pure (invalidRelease "release id is required")
      | some id => promoteRelease command id
  | .remove =>
      match command.id with
      | none => pure (invalidRelease "release id is required")
      | some id => removeRelease id
  | .rollback => rollbackRelease

/-! ## The order of the locks -/

variable {outcome : ∀ β, ReleaseStep β → β}

theorem ordered_statusObservation (site : PublishSite) (attempt : Nat) :
    Ordered outcome AgentLock.rank 6 (statusObservation site attempt) := by
  refine .bind (.withLock (ordered_perform _) le_rfl) fun changed => ?_
  split
  · refine .bind (.withLock (ordered_perform _) le_rfl) fun stale => ?_
    split
    · exact .withLock (ordered_pure _) le_rfl
    · exact ordered_pure _
  · exact ordered_pure _

theorem ordered_publishAttempts (site : PublishSite) (left attempt : Nat) :
    Ordered outcome AgentLock.rank 5 (publishAttempts site left attempt) := by
  induction left generalizing attempt with
  | zero => exact ordered_pure _
  | succ left ih =>
    refine .bind (.withLock (ordered_pure _) le_rfl) fun _ => ?_
    refine .bind (.withLock (ordered_perform _) (by decide)) ?_
    rintro (e | _ | _)
    · exact ordered_pure _
    · exact .bind ((ordered_statusObservation site (attempt + 1)).mono (by decide)) fun _ => ih _
    · exact ordered_pure _

theorem ordered_updateAgentState (site : PublishSite) :
    Ordered outcome AgentLock.rank 4 (updateAgentState site) :=
  .withLock (.bind ((ordered_statusObservation site 0).mono (by decide)) fun _ =>
    ordered_publishAttempts site 3 0) le_rfl

theorem ordered_syncHarnessState : Ordered outcome AgentLock.rank 4 syncHarnessState := by
  refine .bind (ordered_updateAgentState .refreshed) ?_
  rintro (e | _)
  · exact (ordered_statusObservation .refreshed 4).mono (by decide)
  · exact ordered_pure _

theorem ordered_restoreSelection (committed : Bool) :
    Ordered outcome AgentLock.rank 4 (restoreSelection committed) := by
  rw [restoreSelection]
  split
  · exact ordered_perform _
  · refine .bind (ordered_perform _) ?_
    rintro (e | _)
    · exact ordered_pure _
    · exact ordered_perform _

theorem ordered_settleCheckpointRestore :
    Ordered outcome AgentLock.rank 4 settleCheckpointRestore := by
  refine .bind (ordered_perform _) ?_
  rintro (e | _ | journal)
  · exact ordered_pure _
  · exact ordered_pure _
  dsimp only
  split
  · exact ordered_pure _
  refine .bind (ordered_restoreSelection journal.committed) ?_
  rintro (e | _)
  · exact ordered_pure _
  refine .bind (ordered_updateAgentState .settled) ?_
  rintro (e | _)
  · exact ordered_pure _
  · exact ordered_perform _

theorem ordered_ensureCheckpointMutationReady :
    Ordered outcome AgentLock.rank 4 ensureCheckpointMutationReady := by
  refine .bind (ordered_perform _) fun shuttingDown => ?_
  split
  · exact ordered_pure _
  refine .bind (ordered_perform _) ?_
  rintro (e | _)
  · exact ordered_pure _
  refine .bind (ordered_perform _) ?_
  rintro (e | _)
  · exact ordered_pure _
  refine .bind (ordered_perform _) fun pending => ?_
  split
  · exact ordered_pure _
  refine .bind (ordered_perform _) ?_
  rintro (e | _ | _)
  · exact ordered_pure _
  · refine .bind ordered_settleCheckpointRestore ?_
    rintro (e | _)
    · exact ordered_pure _
    refine .bind (ordered_perform _) ?_
    rintro (e | pending)
    · exact ordered_pure _
    dsimp only
    split <;> exact ordered_pure _
  · exact ordered_pure _

theorem ordered_ensureHarnessSelectionQuiescent :
    Ordered outcome AgentLock.rank 4 ensureHarnessSelectionQuiescent := by
  refine .bind ordered_syncHarnessState fun _ => ?_
  refine .bind (.withLock (ordered_perform _) (by decide)) fun quiescent => ?_
  split <;> exact ordered_pure _

theorem ordered_applyReleaseCatalog : Ordered outcome AgentLock.rank 4 applyReleaseCatalog := by
  refine .bind (ordered_updateAgentState .selected) ?_
  rintro (e | _) <;> exact ordered_pure _

theorem ordered_beginWithDetails : Ordered outcome AgentLock.rank 2 beginWithDetails := by
  refine .bind (ordered_perform _) ?_
  rintro (e | _)
  · exact ordered_pure _
  refine .bind (ordered_perform _) fun pending => ?_
  split
  · exact ordered_pure _
  refine .withLock (.bind (ordered_perform _) fun active => ?_) le_rfl
  split
  · exact ordered_pure _
  refine .bind (ordered_perform _) ?_
  rintro (e | current)
  · exact ordered_pure _
  dsimp only
  split
  · exact ordered_pure _
  split
  · exact ordered_pure _
  refine .bind (ordered_perform _) ?_
  rintro (e | _)
  · exact ordered_pure _
  · exact .bind (.withLock (ordered_pure _) (by decide)) fun _ => ordered_pure _

theorem ordered_beginSelected (id : String) :
    Ordered outcome AgentLock.rank 2 (beginSelected id) := by
  refine .bind (ordered_perform _) ?_
  rintro (e | config)
  · exact ordered_pure _
  dsimp only
  split
  · exact ordered_pure _
  refine .bind (ordered_perform _) ?_
  rintro (e | _)
  · exact ordered_pure _
  refine .bind (ordered_perform _) fun isFile => ?_
  split
  · exact ordered_pure _
  refine .bind (ordered_perform _) ?_
  rintro (e | _)
  · exact ordered_pure _
  refine .bind (ordered_perform _) ?_
  rintro (e | _ | _)
  · exact ordered_pure _
  · exact ordered_pure _
  refine .bind (ordered_perform _) ?_
  rintro (e | _)
  · exact ordered_pure _
  refine .bind (ordered_perform _) ?_
  rintro (e | _)
  · exact ordered_pure _
  refine .bind ordered_beginWithDetails ?_
  rintro (e | _)
  · exact ordered_pure _
  · exact .bind (.withLock (ordered_pure _) (by decide)) fun _ => ordered_pure _

theorem ordered_commitSelected (id : String) (confirmation : Option String) :
    Ordered outcome AgentLock.rank 2 (commitSelected id confirmation) := by
  refine .withLock (.bind (ordered_perform _) ?_) le_rfl
  rintro (e | _)
  · exact ordered_pure _
  refine .bind (ordered_perform _) ?_
  rintro (e | _)
  · exact ordered_pure _
  refine .bind (ordered_perform _) ?_
  rintro (e | _)
  · exact ordered_pure _
  refine .bind (ordered_perform _) ?_
  rintro (e | _)
  · exact ordered_pure _
  refine .bind (ordered_perform _) ?_
  rintro (e | _)
  · exact ordered_pure _
  · exact ordered_perform _

theorem ordered_releaseSettledOwner : Ordered outcome AgentLock.rank 2 releaseSettledOwner :=
  .withLock (.bind (ordered_perform _) fun _ => ordered_pure _) le_rfl

theorem ordered_failPending (e : IoError) : Ordered outcome AgentLock.rank 3 (failPending e) := by
  refine .bind (ordered_perform _) ?_
  rintro (e | _) <;> exact ordered_pure _

theorem ordered_writeSettledFailure (ownerQuiescent : Bool) :
    Ordered outcome AgentLock.rank 3 (writeSettledFailure ownerQuiescent) := by
  refine .bind (ordered_perform _) ?_
  rintro (e | record)
  · exact ordered_pure _
  dsimp only
  split
  · refine .bind (ordered_perform _) ?_
    rintro (e | _)
    · exact ordered_pure _
    dsimp only
    split
    · exact .bind (ordered_perform _) fun _ => ordered_perform _
    · exact ordered_pure _
  · exact ordered_pure _

theorem ordered_reconcileFailure (ownerQuiescent : Bool) (primary : IoError) :
    Ordered outcome AgentLock.rank 3 (reconcileFailure ownerQuiescent primary) := by
  rw [reconcileFailure]
  split
  · exact ordered_failPending _
  refine .bind (ordered_perform _) ?_
  rintro (e | _ | succeeded)
  · exact ordered_failPending _
  · exact ordered_writeSettledFailure _
  refine .bind (ordered_perform _) ?_
  rintro (e | _)
  · exact ordered_pure _
  refine .bind ((ordered_updateAgentState .reconciled).mono (by decide)) ?_
  rintro (e | _)
  · exact ordered_failPending _
  refine .bind (ordered_perform _) ?_
  rintro (e | _)
  · exact ordered_failPending _
  dsimp only
  split
  · exact ordered_pure _
  · exact ordered_writeSettledFailure _

theorem settleFailure_neverReacquires (ownerQuiescent : Bool) (primary : IoError) :
    NeverReacquires outcome [] (settleFailure ownerQuiescent primary) := by
  have hbody : Ordered outcome AgentLock.rank 2 (do
      match ← perform (.gateChecks true) with
      | .error code => pure (.error code)
      | .ok _ =>
          let settled ← withLock .coldGate (reconcileFailure ownerQuiescent primary)
          pure (.ok settled) : AgentTask (Except String (Except IoError Unit))) := by
    refine .bind (ordered_perform _) ?_
    rintro (code | _)
    · exact ordered_pure _
    · exact .bind (.withLock (ordered_reconcileFailure _ _) le_rfl) fun _ => ordered_pure _
  rw [settleFailure, neverReacquires_withLock]
  refine ⟨List.not_mem_nil, neverReacquires_bind.mpr ⟨?_, ?_⟩⟩
  · rw [settleUnderGate, neverReacquires_withTryLock]
    exact ⟨by decide, hbody.neverReacquires (by decide)⟩
  · intro settled held hends
    obtain rfl := hbody.held_eq_of_withTryLock AgentLock.rank .updateGate (by decide) hends
    rcases settled with code | settled
    · exact Ordered.neverReacquires (n := 2) (.withLock (ordered_failPending _) le_rfl) (by decide)
    · trivial

/-! ## When a request is admitted -/

variable (outcome)

/-- `persist_agent_snapshot` succeeds before the attempts are used up. -/
def Published (site : PublishSite) : Nat → Nat → Prop
  | 0, _ => False
  | left + 1, attempt => outcome _ (.persistAgentSnapshot site attempt) = .ok true ∨
      outcome _ (.persistAgentSnapshot site attempt) = .ok false ∧ Published site left (attempt + 1)

def RestoreSettled : Prop :=
  match outcome _ .loadSettledRestore with
  | .error _ => False
  | .ok none => True
  | .ok (some journal) => journal.content = true ∨
      (if journal.committed = true then outcome _ .validateCommittedRestore = .ok ()
        else outcome _ .restoreReleasePointers = .ok () ∧ outcome _ .writeProfiles = .ok ()) ∧
      Published outcome .settled 3 0 ∧ outcome _ .clearRestore = .ok ()

/-- The checks that come before every mutation pass. -/
def MutationReady : Prop :=
  outcome _ .shuttingDown = false ∧ outcome _ .reconcileRunDirectory = .ok () ∧
  outcome _ .ensureCanaryIdle = .ok () ∧ outcome _ .publicationPending = false ∧
  outcome _ .coldCleanupPending = .ok false ∧ RestoreSettled outcome ∧
  ∃ pending, outcome _ .loadPendingRestore = .ok pending ∧ pending.any (·.content) = false

/-- A request that changes the selection is admitted. -/
def Admitted : Prop :=
  MutationReady outcome ∧ outcome _ (.gateChecks false) = .ok () ∧
    outcome _ .selectionQuiescent = true

/-- The initialisation of the release begins its operation. -/
def Begins (id : String) : Prop :=
  (∃ config, outcome _ .loadLaunchConfig = .ok config ∧ config.harness = false ∧
    config.externalHarness = false) ∧
  outcome _ (.releaseRoot id) = .ok () ∧ outcome _ (.entryIsFile id) = true ∧
  outcome _ (.findRelease id) = .ok () ∧ outcome _ (.planRegisteredRelease id) = .ok true ∧
  outcome _ .verifiedRuntime = .ok () ∧ outcome _ (.prepareCompatibility id) = .ok () ∧
  outcome _ .validateUpdateRef = .ok () ∧ outcome _ .intentExists = false ∧
  outcome _ .ownerActive = false ∧
  (∃ current, outcome _ .loadOperation = .ok current ∧ current.any (·.cleanupPending) = false ∧
    current.any (fun operation => !operation.terminal) = false) ∧
  outcome _ .writeOperation = .ok ()

def Commits (id : String) (confirmation : Option String) : Prop :=
  outcome _ .ensureNotCancelled = .ok () ∧ outcome _ .preparePublication = .ok () ∧
  outcome _ (.promoteSelected id confirmation) = .ok () ∧ outcome _ .writeIntent = .ok () ∧
  outcome _ .recoverPublication = .ok () ∧ outcome _ .loadPromoted = .ok ()

variable {outcome}

theorem result_publishAttempts (site : PublishSite) (left attempt : Nat) :
    result outcome (publishAttempts site left attempt) = .ok () ↔
      Published outcome site left attempt := by
  induction left generalizing attempt with
  | zero => exact iff_of_false (fun h => nomatch h) id
  | succ left ih =>
    rw [publishAttempts, result_bind, result_bind, result_withLock, result_perform, Published]
    rcases outcome _ (.persistAgentSnapshot site attempt) with e | _ | _
    · simp
    · simpa [result_bind] using ih (attempt + 1)
    · simp

theorem result_updateAgentState (site : PublishSite) :
    result outcome (updateAgentState site) = .ok () ↔ Published outcome site 3 0 := by
  rw [updateAgentState, result_withLock, result_bind, result_publishAttempts]

theorem result_settleCheckpointRestore :
    result outcome settleCheckpointRestore = .ok () ↔ RestoreSettled outcome := by
  rw [settleCheckpointRestore, result_bind, result_perform, RestoreSettled]
  rcases outcome _ .loadSettledRestore with e | _ | journal
  · simp
  · simp
  dsimp only
  by_cases hcontent : journal.content = true
  · simp [hcontent]
  have hselection : result outcome (restoreSelection journal.committed) = .ok () ↔
      if journal.committed = true then outcome _ .validateCommittedRestore = .ok ()
        else outcome _ .restoreReleasePointers = .ok () ∧ outcome _ .writeProfiles = .ok () := by
    rw [restoreSelection]
    split
    · rfl
    · rw [result_bind, result_perform]
      rcases outcome _ .restoreReleasePointers with e | _ <;> simp
  rw [if_neg hcontent, ← hselection, ← result_updateAgentState, result_bind]
  rcases result outcome (restoreSelection journal.committed) with e | _
  · simp [hcontent]
  dsimp only
  rw [result_bind]
  rcases result outcome (updateAgentState .settled) with e | _ <;> simp [hcontent]

theorem result_ensureCheckpointMutationReady :
    result outcome ensureCheckpointMutationReady = .ok () ↔ MutationReady outcome := by
  rw [ensureCheckpointMutationReady, MutationReady, ← result_settleCheckpointRestore, result_bind,
    result_perform]
  rcases outcome _ .shuttingDown with _ | _
  swap
  · simp
  rw [if_neg (by decide), result_bind, result_perform]
  rcases outcome _ .reconcileRunDirectory with e | _
  · simp
  dsimp only
  rw [result_bind, result_perform]
  rcases outcome _ .ensureCanaryIdle with e | _
  · simp
  dsimp only
  rw [result_bind, result_perform]
  rcases outcome _ .publicationPending with _ | _
  swap
  · simp
  rw [if_neg (by decide), result_bind, result_perform]
  rcases outcome _ .coldCleanupPending with e | _ | _
  · simp
  · dsimp only
    rw [result_bind]
    rcases result outcome settleCheckpointRestore with e | _
    · simp
    dsimp only
    rw [result_bind, result_perform]
    rcases outcome _ .loadPendingRestore with e | pending
    · simp
    dsimp only
    cases hany : pending.any (·.content) <;> simp [hany]
  · simp

theorem result_beginWithDetails :
    result outcome beginWithDetails = .ok () ↔
      outcome _ .validateUpdateRef = .ok () ∧ outcome _ .intentExists = false ∧
      outcome _ .ownerActive = false ∧
      (∃ current, outcome _ .loadOperation = .ok current ∧
        current.any (·.cleanupPending) = false ∧
        current.any (fun operation => !operation.terminal) = false) ∧
      outcome _ .writeOperation = .ok () := by
  rw [beginWithDetails, result_bind, result_perform]
  rcases outcome _ .validateUpdateRef with e | _
  · simp
  dsimp only
  rw [result_bind, result_perform]
  rcases outcome _ .intentExists with _ | _
  swap
  · simp
  rw [if_neg (by decide), result_withLock, result_bind, result_perform]
  rcases outcome _ .ownerActive with _ | _
  swap
  · simp
  rw [if_neg (by decide), result_bind, result_perform]
  rcases outcome _ .loadOperation with e | current
  · simp
  dsimp only
  cases hcleanup : current.any (·.cleanupPending)
  swap
  · simp [hcleanup]
  rw [if_neg (by decide)]
  cases hterminal : current.any fun operation => !operation.terminal
  swap
  · simp [hterminal]
  rw [if_neg (by decide), result_bind, result_perform]
  rcases outcome _ .writeOperation with e | _
  · simp
  · simp [result_bind, hcleanup, hterminal]

theorem result_beginSelected (id : String) :
    result outcome (beginSelected id) = .ok true ↔ Begins outcome id := by
  rw [beginSelected, Begins, ← result_beginWithDetails, result_bind, result_perform]
  rcases outcome _ .loadLaunchConfig with e | config
  · simp
  dsimp only
  by_cases hconfigured : config.harness = true ∨ config.externalHarness = true
  · rw [if_pos hconfigured]
    refine iff_of_false (by simp) ?_
    rintro ⟨⟨other, hother, hharness, hexternal⟩, -⟩
    obtain rfl := Except.ok.inj hother
    simp [hharness, hexternal] at hconfigured
  rw [if_neg hconfigured, result_bind, result_perform]
  rw [not_or, Bool.not_eq_true, Bool.not_eq_true] at hconfigured
  rcases outcome _ (.releaseRoot id) with e | _
  · simp
  dsimp only
  rw [result_bind, result_perform]
  rcases outcome _ (.entryIsFile id) with _ | _
  · simp
  rw [if_neg (by decide), result_bind, result_perform]
  rcases outcome _ (.findRelease id) with e | _
  · simp
  dsimp only
  rw [result_bind, result_perform]
  rcases outcome _ (.planRegisteredRelease id) with e | _ | _
  · simp
  · simp
  dsimp only
  rw [result_bind, result_perform]
  rcases outcome _ .verifiedRuntime with e | _
  · simp
  dsimp only
  rw [result_bind, result_perform]
  rcases outcome _ (.prepareCompatibility id) with e | _
  · simp
  dsimp only
  rw [result_bind]
  rcases result outcome beginWithDetails with e | _
  · simp
  · simp [result_bind, hconfigured]

theorem result_commitSelected (id : String) (confirmation : Option String) :
    result outcome (commitSelected id confirmation) = .ok () ↔ Commits outcome id confirmation := by
  rw [commitSelected, Commits, result_withLock, result_bind, result_perform]
  rcases outcome _ .ensureNotCancelled with e | _
  · simp
  dsimp only
  rw [result_bind, result_perform]
  rcases outcome _ .preparePublication with e | _
  · simp
  dsimp only
  rw [result_bind, result_perform]
  rcases outcome _ (.promoteSelected id confirmation) with e | _
  · simp
  dsimp only
  rw [result_bind, result_perform]
  rcases outcome _ .writeIntent with e | _
  · simp
  dsimp only
  rw [result_bind, result_perform]
  rcases outcome _ .recoverPublication with e | _
  · simp
  · simp

/-! ## No request waits for itself -/

theorem ordered_initializeSelectedRelease {id : String} {confirmation : Option String}
    (h : Begins outcome id → Commits outcome id confirmation) :
    Ordered outcome AgentLock.rank 2 (initializeSelectedRelease id confirmation) := by
  rw [← result_beginSelected, ← result_commitSelected] at h
  refine (ordered_beginSelected id).bind_result ?_
  rcases hbegun : result outcome (beginSelected id) with e | _ | _
  · exact ordered_pure _
  · exact ordered_pure _
  refine (ordered_commitSelected id confirmation).bind_result ?_
  rw [h hbegun]
  exact .bind ordered_releaseSettledOwner fun _ => ordered_pure _

theorem not_neverReacquires_initializeSelectedRelease {mine : List AgentLock}
    (hmine : ∀ lock ∈ mine, lock.rank < 2) (hlifecycle : .lifecycle ∈ mine) {id : String}
    {confirmation : Option String} (hbegins : Begins outcome id)
    (hcommits : ¬ Commits outcome id confirmation) :
    ¬ NeverReacquires outcome mine (initializeSelectedRelease id confirmation) := by
  rw [← result_beginSelected] at hbegins
  rw [← result_commitSelected] at hcommits
  rw [initializeSelectedRelease, (ordered_beginSelected id).neverReacquires_bind hmine, hbegins]
  dsimp only
  rw [(ordered_commitSelected id confirmation).neverReacquires_bind hmine]
  rcases hresult : result outcome (commitSelected id confirmation) with e | _
  · intro h
    have hsettle := (neverReacquires_bind.mp h).1
    exact (neverReacquires_withLock.mp hsettle).1 hlifecycle
  · exact absurd hresult hcommits

theorem neverReacquires_withUpdateGate {mine : List AgentLock} (hfree : .updateGate ∉ mine)
    {body : AgentTask ReleaseResponse} :
    NeverReacquires outcome mine (withUpdateGate body) ↔
      (outcome _ (.gateChecks false) = .ok () →
        NeverReacquires outcome (.updateGate :: mine) body) := by
  rw [withUpdateGate, neverReacquires_withTryLock, and_iff_right hfree,
    neverReacquires_perform_bind]
  rcases outcome _ (.gateChecks false) with code | _
  · exact iff_of_true trivial fun h => nomatch h
  · exact ⟨fun h _ => h, fun h => h rfl⟩

theorem neverReacquires_withSelectionOwner {body : AgentTask ReleaseResponse} :
    NeverReacquires outcome [.lifecycle] (withSelectionOwner body) ↔
      (Admitted outcome → NeverReacquires outcome [.updateGate, .lifecycle] body) := by
  rw [withSelectionOwner,
    ordered_ensureCheckpointMutationReady.neverReacquires_bind (by decide), Admitted,
    ← result_ensureCheckpointMutationReady]
  rcases result outcome ensureCheckpointMutationReady with response | _
  · exact iff_of_true trivial fun h => nomatch h.1
  dsimp only
  rw [neverReacquires_withUpdateGate (by decide),
    ordered_ensureHarnessSelectionQuiescent.neverReacquires_bind (by decide)]
  have hquiescent : result outcome ensureHarnessSelectionQuiescent =
      if outcome _ .selectionQuiescent = true then .ok ()
      else .error (.conflict "release_change_conflict") := by
    rw [ensureHarnessSelectionQuiescent, result_bind, result_bind, result_withLock, result_perform]
    split <;> rfl
  rw [hquiescent]
  rcases outcome _ .selectionQuiescent with _ | _
  · exact iff_of_true (fun _ => trivial) fun h => by simp at h
  · simp

variable (outcome)

/-- The request promotes a release whose initialisation begins, and fails after that. -/
def InitialisationFails (command : ReleaseCommand) : Prop :=
  command.action = .promote ∧ command.inspectOnly = false ∧ Admitted outcome ∧
    (∃ external, outcome _ .loadConfig = .ok external) ∧
    ∃ id, command.id = some id ∧ Begins outcome id ∧
      ¬ Commits outcome id command.rollbackConfirmation

variable {outcome}

theorem ordered_promoteInitialized (command : ReleaseCommand) (id : String) (external : Bool) :
    Ordered outcome AgentLock.rank 2 (promoteInitialized command id external) := by
  refine .bind (ordered_perform _) ?_
  rintro (e | _)
  · exact ordered_pure _
  have hpromote : Ordered outcome AgentLock.rank 2 (if external = true then perform (.promote id)
      else perform (.promoteConfirmed id command.rollbackConfirmation) :
        AgentTask (Except IoError Unit)) := by
    split <;> exact ordered_perform _
  refine .bind hpromote ?_
  rintro (e | _)
  · exact ordered_pure _
  · exact ordered_applyReleaseCatalog.mono (by decide)

theorem ordered_inspectPromotion (id : String) (external : Bool) :
    Ordered outcome AgentLock.rank 2 (inspectPromotion id external) := by
  have hrisk : Ordered outcome AgentLock.rank 2 (if external = true then pure (.ok none)
      else perform (.promotionRisk id) : AgentTask (Except IoError (Option String))) := by
    split
    · exact ordered_pure _
    · exact ordered_perform _
  refine .bind hrisk ?_
  rintro (e | _) <;> exact ordered_pure _

theorem neverReacquires_promoteRelease (command : ReleaseCommand) (id : String) :
    NeverReacquires outcome [] (promoteRelease command id) ↔
      (Admitted outcome → (∃ external, outcome _ .loadConfig = .ok external) →
        command.inspectOnly = false → Begins outcome id →
          Commits outcome id command.rollbackConfirmation) := by
  rw [promoteRelease, neverReacquires_withLock, and_iff_right List.not_mem_nil,
    neverReacquires_withSelectionOwner]
  refine imp_congr_right fun _ => ?_
  rw [neverReacquires_perform_bind]
  rcases outcome _ .loadConfig with e | external
  · exact iff_of_true trivial fun h => by simp at h
  rw [forall_prop_of_true ⟨external, rfl⟩]
  dsimp only
  cases hinspect : command.inspectOnly
  · rw [if_neg (by decide), forall_prop_of_true rfl]
    by_cases hcommits : Begins outcome id → Commits outcome id command.rollbackConfirmation
    · refine iff_of_true ?_ hcommits
      refine (Ordered.bind (ordered_initializeSelectedRelease hcommits) ?_).neverReacquires
        (by decide)
      rintro (e | _ | _)
      · exact ordered_pure _
      · exact ordered_promoteInitialized command id external
      · exact ordered_applyReleaseCatalog.mono (by decide)
    · refine iff_of_false (fun h => ?_) hcommits
      obtain ⟨hbegins, hfails⟩ := Classical.not_imp.mp hcommits
      exact not_neverReacquires_initializeSelectedRelease (by decide) (by decide) hbegins hfails
        (neverReacquires_bind.mp h).1
  · rw [if_pos rfl]
    exact iff_of_true ((ordered_inspectPromotion id external).neverReacquires (by decide))
      fun h => nomatch h

theorem neverReacquires_registerRelease (command : ReleaseCommand) (id version : String) :
    NeverReacquires outcome [] (registerRelease command id version) := by
  refine (neverReacquires_withUpdateGate (by decide)).mpr fun _ => ?_
  refine (Ordered.bind ordered_ensureCheckpointMutationReady ?_).neverReacquires (by decide)
  rintro (response | _)
  · exact ordered_pure _
  refine .bind (ordered_perform _) ?_
  rintro (e | _)
  · dsimp only
    split <;> exact ordered_pure _
  · exact ordered_pure _

theorem held_eq_of_withSelectionOwner {body : AgentTask ReleaseResponse}
    (hbody : Ordered outcome AgentLock.rank 2 body) {response : ReleaseResponse}
    {held : List AgentLock} (h : Ends outcome [.lifecycle] (withSelectionOwner body) response held) :
    held = [.lifecycle] := by
  obtain ⟨ready, held', hready, hends⟩ := ends_bind.mp h
  obtain ⟨-, rfl⟩ := ((ordered_ensureCheckpointMutationReady _ (by decide)).2 ready held').mp hready
  rcases ready with refused | _
  · exact hends.2
  refine Ordered.held_eq_of_withTryLock AgentLock.rank .updateGate ?_ (by decide) hends
  refine .bind (ordered_perform _) ?_
  rintro (code | _)
  · exact ordered_pure _
  refine .bind (ordered_ensureHarnessSelectionQuiescent.mono (by decide)) ?_
  rintro (refused | _)
  · exact ordered_pure _
  · exact hbody

theorem neverReacquires_removeRelease (id : String) :
    NeverReacquires outcome [] (removeRelease id) := by
  have hbody : Ordered outcome AgentLock.rank 2 (do
      match ← perform (.remove id) with
      | .ok _ => pure .ok
      | .error e =>
          if e.kind = .resourceBusy then pure (.dataError e "release_slot_protected")
          else if e.kind = .notFound then pure (.dataError e "release_not_found")
          else pure (.dataError e "release_remove_failed") : AgentTask ReleaseResponse) := by
    refine .bind (ordered_perform _) ?_
    rintro (e | _)
    · dsimp only
      split
      · exact ordered_pure _
      · split <;> exact ordered_pure _
    · exact ordered_pure _
  refine neverReacquires_bind.mpr ⟨?_, fun response held hends => ?_⟩
  · exact neverReacquires_withLock.mpr ⟨List.not_mem_nil,
      neverReacquires_withSelectionOwner.mpr fun _ => hbody.neverReacquires (by decide)⟩
  · obtain ⟨-, hends⟩ := hends
    obtain ⟨removed, held', hremoved, -, rfl⟩ := ends_bind.mp hends
    obtain rfl := held_eq_of_withSelectionOwner hbody hremoved
    -- both guards are gone when the Agent state is written
    split
    · exact ordered_applyReleaseCatalog.neverReacquires (by decide)
    · trivial

theorem neverReacquires_rollbackRelease : NeverReacquires outcome [] rollbackRelease := by
  refine neverReacquires_withLock.mpr ⟨List.not_mem_nil, ?_⟩
  refine neverReacquires_withSelectionOwner.mpr fun _ => ?_
  refine (Ordered.bind (ordered_perform _) ?_ : Ordered outcome AgentLock.rank 2 _).neverReacquires
    (by decide)
  rintro (e | previous)
  · exact ordered_pure _
  have hcheck : Ordered outcome AgentLock.rank 2 (checkPrevious previous) := by
    cases previous
    · exact ordered_pure _
    · exact ordered_perform _
  refine .bind hcheck ?_
  rintro (e | _)
  · exact ordered_pure _
  refine .bind (ordered_perform _) ?_
  rintro (e | _)
  · exact ordered_pure _
  · exact ordered_applyReleaseCatalog.mono (by decide)

theorem neverReacquires_releaseList : NeverReacquires outcome [] releaseList := by
  refine neverReacquires_withTryLock.mpr ⟨List.not_mem_nil, ?_⟩
  refine (Ordered.bind ordered_settleCheckpointRestore ?_).neverReacquires (by decide)
  rintro (e | _)
  · exact ordered_pure _
  refine .bind (ordered_perform _) ?_
  rintro (e | _) <;> exact ordered_pure _

/-- **No request waits for itself, one apart.**  Among any other holders of the locks, a release
control request never takes a lock that it holds, and returns whenever the others return, exactly
when it does not promote a release whose initialisation begins and then fails. -/
theorem releaseControl_neverWaits_iff (outcome : ∀ β, ReleaseStep β → β)
    (command : ReleaseCommand) :
    NeverWaitsForItself outcome (releaseControl command) ↔ ¬ InitialisationFails outcome command := by
  rw [neverWaitsForItself_iff, releaseControl]
  have hother : command.action ≠ .promote → ¬ InitialisationFails outcome command :=
    fun haction h => haction h.1
  rcases haction : command.action with _ | _ | _ | _ | _ | _
  · exact iff_of_true neverReacquires_releaseList (hother (by simp [haction]))
  · exact iff_of_true neverReacquires_releaseList (hother (by simp [haction]))
  · refine iff_of_true ?_ (hother (by simp [haction]))
    dsimp only
    split
    · trivial
    · trivial
    · exact neverReacquires_registerRelease command _ _
  · dsimp only
    rcases hid : command.id with _ | id
    · refine iff_of_true trivial ?_
      rintro ⟨-, -, -, -, id, hsome, -⟩
      cases hid.symm.trans hsome
    dsimp only
    rw [neverReacquires_promoteRelease]
    constructor
    · rintro h ⟨-, hinspect, hadmitted, hconfig, other, hother, hbegins, hfails⟩
      obtain rfl := Option.some.inj (hid.symm.trans hother)
      exact hfails (h hadmitted hconfig hinspect hbegins)
    · intro h hadmitted hconfig hinspect hbegins
      by_contra hfails
      exact h ⟨haction, hinspect, hadmitted, hconfig, id, hid, hbegins, hfails⟩
  · exact iff_of_true neverReacquires_rollbackRelease (hother (by simp [haction]))
  · refine iff_of_true ?_ (hother (by simp [haction]))
    dsimp only
    split
    · trivial
    · exact neverReacquires_removeRelease _

/-! ## A promotion that is cancelled -/

/-- Every step succeeds, but the operation is cancelled before its commit. -/
def cancelledOutcome : ∀ β, ReleaseStep β → β
  | _, .shuttingDown => false
  | _, .reconcileRunDirectory => .ok ()
  | _, .ensureCanaryIdle => .ok ()
  | _, .publicationPending => false
  | _, .coldCleanupPending => .ok false
  | _, .loadPendingRestore => .ok none
  | _, .loadSettledRestore => .ok none
  | _, .validateCommittedRestore => .ok ()
  | _, .restoreReleasePointers => .ok ()
  | _, .writeProfiles => .ok ()
  | _, .clearRestore => .ok ()
  | _, .pollChild _ _ => false
  | _, .persistIfCurrent _ _ => false
  | _, .persistAgentSnapshot _ _ => .ok true
  | _, .gateChecks _ => .ok ()
  | _, .selectionQuiescent => true
  | _, .loadReleases => .ok none
  | _, .register _ _ _ _ => .ok ()
  | _, .remove _ => .ok ()
  | _, .rollback => .ok ()
  | _, .promote _ => .ok ()
  | _, .promoteConfirmed _ _ => .ok ()
  | _, .promotionRisk _ => .ok none
  | _, .compatibility _ => .ok ()
  | _, .loadConfig => .ok false
  | _, .loadLaunchConfig => .ok ⟨false, false⟩
  | _, .releaseRoot _ => .ok ()
  | _, .entryIsFile _ => true
  | _, .findRelease _ => .ok ()
  | _, .planRegisteredRelease _ => .ok true
  | _, .verifiedRuntime => .ok ()
  | _, .prepareCompatibility _ => .ok ()
  | _, .validateUpdateRef => .ok ()
  | _, .intentExists => false
  | _, .ownerActive => false
  | _, .loadOperation => .ok none
  | _, .writeOperation => .ok ()
  | _, .ensureNotCancelled => .error ⟨.other, "cold install cancelled"⟩
  | _, .preparePublication => .ok ()
  | _, .promoteSelected _ _ => .ok ()
  | _, .writeIntent => .ok ()
  | _, .recoverPublication => .ok ()
  | _, .loadPromoted => .ok ()
  | _, .reconcilePublication => .ok none
  | _, .loadReconciled => .ok ()
  | _, .finishPublication => .ok ()
  | _, .writeFailurePending => .ok ()
  | _, .loadFailed => .ok none
  | _, .writeFailed => .ok ()
  | _, .cleanupCandidate => .ok ()
  | _, .writeCleaned => .ok ()
  | _, .loadSettled => .ok none

def firstSelection : ReleaseCommand := ⟨false, none, .promote, some "v1", none, none, none⟩

/-- The first selection of a release, cancelled while it begins, waits for its own lifecycle
lock. -/
theorem firstSelection_waitsForItself :
    ¬ NeverWaitsForItself cancelledOutcome (releaseControl firstSelection) := by
  rw [neverWaitsForItself_iff, releaseControl]
  change ¬ NeverReacquires cancelledOutcome [] (promoteRelease firstSelection "v1")
  rw [neverReacquires_promoteRelease]
  intro h
  have hadmitted : Admitted cancelledOutcome :=
    ⟨⟨rfl, rfl, rfl, rfl, rfl, trivial, none, rfl, rfl⟩, rfl, rfl⟩
  have hbegins : Begins cancelledOutcome "v1" :=
    ⟨⟨_, rfl, rfl, rfl⟩, rfl, rfl, rfl, rfl, rfl, rfl, rfl, rfl, rfl, ⟨none, rfl, rfl, rfl⟩, rfl⟩
  exact nomatch (h hadmitted ⟨false, rfl⟩ rfl hbegins).1

end DshNexus.Agent
