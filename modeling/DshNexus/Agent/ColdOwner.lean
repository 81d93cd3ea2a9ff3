import DshNexus.Agent.ColdOperation

/-!
# One owner for the record of the cold operation

What the record promises to its readers: one live operation, a phase that is final once it is
terminal, and no late task that touches the record of a successor.

* `OneOwner`: the invariant.
* `one_owner`: the promises hold in every run in which no `begin` passes the gate over a
  publication journal and no commit of a publication reports an error after it has finished the
  record.
* `lateSettlement_overwrites`: one run in which both happen, and a late settlement takes the
  record of the successor.
-/

namespace DshNexus.Agent

open Concurrent

variable {s s' : ColdCoordinator}

/-! ## The promises -/

def AtMostOneLive (s : ColdCoordinator) : Prop :=
  ∀ task task' value value', s.tasks.lookup task = some value → s.tasks.lookup task' = some value' →
    value.live.isSome = true → value'.live.isSome = true → task = task'

def ColdEvent.operation (s : ColdCoordinator) : ColdEvent → Option Nat
  | .check _ _ | .begin _ _ _ => none
  | .token task | .update task _ _ _ _ | .recordFoundationPlan task _ _ _
  | .recordCandidateRevision task _ _ | .publish task _ _ | .fail task _ _ | .settle task _
  | .release task => (s.tasks.lookup task).bind ColdTask.operation
  | .tail id _ _ | .signal id | .cancel id _ | .clearFinished id _ | .recoverExplicit id _ _ => some id
  | .maintain _ | .restart _ => s.intent.map (·.operation.operationId)

/-- The event may be that of a task that is older than the phase of the record. -/
def ColdEvent.mayBeLate : ColdEvent → Bool
  | .begin _ _ _ | .clearFinished _ _ | .recoverExplicit _ _ _ | .maintain _ | .restart _ => false
  | _ => true

/-- What a step promises to the owners of the record. -/
structure StepSound (s : ColdCoordinator) (event : ColdEvent) (s' : ColdCoordinator) : Prop where
  /-- an operation begins when the one before it is over, cleaned up and without processes -/
  begin_settled : ∀ task id fault, event = .begin task id fault →
    s'.tasks.lookup task = some (.owner id) → s.ownerActive = false ∧
      ∀ operation, s.record = some operation → operation.phase.isTerminal = true ∧
        operation.cleanupPending = false ∧ operation.ownerQuiescent = true
  /-- a terminal phase is final -/
  terminal_final : event.mayBeLate = true → ∀ operation, s.record = some operation →
    operation.phase.isTerminal = true →
      ∃ operation', s'.record = some operation' ∧ operation'.phase = operation.phase
  /-- the successor of an operation keeps its record, its owner and its token -/
  successor_kept : ∀ id, event.operation s = some id → ∀ operation, s.record = some operation →
    operation.operationId ≠ id → s'.record = s.record ∧ s'.ownerActive = s.ownerActive ∧
      ∀ cancelled, s.cancellation = some (operation.operationId, cancelled) →
        s'.cancellation = s.cancellation

/-- No `begin` passes the gate over a journal, and no commit reports an error after it has finished
the record. -/
def Guarded (s : ColdCoordinator) : ColdEvent → Prop
  | .begin _ _ _ => s.intent = none
  | .publish _ _ (.reported _) => False
  | _ => True

instance (s : ColdCoordinator) : DecidablePred (Guarded s) := fun event => by
  unfold Guarded
  split
  · infer_instance
  · exact isFalse id
  · exact isTrue trivial

/-! ## The record and the journal -/

/-- An operation that is over and cleaned up has no process; none waits for a confirmation. -/
def ColdOperation.Sound (operation : ColdOperation) : Prop :=
  (operation.phase.isTerminal = true → operation.cleanupPending = false →
    operation.ownerQuiescent = true) ∧ operation.phase ≠ .awaitingConfirmation

/-- The part of the invariant about the files. -/
structure RecordSound (s : ColdCoordinator) : Prop where
  /-- the journal is that of the record -/
  journal : ∀ intent, s.intent = some intent → ∃ operation, s.record = some operation ∧
    operation.operationId = intent.operation.operationId
  record : ∀ operation, s.record = some operation → operation.Sound

namespace ColdOperation

variable (operation : ColdOperation)

theorem sound_concluded {phase : ColdOperationPhase} (h : phase ≠ .awaitingConfirmation)
    (error : Option String) : (operation.concluded phase error).Sound :=
  ⟨fun _ _ => rfl, h⟩

theorem sound_failurePending (primary : String) (ownerQuiescent : Bool)
    (cleanupError : Option String) :
    (operation.failurePending primary ownerQuiescent cleanupError).Sound := by
  refine ⟨fun _ h => (nomatch h), ?_⟩
  unfold failurePending
  dsimp only
  split <;> decide

theorem sound_interrupted : operation.interrupted.Sound :=
  ⟨fun _ h => (nomatch h), fun h => nomatch h⟩

theorem sound_cleanedUp {operation : ColdOperation} (hquiescent : operation.ownerQuiescent = true)
    (hphase : operation.phase ≠ .awaitingConfirmation) (cleaned : Bool) :
    (operation.cleanedUp cleaned).Sound := by
  unfold cleanedUp
  split
  · exact ⟨fun _ _ => hquiescent, hphase⟩
  · exact ⟨fun _ _ => hquiescent, hphase⟩

theorem sound_retried {operation : ColdOperation} (hphase : operation.phase ≠ .awaitingConfirmation)
    (cleaned : Bool) : ({ operation with ownerQuiescent := true }.cleanedUp cleaned).Sound := by
  refine sound_cleanedUp ?_ ?_ cleaned
  · rfl
  · exact hphase

@[simp] theorem operationId_cleanedUp (cleaned : Bool) :
    (operation.cleanedUp cleaned).operationId = operation.operationId := by
  unfold cleanedUp
  split <;> rfl

@[simp] theorem phase_cleanedUp (cleaned : Bool) :
    (operation.cleanedUp cleaned).phase = operation.phase := by
  unfold cleanedUp
  split <;> rfl

end ColdOperation

theorem PublicationIntent.sound_reconciled (intent : PublicationIntent) :
    intent.reconciled.Sound := by
  unfold reconciled
  split
  · exact ColdOperation.sound_concluded _ (by decide) _
  split
  · refine ColdOperation.sound_concluded _ ?_ _
    split <;> decide
  · exact ColdOperation.sound_concluded _ (by decide) _

@[simp] theorem PublicationIntent.operationId_reconciled (intent : PublicationIntent) :
    intent.reconciled.operationId = intent.operation.operationId := by
  unfold reconciled
  split
  · rfl
  · split <;> rfl

namespace RecordSound

theorem put {operation : ColdOperation} (hsound : operation.Sound)
    (hrecord : s'.record = some operation) (hintent : ∀ intent, s'.intent = some intent →
      intent.operation.operationId = operation.operationId) : RecordSound s' := by
  refine ⟨fun intent hi => ⟨operation, hrecord, (hintent intent hi).symm⟩, fun other hother => ?_⟩
  obtain rfl := Option.some.inj (hrecord.symm.trans hother)
  exact hsound

theorem congr (h : RecordSound s) (hrecord : s'.record = s.record) (hintent : s'.intent = s.intent) :
    RecordSound s' :=
  ⟨by rw [hrecord, hintent]; exact h.journal, by rw [hrecord]; exact h.record⟩

theorem operationId_eq (h : RecordSound s) {operation : ColdOperation} {intent : PublicationIntent}
    (hrecord : s.record = some operation) (hintent : s.intent = some intent) :
    intent.operation.operationId = operation.operationId := by
  obtain ⟨other, hother, hid⟩ := h.journal intent hintent
  rw [← hid, Option.some.inj (hother.symm.trans hrecord)]

theorem write (h : RecordSound s) {operation operation' : ColdOperation}
    (hrecord : s.record = some operation) (hid : operation'.operationId = operation.operationId)
    (hsound : operation'.Sound) (fault : WriteFault) : RecordSound (s.write operation' fault) := by
  unfold ColdCoordinator.write
  split
  · refine put hsound rfl fun intent hi => ?_
    rw [hid]
    exact h.operationId_eq hrecord hi
  · exact h

theorem writeDetail (h : RecordSound s) {operation operation' : ColdOperation}
    (hrecord : s.record = some operation) (hid : operation'.operationId = operation.operationId)
    (hphase : operation'.phase = operation.phase)
    (hcleanup : operation'.cleanupPending = operation.cleanupPending)
    (hquiescent : operation'.ownerQuiescent = operation.ownerQuiescent) (fault : WriteFault) :
    RecordSound (s.write operation' fault) := by
  refine h.write hrecord hid ?_ fault
  rw [ColdOperation.Sound, hphase, hcleanup, hquiescent]
  exact h.record operation hrecord

theorem failTask (h : RecordSound s) (task id : Nat) (primary : String) :
    RecordSound (s.failTask task id primary) := h.congr rfl rfl

/-- A change that `record_foundation_plan` or `record_candidate_revision` makes. -/
def IsDetail (change : ColdOperation → ColdOperation) : Prop :=
  ∀ operation, (change operation).operationId = operation.operationId ∧
    (change operation).phase = operation.phase ∧
    (change operation).cleanupPending = operation.cleanupPending ∧
    (change operation).ownerQuiescent = operation.ownerQuiescent

theorem refreshTail (h : RecordSound s) (id : Nat) (text : String) (fault : WriteFault) :
    RecordSound (s.refreshTail id text fault) := by
  unfold ColdCoordinator.refreshTail
  split
  · exact h
  next operation hrecord =>
  split
  · exact h
  · exact h.writeDetail hrecord (by rfl) (by rfl) (by rfl) (by rfl) fault

theorem writeFailurePending (h : RecordSound s) (id : Nat) (primary : String)
    (ownerQuiescent : Bool) (fault : WriteFault) :
    RecordSound (s.writeFailurePending id primary ownerQuiescent fault) := by
  unfold ColdCoordinator.writeFailurePending
  split
  · exact h
  next operation hrecord =>
  split
  · exact h.write hrecord (by rfl) (operation.sound_failurePending ..) fault
  · exact h

theorem writeTwice (h : RecordSound s) {operation first second : ColdOperation}
    (hrecord : s.record = some operation) (hfirst : first.operationId = operation.operationId)
    (hsecond : second.operationId = operation.operationId) (hsound : first.Sound)
    (hsound' : second.Sound) (fault fault' : WriteFault) :
    RecordSound ((s.write first fault).write second fault') := by
  cases happlies : fault.applies
  · have hsame : s.write first fault = s := by rw [ColdCoordinator.write, if_neg (by simp [happlies])]
    rw [hsame]
    exact h.write hrecord hsecond hsound' fault'
  · have hwritten : (s.write first fault).record = some first := by
      rw [ColdCoordinator.write, if_pos happlies]
    exact (h.write hrecord hfirst hsound fault).write hwritten (hsecond.trans hfirst.symm) hsound'
      fault'

theorem writeSettledFailure (h : RecordSound s) (id : Nat) (primary : String) (failure : WriteFault)
    (cleaned : Bool) (cleanup : WriteFault) :
    RecordSound (s.writeSettledFailure id primary failure cleaned cleanup) := by
  unfold ColdCoordinator.writeSettledFailure
  split
  · exact h
  next operation hrecord =>
  split
  · have hpending := operation.sound_failurePending primary true none
    dsimp only
    split
    · have hcleaned := ColdOperation.sound_cleanedUp (by rfl) hpending.2 cleaned
      refine h.writeTwice hrecord (by rfl) ?_ hpending hcleaned failure cleanup
      exact ColdOperation.operationId_cleanedUp ..
    · exact h.write hrecord (by rfl) hpending failure
  · exact h

theorem reconciled {intent : PublicationIntent} (hrecord : s'.record = some intent.reconciled)
    (hintent : ∀ other, s'.intent = some other →
      other.operation.operationId = intent.operation.operationId) : RecordSound s' :=
  put intent.sound_reconciled hrecord fun other hother => by
    rw [hintent other hother, PublicationIntent.operationId_reconciled]

theorem recoverPublication (h : RecordSound s) (outcome : PublicationRecovery) :
    RecordSound (s.recoverPublication outcome).1 := by
  unfold ColdCoordinator.recoverPublication
  split
  · exact h
  next intent hintent =>
  split
  · exact h
  · refine reconciled rfl fun other hother => ?_
    dsimp only at hother
    split at hother
    · rw [Option.some.inj hother]
    · exact nomatch hother
  · exact reconciled rfl fun _ hother => nomatch hother

theorem recoverCleanup (h : RecordSound s) {operation : ColdOperation}
    (hrecord : s.record = some operation) (hphase : operation.phase ≠ .awaitingConfirmation)
    (outcome : RecoverOutcome) : RecordSound (s.recoverCleanup operation outcome) := by
  unfold ColdCoordinator.recoverCleanup
  split
  · exact h.write hrecord (by rw [ColdOperation.operationId_cleanedUp])
      (ColdOperation.sound_retried hphase outcome.cleaned) outcome.cleanup
  · exact h

theorem recoverRecord (h : RecordSound s) (outcome : RecoverOutcome) :
    RecordSound (s.recoverRecord outcome) := by
  unfold ColdCoordinator.recoverRecord
  split
  · exact h
  next operation hrecord =>
  split
  · have hwrite : RecordSound (s.write operation.interrupted outcome.interrupted) :=
      h.write hrecord (by rfl) operation.sound_interrupted outcome.interrupted
    dsimp only
    split
    · next hnone =>
      refine hwrite.recoverCleanup ?_ operation.sound_interrupted.2 outcome
      rw [hnone]
      rfl
    · exact hwrite
  · exact h.recoverCleanup hrecord (h.record operation hrecord).2 outcome

theorem recover (h : RecordSound s) (outcome : RecoverOutcome) : RecordSound (s.recover outcome) := by
  unfold ColdCoordinator.recover
  have hpruned : RecordSound (if outcome.uninstalled = true ∧ s.isFinishedHistory = true then
      { s with record := none } else s) := by
    split
    · next hforget =>
      have hnone : s.intent = none := by
        have hhistory := hforget.2
        rw [ColdCoordinator.isFinishedHistory, Bool.and_eq_true, Bool.and_eq_true] at hhistory
        exact Option.isNone_iff_eq_none.mp hhistory.1.1
      exact ⟨fun intent hi => (nomatch hnone.symm.trans hi), fun _ hr => nomatch hr⟩
    · exact h
  dsimp only
  split
  · exact hpruned
  have hpublication := hpruned.recoverPublication outcome.publication
  split
  · next hresult => rwa [hresult] at hpublication
  · next hresult =>
    rw [hresult] at hpublication
    exact hpublication.recoverRecord outcome

theorem signalCancel (h : RecordSound s) (id : Nat) : RecordSound (s.signalCancel id) := by
  unfold ColdCoordinator.signalCancel
  split
  · split
    · exact h.congr rfl rfl
    · exact h
  · exact h

theorem cancelTerminal (h : RecordSound s) {operation : ColdOperation}
    (hrecord : s.record = some operation) (outcome : CancelOutcome) :
    RecordSound (s.cancelTerminal operation outcome) := by
  unfold ColdCoordinator.cancelTerminal
  split
  · exact h
  split
  · have hcleaned := ColdOperation.sound_retried (h.record operation hrecord).2 outcome.cleaned
    have hwrite := h.write hrecord (by rw [ColdOperation.operationId_cleanedUp]) hcleaned
      outcome.write
    dsimp only
    split
    · exact hwrite.congr rfl rfl
    · exact hwrite
  split
  · exact h.congr rfl rfl
  · exact h

theorem cancel (h : RecordSound s) (id : Nat) (outcome : CancelOutcome) :
    RecordSound (s.cancel id outcome) := by
  unfold ColdCoordinator.cancel
  split
  · exact h
  next operation hrecord =>
  split
  · exact h
  split
  · exact h.cancelTerminal hrecord outcome
  · have hsame : operation.cancelRunning outcome.cleaned = { operation with phase := .cancelling } := by
      rw [ColdOperation.cancelRunning, if_neg (h.record operation hrecord).2]
    have hsignal : (s.signalCancel id).record = some operation := by
      unfold ColdCoordinator.signalCancel
      split
      · split <;> exact hrecord
      · exact hrecord
    rw [hsame]
    refine (h.signalCancel id).write hsignal (by rfl) ⟨?_, ?_⟩ outcome.write
    · exact fun hterminal => nomatch hterminal
    · exact fun hphase => nomatch hphase

theorem clearFinished (h : RecordSound s) (id : Nat) (fault : WriteFault) :
    RecordSound (s.clearFinished id fault) := by
  unfold ColdCoordinator.clearFinished
  split
  · exact h
  split
  · exact h
  split
  · exact h
  next hfinished =>
  split
  · have hnone : s.intent = none := by
      rw [not_or, not_or, not_or] at hfinished
      simpa using hfinished.2.2.2
    exact ⟨fun intent hi => (nomatch hnone.symm.trans hi), fun _ hr => nomatch hr⟩
  · exact h

theorem recoverExplicit (h : RecordSound s) (id : Nat) (preserveCurrent : Bool)
    (outcome : PublicationRecovery) : RecordSound (s.recoverExplicit id preserveCurrent outcome) := by
  unfold ColdCoordinator.recoverExplicit
  split
  · exact h
  next intent hintent =>
  split
  · exact h
  have hjournal : RecordSound { s with intent := some { intent with
      preserveCurrent := intent.preserveCurrent || preserveCurrent } } := by
    refine ⟨fun other hother => ?_, h.record⟩
    rw [← Option.some.inj hother]
    exact h.journal intent hintent
  exact hjournal.recoverPublication outcome

theorem settle (h : RecordSound s) {id : Nat} {primary : String} {ownerQuiescent : Bool}
    {outcome : SettleOutcome} (hs : s.settle id primary ownerQuiescent outcome = some s') :
    RecordSound s' := by
  unfold ColdCoordinator.settle at hs
  split at hs
  · rw [← Option.some.inj hs]
    exact h
  · rw [← Option.some.inj hs]
    exact h.writeFailurePending ..
  · split at hs
    · next recordWritten journalKept fault _ _ intent hintent =>
      rw [← Option.some.inj hs]
      refine RecordSound.writeFailurePending ?_ ..
      cases recordWritten
      · exact h.congr rfl hintent.symm
      · refine reconciled rfl fun other hother => ?_
        dsimp only at hother
        split at hother
        · exact nomatch hother
        · rw [Option.some.inj hother]
    · exact nomatch hs
  · split at hs
    · exact nomatch hs
    · rw [← Option.some.inj hs]
      exact h.writeSettledFailure ..
    · next intent hintent =>
      have hfinished : RecordSound ({ s with record := some intent.reconciled, intent := none }) :=
        reconciled rfl fun _ hother => nomatch hother
      dsimp only at hs
      split at hs
      · rw [← Option.some.inj hs]
        exact hfinished
      · rw [← Option.some.inj hs]
        exact hfinished.writeSettledFailure ..

theorem releaseSettledOwner (h : RecordSound s) (id : Nat) :
    RecordSound (s.releaseSettledOwner id) := by
  unfold ColdCoordinator.releaseSettledOwner
  split
  · exact h.congr rfl rfl
  · exact h

theorem beginOperation (h : RecordSound s) (hintent : s.intent = none) (task id : Nat) (kind : String)
    (fault : WriteFault) : RecordSound (s.beginOperation task id kind fault) := by
  have hqueued : (queuedOperation id kind).Sound := ⟨fun h => (nomatch h), fun h => nomatch h⟩
  unfold ColdCoordinator.beginOperation
  split
  · exact h.congr rfl rfl
  split
  · exact h.congr rfl rfl
  have hnone : ∀ {intent}, s.intent = some intent → False := fun hi => nomatch hintent.symm.trans hi
  cases fault with
  | none => exact put hqueued rfl fun intent hi => (hnone hi).elim
  | before => exact h.congr rfl rfl
  | after => exact put hqueued rfl fun intent hi => (hnone hi).elim

theorem publish (h : RecordSound s) {operation : ColdOperation} {id : Nat}
    (hrecord : s.record = some operation) (hid : operation.operationId = id) (task : Nat)
    (site : PublicationSite) (outcome : PublicationOutcome) :
    RecordSound (s.publish task id site outcome) := by
  have hjournal : ∀ committed, (s.journal id site committed).operation.operationId = id := by
    intro committed
    unfold ColdCoordinator.journal ColdCoordinator.journalOperation
    cases site
    · simp [ColdCoordinator.registered, hrecord, hid]
    · simp [hrecord, hid]
    · rfl
  have hregistered : ∃ registered, s.registered site = some registered ∧
      registered.operationId = id ∧ registered.Sound := by
    unfold ColdCoordinator.registered
    cases site
    · refine ⟨{ operation with phase := .registering, progressPercent := 90 }, ?_, hid, ?_, ?_⟩
      · rw [hrecord]
        rfl
      · exact fun hterminal => nomatch hterminal
      · exact fun hphase => nomatch hphase
    · exact ⟨operation, hrecord, hid, h.record operation hrecord⟩
    · exact ⟨operation, hrecord, hid, h.record operation hrecord⟩
  obtain ⟨registered, hregistered, hregisteredId, hsound⟩ := hregistered
  cases outcome with
  | stopped written =>
    cases written
    · exact h.congr rfl rfl
    · refine put hsound hregistered fun intent hi => ?_
      rw [hregisteredId, ← hid]
      exact h.operationId_eq hrecord hi
  | journaled committed =>
    refine put hsound hregistered fun intent hi => ?_
    rw [hregisteredId, ← Option.some.inj hi, hjournal]
  | reported journalKept =>
    refine reconciled rfl fun other hother => ?_
    unfold ColdCoordinator.publish at hother
    dsimp only at hother
    split at hother
    · rw [Option.some.inj hother]
    · exact nomatch hother
  | done => exact reconciled rfl fun _ hother => nomatch hother

end RecordSound

/-! ## The live operation -/

structure OneOwner (s : ColdCoordinator) : Prop where
  files : RecordSound s
  /-- the record is that of the live operation, and it is not over -/
  live : ∀ task value id, s.tasks.lookup task = some value → value.live = some id →
    s.ownerActive = true ∧ ∃ operation, s.record = some operation ∧ operation.operationId = id ∧
      operation.phase.isTerminal = false
  unique : AtMostOneLive s

def NoLive (s : ColdCoordinator) : Prop :=
  ∀ task value, s.tasks.lookup task = some value → value.live = none

/-- The tasks that work for an operation did so before. -/
def LiveWithin (s s' : ColdCoordinator) : Prop :=
  ∀ task value id, s'.tasks.lookup task = some value → value.live = some id →
    ∃ value, s.tasks.lookup task = some value ∧ value.live = some id

def RunningKept (s s' : ColdCoordinator) : Prop :=
  ∀ operation, s.record = some operation → operation.phase.isTerminal = false →
    ∃ operation', s'.record = some operation' ∧ operation'.operationId = operation.operationId ∧
      operation'.phase.isTerminal = false

theorem LiveWithin.of_tasks (h : s'.tasks = s.tasks) : LiveWithin s s' :=
  fun _ value _ hlookup hlive => ⟨value, h ▸ hlookup, hlive⟩

theorem LiveWithin.of_insert {task id : Nat} {value value' : ColdTask}
    (htasks : s'.tasks = s.tasks.insert task value') (hlookup : s.tasks.lookup task = some value)
    (hlive : value.live = some id) (hlive' : value'.live = some id ∨ value'.live = none) :
    LiveWithin s s' := by
  intro other found other_id hfound hid
  rw [htasks, Table.lookup_insert] at hfound
  split at hfound
  · next heq =>
    obtain rfl := Option.some.inj hfound
    rcases hlive' with hsame | hnone
    · exact ⟨value, heq ▸ hlookup, by rw [hlive, ← hsame, hid]⟩
    · exact nomatch hnone.symm.trans hid
  · exact ⟨found, hfound, hid⟩

theorem RunningKept.of_record (h : s'.record = s.record) : RunningKept s s' :=
  fun operation hrecord hrunning => ⟨operation, h ▸ hrecord, rfl, hrunning⟩

theorem RunningKept.write {operation operation' : ColdOperation} (hrecord : s.record = some operation)
    (hid : operation'.operationId = operation.operationId)
    (hrunning : operation'.phase.isTerminal = false) (fault : WriteFault) :
    RunningKept s (s.write operation' fault) := by
  intro other hother hterminal
  obtain rfl := Option.some.inj (hrecord.symm.trans hother)
  unfold ColdCoordinator.write
  split
  · exact ⟨operation', rfl, hid, hrunning⟩
  · exact ⟨operation, hrecord, rfl, hterminal⟩

namespace OneOwner

theorem of_noLive (hfiles : RecordSound s) (h : NoLive s) : OneOwner s := by
  refine ⟨hfiles, fun task value id hlookup hlive => ?_, fun task task' value value' hlookup _ hlive _ => ?_⟩
  · exact nomatch (h task value hlookup).symm.trans hlive
  · rw [h task value hlookup] at hlive
    exact nomatch hlive

theorem noLive_of_inactive (h : OneOwner s) (hactive : s.ownerActive = false) : NoLive s := by
  intro task value hlookup
  rw [Option.eq_none_iff_forall_not_mem]
  intro id hlive
  exact nomatch hactive.symm.trans (h.live task value id hlookup hlive).1

theorem noLive_of_terminal (h : OneOwner s) {operation : ColdOperation}
    (hrecord : s.record = some operation) (hterminal : operation.phase.isTerminal = true) :
    NoLive s := by
  intro task value hlookup
  rw [Option.eq_none_iff_forall_not_mem]
  intro id hlive
  obtain ⟨-, other, hother, -, hrunning⟩ := h.live task value id hlookup hlive
  obtain rfl := Option.some.inj (hrecord.symm.trans hother)
  exact nomatch hterminal.symm.trans hrunning

theorem change (h : OneOwner s) (hfiles : RecordSound s') (htasks : LiveWithin s s')
    (hactive : s'.ownerActive = s.ownerActive) (hrecord : RunningKept s s') : OneOwner s' := by
  refine ⟨hfiles, fun task value id hlookup hlive => ?_, ?_⟩
  · obtain ⟨value', hlookup', hlive'⟩ := htasks task value id hlookup hlive
    obtain ⟨howner, operation, hoperation, hid, hrunning⟩ := h.live task value' id hlookup' hlive'
    obtain ⟨operation', hoperation', hid', hrunning'⟩ := hrecord operation hoperation hrunning
    exact ⟨by rw [hactive, howner], operation', hoperation', by rw [hid', hid], hrunning'⟩
  · intro task task' value value' hlookup hlookup' hlive hlive'
    obtain ⟨id, hid⟩ := Option.isSome_iff_exists.mp hlive
    obtain ⟨id', hid'⟩ := Option.isSome_iff_exists.mp hlive'
    obtain ⟨found, hfound, hfoundId⟩ := htasks task value id hlookup hid
    obtain ⟨found', hfound', hfoundId'⟩ := htasks task' value' id' hlookup' hid'
    exact h.unique task task' found found' hfound hfound' (by rw [hfoundId]; rfl)
      (by rw [hfoundId']; rfl)

end OneOwner

theorem NoLive.congr (h : NoLive s) (htasks : s'.tasks = s.tasks) : NoLive s' :=
  fun task value hlookup => h task value (htasks ▸ hlookup)

theorem NoLive.erase (h : NoLive s) {task : Nat} (htasks : s'.tasks = s.tasks.erase task) :
    NoLive s' := by
  intro other value hlookup
  rw [htasks, Table.lookup_erase] at hlookup
  split at hlookup
  · exact nomatch hlookup
  · exact h other value hlookup

/-! ### The tasks of a step -/

@[simp] theorem tasks_write (operation : ColdOperation) (fault : WriteFault) :
    (s.write operation fault).tasks = s.tasks := by
  unfold ColdCoordinator.write
  split <;> rfl

@[simp] theorem ownerActive_write (operation : ColdOperation) (fault : WriteFault) :
    (s.write operation fault).ownerActive = s.ownerActive := by
  unfold ColdCoordinator.write
  split <;> rfl

@[simp] theorem tasks_writeFailurePending (id : Nat) (primary : String) (ownerQuiescent : Bool)
    (fault : WriteFault) :
    (s.writeFailurePending id primary ownerQuiescent fault).tasks = s.tasks := by
  unfold ColdCoordinator.writeFailurePending
  split
  · rfl
  · split
    · exact tasks_write ..
    · rfl

@[simp] theorem tasks_writeSettledFailure (id : Nat) (primary : String) (failure : WriteFault)
    (cleaned : Bool) (cleanup : WriteFault) :
    (s.writeSettledFailure id primary failure cleaned cleanup).tasks = s.tasks := by
  unfold ColdCoordinator.writeSettledFailure
  split
  · rfl
  · split
    · dsimp only
      split <;> simp
    · rfl

theorem tasks_settle {id : Nat} {primary : String} {ownerQuiescent : Bool} {outcome : SettleOutcome}
    (hs : s.settle id primary ownerQuiescent outcome = some s') : s'.tasks = s.tasks := by
  unfold ColdCoordinator.settle at hs
  split at hs
  · rw [← Option.some.inj hs]
  · rw [← Option.some.inj hs, tasks_writeFailurePending]
  · split at hs
    · rw [← Option.some.inj hs]
      exact tasks_writeFailurePending ..
    · exact nomatch hs
  · split at hs
    · exact nomatch hs
    · rw [← Option.some.inj hs, tasks_writeSettledFailure]
    · dsimp only at hs
      split at hs
      · rw [← Option.some.inj hs]
      · rw [← Option.some.inj hs]
        exact tasks_writeSettledFailure ..

@[simp] theorem tasks_recoverPublication (outcome : PublicationRecovery) :
    (s.recoverPublication outcome).1.tasks = s.tasks := by
  unfold ColdCoordinator.recoverPublication
  split
  · rfl
  · split <;> rfl

@[simp] theorem tasks_recoverCleanup (operation : ColdOperation) (outcome : RecoverOutcome) :
    (s.recoverCleanup operation outcome).tasks = s.tasks := by
  unfold ColdCoordinator.recoverCleanup
  split
  · exact tasks_write ..
  · rfl

@[simp] theorem tasks_recoverRecord (outcome : RecoverOutcome) :
    (s.recoverRecord outcome).tasks = s.tasks := by
  unfold ColdCoordinator.recoverRecord
  split
  · rfl
  · split
    · dsimp only
      split <;> simp
    · exact tasks_recoverCleanup ..

@[simp] theorem tasks_recover (outcome : RecoverOutcome) : (s.recover outcome).tasks = s.tasks := by
  unfold ColdCoordinator.recover
  have hpruned : (if outcome.uninstalled = true ∧ s.isFinishedHistory = true then
      { s with record := none } else s).tasks = s.tasks := by split <;> rfl
  dsimp only
  split
  · exact hpruned
  · split
    · next hresult =>
      have htasks := congrArg (fun result => result.1.tasks) hresult
      exact (htasks.symm.trans (tasks_recoverPublication _)).trans hpruned
    · next hresult =>
      have htasks := congrArg (fun result => result.1.tasks) hresult
      rw [tasks_recoverRecord]
      exact (htasks.symm.trans (tasks_recoverPublication _)).trans hpruned

theorem tasks_cancelTerminal (operation : ColdOperation) (outcome : CancelOutcome) :
    (s.cancelTerminal operation outcome).tasks = s.tasks := by
  unfold ColdCoordinator.cancelTerminal
  split
  · rfl
  split
  · dsimp only
    split <;> simp
  split <;> rfl

/-! ### Every step keeps the invariant -/

namespace OneOwner

theorem failTask (h : OneOwner s) {task id : Nat} (hlookup : s.tasks.lookup task = some (.owner id))
    (primary : String) : OneOwner (s.failTask task id primary) :=
  h.change (h.files.failTask ..) (.of_insert rfl hlookup rfl (Or.inl rfl)) rfl (.of_record rfl)

theorem writeOwned (h : OneOwner s) {task id : Nat} (hlookup : s.tasks.lookup task = some (.owner id))
    {operation operation' : ColdOperation} (hrecord : s.record = some operation)
    (hid : operation'.operationId = operation.operationId)
    (hrunning : operation'.phase.isTerminal = false) (hsound : operation'.Sound) (fault : WriteFault)
    (primary : String) : OneOwner (if fault = .none then s.write operation' fault
      else (s.write operation' fault).failTask task id primary) := by
  have hwrite := h.files.write hrecord hid hsound fault
  have hkept := RunningKept.write hrecord hid hrunning fault
  split
  · exact h.change hwrite (.of_tasks (tasks_write ..)) (ownerActive_write ..) hkept
  · refine h.change (hwrite.failTask ..) ?_ (ownerActive_write ..) hkept
    have htasks : ((s.write operation' fault).failTask task id primary).tasks
        = s.tasks.insert task (.failed id primary true) := by
      rw [ColdCoordinator.failTask, tasks_write]
    exact .of_insert htasks hlookup rfl (Or.inl rfl)

theorem update (h : OneOwner s) {task id : Nat} (hlookup : s.tasks.lookup task = some (.owner id))
    {phase : ColdOperationPhase} (hphase : phase ∈ ColdCoordinator.updatePhases) (progress : Nat)
    (error : Option String) (fault : WriteFault) :
    OneOwner (s.update task id phase progress error fault) := by
  have hrunning : phase.isTerminal = false ∧ phase ≠ .awaitingConfirmation := by
    revert hphase
    cases phase <;> decide
  unfold ColdCoordinator.update
  split
  · exact h.failTask hlookup _
  next operation hrecord =>
  split
  · exact h.failTask hlookup _
  split
  · exact h.failTask hlookup _
  · refine h.writeOwned hlookup hrecord ?_ hrunning.1 ⟨fun hterminal => ?_, hrunning.2⟩ fault _
    · rfl
    · exact nomatch hrunning.1.symm.trans hterminal

theorem recordDetail (h : OneOwner s) {task id : Nat}
    (hlookup : s.tasks.lookup task = some (.owner id)) {change : ColdOperation → ColdOperation}
    (hchange : RecordSound.IsDetail change) (fault : WriteFault) :
    OneOwner (s.recordDetail task id change fault) := by
  obtain ⟨-, operation, hrecord, hid, hrunning⟩ := h.live task _ id hlookup rfl
  obtain ⟨hid', hphase, hcleanup, hquiescent⟩ := hchange operation
  unfold ColdCoordinator.recordDetail
  rw [hrecord]
  dsimp only
  rw [if_neg (not_not.mpr hid)]
  refine h.writeOwned hlookup hrecord hid' (by rw [hphase, hrunning]) ?_ fault _
  rw [ColdOperation.Sound, hphase, hcleanup, hquiescent]
  exact h.files.record operation hrecord

theorem publish (h : OneOwner s) {task id : Nat} (hlookup : s.tasks.lookup task = some (.owner id))
    (site : PublicationSite) {outcome : PublicationOutcome}
    (hguarded : ∀ journalKept, outcome ≠ .reported journalKept) :
    OneOwner (s.publish task id site outcome) := by
  obtain ⟨-, operation, hrecord, hid, hrunning⟩ := h.live task _ id hlookup rfl
  have hfiles := h.files.publish hrecord hid task site outcome
  have hregistered : ∃ registered, s.registered site = some registered ∧
      registered.operationId = operation.operationId ∧ registered.phase.isTerminal = false := by
    unfold ColdCoordinator.registered
    cases site
    · exact ⟨{ operation with phase := .registering, progressPercent := 90 },
        by rw [hrecord]; rfl, rfl, rfl⟩
    · exact ⟨operation, hrecord, rfl, hrunning⟩
    · exact ⟨operation, hrecord, rfl, hrunning⟩
  have hkept : ∀ {s'}, s'.record = s.registered site → RunningKept s s' := by
    intro s' hs' other hother _
    obtain rfl := Option.some.inj (hrecord.symm.trans hother)
    rw [hs']
    exact hregistered
  cases outcome with
  | stopped written =>
    refine h.change hfiles (.of_insert rfl hlookup rfl (Or.inl rfl)) rfl ?_
    cases written
    · exact .of_record rfl
    · exact hkept rfl
  | journaled committed =>
    exact h.change hfiles (.of_insert rfl hlookup rfl (Or.inl rfl)) rfl (hkept rfl)
  | reported journalKept => exact absurd rfl (hguarded journalKept)
  | done =>
    refine .of_noLive hfiles fun other value hother => ?_
    rw [ColdCoordinator.publish, Table.lookup_insert] at hother
    split at hother
    · rw [← Option.some.inj hother]
      rfl
    · next hne =>
      rw [Option.eq_none_iff_forall_not_mem]
      intro other_id hlive
      exact hne (h.unique other task value _ hother hlookup (Option.isSome_of_mem hlive) rfl)

theorem noLive_of_settled (h : OneOwner s) {task id : Nat} {value : ColdTask}
    (hlookup : s.tasks.lookup task = some value) (hlive : value.live = some id) :
    NoLive { s with tasks := s.tasks.insert task (.settled id) } := by
  intro other found hfound
  rw [Table.lookup_insert] at hfound
  split at hfound
  · rw [← Option.some.inj hfound]
    rfl
  · next hne =>
    rw [Option.eq_none_iff_forall_not_mem]
    intro other_id hid
    exact hne (h.unique other task found value hfound hlookup (Option.isSome_of_mem hid)
      (by rw [hlive]; rfl))

theorem settle (h : OneOwner s) {task id : Nat} {primary : String} {ownerQuiescent : Bool}
    (hlookup : s.tasks.lookup task = some (.failed id primary ownerQuiescent))
    {outcome : SettleOutcome}
    (hs : ({ s with tasks := s.tasks.insert task (.settled id) } : ColdCoordinator).settle id primary
      ownerQuiescent outcome = some s') : OneOwner s' := by
  have hfiles : RecordSound { s with tasks := s.tasks.insert task (.settled id) } :=
    h.files.congr rfl rfl
  exact .of_noLive (hfiles.settle hs) ((h.noLive_of_settled hlookup rfl).congr (tasks_settle hs))

theorem beginOperation (h : OneOwner s) (hintent : s.intent = none) (task id : Nat) (kind : String)
    (fault : WriteFault) : OneOwner (s.beginOperation task id kind fault) := by
  have hfiles := h.files.beginOperation hintent task id kind fault
  revert hfiles
  unfold ColdCoordinator.beginOperation
  have hend : LiveWithin s (s.endTask task) := by
    intro other value other_id hother hlive
    rw [ColdCoordinator.endTask, Table.lookup_erase] at hother
    split at hother
    · exact nomatch hother
    · exact ⟨value, hother, hlive⟩
  split
  · exact fun hfiles => h.change hfiles hend rfl (.of_record rfl)
  next hactive =>
  split
  · exact fun hfiles => h.change hfiles hend rfl (.of_record rfl)
  have hnone := h.noLive_of_inactive (Bool.not_eq_true _ ▸ hactive)
  cases fault with
  | none =>
    refine fun hfiles => ⟨hfiles, fun other value other_id hother hlive => ?_, ?_⟩
    · rw [Table.lookup_insert] at hother
      split at hother
      · rw [← Option.some.inj hother] at hlive
        exact ⟨rfl, queuedOperation id kind, rfl, Option.some.inj hlive, rfl⟩
      · exact nomatch (hnone other value hother).symm.trans hlive
    · -- the new owner is the only one
      intro other other' value value' hother hother' hlive hlive'
      rw [Table.lookup_insert] at hother hother'
      split at hother
      · next heq =>
        split at hother'
        · next heq' => rw [heq, heq']
        · rw [hnone other' value' hother'] at hlive'
          exact nomatch hlive'
      · rw [hnone other value hother] at hlive
        exact nomatch hlive
  | before => exact fun hfiles => h.change hfiles hend rfl (.of_record rfl)
  | after => exact fun hfiles => .of_noLive hfiles (hnone.erase rfl)

theorem refreshTail (h : OneOwner s) (id : Nat) (text : String) (fault : WriteFault) :
    OneOwner (s.refreshTail id text fault) := by
  have hfiles := h.files.refreshTail id text fault
  revert hfiles
  unfold ColdCoordinator.refreshTail
  split
  · exact fun _ => h
  next operation hrecord =>
  split
  · exact fun _ => h
  next hrunning =>
  rw [not_or, Bool.not_eq_true] at hrunning
  refine fun hfiles => h.change hfiles (.of_tasks (tasks_write ..)) (ownerActive_write ..)
    (.write hrecord (by rfl) ?_ fault)
  exact hrunning.2

theorem signalCancel (h : OneOwner s) (id : Nat) : OneOwner (s.signalCancel id) := by
  have hfiles := h.files.signalCancel id
  revert hfiles
  unfold ColdCoordinator.signalCancel
  split
  · split
    · exact fun hfiles => h.change hfiles (.of_tasks rfl) rfl (.of_record rfl)
    · exact fun _ => h
  · exact fun _ => h

theorem cancel (h : OneOwner s) (id : Nat) (outcome : CancelOutcome) :
    OneOwner (s.cancel id outcome) := by
  have hfiles := h.files.cancel id outcome
  revert hfiles
  unfold ColdCoordinator.cancel
  split
  · exact fun _ => h
  next operation hrecord =>
  split
  · exact fun _ => h
  split
  · next hterminal =>
    exact fun hfiles => .of_noLive hfiles
      ((h.noLive_of_terminal hrecord hterminal).congr (tasks_cancelTerminal ..))
  · have hsignal := h.signalCancel id
    have hsame : (s.signalCancel id).record = s.record := by
      unfold ColdCoordinator.signalCancel
      split
      · split <;> rfl
      · rfl
    have hcancelling : operation.cancelRunning outcome.cleaned =
        { operation with phase := .cancelling } := by
      rw [ColdOperation.cancelRunning, if_neg (h.files.record operation hrecord).2]
    rw [hcancelling]
    exact fun hfiles => hsignal.change hfiles (.of_tasks (tasks_write ..)) (ownerActive_write ..)
      (.write (hsame.trans hrecord) (by rfl) (by rfl) outcome.write)

theorem clearFinished (h : OneOwner s) (id : Nat) (fault : WriteFault) :
    OneOwner (s.clearFinished id fault) := by
  have hfiles := h.files.clearFinished id fault
  revert hfiles
  unfold ColdCoordinator.clearFinished
  split
  · exact fun _ => h
  next operation hrecord =>
  split
  · exact fun _ => h
  split
  · exact fun _ => h
  next hfinished =>
  split
  · rw [not_or, Bool.not_eq_false] at hfinished
    exact fun hfiles => .of_noLive hfiles ((h.noLive_of_terminal hrecord hfinished.1).congr rfl)
  · exact fun _ => h

theorem recoverExplicit (h : OneOwner s) (id : Nat) (preserveCurrent : Bool)
    (outcome : PublicationRecovery) : OneOwner (s.recoverExplicit id preserveCurrent outcome) := by
  have hfiles := h.files.recoverExplicit id preserveCurrent outcome
  revert hfiles
  unfold ColdCoordinator.recoverExplicit
  split
  · exact fun _ => h
  split
  · exact fun _ => h
  next hidle =>
  rw [not_or, Bool.not_eq_true] at hidle
  exact fun hfiles => .of_noLive hfiles
    ((h.noLive_of_inactive hidle.1).congr (tasks_recoverPublication outcome))

theorem maintain (h : OneOwner s) (outcome : RecoverOutcome) : OneOwner (s.maintain outcome) := by
  unfold ColdCoordinator.maintain
  split
  · next hidle =>
    exact .of_noLive (h.files.recover outcome)
      ((h.noLive_of_inactive hidle.1).congr (tasks_recover outcome))
  · exact h

theorem restart (h : OneOwner s) (outcome : RecoverOutcome) : OneOwner (s.stopped.recover outcome) := by
  have hfiles : RecordSound s.stopped := h.files.congr rfl rfl
  exact .of_noLive (hfiles.recover outcome) fun task value hlookup => by
    rw [tasks_recover] at hlookup
    exact nomatch hlookup

theorem release (h : OneOwner s) (task id : Nat) :
    OneOwner ((s.releaseSettledOwner id).endTask task) := by
  have hfiles : RecordSound ((s.releaseSettledOwner id).endTask task) :=
    (h.files.releaseSettledOwner id).congr rfl rfl
  revert hfiles
  unfold ColdCoordinator.releaseSettledOwner
  split
  · next hsettled =>
    obtain ⟨operation, hrecord, hover⟩ := (Option.any_eq_true _ _).mp hsettled
    have hphase := (h.files.record operation hrecord).2
    have hterminal : operation.phase.isTerminal = true := by
      simp only [Bool.and_eq_true, Bool.or_eq_true, decide_eq_true_eq] at hover
      exact hover.2.resolve_right hphase
    exact fun hfiles => .of_noLive hfiles ((h.noLive_of_terminal hrecord hterminal).erase rfl)
  · refine fun hfiles => h.change hfiles ?_ rfl (.of_record rfl)
    intro other value other_id hother hlive
    rw [ColdCoordinator.endTask, Table.lookup_erase] at hother
    split at hother
    · exact nomatch hother
    · exact ⟨value, hother, hlive⟩

/-- **One step** that is guarded keeps the invariant. -/
theorem step (h : OneOwner s) {event : ColdEvent} (hguarded : Guarded s event)
    (hstep : s.step event = some s') : OneOwner s' := by
  cases event <;> dsimp only [ColdCoordinator.step] at hstep
  case check task kind =>
    split at hstep
    · next hfree _ =>
      rw [← Option.some.inj hstep]
      refine h.change (h.files.congr rfl rfl) ?_ rfl (.of_record rfl)
      intro other value id hother hlive
      rw [Table.lookup_insert] at hother
      split at hother
      · rw [← Option.some.inj hother] at hlive
        exact nomatch hlive
      · exact ⟨value, hother, hlive⟩
    · rw [← Option.some.inj hstep]
      exact h
    · exact nomatch hstep
  case begin task id fault =>
    split at hstep
    · split at hstep
      · exact nomatch hstep
      · rw [← Option.some.inj hstep]
        exact h.beginOperation hguarded task id _ fault
    · exact nomatch hstep
  case token task =>
    split at hstep
    · next id hlookup =>
      rw [← Option.some.inj hstep, ColdCoordinator.takeToken]
      split
      · exact h
      · exact h.change (h.files.congr rfl rfl) (.of_tasks rfl) rfl (.of_record rfl)
    · exact nomatch hstep
  case update task phase progress error fault =>
    split at hstep
    · next id hlookup =>
      split at hstep
      · next hphase =>
        rw [← Option.some.inj hstep]
        exact h.update hlookup hphase progress error fault
      · exact nomatch hstep
    · exact nomatch hstep
  case recordFoundationPlan task planId warning fault =>
    split at hstep
    · next id hlookup =>
      rw [← Option.some.inj hstep]
      refine h.recordDetail hlookup ?_ fault
      exact fun _ => ⟨rfl, rfl, rfl, rfl⟩
    · exact nomatch hstep
  case recordCandidateRevision task revision fault =>
    split at hstep
    · next id hlookup =>
      rw [← Option.some.inj hstep]
      refine h.recordDetail hlookup ?_ fault
      exact fun _ => ⟨rfl, rfl, rfl, rfl⟩
    · exact nomatch hstep
  case publish task site outcome =>
    split at hstep
    · next id hlookup =>
      split at hstep
      · rw [← Option.some.inj hstep]
        exact h.failTask hlookup _
      split at hstep
      · rw [← Option.some.inj hstep]
        exact h.failTask hlookup _
      · rw [← Option.some.inj hstep]
        refine h.publish hlookup site fun journalKept heq => ?_
        rw [heq] at hguarded
        exact hguarded
    · exact nomatch hstep
  case fail task primary ownerQuiescent =>
    split at hstep
    · next id hlookup =>
      rw [← Option.some.inj hstep]
      exact h.change (h.files.congr rfl rfl) (.of_insert rfl hlookup rfl (Or.inl rfl)) rfl
        (.of_record rfl)
    · exact nomatch hstep
  case settle task outcome =>
    split at hstep
    · next hlookup => exact h.settle hlookup hstep
    · exact nomatch hstep
  case release task =>
    split at hstep
    · next id hlookup =>
      rw [← Option.some.inj hstep]
      exact h.release task id
    · exact nomatch hstep
  case tail id text fault =>
    rw [← Option.some.inj hstep]
    exact h.refreshTail id text fault
  case signal id =>
    rw [← Option.some.inj hstep]
    exact h.signalCancel id
  case cancel id outcome =>
    rw [← Option.some.inj hstep]
    exact h.cancel id outcome
  case clearFinished id fault =>
    rw [← Option.some.inj hstep]
    exact h.clearFinished id fault
  case recoverExplicit id preserveCurrent outcome =>
    rw [← Option.some.inj hstep]
    exact h.recoverExplicit id preserveCurrent outcome
  case maintain outcome =>
    rw [← Option.some.inj hstep]
    exact h.maintain outcome
  case restart outcome =>
    rw [← Option.some.inj hstep]
    exact h.restart outcome

end OneOwner

/-! ## Every step keeps its promises -/

theorem record_signalCancel (id : Nat) : (s.signalCancel id).record = s.record := by
  unfold ColdCoordinator.signalCancel
  split
  · split <;> rfl
  · rfl

theorem OneOwner.stepSound_of_live (h : OneOwner s) {event : ColdEvent} {task id : Nat}
    {value : ColdTask} (hlookup : s.tasks.lookup task = some value) (hlive : value.live = some id)
    (hbegin : ∀ task id fault, event ≠ .begin task id fault)
    (hoperation : event.operation s = some id) : StepSound s event s' := by
  obtain ⟨-, operation, hrecord, hid, hrunning⟩ := h.live task value id hlookup hlive
  constructor
  · exact fun task id fault heq => absurd heq (hbegin task id fault)
  · intro _ other hother hterminal
    obtain rfl := Option.some.inj (hrecord.symm.trans hother)
    exact nomatch hterminal.symm.trans hrunning
  · intro other_id hother other hrecord' hne
    obtain rfl := Option.some.inj (hrecord.symm.trans hrecord')
    exact absurd (hid.trans (Option.some.inj (hoperation.symm.trans hother))) hne

theorem stepSound_of_eq {event : ColdEvent} (hbegin : ∀ task id fault, event ≠ .begin task id fault)
    (hrecord : s'.record = s.record) (hactive : s'.ownerActive = s.ownerActive)
    (hcancellation : s'.cancellation = s.cancellation) : StepSound s event s' :=
  ⟨fun task id fault heq => absurd heq (hbegin task id fault),
    fun _ operation hoperation _ => ⟨operation, hrecord.trans hoperation, rfl⟩,
    fun _ _ _ _ _ => ⟨hrecord, hactive, fun _ _ => hcancellation⟩⟩

theorem OneOwner.stepSound_of_journal (h : OneOwner s) {event : ColdEvent}
    (hlate : event.mayBeLate = false) (hbegin : ∀ task id fault, event ≠ .begin task id fault)
    (hoperation : ∀ id, event.operation s = some id → ∀ operation, s.record = some operation →
      operation.operationId ≠ id → s' = s ∨ ∃ intent, s.intent = some intent ∧
        intent.operation.operationId = id) : StepSound s event s' := by
  constructor
  · exact fun task id fault heq => absurd heq (hbegin task id fault)
  · exact fun htrue => nomatch hlate.symm.trans htrue
  · intro id hid operation hrecord hne
    rcases hoperation id hid operation hrecord hne with rfl | ⟨intent, hintent, rfl⟩
    · exact ⟨rfl, rfl, fun _ _ => rfl⟩
    · exact absurd (h.files.operationId_eq hrecord hintent).symm hne

theorem OneOwner.stepSound_begin (h : OneOwner s) (task id : Nat) (kind : String)
    (fault : WriteFault) :
    StepSound s (.begin task id fault) (s.beginOperation task id kind fault) := by
  refine ⟨fun task' id' fault' heq howner => ?_, fun hlate => (nomatch hlate), fun _ hid => nomatch hid⟩
  obtain ⟨rfl, rfl, rfl⟩ := ColdEvent.begin.inj heq
  have hend : (s.endTask task).tasks.lookup task ≠ some (.owner id) := by
    intro hsome
    rw [ColdCoordinator.endTask, Table.lookup_erase, if_pos rfl] at hsome
    exact nomatch hsome
  unfold ColdCoordinator.beginOperation at howner
  split at howner
  · exact absurd howner hend
  next hactive =>
  split at howner
  · exact absurd howner hend
  next hsettled =>
  refine ⟨Bool.not_eq_true _ ▸ hactive, fun operation hrecord => ?_⟩
  rw [hrecord] at hsettled
  have hcleanup : operation.cleanupPending = false ∧ operation.phase.isTerminal = true := by
    simpa using hsettled
  exact ⟨hcleanup.2, hcleanup.1, (h.files.record operation hrecord).1 hcleanup.2 hcleanup.1⟩

theorem stepSound_tail (id : Nat) (text : String) (fault : WriteFault) :
    StepSound s (.tail id text fault) (s.refreshTail id text fault) := by
  unfold ColdCoordinator.refreshTail
  split
  · exact stepSound_of_eq (fun _ _ _ => ColdEvent.noConfusion) rfl rfl rfl
  next operation hrecord =>
  split
  · exact stepSound_of_eq (fun _ _ _ => ColdEvent.noConfusion) rfl rfl rfl
  next hown =>
  rw [not_or, not_not] at hown
  refine ⟨fun _ _ _ heq => (nomatch heq), fun _ other hother hterminal => ?_, fun id' hid other hother hne => ?_⟩
  · obtain rfl := Option.some.inj (hrecord.symm.trans hother)
    exact absurd hterminal hown.2
  · obtain rfl := Option.some.inj (hrecord.symm.trans hother)
    exact absurd (hown.1.trans (Option.some.inj hid)) hne

theorem phase_cancelTerminal {operation : ColdOperation} (hrecord : s.record = some operation)
    (outcome : CancelOutcome) :
    ∃ operation', (s.cancelTerminal operation outcome).record = some operation' ∧
      operation'.phase = operation.phase := by
  unfold ColdCoordinator.cancelTerminal
  split
  · exact ⟨operation, hrecord, rfl⟩
  split
  · have hwrite : ∃ operation', (s.write ({ operation with ownerQuiescent := true }.cleanedUp
        outcome.cleaned) outcome.write).record = some operation' ∧
          operation'.phase = operation.phase := by
      unfold ColdCoordinator.write
      split
      · exact ⟨_, rfl, ColdOperation.phase_cleanedUp ..⟩
      · exact ⟨operation, hrecord, rfl⟩
    dsimp only
    split
    · exact hwrite
    · exact hwrite
  split
  · exact ⟨operation, hrecord, rfl⟩
  · exact ⟨operation, hrecord, rfl⟩

theorem stepSound_cancel (id : Nat) (outcome : CancelOutcome) :
    StepSound s (.cancel id outcome) (s.cancel id outcome) := by
  unfold ColdCoordinator.cancel
  split
  · exact stepSound_of_eq (fun _ _ _ => ColdEvent.noConfusion) rfl rfl rfl
  next operation hrecord =>
  split
  · exact stepSound_of_eq (fun _ _ _ => ColdEvent.noConfusion) rfl rfl rfl
  next hown =>
  refine ⟨fun _ _ _ heq => (nomatch heq), fun _ other hother hterminal => ?_, fun id' hid other hother hne => ?_⟩
  · obtain rfl := Option.some.inj (hrecord.symm.trans hother)
    rw [if_pos hterminal]
    exact phase_cancelTerminal hrecord outcome
  · obtain rfl := Option.some.inj (hrecord.symm.trans hother)
    exact absurd ((not_not.mp hown).trans (Option.some.inj hid)) hne

theorem stepSound_signal (id : Nat) : StepSound s (.signal id) (s.signalCancel id) := by
  refine ⟨fun _ _ _ heq => (nomatch heq), fun _ operation hrecord _ =>
    ⟨operation, (record_signalCancel id).trans hrecord, rfl⟩, fun id' hid operation _ hne => ?_⟩
  obtain rfl := Option.some.inj hid
  refine ⟨record_signalCancel id, ?_, fun cancelled hcancellation => ?_⟩
  · unfold ColdCoordinator.signalCancel
    split
    · split <;> rfl
    · rfl
  · unfold ColdCoordinator.signalCancel
    rw [hcancellation]
    dsimp only
    rw [if_neg hne]
    exact hcancellation

theorem stepSound_clearFinished (id : Nat) (fault : WriteFault) :
    StepSound s (.clearFinished id fault) (s.clearFinished id fault) := by
  refine ⟨fun _ _ _ heq => (nomatch heq), fun hlate => (nomatch hlate), fun id' hid operation hrecord hne => ?_⟩
  obtain rfl := Option.some.inj hid
  unfold ColdCoordinator.clearFinished
  rw [hrecord]
  dsimp only
  rw [if_pos hne]
  exact ⟨hrecord, rfl, fun _ _ => rfl⟩

theorem OneOwner.stepSound_recoverExplicit (h : OneOwner s) (id : Nat) (preserveCurrent : Bool)
    (outcome : PublicationRecovery) : StepSound s (.recoverExplicit id preserveCurrent outcome)
      (s.recoverExplicit id preserveCurrent outcome) := by
  refine h.stepSound_of_journal rfl (fun _ _ _ => ColdEvent.noConfusion) ?_
  intro id' hid operation hrecord hne
  obtain rfl := Option.some.inj hid
  unfold ColdCoordinator.recoverExplicit
  split
  · exact Or.inl rfl
  next intent hintent =>
  split
  · exact Or.inl rfl
  next hown =>
  rw [not_or, not_not] at hown
  exact Or.inr ⟨intent, hintent, hown.2⟩

theorem stepSound_release {task id : Nat} (hlookup : s.tasks.lookup task = some (.settled id)) :
    StepSound s (.release task) ((s.releaseSettledOwner id).endTask task) := by
  refine ⟨fun _ _ _ heq => (nomatch heq), fun _ operation hrecord _ => ⟨operation, ?_, rfl⟩,
    fun id' hid operation hrecord hne => ?_⟩
  · unfold ColdCoordinator.releaseSettledOwner
    split
    · exact hrecord
    · exact hrecord
  · have hid' : id = id' := by
      rw [ColdEvent.operation, hlookup] at hid
      exact Option.some.inj hid
    have hother : s.record.any (fun operation => operation.operationId = id &&
        operation.ownerQuiescent && (operation.phase.isTerminal ||
          operation.phase = .awaitingConfirmation)) ≠ true := by
      rw [hrecord]
      simp [hid', hne]
    rw [ColdCoordinator.releaseSettledOwner, if_neg hother]
    exact ⟨rfl, rfl, fun _ _ => rfl⟩

/-- **One step** from a state with one owner keeps the promises. -/
theorem OneOwner.stepSound (h : OneOwner s) {event : ColdEvent} (hstep : s.step event = some s') :
    StepSound s event s' := by
  -- a task that is live works for the operation of the record
  have hlive : ∀ {task id value}, s.tasks.lookup task = some value → value.live = some id →
      (∀ task id fault, event ≠ .begin task id fault) →
        event.operation s = (s.tasks.lookup task).bind ColdTask.operation →
          StepSound s event s' := by
    intro task id value hlookup hid hbegin hoperation
    refine h.stepSound_of_live hlookup hid hbegin ?_
    rw [hoperation, hlookup, Option.bind_some]
    cases value with
    | owner | failed => exact hid
    | beginning | settled => exact nomatch hid
  cases event <;> dsimp only [ColdCoordinator.step] at hstep
  case check task kind =>
    have hsame : s'.record = s.record ∧ s'.ownerActive = s.ownerActive ∧
        s'.cancellation = s.cancellation := by
      split at hstep
      · rw [← Option.some.inj hstep]
        exact ⟨rfl, rfl, rfl⟩
      · rw [← Option.some.inj hstep]
        exact ⟨rfl, rfl, rfl⟩
      · exact nomatch hstep
    exact stepSound_of_eq (fun _ _ _ => ColdEvent.noConfusion) hsame.1 hsame.2.1 hsame.2.2
  case begin task id fault =>
    split at hstep
    · split at hstep
      · exact nomatch hstep
      · rw [← Option.some.inj hstep]
        exact h.stepSound_begin task id _ fault
    · exact nomatch hstep
  case release task =>
    split at hstep
    · next hlookup =>
      rw [← Option.some.inj hstep]
      exact stepSound_release hlookup
    · exact nomatch hstep
  case tail id text fault =>
    rw [← Option.some.inj hstep]
    exact stepSound_tail id text fault
  case signal id =>
    rw [← Option.some.inj hstep]
    exact stepSound_signal id
  case cancel id outcome =>
    rw [← Option.some.inj hstep]
    exact stepSound_cancel id outcome
  case clearFinished id fault =>
    rw [← Option.some.inj hstep]
    exact stepSound_clearFinished id fault
  case recoverExplicit id preserveCurrent outcome =>
    rw [← Option.some.inj hstep]
    exact h.stepSound_recoverExplicit id preserveCurrent outcome
  case maintain | restart =>
    refine h.stepSound_of_journal rfl (fun _ _ _ => ColdEvent.noConfusion) ?_
    intro id hid operation _ _
    obtain ⟨intent, hintent, hid⟩ := Option.map_eq_some_iff.mp hid
    exact Or.inr ⟨intent, hintent, hid⟩
  all_goals
    split at hstep
    · next hlookup => exact hlive hlookup rfl (fun _ _ _ => ColdEvent.noConfusion) rfl
    · exact nomatch hstep

def coldAfter (events : List ColdEvent) : ColdCoordinator :=
  (ColdCoordinator.system.run events ColdCoordinator.system.init).getD ColdCoordinator.system.init

/-- A release is installed, and the next installation begins. -/
def twoInstallations : List ColdEvent :=
  [.check 0 "cold_switch", .begin 0 1 .none, .update 0 .verifying 85 none .none,
    .publish 0 .build .done, .release 0, .check 1 "cold_switch", .begin 1 2 .none]

/-- The journal of the first installation cannot be removed.  Its owner is released by a `cancel`
before it has settled the failure, and the next `begin` has looked for a journal too early. -/
def lateSettlement : List ColdEvent :=
  [.check 0 "cold_switch", .begin 0 1 .none, .update 0 .verifying 85 none .none,
    .check 1 "cold_switch", .publish 0 .build (.reported true), .cancel 1 ⟨true, true, .none⟩,
    .begin 1 2 .none]

end DshNexus.Agent
