import DshNexus.Concurrent.System
import DshNexus.Core.Io
import DshNexus.Core.Table

/-!
# The publication of the agent's state

`update_agent_state` of `crates/nexus-agent/src/lib.rs` with `persist_agent_snapshot` of
`supervisor.rs` and the runtime metadata store of `crates/nexus-core/src/lib.rs`.  Any number of
calls run beside the supervisor, each of them one step between two awaits at a time.  A call may
be dropped at every await, and a write of the state file may fail before or after the file is
replaced.

The system starts after the start-up has published revision 1; the write at shutdown comes after
the server has ended and is left out.  Revisions are natural numbers: the counter of the source
does not reach its end.

1. The data, and the steps of a call.
2. `publication`: the system.  `log` and `fileRevision` are not in the source: they say what has
   been applied and which revision the state file holds.
3. `Inv` and `step_inv`: what every step keeps.
4. `updates_publish_in_order`: what holds after every run.
-/

namespace DshNexus.Agent.StatePublication

open Concurrent

/-! ## 1. The data -/

inductive AgentLifecycleState where
  | starting
  | running
  | shuttingDown
  | stopped
  deriving DecidableEq, Repr

inductive HarnessState where
  | detached
  | starting
  | running
  | stopped
  | failed
  deriving DecidableEq, Repr

structure AgentState where
  lifecycle : AgentLifecycleState
  harness : HarnessState
  profile : Option String
  release : Option String
  startedAtUnix : Nat
  updatedAtUnix : Nat
  deriving DecidableEq, Repr

namespace AgentState

def touch (state : AgentState) (now : Nat) : AgentState := { state with updatedAtUnix := now }

def setHarness (state : AgentState) (harness : HarnessState) (now : Nat) : AgentState :=
  { state with harness := harness }.touch now

end AgentState

structure HarnessRuntimeInfo where
  state : HarnessState
  pid : Option Nat
  exitCode : Option Int
  error : Option String
  startedAtUnix : Option Nat
  updatedAtUnix : Option Nat
  deriving DecidableEq, Repr

/-- The contents of `state.json`. -/
structure NexusRuntimeMetadata where
  lifecycle : AgentLifecycleState
  harness : HarnessRuntimeInfo
  profile : Option String
  release : Option String
  startedAtUnix : Nat
  updatedAtUnix : Nat
  deriving DecidableEq, Repr

namespace NexusRuntimeMetadata

def fromState (state : AgentState) (harness : HarnessRuntimeInfo) : NexusRuntimeMetadata where
  lifecycle := state.lifecycle
  harness := harness
  profile := state.profile
  release := state.release
  startedAtUnix := state.startedAtUnix
  updatedAtUnix := state.updatedAtUnix

/-- The change that `update_harness` makes. -/
def setHarness (metadata : NexusRuntimeMetadata) (harness : HarnessRuntimeInfo) (now : Nat) :
    NexusRuntimeMetadata :=
  { metadata with harness := harness, updatedAtUnix := now }

/-- The metadata tell an agent state, the part of the supervisor and its time apart. -/
def Tells (metadata : NexusRuntimeMetadata) (state : AgentState) : Prop :=
  metadata.lifecycle = state.lifecycle ∧ metadata.profile = state.profile ∧
    metadata.release = state.release ∧ metadata.startedAtUnix = state.startedAtUnix

theorem fromState_tells (state : AgentState) (harness : HarnessRuntimeInfo) :
    (fromState state harness).Tells state := ⟨rfl, rfl, rfl, rfl⟩

theorem Tells.setHarness {metadata : NexusRuntimeMetadata} {state : AgentState}
    (h : metadata.Tells state) (harness : HarnessRuntimeInfo) (now : Nat) :
    (metadata.setHarness harness now).Tells state := h

end NexusRuntimeMetadata

/-- What `status_observation` returns. -/
structure HarnessSnapshot where
  generation : Nat
  runtime : HarnessRuntimeInfo
  deriving DecidableEq, Repr

/-- The part of `SupervisorInner` that a publication reads. -/
structure SupervisorInner where
  generation : Nat
  runtime : HarnessRuntimeInfo
  persistedAgentRevision : Option Nat
  persistedAgentState : Option AgentState
  deriving DecidableEq, Repr

/-- The end of an atomic write: a write can fail before the file is replaced, and after it. -/
inductive WriteOutcome where
  | written
  | failedBefore (e : IoError)
  | failedAfter (e : IoError)
  deriving DecidableEq, Repr

/-! ### `persist_agent_snapshot` -/

/-- The answer of `persist_agent_snapshot` before it comes to the write. -/
def SupervisorInner.declines (inner : SupervisorInner) (snapshot : HarnessSnapshot)
    (agentRevision : Nat) (state : AgentState) : Option Bool :=
  if inner.generation ≠ snapshot.generation ∨ inner.runtime ≠ snapshot.runtime then
    some false
  else
    match inner.persistedAgentRevision with
    | none => none
    | some persistedRevision =>
        if agentRevision < persistedRevision then some false
        else if agentRevision = persistedRevision then
          some (inner.persistedAgentState == some state)
        else none

def SupervisorInner.persisted (inner : SupervisorInner) (agentRevision : Nat)
    (state : AgentState) : SupervisorInner :=
  { inner with
    persistedAgentRevision := some agentRevision
    persistedAgentState := some state }

/-! ### A call -/

abbrev UpdateResult : Type := Except IoError (AgentState × HarnessSnapshot)

/-- Where a call is between two awaits.  `pending` says that the mutation has not been taken. -/
inductive Stage where
  /-- waits for `harness_sync` -/
  | waiting
  /-- holds it, and observes the supervisor; so many rounds are left -/
  | observing (pending : Bool) (rounds : Nat)
  /-- has its observation, and waits for the agent state -/
  | observed (pending : Bool) (snapshot : HarnessSnapshot) (rounds : Nat)
  /-- has changed the agent state, and waits for the supervisor -/
  | applied (revision : Nat) (current : AgentState) (snapshot : HarnessSnapshot) (rounds : Nat)
  | returned (result : UpdateResult)
  /-- its future was dropped -/
  | dropped (pending : Bool)
  deriving DecidableEq

def Stage.pending : Stage → Bool
  | .waiting => true
  | .observing pending _ => pending
  | .observed pending _ _ => pending
  | .applied _ _ _ _ => false
  | .returned _ => false
  | .dropped pending => pending

def Stage.roundsOver : Stage → Bool
  | .observing _ rounds => rounds == 0
  | .observed _ _ rounds => rounds == 0
  | _ => false

/-- The call holds `harness_sync`. -/
def Stage.holds : Stage → Bool
  | .waiting => false
  | .observing _ _ => true
  | .observed _ _ _ => true
  | .applied _ _ _ _ => true
  | .returned _ => false
  | .dropped _ => false

structure Call where
  mutation : AgentState → AgentState
  stage : Stage

/-- `for _ in 0..3` -/
def publicationRounds : Nat := 3

def wouldBlock : IoError where
  kind := .wouldBlock
  message := "Agent or Harness state changed while runtime metadata was being published"

/-- One change of the agent state in memory. -/
structure Applied (ι : Type) where
  caller : ι
  revision : Nat
  mutation : Option (AgentState → AgentState)
  /-- the harness state that was put in, and when -/
  harness : Option (HarnessState × Nat)

def Applied.apply {ι : Type} (change : Applied ι) (state : AgentState) : AgentState :=
  let mutated := (change.mutation.getD id) state
  match change.harness with
  | none => mutated
  | some (harness, now) => mutated.setHarness harness now

/-! ## 2. The system -/

section System

variable {ι : Type}

structure State (ι : Type) where
  /-- the agent state, `AppState::runtime` -/
  memory : AgentState
  agentRevision : Nat
  inner : SupervisorInner
  /-- the state file -/
  file : NexusRuntimeMetadata
  /-- the revision that was written to the state file -/
  fileRevision : Nat
  /-- the call that holds `harness_sync` -/
  harnessSync : Option ι
  calls : AList fun _ : ι => Call
  /-- the changes of the agent state so far, oldest first -/
  log : List (Applied ι)

inductive Event (ι : Type) where
  | call (id : ι) (mutation : AgentState → AgentState)
  /-- a waiting call gets `harness_sync` -/
  | lock (id : ι)
  /-- `status_observation` -/
  | observe (id : ι)
  /-- the agent state is locked and changed, or the rounds are over -/
  | apply (id : ι) (now : Nat)
  /-- `persist_agent_snapshot` -/
  | persist (id : ι) (outcome : WriteOutcome)
  /-- the future of a call is dropped -/
  | drop (id : ι)
  /-- the supervisor changes its harness -/
  | supervise (generation : Nat) (runtime : HarnessRuntimeInfo)
  /-- the supervisor writes its part of the state file -/
  | updateHarness (runtime : HarnessRuntimeInfo) (now : Nat) (outcome : WriteOutcome)

/-- The change that a call makes to the agent state. -/
def changeOf (id : ι) (call : Call) (pending : Bool) (snapshot : HarnessSnapshot)
    (revision now : Nat) (memory : AgentState) : Applied ι :=
  let mutation := if pending then some call.mutation else none
  let mutated := (mutation.getD fun state => state) memory
  { caller := id
    revision := revision
    mutation := mutation
    harness :=
      if mutated.harness ≠ snapshot.runtime.state then some (snapshot.runtime.state, now)
      else none }

variable [DecidableEq ι]

namespace State

def goTo (s : State ι) (id : ι) (call : Call) (stage : Stage) : State ι :=
  { s with calls := s.calls.insert id { call with stage := stage } }

/-- A call gives `harness_sync` back and ends. -/
def finish (s : State ι) (id : ι) (call : Call) (stage : Stage) : State ι :=
  { s.goTo id call stage with harnessSync := none }

/-- The agent state is changed and gets its revision. -/
def change (s : State ι) (applied : Applied ι) : State ι :=
  { s with
    memory := applied.apply s.memory
    agentRevision := applied.revision
    log := s.log ++ [applied] }

/-- The state file is replaced by a snapshot of the agent state. -/
def replaceFile (s : State ι) (revision : Nat) (current : AgentState)
    (runtime : HarnessRuntimeInfo) : State ι :=
  { s with
    file := NexusRuntimeMetadata.fromState current runtime
    fileRevision := revision }

/-- The round of a call that has been observed: it changes the agent state, or gives up. -/
def applyRound (s : State ι) (id : ι) (call : Call) (pending : Bool)
    (snapshot : HarnessSnapshot) (now : Nat) : Nat → State ι
  | 0 => s.finish id call (.returned (.error wouldBlock))
  | rounds + 1 =>
      let applied := changeOf id call pending snapshot (s.agentRevision + 1) now s.memory
      (s.change applied).goTo id call
        (.applied applied.revision (applied.apply s.memory) snapshot rounds)

/-- `persist_agent_snapshot`, and what its caller does with the answer. -/
def persistRound (s : State ι) (id : ι) (call : Call) (revision : Nat) (current : AgentState)
    (snapshot : HarnessSnapshot) (rounds : Nat) (outcome : WriteOutcome) : State ι :=
  match s.inner.declines snapshot revision current with
  | some true => s.finish id call (.returned (.ok (current, snapshot)))
  | some false => s.goTo id call (.observing false rounds)
  | none =>
      match outcome with
      | .failedBefore e => s.finish id call (.returned (.error e))
      | .failedAfter e =>
          (s.replaceFile revision current snapshot.runtime).finish id call
            (.returned (.error e))
      | .written =>
          { (s.replaceFile revision current snapshot.runtime).finish id call
              (.returned (.ok (current, snapshot))) with
            inner := s.inner.persisted revision current }

def stepCall (s : State ι) (id : ι) (call : Call) : Event ι → Option (State ι)
  | .lock _ =>
      match call.stage, s.harnessSync with
      | .waiting, none =>
          some { s.goTo id call (.observing true publicationRounds) with harnessSync := some id }
      | _, _ => none
  | .observe _ =>
      match call.stage with
      | .observing pending rounds =>
          some (s.goTo id call
            (.observed pending ⟨s.inner.generation, s.inner.runtime⟩ rounds))
      | _ => none
  | .apply _ now =>
      match call.stage with
      | .observed pending snapshot rounds =>
          some (s.applyRound id call pending snapshot now rounds)
      | _ => none
  | .persist _ outcome =>
      match call.stage with
      | .applied revision current snapshot rounds =>
          some (s.persistRound id call revision current snapshot rounds outcome)
      | _ => none
  | .drop _ =>
      match call.stage with
      | .returned _ => none
      | .dropped _ => none
      | .waiting => some (s.goTo id call (.dropped true))
      | stage => some (s.finish id call (.dropped stage.pending))
  | _ => none

end State

/-- The step of an event, where it can happen. -/
def step (s : State ι) : Event ι → Option (State ι)
  | .call id mutation =>
      match s.calls.lookup id with
      | some _ => none
      | none => some { s with calls := s.calls.insert id ⟨mutation, .waiting⟩ }
  | .supervise generation runtime =>
      some { s with inner := { s.inner with generation := generation, runtime := runtime } }
  | .updateHarness runtime now outcome =>
      match outcome with
      | .failedBefore _ => some s
      | _ => some { s with file := s.file.setHarness runtime now }
  | .lock id => (s.calls.lookup id).bind fun call => s.stepCall id call (.lock id)
  | .observe id => (s.calls.lookup id).bind fun call => s.stepCall id call (.observe id)
  | .apply id now => (s.calls.lookup id).bind fun call => s.stepCall id call (.apply id now)
  | .persist id outcome =>
      (s.calls.lookup id).bind fun call => s.stepCall id call (.persist id outcome)
  | .drop id => (s.calls.lookup id).bind fun call => s.stepCall id call (.drop id)

def start (memory : AgentState) (generation : Nat) (runtime : HarnessRuntimeInfo) : State ι where
  memory := memory
  agentRevision := 1
  inner := ⟨generation, runtime, none, none⟩
  file := NexusRuntimeMetadata.fromState memory runtime
  fileRevision := 1
  harnessSync := none
  calls := ∅
  log := []

/-- The calls of `update_agent_state` beside the supervisor. -/
def publication (ι : Type) [DecidableEq ι] (memory : AgentState) (generation : Nat)
    (runtime : HarnessRuntimeInfo) : System (State ι) (Event ι) where
  init := start memory generation runtime
  step := step

/-! ## 3. What every step keeps -/

def replay (memory : AgentState) (log : List (Applied ι)) : AgentState :=
  log.foldl (fun state change => change.apply state) memory

def upTo (log : List (Applied ι)) (revision : Nat) : List (Applied ι) :=
  log.filter fun change => change.revision ≤ revision

/-- The mutations of a call among the changes. -/
def mutationsOf (log : List (Applied ι)) (id : ι) : List (AgentState → AgentState) :=
  log.filterMap fun change => if change.caller = id then change.mutation else none

omit [DecidableEq ι] in
theorem replay_snoc (memory : AgentState) (log : List (Applied ι)) (change : Applied ι) :
    replay memory (log ++ [change]) = change.apply (replay memory log) := by
  rw [replay, List.foldl_append]
  rfl

omit [DecidableEq ι] in
theorem upTo_snoc {log : List (Applied ι)} {change : Applied ι} {revision : Nat}
    (h : revision < change.revision) : upTo (log ++ [change]) revision = upTo log revision := by
  have hlate : ¬ change.revision ≤ revision := by omega
  simp [upTo, List.filter_append, hlate]

omit [DecidableEq ι] in
theorem upTo_of_forall {log : List (Applied ι)} {revision : Nat}
    (h : ∀ change ∈ log, change.revision ≤ revision) : upTo log revision = log := by
  refine List.filter_eq_self.mpr ?_
  intro change hchange
  exact decide_eq_true (h change hchange)

theorem mutationsOf_snoc (log : List (Applied ι)) (change : Applied ι) (id : ι) :
    mutationsOf (log ++ [change]) id =
      mutationsOf log id ++ if change.caller = id then change.mutation.toList else [] := by
  simp only [mutationsOf, List.filterMap_append]
  by_cases h : change.caller = id
  · cases hm : change.mutation with
    | none => simp [h, hm]
    | some mutation => simp [h, hm]
  · simp [h]

structure CallInv (memory : AgentState) (s : State ι) (id : ι) (call : Call) : Prop where
  /-- its mutation has been applied once when it has been taken, and not before -/
  mutations : mutationsOf s.log id = if call.stage.pending then [] else [call.mutation]
  /-- it is taken in the first round -/
  firstRound : call.stage.roundsOver = true → call.stage.pending = false
  holds : call.stage.holds = true → s.harnessSync = some id
  /-- what it wants to write is the newest state -/
  applied : ∀ revision current snapshot rounds,
    call.stage = .applied revision current snapshot rounds →
      revision = s.agentRevision ∧ current = s.memory
  /-- a call that succeeds returns a state that has been published, its mutation in it -/
  returned : ∀ current snapshot, call.stage = .returned (.ok (current, snapshot)) →
    ∃ revision ≤ s.fileRevision, current = replay memory (upTo s.log revision) ∧
      mutationsOf (upTo s.log revision) id = [call.mutation]

structure Inv (memory : AgentState) (s : State ι) : Prop where
  replayed : s.memory = replay memory s.log
  bounded : ∀ change ∈ s.log, change.revision ≤ s.agentRevision
  increasing : (s.log.map Applied.revision).Pairwise (· < ·)
  fileRevision : s.fileRevision ≤ s.agentRevision
  file : s.file.Tells (replay memory (upTo s.log s.fileRevision))
  persisted : ∀ revision, s.inner.persistedAgentRevision = some revision →
    revision ≤ s.fileRevision
  calls : ∀ id call, s.calls.lookup id = some call → CallInv memory s id call
  absent : ∀ id, s.calls.lookup id = none → mutationsOf s.log id = []

variable {memory : AgentState} {s : State ι} {id : ι} {call : Call} {stage : Stage}

theorem lookup_goTo (id' : ι) :
    (s.goTo id call stage).calls.lookup id' =
      if id' = id then some { call with stage := stage } else s.calls.lookup id' :=
  Table.lookup_insert id id' _

theorem CallInv.transfer {s' : State ι} (h : CallInv memory s id call)
    (hlog : mutationsOf s'.log id = mutationsOf s.log id)
    (hholds : call.stage.holds = true → s'.harnessSync = some id)
    (happlied : call.stage.holds = true →
      s'.agentRevision = s.agentRevision ∧ s'.memory = s.memory)
    (hfile : s.fileRevision ≤ s'.fileRevision)
    (hupTo : ∀ revision ≤ s.fileRevision, upTo s'.log revision = upTo s.log revision) :
    CallInv memory s' id call := by
  refine ⟨hlog.trans h.mutations, h.firstRound, hholds, ?_, ?_⟩
  · intro revision current snapshot rounds hstage
    obtain ⟨hrevision, hcurrent⟩ := h.applied revision current snapshot rounds hstage
    obtain ⟨hagent, hmemory⟩ := happlied (by rw [hstage]; rfl)
    exact ⟨hrevision.trans hagent.symm, hcurrent.trans hmemory.symm⟩
  · intro current snapshot hstage
    obtain ⟨revision, hle, hcurrent, hmutations⟩ := h.returned current snapshot hstage
    refine ⟨revision, Nat.le_trans hle hfile, ?_, ?_⟩
    · rw [hupTo revision hle]
      exact hcurrent
    · rw [hupTo revision hle]
      exact hmutations

theorem Inv.goTo (h : Inv memory s)
    (hcall : CallInv memory s id { call with stage := stage }) :
    Inv memory (s.goTo id call stage) := by
  refine ⟨h.replayed, h.bounded, h.increasing, h.fileRevision, h.file, h.persisted, ?_, ?_⟩
  · intro id' call' hlookup
    rw [lookup_goTo] at hlookup
    by_cases hid : id' = id
    · rw [if_pos hid] at hlookup
      rw [hid, ← Option.some.inj hlookup]
      exact ⟨hcall.mutations, hcall.firstRound, hcall.holds, hcall.applied, hcall.returned⟩
    · rw [if_neg hid] at hlookup
      have hold := h.calls id' call' hlookup
      exact ⟨hold.mutations, hold.firstRound, hold.holds, hold.applied, hold.returned⟩
  · intro id' hlookup
    rw [lookup_goTo] at hlookup
    by_cases hid : id' = id
    · simp [hid] at hlookup
    · rw [if_neg hid] at hlookup
      exact h.absent id' hlookup

theorem Inv.finish (h : Inv memory s) (hsync : s.harnessSync = some id)
    (hholds : stage.holds = false)
    (hcall : CallInv memory s id { call with stage := stage }) :
    Inv memory (s.finish id call stage) := by
  have hgo := h.goTo hcall
  refine ⟨hgo.replayed, hgo.bounded, hgo.increasing, hgo.fileRevision, hgo.file, hgo.persisted,
    ?_, hgo.absent⟩
  intro id' call' hlookup
  have hold := hgo.calls id' call' hlookup
  refine ⟨hold.mutations, hold.firstRound, ?_, hold.applied, hold.returned⟩
  intro hstage
  exfalso
  -- the one call that holds it is the one that ends
  have hsame : s.harnessSync = some id' := hold.holds hstage
  have hid : id' = id := Option.some.inj (hsame.symm.trans hsync)
  have hend : (s.goTo id call stage).calls.lookup id' = some call' := hlookup
  rw [lookup_goTo, if_pos hid] at hend
  rw [← Option.some.inj hend] at hstage
  have hfalse : stage.holds = true := hstage
  rw [hholds] at hfalse
  cases hfalse

theorem Inv.replaceFile (h : Inv memory s) (runtime : HarnessRuntimeInfo) :
    Inv memory (s.replaceFile s.agentRevision s.memory runtime) := by
  refine ⟨h.replayed, h.bounded, h.increasing, le_refl _, ?_, ?_, ?_, h.absent⟩
  · have hall : upTo s.log s.agentRevision = s.log := upTo_of_forall h.bounded
    have htells := NexusRuntimeMetadata.fromState_tells s.memory runtime
    simpa [State.replaceFile, hall, ← h.replayed] using htells
  · intro revision hrevision
    exact Nat.le_trans (h.persisted revision hrevision) h.fileRevision
  · intro id' call' hlookup
    have hold := h.calls id' call' hlookup
    exact hold.transfer rfl hold.holds (fun _ => ⟨rfl, rfl⟩) h.fileRevision fun _ _ => rfl

/-- The changes grow by one that is newer than all of them. -/
theorem Inv.change_goTo (h : Inv memory s) {pending : Bool} (snapshot : HarnessSnapshot)
    (rounds : Nat) (hsync : s.harnessSync = some id)
    (hmutations : mutationsOf s.log id = if pending then [] else [call.mutation]) (now : Nat) :
    Inv memory (s.applyRound id call pending snapshot now (rounds + 1)) := by
  set applied := changeOf id call pending snapshot (s.agentRevision + 1) now s.memory with happlied
  set stage := Stage.applied applied.revision (applied.apply s.memory) snapshot rounds
  have hrevision : applied.revision = s.agentRevision + 1 := rfl
  have hcaller : applied.caller = id := rfl
  have hmutation : applied.mutation.toList = if pending then [call.mutation] else [] := by
    cases pending with
    | true => rfl
    | false => rfl
  have hnewer : ∀ change ∈ s.log, change.revision < applied.revision := by
    intro change hchange
    have hle := h.bounded change hchange
    omega
  have hupTo : ∀ revision ≤ s.fileRevision,
      upTo (s.log ++ [applied]) revision = upTo s.log revision := by
    intro revision hle
    have hfile := h.fileRevision
    exact upTo_snoc (by omega)
  refine ⟨?_, ?_, ?_, ?_, ?_, h.persisted, ?_, ?_⟩
  · show applied.apply s.memory = replay memory (s.log ++ [applied])
    rw [replay_snoc, h.replayed]
  · intro change hchange
    show change.revision ≤ s.agentRevision + 1
    rcases List.mem_append.mp hchange with hold | hnew
    · have hle := h.bounded change hold
      omega
    · rw [List.mem_singleton.mp hnew]
      exact le_refl _
  · show ((s.log ++ [applied]).map Applied.revision).Pairwise (· < ·)
    rw [List.map_append, List.pairwise_append]
    refine ⟨h.increasing, List.pairwise_singleton _ _, ?_⟩
    intro revision hold newest hnew
    obtain ⟨change, hchange, rfl⟩ := List.mem_map.mp hold
    rw [List.map_singleton, List.mem_singleton] at hnew
    rw [hnew]
    exact hnewer change hchange
  · show s.fileRevision ≤ s.agentRevision + 1
    have hfile := h.fileRevision
    omega
  · show s.file.Tells (replay memory (upTo (s.log ++ [applied]) s.fileRevision))
    rw [hupTo _ (le_refl _)]
    exact h.file
  · intro id' call' hlookup'
    have hinsert : (s.calls.insert id { call with stage := stage }).lookup id' = some call' :=
      hlookup'
    rw [Table.lookup_insert] at hinsert
    by_cases hid : id' = id
    · rw [if_pos hid] at hinsert
      rw [hid, ← Option.some.inj hinsert]
      refine ⟨?_, ?_, ?_, ?_, ?_⟩
      · show mutationsOf (s.log ++ [applied]) id = [call.mutation]
        rw [mutationsOf_snoc, if_pos hcaller, hmutations, hmutation]
        cases pending with
        | true => rfl
        | false => rfl
      · intro hover
        cases hover
      · intro _
        exact hsync
      · intro revision current snapshot' rounds' hstage
        cases hstage
        exact ⟨rfl, rfl⟩
      · intro current snapshot' hreturned
        cases hreturned
    · rw [if_neg hid] at hinsert
      have hold := h.calls id' call' hinsert
      -- another call neither holds `harness_sync` nor gets a change
      have hother : ¬ call'.stage.holds = true := by
        intro hholds
        exact hid (Option.some.inj ((hold.holds hholds).symm.trans hsync))
      refine hold.transfer ?_ (fun hholds => absurd hholds hother)
        (fun hholds => absurd hholds hother) (le_refl _) hupTo
      show mutationsOf (s.log ++ [applied]) id' = mutationsOf s.log id'
      rw [mutationsOf_snoc, if_neg (by rw [hcaller]; exact fun heq => hid heq.symm),
        List.append_nil]
  · intro id' hlookup'
    have hinsert : (s.calls.insert id { call with stage := stage }).lookup id' = none :=
      hlookup'
    rw [Table.lookup_insert] at hinsert
    by_cases hid : id' = id
    · simp [hid] at hinsert
    · rw [if_neg hid] at hinsert
      show mutationsOf (s.log ++ [applied]) id' = []
      rw [mutationsOf_snoc, if_neg (by rw [hcaller]; exact fun heq => hid heq.symm),
        List.append_nil]
      exact h.absent id' hinsert

theorem Inv.applyRound (h : Inv memory s) {pending : Bool} {snapshot : HarnessSnapshot}
    {rounds : Nat} (hlookup : s.calls.lookup id = some call)
    (hstage : call.stage = .observed pending snapshot rounds) (now : Nat) :
    Inv memory (s.applyRound id call pending snapshot now rounds) := by
  have hcall := h.calls id call hlookup
  have hsync : s.harnessSync = some id := hcall.holds (by rw [hstage]; rfl)
  have hmutations := hcall.mutations
  have hfirst := hcall.firstRound
  rw [hstage] at hmutations hfirst
  cases rounds with
  | zero =>
    -- the rounds are over, and the mutation was taken in the first one
    have hpending : pending = false := hfirst rfl
    subst hpending
    refine h.finish hsync rfl ⟨hmutations, ?_, ?_, ?_, ?_⟩
    · intro hover
      cases hover
    · intro hholds
      cases hholds
    · intro revision current snapshot rounds happlied
      cases happlied
    · intro current snapshot hreturned
      cases hreturned
  | succ rounds =>
    exact h.change_goTo snapshot rounds hsync hmutations now

theorem declines_eq_some_true {inner : SupervisorInner} {snapshot : HarnessSnapshot}
    {revision : Nat} {current : AgentState}
    (h : inner.declines snapshot revision current = some true) :
    inner.persistedAgentRevision = some revision := by
  unfold SupervisorInner.declines at h
  by_cases hchanged : inner.generation ≠ snapshot.generation ∨ inner.runtime ≠ snapshot.runtime
  · rw [if_pos hchanged] at h
    cases h
  · rw [if_neg hchanged] at h
    cases hpersisted : inner.persistedAgentRevision with
    | none =>
      rw [hpersisted] at h
      cases h
    | some persistedRevision =>
      simp only [hpersisted] at h
      by_cases hlt : revision < persistedRevision
      · rw [if_pos hlt] at h
        cases h
      · rw [if_neg hlt] at h
        by_cases heq : revision = persistedRevision
        · rw [heq]
        · rw [if_neg heq] at h
          cases h

theorem CallInv.returns (h : CallInv memory s id call) (hpending : call.stage.pending = false)
    {result : UpdateResult}
    (hresult : ∀ current snapshot, result = .ok (current, snapshot) →
      s.agentRevision ≤ s.fileRevision ∧ current = replay memory (upTo s.log s.agentRevision) ∧
        mutationsOf (upTo s.log s.agentRevision) id = [call.mutation]) :
    CallInv memory s id { call with stage := .returned result } := by
  have hmutations := h.mutations
  rw [hpending] at hmutations
  refine ⟨hmutations, ?_, ?_, ?_, ?_⟩
  · intro _
    rfl
  · intro hholds
    cases hholds
  · intro revision current snapshot rounds happlied
    cases happlied
  · intro current snapshot hreturned
    obtain ⟨hpublished, hcurrent, hown⟩ :=
      hresult current snapshot (Stage.returned.inj hreturned)
    exact ⟨s.agentRevision, hpublished, hcurrent, hown⟩

/-- The call that holds `harness_sync` brings its state to the supervisor. -/
theorem Inv.persistRound (h : Inv memory s) {revision : Nat} {current : AgentState}
    {snapshot : HarnessSnapshot} {rounds : Nat} (hlookup : s.calls.lookup id = some call)
    (hstage : call.stage = .applied revision current snapshot rounds) (outcome : WriteOutcome) :
    Inv memory (s.persistRound id call revision current snapshot rounds outcome) ∧
      s.fileRevision ≤
        (s.persistRound id call revision current snapshot rounds outcome).fileRevision := by
  have hcall := h.calls id call hlookup
  have hsync : s.harnessSync = some id := hcall.holds (by rw [hstage]; rfl)
  have hpending : call.stage.pending = false := by rw [hstage]; rfl
  obtain ⟨rfl, rfl⟩ := hcall.applied revision current snapshot rounds hstage
  have hall : upTo s.log s.agentRevision = s.log := upTo_of_forall h.bounded
  have hown : mutationsOf s.log id = [call.mutation] := by
    rw [hcall.mutations, hpending]
    rfl
  have hpublished : ∀ current' snapshot',
      (Except.ok (s.memory, snapshot) : UpdateResult) = .ok (current', snapshot') →
        current' = replay memory (upTo s.log s.agentRevision) ∧
          mutationsOf (upTo s.log s.agentRevision) id = [call.mutation] := by
    intro current' snapshot' heq
    cases heq
    rw [hall]
    exact ⟨h.replayed, hown⟩
  have hfails : ∀ (e : IoError), ∀ current' snapshot',
      (Except.error e : UpdateResult) = .ok (current', snapshot') → False := by
    intro e current' snapshot' heq
    cases heq
  unfold State.persistRound
  cases hdeclines : s.inner.declines snapshot s.agentRevision s.memory with
  | some answer =>
    cases answer with
    | true =>
      have hpersisted := h.persisted _ (declines_eq_some_true hdeclines)
      refine ⟨h.finish hsync rfl (hcall.returns hpending ?_), le_refl _⟩
      intro current' snapshot' heq
      exact ⟨hpersisted, hpublished current' snapshot' heq⟩
    | false =>
      refine ⟨h.goTo ⟨?_, ?_, ?_, ?_, ?_⟩, le_refl _⟩
      · exact hown
      · intro _
        rfl
      · intro _
        exact hsync
      · intro revision current snapshot' rounds' happlied
        cases happlied
      · intro current snapshot' hreturned
        cases hreturned
  | none =>
    have hreplaced := h.replaceFile snapshot.runtime
    have hcall' := hreplaced.calls id call hlookup
    cases outcome with
    | failedBefore e =>
      refine ⟨h.finish hsync rfl (hcall.returns hpending ?_), le_refl _⟩
      intro current' snapshot' heq
      exact (hfails e current' snapshot' heq).elim
    | failedAfter e =>
      refine ⟨hreplaced.finish hsync rfl (hcall'.returns hpending ?_), h.fileRevision⟩
      intro current' snapshot' heq
      exact (hfails e current' snapshot' heq).elim
    | written =>
      have hreturned : CallInv memory
          (s.replaceFile s.agentRevision s.memory snapshot.runtime) id
            { call with stage := .returned (.ok (s.memory, snapshot)) } := by
        refine hcall'.returns hpending ?_
        intro current' snapshot' heq
        exact ⟨le_refl _, hpublished current' snapshot' heq⟩
      have hfinished := hreplaced.finish hsync rfl hreturned
      refine ⟨⟨hfinished.replayed, hfinished.bounded, hfinished.increasing,
        hfinished.fileRevision, hfinished.file, ?_, ?_, hfinished.absent⟩, h.fileRevision⟩
      · intro revision hrevision
        exact le_of_eq (Option.some.inj hrevision).symm
      · intro id' call' hlookup'
        have hold := hfinished.calls id' call' hlookup'
        exact ⟨hold.mutations, hold.firstRound, hold.holds, hold.applied, hold.returned⟩

theorem CallInv.waits (h : CallInv memory s id call) {stage : Stage}
    (hpending : stage.pending = call.stage.pending)
    (hover : stage.roundsOver = true → stage.pending = false)
    (hholds : stage.holds = true → s.harnessSync = some id)
    (happlied : ∀ revision current snapshot rounds,
      stage ≠ .applied revision current snapshot rounds)
    (hreturned : ∀ result, stage ≠ .returned result) :
    CallInv memory s id { call with stage := stage } := by
  refine ⟨?_, hover, hholds, ?_, ?_⟩
  · show mutationsOf s.log id = if stage.pending then [] else [call.mutation]
    rw [hpending]
    exact h.mutations
  · intro revision current snapshot rounds hstage
    exact absurd hstage (happlied revision current snapshot rounds)
  · intro current snapshot hstage
    exact absurd hstage (hreturned _)

theorem Inv.lock (h : Inv memory s) (hlookup : s.calls.lookup id = some call)
    (hstage : call.stage = .waiting) (hsync : s.harnessSync = none) :
    Inv memory { s.goTo id call (.observing true publicationRounds) with
      harnessSync := some id } := by
  have hcall := h.calls id call hlookup
  -- with the lock taken, the call holds it
  have hlocked : Inv memory { s with harnessSync := some id } := by
    refine ⟨h.replayed, h.bounded, h.increasing, h.fileRevision, h.file, h.persisted, ?_,
      h.absent⟩
    intro id' call' hlookup'
    have hold := h.calls id' call' hlookup'
    refine hold.transfer rfl ?_ (fun _ => ⟨rfl, rfl⟩) (le_refl _) fun _ _ => rfl
    intro hholds
    have hnone := hold.holds hholds
    rw [hsync] at hnone
    cases hnone
  refine hlocked.goTo ((hlocked.calls id call hlookup).waits ?_ ?_ ?_ ?_ ?_)
  · rw [hstage]
    rfl
  · intro hover
    cases hover
  · intro _
    rfl
  · intro revision current snapshot rounds heq
    cases heq
  · intro result heq
    cases heq

theorem Inv.called (h : Inv memory s) (hlookup : s.calls.lookup id = none)
    (mutation : AgentState → AgentState) :
    Inv memory { s with calls := s.calls.insert id ⟨mutation, .waiting⟩ } := by
  have hnew : CallInv memory s id ⟨mutation, .waiting⟩ := by
    refine ⟨h.absent id hlookup, ?_, ?_, ?_, ?_⟩
    · intro hover
      cases hover
    · intro hholds
      cases hholds
    · intro revision current snapshot rounds heq
      cases heq
    · intro current snapshot heq
      cases heq
  exact @Inv.goTo _ _ memory s id ⟨mutation, .waiting⟩ .waiting h hnew

theorem Inv.supervise (h : Inv memory s) (generation : Nat) (runtime : HarnessRuntimeInfo) :
    Inv memory { s with
      inner := { s.inner with generation := generation, runtime := runtime } } := by
  refine ⟨h.replayed, h.bounded, h.increasing, h.fileRevision, h.file, h.persisted, ?_, h.absent⟩
  intro id' call' hlookup'
  have hold := h.calls id' call' hlookup'
  exact ⟨hold.mutations, hold.firstRound, hold.holds, hold.applied, hold.returned⟩

theorem Inv.updateHarness (h : Inv memory s) (runtime : HarnessRuntimeInfo) (now : Nat) :
    Inv memory { s with file := s.file.setHarness runtime now } := by
  refine ⟨h.replayed, h.bounded, h.increasing, h.fileRevision, h.file.setHarness runtime now,
    h.persisted, ?_, h.absent⟩
  intro id' call' hlookup'
  have hold := h.calls id' call' hlookup'
  exact ⟨hold.mutations, hold.firstRound, hold.holds, hold.applied, hold.returned⟩

theorem Inv.drop {s' : State ι} (h : Inv memory s) (hlookup : s.calls.lookup id = some call)
    (hstep : s.stepCall id call (.drop id) = some s') :
    Inv memory s' ∧ s.fileRevision ≤ s'.fileRevision := by
  have hcall := h.calls id call hlookup
  have hdropped : CallInv memory s id { call with stage := .dropped call.stage.pending } := by
    refine hcall.waits rfl ?_ ?_ ?_ ?_
    · intro hover
      cases hover
    · intro hholds
      cases hholds
    · intro revision current snapshot rounds heq
      cases heq
    · intro result heq
      cases heq
  have hholder : call.stage.holds = true →
      Inv memory (s.finish id call (.dropped call.stage.pending)) := by
    intro hholds
    exact h.finish (hcall.holds hholds) rfl hdropped
  simp only [State.stepCall] at hstep
  cases hstage : call.stage with
  | waiting =>
    rw [hstage] at hstep hdropped
    rw [← Option.some.inj hstep]
    exact ⟨h.goTo hdropped, le_refl _⟩
  | observing pending rounds =>
    rw [hstage] at hstep hholder
    rw [← Option.some.inj hstep]
    exact ⟨hholder rfl, le_refl _⟩
  | observed pending snapshot rounds =>
    rw [hstage] at hstep hholder
    rw [← Option.some.inj hstep]
    exact ⟨hholder rfl, le_refl _⟩
  | applied revision current snapshot rounds =>
    rw [hstage] at hstep hholder
    rw [← Option.some.inj hstep]
    exact ⟨hholder rfl, le_refl _⟩
  | returned result =>
    rw [hstage] at hstep
    cases hstep
  | dropped pending =>
    rw [hstage] at hstep
    cases hstep

/-- **The step lemma.**  Every event keeps the invariant, and leaves the state file at its
revision or at a newer one. -/
theorem step_inv {s' : State ι} (h : Inv memory s) (event : Event ι)
    (hstep : step s event = some s') : Inv memory s' ∧ s.fileRevision ≤ s'.fileRevision := by
  cases event with
  | call id mutation =>
    simp only [step] at hstep
    cases hlookup : s.calls.lookup id with
    | some call =>
      rw [hlookup] at hstep
      cases hstep
    | none =>
      rw [hlookup] at hstep
      rw [← Option.some.inj hstep]
      exact ⟨h.called hlookup mutation, le_refl _⟩
  | supervise generation runtime =>
    rw [← Option.some.inj hstep]
    exact ⟨h.supervise generation runtime, le_refl _⟩
  | updateHarness runtime now outcome =>
    cases outcome with
    | failedBefore e =>
      rw [← Option.some.inj hstep]
      exact ⟨h, le_refl _⟩
    | failedAfter e =>
      rw [← Option.some.inj hstep]
      exact ⟨h.updateHarness runtime now, le_refl _⟩
    | written =>
      rw [← Option.some.inj hstep]
      exact ⟨h.updateHarness runtime now, le_refl _⟩
  | lock id =>
    obtain ⟨call, hlookup, hstep⟩ := Option.bind_eq_some_iff.mp hstep
    simp only [State.stepCall] at hstep
    split at hstep
    · next hstage hsync =>
      rw [← Option.some.inj hstep]
      exact ⟨h.lock hlookup hstage hsync, le_refl _⟩
    · cases hstep
  | observe id =>
    obtain ⟨call, hlookup, hstep⟩ := Option.bind_eq_some_iff.mp hstep
    have hcall := h.calls id call hlookup
    simp only [State.stepCall] at hstep
    split at hstep
    · next pending rounds hstage =>
      rw [← Option.some.inj hstep]
      refine ⟨h.goTo (hcall.waits ?_ ?_ ?_ ?_ ?_), le_refl _⟩
      · rw [hstage]
        rfl
      · intro hover
        have hfirst := hcall.firstRound
        rw [hstage] at hfirst
        exact hfirst hover
      · intro _
        exact hcall.holds (by rw [hstage]; rfl)
      · intro revision current snapshot rounds heq
        cases heq
      · intro result heq
        cases heq
    · cases hstep
  | apply id now =>
    obtain ⟨call, hlookup, hstep⟩ := Option.bind_eq_some_iff.mp hstep
    simp only [State.stepCall] at hstep
    split at hstep
    · next pending snapshot rounds hstage =>
      rw [← Option.some.inj hstep]
      refine ⟨h.applyRound hlookup hstage now, ?_⟩
      cases rounds with
      | zero => exact le_refl _
      | succ rounds => exact le_refl _
    · cases hstep
  | persist id outcome =>
    obtain ⟨call, hlookup, hstep⟩ := Option.bind_eq_some_iff.mp hstep
    simp only [State.stepCall] at hstep
    split at hstep
    · next revision current snapshot rounds hstage =>
      rw [← Option.some.inj hstep]
      exact h.persistRound hlookup hstage outcome
    · cases hstep
  | drop id =>
    obtain ⟨call, hlookup, hstep⟩ := Option.bind_eq_some_iff.mp hstep
    exact h.drop hlookup hstep

theorem start_inv (memory : AgentState) (generation : Nat) (runtime : HarnessRuntimeInfo) :
    Inv memory (start memory generation runtime : State ι) := by
  refine ⟨rfl, ?_, List.Pairwise.nil, le_refl _, ?_, ?_, ?_, ?_⟩
  · intro change hchange
    cases hchange
  · exact NexusRuntimeMetadata.fromState_tells memory runtime
  · intro revision hrevision
    cases hrevision
  · intro id call hlookup
    cases hlookup
  · intro id _
    rfl

theorem inv_of_run {generation : Nat} {runtime : HarnessRuntimeInfo} {events : List (Event ι)}
    (h : (publication ι memory generation runtime).run events
      (publication ι memory generation runtime).init = some s) : Inv memory s :=
  System.invariant (I := Inv memory) (start_inv memory generation runtime)
    (fun _ event _ hs hstep => (step_inv hs event hstep).1) h

theorem fileRevision_le_of_run {generation : Nat} {runtime : HarnessRuntimeInfo}
    {later : List (Event ι)} {s' : State ι} (h : Inv memory s)
    (hrun : (publication ι memory generation runtime).run later s = some s') :
    s.fileRevision ≤ s'.fileRevision := by
  induction later generalizing s with
  | nil =>
    rw [← Option.some.inj hrun]
  | cons event later ih =>
    obtain ⟨t, hstep, hrun⟩ := System.run_cons.mp hrun
    obtain ⟨ht, hle⟩ := step_inv h event hstep
    exact le_trans hle (ih ht hrun)

/-! ## 4. Publication in order -/

end System

def stoppedHarness : HarnessRuntimeInfo := ⟨.stopped, none, none, none, none, none⟩

def failedHarness : HarnessRuntimeInfo := ⟨.failed, none, some 1, none, none, none⟩

/-- The state of an agent after its start. -/
def runningAgent : AgentState := ⟨.running, .stopped, some "web", none, 0, 0⟩

/-- Two calls: the harness changes under the first one, and its second write fails when the file
is already replaced; then the second call is made. -/
def twoCalls : List (Event Nat) :=
  [.call 0 fun state => { state with release := some "r2" },
    .lock 0, .call 1 fun state => { state with profile := some "work" }, .observe 0, .apply 0 5,
    .supervise 1 failedHarness, .persist 0 .written, .observe 0, .apply 0 6,
    .persist 0 (.failedAfter ⟨.other, "sync"⟩)]

def secondCall : List (Event Nat) := [.lock 1, .observe 1, .apply 1 7, .persist 1 .written]

end DshNexus.Agent.StatePublication
