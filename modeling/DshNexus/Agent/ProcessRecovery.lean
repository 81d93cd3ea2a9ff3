import DshNexus.Concurrent.System
import DshNexus.Core.Integer
import DshNexus.Core.Table

/-!
# The ownership of processes

`crates/nexus-agent/src/process_recovery.rs`, as on Unix.  An owner creates a lock file, locks
it, and writes a process identity and a record beside it; its processes form one group.
`reconcile` takes the lock of every lock file it finds, checks the group of every record, and
removes the files.

The steps of all owners and all reconciliations interleave.  A lock belongs to the open file,
which may be unlinked meanwhile; an owner that dies releases its lock, and its processes go on.
-/

namespace DshNexus.Agent

open Concurrent

/-! ## The state directory -/

inductive Holder where
  | owner
  | reconcile (r : Nat)
  deriving DecidableEq, Repr

/-- Where an owner is in `create` and `finish`; it exists from `live` on. -/
inductive OwnerPhase where
  /-- its lock file is created -/
  | created
  | locked
  | pidWritten
  /-- `create` has returned -/
  | live
  | recordRemoved
  | pidRemoved
  | leaseDropped
  /-- it has failed, finished or died -/
  | gone
  deriving DecidableEq, Repr

/-- Where a reconciliation is with a lock file. -/
inductive ReconcilePhase where
  /-- it comes to the next lock file -/
  | next
  | opened (id : String)
  | locked (id : String)
  /-- it has read a record -/
  | recorded (id : String)
  /-- there is no live member -/
  | quiescent (id : String)
  | recordRemoved (id : String)
  | pidRemoved (id : String)
  | leaseDropped (id : String)
  deriving DecidableEq, Repr

structure Reconcile where
  /-- the lock files of the listing that are to come -/
  pending : List String
  entries : Nat
  phase : ReconcilePhase
  deriving DecidableEq, Repr

structure Registry where
  owners : AList fun _ : String => OwnerPhase
  reconciles : AList fun _ : Nat => Reconcile
  /-- the `.lock` files -/
  lockFiles : List String
  /-- the locks on the files, linked or not -/
  held : AList fun _ : String => Holder
  /-- the `.pid` files, and whether a group is written in them -/
  pids : AList fun _ : String => Bool
  /-- the `.json` files, with their job -/
  records : AList fun _ : String => String
  /-- the owners whose group has a live member -/
  live : List String

/-- A name that `reconcile` accepts. -/
def isOwnerId (id : String) : Bool :=
  id.utf8ByteSize = 64 && id.toList.all fun c => c.isDigit || ('a' ≤ c.toLower && c.toLower ≤ 'f')

/-- A record that `reconcile` accepts. -/
def isSupportedJob (job : String) : Bool :=
  job.startsWith "Global\\Nexus" && job.utf8ByteSize ≤ 200

def RECOVERY_RECORD_LIMIT : Nat := 4096

inductive RegistryEvent where
  /-- `create`: the lock file, its lock, the process identity, the record -/
  | createLock (id : String)
  | tryLock (id : String)
  | writePid (id : String)
  | writeRecord (id : String) (job : String)
  | createFails (id : String)
  | spawn (id : String)
  /-- the last member of a group exits -/
  | groupExits (id : String)
  /-- the owner dies, or is dropped without `finish` -/
  | crash (id : String)
  /-- `finish`: the record, the process identity, the lock, the lock file -/
  | finishRecord (id : String)
  | finishPid (id : String)
  | finishLease (id : String)
  | finishLock (id : String)
  | finishFails (id : String)
  /-- `reconcile`: the listing, and then for each lock file its steps -/
  | list (r : Nat)
  | openLock (r : Nat)
  | lockLease (r : Nat)
  | readRecord (r : Nat)
  | checkGroup (r : Nat)
  | deleteRecord (r : Nat)
  | deletePid (r : Nat)
  | dropLease (r : Nat)
  | unlinkLock (r : Nat)
  | returns (r : Nat)
  | reconcileFails (r : Nat)

namespace Registry

variable (s : Registry)

def setOwner (id : String) (phase : OwnerPhase) : Registry :=
  { s with owners := s.owners.insert id phase }

def setReconcile (r : Nat) (reconcile : Reconcile) : Registry :=
  { s with reconciles := s.reconciles.insert r reconcile }

def setPhase (r : Nat) (reconcile : Reconcile) (phase : ReconcilePhase) : Registry :=
  s.setReconcile r { reconcile with phase }

/-- A reconciliation ends; a lease that it holds is dropped. -/
def endReconcile (r : Nat) (reconcile : Reconcile) : Registry :=
  { s with
    reconciles := s.reconciles.erase r
    held :=
      match reconcile.phase with
      | .locked id | .recorded id | .quiescent id | .recordRemoved id | .pidRemoved id =>
          s.held.erase id
      | .next | .opened _ | .leaseDropped _ => s.held }

/-- The owner is gone, and with it its lock. -/
def dropOwner (id : String) (phase : OwnerPhase) : Registry :=
  { s with
    owners := s.owners.insert id .gone
    held :=
      match phase with
      | .locked | .pidWritten | .live | .recordRemoved | .pidRemoved => s.held.erase id
      | .created | .leaseDropped | .gone => s.held }

def ownerStep (id : String) (phase : OwnerPhase) : RegistryEvent → Option Registry
  | .tryLock _ =>
      match phase, s.held.lookup id with
      | .created, none => some { s.setOwner id .locked with held := s.held.insert id .owner }
      | .created, some _ => some (s.setOwner id .gone)
      | _, _ => none
  | .writePid _ =>
      if phase = .locked then
        some { s.setOwner id .pidWritten with pids := s.pids.insert id false }
      else none
  | .writeRecord _ job =>
      if phase = .pidWritten then
        some { s.setOwner id .live with records := s.records.insert id job }
      else none
  | .createFails _ =>
      if phase = .created ∨ phase = .locked ∨ phase = .pidWritten then some (s.dropOwner id phase)
      else none
  | .spawn _ =>
      if phase = .live ∧ s.pids.lookup id = some false then
        some { s with pids := s.pids.insert id true, live := id :: s.live }
      else none
  | .crash _ => if phase = .gone then none else some (s.dropOwner id phase)
  -- the callers finish an owner only when its group is quiescent
  | .finishRecord _ =>
      if phase = .live ∧ id ∉ s.live then
        some { s.setOwner id .recordRemoved with records := s.records.erase id }
      else none
  | .finishPid _ =>
      if phase = .recordRemoved then
        some { s.setOwner id .pidRemoved with pids := s.pids.erase id }
      else none
  | .finishLease _ =>
      if phase = .pidRemoved then
        some { s.setOwner id .leaseDropped with held := s.held.erase id }
      else none
  | .finishLock _ =>
      if phase = .leaseDropped then
        some { s.setOwner id .gone with lockFiles := s.lockFiles.filter (· ≠ id) }
      else none
  | .finishFails _ =>
      if (phase = .live ∧ id ∉ s.live) ∨ phase = .recordRemoved ∨ phase = .leaseDropped then
        some (s.dropOwner id phase)
      else none
  | _ => none

def reconcileStep (r : Nat) (reconcile : Reconcile) : RegistryEvent → Option Registry
  | .openLock _ =>
      match reconcile.phase, reconcile.pending with
      | .next, id :: pending =>
          let reconcile : Reconcile := ⟨pending, reconcile.entries + 1, .opened id⟩
          if reconcile.entries > RECOVERY_RECORD_LIMIT ∨ isOwnerId id = false ∨ id ∉ s.lockFiles then
            some (s.endReconcile r reconcile)
          else some (s.setReconcile r reconcile)
      | _, _ => none
  | .lockLease _ =>
      match reconcile.phase with
      | .opened id =>
          if (s.held.lookup id).isSome = true then some (s.endReconcile r reconcile)
          else
            some { s.setPhase r reconcile (.locked id) with held := s.held.insert id (.reconcile r) }
      | _ => none
  | .readRecord _ =>
      match reconcile.phase with
      | .locked id =>
          match s.records.lookup id with
          | none => some (s.setPhase r reconcile (.recordRemoved id))
          | some job =>
              if isSupportedJob job = false then some (s.endReconcile r reconcile)
              else some (s.setPhase r reconcile (.recorded id))
      | _ => none
  | .checkGroup _ =>
      match reconcile.phase with
      | .recorded id =>
          match s.pids.lookup id with
          | none => some (s.endReconcile r reconcile)
          | some group =>
              if group = true ∧ id ∈ s.live then some (s.endReconcile r reconcile)
              else some (s.setPhase r reconcile (.quiescent id))
      | _ => none
  | .deleteRecord _ =>
      match reconcile.phase with
      | .quiescent id =>
          some { s.setPhase r reconcile (.recordRemoved id) with records := s.records.erase id }
      | _ => none
  | .deletePid _ =>
      match reconcile.phase with
      | .recordRemoved id =>
          some { s.setPhase r reconcile (.pidRemoved id) with pids := s.pids.erase id }
      | _ => none
  | .dropLease _ =>
      match reconcile.phase with
      | .pidRemoved id =>
          some { s.setPhase r reconcile (.leaseDropped id) with held := s.held.erase id }
      | _ => none
  | .unlinkLock _ =>
      match reconcile.phase with
      | .leaseDropped id =>
          some { s.setPhase r reconcile .next with lockFiles := s.lockFiles.filter (· ≠ id) }
      | _ => none
  | .returns _ =>
      if reconcile.phase = .next ∧ reconcile.pending = [] then some (s.endReconcile r reconcile)
      else none
  | .reconcileFails _ => some (s.endReconcile r reconcile)
  | _ => none

def step (s : Registry) (event : RegistryEvent) : Option Registry :=
  match event with
  | .createLock id =>
      -- the name is new: 256 random bits
      if (s.owners.lookup id).isSome = true ∨ isOwnerId id = false then none
      else some { s.setOwner id .created with lockFiles := id :: s.lockFiles }
  | .groupExits id => some { s with live := s.live.filter (· ≠ id) }
  | .list r =>
      if (s.reconciles.lookup r).isSome = true then none
      else some (s.setReconcile r ⟨s.lockFiles, 0, .next⟩)
  | .tryLock id | .writePid id | .writeRecord id _ | .createFails id | .spawn id | .crash id
  | .finishRecord id | .finishPid id | .finishLease id | .finishLock id | .finishFails id =>
      (s.owners.lookup id).bind fun phase => s.ownerStep id phase event
  | .openLock r | .lockLease r | .readRecord r | .checkGroup r | .deleteRecord r | .deletePid r
  | .dropLease r | .unlinkLock r | .returns r | .reconcileFails r =>
      (s.reconciles.lookup r).bind fun reconcile => s.reconcileStep r reconcile event

def system : System Registry RegistryEvent where
  init := ⟨∅, ∅, [], ∅, ∅, ∅, []⟩
  step := step

end Registry

end DshNexus.Agent
