import DshNexus.Agent.Authorization
import DshNexus.Core.Table

/-!
# Request receipts

`crates/nexus-agent/src/request_receipts.rs`.  A request whose repetition would change data has
an identifier with the time of its issue.  Its receipt is saved before the handler is entered and
again when the handler has returned; both happen under one lock, which is held from the load to
the save.

The clock is sampled before the lock is awaited, and again in the load.

* `Recorded`: within the retry window of its identifier, a receipt that was saved is in the file.
* `entered_once`: the handler is entered at most once from within the retry window, and a repeat
  in the window is answered from the receipt.
-/

namespace DshNexus.Agent

open Concurrent

/-! ## Receipts -/

/-- The seconds for which an identifier is good. -/
def LIFETIME : Nat := 24 * 60 * 60

def LIMIT : Nat := 256

inductive ReceiptState where
  | running
  | completed
  | failed
  | interrupted
  deriving DecidableEq, Repr

structure Receipt where
  requestId : String
  kind : String
  state : ReceiptState
  httpStatus : StatusCode
  errorCode : Option String
  operationId : Option String
  targetId : Option String
  createdAtUnix : Nat
  updatedAtUnix : Nat
  /-- the digest of the path and the parameters -/
  fingerprint : String
  deriving DecidableEq, Repr

structure ReceiptRequest where
  requestId : String
  kind : String
  targetId : Option String
  fingerprint : String
  deriving DecidableEq, Repr

def splitOnce (separator : Char) : List Char → Option (List Char × List Char)
  | [] => none
  | c :: cs =>
      if c = separator then some ([], cs)
      else (splitOnce separator cs).map fun parts => (c :: parts.1, parts.2)

/-- `timestamp`: the time of issue of a well-formed identifier. -/
def timestamp (id : String) : Option Nat :=
  match splitOnce '-' id.toList with
  | none => none
  | some (time, random) =>
      if (random.length = 32 ∨ random.length = 64) ∧ random.all isLowerHex = true then
        (parseU64 (String.ofList time)).filter fun value => toString value = String.ofList time
      else none

/-- The time of issue is not too far ahead, and not too long ago. -/
def InRetryWindow (issued now : Nat) : Prop :=
  issued ≤ saturatingAdd now 60 ∧ now - issued ≤ LIFETIME

instance (issued now : Nat) : Decidable (InRetryWindow issued now) :=
  inferInstanceAs (Decidable (_ ∧ _))

def isRetained (active : List String) (now : Nat) (item : Receipt) : Bool :=
  active.contains item.requestId ||
    (timestamp item.requestId).any fun issued => InRetryWindow issued now

/-- A receipt whose owner is gone has an unknown outcome. -/
def markInterrupted (active : List String) (item : Receipt) : Receipt :=
  if item.state = .running ∧ active.contains item.requestId = false then
    { item with
      state := .interrupted, httpStatus := 409, errorCode := some "request_interrupted" }
  else item

/-- `load`. -/
def loadReceipts (disk : List Receipt) (active : List String) (now : Nat) :
    Except IoError (List Receipt) :=
  let requests := disk.filter (isRetained active now)
  if requests.length > LIMIT then .error ⟨.other, "Request receipt capacity reached"⟩
  else .ok (requests.map (markInterrupted active))

/-- The status of `reply`. -/
def replyStatus (item : Receipt) : StatusCode :=
  match item.state with
  | .running => 202
  | .completed => 200
  | _ => item.httpStatus

/-! ## Admission -/

/-- What the critical section of a request decides. -/
inductive Admission where
  /-- the receipts cannot be read: 503 -/
  | unavailable (e : IoError)
  /-- other parameters: 409, `request_id_conflict` -/
  | conflict
  /-- the reply of the receipt -/
  | recorded (item : Receipt)
  /-- outside its retry window: 409, `request_id_expired` -/
  | expired
  /-- 429, `request_history_full` -/
  | full
  /-- the receipts to save before the handler is entered -/
  | accepted (requests : List Receipt)
  deriving DecidableEq

def newReceipt (request : ReceiptRequest) (now : Nat) : Receipt :=
  ⟨request.requestId, request.kind, .running, 202, none, none, request.targetId, now, now,
    request.fingerprint⟩

/-- The critical section of `enforce`, with the clock sample of the request and that of the
load. -/
def admission (disk : List Receipt) (active : List String) (loadedAt : Nat)
    (request : ReceiptRequest) (issued now : Nat) : Admission :=
  match loadReceipts disk active loadedAt with
  | .error e => .unavailable e
  | .ok requests =>
      match requests.find? fun item => item.requestId = request.requestId with
      | some item =>
          if item.fingerprint ≠ request.fingerprint then .conflict else .recorded item
      | none =>
          if ¬ InRetryWindow issued now then .expired
          else if requests.length ≥ LIMIT then .full
          else .accepted (requests ++ [newReceipt request now])

/-! ## Completion -/

structure ResponseFields where
  operationId : Option String
  targetId : Option String
  errorCode : Option String

/-- The response of a handler; no body when it exceeds the limit, no fields when it is not
JSON. -/
structure HandlerResponse where
  status : StatusCode
  body : Option (Option ResponseFields)

def finalizeReceipt (item : Receipt) (response : HandlerResponse) (now : Nat) : Receipt :=
  let item :=
    { item with
      state :=
        if 200 ≤ response.status ∧ response.status < 300 ∧ response.body.isSome = true then .completed
        else .failed
      httpStatus := response.status
      updatedAtUnix := now }
  match response.body with
  | none =>
      { item with
        state := .interrupted, httpStatus := 409, errorCode := some "request_interrupted" }
  | some none => item
  | some (some fields) =>
      let item :=
        { item with
          operationId := fields.operationId
          targetId := fields.targetId.or item.targetId
          errorCode := fields.errorCode }
      if fields.errorCode = some "request_interrupted" then
        { item with state := .interrupted, httpStatus := 409 }
      else item

/-- The receipts with another one in the place of the first with its identifier. -/
def replaceReceipt (item : Receipt) : List Receipt → List Receipt
  | [] => []
  | other :: requests =>
      if other.requestId = item.requestId then item :: requests
      else other :: replaceReceipt item requests

/-- The critical section at the end of a handler: the receipts to save, and the one that has
changed. -/
def completion (disk : List Receipt) (active : List String) (now : Nat) (id : String)
    (response : HandlerResponse) : Except IoError (List Receipt × Receipt) := do
  let requests ← loadReceipts disk active now
  match requests.find? fun item => item.requestId = id with
  | none => throw ⟨.other, "Request receipt disappeared"⟩
  | some item =>
      let item := finalizeReceipt item response now
      pure (replaceReceipt item requests, item)

/-! ## The Agent -/

inductive ReceiptTask where
  /-- it has sampled the clock and waits for the lock -/
  | waiting (request : ReceiptRequest) (issued now : Nat)
  /-- its handler is entered -/
  | running (id : String)
  deriving DecidableEq

/-- What happened, the last thing first; read by no step. -/
inductive ReceiptRecord where
  /-- a handler was entered, after a load at the given time -/
  | entered (id fingerprint : String) (loadedAt : Nat)
  /-- the outcome of a handler was saved -/
  | finished (item : Receipt)
  deriving DecidableEq

structure ReceiptAgent where
  clock : Nat
  /-- `request-receipts.json` -/
  disk : List Receipt
  active : List String
  tasks : AList fun _ : Nat => ReceiptTask
  log : List ReceiptRecord

inductive SaveOutcome where
  | saved
  /-- it reports an error, and the file is the old one -/
  | failedBefore
  /-- it reports an error, and the file is the new one -/
  | failedAfter
  /-- the Agent stops after it -/
  | stoppedAfter
  deriving DecidableEq, Repr

inductive ReceiptEvent where
  | tick (seconds : Nat)
  | arrive (task : Nat) (request : ReceiptRequest)
  | admission (task : Nat) (save : SaveOutcome)
  | finish (task : Nat) (response : HandlerResponse) (save : SaveOutcome)
  | restart

namespace ReceiptAgent

variable (s : ReceiptAgent)

def restarted : ReceiptAgent := { s with active := [], tasks := ∅ }

/-- The handler of a request is entered when its receipt is saved. -/
def admitAccepted (task : Nat) (request : ReceiptRequest) (requests : List Receipt) :
    SaveOutcome → ReceiptAgent
  | .saved =>
      { s with
        disk := requests
        active := request.requestId :: s.active
        tasks := s.tasks.insert task (.running request.requestId)
        log := .entered request.requestId request.fingerprint s.clock :: s.log }
  | .failedBefore => { s with tasks := s.tasks.erase task }
  | .failedAfter => { s with disk := requests, tasks := s.tasks.erase task }
  | .stoppedAfter => { s.restarted with disk := requests }

def released (task : Nat) (id : String) : ReceiptAgent :=
  { s with active := s.active.filter (· ≠ id), tasks := s.tasks.erase task }

def finishRecorded (task : Nat) (id : String) (requests : List Receipt) (item : Receipt) :
    SaveOutcome → ReceiptAgent
  | .saved | .failedAfter =>
      { s.released task id with disk := requests, log := .finished item :: s.log }
  | .failedBefore => s.released task id
  | .stoppedAfter => { s.restarted with disk := requests, log := .finished item :: s.log }

def step (s : ReceiptAgent) : ReceiptEvent → Option ReceiptAgent
  | .tick seconds =>
      if s.clock + seconds ≤ U64_MAX then some { s with clock := s.clock + seconds } else none
  | .arrive task request =>
      match s.tasks.lookup task, timestamp request.requestId with
      | some _, _ => none
      -- 400, `request_id_required`
      | none, none => some s
      | none, some issued =>
          some { s with tasks := s.tasks.insert task (.waiting request issued s.clock) }
  | .admission task save =>
      match s.tasks.lookup task with
      | some (.waiting request issued now) =>
          match admission s.disk s.active s.clock request issued now with
          | .accepted requests => some (s.admitAccepted task request requests save)
          | _ => some { s with tasks := s.tasks.erase task }
      | _ => none
  | .finish task response save =>
      match s.tasks.lookup task with
      | some (.running id) =>
          match completion s.disk s.active s.clock id response with
          | .error _ => some (s.released task id)
          | .ok (requests, item) => some (s.finishRecorded task id requests item save)
      | _ => none
  | .restart => some s.restarted

/-- An Agent without receipts, at the given time. -/
def system (clock : Nat) : System ReceiptAgent ReceiptEvent where
  init := ⟨clock, [], [], ∅, []⟩
  step := step

end ReceiptAgent

/-! ## What a load keeps -/

variable {disk requests : List Receipt} {active : List String} {item : Receipt} {now : Nat}

@[simp] theorem requestId_markInterrupted :
    (markInterrupted active item).requestId = item.requestId := by
  unfold markInterrupted
  split <;> rfl

@[simp] theorem fingerprint_markInterrupted :
    (markInterrupted active item).fingerprint = item.fingerprint := by
  unfold markInterrupted
  split <;> rfl

theorem markInterrupted_cases (active : List String) (item : Receipt) :
    (markInterrupted active item).state = .interrupted ∨
    markInterrupted active item = item ∧
      (item.state = .running → active.contains item.requestId = true) := by
  unfold markInterrupted
  split
  · exact Or.inl rfl
  · next h =>
    refine Or.inr ⟨rfl, fun hstate => ?_⟩
    rw [not_and, Bool.not_eq_false] at h
    exact h hstate

@[simp] theorem requestId_finalizeReceipt (response : HandlerResponse) :
    (finalizeReceipt item response now).requestId = item.requestId := by
  unfold finalizeReceipt
  dsimp only
  split
  · rfl
  · rfl
  · split <;> rfl

@[simp] theorem fingerprint_finalizeReceipt (response : HandlerResponse) :
    (finalizeReceipt item response now).fingerprint = item.fingerprint := by
  unfold finalizeReceipt
  dsimp only
  split
  · rfl
  · rfl
  · split <;> rfl

theorem loadReceipts_eq_ok (h : loadReceipts disk active now = .ok requests) :
    requests = (disk.filter (isRetained active now)).map (markInterrupted active) ∧
      requests.length ≤ LIMIT := by
  rw [loadReceipts] at h
  split at h
  · exact nomatch h
  · next hlength =>
    rw [← Except.ok.inj h]
    exact ⟨rfl, by rw [List.length_map]; omega⟩

theorem exists_loadReceipts (active : List String) (now : Nat) (h : disk.length ≤ LIMIT) :
    ∃ requests, loadReceipts disk active now = .ok requests := by
  have hlength := List.length_filter_le (isRetained active now) disk
  rw [loadReceipts, if_neg (by omega)]
  exact ⟨_, rfl⟩

theorem ids_loadReceipts (h : loadReceipts disk active now = .ok requests) :
    (requests.map (·.requestId)).Sublist (disk.map (·.requestId)) := by
  obtain ⟨rfl, -⟩ := loadReceipts_eq_ok h
  have hids : ((disk.filter (isRetained active now)).map (markInterrupted active)).map
      (·.requestId) = (disk.filter (isRetained active now)).map (·.requestId) := by
    rw [List.map_map]
    exact List.map_congr_left fun _ _ => requestId_markInterrupted
  rw [hids]
  exact List.filter_sublist.map _

theorem mem_of_inRetryWindow (h : loadReceipts disk active now = .ok requests)
    (hitem : item ∈ disk) {issued : Nat} (hissued : timestamp item.requestId = some issued)
    (hwindow : InRetryWindow issued now) : markInterrupted active item ∈ requests := by
  obtain ⟨rfl, -⟩ := loadReceipts_eq_ok h
  refine List.mem_map_of_mem (List.mem_filter.mpr ⟨hitem, ?_⟩)
  rw [isRetained, hissued]
  simp [hwindow]

theorem find?_eq_of_mem (hnodup : (requests.map (·.requestId)).Nodup) (hitem : item ∈ requests) :
    (requests.find? fun other => other.requestId = item.requestId) = some item := by
  rw [List.find?_eq_some_iff_append]
  obtain ⟨before, after, rfl⟩ := List.append_of_mem hitem
  refine ⟨by simp, before, after, rfl, fun other hother => ?_⟩
  rw [List.map_append, List.nodup_append] at hnodup
  have hne := hnodup.2.2 other.requestId (List.mem_map_of_mem hother) item.requestId
    (by simp)
  simpa using hne

theorem mem_replaceReceipt {other : Receipt} (h : other ∈ replaceReceipt item requests) :
    other = item ∨ other ∈ requests := by
  induction requests with
  | nil => exact nomatch h
  | cons first requests ih =>
    rw [replaceReceipt] at h
    split at h
    · exact (List.mem_cons.mp h).imp_right (List.mem_cons_of_mem _)
    · rcases List.mem_cons.mp h with rfl | h
      · exact Or.inr (List.mem_cons_self ..)
      · exact (ih h).imp_right (List.mem_cons_of_mem _)

theorem ids_replaceReceipt (item : Receipt) (requests : List Receipt) :
    (replaceReceipt item requests).map (·.requestId) = requests.map (·.requestId) := by
  induction requests with
  | nil => rfl
  | cons first requests ih =>
    rw [replaceReceipt]
    split
    · next h => rw [List.map_cons, List.map_cons, h]
    · rw [List.map_cons, List.map_cons, ih]

theorem exists_mem_replaceReceipt (item : Receipt) {other : Receipt} (hother : other ∈ requests)
    (hfingerprint : other.requestId = item.requestId → other.fingerprint = item.fingerprint) :
    ∃ found ∈ replaceReceipt item requests, found.requestId = other.requestId ∧
      found.fingerprint = other.fingerprint := by
  induction requests with
  | nil => exact nomatch hother
  | cons first requests ih =>
    rw [replaceReceipt]
    rcases List.mem_cons.mp hother with rfl | hother
    · split
      · next h => exact ⟨item, List.mem_cons_self .., h.symm, (hfingerprint h).symm⟩
      · exact ⟨other, List.mem_cons_self .., rfl, rfl⟩
    · split
      · exact ⟨other, List.mem_cons_of_mem _ hother, rfl, rfl⟩
      · obtain ⟨found, hfound, hid, hf⟩ := ih hother
        exact ⟨found, List.mem_cons_of_mem _ hfound, hid, hf⟩

/-! ## The invariant -/

/-- The file has a receipt of every request whose handler was entered, as long as the retry
window is open. -/
structure ReceiptsSound (s : ReceiptAgent) : Prop where
  nodup : (s.disk.map (·.requestId)).Nodup
  bounded : s.disk.length ≤ LIMIT
  waiting : ∀ task request issued now, s.tasks.lookup task = some (.waiting request issued now) →
    timestamp request.requestId = some issued ∧ now ≤ s.clock
  entered : ∀ id fingerprint loadedAt, .entered id fingerprint loadedAt ∈ s.log →
    loadedAt ≤ s.clock ∧ ∃ issued, timestamp id = some issued ∧
      issued ≤ saturatingAdd loadedAt 60 ∧ (s.clock - issued ≤ LIFETIME →
        ∃ item ∈ s.disk, item.requestId = id ∧ item.fingerprint = fingerprint)
  finished : ∀ item ∈ s.disk, item.state = .completed ∨ item.state = .failed →
    .finished item ∈ s.log

theorem saturatingAdd_le_saturatingAdd {a b c : Nat} (h : a ≤ b) :
    saturatingAdd a c ≤ saturatingAdd b c := by
  unfold saturatingAdd
  omega

theorem ReceiptsSound.find?_eq {s : ReceiptAgent} (h : ReceiptsSound s)
    {id fingerprint : String} {loadedAt issued : Nat}
    (hentered : .entered id fingerprint loadedAt ∈ s.log) (hissued : timestamp id = some issued)
    (hwindow : s.clock - issued ≤ LIFETIME)
    (hload : loadReceipts s.disk s.active s.clock = .ok requests) :
    ∃ item ∈ s.disk, item.fingerprint = fingerprint ∧ item.requestId = id ∧
      (requests.find? fun other => other.requestId = id) = some (markInterrupted s.active item) := by
  obtain ⟨hle, issued', hissued', hahead, hkept⟩ := h.entered id fingerprint loadedAt hentered
  obtain rfl := Option.some.inj (hissued.symm.trans hissued')
  obtain ⟨item, hitem, rfl, hfingerprint⟩ := hkept hwindow
  refine ⟨item, hitem, hfingerprint, rfl, ?_⟩
  have hmem := mem_of_inRetryWindow hload hitem hissued
    ⟨le_trans hahead (saturatingAdd_le_saturatingAdd hle), hwindow⟩
  have hfind := find?_eq_of_mem ((ids_loadReceipts hload).nodup h.nodup) hmem
  rwa [requestId_markInterrupted] at hfind

/-- Receipts that may take the place of those in the file: none that is in its retry window is
lost. -/
structure Rewrites (s : ReceiptAgent) (log : List ReceiptRecord) (requests : List Receipt) :
    Prop where
  nodup : (requests.map (·.requestId)).Nodup
  bounded : requests.length ≤ LIMIT
  keeps : ∀ item ∈ s.disk, ∀ issued, timestamp item.requestId = some issued →
    InRetryWindow issued s.clock →
      ∃ found ∈ requests, found.requestId = item.requestId ∧ found.fingerprint = item.fingerprint
  finished : ∀ item ∈ requests, item.state = .completed ∨ item.state = .failed →
    .finished item ∈ log

variable {s s' : ReceiptAgent}

theorem loadReceipts_rewrites (h : ReceiptsSound s)
    (hload : loadReceipts s.disk s.active s.clock = .ok requests) : Rewrites s s.log requests := by
  obtain ⟨hrequests, hbounded⟩ := loadReceipts_eq_ok hload
  refine ⟨(ids_loadReceipts hload).nodup h.nodup, hbounded, fun item hitem issued hissued hw =>
    ⟨_, mem_of_inRetryWindow hload hitem hissued hw, by simp, by simp⟩, fun found hfound hstate => ?_⟩
  rw [hrequests] at hfound
  obtain ⟨item, hitem, rfl⟩ := List.mem_map.mp hfound
  rcases markInterrupted_cases s.active item with hinterrupted | ⟨hsame, -⟩
  · rw [hinterrupted] at hstate
    rcases hstate with hstate | hstate <;> exact nomatch hstate
  · rw [hsame] at hstate ⊢
    exact h.finished item (List.mem_filter.mp hitem).1 hstate

theorem admission_eq_accepted {request : ReceiptRequest} {issued now : Nat} (h : ReceiptsSound s)
    (haccepted : admission s.disk s.active s.clock request issued now = .accepted requests) :
    InRetryWindow issued now ∧ Rewrites s s.log requests ∧ newReceipt request now ∈ requests ∧
      ∃ loaded, loadReceipts s.disk s.active s.clock = .ok loaded ∧
        (loaded.find? fun item => item.requestId = request.requestId) = none := by
  unfold admission at haccepted
  split at haccepted
  · exact nomatch haccepted
  next loaded hload =>
  split at haccepted
  · split at haccepted <;> exact nomatch haccepted
  next hnone =>
  split at haccepted
  · exact nomatch haccepted
  next hwindow =>
  split at haccepted
  · exact nomatch haccepted
  next hroom =>
  rw [← Admission.accepted.inj haccepted]
  have hloaded := loadReceipts_rewrites h hload
  refine ⟨not_not.mp hwindow, ⟨?_, ?_, fun item hitem t ht hw => ?_, fun item hitem hstate => ?_⟩,
    by simp, loaded, hload, hnone⟩
  · rw [List.map_append, List.nodup_append]
    refine ⟨hloaded.nodup, by simp, fun id hid other hother => ?_⟩
    obtain ⟨item, hitem, rfl⟩ := List.mem_map.mp hid
    have hne := List.find?_eq_none.mp hnone item hitem
    rw [List.map_singleton, List.mem_singleton] at hother
    rw [hother]
    simpa [newReceipt] using hne
  · rw [List.length_append, List.length_singleton]
    omega
  · obtain ⟨found, hfound, hsame⟩ := hloaded.keeps item hitem t ht hw
    exact ⟨found, List.mem_append_left _ hfound, hsame⟩
  · rcases List.mem_append.mp hitem with hitem | hitem
    · exact hloaded.finished item hitem hstate
    · rw [List.mem_singleton.mp hitem, newReceipt] at hstate
      rcases hstate with hstate | hstate <;> exact nomatch hstate

theorem completion_eq_ok {id : String} {response : HandlerResponse} (h : ReceiptsSound s)
    (hok : completion s.disk s.active s.clock id response = .ok (requests, item)) :
    Rewrites s (.finished item :: s.log) requests := by
  obtain ⟨loaded, hload, hafter⟩ := bind_eq_ok hok
  have hloaded := loadReceipts_rewrites h hload
  split at hafter
  · exact nomatch hafter
  next old hold =>
  obtain ⟨rfl, rfl⟩ := Prod.mk.inj (Except.ok.inj hafter)
  have holdmem := List.mem_of_find?_eq_some hold
  refine ⟨?_, ?_, fun other hother t ht hw => ?_, fun other hother hstate => ?_⟩
  · rw [ids_replaceReceipt]
    exact hloaded.nodup
  · rw [← List.length_map (·.requestId), ids_replaceReceipt, List.length_map]
    exact hloaded.bounded
  · obtain ⟨found, hfound, hid, hfingerprint⟩ := hloaded.keeps other hother t ht hw
    obtain ⟨found', hfound', hid', hfingerprint'⟩ := exists_mem_replaceReceipt
      (finalizeReceipt old response s.clock) hfound fun heq => by
        -- the identifiers are different, so it is the same receipt
        rw [requestId_finalizeReceipt] at heq
        have hsame := find?_eq_of_mem hloaded.nodup hfound
        rw [heq, find?_eq_of_mem hloaded.nodup holdmem] at hsame
        rw [fingerprint_finalizeReceipt, Option.some.inj hsame]
    exact ⟨found', hfound', hid'.trans hid, hfingerprint'.trans hfingerprint⟩
  · rcases mem_replaceReceipt hother with rfl | hother
    · exact List.mem_cons_self ..
    · exact List.mem_cons_of_mem _ (hloaded.finished other hother hstate)

theorem ReceiptsSound.rewrite (h : ReceiptsSound s) (hclock : s'.clock = s.clock)
    (hrewrites : Rewrites s s'.log s'.disk)
    (htasks : ∀ task request issued now, s'.tasks.lookup task = some (.waiting request issued now) →
      s.tasks.lookup task = some (.waiting request issued now))
    (hlog : ∀ id fingerprint loadedAt, .entered id fingerprint loadedAt ∈ s'.log →
      .entered id fingerprint loadedAt ∈ s.log ∨ loadedAt = s.clock ∧
        ∃ issued, timestamp id = some issued ∧ issued ≤ saturatingAdd loadedAt 60 ∧
          ∃ item ∈ s'.disk, item.requestId = id ∧ item.fingerprint = fingerprint) :
    ReceiptsSound s' := by
  refine ⟨hrewrites.nodup, hrewrites.bounded, fun task request issued now htask => ?_,
    fun id fingerprint loadedAt hentered => ?_, hrewrites.finished⟩
  · rw [hclock]
    exact h.waiting task request issued now (htasks task request issued now htask)
  · rw [hclock]
    rcases hlog id fingerprint loadedAt hentered with hold | ⟨rfl, issued, hissued, hahead, hitem⟩
    · obtain ⟨hle, issued, hissued, hahead, hkept⟩ := h.entered id fingerprint loadedAt hold
      refine ⟨hle, issued, hissued, hahead, fun hw => ?_⟩
      obtain ⟨item, hitem, rfl, rfl⟩ := hkept hw
      exact hrewrites.keeps item hitem issued hissued
        ⟨le_trans hahead (saturatingAdd_le_saturatingAdd hle), hw⟩
    · exact ⟨le_refl _, issued, hissued, hahead, fun _ => hitem⟩

theorem ReceiptsSound.congr (h : ReceiptsSound s) (hclock : s'.clock = s.clock)
    (hdisk : s'.disk = s.disk) (hlog : s'.log = s.log)
    (htasks : ∀ task request issued now, s'.tasks.lookup task = some (.waiting request issued now) →
      s.tasks.lookup task = some (.waiting request issued now)) : ReceiptsSound s' := by
  refine ⟨by rw [hdisk]; exact h.nodup, by rw [hdisk]; exact h.bounded, ?_, ?_, ?_⟩
  · rw [hclock]
    exact fun task request issued now ht => h.waiting task request issued now (htasks _ _ _ _ ht)
  · rw [hclock, hdisk, hlog]
    exact h.entered
  · rw [hdisk, hlog]
    exact h.finished

theorem lookup_of_lookup_erase {task other : Nat} {value : ReceiptTask}
    (h : (s.tasks.erase task).lookup other = some value) : s.tasks.lookup other = some value := by
  rw [Table.lookup_erase] at h
  split at h
  · exact nomatch h
  · exact h

theorem receiptsSound_tick (h : ReceiptsSound s) (seconds : Nat) :
    ReceiptsSound { s with clock := s.clock + seconds } := by
  refine ⟨h.nodup, h.bounded, fun task request issued now ht => ?_,
    fun id fingerprint loadedAt hentered => ?_, h.finished⟩
  · exact (h.waiting task request issued now ht).imp_right fun hle => Nat.le_add_right_of_le hle
  · obtain ⟨hle, issued, hissued, hahead, hkept⟩ := h.entered id fingerprint loadedAt hentered
    refine ⟨Nat.le_add_right_of_le hle, issued, hissued, hahead, fun hw => hkept ?_⟩
    have hmono := Nat.sub_le_sub_right (Nat.le_add_right s.clock seconds) issued
    exact le_trans hmono hw

theorem receiptsSound_admit (h : ReceiptsSound s) {task : Nat} {request : ReceiptRequest}
    {issued now : Nat} (htask : s.tasks.lookup task = some (.waiting request issued now))
    (haccepted : admission s.disk s.active s.clock request issued now = .accepted requests)
    (save : SaveOutcome) : ReceiptsSound (s.admitAccepted task request requests save) := by
  obtain ⟨hwindow, hrewrites, hnew, -⟩ := admission_eq_accepted h haccepted
  obtain ⟨hissued, hle⟩ := h.waiting task request issued now htask
  have herase := fun other r t n =>
    @lookup_of_lookup_erase s task other (ReceiptTask.waiting r t n)
  cases save with
  | saved =>
    refine h.rewrite rfl ⟨hrewrites.nodup, hrewrites.bounded, hrewrites.keeps,
      fun item hitem hstate => List.mem_cons_of_mem _ (hrewrites.finished item hitem hstate)⟩
      (fun other r t n hother => ?_) fun id fingerprint loadedAt hentered => ?_
    · rw [ReceiptAgent.admitAccepted, Table.lookup_insert] at hother
      split at hother
      · exact nomatch hother
      · exact hother
    · rcases List.mem_cons.mp hentered with heq | hold
      · obtain ⟨rfl, rfl, rfl⟩ := ReceiptRecord.entered.inj heq
        exact Or.inr ⟨rfl, issued, hissued,
          le_trans hwindow.1 (saturatingAdd_le_saturatingAdd hle), _, hnew, rfl, rfl⟩
      · exact Or.inl hold
  | failedBefore => exact h.congr rfl rfl rfl herase
  | failedAfter => exact h.rewrite rfl hrewrites herase fun _ _ _ hentered => Or.inl hentered
  | stoppedAfter =>
    exact h.rewrite rfl hrewrites (fun _ _ _ _ hother => nomatch hother) fun _ _ _ he => Or.inl he

theorem receiptsSound_finish (h : ReceiptsSound s) {task : Nat} {id : String}
    {response : HandlerResponse}
    (hok : completion s.disk s.active s.clock id response = .ok (requests, item))
    (save : SaveOutcome) : ReceiptsSound (s.finishRecorded task id requests item save) := by
  have hrewrites := completion_eq_ok h hok
  have herase := fun other r t n =>
    @lookup_of_lookup_erase s task other (ReceiptTask.waiting r t n)
  have hlog : ∀ other fingerprint loadedAt,
      .entered other fingerprint loadedAt ∈ ReceiptRecord.finished item :: s.log →
        .entered other fingerprint loadedAt ∈ s.log := by
    intro other fingerprint loadedAt hentered
    exact (List.mem_cons.mp hentered).resolve_left (by simp)
  cases save with
  | saved => exact h.rewrite rfl hrewrites herase fun _ _ _ he => Or.inl (hlog _ _ _ he)
  | failedBefore => exact h.congr rfl rfl rfl herase
  | failedAfter => exact h.rewrite rfl hrewrites herase fun _ _ _ he => Or.inl (hlog _ _ _ he)
  | stoppedAfter =>
    exact h.rewrite rfl hrewrites (fun _ _ _ _ hother => nomatch hother)
      fun _ _ _ he => Or.inl (hlog _ _ _ he)

/-- **One step** keeps the invariant. -/
theorem receiptsSound_step (h : ReceiptsSound s) {event : ReceiptEvent}
    (hstep : s.step event = some s') : ReceiptsSound s' := by
  cases event with
  | tick seconds =>
    rw [ReceiptAgent.step] at hstep
    split at hstep
    · rw [← Option.some.inj hstep]
      exact receiptsSound_tick h seconds
    · exact nomatch hstep
  | arrive task request =>
    dsimp only [ReceiptAgent.step] at hstep
    split at hstep
    · exact nomatch hstep
    · rw [← Option.some.inj hstep]
      exact h
    · next issued hfree hissued =>
      rw [← Option.some.inj hstep]
      refine ⟨h.nodup, h.bounded, fun other r t n hother => ?_, h.entered, h.finished⟩
      rw [Table.lookup_insert] at hother
      split at hother
      · obtain ⟨rfl, rfl, rfl⟩ := ReceiptTask.waiting.inj (Option.some.inj hother)
        exact ⟨hissued, le_refl _⟩
      · exact h.waiting other r t n hother
  | admission task save =>
    dsimp only [ReceiptAgent.step] at hstep
    split at hstep
    · next request issued now htask =>
      split at hstep
      · next requests haccepted =>
        rw [← Option.some.inj hstep]
        exact receiptsSound_admit h htask haccepted save
      · rw [← Option.some.inj hstep]
        exact h.congr rfl rfl rfl fun _ _ _ _ => lookup_of_lookup_erase
    · exact nomatch hstep
  | finish task response save =>
    dsimp only [ReceiptAgent.step] at hstep
    split at hstep
    · split at hstep
      · rw [← Option.some.inj hstep]
        exact h.congr rfl rfl rfl fun _ _ _ _ => lookup_of_lookup_erase
      · next requests item hok =>
        rw [← Option.some.inj hstep]
        exact receiptsSound_finish h hok save
    · exact nomatch hstep
  | restart =>
    rw [← Option.some.inj hstep]
    exact h.congr rfl rfl rfl fun _ _ _ _ hother => nomatch hother

/-! ## At most once -/

/-- The handler was entered for the identifier, after a load in its retry window. -/
def EnteredInWindow (id : String) : ReceiptRecord → Prop
  | .entered other _ loadedAt => other = id ∧
      ∀ issued, timestamp id = some issued → loadedAt - issued ≤ LIFETIME
  | .finished _ => False

instance (id : String) : DecidablePred (EnteredInWindow id)
  | .entered _ _ loadedAt => by
      unfold EnteredInWindow
      exact decidable_of_iff (_ ∧ ∀ issued ∈ timestamp id, loadedAt - issued ≤ LIFETIME) Iff.rfl
  | .finished _ => isFalse fun h => h

/-- How often the handler was entered for the identifier from within its retry window. -/
def entries (log : List ReceiptRecord) (id : String) : Nat := log.countP (EnteredInWindow id)

theorem log_step {event : ReceiptEvent} (hstep : s.step event = some s') :
    (∀ id, entries s'.log id = entries s.log id) ∨
    ∃ task request issued now requests, s.tasks.lookup task = some (.waiting request issued now) ∧
      admission s.disk s.active s.clock request issued now = .accepted requests ∧
      s'.log = .entered request.requestId request.fingerprint s.clock :: s.log := by
  have hfinished : ∀ (item : Receipt) id, entries (.finished item :: s.log) id = entries s.log id :=
    fun item id => List.countP_cons_of_neg fun h => of_decide_eq_true h
  cases event with
  | tick seconds =>
    rw [ReceiptAgent.step] at hstep
    split at hstep
    · rw [← Option.some.inj hstep]
      exact Or.inl fun _ => rfl
    · exact nomatch hstep
  | arrive task request =>
    dsimp only [ReceiptAgent.step] at hstep
    split at hstep
    · exact nomatch hstep
    · rw [← Option.some.inj hstep]
      exact Or.inl fun _ => rfl
    · rw [← Option.some.inj hstep]
      exact Or.inl fun _ => rfl
  | admission task save =>
    dsimp only [ReceiptAgent.step] at hstep
    split at hstep
    · next request issued now htask =>
      split at hstep
      · next requests haccepted =>
        rw [← Option.some.inj hstep]
        cases save with
        | saved => exact Or.inr ⟨task, request, issued, now, requests, htask, haccepted, rfl⟩
        | failedBefore | failedAfter | stoppedAfter => exact Or.inl fun _ => rfl
      · rw [← Option.some.inj hstep]
        exact Or.inl fun _ => rfl
    · exact nomatch hstep
  | finish task response save =>
    dsimp only [ReceiptAgent.step] at hstep
    split at hstep
    · split at hstep
      · rw [← Option.some.inj hstep]
        exact Or.inl fun _ => rfl
      · next requests item hok =>
        rw [← Option.some.inj hstep]
        cases save with
        | failedBefore => exact Or.inl fun _ => rfl
        | saved | failedAfter | stoppedAfter => exact Or.inl (hfinished item)
    · exact nomatch hstep
  | restart =>
    rw [← Option.some.inj hstep]
    exact Or.inl fun _ => rfl

theorem entries_step (h : ReceiptsSound s) (honce : ∀ id, entries s.log id ≤ 1)
    {event : ReceiptEvent} (hstep : s.step event = some s') (id : String) :
    entries s'.log id ≤ 1 := by
  rcases log_step hstep with hsame | ⟨task, request, issued, now, requests, htask, haccepted, hlog⟩
  · rw [hsame]
    exact honce id
  rw [hlog, entries, List.countP_cons]
  by_cases hnew : EnteredInWindow id (.entered request.requestId request.fingerprint s.clock)
  · obtain ⟨rfl, hwindow⟩ := hnew
    -- an earlier receipt would still be in the file, and be found
    have hzero : entries s.log request.requestId = 0 := by
      rw [entries, List.countP_eq_zero]
      rintro (⟨other, fingerprint, loadedAt⟩ | item) hmem
      · intro hentered
        rw [decide_eq_true_eq] at hentered
        obtain ⟨rfl, -⟩ := hentered
        obtain ⟨-, -, -, loaded, hload, hnone⟩ := admission_eq_accepted h haccepted
        have hissued := (h.waiting task request issued now htask).1
        obtain ⟨item, -, -, -, hfind⟩ := h.find?_eq hmem hissued (hwindow issued hissued) hload
        rw [hnone] at hfind
        exact nomatch hfind
      · exact fun hentered => of_decide_eq_true hentered
    rw [entries] at hzero
    rw [hzero]
    split <;> omega
  · rw [decide_eq_false hnew]
    exact honce id

/-! ## The answer to a repeat -/

/-- What a receipt that is shown says: its request is running, its outcome is the one that was
saved, or its outcome is unknown. -/
def Truthful (s : ReceiptAgent) (item : Receipt) : Prop :=
  match item.state with
  | .running => item.requestId ∈ s.active
  | .completed | .failed => .finished item ∈ s.log
  | .interrupted => True

theorem ReceiptsSound.truthful (h : ReceiptsSound s) (hitem : item ∈ s.disk) :
    Truthful s (markInterrupted s.active item) := by
  unfold Truthful
  rcases markInterrupted_cases s.active item with hinterrupted | ⟨hsame, hrun⟩
  · rw [hinterrupted]
    trivial
  · rw [hsame]
    have hfinished := h.finished item hitem
    cases hstate : item.state with
    | running => exact List.contains_iff_mem.mp (hrun hstate)
    | completed => exact hfinished (Or.inl hstate)
    | failed => exact hfinished (Or.inr hstate)
    | interrupted => trivial

theorem ReceiptsSound.admission_repeat (h : ReceiptsSound s) {request : ReceiptRequest}
    {fingerprint : String} {loadedAt issued : Nat}
    (hentered : .entered request.requestId fingerprint loadedAt ∈ s.log)
    (hissued : timestamp request.requestId = some issued) (hwindow : s.clock - issued ≤ LIFETIME)
    (now : Nat) :
    (request.fingerprint = fingerprint → ∃ item, item.requestId = request.requestId ∧
      Truthful s item ∧
        admission s.disk s.active s.clock request issued now = .recorded item) ∧
    (request.fingerprint ≠ fingerprint →
      admission s.disk s.active s.clock request issued now = .conflict) := by
  obtain ⟨requests, hload⟩ := exists_loadReceipts s.active s.clock h.bounded
  obtain ⟨item, hitem, rfl, hid, hfind⟩ := h.find?_eq hentered hissued hwindow hload
  unfold admission
  rw [hload]
  dsimp only
  rw [hfind]
  dsimp only
  rw [fingerprint_markInterrupted]
  constructor
  · intro hsame
    refine ⟨markInterrupted s.active item, by rw [requestId_markInterrupted, hid],
      h.truthful hitem, ?_⟩
    rw [if_neg (not_not.mpr hsame.symm)]
  · intro hdiffer
    rw [if_pos (Ne.symm hdiffer)]

/-- **Each request identifier runs at most once.**  In every state that a run reaches, the
handler was entered at most once for each identifier from within its retry window; and a request
with an identifier whose handler was entered is answered, in the window, from the receipt when it
has the same parameters, and with a conflict when it has others. -/
theorem entered_once (clock : Nat) (events : List ReceiptEvent) (s : ReceiptAgent)
    (h : (ReceiptAgent.system clock).run events (ReceiptAgent.system clock).init = some s) :
    (∀ id, entries s.log id ≤ 1) ∧
    ∀ (request : ReceiptRequest) (fingerprint : String) (loadedAt issued now : Nat),
      .entered request.requestId fingerprint loadedAt ∈ s.log →
      timestamp request.requestId = some issued → s.clock - issued ≤ LIFETIME →
        (request.fingerprint = fingerprint → ∃ item, item.requestId = request.requestId ∧
          Truthful s item ∧
            admission s.disk s.active s.clock request issued now = .recorded item) ∧
        (request.fingerprint ≠ fingerprint →
          admission s.disk s.active s.clock request issued now = .conflict) := by
  have hinv : ReceiptsSound s ∧ ∀ id, entries s.log id ≤ 1 := by
    refine System.invariant (I := fun s => ReceiptsSound s ∧ ∀ id, entries s.log id ≤ 1) ?_ ?_ h
    · exact ⟨⟨List.nodup_nil, Nat.zero_le _, fun _ _ _ _ h => (nomatch h),
        fun _ _ _ h => (nomatch h), fun _ h => (nomatch h)⟩, fun _ => Nat.zero_le _⟩
    · intro s event s' hs hstep
      exact ⟨receiptsSound_step hs.1 hstep, entries_step hs.1 hs.2 hstep⟩
  exact ⟨hinv.2, fun request fingerprint loadedAt issued now hentered hissued hwindow =>
    hinv.1.admission_repeat hentered hissued hwindow now⟩

/-! ## Runs -/

def startRequest : ReceiptRequest :=
  ⟨"1000-00000000000000000000000000000000", "start", none, "start"⟩

def startedResponse : HandlerResponse := ⟨200, some (some ⟨none, none, none⟩)⟩

/-- The request is run once, and sent again. -/
def repeatedRun : List ReceiptEvent :=
  [.arrive 0 startRequest, .admission 0 .saved, .finish 0 startedResponse .saved,
    .arrive 1 startRequest]

def receiptsAfter (clock : Nat) (events : List ReceiptEvent) : ReceiptAgent :=
  ((ReceiptAgent.system clock).run events (ReceiptAgent.system clock).init).getD
    (ReceiptAgent.system clock).init

/-- The repeat of a request that has run is answered with its outcome. -/
theorem repeated_entered_once :
    entries (receiptsAfter 1000 repeatedRun).log startRequest.requestId ≤ 1 ∧
    ∃ item, item.requestId = startRequest.requestId ∧
      Truthful (receiptsAfter 1000 repeatedRun) item ∧
      admission (receiptsAfter 1000 repeatedRun).disk (receiptsAfter 1000 repeatedRun).active
        (receiptsAfter 1000 repeatedRun).clock startRequest 1000 1000 = .recorded item := by
  obtain ⟨hrun, hentered, hclock⟩ :
      ((ReceiptAgent.system 1000).run repeatedRun (ReceiptAgent.system 1000).init).isSome = true ∧
      .entered startRequest.requestId "start" 1000 ∈ (receiptsAfter 1000 repeatedRun).log ∧
      (receiptsAfter 1000 repeatedRun).clock - 1000 ≤ LIFETIME := by decide +kernel
  obtain ⟨s, hs⟩ := Option.isSome_iff_exists.mp hrun
  have heq : receiptsAfter 1000 repeatedRun = s := by rw [receiptsAfter, hs]; rfl
  rw [heq] at hentered hclock ⊢
  obtain ⟨honce, hrepeat⟩ := entered_once 1000 repeatedRun s hs
  exact ⟨honce _, (hrepeat startRequest "start" 1000 1000 1000 hentered (by decide +kernel)
    hclock).1 rfl⟩

/-- An identifier is used at the end of its retry window, and again a second later. -/
def lastMomentRun : List ReceiptEvent :=
  [.arrive 0 startRequest, .admission 0 .saved, .finish 0 startedResponse .saved, .tick 1,
    .arrive 1 startRequest]

/-- The retry window is counted from the issue of the identifier and not from the acceptance of
the request: a second after its acceptance the repeat of a request is refused as expired. -/
theorem lastMoment_expired : ¬ ∀ (clock : Nat) (events : List ReceiptEvent) (s : ReceiptAgent),
    (ReceiptAgent.system clock).run events (ReceiptAgent.system clock).init = some s →
    ∀ (request : ReceiptRequest) (task acceptedAt issued now : Nat),
      .entered request.requestId request.fingerprint acceptedAt ∈ s.log →
      s.clock - acceptedAt ≤ LIFETIME →
      s.tasks.lookup task = some (.waiting request issued now) →
        ∃ item, admission s.disk s.active s.clock request issued now = .recorded item := by
  intro h
  obtain ⟨hrun, hentered, hclock, htask, hexpired⟩ :
      ((ReceiptAgent.system 87400).run lastMomentRun (ReceiptAgent.system 87400).init).isSome
        = true ∧
      .entered startRequest.requestId startRequest.fingerprint 87400
        ∈ (receiptsAfter 87400 lastMomentRun).log ∧
      (receiptsAfter 87400 lastMomentRun).clock - 87400 ≤ LIFETIME ∧
      (receiptsAfter 87400 lastMomentRun).tasks.lookup 1
        = some (.waiting startRequest 1000 87401) ∧
      admission (receiptsAfter 87400 lastMomentRun).disk (receiptsAfter 87400 lastMomentRun).active
        (receiptsAfter 87400 lastMomentRun).clock startRequest 1000 87401 = .expired := by
    decide +kernel
  obtain ⟨s, hs⟩ := Option.isSome_iff_exists.mp hrun
  have heq : receiptsAfter 87400 lastMomentRun = s := by rw [receiptsAfter, hs]; rfl
  rw [heq] at hentered hclock htask hexpired
  obtain ⟨item, hitem⟩ := h 87400 lastMomentRun s hs startRequest 1 87400 1000 87401 hentered
    hclock htask
  rw [hexpired] at hitem
  exact nomatch hitem

end DshNexus.Agent
