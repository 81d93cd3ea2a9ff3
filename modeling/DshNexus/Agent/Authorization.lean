import DshNexus.Concurrent.System
import DshNexus.Core.Integer
import DshNexus.Core.Io

/-!
# The authorization of Agent requests

`enforce_api_authorization` in `crates/nexus-agent/src/lib.rs`.  A signed request samples the
clock, waits for its body, and then, under the lock of the nonce table, forgets the expired
nonces and looks for its own.  The message authentication code and the cipher are functions of
the credential.

* `Retained`: the table holds a nonce as long as no later request has found it expired.
* `Outlived`: a nonce was accepted, and a request with a later clock sample has made the table
  forget it, while the request that carries it again judged its freshness before.
* `accepted_once_iff`: every nonce is accepted at most once, if and only if no request whose
  nonce is outlived finds room in the table.
-/

namespace DshNexus.Agent

open Concurrent

/-! ## Requests -/

abbrev StatusCode := Nat

def MAX_CLOCK_SKEW_SECS : Nat := 60

/-- The seconds that a request may wait for its body. -/
def BODY_TIMEOUT_SECS : Nat := 5

def BODY_LIMIT : Nat := 1024 * 1024 + 16

def BODY_PERMITS : Nat := 4

def NONCE_LIMIT : Nat := 16384

/-- `AgentCredential`, with what its secret computes. -/
structure AgentCredential where
  dataRootId : String
  instanceId : String
  /-- `request_signature` of a method, a path, a nonce, a time and a body -/
  requestSignature : String → String → String → String → Bytes → String
  /-- `open_request` -/
  openRequest : String → String → String → String → Bytes → Option Bytes

/-- The parts of a request that the authorization reads, without its body. -/
structure ApiRequest where
  method : String
  pathAndQuery : Option String
  dataRootHeader : Option String
  instanceHeader : Option String
  versionHeader : Option String
  nonceHeader : Option String
  timeHeader : Option String
  signatureHeader : Option String

namespace ApiRequest

variable (request : ApiRequest)

def nonce : String := request.nonceHeader.getD ""

def time : String := request.timeHeader.getD ""

def signature : String := request.signatureHeader.getD ""

/-- The one request that needs no signature. -/
def isHealth : Bool := request.method = "GET" && request.pathAndQuery = some "/v1/health"

end ApiRequest

variable (credential : AgentCredential)

def proxyIdentityValuesMatch (request : ApiRequest) : Bool :=
  match request.dataRootHeader, request.instanceHeader with
  | some root, some instanceId =>
      root = credential.dataRootId && instanceId = credential.instanceId
  | _, _ => false

def verifyRequest (request : ApiRequest) (body : Bytes) : Bool :=
  validHex request.nonce && validHex request.signature &&
    request.signature = credential.requestSignature request.method
      (request.pathAndQuery.getD "") request.nonce request.time body

/-- The checks before the body, at the clock sample of the request; the timestamp of the
request when it may wait for its body. -/
def checkHeaders (now inFlight : Nat) (request : ApiRequest) : Except StatusCode Nat :=
  if proxyIdentityValuesMatch credential request = false then .error 409
  else if request.versionHeader ≠ some "2" then .error 401
  else if validHex request.nonce = false ∨ validHex request.signature = false then .error 401
  else
    match (parseU64 request.time).filter fun timestamp =>
        absDiff now timestamp ≤ MAX_CLOCK_SKEW_SECS with
    | none => .error 401
    | some timestamp => if inFlight ≥ BODY_PERMITS then .error 429 else .ok timestamp

def checkBody (request : ApiRequest) (body : Bytes) : Except StatusCode Bytes :=
  if body.length > BODY_LIMIT then .error 413
  else if verifyRequest credential request body = false then .error 401
  else
    match credential.openRequest request.method (request.pathAndQuery.getD "") request.nonce
        request.time body with
    | none => .error 401
    | some opened => .ok opened

/-! ## The nonce table -/

/-- How the critical section of a request ends. -/
inductive NonceCheck where
  | accepted
  | replayed
  | full
  deriving DecidableEq, Repr

/-- The nonces that are not expired at the given time. -/
def retainNonces (nonces : List (String × Nat)) (now : Nat) : List (String × Nat) :=
  nonces.filter fun entry => now ≤ saturatingAdd entry.2 MAX_CLOCK_SKEW_SECS

/-- The critical section: prune, look up, insert. -/
def checkNonce (nonces : List (String × Nat)) (nonce : String) (timestamp now : Nat) :
    NonceCheck × List (String × Nat) :=
  let nonces := retainNonces nonces now
  if nonces.any (fun entry => entry.1 = nonce) = true then (.replayed, nonces)
  else if nonces.length ≥ NONCE_LIMIT then (.full, nonces)
  else (.accepted, (nonce, timestamp) :: nonces)

/-! ## The Agent -/

/-- A request that has passed the first checks. -/
structure Task where
  request : ApiRequest
  /-- its clock sample -/
  now : Nat
  timestamp : Nat
  /-- its opened body, once it is there -/
  body : Option Bytes

structure LockRecord where
  nonce : String
  timestamp : Nat
  now : Nat
  outcome : NonceCheck
  deriving DecidableEq, Repr

/-- The requests in flight, the nonce table, and, read by no step, the critical sections so
far, the last one first. -/
structure Authorization where
  clock : Nat
  tasks : AList fun _ : Nat => Task
  nonces : List (String × Nat)
  log : List LockRecord

inductive AuthorizationEvent where
  /-- the clock goes on -/
  | tick (seconds : Nat)
  | arrive (id : Nat) (request : ApiRequest)
  /-- the body is there -/
  | receive (id : Nat) (body : Bytes)
  /-- the body does not come -/
  | abandon (id : Nat)
  /-- the critical section -/
  | lock (id : Nat)

namespace Authorization

def step (s : Authorization) : AuthorizationEvent → Option Authorization
  | .tick seconds =>
      if s.clock + seconds ≤ U64_MAX then some { s with clock := s.clock + seconds } else none
  | .arrive id request =>
      if (s.tasks.lookup id).isSome = true then none
      else if request.isHealth = true then some s
      else
        match checkHeaders credential s.clock s.tasks.keys.length request with
        | .error _ => some s
        | .ok timestamp =>
            some { s with tasks := s.tasks.insert id ⟨request, s.clock, timestamp, none⟩ }
  | .receive id body =>
      match s.tasks.lookup id with
      | some ⟨request, now, timestamp, none⟩ =>
          if s.clock > now + BODY_TIMEOUT_SECS then none
          else
            match checkBody credential request body with
            | .error _ => some { s with tasks := s.tasks.erase id }
            | .ok opened =>
                some { s with tasks := s.tasks.insert id ⟨request, now, timestamp, some opened⟩ }
      | _ => none
  | .abandon id =>
      match s.tasks.lookup id with
      | some ⟨_, _, _, none⟩ => some { s with tasks := s.tasks.erase id }
      | _ => none
  | .lock id =>
      match s.tasks.lookup id with
      | some ⟨request, now, timestamp, some _⟩ =>
          let check := checkNonce s.nonces request.nonce timestamp now
          some { s with
            tasks := s.tasks.erase id
            nonces := check.2
            log := ⟨request.nonce, timestamp, now, check.1⟩ :: s.log }
      | _ => none

/-- The Agent after its start, at the given time. -/
def system (clock : Nat) : System Authorization AuthorizationEvent where
  init := ⟨clock, ∅, [], []⟩
  step := step credential

end Authorization

/-! ## What the table holds -/

/-- The nonce was accepted with the timestamp, and no later critical section has found it
expired. -/
def Retained (nonce : String) (timestamp : Nat) : List LockRecord → Prop
  | [] => False
  | entry :: log =>
      (entry.outcome = .accepted ∧ entry.nonce = nonce ∧ entry.timestamp = timestamp) ∨
        Retained nonce timestamp log ∧ entry.now ≤ saturatingAdd timestamp MAX_CLOCK_SKEW_SECS

/-- The nonce was accepted, and every request that was accepted with it is outlived: a later
critical section, or the present one, has a clock sample past its retention. -/
def Outlived (log : List LockRecord) (nonce : String) (now : Nat) : Prop :=
  (∃ entry ∈ log, entry.outcome = .accepted ∧ entry.nonce = nonce) ∧
    ∀ later entry earlier, log = later ++ entry :: earlier → entry.outcome = .accepted →
      entry.nonce = nonce →
        ∃ sample ∈ now :: later.map (·.now),
          saturatingAdd entry.timestamp MAX_CLOCK_SKEW_SECS < sample

theorem retained_iff {nonce : String} {timestamp : Nat} {log : List LockRecord} :
    Retained nonce timestamp log ↔ ∃ later entry earlier, log = later ++ entry :: earlier ∧
      entry.outcome = .accepted ∧ entry.nonce = nonce ∧ entry.timestamp = timestamp ∧
        ∀ record ∈ later, record.now ≤ saturatingAdd timestamp MAX_CLOCK_SKEW_SECS := by
  induction log with
  | nil => exact iff_of_false (fun h => h) fun ⟨later, _, _, h, _⟩ => by simp at h
  | cons record log ih =>
    rw [Retained, ih]
    constructor
    · rintro (⟨hacc, hnonce, htime⟩ | ⟨⟨later, entry, earlier, rfl, hacc, hnonce, htime, hlater⟩, hnow⟩)
      · exact ⟨[], record, log, rfl, hacc, hnonce, htime, by simp⟩
      · exact ⟨record :: later, entry, earlier, rfl, hacc, hnonce, htime,
          List.forall_mem_cons.mpr ⟨hnow, hlater⟩⟩
    · rintro ⟨later, entry, earlier, hsplit, hacc, hnonce, htime, hlater⟩
      rcases later with _ | ⟨first, later⟩
      · obtain ⟨rfl, -⟩ := List.cons.inj hsplit
        exact Or.inl ⟨hacc, hnonce, htime⟩
      · obtain ⟨rfl, rfl⟩ := List.cons.inj hsplit
        obtain ⟨hnow, hlater⟩ := List.forall_mem_cons.mp hlater
        exact Or.inr ⟨⟨later, entry, earlier, rfl, hacc, hnonce, htime, hlater⟩, hnow⟩

theorem outlived_iff {log : List LockRecord} {nonce : String} {now : Nat} :
    Outlived log nonce now ↔ (∃ entry ∈ log, entry.outcome = .accepted ∧ entry.nonce = nonce) ∧
      ¬ ∃ timestamp, Retained nonce timestamp log ∧
        now ≤ saturatingAdd timestamp MAX_CLOCK_SKEW_SECS := by
  refine and_congr_right fun _ => ?_
  constructor
  · rintro hall ⟨timestamp, hretained, hnow⟩
    obtain ⟨later, entry, earlier, hsplit, hacc, hnonce, rfl, hlater⟩ := retained_iff.mp hretained
    obtain ⟨sample, hsample, hlt⟩ := hall later entry earlier hsplit hacc hnonce
    rcases List.mem_cons.mp hsample with rfl | hsample
    · omega
    · obtain ⟨record, hrecord, rfl⟩ := List.mem_map.mp hsample
      have := hlater record hrecord
      omega
  · intro hnone later entry earlier hsplit hacc hnonce
    by_contra hall
    simp only [not_exists, not_and, Nat.not_lt, List.forall_mem_cons, List.mem_map,
      forall_exists_index, and_imp, forall_apply_eq_imp_iff₂] at hall
    exact hnone ⟨entry.timestamp,
      retained_iff.mpr ⟨later, entry, earlier, hsplit, hacc, hnonce, rfl, hall.2⟩, hall.1⟩

/-- The table holds what the critical sections have retained. -/
def TableSound (s : Authorization) : Prop :=
  ∀ nonce timestamp, (nonce, timestamp) ∈ s.nonces ↔ Retained nonce timestamp s.log

theorem mem_retainNonces {nonces : List (String × Nat)} {now timestamp : Nat} {nonce : String} :
    (nonce, timestamp) ∈ retainNonces nonces now ↔
      (nonce, timestamp) ∈ nonces ∧ now ≤ saturatingAdd timestamp MAX_CLOCK_SKEW_SECS := by
  simp [retainNonces]

theorem mem_checkNonce {nonces : List (String × Nat)} {nonce nonce' : String}
    {timestamp timestamp' now : Nat} :
    (nonce', timestamp') ∈ (checkNonce nonces nonce timestamp now).2 ↔
      ((checkNonce nonces nonce timestamp now).1 = .accepted ∧ nonce = nonce' ∧
        timestamp = timestamp') ∨
      ((nonce', timestamp') ∈ nonces ∧ now ≤ saturatingAdd timestamp' MAX_CLOCK_SKEW_SECS) := by
  unfold checkNonce
  dsimp only
  split
  · simp [mem_retainNonces]
  · split
    · simp [mem_retainNonces]
    · simp [mem_retainNonces, eq_comm]

theorem checkNonce_eq_accepted (nonces : List (String × Nat)) (nonce : String)
    (timestamp now : Nat) : (checkNonce nonces nonce timestamp now).1 = .accepted ↔
      (¬ ∃ timestamp', (nonce, timestamp') ∈ nonces ∧
        now ≤ saturatingAdd timestamp' MAX_CLOCK_SKEW_SECS) ∧
      (retainNonces nonces now).length < NONCE_LIMIT := by
  have hany : (retainNonces nonces now).any (fun entry => entry.1 = nonce) = true ↔
      ∃ timestamp', (nonce, timestamp') ∈ nonces ∧
        now ≤ saturatingAdd timestamp' MAX_CLOCK_SKEW_SECS := by
    simp only [List.any_eq_true, decide_eq_true_eq]
    constructor
    · rintro ⟨⟨_, timestamp'⟩, hmem, rfl⟩
      exact ⟨timestamp', mem_retainNonces.mp hmem⟩
    · rintro ⟨timestamp', hmem⟩
      exact ⟨_, mem_retainNonces.mpr hmem, rfl⟩
  unfold checkNonce
  dsimp only
  split
  · next h => exact iff_of_false (by simp) fun hn => hn.1 (hany.mp h)
  · next h =>
    rw [hany] at h
    split
    · next hfull => exact iff_of_false (by simp) fun hn => by omega
    · next hroom => exact iff_of_true rfl ⟨h, by omega⟩

/-! ## Sessions of the Agent -/

def acceptances (log : List LockRecord) (nonce : String) : Nat :=
  log.countP fun entry => entry.outcome = .accepted && entry.nonce = nonce

def AcceptedOnce (s : Authorization) : Prop := ∀ nonce, acceptances s.log nonce ≤ 1

/-- A request whose nonce is outlived finds no room in the table. -/
def LocksInTime (s : Authorization) : AuthorizationEvent → Prop
  | .lock id => ∀ task, s.tasks.lookup id = some task →
      Outlived s.log task.request.nonce task.now →
        NONCE_LIMIT ≤ (retainNonces s.nonces task.now).length
  | _ => True

theorem acceptances_eq_zero {log : List LockRecord} {nonce : String} :
    acceptances log nonce = 0 ↔ ¬ ∃ entry ∈ log, entry.outcome = .accepted ∧ entry.nonce = nonce := by
  simp [acceptances, List.countP_eq_zero]

theorem acceptances_cons {entry : LockRecord} {log : List LockRecord} {nonce : String} :
    acceptances (entry :: log) nonce = acceptances log nonce +
      if entry.outcome = .accepted ∧ entry.nonce = nonce then 1 else 0 := by
  simp [acceptances, List.countP_cons]

namespace Authorization

variable {credential} {s s' : Authorization}

theorem step_cases {event : AuthorizationEvent} (h : step credential s event = some s') :
    (s'.nonces = s.nonces ∧ s'.log = s.log ∧ LocksInTime s event) ∨
    ∃ id request now timestamp body, event = .lock id ∧
      s.tasks.lookup id = some ⟨request, now, timestamp, some body⟩ ∧
      s'.nonces = (checkNonce s.nonces request.nonce timestamp now).2 ∧
      s'.log = ⟨request.nonce, timestamp, now,
        (checkNonce s.nonces request.nonce timestamp now).1⟩ :: s.log := by
  cases event with
  | tick seconds =>
    rw [step] at h
    split at h
    · rw [← Option.some.inj h]; exact Or.inl ⟨rfl, rfl, trivial⟩
    · exact nomatch h
  | arrive id request =>
    rw [step] at h
    split at h
    · exact nomatch h
    split at h
    · rw [← Option.some.inj h]; exact Or.inl ⟨rfl, rfl, trivial⟩
    split at h
    · rw [← Option.some.inj h]; exact Or.inl ⟨rfl, rfl, trivial⟩
    · rw [← Option.some.inj h]; exact Or.inl ⟨rfl, rfl, trivial⟩
  | receive id body =>
    rw [step] at h
    split at h
    · split at h
      · exact nomatch h
      split at h
      · rw [← Option.some.inj h]; exact Or.inl ⟨rfl, rfl, trivial⟩
      · rw [← Option.some.inj h]; exact Or.inl ⟨rfl, rfl, trivial⟩
    · exact nomatch h
  | abandon id =>
    rw [step] at h
    split at h
    · rw [← Option.some.inj h]; exact Or.inl ⟨rfl, rfl, trivial⟩
    · exact nomatch h
  | lock id =>
    rw [step] at h
    split at h
    · next request now timestamp body htask =>
      rw [← Option.some.inj h]
      exact Or.inr ⟨id, request, now, timestamp, body, rfl, htask, rfl, rfl⟩
    · exact nomatch h

theorem tableSound_step {event : AuthorizationEvent} (hs : TableSound s)
    (h : step credential s event = some s') : TableSound s' := by
  rcases step_cases h with ⟨hnonces, hlog, -⟩ |
    ⟨id, request, now, timestamp, body, -, -, hnonces, hlog⟩
  · intro nonce t
    rw [hnonces, hlog]
    exact hs nonce t
  · intro nonce t
    rw [hnonces, hlog, mem_checkNonce, Retained, hs]

/-- **One step.**  A critical section keeps the nonces unique exactly when it is in time. -/
theorem acceptedOnce_step {event : AuthorizationEvent} (hs : TableSound s)
    (h : step credential s event = some s') :
    AcceptedOnce s' ↔ AcceptedOnce s ∧ LocksInTime s event := by
  rcases step_cases h with ⟨-, hlog, hintime⟩ |
    ⟨id, request, now, timestamp, body, rfl, htask, -, hlog⟩
  · rw [and_iff_left hintime]
    simp only [AcceptedOnce, hlog]
  have hintime : LocksInTime s (.lock id) ↔ (Outlived s.log request.nonce now →
      NONCE_LIMIT ≤ (retainNonces s.nonces now).length) := by
    refine ⟨fun hl => hl _ htask, fun hl task htask' => ?_⟩
    rw [htask] at htask'
    rw [← Option.some.inj htask']
    exact hl
  have haccepted := checkNonce_eq_accepted s.nonces request.nonce timestamp now
  simp only [hs request.nonce] at haccepted
  simp only [AcceptedOnce, hlog, acceptances_cons]
  rw [hintime, outlived_iff]
  by_cases hacc : (checkNonce s.nonces request.nonce timestamp now).1 = .accepted
  · obtain ⟨hnone, hroom⟩ := haccepted.mp hacc
    constructor
    · intro hall
      refine ⟨fun nonce => le_trans (Nat.le_add_right _ _) (hall nonce), fun hout => ?_⟩
      have hzero := hall request.nonce
      rw [if_pos ⟨hacc, rfl⟩] at hzero
      exact absurd hout.1 (acceptances_eq_zero.mp (by omega))
    · rintro ⟨hall, hout⟩ nonce
      split
      · next heq =>
        have hzero : acceptances s.log nonce = 0 := by
          refine acceptances_eq_zero.mpr fun hex => ?_
          rw [← heq.2] at hex
          have := hout ⟨hex, hnone⟩
          omega
        omega
      · exact hall nonce
  · have hsame : ∀ nonce, (if (checkNonce s.nonces request.nonce timestamp now).1 = .accepted ∧
        request.nonce = nonce then 1 else 0) = 0 := fun nonce => if_neg fun heq => hacc heq.1
    simp only [hsame, Nat.add_zero]
    rw [haccepted, not_and, not_lt] at hacc
    exact (and_iff_left fun hout => hacc hout.2).symm

end Authorization

/-- **No request is authorized twice**, if and only if no request locks the nonce table after
its nonce was accepted and outlived. -/
theorem accepted_once_iff (credential : AgentCredential) (clock : Nat)
    (events : List AuthorizationEvent) (s : Authorization)
    (h : (Authorization.system credential clock).run events
      (Authorization.system credential clock).init = some s) :
    AcceptedOnce s ↔ (Authorization.system credential clock).RunMeets LocksInTime events
      (Authorization.system credential clock).init := by
  have hinit : TableSound (Authorization.system credential clock).init :=
    fun _ _ => iff_of_false (by simp [Authorization.system]) fun h => h
  refine (System.run_iff_runMeets (I := TableSound) (G := AcceptedOnce)
    (fun _ _ _ hs hstep => Authorization.tableSound_step hs hstep)
    (fun _ _ _ hs hstep => Authorization.acceptedOnce_step hs hstep) events _ s hinit h).trans ?_
  exact and_iff_right fun _ => Nat.zero_le _

/-! ## A replay -/

/-- A credential whose signature of a request is its nonce. -/
def sampleCredential : AgentCredential :=
  ⟨"root", "instance", fun _ _ nonce _ _ => nonce, fun _ _ _ _ body => some body⟩

def sampleNonce (digit : Char) : String := String.ofList (List.replicate 64 digit)

def signedRequest (digit : Char) (time : String) : ApiRequest :=
  ⟨"POST", some "/v1/harness", some "root", some "instance", some "2", some (sampleNonce digit),
    some time, some (sampleNonce digit)⟩

/-- The Agent after events that begin at the second 1000. -/
def authorizationAfter (events : List AuthorizationEvent) : Option Authorization :=
  (Authorization.system sampleCredential 1000).run events
    (Authorization.system sampleCredential 1000).init

def promptReplay : List AuthorizationEvent :=
  [.arrive 0 (signedRequest 'a' "1000"), .receive 0 [], .lock 0,
    .arrive 1 (signedRequest 'a' "1000"), .receive 1 [], .lock 1]

/-- A replay that follows its original at once is in time, and refused. -/
theorem promptReplay_in_time : (Authorization.system sampleCredential 1000).RunMeets LocksInTime
    promptReplay (Authorization.system sampleCredential 1000).init := by
  have hlog : (authorizationAfter promptReplay).map (·.log) =
      some [⟨sampleNonce 'a', 1000, 1000, .replayed⟩, ⟨sampleNonce 'a', 1000, 1000, .accepted⟩] := by
    decide +kernel
  obtain ⟨s, hs, hlog⟩ := Option.map_eq_some_iff.mp hlog
  refine (accepted_once_iff sampleCredential 1000 promptReplay s hs).mp fun nonce => ?_
  rw [hlog, acceptances_cons, acceptances_cons]
  simp only [reduceCtorEq, false_and, if_false, Nat.add_zero]
  split <;> simp [acceptances]

/-- The replay samples the clock in the last second of its freshness and waits for its body;
meanwhile another request, one second later, makes the table forget the nonce. -/
def lateReplay : List AuthorizationEvent :=
  [.arrive 0 (signedRequest 'a' "1000"), .receive 0 [], .lock 0, .tick 60,
    .arrive 1 (signedRequest 'a' "1000"), .tick 1,
    .arrive 2 (signedRequest 'b' "1061"), .receive 2 [], .lock 2,
    .receive 1 [], .lock 1]

/-- **A replay can be accepted.** -/
theorem lateReplay_accepted_twice :
    (authorizationAfter lateReplay).map (fun s => acceptances s.log (sampleNonce 'a')) = some 2 := by
  decide +kernel

end DshNexus.Agent
