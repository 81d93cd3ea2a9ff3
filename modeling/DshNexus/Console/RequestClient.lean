import DshNexus.Concurrent.System
import DshNexus.Console.StableJson

/-!
# The identifiers of requests

`createRequestClient` of `apps/nexus-launcher/src/request-client.ts`: a request that must not run
twice is given an identifier, which is stored under the digest of its path and body before it is
sent, and forgotten when its outcome is known.

The parts of `post` between two awaits are the steps: the call, the continuation after the digest,
and the continuation after the answer.  A reload of the page drops the posts and keeps the storage.

1. `requiresRequestId`, and when an outcome is known.
2. The client and its steps.
3. `pendingOf`: the storage as the log of the client tells it; `Orderly` logs.
4. What can be read off an orderly log.
5. `inv_step`.
6. `faithful_of_plain`: one identifier for each request, as long as no body has an undefined
   member; and two runs with such members.
-/

namespace DshNexus.Console

/-! ## 1. Requests and outcomes -/

abbrev Body := List (JsText × JsValue)

structure Request where
  path : String
  body : Body

/-- `body.action`. -/
def action (body : Body) : JsValue :=
  match body.find? fun entry => entry.1 = jsText "action" with
  | some entry => entry.2
  | none => .undefined

/-- `value === text`. -/
def isText (value : JsValue) (text : String) : Bool :=
  match value with
  | .string s => decide (s = jsText text)
  | _ => false

mutual

/-- `String(value)`, up to the names of the numbers that are not finite. -/
def display : JsValue → JsText
  | .undefined => jsText "undefined"
  | .null => jsText "null"
  | .nonFinite => jsText "NaN"
  | .bool b => jsText (if b then "true" else "false")
  | .number literal => literal.text.map fun byte => .scalar (Char.ofNat byte.toNat)
  | .string text => text
  | .array items => displayItems items
  | .object _ => jsText "[object Object]"

/-- `join(",")` of the items of an array. -/
def displayItems : List JsValue → JsText
  | [] => []
  | [item] => displayItem item
  | item :: items => displayItem item ++ jsText "," ++ displayItems items

def displayItem : JsValue → JsText
  | .undefined => []
  | .null => []
  | .nonFinite => jsText "NaN"
  | .bool b => jsText (if b then "true" else "false")
  | .number literal => literal.text.map fun byte => .scalar (Char.ofNat byte.toNat)
  | .string text => text
  | .array items => displayItems items
  | .object _ => jsText "[object Object]"

end

/-- `texts.includes(String(value))`. -/
def includes (texts : List String) (value : JsValue) : Bool :=
  texts.any fun text => decide (display value = jsText text)

def requiresRequestId (request : Request) : Bool :=
  let requested := action request.body
  (request.path = "/v1/harness" && isText requested "restart") ||
    (request.path = "/v1/releases" && isText requested "rollback") ||
    (request.path = "/v1/updates" && includes ["switch", "offline_import"] requested) ||
    (request.path = "/v1/checkpoints" && isText requested "restore") ||
    (request.path = "/v1/profiles" && includes ["delete", "restore_deleted"] requested)

/-- What is digested: the path, a line break, and the canonical text of the body. -/
def payload (request : Request) : Bytes :=
  Utf8.encode request.path.toList ++ 0x0a :: stableJson (.object request.body)

/-- The answer of the transport: a response with the state of its receipt, if it has one, or an
error with its code and whether it has a status. -/
inductive Outcome where
  | response (receipt : Option String)
  | error (code : Option String) (status : Bool)
  deriving DecidableEq, Repr

/-- The outcome is known: the request has been completed, or has failed as a whole. -/
def Outcome.known : Outcome → Bool
  | .response none => true
  | .response (some state) => state = "completed"
  | .error none _ => false
  | .error (some code) status =>
      (status && !"request_".toList.isPrefixOf code.toList) || code = "request_previous_failed"

/-! ## 2. The client -/

def MAX_PENDING_REQUESTS : Nat := 64

section Client

variable {F I : Type} [DecidableEq F] [DecidableEq I] (digest : Bytes → F)

/-- A post whose digest is awaited, or whose answer is. -/
inductive Stage (I : Type) where
  | hashing
  | sent (id : I)

structure Post (I : Type) where
  number : Nat
  request : Request
  stage : Stage I

inductive Entry (F I : Type) where
  | stored (key : F) (id : I)
  | sent (number : Nat) (request : Request) (id : I)
  /-- the outcome of the request is known, or the user allows a new attempt -/
  | settled (id : I)

structure Client (F I : Type) where
  /-- the pending requests in the storage -/
  pending : List (F × I)
  posts : List (Post I)
  next : Nat
  /-- the identifiers that have been drawn or named -/
  ids : List I
  /-- the newest entry first -/
  log : List (Entry F I)

inductive Act (I : Type) where
  | post (request : Request)
  /-- the digest is there; an identifier that may be drawn -/
  | digested (number : Nat) (fresh : I)
  | answered (number : Nat) (outcome : Outcome)
  | forget (id : I)
  | reload

/-- `forget`. -/
def forgetPending (pending : List (F × I)) (id : I) : List (F × I) :=
  pending.filter fun entry => entry.2 ≠ id

def find (pending : List (F × I)) (key : F) : Option I :=
  (pending.find? fun entry => entry.1 = key).map Prod.snd

/-- The continuation of `post` after the digest.  A request without an identifier is given one,
which is stored, unless there are too many. -/
def send (c : Client F I) (post : Post I) (fresh : I) : Option (Client F I) :=
  let posts := c.posts.filter fun other => other.number ≠ post.number
  let key := digest (payload post.request)
  match find c.pending key with
  | some id =>
      some { c with
        posts := { post with stage := .sent id } :: posts
        log := .sent post.number post.request id :: c.log }
  | none =>
      if MAX_PENDING_REQUESTS ≤ c.pending.length then some { c with posts := posts }
      else if fresh ∈ c.ids then none
      else
        some { c with
          pending := c.pending ++ [(key, fresh)]
          posts := { post with stage := .sent fresh } :: posts
          ids := fresh :: c.ids
          log := .sent post.number post.request fresh :: .stored key fresh :: c.log }

/-- The continuation of `post` after the answer. -/
def answer (c : Client F I) (post : Post I) (id : I) (outcome : Outcome) : Client F I :=
  let posts := c.posts.filter fun other => other.number ≠ post.number
  if outcome.known then
    { c with
      pending := forgetPending c.pending id
      posts := posts
      log := .settled id :: c.log }
  else { c with posts := posts }

/-- A step, if it can come.  Random identifiers are distinct. -/
def step (c : Client F I) : Act I → Option (Client F I)
  | .post request =>
      if requiresRequestId request then
        some { c with posts := ⟨c.next, request, .hashing⟩ :: c.posts, next := c.next + 1 }
      else some c
  | .digested number fresh =>
      match c.posts.find? fun post => post.number = number with
      | some ⟨number, request, .hashing⟩ => send digest c ⟨number, request, .hashing⟩ fresh
      | _ => none
  | .answered number outcome =>
      match c.posts.find? fun post => post.number = number with
      | some ⟨number, request, .sent id⟩ => some (answer c ⟨number, request, .sent id⟩ id outcome)
      | _ => none
  | .forget id =>
      some { c with
        pending := forgetPending c.pending id
        ids := id :: c.ids
        log := .settled id :: c.log }
  | .reload => some { c with posts := [] }

def init : Client F I where
  pending := []
  posts := []
  next := 0
  ids := []
  log := []

def system : Concurrent.System (Client F I) (Act I) where
  init := init
  step := step digest

/-! ## 3. Orderly logs -/

def pendingOf : List (Entry F I) → List (F × I)
  | [] => []
  | .stored key id :: log => pendingOf log ++ [(key, id)]
  | .sent _ _ _ :: log => pendingOf log
  | .settled id :: log => forgetPending (pendingOf log) id

def Entry.id : Entry F I → I
  | .stored _ id => id
  | .sent _ _ id => id
  | .settled id => id

/-- A request is stored under a key without one and with an identifier that was never used, and
is sent under the identifier of its key. -/
def Orderly : List (Entry F I) → Prop
  | [] => True
  | .stored key id :: log =>
      Orderly log ∧ find (pendingOf log) key = none ∧ id ∉ log.map Entry.id
  | .sent _ request id :: log =>
      Orderly log ∧ find (pendingOf log) (digest (payload request)) = some id
  | .settled _ :: log => Orderly log

variable {digest}

omit [DecidableEq I] in
theorem mem_of_find {pending : List (F × I)} {key : F} {id : I} (h : find pending key = some id) :
    (key, id) ∈ pending := by
  obtain ⟨⟨key', id'⟩, hfind, rfl⟩ := Option.map_eq_some_iff.mp h
  have hkey := List.find?_some hfind
  rw [decide_eq_true_eq] at hkey
  dsimp only at hkey
  subst hkey
  exact List.mem_of_find?_eq_some hfind

omit [DecidableEq I] in
theorem notMem_of_find {pending : List (F × I)} {key : F} (h : find pending key = none) (id : I) :
    (key, id) ∉ pending := by
  intro hmem
  rw [find, Option.map_eq_none_iff, List.find?_eq_none] at h
  exact h _ hmem (by simp)

omit [DecidableEq F] in
theorem mem_forgetPending {pending : List (F × I)} {id : I} {entry : F × I} :
    entry ∈ forgetPending pending id ↔ entry ∈ pending ∧ entry.2 ≠ id := by
  simp [forgetPending]

theorem Orderly.tail {e : Entry F I} {log : List (Entry F I)} (h : Orderly digest (e :: log)) :
    Orderly digest log := by
  cases e with
  | stored key id => exact h.1
  | sent number request id => exact h.1
  | settled id => exact h

theorem Orderly.of_append {newer older : List (Entry F I)}
    (h : Orderly digest (newer ++ older)) : Orderly digest older := by
  induction newer with
  | nil => exact h
  | cons e newer ih => exact ih h.tail

/-! ## 4. Reading an orderly log -/

omit [DecidableEq F] in
/-- **A request is pending exactly if it was stored and has not been settled since.** -/
theorem mem_pendingOf {log : List (Entry F I)} {key : F} {id : I} :
    (key, id) ∈ pendingOf log ↔
      ∃ newer older, log = newer ++ .stored key id :: older ∧ .settled id ∉ newer := by
  induction log with
  | nil => simp [pendingOf]
  | cons e log ih =>
    have hsplit : (∃ newer older, e :: log = newer ++ .stored key id :: older ∧
        .settled id ∉ newer) ↔ e = .stored key id ∨
          (e ≠ .settled id ∧ ∃ newer older, log = newer ++ .stored key id :: older ∧
            .settled id ∉ newer) := by
      constructor
      · rintro ⟨newer, older, hlog, hnot⟩
        cases newer with
        | nil => exact Or.inl (List.cons.inj hlog).1
        | cons e' newer =>
          obtain ⟨rfl, hrest⟩ := List.cons.inj hlog
          rw [List.mem_cons, not_or] at hnot
          exact Or.inr ⟨fun h => hnot.1 h.symm, newer, older, hrest, hnot.2⟩
      · rintro (rfl | ⟨hne, newer, older, rfl, hnot⟩)
        · exact ⟨[], log, rfl, List.not_mem_nil⟩
        · refine ⟨e :: newer, older, rfl, ?_⟩
          rw [List.mem_cons, not_or]
          exact ⟨fun h => hne h.symm, hnot⟩
    rw [hsplit, ← ih]
    cases e with
    | stored key' id' =>
      rw [pendingOf, List.mem_append, List.mem_singleton, Prod.mk.injEq]
      simp only [Entry.stored.injEq, ne_eq, reduceCtorEq, not_false_iff, true_and]
      constructor
      · rintro (hmem | ⟨rfl, rfl⟩)
        · exact Or.inr hmem
        · exact Or.inl ⟨rfl, rfl⟩
      · rintro (⟨rfl, rfl⟩ | hmem)
        · exact Or.inr ⟨rfl, rfl⟩
        · exact Or.inl hmem
    | sent number request id' =>
      rw [pendingOf]
      simp
    | settled id' =>
      rw [pendingOf, mem_forgetPending]
      simp only [reduceCtorEq, false_or, ne_eq, Entry.settled.injEq]
      constructor
      · rintro ⟨hmem, hne⟩
        exact ⟨fun h => hne h.symm, hmem⟩
      · rintro ⟨hne, hmem⟩
        exact ⟨hmem, fun h => hne h.symm⟩

theorem Orderly.eq_of_mem {log : List (Entry F I)} (h : Orderly digest log) {key : F} {id id' : I}
    (hid : (key, id) ∈ pendingOf log) (hid' : (key, id') ∈ pendingOf log) : id = id' := by
  induction log with
  | nil => cases hid
  | cons e log ih =>
    cases e with
    | stored key' fresh =>
      obtain ⟨hlog, hnone, -⟩ := h
      rw [pendingOf, List.mem_append, List.mem_singleton, Prod.mk.injEq] at hid hid'
      rcases hid with hid | ⟨rfl, rfl⟩
      · rcases hid' with hid' | ⟨rfl, rfl⟩
        · exact ih hlog hid hid'
        · exact absurd hid (notMem_of_find hnone id)
      · rcases hid' with hid' | ⟨-, rfl⟩
        · exact absurd hid' (notMem_of_find hnone id')
        · rfl
    | sent number request other => exact ih h.1 hid hid'
    | settled other =>
      exact ih h (mem_forgetPending.mp hid).1 (mem_forgetPending.mp hid').1

theorem Orderly.key_eq {log : List (Entry F I)} (h : Orderly digest log) {key key' : F} {id : I}
    (hkey : .stored key id ∈ log) (hkey' : .stored key' id ∈ log) : key = key' := by
  have hfresh : ∀ {key : F} {log : List (Entry F I)}, .stored key id ∈ log →
      id ∈ log.map Entry.id := by
    intro key log hmem
    exact List.mem_map.mpr ⟨_, hmem, rfl⟩
  induction log with
  | nil => cases hkey
  | cons e log ih =>
    rcases List.mem_cons.mp hkey with rfl | hold
    · rcases List.mem_cons.mp hkey' with heq | hold'
      · exact (Entry.stored.inj heq).1.symm
      · exact absurd (hfresh hold') h.2.2
    · rcases List.mem_cons.mp hkey' with rfl | hold'
      · exact absurd (hfresh hold) h.2.2
      · exact ih h.tail hold hold'

theorem Orderly.pending_of_sent {newer older : List (Entry F I)} {number : Nat}
    {request : Request} {id : I}
    (h : Orderly digest (newer ++ .sent number request id :: older)) :
    (digest (payload request), id) ∈ pendingOf older := by
  have hsent : Orderly digest (.sent number request id :: older) := h.of_append
  exact mem_of_find hsent.2

omit [DecidableEq F] in
theorem mem_pendingOf_append {newer older : List (Entry F I)} {key : F} {id : I}
    (h : (key, id) ∈ pendingOf older) (hnot : .settled id ∉ newer) :
    (key, id) ∈ pendingOf (newer ++ older) := by
  obtain ⟨newer', rest, rfl, hnot'⟩ := mem_pendingOf.mp h
  refine mem_pendingOf.mpr ⟨newer ++ newer', rest, by rw [List.append_assoc], ?_⟩
  rw [List.mem_append, not_or]
  exact ⟨hnot, hnot'⟩

theorem Orderly.same_id {newer mid older : List (Entry F I)} {m n : Nat} {r r' : Request}
    {id id' : I} (h : Orderly digest (newer ++ .sent m r' id' :: (mid ++ .sent n r id :: older)))
    (hpayload : payload r = payload r') (hnot : .settled id ∉ mid) : id' = id := by
  have hlast : Orderly digest (.sent m r' id' :: (mid ++ .sent n r id :: older)) := h.of_append
  have hfirst := hlast.tail.pending_of_sent
  rw [hpayload] at hfirst
  have hpending : (digest (payload r'), id) ∈ pendingOf (mid ++ .sent n r id :: older) :=
    mem_pendingOf_append (by rw [pendingOf]; exact hfirst) hnot
  exact hlast.tail.eq_of_mem (mem_of_find hlast.2) hpending

theorem Orderly.new_id {newer older : List (Entry F I)} {m : Nat} {r : Request} {id id' : I}
    (h : Orderly digest (newer ++ .sent m r id' :: older)) (hsettled : .settled id ∈ older) :
    id' ≠ id := by
  rintro rfl
  obtain ⟨newer', rest, rfl, hnot⟩ := mem_pendingOf.mp h.pending_of_sent
  have hstored : Orderly digest (.stored (digest (payload r)) id' :: rest) := by
    have hlog : Orderly digest (newer' ++ .stored (digest (payload r)) id' :: rest) :=
      by
      have hsent : Orderly digest (.sent m r id' :: (newer' ++ _)) := h.of_append
      exact hsent.tail
    exact hlog.of_append
  rcases List.mem_append.mp hsettled with hmem | hmem
  · exact hnot hmem
  · rcases List.mem_cons.mp hmem with heq | hmem
    · cases heq
    · exact hstored.2.2 (List.mem_map.mpr ⟨_, hmem, rfl⟩)

theorem Orderly.payload_eq {log : List (Entry F I)} (h : Orderly digest log)
    (hdigest : Function.Injective digest) {m n : Nat} {r r' : Request} {id : I}
    (hsent : .sent n r id ∈ log) (hsent' : .sent m r' id ∈ log) : payload r = payload r' := by
  have hstored : ∀ {n : Nat} {r : Request}, .sent n r id ∈ log →
      .stored (digest (payload r)) id ∈ log := by
    intro n r hmem
    obtain ⟨newer, older, rfl⟩ := List.append_of_mem hmem
    obtain ⟨newer', rest, rfl, -⟩ := mem_pendingOf.mp h.pending_of_sent
    simp
  exact hdigest (h.key_eq (hstored hsent) (hstored hsent'))

/-! ## 5. The invariant -/

/-- No body has an object with an undefined member. -/
def PlainPost (_ : Client F I) : Act I → Prop
  | .post request => Plain (.object request.body)
  | _ => True

variable (digest) in
/-- The storage is what the log tells; the identifiers of the log were drawn; and every request
that is posted or was sent needs an identifier and is plain. -/
structure Inv (c : Client F I) : Prop where
  pending : c.pending = pendingOf c.log
  orderly : Orderly digest c.log
  ids : ∀ id ∈ c.log.map Entry.id, id ∈ c.ids
  posts : ∀ post ∈ c.posts, requiresRequestId post.request = true ∧
    Plain (.object post.request.body)
  answers : ∀ post ∈ c.posts, ∀ id, post.stage = .sent id → id ∈ c.ids
  sent : ∀ n r id, .sent n r id ∈ c.log → requiresRequestId r = true ∧ Plain (.object r.body)

theorem inv_init : Inv digest (init : Client F I) where
  pending := rfl
  orderly := trivial
  ids := by
    intro id hid
    cases hid
  posts := by
    intro post hpost
    cases hpost
  answers := by
    intro post hpost
    cases hpost
  sent := by
    intro n r id hsent
    cases hsent

/-- The continuation after the digest. -/
theorem inv_send {c c' : Client F I} {post : Post I} {fresh : I} (h : Inv digest c)
    (hpost : post ∈ c.posts) (hstep : send digest c post fresh = some c') :
    Inv digest c' := by
  obtain ⟨hrequired, hplain⟩ := h.posts post hpost
  have hothers : ∀ {stage : Stage I}, ∀ other ∈ { post with stage := stage } ::
      c.posts.filter fun other => other.number ≠ post.number,
        requiresRequestId other.request = true ∧ Plain (.object other.request.body) := by
    intro stage other hother
    rcases List.mem_cons.mp hother with rfl | hother
    · exact ⟨hrequired, hplain⟩
    · exact h.posts other (List.mem_of_mem_filter hother)
  have hsent : ∀ {id : I}, ∀ n r id', .sent n r id' ∈ Entry.sent post.number post.request id ::
      c.log → requiresRequestId r = true ∧ Plain (.object r.body) := by
    intro id n r id' hmem
    rcases List.mem_cons.mp hmem with heq | hmem
    · obtain ⟨-, rfl, -⟩ := Entry.sent.inj heq
      exact ⟨hrequired, hplain⟩
    · exact h.sent n r id' hmem
  have hanswers : ∀ {id : I} {ids : List I}, id ∈ ids → c.ids ⊆ ids →
      ∀ other ∈ { post with stage := .sent id } ::
        c.posts.filter fun other => other.number ≠ post.number,
          ∀ id', other.stage = .sent id' → id' ∈ ids := by
    intro id ids hid hkept other hother id' hstage
    rcases List.mem_cons.mp hother with rfl | hother
    · obtain rfl := Stage.sent.inj hstage
      exact hid
    · exact hkept (h.answers other (List.mem_of_mem_filter hother) id' hstage)
  unfold send at hstep
  dsimp only at hstep
  cases hfind : find c.pending (digest (payload post.request)) with
  | some id =>
    rw [hfind] at hstep
    cases hstep
    have hid : id ∈ c.ids := by
      obtain ⟨newer, older, hlog, -⟩ := mem_pendingOf.mp (h.pending ▸ mem_of_find hfind)
      refine h.ids id (List.mem_map.mpr
        ⟨.stored (digest (payload post.request)) id, ?_, rfl⟩)
      rw [hlog]
      simp
    refine ⟨h.pending, ⟨h.orderly, h.pending ▸ hfind⟩, ?_, hothers,
      hanswers hid (List.Subset.refl _), hsent⟩
    intro id' hid'
    rcases List.mem_cons.mp hid' with rfl | hid'
    · exact hid
    · exact h.ids id' hid'
  | none =>
    rw [hfind] at hstep
    dsimp only at hstep
    split at hstep
    · cases hstep
      exact ⟨h.pending, h.orderly, h.ids,
        fun other hother => h.posts other (List.mem_of_mem_filter hother),
        fun other hother => h.answers other (List.mem_of_mem_filter hother), h.sent⟩
    · split at hstep
      · cases hstep
      · next hfresh =>
        cases hstep
        have hnew : fresh ∉ c.log.map Entry.id := fun hmem => hfresh (h.ids fresh hmem)
        have hstored : Orderly digest (.stored (digest (payload post.request)) fresh :: c.log) :=
          ⟨h.orderly, h.pending ▸ hfind, hnew⟩
        have hsame : find (pendingOf (.stored (digest (payload post.request)) fresh :: c.log))
            (digest (payload post.request)) = some fresh := by
          rw [pendingOf, ← h.pending, find, List.find?_append]
          rw [find, Option.map_eq_none_iff] at hfind
          rw [hfind]
          simp
        refine ⟨?_, ⟨hstored, hsame⟩, ?_, hothers,
          hanswers List.mem_cons_self (List.subset_cons_self _ _), ?_⟩
        · dsimp only
          rw [pendingOf, pendingOf, ← h.pending]
        · intro id' hid'
          rcases List.mem_cons.mp hid' with rfl | hid'
          · exact List.mem_cons_self
          · rcases List.mem_cons.mp hid' with rfl | hid'
            · exact List.mem_cons_self
            · exact List.mem_cons_of_mem _ (h.ids id' hid')
        · intro n r id' hmem
          rcases List.mem_cons.mp hmem with heq | hmem
          · obtain ⟨-, rfl, -⟩ := Entry.sent.inj heq
            exact ⟨hrequired, hplain⟩
          · rcases List.mem_cons.mp hmem with heq | hmem
            · cases heq
            · exact h.sent n r id' hmem

theorem inv_settle {c c' : Client F I} {id : I} (h : Inv digest c)
    (hpending : c'.pending = forgetPending c.pending id) (hlog : c'.log = .settled id :: c.log)
    (hids : id ∈ c'.ids) (hkept : c.ids ⊆ c'.ids) (hposts : c'.posts ⊆ c.posts) :
    Inv digest c' := by
  refine ⟨?_, ?_, ?_, fun post hpost => h.posts post (hposts hpost),
    fun post hpost id' hstage => hkept (h.answers post (hposts hpost) id' hstage), ?_⟩
  · rw [hpending, hlog, pendingOf, h.pending]
  · rw [hlog]
    exact h.orderly
  · intro id' hid'
    rw [hlog] at hid'
    rcases List.mem_cons.mp hid' with rfl | hid'
    · exact hids
    · exact hkept (h.ids id' hid')
  · intro n r id' hsent
    rw [hlog] at hsent
    rcases List.mem_cons.mp hsent with heq | hsent
    · cases heq
    · exact h.sent n r id' hsent

theorem inv_step (c : Client F I) (a : Act I) (c' : Client F I) (h : Inv digest c)
    (hplain : PlainPost c a) (hstep : step digest c a = some c') : Inv digest c' := by
  cases a with
  | post request =>
    simp only [step] at hstep
    split at hstep
    · next hrequired =>
      cases hstep
      refine ⟨h.pending, h.orderly, h.ids, ?_, ?_, h.sent⟩
      · intro post hpost
        rcases List.mem_cons.mp hpost with rfl | hpost
        · exact ⟨hrequired, hplain⟩
        · exact h.posts post hpost
      · intro post hpost id hstage
        rcases List.mem_cons.mp hpost with rfl | hpost
        · cases hstage
        · exact h.answers post hpost id hstage
    · cases hstep
      exact h
  | digested number fresh =>
    simp only [step] at hstep
    split at hstep
    · next number' request hfound =>
      exact inv_send h (List.mem_of_find?_eq_some hfound) hstep
    · cases hstep
  | answered number outcome =>
    simp only [step] at hstep
    split at hstep
    · next number' request id hfound =>
      cases hstep
      have hid := h.answers _ (List.mem_of_find?_eq_some hfound) id rfl
      unfold answer
      dsimp only
      split
      · exact inv_settle h rfl rfl hid (List.Subset.refl _) (List.filter_subset_self _)
      · exact ⟨h.pending, h.orderly, h.ids,
          fun other hother => h.posts other (List.mem_of_mem_filter hother),
          fun other hother => h.answers other (List.mem_of_mem_filter hother), h.sent⟩
    · cases hstep
  | forget id =>
    cases hstep
    exact inv_settle h rfl rfl List.mem_cons_self (List.subset_cons_self _ _) (List.Subset.refl _)
  | reload =>
    cases hstep
    refine ⟨h.pending, h.orderly, h.ids, ?_, ?_, h.sent⟩
    · intro post hpost
      cases hpost
    · intro post hpost
      cases hpost

/-! ## 6. Runs -/

theorem request_eq_of_payload {r r' : Request} (hr : requiresRequestId r = true)
    (hr' : requiresRequestId r' = true) (hplain : Plain (.object r.body))
    (hplain' : Plain (.object r'.body)) (h : payload r = payload r') :
    r.path = r'.path ∧ jsonOf (.object r.body) = jsonOf (.object r'.body) := by
  have hbreak : ∀ {r : Request}, requiresRequestId r = true →
      (0x0a : UInt8) ∉ Utf8.encode r.path.toList := by
    intro r hr
    simp only [requiresRequestId, Bool.or_eq_true, Bool.and_eq_true, decide_eq_true_eq] at hr
    rcases hr with (((⟨hpath, -⟩ | ⟨hpath, -⟩) | ⟨hpath, -⟩) | ⟨hpath, -⟩) | ⟨hpath, -⟩ <;>
      rw [hpath] <;> decide +kernel
  have hsplit := Text.splitOnce_append (stableJson (.object r.body)) (hbreak hr)
  have hsplit' := Text.splitOnce_append (stableJson (.object r'.body)) (hbreak hr')
  unfold payload at h
  rw [h, hsplit', Option.some.injEq, Prod.mk.injEq] at hsplit
  obtain ⟨hpath, hbody⟩ := hsplit
  constructor
  · have hdecode := congrArg Utf8.decode hpath
    rw [Utf8.decode_encode, Utf8.decode_encode, Option.some.injEq] at hdecode
    exact String.toList_injective hdecode.symm
  · rw [← stableForm_eq_jsonOf _ hplain, ← stableForm_eq_jsonOf _ hplain']
    exact ((stableJson_eq_iff _ _).mp hbody).symm

theorem payload_eq_of_request {r r' : Request} (hplain : Plain (.object r.body))
    (hplain' : Plain (.object r'.body)) (hpath : r.path = r'.path)
    (hbody : jsonOf (.object r.body) = jsonOf (.object r'.body)) : payload r = payload r' := by
  unfold payload
  rw [hpath, (stableJson_eq_iff _ _).mpr]
  rw [stableForm_eq_jsonOf _ hplain, stableForm_eq_jsonOf _ hplain', hbody]

variable (digest) in
/-- **One identifier for each request.** -/
structure Faithful (c : Client F I) : Prop where
  /-- The identifier of a request is stored before the request is sent, and is still stored. -/
  stored : ∀ newer n r id older, c.log = newer ++ .sent n r id :: older →
    ∃ mid rest, older = mid ++ .stored (digest (payload r)) id :: rest ∧ .settled id ∉ mid
  /-- Posts with one path and one JSON body carry one identifier until an outcome is known. -/
  same : ∀ newer m r' id' mid n r id older,
    c.log = newer ++ .sent m r' id' :: (mid ++ .sent n r id :: older) → r.path = r'.path →
      jsonOf (.object r.body) = jsonOf (.object r'.body) → .settled id ∉ mid → id' = id
  /-- After a known outcome a post carries another identifier. -/
  renewed : ∀ newer n r id' older id, c.log = newer ++ .sent n r id' :: older →
    .settled id ∈ older → id' ≠ id
  /-- Posts whose path or JSON body differ carry different identifiers. -/
  apart : ∀ n r id m r' id', .sent n r id ∈ c.log → .sent m r' id' ∈ c.log →
    (r.path ≠ r'.path ∨ jsonOf (.object r.body) ≠ jsonOf (.object r'.body)) → id ≠ id'
  /-- What was stored and not settled itself is still stored, whatever else was forgotten. -/
  kept : ∀ newer key id older, c.log = newer ++ .stored key id :: older → .settled id ∉ newer →
    (key, id) ∈ c.pending

theorem Inv.faithful {c : Client F I} (hdigest : Function.Injective digest)
    (h : Inv digest c) : Faithful digest c := by
  have hordered := h.orderly
  constructor
  · intro newer n r id older hlog
    rw [hlog] at hordered
    exact mem_pendingOf.mp hordered.pending_of_sent
  · intro newer m r' id' mid n r id older hlog hpath hbody hnot
    rw [hlog] at hordered
    have hsent := (h.sent n r id (by rw [hlog]; simp)).2
    have hsent' := (h.sent m r' id' (by rw [hlog]; simp)).2
    exact hordered.same_id (payload_eq_of_request hsent hsent' hpath hbody) hnot
  · intro newer n r id' older id hlog hsettled
    rw [hlog] at hordered
    exact hordered.new_id hsettled
  · rintro n r id m r' id' hsent hsent' hdiffer rfl
    obtain ⟨hr, hplain⟩ := h.sent n r id hsent
    obtain ⟨hr', hplain'⟩ := h.sent m r' id hsent'
    obtain ⟨hpath, hbody⟩ := request_eq_of_payload hr hr' hplain hplain'
      (hordered.payload_eq hdigest hsent hsent')
    rcases hdiffer with hdiffer | hdiffer
    · exact hdiffer hpath
    · exact hdiffer hbody
  · intro newer key id older hlog hnot
    rw [h.pending]
    exact mem_pendingOf.mpr ⟨newer, older, hlog, hnot⟩

/-- **Every run whose bodies have no undefined member** uses one identifier for each request. -/
theorem faithful_of_plain (hdigest : Function.Injective digest) {acts : List (Act I)}
    {c : Client F I} (hplain : (system digest).RunMeets PlainPost acts init)
    (hrun : (system digest).run acts init = some c) : Faithful digest c := by
  have hinv : Inv digest c :=
    Concurrent.System.run_invariant inv_step acts _ _ inv_init hplain hrun
  exact hinv.faithful hdigest

end Client

/-- The request to restart the Harness, with further members. -/
def restart (members : Body) : Request :=
  ⟨"/v1/harness", (jsText "action", .string (jsText "restart")) :: members⟩

/-- The member `force`. -/
def force (value : JsValue) : JsText × JsValue := (jsText "force", value)

/-- A lost response, a retry after a reload of the page, and a new attempt. -/
def retriedRestart : List (Act Nat) :=
  [.post (restart [force (.bool true)]), .digested 0 7, .answered 0 (.error none false), .reload,
    .post (restart [force (.bool true)]), .digested 1 8, .answered 1 (.response none),
    .post (restart [force (.bool true)]), .digested 2 9]

theorem faithful_retriedRestart :
    ∃ c, (system (id : Bytes → Bytes)).run retriedRestart init = some c ∧ Faithful id c := by
  have hplain : (system (id : Bytes → Bytes)).RunMeets PlainPost retriedRestart init := by
    simp [retriedRestart, restart, force, Concurrent.System.RunMeets, PlainPost, Plain,
      PlainMembers]
  have hsome : ((system (id : Bytes → Bytes)).run retriedRestart init).isSome = true := by
    decide +kernel
  obtain ⟨c, hrun⟩ := Option.isSome_iff_exists.mp hsome
  exact ⟨c, hrun, faithful_of_plain Function.injective_id hplain hrun⟩

def undefinedThenNull : List (Act Nat) :=
  [.post (restart [force .undefined]), .digested 0 7, .answered 0 (.error none false),
    .post (restart [force .null]), .digested 1 8]

/-- The same JSON body, first without the member and then with an undefined one. -/
def absentThenUndefined : List (Act Nat) :=
  [.post (restart []), .digested 0 7, .answered 0 (.error none false),
    .post (restart [force .undefined]), .digested 1 8]

theorem log_undefinedThenNull :
    ((system (id : Bytes → Bytes)).run undefinedThenNull init).map Client.log =
      some [.sent 1 (restart [force .null]) 7, .sent 0 (restart [force .undefined]) 7,
        .stored (payload (restart [force .null])) 7] := rfl

theorem log_absentThenUndefined :
    ((system (id : Bytes → Bytes)).run absentThenUndefined init).map Client.log =
      some [.sent 1 (restart [force .undefined]) 8,
        .stored (payload (restart [force .undefined])) 8, .sent 0 (restart []) 7,
        .stored (payload (restart [])) 7] := rfl

theorem jsonOf_restart_undefined :
    jsonOf (.object (restart [force .undefined]).body) = jsonOf (.object (restart []).body) := rfl

theorem jsonOf_restart_null :
    jsonOf (.object (restart [force .undefined]).body) ≠
      jsonOf (.object (restart [force .null]).body) := by
  intro h
  have hobjects : Json.object (sortEntries (jsonMembers (restart [force .undefined]).body)) =
      Json.object (sortEntries (jsonMembers (restart [force .null]).body)) := h
  have hlength := congrArg List.length (Json.object.inj hobjects)
  exact absurd hlength (by decide +kernel)

/-- **Two requests under one identifier, and one request under two**: `stableJson` writes an
undefined member as null, and the body is sent without it. -/
theorem not_faithful_undefined :
    (∃ c, (system (id : Bytes → Bytes)).run undefinedThenNull init = some c ∧
      ¬ Faithful id c) ∧
    ∃ c, (system (id : Bytes → Bytes)).run absentThenUndefined init = some c ∧
      ¬ Faithful id c := by
  constructor
  · obtain ⟨c, hrun, hlog⟩ := Option.map_eq_some_iff.mp log_undefinedThenNull
    refine ⟨c, hrun, ?_⟩
    intro h
    refine h.apart 0 (restart [force .undefined]) 7 1 (restart [force .null]) 7 ?_ ?_
      (Or.inr jsonOf_restart_null) rfl
    · rw [hlog]
      exact List.mem_cons_of_mem _ List.mem_cons_self
    · rw [hlog]
      exact List.mem_cons_self
  · obtain ⟨c, hrun, hlog⟩ := Option.map_eq_some_iff.mp log_absentThenUndefined
    refine ⟨c, hrun, ?_⟩
    intro h
    have hsame := h.same [] 1 (restart [force .undefined]) 8
      [.stored (payload (restart [force .undefined])) 8] 0 (restart []) 7 _ hlog rfl
      jsonOf_restart_undefined.symm (by simp)
    cases hsame

end DshNexus.Console
