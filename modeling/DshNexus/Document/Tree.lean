import Mathlib.Tactic.Common

/-!
# Document trees with secret members

Trees of scalars, sequences, mappings and tagged nodes, for keys and tags of any type, and
a predicate that marks some keys as secret.  A location is a list of steps.  Tags are
transparent to a step.

* `strip`: the tree without its secret members; `strip_eq_self`, `strip_idem`.
* `child`, `setChild`, `get?`, `put?`: reading and writing at a location.
* `get?_put?`: a write at the location of a secret changes that secret alone.
* `strip_put?`: a write at the location of a secret does not change the stripped tree.
* `SameOwner`: two locations lead through elements with the same identity.
-/

namespace DshNexus.Document

inductive Scalar where
  | null
  | bool (b : Bool)
  /-- a number, as it is printed -/
  | number (literal : String)
  | text (s : String)
  deriving DecidableEq, Repr

/-- A document with keys in `κ` and tags in `τ`. -/
inductive Tree (κ τ : Type) where
  | scalar (s : Scalar)
  | sequence (items : List (Tree κ τ))
  | mapping (members : List (κ × Tree κ τ))
  | tagged (tag : τ) (value : Tree κ τ)

inductive Step (κ : Type) where
  | key (k : κ)
  | index (i : Nat)
  deriving DecidableEq, Repr

def Step.isOpen {κ : Type} (secret : κ → Bool) : Step κ → Bool
  | .key k => !secret k
  | .index _ => true

namespace Tree

variable {κ τ : Type}

/-! ## Secret members -/

section Strip

variable (secret : κ → Bool)

mutual

/-- The tree without its secret members. -/
def strip : Tree κ τ → Tree κ τ
  | .scalar s => .scalar s
  | .sequence items => .sequence (stripItems items)
  | .mapping members => .mapping (stripMembers members)
  | .tagged t v => .tagged t (strip v)

def stripItems : List (Tree κ τ) → List (Tree κ τ)
  | [] => []
  | v :: vs => strip v :: stripItems vs

def stripMembers : List (κ × Tree κ τ) → List (κ × Tree κ τ)
  | [] => []
  | (k, v) :: ms => if secret k then stripMembers ms else (k, strip v) :: stripMembers ms

end

mutual

/-- Is there a secret member at any depth, below secret members too? -/
def hasSecret : Tree κ τ → Bool
  | .scalar _ => false
  | .sequence items => hasSecretItems items
  | .mapping members => hasSecretMembers members
  | .tagged _ v => hasSecret v

def hasSecretItems : List (Tree κ τ) → Bool
  | [] => false
  | v :: vs => hasSecret v || hasSecretItems vs

def hasSecretMembers : List (κ × Tree κ τ) → Bool
  | [] => false
  | (k, v) :: ms => secret k || hasSecret v || hasSecretMembers ms

end

mutual

/-- **A stripped tree has no secret member**, at any depth. -/
theorem hasSecret_strip : ∀ t : Tree κ τ, hasSecret secret (strip secret t) = false
  | .scalar _ => rfl
  | .sequence items => hasSecretItems_strip items
  | .mapping members => hasSecretMembers_strip members
  | .tagged _ v => hasSecret_strip v

theorem hasSecretItems_strip :
    ∀ vs : List (Tree κ τ), hasSecretItems secret (stripItems secret vs) = false
  | [] => rfl
  | v :: vs => by
    rw [stripItems, hasSecretItems, hasSecret_strip v, hasSecretItems_strip vs, Bool.or_false]

theorem hasSecretMembers_strip :
    ∀ ms : List (κ × Tree κ τ), hasSecretMembers secret (stripMembers secret ms) = false
  | [] => rfl
  | (k, v) :: ms => by
    by_cases hk : secret k = true
    · rw [stripMembers, if_pos hk]
      exact hasSecretMembers_strip ms
    · rw [stripMembers, if_neg hk, hasSecretMembers, hasSecret_strip v,
        hasSecretMembers_strip ms]
      simpa using hk

end

end Strip

/-! ## Members -/

variable [DecidableEq κ]

/-- Insert or replace a member; a new member stands before the first one that it is
`before`. -/
def insertMember (before : κ → κ → Bool) (k : κ) (v : Tree κ τ) :
    List (κ × Tree κ τ) → List (κ × Tree κ τ)
  | [] => [(k, v)]
  | (k', v') :: ms =>
      if k' = k then (k, v) :: ms
      else if before k k' then (k, v) :: (k', v') :: ms
      else (k', v') :: insertMember before k v ms

def replaceMember (k : κ) (v : Tree κ τ) : List (κ × Tree κ τ) → List (κ × Tree κ τ)
  | [] => []
  | (k', v') :: ms => if k' = k then (k', v) :: ms else (k', v') :: replaceMember k v ms

theorem lookup_cons_tree (k k' : κ) (v : Tree κ τ) (ms : List (κ × Tree κ τ)) :
    List.lookup k ((k', v) :: ms) = if k = k' then some v else List.lookup k ms := by
  by_cases h : k = k'
  · rw [if_pos h, h, List.lookup_cons_self]
  · rw [if_neg h, List.lookup_cons, beq_false_of_ne h]

theorem lookup_insertMember (before : κ → κ → Bool) (k k' : κ) (v : Tree κ τ)
    (ms : List (κ × Tree κ τ)) : (insertMember before k v ms).lookup k' =
      if k' = k then some v else ms.lookup k' := by
  induction ms with
  | nil => rw [insertMember, lookup_cons_tree]
  | cons m ms ih =>
    obtain ⟨j, w⟩ := m
    rw [insertMember]
    split
    · next hj => rw [lookup_cons_tree, lookup_cons_tree, hj]; split <;> rfl
    · next hj =>
      split
      · rw [lookup_cons_tree]
      · rw [lookup_cons_tree, ih, lookup_cons_tree]
        by_cases hk : k' = j
        · rw [if_pos hk, if_pos hk, if_neg (hk ▸ hj)]
        · rw [if_neg hk, if_neg hk]

theorem lookup_replaceMember (k k' : κ) (v : Tree κ τ) {ms : List (κ × Tree κ τ)}
    (hk : (ms.lookup k).isSome = true) : (replaceMember k v ms).lookup k' =
      if k' = k then some v else ms.lookup k' := by
  induction ms with
  | nil => exact absurd hk (by simp)
  | cons m ms ih =>
    obtain ⟨j, w⟩ := m
    rw [replaceMember]
    split
    · next hj => rw [lookup_cons_tree, lookup_cons_tree, hj]; split <;> rfl
    · next hj =>
      rw [lookup_cons_tree, if_neg (fun h => hj h.symm)] at hk
      rw [lookup_cons_tree, ih hk, lookup_cons_tree]
      by_cases hk' : k' = j
      · rw [if_pos hk', if_pos hk', if_neg (hk' ▸ hj)]
      · rw [if_neg hk', if_neg hk']

theorem lookup_stripMembers (secret : κ → Bool) {k : κ} (hk : secret k = false)
    (ms : List (κ × Tree κ τ)) :
    (stripMembers secret ms).lookup k = (ms.lookup k).map (strip secret) := by
  induction ms with
  | nil => rfl
  | cons m ms ih =>
    obtain ⟨j, w⟩ := m
    rw [lookup_cons_tree, stripMembers]
    by_cases hj : secret j = true
    · have hkj : k ≠ j := fun h => by rw [h, hj] at hk; exact absurd hk (by simp)
      rw [if_pos hj, if_neg hkj, ih]
    · rw [if_neg hj, lookup_cons_tree, ih]
      split <;> rfl

theorem stripMembers_insertMember (secret : κ → Bool) (before : κ → κ → Bool) {k : κ}
    (hk : secret k = true) (v : Tree κ τ) (ms : List (κ × Tree κ τ)) :
    stripMembers secret (insertMember before k v ms) = stripMembers secret ms := by
  induction ms with
  | nil => simp [insertMember, stripMembers, hk]
  | cons m ms ih =>
    obtain ⟨j, w⟩ := m
    rw [insertMember]
    split
    · next hj => rw [stripMembers, if_pos hk, stripMembers, if_pos (hj ▸ hk)]
    · split
      · rw [stripMembers, if_pos hk]
      · rw [stripMembers, ih, stripMembers]

theorem stripMembers_replaceMember (secret : κ → Bool) {k : κ} {v w : Tree κ τ}
    (hvw : strip secret v = strip secret w) {ms : List (κ × Tree κ τ)}
    (hk : ms.lookup k = some w) :
    stripMembers secret (replaceMember k v ms) = stripMembers secret ms := by
  induction ms with
  | nil => exact absurd hk (by simp)
  | cons m ms ih =>
    obtain ⟨j, u⟩ := m
    rw [lookup_cons_tree] at hk
    rw [replaceMember]
    by_cases hj : j = k
    · rw [if_pos hj.symm] at hk
      rw [if_pos hj, stripMembers, stripMembers, hvw, Option.some.inj hk]
    · rw [if_neg fun h => hj h.symm] at hk
      rw [if_neg hj, stripMembers, stripMembers, ih hk]

omit [DecidableEq κ] in
theorem stripItems_getElem? (secret : κ → Bool) (vs : List (Tree κ τ)) (i : Nat) :
    (stripItems secret vs)[i]? = vs[i]?.map (strip secret) := by
  induction vs generalizing i with
  | nil => rfl
  | cons v vs ih =>
    cases i with
    | zero => rfl
    | succ i => exact ih i

omit [DecidableEq κ] in
theorem stripItems_set (secret : κ → Bool) {vs : List (Tree κ τ)} {i : Nat} {v w : Tree κ τ}
    (hvw : strip secret v = strip secret w) (hi : vs[i]? = some w) :
    stripItems secret (vs.set i v) = stripItems secret vs := by
  induction vs generalizing i with
  | nil => exact absurd hi (by simp)
  | cons u vs ih =>
    cases i with
    | zero =>
      rw [List.set_cons_zero, stripItems, stripItems, hvw]
      rw [Option.some.inj hi]
    | succ i => rw [List.set_cons_succ, stripItems, stripItems, ih hi]

/-! ## One step -/

def untag : Tree κ τ → Tree κ τ
  | .tagged _ v => untag v
  | v => v

def child (t : Tree κ τ) (step : Step κ) : Option (Tree κ τ) :=
  match t.untag, step with
  | .mapping members, .key k => members.lookup k
  | .sequence items, .index i => items[i]?
  | _, _ => none

theorem child_key {t : Tree κ τ} {members : List (κ × Tree κ τ)} (h : t.untag = .mapping members)
    (k : κ) : t.child (.key k) = members.lookup k := by
  unfold child
  rw [h]

theorem child_index {t : Tree κ τ} {items : List (Tree κ τ)} (h : t.untag = .sequence items)
    (i : Nat) : t.child (.index i) = items[i]? := by
  unfold child
  rw [h]

/-- Replace the node that one step leads to. -/
def setChild : Tree κ τ → Step κ → Tree κ τ → Tree κ τ
  | .tagged t u, step, v => .tagged t (setChild u step v)
  | .mapping members, .key k, v => .mapping (replaceMember k v members)
  | .sequence items, .index i, v => .sequence (items.set i v)
  | t, _, _ => t

def setMember (before : κ → κ → Bool) : Tree κ τ → κ → Tree κ τ → Tree κ τ
  | .tagged t u, k, v => .tagged t (setMember before u k v)
  | .mapping members, k, v => .mapping (insertMember before k v members)
  | t, _, _ => t

/-- Is the node a mapping, under its tags? -/
def isMapping (t : Tree κ τ) : Bool :=
  match t.untag with
  | .mapping _ => true
  | _ => false

theorem child_setChild {t v w : Tree κ τ} {step : Step κ} (h : t.child step = some w)
    (step' : Step κ) :
    (t.setChild step v).child step' = if step' = step then some v else t.child step' := by
  induction t using untag.induct with
  | case1 tag u ih => exact ih h
  | case2 t ht =>
    cases t with
    | scalar s => cases step <;> exact absurd h (by simp [child, untag])
    | tagged tag u => exact absurd rfl (ht tag u)
    | mapping members =>
      cases step with
      | index i => exact absurd h (by simp [child, untag])
      | key k =>
        have hk : (members.lookup k).isSome = true := Option.isSome_iff_exists.mpr ⟨w, h⟩
        cases step' with
        | index j => rfl
        | key j =>
          show (replaceMember k v members).lookup j = _
          rw [lookup_replaceMember k j v hk]
          simp only [Step.key.injEq]
          rfl
    | sequence items =>
      cases step with
      | key k => exact absurd h (by simp [child, untag])
      | index i =>
        have hi : i < items.length := (List.getElem?_eq_some_iff.mp h).1
        cases step' with
        | key j => rfl
        | index j =>
          show (items.set i v)[j]? = _
          rw [List.getElem?_set]
          simp only [Step.index.injEq]
          by_cases hij : j = i
          · rw [if_pos hij, if_pos hij.symm, if_pos hi]
          · rw [if_neg hij, if_neg fun e => hij e.symm]
            rfl

theorem child_setMember (before : κ → κ → Bool) {t v : Tree κ τ} (ht : t.isMapping = true)
    (k : κ) (step : Step κ) :
    (t.setMember before k v).child step = if step = .key k then some v else t.child step := by
  induction t using untag.induct with
  | case1 tag u ih => exact ih ht
  | case2 t hu =>
    cases t with
    | scalar s => exact absurd ht (by simp [isMapping, untag])
    | sequence items => exact absurd ht (by simp [isMapping, untag])
    | tagged tag u => exact absurd rfl (hu tag u)
    | mapping members =>
      cases step with
      | index i => rfl
      | key j =>
        show (insertMember before k v members).lookup j = _
        rw [lookup_insertMember]
        simp only [Step.key.injEq]
        rfl

omit [DecidableEq κ] in
theorem untag_strip (secret : κ → Bool) (t : Tree κ τ) :
    (t.strip secret).untag = t.untag.strip secret := by
  induction t using untag.induct with
  | case1 tag u ih => exact ih
  | case2 t hu =>
    cases t with
    | tagged tag u => exact absurd rfl (hu tag u)
    | scalar s => rfl
    | sequence items => rfl
    | mapping members => rfl

/-- Stripping keeps every open step. -/
theorem child_strip {secret : κ → Bool} {step : Step κ} (h : step.isOpen secret = true)
    (t : Tree κ τ) : (t.strip secret).child step = (t.child step).map (strip secret) := by
  unfold child
  rw [untag_strip]
  cases t.untag with
  | scalar s => cases step <;> rfl
  | tagged tag u => cases step <;> rfl
  | sequence items =>
    cases step with
    | key k => rfl
    | index i => exact stripItems_getElem? secret items i
  | mapping members =>
    cases step with
    | index i => rfl
    | key k => exact lookup_stripMembers secret (by simpa [Step.isOpen] using h) members

omit [DecidableEq κ] in
theorem isMapping_strip (secret : κ → Bool) (t : Tree κ τ) :
    (t.strip secret).isMapping = t.isMapping := by
  unfold isMapping
  rw [untag_strip]
  cases t.untag <;> rfl

theorem strip_setMember {secret : κ → Bool} (before : κ → κ → Bool) {k : κ}
    (hk : secret k = true) (t v : Tree κ τ) :
    (t.setMember before k v).strip secret = t.strip secret := by
  induction t using untag.induct with
  | case1 tag u ih => exact congrArg (Tree.tagged tag) ih
  | case2 t hu =>
    cases t with
    | tagged tag u => exact absurd rfl (hu tag u)
    | scalar s => rfl
    | sequence items => rfl
    | mapping members =>
      exact congrArg Tree.mapping (stripMembers_insertMember secret before hk v members)

theorem strip_setChild {secret : κ → Bool} {t v w : Tree κ τ} {step : Step κ}
    (h : t.child step = some w) (hvw : v.strip secret = w.strip secret) :
    (t.setChild step v).strip secret = t.strip secret := by
  induction t using untag.induct with
  | case1 tag u ih => exact congrArg (Tree.tagged tag) (ih h)
  | case2 t hu =>
    cases t with
    | tagged tag u => exact absurd rfl (hu tag u)
    | scalar s => cases step <;> rfl
    | sequence items =>
      cases step with
      | key k => rfl
      | index i => exact congrArg Tree.sequence (stripItems_set secret hvw h)
    | mapping members =>
      cases step with
      | index i => rfl
      | key k => exact congrArg Tree.mapping (stripMembers_replaceMember secret hvw h)

omit [DecidableEq κ] in
theorem stripItems_eq_map (secret : κ → Bool) (vs : List (Tree κ τ)) :
    stripItems secret vs = vs.map (strip secret) := by
  induction vs with
  | nil => rfl
  | cons v vs ih => rw [stripItems, ih, List.map_cons]

omit [DecidableEq κ] in
theorem hasSecret_untag (secret : κ → Bool) (t : Tree κ τ) :
    t.untag.hasSecret secret = t.hasSecret secret := by
  induction t using untag.induct with
  | case1 tag u ih => exact ih
  | case2 t hu =>
    cases t with
    | tagged tag u => exact absurd rfl (hu tag u)
    | scalar s => rfl
    | sequence items => rfl
    | mapping members => rfl

theorem of_lookup_hasSecretMembers {secret : κ → Bool} {k : κ} {c : Tree κ τ}
    {ms : List (κ × Tree κ τ)} (h : hasSecretMembers secret ms = false)
    (hk : ms.lookup k = some c) : secret k = false ∧ c.hasSecret secret = false := by
  induction ms with
  | nil => exact nomatch hk
  | cons m ms ih =>
    obtain ⟨j, w⟩ := m
    rw [hasSecretMembers, Bool.or_eq_false_iff, Bool.or_eq_false_iff] at h
    rw [lookup_cons_tree] at hk
    split at hk
    · next hj => rw [hj, ← Option.some.inj hk]; exact h.1
    · exact ih h.2 hk

omit [DecidableEq κ] in
theorem of_getElem?_hasSecretItems {secret : κ → Bool} {i : Nat} {c : Tree κ τ}
    {vs : List (Tree κ τ)} (h : hasSecretItems secret vs = false) (hi : vs[i]? = some c) :
    c.hasSecret secret = false := by
  induction vs generalizing i with
  | nil => exact absurd hi (by simp)
  | cons v vs ih =>
    rw [hasSecretItems, Bool.or_eq_false_iff] at h
    cases i with
    | zero => rw [← Option.some.inj hi]; exact h.1
    | succ i => exact ih h.2 hi

/-- In a tree without secrets every step is open and leads to such a tree. -/
theorem child_of_hasSecret_eq_false {secret : κ → Bool} {t c : Tree κ τ} {step : Step κ}
    (h : t.hasSecret secret = false) (hc : t.child step = some c) :
    step.isOpen secret = true ∧ c.hasSecret secret = false := by
  rw [← hasSecret_untag] at h
  unfold child at hc
  split at hc
  · next members k hvalue =>
    rw [hvalue] at h
    obtain ⟨hk, hcs⟩ := of_lookup_hasSecretMembers h hc
    exact ⟨by rw [Step.isOpen, hk]; rfl, hcs⟩
  · next items i hvalue =>
    rw [hvalue] at h
    exact ⟨rfl, of_getElem?_hasSecretItems h hc⟩
  · exact nomatch hc

/-! ## Locations -/

def get? : Tree κ τ → List (Step κ) → Option (Tree κ τ)
  | t, [] => some t
  | t, step :: l => (t.child step).bind fun c => get? c l

/-- Set a member of the mapping at a location. -/
def putMember? (before : κ → κ → Bool) :
    Tree κ τ → List (Step κ) → κ → Tree κ τ → Option (Tree κ τ)
  | t, [], k, v => if t.isMapping = true then some (t.setMember before k v) else none
  | t, step :: l, k, v =>
      (t.child step).bind fun c => (putMember? before c l k v).map (t.setChild step)

@[simp] theorem get?_nil (t : Tree κ τ) : t.get? [] = some t := rfl

@[simp] theorem get?_cons (t : Tree κ τ) (step : Step κ) (l : List (Step κ)) :
    t.get? (step :: l) = (t.child step).bind fun c => c.get? l := rfl

/-- **A write of a secret member changes that secret alone**, among all secret members
that no other secret encloses. -/
theorem get?_putMember? {secret : κ → Bool} {before : κ → κ → Bool} {k k' : κ}
    (hk : secret k = true) (hk' : secret k' = true) {l l' : List (Step κ)}
    (hl : ∀ step ∈ l, step.isOpen secret = true) (hl' : ∀ step ∈ l', step.isOpen secret = true)
    {t t' v : Tree κ τ} (h : t.putMember? before l k v = some t') :
    t'.get? (l' ++ [.key k']) =
      if l' = l ∧ k' = k then some v else t.get? (l' ++ [.key k']) := by
  have hclosed : ∀ step : Step κ, step.isOpen secret = true →
      step ≠ .key k ∧ step ≠ .key k' := by
    rintro step hopen
    constructor <;> rintro rfl
    · simp [Step.isOpen, hk] at hopen
    · simp [Step.isOpen, hk'] at hopen
  induction l generalizing t t' l' with
  | nil =>
    rw [putMember?] at h
    split at h
    · next ht =>
      obtain rfl := Option.some.inj h
      cases l' with
      | nil =>
        rw [List.nil_append, get?_cons, get?_cons, child_setMember before ht]
        by_cases hkk : k' = k
        · rw [if_pos (congrArg Step.key hkk), if_pos ⟨rfl, hkk⟩]
          rfl
        · rw [if_neg (fun e => hkk (Step.key.inj e)), if_neg fun e => hkk e.2]
      | cons step l' =>
        have hne := (hclosed step (hl' step (List.mem_cons_self ..))).1
        rw [List.cons_append, get?_cons, get?_cons, child_setMember before ht, if_neg hne,
          if_neg (by simp)]
    · exact absurd h (by simp)
  | cons step l ih =>
    rw [putMember?, Option.bind_eq_some_iff] at h
    obtain ⟨c, hc, h⟩ := h
    rw [Option.map_eq_some_iff] at h
    obtain ⟨c', hput, rfl⟩ := h
    have hstep := hclosed step (hl step (List.mem_cons_self ..))
    cases l' with
    | nil =>
      rw [List.nil_append, get?_cons, get?_cons, child_setChild hc, if_neg hstep.2.symm,
        if_neg (by simp)]
    | cons step' l' =>
      rw [List.cons_append, get?_cons, get?_cons, child_setChild hc]
      by_cases hs : step' = step
      · have hrest := ih (fun s hs => hl s (List.mem_cons_of_mem _ hs))
          (fun s hs => hl' s (List.mem_cons_of_mem _ hs)) hput
        rw [if_pos hs, hs, hc]
        simpa using hrest
      · rw [if_neg hs, if_neg (by simp [hs])]

/-- A write of a secret member does not change the stripped tree. -/
theorem strip_putMember? {secret : κ → Bool} {before : κ → κ → Bool} {k : κ}
    (hk : secret k = true) {l : List (Step κ)} {t t' v : Tree κ τ}
    (h : t.putMember? before l k v = some t') : t'.strip secret = t.strip secret := by
  induction l generalizing t t' with
  | nil =>
    rw [putMember?] at h
    split at h
    · rw [← Option.some.inj h]
      exact strip_setMember before hk t v
    · exact absurd h (by simp)
  | cons step l ih =>
    rw [putMember?, Option.bind_eq_some_iff] at h
    obtain ⟨c, hc, h⟩ := h
    rw [Option.map_eq_some_iff] at h
    obtain ⟨c', hput, rfl⟩ := h
    exact strip_setChild hc (ih hput)

/-- A tree without secrets has nothing at the location of a secret. -/
theorem get?_secret_eq_none {secret : κ → Bool} {t : Tree κ τ} (h : t.hasSecret secret = false)
    {k : κ} (hk : secret k = true) (l : List (Step κ)) : t.get? (l ++ [.key k]) = none := by
  induction l generalizing t with
  | nil =>
    rw [List.nil_append, get?_cons, Option.bind_eq_none_iff]
    intro c hc
    have hopen := (child_of_hasSecret_eq_false h hc).1
    rw [Step.isOpen, hk] at hopen
    exact absurd hopen (by simp)
  | cons step l ih =>
    rw [List.cons_append, get?_cons, Option.bind_eq_none_iff]
    exact fun c hc => ih (child_of_hasSecret_eq_false h hc).2

/-! ## Owners -/

/-- Two locations in two trees lead through the same keys, and through elements of
sequences that have the same identity. -/
def SameOwner (identity : Tree κ τ → Option String) :
    List (Step κ) → List (Step κ) → Tree κ τ → Tree κ τ → Prop
  | [], [], _, _ => True
  | .key k :: l, .key k' :: m, a, b =>
      k = k' ∧ ∃ a' b', a.child (.key k) = some a' ∧ b.child (.key k') = some b' ∧
        SameOwner identity l m a' b'
  | .index i :: l, .index j :: m, a, b =>
      ∃ a' b', a.child (.index i) = some a' ∧ b.child (.index j) = some b' ∧
        identity a' = identity b' ∧ SameOwner identity l m a' b'
  | _, _, _, _ => False

/-- Trees that are equal but for secret members have the same open steps. -/
theorem child_of_strip_eq {secret : κ → Bool} {b b' : Tree κ τ}
    (hb : b.strip secret = b'.strip secret) {step : Step κ} (hstep : step.isOpen secret = true)
    {c : Tree κ τ} (hc : b.child step = some c) :
    ∃ c', b'.child step = some c' ∧ c.strip secret = c'.strip secret := by
  have hboth := child_strip hstep b
  rw [hb, child_strip hstep b', hc] at hboth
  obtain ⟨c', hc', heq⟩ := Option.map_eq_some_iff.mp hboth
  exact ⟨c', hc', heq.symm⟩

/-- Owners do not depend on secret members. -/
theorem sameOwner_congr {secret : κ → Bool} {identity : Tree κ τ → Option String}
    (hid : ∀ t, identity (t.strip secret) = identity t) {l m : List (Step κ)}
    (hm : ∀ step ∈ m, step.isOpen secret = true) {a b b' : Tree κ τ}
    (hb : b.strip secret = b'.strip secret) (h : SameOwner identity l m a b) :
    SameOwner identity l m a b' := by
  induction l generalizing m a b b' with
  | nil =>
    cases m with
    | nil => trivial
    | cons step m => cases step <;> exact h.elim
  | cons step l ih =>
    cases m with
    | nil => cases step <;> exact h.elim
    | cons step' m =>
      have hstep' := hm step' (List.mem_cons_self ..)
      have hm' : ∀ step ∈ m, step.isOpen secret = true :=
        fun s hs => hm s (List.mem_cons_of_mem _ hs)
      cases step with
      | key k =>
        cases step' with
        | index j => exact h.elim
        | key k' =>
          obtain ⟨hkk, a', c, ha', hc, hrest⟩ := h
          obtain ⟨c', hc', heq⟩ := child_of_strip_eq hb hstep' hc
          exact ⟨hkk, a', c', ha', hc', ih hm' heq hrest⟩
      | index i =>
        cases step' with
        | key k' => exact h.elim
        | index j =>
          obtain ⟨a', c, ha', hc, hident, hrest⟩ := h
          obtain ⟨c', hc', heq⟩ := child_of_strip_eq hb hstep' hc
          refine ⟨a', c', ha', hc', ?_, ih hm' heq hrest⟩
          rw [hident, ← hid c, heq, hid c']

/-- Along the location every element of a sequence is alone with its identity. -/
def UniqueOwner (identity : Tree κ τ → Option String) : List (Step κ) → Tree κ τ → Prop
  | [], _ => True
  | .key k :: l, a => ∃ a', a.child (.key k) = some a' ∧ UniqueOwner identity l a'
  | .index i :: l, a =>
      ∃ a', a.child (.index i) = some a' ∧ UniqueOwner identity l a' ∧
        ∀ j b, a.child (.index j) = some b → identity b = identity a' → j = i

/-- A unique owner is the only one with the same identity as an owner elsewhere. -/
theorem UniqueOwner.eq {identity : Tree κ τ → Option String} {l l' m : List (Step κ)}
    {a b : Tree κ τ} (hu : UniqueOwner identity l a) (h : SameOwner identity l m a b)
    (h' : SameOwner identity l' m a b) : l' = l := by
  induction l generalizing l' m a b with
  | nil =>
    cases m with
    | cons step m => cases step <;> exact h.elim
    | nil =>
      cases l' with
      | nil => rfl
      | cons step l' => cases step <;> exact h'.elim
  | cons step l ih =>
    cases m with
    | nil => cases step <;> exact h.elim
    | cons mstep m =>
      cases l' with
      | nil => cases mstep <;> exact h'.elim
      | cons step' l' =>
        cases step with
        | key k =>
          cases mstep with
          | index j => exact h.elim
          | key k' =>
            cases step' with
            | index i => exact h'.elim
            | key k'' =>
              obtain ⟨rfl, a₁, b₁, ha₁, hb₁, hrest⟩ := h
              obtain ⟨rfl, a₂, b₂, ha₂, hb₂, hrest'⟩ := h'
              obtain ⟨a₃, ha₃, hu'⟩ := hu
              obtain rfl := Option.some.inj (ha₁.symm.trans ha₂)
              obtain rfl := Option.some.inj (ha₁.symm.trans ha₃)
              obtain rfl := Option.some.inj (hb₁.symm.trans hb₂)
              rw [ih hu' hrest hrest']
        | index i =>
          cases mstep with
          | key k' => exact h.elim
          | index j =>
            cases step' with
            | key k'' => exact h'.elim
            | index i' =>
              obtain ⟨a₁, b₁, ha₁, hb₁, hid₁, hrest⟩ := h
              obtain ⟨a₂, b₂, ha₂, hb₂, hid₂, hrest'⟩ := h'
              obtain ⟨a₃, ha₃, hu', hone⟩ := hu
              obtain rfl := Option.some.inj (hb₁.symm.trans hb₂)
              obtain rfl := Option.some.inj (ha₁.symm.trans ha₃)
              obtain rfl := hone i' a₂ ha₂ (hid₂.trans hid₁.symm)
              obtain rfl := Option.some.inj (ha₁.symm.trans ha₂)
              rw [ih hu' hrest hrest']

end Tree
end DshNexus.Document
