import Mathlib.Order.BooleanAlgebra.Set
import Mathlib.Logic.Relation

/-!
# Tasks that take non-reentrant locks

A task takes locks, gives them back, and does other things whose outcome comes from outside.  The
locks are shared with other tasks, which take and release them at any time.  A lock does not know
its holder: a task that waits for a lock it holds waits forever.

* `LockProgram`: what a task does, with the outcomes left open; it is a monad.
* `OwnStep`, `OthersStep`, `Reaches`: the task among others.
* `NeverReacquires`: along no path does the task take a lock that it holds.
* `neverWaitsForItself_iff`: this is so exactly when no reachable state is about to take a held
  lock, and then the task returns whenever the other holders return.
* `neverReacquires_bind`, `ends_bind`: the two rules for sequences, by way of `Ends`, the ways in
  which a task ends; `neverReacquires_withLock` and `neverReacquires_withTryLock` for guards.
* `Ordered`: a task that takes its locks in the order of a rank.
-/

namespace DshNexus.Concurrent

/-- What a task does.  `call` is a step whose outcome comes from outside; `acquire` waits for its
lock and `tryAcquire` does not. -/
inductive LockProgram (E : Type → Type) (L α : Type) : Type 1 where
  | ret (value : α)
  | call {β : Type} (effect : E β) (next : β → LockProgram E L α)
  | acquire (lock : L) (next : LockProgram E L α)
  | tryAcquire (lock : L) (next : Bool → LockProgram E L α)
  | release (lock : L) (next : LockProgram E L α)

namespace LockProgram

variable {E : Type → Type} {L α β γ ε : Type}

/-- Run the first task and continue with its result. -/
def bind : LockProgram E L α → (α → LockProgram E L β) → LockProgram E L β
  | .ret a, f => f a
  | .call effect next, f => .call effect fun b => bind (next b) f
  | .acquire lock next, f => .acquire lock (bind next f)
  | .tryAcquire lock next, f => .tryAcquire lock fun taken => bind (next taken) f
  | .release lock next, f => .release lock (bind next f)

instance : Monad (LockProgram E L) where
  pure := .ret
  bind := bind

/-- One step whose outcome comes from outside. -/
def perform (effect : E β) : LockProgram E L β := .call effect .ret

/-- The guard of a lock lives as long as the body. -/
def withLock (lock : L) (body : LockProgram E L α) : LockProgram E L α :=
  .acquire lock (body >>= fun a => .release lock (.ret a))

/-- The same without waiting: another task may hold the lock. -/
def withTryLock (lock : L) (busy : α) (body : LockProgram E L α) : LockProgram E L α :=
  .tryAcquire lock fun
    | true => body >>= fun a => .release lock (.ret a)
    | false => .ret busy

/-! ## A task among others -/

/-- A task with the locks that it holds and those that others hold. -/
structure TaskState (E : Type → Type) (L α : Type) where
  program : LockProgram E L α
  mine : List L
  others : Set L

variable [DecidableEq L] (outcome : ∀ β, E β → β)

inductive OwnStep : TaskState E L α → TaskState E L α → Prop where
  | call {β : Type} {effect : E β} {next : β → LockProgram E L α} {mine : List L}
      {others : Set L} :
      OwnStep ⟨.call effect next, mine, others⟩ ⟨next (outcome β effect), mine, others⟩
  | acquire {lock : L} {next : LockProgram E L α} {mine : List L} {others : Set L}
      (free : lock ∉ mine) (unheld : lock ∉ others) :
      OwnStep ⟨.acquire lock next, mine, others⟩ ⟨next, lock :: mine, others⟩
  | taken {lock : L} {next : Bool → LockProgram E L α} {mine : List L} {others : Set L}
      (free : lock ∉ mine) (unheld : lock ∉ others) :
      OwnStep ⟨.tryAcquire lock next, mine, others⟩ ⟨next true, lock :: mine, others⟩
  | busy {lock : L} {next : Bool → LockProgram E L α} {mine : List L} {others : Set L}
      (held : lock ∈ mine ∨ lock ∈ others) :
      OwnStep ⟨.tryAcquire lock next, mine, others⟩ ⟨next false, mine, others⟩
  | release {lock : L} {next : LockProgram E L α} {mine : List L} {others : Set L} :
      OwnStep ⟨.release lock next, mine, others⟩ ⟨next, mine.erase lock, others⟩

/-- Another task takes a free lock, or releases one that it holds. -/
inductive OthersStep : TaskState E L α → TaskState E L α → Prop where
  | acquire {t : TaskState E L α} {lock : L} (free : lock ∉ t.mine) :
      OthersStep t { t with others := insert lock t.others }
  | release {t : TaskState E L α} (lock : L) :
      OthersStep t { t with others := t.others \ {lock} }

/-- The states that the task and the others reach. -/
def Reaches : TaskState E L α → TaskState E L α → Prop :=
  Relation.ReflTransGen fun s t => OwnStep outcome s t ∨ OthersStep s t

omit [DecidableEq L] in
/-- The task is about to take a lock that it holds. -/
def Reacquires (t : TaskState E L α) : Prop :=
  ∃ lock ∈ t.mine, (∃ next, t.program = .acquire lock next) ∨
    ∃ next, t.program = .tryAcquire lock next

/-- Once the other holders have returned, the task returns. -/
def Returns (t : TaskState E L α) : Prop :=
  ∃ value mine, Relation.ReflTransGen (OwnStep outcome) { t with others := ∅ }
    ⟨.ret value, mine, ∅⟩

/-- The task never takes a lock that it holds, whatever the others do, and returns whenever the
other holders return. -/
def NeverWaitsForItself (program : LockProgram E L α) : Prop :=
  ∀ others t, Reaches outcome ⟨program, [], others⟩ t → ¬ Reacquires t ∧ Returns outcome t

/-! ## The rule -/

/-- Along no path does a task that holds the given locks take one of those it holds. -/
def NeverReacquires (mine : List L) : LockProgram E L α → Prop
  | .ret _ => True
  | .call (β := β) effect next => NeverReacquires mine (next (outcome β effect))
  | .acquire lock next => lock ∉ mine ∧ NeverReacquires (lock :: mine) next
  | .tryAcquire lock next => lock ∉ mine ∧ NeverReacquires (lock :: mine) (next true) ∧
      NeverReacquires mine (next false)
  | .release lock next => NeverReacquires (mine.erase lock) next

variable {outcome} {mine : List L}

theorem neverReacquires_step {s t : TaskState E L α}
    (h : NeverReacquires outcome s.mine s.program) (hstep : OwnStep outcome s t ∨ OthersStep s t) :
    NeverReacquires outcome t.mine t.program := by
  rcases hstep with hown | hothers
  · cases hown with
    | call => exact h
    | acquire => exact h.2
    | taken => exact h.2.1
    | busy => exact h.2.2
    | release => exact h
  · cases hothers with
    | acquire => exact h
    | release => exact h

theorem not_reacquires {t : TaskState E L α} (h : NeverReacquires outcome t.mine t.program) :
    ¬ Reacquires t := by
  rintro ⟨lock, hlock, ⟨next, hnext⟩ | ⟨next, hnext⟩⟩
  · rw [hnext] at h
    exact h.1 hlock
  · rw [hnext] at h
    exact h.1 hlock

theorem returns_of_neverReacquires {program : LockProgram E L α}
    (h : NeverReacquires outcome mine program) (others : Set L) :
    Returns outcome ⟨program, mine, others⟩ := by
  suffices hends : ∃ value mine', Relation.ReflTransGen (OwnStep outcome)
      (⟨program, mine, ∅⟩ : TaskState E L α) ⟨.ret value, mine', ∅⟩ from hends
  induction program generalizing mine with
  | ret value => exact ⟨value, mine, .refl⟩
  | call effect next ih =>
    obtain ⟨value, mine', hrun⟩ := ih _ h
    exact ⟨value, mine', hrun.head .call⟩
  | acquire lock next ih =>
    obtain ⟨value, mine', hrun⟩ := ih h.2
    exact ⟨value, mine', hrun.head (.acquire h.1 (Set.notMem_empty lock))⟩
  | tryAcquire lock next ih =>
    obtain ⟨value, mine', hrun⟩ := ih true h.2.1
    exact ⟨value, mine', hrun.head (.taken h.1 (Set.notMem_empty lock))⟩
  | release lock next ih =>
    obtain ⟨value, mine', hrun⟩ := ih h
    exact ⟨value, mine', hrun.head .release⟩

/-- From a task that reaches no state in which it takes a held lock, its paths. -/
theorem neverReacquires_of_reaches {program : LockProgram E L α}
    (h : ∀ others t, (∀ lock ∈ others, lock ∉ mine) →
      Reaches outcome ⟨program, mine, others⟩ t → ¬ Reacquires t) :
    NeverReacquires outcome mine program := by
  induction program generalizing mine with
  | ret value => trivial
  | call effect next ih =>
    exact ih _ fun others t hothers ht => h others t hothers (ht.head (Or.inl .call))
  | acquire lock next ih =>
    have hfree : lock ∉ mine := fun hlock =>
      h ∅ _ (fun _ he => nomatch he) Relation.ReflTransGen.refl ⟨lock, hlock, Or.inl ⟨next, rfl⟩⟩
    refine ⟨hfree, ih fun others t hothers ht => h others t ?_ (ht.head (Or.inl (.acquire hfree ?_)))⟩
    · exact fun other hother hmine => hothers other hother (List.mem_cons_of_mem _ hmine)
    · exact fun hlock => hothers lock hlock List.mem_cons_self
  | tryAcquire lock next ih =>
    have hfree : lock ∉ mine := fun hlock =>
      h ∅ _ (fun _ he => nomatch he) Relation.ReflTransGen.refl ⟨lock, hlock, Or.inr ⟨next, rfl⟩⟩
    refine ⟨hfree, ih true fun others t hothers ht =>
      h others t ?_ (ht.head (Or.inl (.taken hfree ?_))), ih false fun others t hothers ht => ?_⟩
    · exact fun other hother hmine => hothers other hother (List.mem_cons_of_mem _ hmine)
    · exact fun hlock => hothers lock hlock List.mem_cons_self
    · -- another task holds the lock for a moment
      refine h (insert lock others) t (fun other hother => ?_) ?_
      · rcases hother with rfl | hother
        · exact hfree
        · exact hothers other hother
      · have hbusy : OwnStep outcome
            (⟨.tryAcquire lock next, mine, insert lock others⟩ : TaskState E L α)
            ⟨next false, mine, insert lock others⟩ := .busy (Or.inr (Set.mem_insert lock others))
        refine Relation.ReflTransGen.head (Or.inl hbusy) ?_
        by_cases hlock : lock ∈ others
        · rw [Set.insert_eq_of_mem hlock]
          exact ht
        · refine Relation.ReflTransGen.head (Or.inr (.release lock)) ?_
          dsimp only
          rwa [Set.insert_sdiff_self_of_notMem hlock]
  | release lock next ih =>
    refine ih fun others t hothers ht => ?_
    by_cases hall : ∀ other ∈ others, other ∉ mine
    · exact h others t hall (ht.head (Or.inl .release))
    · -- the lock that was released may be taken by another task at once
      have hfree : ∀ other ∈ others \ {lock}, other ∉ mine := fun other hother hmine =>
        hothers other hother.1 ((List.mem_erase_of_ne hother.2).mpr hmine)
      have hlock : lock ∈ others := by
        by_contra hnot
        exact hall fun other hother => hfree other ⟨hother, fun heq => hnot (heq ▸ hother)⟩
      refine h (others \ {lock}) t hfree ?_
      refine Relation.ReflTransGen.head (Or.inl .release) ?_
      refine Relation.ReflTransGen.head (Or.inr (.acquire (hothers lock hlock))) ?_
      dsimp only
      rwa [Set.insert_sdiff_singleton, Set.insert_eq_of_mem hlock]

/-- **The rule.**  A task never waits for itself exactly when none of its paths takes a held
lock. -/
theorem neverWaitsForItself_iff {program : LockProgram E L α} :
    NeverWaitsForItself outcome program ↔ NeverReacquires outcome [] program := by
  constructor
  · exact fun h => neverReacquires_of_reaches fun others t _ ht => (h others t ht).1
  · intro h others t ht
    have hpaths : NeverReacquires outcome t.mine t.program := by
      induction ht with
      | refl => exact h
      | tail _ hstep ih => exact neverReacquires_step ih hstep
    exact ⟨not_reacquires hpaths, returns_of_neverReacquires hpaths t.others⟩

/-! ## Sequences and guards -/

variable (outcome)

/-- The task can end with the value, holding the last locks, when it begins with the first. -/
def Ends (mine : List L) : LockProgram E L α → α → List L → Prop
  | .ret a, value, held => value = a ∧ held = mine
  | .call (β := β) effect next, value, held => Ends mine (next (outcome β effect)) value held
  | .acquire lock next, value, held => lock ∉ mine ∧ Ends (lock :: mine) next value held
  | .tryAcquire lock next, value, held => lock ∉ mine ∧
      (Ends (lock :: mine) (next true) value held ∨ Ends mine (next false) value held)
  | .release lock next, value, held => Ends (mine.erase lock) next value held

/-- The value with which a task ends when no other task holds a lock. -/
def result : LockProgram E L α → α
  | .ret a => a
  | .call (β := β) effect next => result (next (outcome β effect))
  | .acquire _ next => result next
  | .tryAcquire _ next => result (next true)
  | .release _ next => result next

variable {outcome}

theorem ends_bind {task : LockProgram E L α} {f : α → LockProgram E L β} {b : β} {held : List L} :
    Ends outcome mine (task >>= f) b held ↔
      ∃ a held', Ends outcome mine task a held' ∧ Ends outcome held' (f a) b held := by
  change Ends outcome mine (task.bind f) b held ↔ _
  induction task generalizing mine with
  | ret a =>
    constructor
    · exact fun h => ⟨a, mine, ⟨rfl, rfl⟩, h⟩
    · rintro ⟨_, _, ⟨rfl, rfl⟩, h⟩
      exact h
  | call effect next ih => exact ih _
  | acquire lock next ih =>
    rw [LockProgram.bind, Ends, ih]
    constructor
    · rintro ⟨hfree, a, held', ha, hb⟩
      exact ⟨a, held', ⟨hfree, ha⟩, hb⟩
    · rintro ⟨a, held', ⟨hfree, ha⟩, hb⟩
      exact ⟨hfree, a, held', ha, hb⟩
  | tryAcquire lock next ih =>
    rw [LockProgram.bind, Ends, ih, ih]
    constructor
    · rintro ⟨hfree, ⟨a, held', ha, hb⟩ | ⟨a, held', ha, hb⟩⟩
      · exact ⟨a, held', ⟨hfree, Or.inl ha⟩, hb⟩
      · exact ⟨a, held', ⟨hfree, Or.inr ha⟩, hb⟩
    · rintro ⟨a, held', ⟨hfree, ha | ha⟩, hb⟩
      · exact ⟨hfree, Or.inl ⟨a, held', ha, hb⟩⟩
      · exact ⟨hfree, Or.inr ⟨a, held', ha, hb⟩⟩
  | release lock next ih => exact ih

theorem neverReacquires_bind {task : LockProgram E L α} {f : α → LockProgram E L β} :
    NeverReacquires outcome mine (task >>= f) ↔ NeverReacquires outcome mine task ∧
      ∀ a held, Ends outcome mine task a held → NeverReacquires outcome held (f a) := by
  change NeverReacquires outcome mine (task.bind f) ↔ _
  induction task generalizing mine with
  | ret a =>
    constructor
    · intro h
      exact ⟨trivial, by rintro _ _ ⟨rfl, rfl⟩; exact h⟩
    · exact fun h => h.2 a mine ⟨rfl, rfl⟩
  | call effect next ih => exact ih _
  | acquire lock next ih =>
    rw [LockProgram.bind, NeverReacquires, NeverReacquires, ih]
    constructor
    · rintro ⟨hfree, hnext, hf⟩
      exact ⟨⟨hfree, hnext⟩, fun a held ha => hf a held ha.2⟩
    · rintro ⟨⟨hfree, hnext⟩, hf⟩
      exact ⟨hfree, hnext, fun a held ha => hf a held ⟨hfree, ha⟩⟩
  | tryAcquire lock next ih =>
    rw [LockProgram.bind, NeverReacquires, NeverReacquires, ih, ih]
    constructor
    · rintro ⟨hfree, ⟨htrue, hf⟩, hfalse, hg⟩
      refine ⟨⟨hfree, htrue, hfalse⟩, ?_⟩
      rintro a held ⟨-, ha | ha⟩
      · exact hf a held ha
      · exact hg a held ha
    · rintro ⟨⟨hfree, htrue, hfalse⟩, hf⟩
      exact ⟨hfree, ⟨htrue, fun a held ha => hf a held ⟨hfree, Or.inl ha⟩⟩,
        hfalse, fun a held ha => hf a held ⟨hfree, Or.inr ha⟩⟩
  | release lock next ih => exact ih

omit [DecidableEq L] in
theorem result_bind (task : LockProgram E L α) (f : α → LockProgram E L β) :
    result outcome (task >>= f) = result outcome (f (result outcome task)) := by
  change result outcome (task.bind f) = _
  induction task with
  | ret a => rfl
  | call effect next ih => exact ih _
  | acquire lock next ih => exact ih
  | tryAcquire lock next ih => exact ih true
  | release lock next ih => exact ih

omit [DecidableEq L] in
@[simp] theorem result_pure (a : α) : result outcome (pure a : LockProgram E L α) = a := rfl

omit [DecidableEq L] in
@[simp] theorem result_perform (effect : E β) :
    result outcome (perform effect : LockProgram E L β) = outcome β effect := rfl

omit [DecidableEq L] in
@[simp] theorem result_withLock (lock : L) (body : LockProgram E L α) :
    result outcome (withLock lock body) = result outcome body := by
  rw [withLock, result, result_bind]
  rfl

theorem neverReacquires_perform_bind {effect : E β} {f : β → LockProgram E L α} :
    NeverReacquires outcome mine (perform effect >>= f) ↔
      NeverReacquires outcome mine (f (outcome β effect)) :=
  Iff.rfl

theorem neverReacquires_withLock {lock : L} {body : LockProgram E L α} :
    NeverReacquires outcome mine (withLock lock body) ↔
      lock ∉ mine ∧ NeverReacquires outcome (lock :: mine) body := by
  rw [withLock, NeverReacquires, neverReacquires_bind]
  exact and_congr_right fun _ => and_iff_left fun _ _ _ => trivial

theorem neverReacquires_withTryLock {lock : L} {busy : α} {body : LockProgram E L α} :
    NeverReacquires outcome mine (withTryLock lock busy body) ↔
      lock ∉ mine ∧ NeverReacquires outcome (lock :: mine) body := by
  rw [withTryLock, NeverReacquires, neverReacquires_bind]
  exact and_congr_right fun _ =>
    ⟨fun h => h.1.1, fun h => ⟨⟨h, fun _ _ _ => trivial⟩, trivial⟩⟩

/-! ## Lock order -/

variable (outcome) (rank : L → Nat)

/-- The task waits only for locks of at least the given rank, each above those that it holds; it
gives them back, and its value does not depend on the other tasks. -/
def Ordered (n : Nat) (task : LockProgram E L α) : Prop :=
  ∀ mine, (∀ lock ∈ mine, rank lock < n) → NeverReacquires outcome mine task ∧
    ∀ a held, Ends outcome mine task a held ↔ a = result outcome task ∧ held = mine

variable {outcome} {rank} {n : Nat}

theorem ordered_pure (a : α) : Ordered outcome rank n (pure a : LockProgram E L α) :=
  fun _ _ => ⟨trivial, fun _ _ => Iff.rfl⟩

theorem ordered_perform (effect : E β) :
    Ordered outcome rank n (perform effect : LockProgram E L β) :=
  fun _ _ => ⟨trivial, fun _ _ => Iff.rfl⟩

theorem Ordered.mono {task : LockProgram E L α} {m : Nat} (h : Ordered outcome rank n task)
    (hle : m ≤ n) : Ordered outcome rank m task :=
  fun mine hmine => h mine fun lock hlock => lt_of_lt_of_le (hmine lock hlock) hle

/-- After an ordered part, the rest of a task runs with the value of that part. -/
theorem Ordered.bind_result {task : LockProgram E L α} {f : α → LockProgram E L β}
    (htask : Ordered outcome rank n task) (hf : Ordered outcome rank n (f (result outcome task))) :
    Ordered outcome rank n (task >>= f) := by
  intro mine hmine
  obtain ⟨hnever, hends⟩ := htask mine hmine
  obtain ⟨hnever', hends'⟩ := hf mine hmine
  refine ⟨neverReacquires_bind.mpr ⟨hnever, ?_⟩, fun b held => ?_⟩
  · intro a held ha
    obtain ⟨rfl, rfl⟩ := (hends a held).mp ha
    exact hnever'
  · rw [ends_bind, result_bind]
    constructor
    · rintro ⟨a, held', ha, hb⟩
      obtain ⟨rfl, rfl⟩ := (hends a held').mp ha
      exact (hends' b held).mp hb
    · intro hb
      exact ⟨_, mine, (hends _ mine).mpr ⟨rfl, rfl⟩, (hends' b held).mpr hb⟩

theorem Ordered.bind {task : LockProgram E L α} {f : α → LockProgram E L β}
    (htask : Ordered outcome rank n task) (hf : ∀ a, Ordered outcome rank n (f a)) :
    Ordered outcome rank n (task >>= f) :=
  htask.bind_result (hf _)

theorem Ordered.withLock {lock : L} {body : LockProgram E L α}
    (hbody : Ordered outcome rank (rank lock + 1) body) (hle : n ≤ rank lock) :
    Ordered outcome rank n (withLock lock body) := by
  intro mine hmine
  have hfree : lock ∉ mine := fun hlock => absurd (hmine lock hlock) (by omega)
  have hheld : ∀ other ∈ lock :: mine, rank other < rank lock + 1 := by
    intro other hother
    rcases List.mem_cons.mp hother with rfl | hother
    · omega
    · have := hmine other hother
      omega
  obtain ⟨hnever, hends⟩ := hbody _ hheld
  refine ⟨neverReacquires_withLock.mpr ⟨hfree, hnever⟩, fun a held => ?_⟩
  rw [LockProgram.withLock, Ends, ends_bind, ← LockProgram.withLock, result_withLock]
  constructor
  · rintro ⟨-, b, held', hb, rfl, rfl⟩
    obtain ⟨rfl, rfl⟩ := (hends a held').mp hb
    exact ⟨rfl, by rw [List.erase_cons_head]⟩
  · rintro ⟨rfl, rfl⟩
    exact ⟨hfree, _, _, (hends _ _).mpr ⟨rfl, rfl⟩, rfl, by rw [List.erase_cons_head]⟩

theorem Ordered.neverReacquires_bind {task : LockProgram E L α} {f : α → LockProgram E L β}
    (htask : Ordered outcome rank n task) (hmine : ∀ lock ∈ mine, rank lock < n) :
    NeverReacquires outcome mine (task >>= f) ↔
      NeverReacquires outcome mine (f (result outcome task)) := by
  obtain ⟨hnever, hends⟩ := htask mine hmine
  rw [LockProgram.neverReacquires_bind, and_iff_right hnever]
  constructor
  · exact fun h => h _ mine ((hends _ mine).mpr ⟨rfl, rfl⟩)
  · intro h a held ha
    obtain ⟨rfl, rfl⟩ := (hends a held).mp ha
    exact h

theorem Ordered.neverReacquires {task : LockProgram E L α} (htask : Ordered outcome rank n task)
    (hmine : ∀ lock ∈ mine, rank lock < n) : NeverReacquires outcome mine task :=
  (htask mine hmine).1

/-- A guard that is taken without waiting is given back too. -/
theorem Ordered.held_eq_of_withTryLock {busy : α} {body : LockProgram E L α} (rank : L → Nat)
    (lock : L) (hbody : Ordered outcome rank (rank lock + 1) body)
    (hmine : ∀ other ∈ mine, rank other < rank lock)
    {a : α} {held : List L} (h : Ends outcome mine (LockProgram.withTryLock lock busy body) a held) :
    held = mine := by
  obtain ⟨-, htaken | ⟨-, rfl⟩⟩ := h
  · obtain ⟨b, held', hb, -, rfl⟩ := ends_bind.mp htaken
    have hheld : ∀ other ∈ lock :: mine, rank other < rank lock + 1 := by
      intro other hother
      rcases List.mem_cons.mp hother with rfl | hother
      · omega
      · have := hmine other hother
        omega
    obtain ⟨-, rfl⟩ := ((hbody _ hheld).2 b held').mp hb
    rw [List.erase_cons_head]
  · rfl

end LockProgram
end DshNexus.Concurrent
