import Mathlib.Logic.Function.Basic
import DshNexus.Concurrent.System
import DshNexus.Durable.Program

/-!
# Tasks over one store

Any number of tasks work on one store, step by step and in any order.  Each task is a call that
reads the store, changes it, and waits for a lock that one task holds at a time.  A task may stop
after any step, and then its lock is free again.

1. `Task`: a call with the lock; it is a monad, and `Task.lift` takes the programs on a part of
   the store into it.
2. `interleaved`: the system of all tasks, one turn after the other.
3. `Task.Among`: what a task reaches among others.  A `Conduct` says what the others may do to
   the store while the task holds the lock and while it does not, and what the task may do.
4. `interleaved_step`: in a system of tasks that keep to one conduct, every change of the store
   is of the kind that the conduct allows.
-/

namespace DshNexus.Concurrent

open Durable

/-! ## 1. Tasks -/

/-- A call on a store of type `σ` beside other calls.  `step` applies one atomic change, and goes
on with the second program when the change is reported as failed; `acquire` waits for the lock. -/
inductive Task (σ ε α : Type) : Type where
  | ret (a : α)
  | fail (e : ε)
  | look (k : σ → Task σ ε α)
  | step (f : σ → σ) (next onError : Task σ ε α)
  | acquire (next : Task σ ε α)
  | release (next : Task σ ε α)

namespace Task

variable {σ τ ε α β : Type}

/-- Run the first task and continue with its result. -/
def bind : Task σ ε α → (α → Task σ ε β) → Task σ ε β
  | ret a, g => g a
  | fail e, _ => fail e
  | look k, g => look fun s => bind (k s) g
  | step f next onError, g => step f (bind next g) (bind onError g)
  | acquire next, g => acquire (bind next g)
  | release next, g => release (bind next g)

instance instMonad : Monad (Task σ ε) where
  pure := ret
  bind := bind

/-- A call on the part `l` of the store. -/
def lift (l : Lens σ τ) : Program τ ε α → Task σ ε α
  | .ret a => ret a
  | .fail e => fail e
  | .look k => look fun s => lift l (k (l.get s))
  | .step f next onError => step (fun s => l.put (f (l.get s)) s) (lift l next) (lift l onError)

/-- The result of a check that needs no store. -/
def ofExcept : Except ε α → Task σ ε α
  | .ok a => ret a
  | .error e => fail e

def inspect (f : σ → Except ε α) : Task σ ε α := look fun s => ofExcept (f s)

/-- One atomic change that reports `e` when it fails. -/
def durable (e : ε) (f : σ → σ) : Task σ ε Unit := step f (ret ()) (fail e)

/-- Give the lock back at the end, also after an error. -/
def releaseAfter : Task σ ε α → Task σ ε α
  | ret a => release (ret a)
  | fail e => release (fail e)
  | look k => look fun s => releaseAfter (k s)
  | step f next onError => step f (releaseAfter next) (releaseAfter onError)
  | acquire next => acquire (releaseAfter next)
  | release next => release (releaseAfter next)

/-- The guard of the lock lives as long as the body. -/
def withLock (body : Task σ ε α) : Task σ ε α := acquire (releaseAfter body)

end Task

/-! ## 2. The system -/

/-- The store, the holder of the lock and the tasks at work. -/
structure Shared (σ ε : Type) where
  store : σ
  holder : Option Nat
  tasks : Nat → Option (Task σ ε Unit)

/-- A turn: a call begins, a task does its next step, the next step of a task is reported as
failed (with or without its effect), a task stops, or something outside changes the store. -/
inductive Turn (ι η : Type) where
  | begin (i : Nat) (call : ι)
  | advance (i : Nat)
  | failure (i : Nat) (applied : Bool)
  | stop (i : Nat)
  | outside (change : η)

namespace Shared

variable {σ ε : Type}

def proceed (s : Shared σ ε) (i : Nat) (task : Task σ ε Unit) : Shared σ ε :=
  { s with tasks := Function.update s.tasks i (some task) }

/-- The holder of the lock after task `i` has given up what it holds. -/
def holderWithout (s : Shared σ ε) (i : Nat) : Option Nat :=
  if s.holder = some i then none else s.holder

def leave (s : Shared σ ε) (i : Nat) : Shared σ ε :=
  { s with holder := s.holderWithout i, tasks := Function.update s.tasks i none }

/-- The next step of a task; a task that needs the lock of another one has none. -/
def advance (s : Shared σ ε) (i : Nat) : Option (Shared σ ε) :=
  match s.tasks i with
  | none => none
  | some (.ret _) => some (s.leave i)
  | some (.fail _) => some (s.leave i)
  | some (.look k) => some (s.proceed i (k s.store))
  | some (.step f next _) => some { s.proceed i next with store := f s.store }
  | some (.acquire next) =>
      if s.holder = none then some { s.proceed i next with holder := some i } else none
  | some (.release next) => some { s.proceed i next with holder := s.holderWithout i }

/-- The next step of a task is reported as failed. -/
def failure (s : Shared σ ε) (i : Nat) (applied : Bool) : Option (Shared σ ε) :=
  match s.tasks i with
  | some (.step f _ onError) =>
      some { s.proceed i onError with store := if applied then f s.store else s.store }
  | _ => none

def turn {ι η : Type} (calls : ι → Task σ ε Unit) (change : η → σ → Option σ)
    (s : Shared σ ε) : Turn ι η → Option (Shared σ ε)
  | .begin i call => if s.tasks i = none then some (s.proceed i (calls call)) else none
  | .advance i => s.advance i
  | .failure i applied => s.failure i applied
  | .stop i => some (s.leave i)
  | .outside c => (change c s.store).map fun store => { s with store }

def idle (store : σ) : Shared σ ε := ⟨store, none, fun _ => none⟩

end Shared

def interleaved {σ ε ι η : Type} (calls : ι → Task σ ε Unit) (change : η → σ → Option σ)
    (store : σ) : System (Shared σ ε) (Turn ι η) where
  init := Shared.idle store
  step := Shared.turn calls change

/-! ## 3. A task among others -/

/-- What happens to a store while a task holds the lock (`true`) and while it does not (`false`):
`rely` is what the others may do to it, `guarantee` what the task itself may do.  What a task may
do, the others have to allow: those that do not hold the lock in any case, and the holder when the
task does not hold it. -/
structure Conduct (σ : Type) where
  rely : Bool → σ → σ → Prop
  guarantee : Bool → σ → σ → Prop
  refl : ∀ held s, rely held s s
  trans : ∀ {held s t u}, rely held s t → rely held t u → rely held s u
  waiting : ∀ {held s t}, guarantee held s t → rely false s t
  holding : ∀ {s t}, guarantee false s t → rely true s t

namespace Task

variable {σ τ ε α β ι : Type} (C : Conduct σ)

/-- From the store `s`, whatever the others do to it on the way, the task only does what it may,
ends with a result that meets `Q` or an error that meets `E`, and waits for the lock only when it
does not hold it.  Both conditions see whether the lock is held. -/
def Among : Bool → Task σ ε α → (Bool → α → σ → Prop) → (Bool → ε → σ → Prop) → σ → Prop
  | held, ret a, Q, _, s => Q held a s
  | held, fail e, _, E, s => E held e s
  | held, look k, Q, E, s => ∀ t, C.rely held s t → Among held (k t) Q E t
  | held, step f next onError, Q, E, s => ∀ t, C.rely held s t → C.guarantee held t (f t) ∧
      Among held next Q E (f t) ∧ Among held onError Q E t ∧ Among held onError Q E (f t)
  | held, acquire next, Q, E, s =>
      held = false ∧ ∀ t, C.rely false s t → Among true next Q E t
  | held, release next, Q, E, s =>
      held = true ∧ ∀ t, C.rely true s t → Among false next Q E t

variable {C} {held : Bool} {s t : σ}

theorem among_mono {p : Task σ ε α} {Q Q' : Bool → α → σ → Prop} {E E' : Bool → ε → σ → Prop}
    (hQ : ∀ b a s, Q b a s → Q' b a s) (hE : ∀ b e s, E b e s → E' b e s) :
    Among C held p Q E s → Among C held p Q' E' s := by
  induction p generalizing held s with
  | ret a => exact hQ held a s
  | fail e => exact hE held e s
  | look k ih => exact fun h t ht => ih t (h t ht)
  | step f next onError ihn ihe =>
    intro h t ht
    obtain ⟨hG, hnext, hbefore, hafter⟩ := h t ht
    exact ⟨hG, ihn hnext, ihe hbefore, ihe hafter⟩
  | acquire next ih => exact fun h => ⟨h.1, fun t ht => ih (h.2 t ht)⟩
  | release next ih => exact fun h => ⟨h.1, fun t ht => ih (h.2 t ht)⟩

/-- What the others do on the way does not take back what a task reaches. -/
theorem among_of_rely {p : Task σ ε α} {Q : Bool → α → σ → Prop} {E : Bool → ε → σ → Prop}
    (hQ : ∀ a, Q held a s → Q held a t) (hE : ∀ e, E held e s → E held e t)
    (h : Among C held p Q E s) (hrely : C.rely held s t) : Among C held p Q E t := by
  cases p with
  | ret a => exact hQ a h
  | fail e => exact hE e h
  | look k => exact fun u hu => h u (C.trans hrely hu)
  | step f next onError => exact fun u hu => h u (C.trans hrely hu)
  | acquire next =>
    obtain ⟨rfl, h⟩ := h
    exact ⟨rfl, fun u hu => h u (C.trans hrely hu)⟩
  | release next =>
    obtain ⟨rfl, h⟩ := h
    exact ⟨rfl, fun u hu => h u (C.trans hrely hu)⟩

variable {Q : Bool → β → σ → Prop} {E : Bool → ε → σ → Prop}

@[simp] theorem among_pure (b : β) : Among C held (pure b : Task σ ε β) Q E s ↔ Q held b s :=
  Iff.rfl

theorem among_bind {p : Task σ ε α} {g : α → Task σ ε β} :
    Among C held (p >>= g) Q E s ↔
      Among C held p (fun b a t => Among C b (g a) Q E t) E s := by
  change Among C held (p.bind g) Q E s ↔ _
  induction p generalizing held s with
  | ret a => exact Iff.rfl
  | fail e => exact Iff.rfl
  | look k ih => exact forall_congr' fun t => imp_congr_right fun _ => ih t
  | step f next onError ihn ihe =>
    exact forall_congr' fun t => imp_congr_right fun _ =>
      and_congr_right' (and_congr ihn (and_congr ihe ihe))
  | acquire next ih =>
    exact and_congr_right' (forall_congr' fun t => imp_congr_right fun _ => ih)
  | release next ih =>
    exact and_congr_right' (forall_congr' fun t => imp_congr_right fun _ => ih)

theorem among_ofExcept {x : Except ε β} (hok : ∀ b, x = .ok b → Q held b s)
    (herror : ∀ e, x = .error e → E held e s) : Among C held (ofExcept x) Q E s := by
  cases x with
  | ok b => exact hok b rfl
  | error e => exact herror e rfl

theorem among_inspect {f : σ → Except ε β}
    (hok : ∀ t, C.rely held s t → ∀ b, f t = .ok b → Q held b t)
    (herror : ∀ t, C.rely held s t → ∀ e, f t = .error e → E held e t) :
    Among C held (inspect f) Q E s :=
  fun t ht => among_ofExcept (hok t ht) (herror t ht)

/-- What holds of the store in spite of the others, and is not needed to be known at the end of
each step, carries a loop. -/
theorem among_foldlM {I : List ι → β → σ → Prop} {g : β → ι → Task σ ε β}
    (hstep : ∀ x xs b t, I (x :: xs) b t →
      Among C held (g b x) (fun h b' u => h = held ∧ I xs b' u) E t) :
    ∀ xs b t, I xs b t → Among C held (xs.foldlM g b) (fun h b' u => h = held ∧ I [] b' u) E t := by
  intro xs
  induction xs with
  | nil => exact fun b t h => ⟨rfl, h⟩
  | cons x xs ih =>
    intro b t h
    rw [List.foldlM_cons, among_bind]
    refine among_mono (fun b' a u hu => ?_) (fun _ _ _ he => he) (hstep x xs b t h)
    obtain ⟨rfl, hu⟩ := hu
    exact ih a u hu

/-- The guard gives the lock back: its body starts with the lock, and ends with it. -/
theorem among_withLock {body : Task σ ε β} {P : β → σ → Prop} {X : ε → σ → Prop}
    (hbody : ∀ t, C.rely false s t →
      Among C true body (fun b a u => b = true ∧ P a u) (fun b e u => b = true ∧ X e u) t)
    (hQ : ∀ a t u, P a t → C.rely true t u → Q false a u)
    (hE : ∀ e t u, X e t → C.rely true t u → E false e u) :
    Among C false (withLock body) Q E s := by
  refine ⟨rfl, fun t ht => ?_⟩
  suffices hrelease : ∀ (p : Task σ ε β) (b : Bool) (u : σ),
      Among C b p (fun b a u => b = true ∧ P a u) (fun b e u => b = true ∧ X e u) u →
        Among C b p.releaseAfter Q E u from hrelease body true t (hbody t ht)
  intro p
  induction p with
  | ret a =>
    rintro _ u ⟨rfl, hP⟩
    exact ⟨rfl, fun v hv => hQ a u v hP hv⟩
  | fail e =>
    rintro _ u ⟨rfl, hX⟩
    exact ⟨rfl, fun v hv => hE e u v hX hv⟩
  | look k ih => exact fun b u h v hv => ih v b v (h v hv)
  | step f next onError ihn ihe =>
    intro b u h v hv
    obtain ⟨hG, hnext, hbefore, hafter⟩ := h v hv
    exact ⟨hG, ihn b _ hnext, ihe b _ hbefore, ihe b _ hafter⟩
  | acquire next ih => exact fun b u h => ⟨h.1, fun v hv => ih true v (h.2 v hv)⟩
  | release next ih => exact fun b u h => ⟨h.1, fun v hv => ih false v (h.2 v hv)⟩

/-! ### Programs on a part of the store -/

section Lift

variable {l : Lens σ τ}

@[simp] theorem lift_pure (a : α) : lift l (pure a : Program τ ε α) = pure a := rfl

theorem lift_bind (p : Program τ ε α) (g : α → Program τ ε β) :
    lift l (p >>= g) = lift l p >>= fun a => lift l (g a) := by
  change lift l (p.bind g) = (lift l p).bind fun a => lift l (g a)
  induction p with
  | ret a => rfl
  | fail e => rfl
  | look k ih => exact congrArg look (funext fun s => ih (l.get s))
  | step f next onError ihn ihe => rw [Program.bind, lift, ihn, ihe, lift, bind]

theorem among_lift_tryCatch {p : Program τ ε β} {h : ε → Program τ ε β} :
    Among C held (lift l (tryCatch p h)) Q E s ↔
      Among C held (lift l p) Q (fun b e t => Among C b (lift l (h e)) Q E t) s := by
  change Among C held (lift l (p.handle h)) Q E s ↔ _
  induction p generalizing held s with
  | ret a => exact Iff.rfl
  | fail e => exact Iff.rfl
  | look k ih => exact forall_congr' fun t => imp_congr_right fun _ => ih (l.get t)
  | step f next onError ihn ihe =>
    exact forall_congr' fun t => imp_congr_right fun _ =>
      and_congr_right' (and_congr ihn (and_congr ihe ihe))

/-- **Programs whose steps are of one kind.**  What the others keep, and what the steps of the
program keep, holds at the end. -/
theorem among_lift_of_stepsIn {P : σ → Prop} {K : (τ → τ) → Prop} {A : α → Prop}
    {Q : Bool → α → σ → Prop} {p : Program τ ε α} (hp : p.StepsIn K A)
    (hstable : ∀ t u, P t → C.rely held t u → P u)
    (hstep : ∀ f, K f → ∀ t, P t → C.guarantee held t (l.put (f (l.get t)) t) ∧
      P (l.put (f (l.get t)) t))
    (hQ : ∀ a t, A a → P t → Q held a t) (hE : ∀ e t, P t → E held e t) (h : P s) :
    Among C held (lift l p) Q E s := by
  induction p generalizing s with
  | ret a => exact hQ a s hp h
  | fail e => exact hE e s h
  | look k ih => exact fun t ht => ih (l.get t) (hp (l.get t)) (hstable s t h ht)
  | step f next onError ihn ihe =>
    intro t ht
    obtain ⟨hf, hn, he⟩ := hp
    have hPt : P t := hstable s t h ht
    obtain ⟨hG, hPf⟩ := hstep f hf t hPt
    exact ⟨hG, ihn hn hPf, ihe he hPt, ihe he hPf⟩

end Lift

end Task

/-! ## 4. The system of tasks that keep to a conduct -/

section Conduct

variable {σ ε ι η : Type} {calls : ι → Task σ ε Unit} {change : η → σ → Option σ}
  {C : Conduct σ} {I : σ → Prop}

/-- Every task at work keeps to the conduct from here on, and gives the lock back. -/
structure Conducted (C : Conduct σ) (I : σ → Prop) (s : Shared σ ε) : Prop where
  store : I s.store
  holder : ∀ i, s.holder = some i → s.tasks i ≠ none
  tasks : ∀ i task, s.tasks i = some task →
    Task.Among C (decide (s.holder = some i)) task (fun held _ _ => held = false)
      (fun held _ _ => held = false) s.store

theorem conducted_idle {store : σ} (h : I store) :
    Conducted C I (Shared.idle store : Shared σ ε) :=
  ⟨h, fun _ hi => absurd hi (by simp [Shared.idle]), fun _ _ hi => absurd hi (by simp [Shared.idle])⟩

variable {s t : Shared σ ε}

/-- A task that does what it may disturbs no other task. -/
theorem Conducted.rely_of_guarantee {i j : Nat} (hij : i ≠ j) {u : σ}
    (h : C.guarantee (decide (s.holder = some j)) s.store u) :
    C.rely (decide (s.holder = some i)) s.store u := by
  by_cases hi : s.holder = some i
  · have hj : ¬ s.holder = some j := by
      intro hj
      exact hij (Option.some.inj (hi.symm.trans hj))
    rw [decide_eq_false hj] at h
    rw [decide_eq_true hi]
    exact C.holding h
  · rw [decide_eq_false hi]
    exact C.waiting h

/-- One task goes on from `x`; the others keep what they have. -/
theorem Conducted.update (h : Conducted C I s) {j : Nat} {x : Option (Task σ ε Unit)} {u : σ}
    {holder : Option Nat} (hI : I u)
    (hrely : ∀ i, i ≠ j → C.rely (decide (s.holder = some i)) s.store u)
    (hsame : ∀ i, i ≠ j → (holder = some i ↔ s.holder = some i))
    (hheld : holder = some j → x ≠ none)
    (hx : ∀ task, x = some task → Task.Among C (decide (holder = some j)) task
      (fun held _ _ => held = false) (fun held _ _ => held = false) u) :
    Conducted C I ⟨u, holder, Function.update s.tasks j x⟩ := by
  refine ⟨hI, fun i hi => ?_, fun i task htask => ?_⟩
  · change Function.update s.tasks j x i ≠ none
    by_cases hij : i = j
    · subst hij
      rw [Function.update_self]
      exact hheld hi
    · rw [Function.update_of_ne hij]
      exact h.holder i ((hsame i hij).mp hi)
  · change Function.update s.tasks j x i = some task at htask
    by_cases hij : i = j
    · subst hij
      rw [Function.update_self] at htask
      exact hx task htask
    · rw [Function.update_of_ne hij] at htask
      have hdecide : decide (holder = some i) = decide (s.holder = some i) :=
        decide_eq_decide.mpr (hsame i hij)
      rw [hdecide]
      exact Task.among_of_rely (fun _ hq => hq) (fun _ he => he) (h.tasks i task htask)
        (hrely i hij)

/-- The holder of the lock after a task has given up what it holds. -/
theorem Shared.holderWithout_eq_some {i j : Nat} (hij : i ≠ j) :
    s.holderWithout j = some i ↔ s.holder = some i := by
  rw [Shared.holderWithout]
  split
  · next hj =>
    refine iff_of_false (Option.some_ne_none i).symm fun hi => ?_
    exact hij (Option.some.inj (hi.symm.trans hj))
  · exact Iff.rfl

theorem Shared.holderWithout_ne_self (j : Nat) : s.holderWithout j ≠ some j := by
  rw [Shared.holderWithout]
  split
  · exact (Option.some_ne_none j).symm
  · next hj => exact hj

/-- A task may stop at any time. -/
theorem Conducted.leave (h : Conducted C I s) (j : Nat) : Conducted C I (s.leave j) :=
  h.update h.store (fun _ _ => C.refl _ _) (fun _ hij => Shared.holderWithout_eq_some hij)
    (fun hj => absurd hj (Shared.holderWithout_ne_self j))
    fun task hx => absurd hx (Option.some_ne_none task).symm

/-- One task goes on and the lock stays where it is. -/
theorem Conducted.proceed (h : Conducted C I s) (hI : ∀ held s t, C.rely held s t → I s → I t)
    {j : Nat} {task : Task σ ε Unit} {u : σ}
    (hu : u = s.store ∨ C.guarantee (decide (s.holder = some j)) s.store u)
    (htask : Task.Among C (decide (s.holder = some j)) task
      (fun held _ _ => held = false) (fun held _ _ => held = false) u) :
    Conducted C I { s.proceed j task with store := u } := by
  have hrely : ∀ i, i ≠ j → C.rely (decide (s.holder = some i)) s.store u := by
    intro i hij
    rcases hu with rfl | hu
    · exact C.refl _ _
    · exact Conducted.rely_of_guarantee hij hu
  have hstore : I u := by
    rcases hu with rfl | hu
    · exact h.store
    · exact hI false _ _ (C.waiting hu) h.store
  refine h.update hstore hrely (fun _ _ => Iff.rfl) (fun _ => Option.some_ne_none task) ?_
  intro task' heq
  rw [← Option.some.inj heq]
  exact htask

theorem Conducted.advance (h : Conducted C I s) (hI : ∀ held s t, C.rely held s t → I s → I t)
    {j : Nat} (hstep : s.advance j = some t) : Conducted C I t ∧
      (t.store = s.store ∨ C.guarantee (decide (s.holder = some j)) s.store t.store) := by
  rw [Shared.advance] at hstep
  cases htask : s.tasks j with
  | none =>
    rw [htask] at hstep
    cases hstep
  | some task =>
    have hamong := h.tasks j task htask
    rw [htask] at hstep
    cases task with
    | ret a =>
      obtain rfl := Option.some.inj hstep
      exact ⟨h.leave j, Or.inl rfl⟩
    | fail e =>
      obtain rfl := Option.some.inj hstep
      exact ⟨h.leave j, Or.inl rfl⟩
    | look k =>
      obtain rfl := Option.some.inj hstep
      exact ⟨h.proceed hI (Or.inl rfl) (hamong _ (C.refl _ _)), Or.inl rfl⟩
    | step f next onError =>
      obtain rfl := Option.some.inj hstep
      obtain ⟨hG, hnext, -⟩ := hamong _ (C.refl _ _)
      exact ⟨h.proceed hI (Or.inr hG) hnext, Or.inr hG⟩
    | acquire next =>
      obtain ⟨hfree, hstep⟩ := Option.ite_none_right_eq_some.mp hstep
      obtain rfl := Option.some.inj hstep
      refine ⟨h.update h.store (fun _ _ => C.refl _ _) (fun i hij => ?_)
        (fun _ => Option.some_ne_none next) ?_, Or.inl rfl⟩
      · rw [hfree]
        exact iff_of_false (fun heq => hij (Option.some.inj heq).symm) (Option.some_ne_none i).symm
      · intro task' heq
        rw [← Option.some.inj heq, decide_eq_true rfl]
        exact hamong.2 _ (C.refl _ _)
    | release next =>
      obtain rfl := Option.some.inj hstep
      refine ⟨h.update h.store (fun _ _ => C.refl _ _)
        (fun i hij => Shared.holderWithout_eq_some hij)
        (fun _ => Option.some_ne_none next) ?_, Or.inl rfl⟩
      intro task' heq
      rw [← Option.some.inj heq, decide_eq_false (Shared.holderWithout_ne_self j)]
      exact hamong.2 _ (C.refl _ _)

theorem Conducted.failure (h : Conducted C I s) (hI : ∀ held s t, C.rely held s t → I s → I t)
    {j : Nat} {applied : Bool} (hstep : s.failure j applied = some t) : Conducted C I t ∧
      (t.store = s.store ∨ C.guarantee (decide (s.holder = some j)) s.store t.store) := by
  rw [Shared.failure] at hstep
  split at hstep
  · next f next onError htask =>
    obtain ⟨hG, -, hbefore, hafter⟩ := h.tasks j _ htask _ (C.refl _ _)
    obtain rfl := Option.some.inj hstep
    cases applied with
    | false => exact ⟨h.proceed hI (Or.inl rfl) hbefore, Or.inl rfl⟩
    | true => exact ⟨h.proceed hI (Or.inr hG) hafter, Or.inr hG⟩
  · cases hstep

/-- **The rule for interleaved tasks.**  Where every call keeps to the conduct from every store of
the invariant, all tasks at work do after every turn, and each turn leaves the store alone, is a
change that the conduct allows a task, or is a change from outside. -/
theorem interleaved_step (hI : ∀ held s t, C.rely held s t → I s → I t)
    (hcalls : ∀ call s, I s → Task.Among C false (calls call) (fun held _ _ => held = false)
      (fun held _ _ => held = false) s)
    {e : Turn ι η} (hchange : ∀ c, e = .outside c → ∀ u, change c s.store = some u →
      ∀ held, C.rely held s.store u)
    (h : Conducted C I s) (hstep : s.turn calls change e = some t) :
    Conducted C I t ∧ (t.store = s.store ∨ (∃ held, C.guarantee held s.store t.store) ∨
      ∃ c, e = .outside c ∧ change c s.store = some t.store) := by
  cases e with
  | begin i call =>
    rw [Shared.turn] at hstep
    split at hstep
    · next hidle =>
      obtain rfl := Option.some.inj hstep
      have hfree : ¬ s.holder = some i := fun hi => h.holder i hi hidle
      refine ⟨h.proceed hI (Or.inl rfl) ?_, Or.inl rfl⟩
      rw [decide_eq_false hfree]
      exact hcalls call _ h.store
    · cases hstep
  | advance i =>
    obtain ⟨ht, hstore⟩ := h.advance hI hstep
    exact ⟨ht, hstore.imp_right fun hG => Or.inl ⟨_, hG⟩⟩
  | failure i applied =>
    obtain ⟨ht, hstore⟩ := h.failure hI hstep
    exact ⟨ht, hstore.imp_right fun hG => Or.inl ⟨_, hG⟩⟩
  | stop i =>
    obtain rfl := Option.some.inj hstep
    exact ⟨h.leave i, Or.inl rfl⟩
  | outside c =>
    obtain ⟨u, hu, rfl⟩ := Option.map_eq_some_iff.mp hstep
    have hrely : ∀ held, C.rely held s.store u := hchange c rfl u hu
    refine ⟨⟨hI false _ _ (hrely false) h.store, h.holder, fun i task htask => ?_⟩,
      Or.inr (Or.inr ⟨c, rfl, hu⟩)⟩
    exact Task.among_of_rely (fun _ hq => hq) (fun _ he => he) (h.tasks i task htask) (hrely _)

end Conduct

end DshNexus.Concurrent
