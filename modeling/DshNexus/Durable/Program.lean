import Mathlib.Tactic.Common

/-!
# Programs over a durable store that may fail or crash at any step

A call that updates a store on disk is a sequence of steps.  Each step changes the
store atomically, and the environment decides what the caller sees of it: the step
takes effect, it reports an error (before or after taking effect), or the process
stops (before or after the effect).  This file is the general theory of such calls.

* `Program σ ε α`: a call over a store of type `σ`, with errors in `ε` and result in
  `α`.  It is a monad, and errors can be caught.
* `Program.run`: the call under a list of faults, one for each durable step.
* `Program.wp`: the weakest precondition, with one postcondition for a normal return,
  one for an error and one for a crash; `Program.wp_iff_run` says it is exact.
* `Program.returns`: the call without faults returns normally.
* `wp_foldlM`, `returns_foldlM`, `wp_forM`, `returns_forM`: the invariant rules for loops;
  `wp_checks`, `returns_checks` for lists of checks.
* `Program.ReadOnly`: a call that changes nothing.
* `Program.Within`: a call whose every end is related to its beginning.
* `Program.StepsIn`: a call whose every step is of one kind.
* `Program.record`: a call with a history variable that no step reads.
* `Lens` and `Program.zoom`: a call on one part of a larger store.
-/

namespace DshNexus.Durable

/-- What the environment does to one durable step. -/
inductive Fault where
  | none
  | errorBefore
  | errorAfter
  | crashBefore
  | crashAfter
  deriving DecidableEq, Repr

inductive Outcome (ε α : Type) where
  | ok (a : α)
  | error (e : ε)
  | crash
  deriving DecidableEq, Repr

/-- A call over a durable store.  `look` reads the store, `step` applies one atomic
change and continues with the first program when the step succeeds and with the second
when it reports an error. -/
inductive Program (σ ε α : Type) : Type where
  | ret (a : α)
  | fail (e : ε)
  | look (k : σ → Program σ ε α)
  | step (f : σ → σ) (next onError : Program σ ε α)

namespace Program

variable {σ τ ε ε' α β γ ι : Type}

/-- Run the first program and continue with its result. -/
def bind : Program σ ε α → (α → Program σ ε β) → Program σ ε β
  | ret a, g => g a
  | fail e, _ => fail e
  | look k, g => look fun s => bind (k s) g
  | step f next onError, g => step f (bind next g) (bind onError g)

instance : Monad (Program σ ε) where
  pure := ret
  bind := bind

def handle : Program σ ε α → (ε → Program σ ε α) → Program σ ε α
  | ret a, _ => ret a
  | fail e, h => h e
  | look k, h => look fun s => handle (k s) h
  | step f next onError, h => step f (handle next h) (handle onError h)

instance : MonadExceptOf ε (Program σ ε) where
  throw := fail
  tryCatch := handle

def read : Program σ ε σ := look ret

/-- One durable step that reports `e` when it fails. -/
def durable (e : ε) (f : σ → σ) : Program σ ε Unit := step f (ret ()) (fail e)

/-- A step that may fail but changes nothing. -/
def attempt (e : ε) : Program σ ε Unit := durable e id

def ignoreError (p : Program σ ε Unit) : Program σ ε Unit := tryCatch p fun _ => pure ()

/-- A call whose error is returned as a value. -/
def toExcept (p : Program σ ε α) : Program σ ε (Except ε α) :=
  tryCatch (Except.ok <$> p) fun e => pure (Except.error e)

/-- The result of a check that needs no store. -/
def ofExcept : Except ε α → Program σ ε α
  | .ok a => ret a
  | .error e => fail e

def inspect (f : σ → Except ε α) : Program σ ε α := look fun s => ofExcept (f s)

theorem bind_ret (p : Program σ ε α) : bind p ret = p := by
  induction p with
  | ret a => rfl
  | fail e => rfl
  | look k ih => rw [bind]; exact congrArg look (funext ih)
  | step f next onError ihn ihe => rw [bind, ihn, ihe]

theorem bind_bind (p : Program σ ε α) (g : α → Program σ ε β) (h : β → Program σ ε γ) :
    bind (bind p g) h = bind p fun a => bind (g a) h := by
  induction p with
  | ret a => rfl
  | fail e => rfl
  | look k ih => rw [bind, bind, bind]; exact congrArg look (funext ih)
  | step f next onError ihn ihe => rw [bind, bind, bind, ihn, ihe]

instance : LawfulMonad (Program σ ε) := LawfulMonad.mk' _ bind_ret (fun _ _ => rfl) bind_bind

/-! ## Runs -/

/-- The call under the given faults, one for each durable step it reaches; a step past
the end of the list succeeds. -/
def run : Program σ ε α → List Fault → σ → Outcome ε α × σ
  | ret a, _, s => (.ok a, s)
  | fail e, _, s => (.error e, s)
  | look k, fs, s => run (k s) fs s
  | step f next _, [], s => run next [] (f s)
  | step f next _, .none :: fs, s => run next fs (f s)
  | step _ _ onError, .errorBefore :: fs, s => run onError fs s
  | step f _ onError, .errorAfter :: fs, s => run onError fs (f s)
  | step _ _ _, .crashBefore :: _, s => (.crash, s)
  | step f _ _, .crashAfter :: _, s => (.crash, f s)

/-- The three postconditions, applied to the end of a run. -/
def Meets (Q : α → σ → Prop) (E : ε → σ → Prop) (C : σ → Prop) : Outcome ε α × σ → Prop
  | (.ok a, s) => Q a s
  | (.error e, s) => E e s
  | (.crash, s) => C s

/-- The weakest precondition: whatever the faults, a normal return meets `Q`, an error
meets `E` and a crash meets `C`. -/
def wp : Program σ ε α → (α → σ → Prop) → (ε → σ → Prop) → (σ → Prop) → σ → Prop
  | ret a, Q, _, _, s => Q a s
  | fail e, _, E, _, s => E e s
  | look k, Q, E, C, s => wp (k s) Q E C s
  | step f next onError, Q, E, C, s =>
      C s ∧ C (f s) ∧ wp next Q E C (f s) ∧ wp onError Q E C s ∧ wp onError Q E C (f s)

/-- **The weakest precondition is exact**: it holds in a state if and only if every run
from that state, under every list of faults, meets the postconditions. -/
theorem wp_iff_run (p : Program σ ε α) (Q : α → σ → Prop) (E : ε → σ → Prop) (C : σ → Prop) :
    ∀ s, wp p Q E C s ↔ ∀ fs, Meets Q E C (run p fs s) := by
  induction p with
  | ret a => exact fun s => ⟨fun h _ => h, fun h => h []⟩
  | fail e => exact fun s => ⟨fun h _ => h, fun h => h []⟩
  | look k ih => exact fun s => ih s s
  | step f next onError ihn ihe =>
    intro s
    constructor
    · rintro ⟨hc, hcf, hn, he, hef⟩ fs
      rcases fs with _ | ⟨_ | _ | _ | _ | _, fs⟩
      · exact (ihn _).mp hn []
      · exact (ihn _).mp hn fs
      · exact (ihe _).mp he fs
      · exact (ihe _).mp hef fs
      · exact hc
      · exact hcf
    · intro h
      exact ⟨h [.crashBefore], h [.crashAfter], (ihn _).mpr fun fs => h (.none :: fs),
        (ihe _).mpr fun fs => h (.errorBefore :: fs),
        (ihe _).mpr fun fs => h (.errorAfter :: fs)⟩

variable {p : Program σ ε α} {g : α → Program σ ε β} {Q Q' : α → σ → Prop} {E E' : ε → σ → Prop}
  {C C' : σ → Prop} {s : σ}

/-- Without a fault that stops the process no run ends in a crash. -/
theorem run_ne_crash (p : Program σ ε α) {fs : List Fault}
    (hfs : ∀ f ∈ fs, f ≠ .crashBefore ∧ f ≠ .crashAfter) (s : σ) : (p.run fs s).1 ≠ .crash := by
  induction p generalizing fs s with
  | ret a => exact fun h => nomatch h
  | fail e => exact fun h => nomatch h
  | look k ih => exact ih s hfs s
  | step f next onError ihn ihe =>
    rcases fs with _ | ⟨f', fs⟩
    · exact ihn hfs (f s)
    · have hrest : ∀ f ∈ fs, f ≠ .crashBefore ∧ f ≠ .crashAfter :=
        fun f hf => hfs f (List.mem_cons_of_mem _ hf)
      have hhead := hfs f' (List.mem_cons_self ..)
      rcases f' with _ | _ | _ | _ | _
      · exact ihn hrest (f s)
      · exact ihe hrest s
      · exact ihe hrest (f s)
      · exact absurd rfl hhead.1
      · exact absurd rfl hhead.2

/-- The rule of consequence. -/
theorem wp_mono (hQ : ∀ a s, Q a s → Q' a s) (hE : ∀ e s, E e s → E' e s) (hC : ∀ s, C s → C' s) :
    ∀ {s}, wp p Q E C s → wp p Q' E' C' s := by
  induction p with
  | ret a => exact fun h => hQ _ _ h
  | fail e => exact fun h => hE _ _ h
  | look k ih => exact fun h => ih _ h
  | step f next onError ihn ihe =>
    exact fun ⟨hc, hcf, hn, he, hef⟩ => ⟨hC _ hc, hC _ hcf, ihn hn, ihe he, ihe hef⟩

theorem wp_imp (hQ : ∀ a s, Q a s → Q' a s) (h : wp p Q E C s) : wp p Q' E C s :=
  wp_mono hQ (fun _ _ h => h) (fun _ h => h) h

/-- Of every call, nothing can be said. -/
theorem wp_true (p : Program σ ε α) :
    ∀ s, wp p (fun _ _ => True) (fun _ _ => True) (fun _ => True) s := by
  induction p with
  | ret a => exact fun _ => trivial
  | fail e => exact fun _ => trivial
  | look k ih => exact fun s => ih s s
  | step f next onError ihn ihe =>
    exact fun s => ⟨trivial, trivial, ihn (f s), ihe s, ihe (f s)⟩

/-- Two specifications of one call hold together. -/
theorem wp_and : ∀ {s}, wp p Q E C s → wp p Q' E' C' s → wp p (fun a s => Q a s ∧ Q' a s)
    (fun e s => E e s ∧ E' e s) (fun s => C s ∧ C' s) s := by
  induction p with
  | ret a => exact fun h h' => ⟨h, h'⟩
  | fail e => exact fun h h' => ⟨h, h'⟩
  | look k ih => exact fun h h' => ih _ h h'
  | step f next onError ihn ihe =>
    rintro s ⟨hc, hcf, hn, he, hef⟩ ⟨hc', hcf', hn', he', hef'⟩
    exact ⟨⟨hc, hc'⟩, ⟨hcf, hcf'⟩, ihn hn hn', ihe he he', ihe hef hef'⟩

section Rules

variable {Q : β → σ → Prop} {E : ε → σ → Prop} {C : σ → Prop} {s : σ}

@[simp] theorem wp_pure (b : β) : wp (pure b : Program σ ε β) Q E C s ↔ Q b s := Iff.rfl

@[simp] theorem wp_throw (e : ε) : wp (throw e : Program σ ε β) Q E C s ↔ E e s := Iff.rfl

@[simp] theorem wp_bind (p : Program σ ε α) (g : α → Program σ ε β) :
    wp (p >>= g) Q E C s ↔ wp p (fun a s => wp (g a) Q E C s) E C s := by
  show wp (bind p g) Q E C s ↔ _
  induction p generalizing s with
  | ret a => exact Iff.rfl
  | fail e => exact Iff.rfl
  | look k ih => exact ih _
  | step f next onError ihn ihe => rw [bind, wp, wp, ihn, ihe, ihe]

@[simp] theorem wp_map (p : Program σ ε α) (g : α → β) :
    wp (g <$> p) Q E C s ↔ wp p (fun a s => Q (g a) s) E C s := by
  rw [map_eq_pure_bind, wp_bind]
  exact Iff.rfl

@[simp] theorem wp_tryCatch (p : Program σ ε β) (h : ε → Program σ ε β) :
    wp (tryCatch p h) Q E C s ↔ wp p Q (fun e s => wp (h e) Q E C s) C s := by
  show wp (handle p h) Q E C s ↔ _
  induction p generalizing s with
  | ret a => exact Iff.rfl
  | fail e => exact Iff.rfl
  | look k ih => exact ih _
  | step f next onError ihn ihe => rw [handle, wp, wp, ihn, ihe, ihe]

@[simp] theorem wp_read {Q : σ → σ → Prop} :
    wp (read : Program σ ε σ) Q E C s ↔ Q s s := Iff.rfl

@[simp] theorem wp_durable {Q : Unit → σ → Prop} (e : ε) (f : σ → σ) :
    wp (durable e f) Q E C s ↔ C s ∧ C (f s) ∧ Q () (f s) ∧ E e s ∧ E e (f s) := Iff.rfl

@[simp] theorem wp_attempt {Q : Unit → σ → Prop} (e : ε) :
    wp (attempt e) Q E C s ↔ C s ∧ Q () s ∧ E e s := by
  rw [attempt, wp_durable]
  exact ⟨fun h => ⟨h.1, h.2.2.1, h.2.2.2.1⟩, fun h => ⟨h.1, h.1, h.2.1, h.2.2, h.2.2⟩⟩

@[simp] theorem wp_ignoreError {Q : Unit → σ → Prop} (p : Program σ ε Unit) :
    wp (ignoreError p) Q E C s ↔ wp p Q (fun _ s => Q () s) C s := by
  rw [ignoreError, wp_tryCatch]
  exact Iff.rfl

@[simp] theorem wp_toExcept {Q : Except ε β → σ → Prop} (p : Program σ ε β) :
    wp (toExcept p) Q E C s ↔ wp p (fun b s => Q (.ok b) s) (fun e s => Q (.error e) s) C s := by
  rw [toExcept, wp_tryCatch, wp_map]
  exact Iff.rfl

theorem wp_ofExcept (x : Except ε β) :
    wp (ofExcept x : Program σ ε β) Q E C s ↔
      (∀ b, x = .ok b → Q b s) ∧ ∀ e, x = .error e → E e s := by
  cases x with
  | ok b =>
    exact ⟨fun h => ⟨fun _ hb => Except.ok.inj hb ▸ h, fun _ he => (nomatch he)⟩,
      fun h => h.1 b rfl⟩
  | error e =>
    exact ⟨fun h => ⟨fun _ hb => (nomatch hb), fun _ he => Except.error.inj he ▸ h⟩,
      fun h => h.2 e rfl⟩

theorem wp_inspect (f : σ → Except ε β) :
    wp (inspect f) Q E C s ↔ (∀ b, f s = .ok b → Q b s) ∧ ∀ e, f s = .error e → E e s :=
  wp_ofExcept (f s)

/-- The loop rule: `I` relates the elements still to be visited, the accumulator and the
store. -/
theorem wp_foldlM {I : List ι → β → σ → Prop} {g : β → ι → Program σ ε β}
    (hstep : ∀ x xs b s, I (x :: xs) b s → wp (g b x) (fun b' s' => I xs b' s') E C s) :
    ∀ xs b s, I xs b s → wp (xs.foldlM g b) (fun b' s' => I [] b' s') E C s := by
  intro xs
  induction xs with
  | nil => exact fun b s h => h
  | cons x xs ih =>
    intro b s h
    rw [List.foldlM_cons, wp_bind]
    exact wp_imp (fun b' s' h' => ih b' s' h')
      (hstep x xs b s h)

/-- The loop rule for a loop without an accumulator. -/
theorem wp_forM {I : List ι → σ → Prop} {g : ι → Program σ ε PUnit}
    (hstep : ∀ x xs s, I (x :: xs) s → wp (g x) (fun _ s' => I xs s') E C s) :
    ∀ xs s, I xs s → wp (xs.forM g) (fun _ s' => I [] s') E C s := by
  intro xs
  induction xs with
  | nil => exact fun s h => h
  | cons x xs ih =>
    intro s h
    rw [List.forM_eq_forM, List.forM_cons, wp_bind]
    exact wp_imp (fun _ s' h' => ih s' h')
      (hstep x xs s h)

/-- A list of checks that leave the store alone: after it, every one of them has passed. -/
theorem wp_checks {P : ι → Prop} {g : ι → Program σ ε PUnit} {t : σ}
    (hcheck : ∀ x, wp (g x) (fun _ s => s = t ∧ P x) (fun _ s => s = t) (fun s => s = t) t)
    (xs : List ι) :
    wp (xs.forM g) (fun _ s => s = t ∧ ∀ x ∈ xs, P x) (fun _ s => s = t) (fun s => s = t) t := by
  induction xs with
  | nil => exact ⟨rfl, fun x hx => absurd hx List.not_mem_nil⟩
  | cons x xs ih =>
    rw [List.forM_eq_forM, List.forM_cons, wp_bind]
    refine wp_imp ?_ (hcheck x)
    rintro _ s ⟨rfl, hx⟩
    refine wp_imp ?_ ih
    rintro _ s ⟨rfl, hxs⟩
    refine ⟨rfl, fun y hy => ?_⟩
    rcases List.mem_cons.mp hy with rfl | hy
    · exact hx
    · exact hxs y hy

end Rules

/-! ## Calls that change nothing -/

/-- No step of the call changes the store. -/
def ReadOnly : Program σ ε α → Prop
  | ret _ => True
  | fail _ => True
  | look k => ∀ s, ReadOnly (k s)
  | step f next onError => (∀ s, f s = s) ∧ ReadOnly next ∧ ReadOnly onError

/-- A call that changes nothing ends, however it ends, where it began. -/
theorem ReadOnly.wp (hp : p.ReadOnly) (hQ : ∀ a, Q a s) (hE : ∀ e, E e s) (hC : C s) :
    p.wp Q E C s := by
  induction p with
  | ret a => exact hQ a
  | fail e => exact hE e
  | look k ih => exact ih s (hp s)
  | step f next onError ihn ihe =>
    obtain ⟨hf, hn, he⟩ := hp
    refine ⟨hC, ?_, ?_, ihe he, ?_⟩
    · rw [hf s]; exact hC
    · rw [hf s]; exact ihn hn
    · rw [hf s]; exact ihe he

theorem ReadOnly.bind (hp : p.ReadOnly) (hg : ∀ a, (g a).ReadOnly) : (p >>= g).ReadOnly := by
  show (Program.bind p g).ReadOnly
  induction p with
  | ret a => exact hg a
  | fail e => trivial
  | look k ih => exact fun s => ih s (hp s)
  | step f next onError ihn ihe => exact ⟨hp.1, ihn hp.2.1, ihe hp.2.2⟩

theorem readOnly_pure (a : α) : (pure a : Program σ ε α).ReadOnly := trivial

theorem readOnly_throw (e : ε) : (throw e : Program σ ε α).ReadOnly := trivial

theorem readOnly_read : (read : Program σ ε σ).ReadOnly := fun _ => trivial

theorem readOnly_attempt (e : ε) : (attempt e : Program σ ε Unit).ReadOnly :=
  ⟨fun _ => rfl, trivial, trivial⟩

theorem readOnly_ofExcept (x : Except ε α) : (ofExcept x : Program σ ε α).ReadOnly := by
  cases x <;> trivial

theorem readOnly_inspect (f : σ → Except ε α) : (inspect f).ReadOnly :=
  fun s => readOnly_ofExcept (f s)

theorem readOnly_forM {g : ι → Program σ ε PUnit} (hg : ∀ x, (g x).ReadOnly) (xs : List ι) :
    (xs.forM g).ReadOnly := by
  induction xs with
  | nil => exact readOnly_pure _
  | cons x xs ih =>
    rw [List.forM_eq_forM, List.forM_cons]
    exact ReadOnly.bind (hg x) fun _ => ih

/-! ## Calls within a relation -/

/-- Every end of the call is related to its beginning. -/
def Within (R : σ → σ → Prop) (p : Program σ ε α) : Prop :=
  ∀ s, p.wp (fun _ => R s) (fun _ => R s) (R s) s

section Within

variable {R : σ → σ → Prop}

theorem ReadOnly.within (hrefl : ∀ s, R s s) (hp : p.ReadOnly) :
    p.Within R := fun s => hp.wp (fun _ => hrefl s) (fun _ => hrefl s) (hrefl s)

theorem within_durable (hrefl : ∀ s, R s s) {e : ε} {f : σ → σ} (hf : ∀ s, R s (f s)) :
    (durable e f).Within R := by
  intro s
  rw [wp_durable]
  exact ⟨hrefl s, hf s, hf s, hrefl s, hf s⟩

theorem Within.bind (htrans : ∀ {s t u}, R s t → R t u → R s u) (hp : p.Within R)
    (hg : ∀ a, (g a).Within R) : (p >>= g).Within R := by
  intro s
  rw [wp_bind]
  refine wp_imp (fun a t ht => ?_) (hp s)
  exact wp_mono (fun _ _ h => htrans ht h) (fun _ _ h => htrans ht h) (fun _ h => htrans ht h)
    (hg a t)

theorem Within.tryCatch (htrans : ∀ {s t u}, R s t → R t u → R s u) {h : ε → Program σ ε α}
    (hp : p.Within R) (hh : ∀ e, (h e).Within R) : (tryCatch p h).Within R := by
  intro s
  rw [wp_tryCatch]
  refine wp_mono (fun _ _ h => h) (fun e t ht => ?_) (fun _ h => h) (hp s)
  exact wp_mono (fun _ _ h => htrans ht h) (fun _ _ h => htrans ht h) (fun _ h => htrans ht h)
    (hh e t)

theorem Within.ignoreError {p : Program σ ε Unit} (hp : p.Within R) : (ignoreError p).Within R := by
  intro s
  rw [wp_ignoreError]
  exact hp s

theorem within_forM (hrefl : ∀ s, R s s) (htrans : ∀ {s t u}, R s t → R t u → R s u)
    {g : ι → Program σ ε PUnit} (hg : ∀ x, (g x).Within R) (xs : List ι) : (xs.forM g).Within R :=
  fun s => wp_forM (I := fun _ => R s)
    (fun x _ t ht => wp_mono (fun _ _ h => htrans ht h) (fun _ _ h => htrans ht h)
      (fun _ h => htrans ht h) (hg x t)) xs s (hrefl s)

end Within

/-! ## Calls that make steps of one kind -/

/-- Every step of the call is of the kind `G`, and every value that it returns has the
property `P`. -/
def StepsIn (G : (σ → σ) → Prop) (P : α → Prop) : Program σ ε α → Prop
  | ret a => P a
  | fail _ => True
  | look k => ∀ s, StepsIn G P (k s)
  | step f next onError => G f ∧ StepsIn G P next ∧ StepsIn G P onError

section StepsIn

variable {G : (σ → σ) → Prop} {P : α → Prop} {P' : β → Prop}

theorem StepsIn.steps_mono {G' : (σ → σ) → Prop} (hG : ∀ f, G f → G' f) (hp : p.StepsIn G P) :
    p.StepsIn G' P := by
  induction p with
  | ret a => exact hp
  | fail e => trivial
  | look k ih => exact fun s => ih s (hp s)
  | step f next onError ihn ihe => exact ⟨hG f hp.1, ihn hp.2.1, ihe hp.2.2⟩

theorem StepsIn.bind (hp : p.StepsIn G P) (hg : ∀ a, P a → (g a).StepsIn G P') :
    (p >>= g).StepsIn G P' := by
  show (Program.bind p g).StepsIn G P'
  induction p with
  | ret a => exact hg a hp
  | fail e => trivial
  | look k ih => exact fun s => ih s (hp s)
  | step f next onError ihn ihe => exact ⟨hp.1, ihn hp.2.1, ihe hp.2.2⟩

/-- A call whose returned value does not matter. -/
theorem StepsIn.then (hp : p.StepsIn G P) (hg : ∀ a, (g a).StepsIn G P') :
    (p >>= g).StepsIn G P' := hp.bind fun a _ => hg a

theorem StepsIn.tryCatch {h : ε → Program σ ε α} (hp : p.StepsIn G P)
    (hh : ∀ e, (h e).StepsIn G P) : (MonadExcept.tryCatch p h).StepsIn G P := by
  show (p.handle h).StepsIn G P
  induction p with
  | ret a => exact hp
  | fail e => exact hh e
  | look k ih => exact fun s => ih s (hp s)
  | step f next onError ihn ihe => exact ⟨hp.1, ihn hp.2.1, ihe hp.2.2⟩

theorem StepsIn.ignoreError {p : Program σ ε Unit} (hp : p.StepsIn G fun _ => True) :
    (ignoreError p).StepsIn G fun _ => True := hp.tryCatch fun _ => trivial

theorem StepsIn.toExcept (hp : p.StepsIn G fun _ => True) : (toExcept p).StepsIn G fun _ =>
    True := by
  refine StepsIn.tryCatch ?_ fun _ => trivial
  rw [map_eq_pure_bind]
  exact hp.then fun _ => trivial

theorem stepsIn_durable {e : ε} {f : σ → σ} (hf : G f) :
    (durable e f).StepsIn G fun _ => True := ⟨hf, trivial, trivial⟩

/-- A call whose steps do not matter. -/
theorem stepsIn_of_forall (hG : ∀ f, G f) (p : Program σ ε α) : p.StepsIn G fun _ => True := by
  induction p with
  | ret a => trivial
  | fail e => trivial
  | look k ih => exact fun s => ih s
  | step f next onError ihn ihe => exact ⟨hG f, ihn, ihe⟩

theorem ReadOnly.stepsIn (hG : ∀ f : σ → σ, (∀ s, f s = s) → G f) (hp : p.ReadOnly) :
    p.StepsIn G fun _ => True := by
  induction p with
  | ret a => trivial
  | fail e => trivial
  | look k ih => exact fun s => ih s (hp s)
  | step f next onError ihn ihe => exact ⟨hG f hp.1, ihn hp.2.1, ihe hp.2.2⟩

theorem stepsIn_forM {g : ι → Program σ ε PUnit}
    (hg : ∀ x, (g x).StepsIn G fun _ => True) (xs : List ι) :
    (xs.forM g).StepsIn G fun _ => True := by
  induction xs with
  | nil => exact trivial
  | cons x xs ih =>
    rw [List.forM_eq_forM, List.forM_cons]
    exact (hg x).then fun _ => ih

theorem stepsIn_foldlM {g : β → ι → Program σ ε β}
    (hg : ∀ b x, P' b → (g b x).StepsIn G P') (xs : List ι) :
    ∀ b, P' b → (xs.foldlM g b).StepsIn G P' := by
  induction xs with
  | nil => exact fun b hb => hb
  | cons x xs ih =>
    intro b hb
    rw [List.foldlM_cons]
    exact (hg b x hb).bind ih

/-- A call whose steps all keep an invariant keeps it at every cut. -/
theorem StepsIn.wp {I : σ → Prop} (hp : p.StepsIn (fun f => ∀ s, I s → I (f s)) P) : ∀ {s}, I s →
    p.wp (fun a s => P a ∧ I s) (fun _ => I) I s := by
  induction p with
  | ret a => exact fun hs => ⟨hp, hs⟩
  | fail e => exact fun hs => hs
  | look k ih => exact fun {s} hs => ih s (hp s) hs
  | step f next onError ihn ihe =>
    obtain ⟨hf, hn, he⟩ := hp
    intro s hs
    have hnext := hf s hs
    exact ⟨hs, hnext, ihn hn hnext, ihe he hs, ihe he hnext⟩

end StepsIn

/-! ## Runs without faults -/

/-- The call without faults returns normally, with a result and a store that meet `Q`. -/
def returns : Program σ ε α → (α → σ → Prop) → σ → Prop
  | ret a, Q, s => Q a s
  | fail _, _, _ => False
  | look k, Q, s => returns (k s) Q s
  | step f next _, Q, s => returns next Q (f s)

theorem returns_iff_run (p : Program σ ε α) (Q : α → σ → Prop) :
    ∀ s, returns p Q s ↔ ∃ a s', run p [] s = (.ok a, s') ∧ Q a s' := by
  induction p with
  | ret a =>
    intro s
    constructor
    · exact fun h => ⟨a, s, rfl, h⟩
    · rintro ⟨a', s', h, hq⟩
      obtain ⟨ha, hs⟩ := Prod.mk.inj h
      rw [← Outcome.ok.inj ha, ← hs] at hq
      exact hq
  | fail e =>
    intro s
    constructor
    · exact fun h => h.elim
    · rintro ⟨a', s', h, -⟩
      exact absurd (Prod.mk.inj h).1 (by simp)
  | look k ih => exact fun s => ih s s
  | step f next onError ihn ihe => exact fun s => ihn (f s)

theorem returns_mono (hQ : ∀ a s, Q a s → Q' a s) : ∀ {s}, returns p Q s → returns p Q' s := by
  induction p with
  | ret a => exact fun h => hQ _ _ h
  | fail e => exact fun h => h
  | look k ih => exact fun h => ih _ h
  | step f next onError ihn ihe => exact fun h => ihn h

/-- What holds of every run holds of the run without faults. -/
theorem returns_and_of_wp : ∀ {s}, returns p Q s → wp p Q' E C s →
    returns p (fun a s => Q a s ∧ Q' a s) s := by
  induction p with
  | ret a => exact fun h h' => ⟨h, h'⟩
  | fail e => exact fun h _ => h.elim
  | look k ih => exact fun h h' => ih _ h h'
  | step f next onError ihn ihe => exact fun h h' => ihn h h'.2.2.1

section ReturnsRules

variable {Q : β → σ → Prop} {s : σ}

@[simp] theorem returns_pure (b : β) : returns (pure b : Program σ ε β) Q s ↔ Q b s := Iff.rfl

@[simp] theorem returns_throw (e : ε) :
    returns (throw e : Program σ ε β) Q s ↔ False := Iff.rfl

@[simp] theorem returns_bind (p : Program σ ε α) (g : α → Program σ ε β) :
    returns (p >>= g) Q s ↔ returns p (fun a s => returns (g a) Q s) s := by
  show returns (bind p g) Q s ↔ _
  induction p generalizing s with
  | ret a => exact Iff.rfl
  | fail e => exact Iff.rfl
  | look k ih => exact ih _
  | step f next onError ihn ihe => rw [bind, returns, returns, ihn]

@[simp] theorem returns_map (p : Program σ ε α) (g : α → β) :
    returns (g <$> p) Q s ↔ returns p (fun a s => Q (g a) s) s := by
  rw [map_eq_pure_bind, returns_bind]
  exact Iff.rfl

@[simp] theorem returns_read {Q : σ → σ → Prop} :
    returns (read : Program σ ε σ) Q s ↔ Q s s := Iff.rfl

@[simp] theorem returns_durable {Q : Unit → σ → Prop} (e : ε) (f : σ → σ) :
    returns (durable e f) Q s ↔ Q () (f s) := Iff.rfl

@[simp] theorem returns_attempt {Q : Unit → σ → Prop} (e : ε) :
    returns (attempt e) Q s ↔ Q () s := Iff.rfl

/-- A call that returns needs no handler. -/
theorem returns_tryCatch {p : Program σ ε β} {h : ε → Program σ ε β} (hp : returns p Q s) :
    returns (tryCatch p h) Q s := by
  show returns (handle p h) Q s
  induction p generalizing s with
  | ret a => exact hp
  | fail e => exact hp.elim
  | look k ih => exact ih _ hp
  | step f next onError ihn ihe => exact ihn hp

theorem returns_ofExcept (x : Except ε β) :
    returns (ofExcept x : Program σ ε β) Q s ↔ ∃ b, x = .ok b ∧ Q b s := by
  cases x with
  | ok b => exact ⟨fun h => ⟨b, rfl, h⟩, fun ⟨_, hb, h⟩ => Except.ok.inj hb ▸ h⟩
  | error e => exact ⟨fun h => h.elim, fun ⟨_, hb, _⟩ => (nomatch hb)⟩

theorem returns_inspect (f : σ → Except ε β) :
    returns (inspect f) Q s ↔ ∃ b, f s = .ok b ∧ Q b s := returns_ofExcept (f s)

/-- The loop rule for runs without faults. -/
theorem returns_foldlM {I : List ι → β → σ → Prop} {g : β → ι → Program σ ε β}
    (hstep : ∀ x xs b s, I (x :: xs) b s → returns (g b x) (fun b' s' => I xs b' s') s) :
    ∀ xs b s, I xs b s → returns (xs.foldlM g b) (fun b' s' => I [] b' s') s := by
  intro xs
  induction xs with
  | nil => exact fun b s h => h
  | cons x xs ih =>
    intro b s h
    rw [List.foldlM_cons, returns_bind]
    exact returns_mono (fun b' s' h' => ih b' s' h') (hstep x xs b s h)

/-- The loop rule for runs without faults of a loop without an accumulator. -/
theorem returns_forM {I : List ι → σ → Prop} {g : ι → Program σ ε PUnit}
    (hstep : ∀ x xs s, I (x :: xs) s → returns (g x) (fun _ s' => I xs s') s) :
    ∀ xs s, I xs s → returns (xs.forM g) (fun _ s' => I [] s') s := by
  intro xs
  induction xs with
  | nil => exact fun s h => h
  | cons x xs ih =>
    intro s h
    rw [List.forM_eq_forM, List.forM_cons, returns_bind]
    exact returns_mono (fun _ s' h' => ih s' h') (hstep x xs s h)

/-- A list of checks that all pass. -/
theorem returns_checks {g : ι → Program σ ε PUnit} {t : σ} {xs : List ι}
    (hcheck : ∀ x ∈ xs, returns (g x) (fun _ s => s = t) t) :
    returns (xs.forM g) (fun _ s => s = t) t := by
  induction xs with
  | nil => rfl
  | cons x xs ih =>
    rw [List.forM_eq_forM, List.forM_cons, returns_bind]
    refine returns_mono ?_ (hcheck x (List.mem_cons_self ..))
    rintro _ s rfl
    exact ih fun y hy => hcheck y (List.mem_cons_of_mem _ hy)

end ReturnsRules

/-- The call without faults returns with `Q` or fails with `E`. -/
def settles : Program σ ε α → (α → σ → Prop) → (ε → σ → Prop) → σ → Prop
  | ret a, Q, _, s => Q a s
  | fail e, _, E, s => E e s
  | look k, Q, E, s => settles (k s) Q E s
  | step f next _, Q, E, s => settles next Q E (f s)

/-- What the run without faults leaves behind. -/
theorem settles_run {I : σ → Prop} : ∀ {s}, p.settles (fun _ => I) (fun _ => I) s →
    I (p.run [] s).2 := by
  induction p with
  | ret a => exact fun h => h
  | fail e => exact fun h => h
  | look k ih => exact fun {s} h => ih s h
  | step f next onError ihn ihe => exact fun h => ihn h

theorem settles_mono (hQ : ∀ a s, Q a s → Q' a s) (hE : ∀ e s, E e s → E' e s) : ∀ {s},
    settles p Q E s → settles p Q' E' s := by
  induction p with
  | ret a => exact fun h => hQ _ _ h
  | fail e => exact fun h => hE _ _ h
  | look k ih => exact fun h => ih _ h
  | step f next onError ihn ihe => exact fun h => ihn h

theorem settles_imp (hQ : ∀ a s, Q a s → Q' a s) (h : settles p Q E s) : settles p Q' E s :=
  settles_mono hQ (fun _ _ h => h) h

theorem settles_of_wp : ∀ {s}, wp p Q E C s → settles p Q E s := by
  induction p with
  | ret a => exact fun h => h
  | fail e => exact fun h => h
  | look k ih => exact fun h => ih _ h
  | step f next onError ihn ihe => exact fun h => ihn h.2.2.1

theorem settles_of_returns : ∀ {s}, returns p Q s → settles p Q E s := by
  induction p with
  | ret a => exact fun h => h
  | fail e => exact fun h => h.elim
  | look k ih => exact fun h => ih _ h
  | step f next onError ihn ihe => exact fun h => ihn h

/-- What the run without faults ends with. -/
theorem settles_iff_run (p : Program σ ε α) (Q : α → σ → Prop) (E : ε → σ → Prop) :
    ∀ s, settles p Q E s ↔ Meets Q E (fun _ => False) (run p [] s) := by
  induction p with
  | ret a => exact fun s => Iff.rfl
  | fail e => exact fun s => Iff.rfl
  | look k ih => exact fun s => ih s s
  | step f next onError ihn ihe => exact fun s => ihn (f s)

@[simp] theorem settles_pure (a : α) : settles (pure a : Program σ ε α) Q E s ↔ Q a s := Iff.rfl

@[simp] theorem settles_throw (e : ε) : settles (throw e : Program σ ε α) Q E s ↔ E e s := Iff.rfl

@[simp] theorem settles_read {Q : σ → σ → Prop} : settles (read : Program σ ε σ) Q E s ↔
    Q s s := Iff.rfl

@[simp] theorem settles_durable {Q : Unit → σ → Prop} (e : ε) (f : σ → σ) :
    settles (durable e f) Q E s ↔ Q () (f s) := Iff.rfl

@[simp] theorem settles_attempt {Q : Unit → σ → Prop} (e : ε) : settles (attempt e) Q E s ↔
    Q () s := Iff.rfl

theorem settles_ofExcept (x : Except ε α) : settles (ofExcept x : Program σ ε α) Q E s ↔
    (∀ a, x = .ok a → Q a s) ∧ ∀ e, x = .error e → E e s := by
  cases x with
  | ok a =>
    exact ⟨fun h => ⟨fun _ ha => Except.ok.inj ha ▸ h, fun _ he => (nomatch he)⟩,
      fun h => h.1 a rfl⟩
  | error e =>
    exact ⟨fun h => ⟨fun _ ha => (nomatch ha), fun _ he => Except.error.inj he ▸ h⟩,
      fun h => h.2 e rfl⟩

theorem settles_bind {Q : β → σ → Prop} : settles (p >>= g) Q E s ↔
    settles p (fun a s => settles (g a) Q E s) E s := by
  show settles (bind p g) Q E s ↔ _
  induction p generalizing s with
  | ret a => exact Iff.rfl
  | fail e => exact Iff.rfl
  | look k ih => exact ih _
  | step f next onError ihn ihe => rw [bind, settles, settles, ihn]

theorem settles_tryCatch {h : ε → Program σ ε α} : settles (tryCatch p h) Q E s ↔
    settles p Q (fun e s => settles (h e) Q E s) s := by
  show settles (handle p h) Q E s ↔ _
  induction p generalizing s with
  | ret a => exact Iff.rfl
  | fail e => exact Iff.rfl
  | look k ih => exact ih _
  | step f next onError ihn ihe => rw [handle, settles, settles, ihn]

theorem settles_ignoreError {p : Program σ ε Unit} {Q : Unit → σ → Prop} :
    settles (ignoreError p) Q E s ↔ settles p Q (fun _ s => Q () s) s := by
  rw [ignoreError, settles_tryCatch]
  exact Iff.rfl

theorem settles_map {g : α → β} {Q : β → σ → Prop} : settles (g <$> p) Q E s ↔
    settles p (fun a s => Q (g a) s) E s := by
  rw [map_eq_pure_bind, settles_bind]
  exact Iff.rfl

theorem settles_toExcept {p : Program σ ε β} {Q : Except ε β → σ → Prop} :
    settles (toExcept p) Q E s ↔ settles p (fun b s => Q (.ok b) s)
    (fun e s => Q (.error e) s) s := by
  rw [toExcept, settles_tryCatch, settles_map]
  exact Iff.rfl

/-- A call whose error is ignored always returns. -/
theorem returns_ignoreError {p : Program σ ε Unit} {Q : Unit → σ → Prop} :
    ∀ {s}, returns (ignoreError p) Q s ↔ settles p Q (fun _ s => Q () s) s := by
  show ∀ {s}, returns (handle p fun _ => ret ()) Q s ↔ _
  induction p with
  | ret a => exact Iff.rfl
  | fail e => exact Iff.rfl
  | look k ih => exact fun {s} => ih s
  | step f next onError ihn ihe => exact ihn

/-- A call whose errors are excluded returns. -/
theorem returns_of_settles : ∀ {s}, settles p Q E s → (∀ e s', ¬ E e s') → returns p Q s := by
  induction p with
  | ret a => exact fun h _ => h
  | fail e => exact fun h hE => absurd h (hE e _)
  | look k ih => exact fun h hE => ih _ h hE
  | step f next onError ihn ihe => exact fun h hE => ihn h hE

/-- A call that returns also has what holds of every return. -/
theorem returns_and_settles : ∀ {s}, returns p Q s → settles p Q' E s →
    returns p (fun a s => Q a s ∧ Q' a s) s := by
  induction p with
  | ret a => exact fun h h' => ⟨h, h'⟩
  | fail e => exact fun h _ => h.elim
  | look k ih => exact fun h h' => ih _ h h'
  | step f next onError ihn ihe => exact fun h h' => ihn h h'

/-- The loop rule for runs without faults that may end in an error. -/
theorem settles_forM {I : List ι → σ → Prop} {g : ι → Program σ ε PUnit}
    (hstep : ∀ x xs s, I (x :: xs) s → settles (g x) (fun _ s' => I xs s') E s) : ∀ xs s, I xs s →
    settles (xs.forM g) (fun _ s' => I [] s') E s := by
  intro xs
  induction xs with
  | nil => exact fun s h => h
  | cons x xs ih =>
    intro s h
    rw [List.forM_eq_forM, List.forM_cons, settles_bind]
    exact settles_imp (fun _ s' h' => ih s' h') (hstep x xs s h)

/-- What comes after a call that returns, when no fault is met. -/
theorem run_bind_of_ok {a : α} {s s' : σ} : run p [] s = (.ok a, s') → run (p >>= g) [] s =
    run (g a) [] s' := by
  show _ → run (bind p g) [] s = run (g a) [] s'
  induction p generalizing s with
  | ret b =>
    intro h
    obtain ⟨hb, rfl⟩ := Prod.mk.inj h
    rw [Outcome.ok.inj hb]
    rfl
  | fail e => exact fun h => absurd (congrArg Prod.fst h) (by simp [run])
  | look k ih => exact ih s
  | step f next onError ihn ihe => exact ihn

/-- What comes after a call that does not return is not reached. -/
theorem run_bind_of_not_ok (g : α → Program σ ε β) {fs : List Fault} :
    (∀ e s', run p fs s = (.error e, s') → run (p >>= g) fs s = (.error e, s')) ∧ ∀ s', run p fs s =
    (.crash, s') → run (p >>= g) fs s = (.crash, s') := by
  show (∀ e s', run p fs s = (.error e, s') → run (bind p g) fs s = (.error e, s')) ∧
    ∀ s', run p fs s = (.crash, s') → run (bind p g) fs s = (.crash, s')
  induction p generalizing fs s with
  | ret a => exact ⟨fun _ _ h => absurd (congrArg Prod.fst h) (by simp [run]),
      fun _ h => absurd (congrArg Prod.fst h) (by simp [run])⟩
  | fail e =>
    refine ⟨fun e' s' h => ?_, fun _ h => absurd (congrArg Prod.fst h) (by simp [run])⟩
    obtain ⟨he, rfl⟩ := Prod.mk.inj h
    rw [bind, run, Outcome.error.inj he]
  | look k ih => exact ih s
  | step f next onError ihn ihe =>
    rcases fs with _ | ⟨_ | _ | _ | _ | _, fs⟩
    · exact ihn
    · exact ihn
    · exact ihe
    · exact ihe
    all_goals
      refine ⟨fun _ _ h => absurd (congrArg Prod.fst h) (by simp [run]), fun s' h => ?_⟩
      obtain ⟨-, rfl⟩ := Prod.mk.inj h
      rfl

/-- The durable steps of a call that meets no fault. -/
def stepCount : Program σ ε α → σ → Nat
  | ret _, _ => 0
  | fail _, _ => 0
  | look k, s => stepCount (k s) s
  | step f next _, s => stepCount next (f s) + 1

/-- The faults of what comes after a call that returns without any. -/
theorem run_bind_replicate {a : α} {s s' : σ} (fs : List Fault) : run p [] s = (.ok a, s') →
    run (p >>= g) (List.replicate (p.stepCount s) .none ++ fs) s = run (g a) fs s' := by
  show _ → run (bind p g) _ s = run (g a) fs s'
  induction p generalizing s with
  | ret b =>
    intro h
    obtain ⟨hb, rfl⟩ := Prod.mk.inj h
    rw [Outcome.ok.inj hb]
    rfl
  | fail e => exact fun h => absurd (congrArg Prod.fst h) (by simp [run])
  | look k ih => exact ih s
  | step f next onError ihn ihe => exact ihn

/-! ## History variables -/

variable {η : Type} (obs : σ → η → η)

/-- The call with a history variable: after each step `obs` sees the new store.  No step
and no branch depends on the history. -/
def record : Program σ ε α → Program (σ × η) ε α
  | ret a => ret a
  | fail e => fail e
  | look k => look fun t => record (k t.1)
  | step f next onError =>
      step (fun t => (f t.1, obs (f t.1) t.2)) (record next) (record onError)

@[simp] theorem record_pure (a : α) : record obs (pure a : Program σ ε α) = pure a := rfl

@[simp] theorem record_throw (e : ε) : record obs (throw e : Program σ ε α) = throw e := rfl

@[simp] theorem record_bind (p : Program σ ε α) (g : α → Program σ ε β) :
    record obs (p >>= g) = record obs p >>= fun a => record obs (g a) := by
  show record obs (bind p g) = bind (record obs p) fun a => record obs (g a)
  induction p with
  | ret a => rfl
  | fail e => rfl
  | look k ih => exact congrArg look (funext fun t => ih t.1)
  | step f next onError ihn ihe => rw [bind, record, ihn, ihe, record, bind]

@[simp] theorem record_tryCatch (p : Program σ ε α) (g : ε → Program σ ε α) :
    record obs (tryCatch p g) = tryCatch (record obs p) fun e => record obs (g e) := by
  show record obs (handle p g) = handle (record obs p) fun e => record obs (g e)
  induction p with
  | ret a => rfl
  | fail e => rfl
  | look k ih => exact congrArg look (funext fun t => ih t.1)
  | step f next onError ihn ihe => rw [handle, record, ihn, ihe, record, handle]

@[simp] theorem record_map (p : Program σ ε α) (g : α → β) :
    record obs (g <$> p) = g <$> record obs p := by
  rw [map_eq_pure_bind, map_eq_pure_bind, record_bind]
  rfl

@[simp] theorem record_toExcept (p : Program σ ε α) :
    record obs (toExcept p) = toExcept (record obs p) := by
  rw [toExcept, record_tryCatch, record_map]
  rfl

@[simp] theorem record_read :
    record obs (read : Program σ ε σ) = read >>= fun t => pure t.1 := rfl

@[simp] theorem record_durable (e : ε) (f : σ → σ) :
    record obs (durable e f) = durable e fun t => (f t.1, obs (f t.1) t.2) := rfl

@[simp] theorem record_ofExcept (x : Except ε α) :
    record obs (ofExcept x : Program σ ε α) = ofExcept x := by
  cases x <;> rfl

/-- A history that every cut of a call leaves alone is kept by the call. -/
theorem wp_record {h : η} (hobs : ∀ s, C s → obs s h = h) : ∀ {s}, p.wp Q E C s →
    (record obs p).wp (fun a t => Q a t.1 ∧ t.2 = h) (fun e t => E e t.1 ∧ t.2 = h)
    (fun t => C t.1 ∧ t.2 = h) (s, h) := by
  induction p with
  | ret a => exact fun hp => ⟨hp, rfl⟩
  | fail e => exact fun hp => ⟨hp, rfl⟩
  | look k ih => exact fun hp => ih _ hp
  | step f next onError ihn ihe =>
    rintro s ⟨hc, hcf, hn, he, hef⟩
    have hstay : (f s, obs (f s) h) = (f s, h) := by rw [hobs _ hcf]
    refine ⟨⟨hc, rfl⟩, ⟨hcf, hobs _ hcf⟩, ?_, ihe he, ?_⟩
    · show (record obs next).wp _ _ _ (f s, obs (f s) h)
      rw [hstay]; exact ihn hn
    · show (record obs onError).wp _ _ _ (f s, obs (f s) h)
      rw [hstay]; exact ihe hef

/-- A call that changes nothing keeps a history that has already seen its store. -/
theorem ReadOnly.wp_record {Q : α → σ × η → Prop} {E : ε → σ × η → Prop} {C : σ × η → Prop} {h : η}
    (hp : p.ReadOnly) (hobs : obs s h = h) (hQ : ∀ a, Q a (s, h)) (hE : ∀ e, E e (s, h))
    (hC : C (s, h)) : (record obs p).wp Q E C (s, h) := by
  induction p with
  | ret a => exact hQ a
  | fail e => exact hE e
  | look k ih => exact ih s (hp s)
  | step f next onError ihn ihe =>
    obtain ⟨hf, hn, he⟩ := hp
    have hstay : (f s, obs (f s) h) = (s, h) := by rw [hf s, hobs]
    refine ⟨hC, ?_, ?_, ihe he, ?_⟩
    · show C (f s, obs (f s) h)
      rw [hstay]; exact hC
    · show (record obs next).wp Q E C (f s, obs (f s) h)
      rw [hstay]; exact ihn hn
    · show (record obs onError).wp Q E C (f s, obs (f s) h)
      rw [hstay]; exact ihe he

end Program

/-! ## One part of a larger store -/

/-- A part of a store that can be read and replaced. -/
structure Lens (τ σ : Type) where
  get : τ → σ
  put : σ → τ → τ
  get_put : ∀ s t, get (put s t) = s
  put_get : ∀ t, put (get t) t = t
  put_put : ∀ s s' t, put s' (put s t) = put s' t

namespace Program

variable {σ τ ε ε' α : Type}

/-- A call on the part `l` of a larger store, its errors translated by `conv`. -/
def zoom (l : Lens τ σ) (conv : ε → ε') : Program σ ε α → Program τ ε' α
  | ret a => ret a
  | fail e => fail (conv e)
  | look k => look fun t => zoom l conv (k (l.get t))
  | step f next onError =>
      step (fun t => l.put (f (l.get t)) t) (zoom l conv next) (zoom l conv onError)

theorem zoom_bind {β : Type} (l : Lens τ σ) (conv : ε → ε') (p : Program σ ε α)
    (g : α → Program σ ε β) : zoom l conv (p >>= g) = zoom l conv p >>= fun a => zoom l conv (g a) := by
  show zoom l conv (bind p g) = bind (zoom l conv p) fun a => zoom l conv (g a)
  induction p with
  | ret a => rfl
  | fail e => rfl
  | look k ih => exact congrArg look (funext fun t => ih (l.get t))
  | step f next onError ihn ihe => rw [bind, zoom, ihn, ihe, zoom, bind]

/-- A call on one part meets exactly what it meets there; the rest is unchanged. -/
theorem wp_zoom (l : Lens τ σ) (conv : ε → ε') (p : Program σ ε α) {Q : α → τ → Prop}
    {E : ε' → τ → Prop} {C : τ → Prop} : ∀ t, wp (zoom l conv p) Q E C t ↔
      wp p (fun a s => Q a (l.put s t)) (fun e s => E (conv e) (l.put s t))
        (fun s => C (l.put s t)) (l.get t) := by
  induction p with
  | ret a => intro t; rw [zoom, wp, wp, l.put_get]
  | fail e => intro t; rw [zoom, wp, wp, l.put_get]
  | look k ih => exact fun t => ih _ t
  | step f next onError ihn ihe =>
    intro t
    rw [zoom, wp, wp, ihn, ihe, ihe, l.put_get, l.get_put]
    simp only [l.put_put]

theorem returns_zoom (l : Lens τ σ) (conv : ε → ε') (p : Program σ ε α) {Q : α → τ → Prop} :
    ∀ t, returns (zoom l conv p) Q t ↔ returns p (fun a s => Q a (l.put s t)) (l.get t) := by
  induction p with
  | ret a => intro t; rw [zoom, returns, returns, l.put_get]
  | fail e => exact fun t => Iff.rfl
  | look k ih => exact fun t => ih _ t
  | step f next onError ihn ihe =>
    intro t
    rw [zoom, returns, returns, ihn, l.get_put]
    simp only [l.put_put]

theorem settles_zoom (l : Lens τ σ) (conv : ε → ε') (p : Program σ ε α) {Q : α → τ → Prop}
    {E : ε' → τ → Prop} : ∀ t, settles (zoom l conv p) Q E t ↔
      settles p (fun a s => Q a (l.put s t)) (fun e s => E (conv e) (l.put s t)) (l.get t) := by
  induction p with
  | ret a => intro t; rw [zoom, settles, settles, l.put_get]
  | fail e => intro t; rw [zoom, settles, settles, l.put_get]
  | look k ih => exact fun t => ih _ t
  | step f next onError ihn ihe =>
    intro t
    rw [zoom, settles, settles, ihn, l.get_put]
    simp only [l.put_put]

end Program

end DshNexus.Durable
