import DshNexus.Durable.Program

/-!
# Files and I/O errors

The vocabulary shared by the stores: file contents, the error kinds the code branches
on, control characters, lists of checks and folds that may fail, and the bounded read of an
optional file.
-/

namespace DshNexus

abbrev Bytes := List UInt8

/-- The error kinds of `io::ErrorKind` that the code returns or tests. -/
inductive ErrorKind where
  | notFound
  | invalidInput
  | invalidData
  | alreadyExists
  | wouldBlock
  | resourceBusy
  | permissionDenied
  | other
  deriving DecidableEq, Repr

/-- An `io::Error`. -/
structure IoError where
  kind : ErrorKind
  message : String
  deriving DecidableEq, Repr

/-- An error of kind `InvalidData`. -/
def invalidData (message : String) : IoError := ⟨.invalidData, message⟩

def fileOperationFailed : IoError := ⟨.other, "file operation"⟩

/-- `char::is_control`, the Unicode category `Cc`. -/
def isControl (c : Char) : Bool :=
  c.toNat < 0x20 || (0x7f ≤ c.toNat && c.toNat < 0xa0)

/-- From a bind that returns, the value that was bound. -/
theorem bind_eq_ok {ε α β : Type} {x : Except ε α} {f : α → Except ε β} {b : β}
    (h : x >>= f = .ok b) : ∃ a, x = .ok a ∧ f a = .ok b := by
  cases x with
  | ok a => exact ⟨a, rfl, h⟩
  | error e => exact nomatch h

theorem bind_eq_ok_iff {ε α β : Type} {x : Except ε α} {f : α → Except ε β} {b : β} :
    x >>= f = .ok b ↔ ∃ a, x = .ok a ∧ f a = .ok b :=
  ⟨bind_eq_ok, fun ⟨_, ha, hb⟩ => by rw [ha]; exact hb⟩

/-- A check that is passed: the condition of its error does not hold. -/
theorem guard_eq_ok {ε β γ : Type} {c : Prop} [Decidable c] {e : ε} {g : γ → Except ε β}
    {y : Except ε β} {b : β} :
    (if c then throw e >>= g else y) = .ok b ↔ ¬ c ∧ y = .ok b := by
  split
  · next h => exact iff_of_false (fun h' => nomatch h') (fun h' => h'.1 h)
  · next h => exact (and_iff_right h).symm

/-- From a bind that fails, the part that failed. -/
theorem bind_eq_error {ε α β : Type} {x : Except ε α} {f : α → Except ε β} {e : ε}
    (h : x >>= f = .error e) : x = .error e ∨ ∃ a, x = .ok a ∧ f a = .error e := by
  cases x with
  | ok a => exact Or.inr ⟨a, rfl, h⟩
  | error e' =>
    have he : e' = e := Except.error.inj h
    exact Or.inl (by rw [he])

/-- A list of checks that all pass passes. -/
theorem forM_eq_ok {ι ε : Type} {g : ι → Except ε PUnit} {xs : List ι}
    (h : ∀ x ∈ xs, g x = .ok ⟨⟩) : xs.forM g = .ok ⟨⟩ := by
  induction xs with
  | nil => rfl
  | cons x xs ih =>
    rw [List.forM_eq_forM, List.forM_cons, h x (List.mem_cons_self ..)]
    exact ih fun y hy => h y (List.mem_cons_of_mem _ hy)

/-- Of a list of checks that passes every check passes. -/
theorem eq_ok_of_forM {ι ε : Type} {g : ι → Except ε PUnit} {xs : List ι}
    (h : xs.forM g = .ok ⟨⟩) : ∀ x ∈ xs, g x = .ok ⟨⟩ := by
  induction xs with
  | nil => exact fun x hx => absurd hx List.not_mem_nil
  | cons y ys ih =>
    rw [List.forM_eq_forM, List.forM_cons] at h
    rcases hy : g y with e | ⟨⟩
    · rw [hy] at h
      exact nomatch h
    · rw [hy] at h
      intro x hx
      rcases List.mem_cons.mp hx with rfl | hx
      · exact hy
      · exact ih h x hx

/-- A fold whose every step returns is the fold of what the steps return.  `P` relates the
elements still to be visited and the accumulator. -/
theorem foldlM_eq_ok {ι ε β : Type} {g : β → ι → Except ε β} {f : β → ι → β}
    {P : List ι → β → Prop}
    (hstep : ∀ x xs b, P (x :: xs) b → g b x = .ok (f b x) ∧ P xs (f b x)) :
    ∀ xs b, P xs b → xs.foldlM g b = .ok (xs.foldl f b) := by
  intro xs
  induction xs with
  | nil => exact fun b _ => rfl
  | cons x xs ih =>
    intro b hb
    obtain ⟨hx, hxs⟩ := hstep x xs b hb
    rw [List.foldlM_cons, hx, List.foldl_cons]
    exact ih (f b x) hxs

/-- Of a fold that returns every step returns. -/
theorem exists_ok_of_foldlM {ι ε β : Type} {g : β → ι → Except ε β} {xs : List ι} {b b' : β}
    (h : xs.foldlM g b = .ok b') : ∀ x ∈ xs, ∃ b₀ b₁, g b₀ x = .ok b₁ := by
  induction xs generalizing b with
  | nil => exact fun x hx => absurd hx List.not_mem_nil
  | cons y ys ih =>
    rw [List.foldlM_cons] at h
    obtain ⟨b₁, hy, hys⟩ := bind_eq_ok h
    intro x hx
    rcases List.mem_cons.mp hx with rfl | hx
    · exact ⟨b, b₁, hy⟩
    · exact ih hys x hx

/-- `ok_or_else`. -/
def required {α : Type} (error : IoError) : Option α → Except IoError α
  | some a => .ok a
  | none => .error error

theorem required_eq_ok {α : Type} {error : IoError} {o : Option α} {a : α} :
    required error o = .ok a ↔ o = some a := by
  rcases o with _ | b
  · exact iff_of_false (fun h => by cases h) (fun h => by cases h)
  · exact ⟨fun h => congrArg some (Except.ok.inj h),
      fun h => congrArg Except.ok (Option.some.inj h)⟩

/-- Read an optional ordinary file of at most `limit` bytes. -/
def readRegularFileBounded (file : Option Bytes) (limit : Nat) : Except IoError (Option Bytes) :=
  match file with
  | none => .ok none
  | some bytes =>
      if bytes.length > limit then
        .error (invalidData "Configuration or backup must be an ordinary bounded file")
      else .ok (some bytes)

theorem eq_of_readRegularFileBounded {file result : Option Bytes} {limit : Nat}
    (h : readRegularFileBounded file limit = .ok result) : result = file := by
  rcases file with _ | bytes
  · exact (Except.ok.inj h).symm
  · rw [readRegularFileBounded] at h
    split at h
    · exact absurd h (by simp)
    · exact (Except.ok.inj h).symm

open Durable Program

def readFile {σ : Type} (file : σ → Option Bytes) (limit : Nat) :
    Program σ IoError (Option Bytes) := do
  let s ← Program.read
  Program.ofExcept (readRegularFileBounded (file s) limit)

/-- A read returns the file as it is, or fails. -/
theorem wp_readFile {σ : Type} {file : σ → Option Bytes} {limit : Nat}
    {Q : Option Bytes → σ → Prop} {E : IoError → σ → Prop} {C : σ → Prop} {s : σ}
    (hQ : Q (file s) s) (hE : ∀ e, E e s) : (readFile file limit).wp Q E C s := by
  rw [readFile, wp_bind, wp_read, wp_ofExcept]
  refine ⟨fun b hb => ?_, fun e _ => hE e⟩
  rw [eq_of_readRegularFileBounded hb]
  exact hQ

/-- The same with a history, which sees no step. -/
theorem wp_record_readFile {σ η : Type} {obs : σ → η → η} {file : σ → Option Bytes} {limit : Nat}
    {Q : Option Bytes → σ × η → Prop} {E : IoError → σ × η → Prop} {C : σ × η → Prop} {s : σ}
    {h : η} (hQ : Q (file s) (s, h)) (hE : ∀ e, E e (s, h)) :
    (Program.record obs (readFile file limit)).wp Q E C (s, h) := by
  rw [readFile, record_bind, record_read, wp_bind, wp_bind,
    wp_read, wp_pure, record_ofExcept, wp_ofExcept]
  refine ⟨fun b hb => ?_, fun e _ => hE e⟩
  rw [eq_of_readRegularFileBounded hb]
  exact hQ

theorem readOnly_readFile {σ : Type} (file : σ → Option Bytes) (limit : Nat) :
    (readFile file limit : Program σ IoError (Option Bytes)).ReadOnly :=
  readOnly_read.bind fun s =>
    readOnly_ofExcept (readRegularFileBounded (file s) limit)

end DshNexus
