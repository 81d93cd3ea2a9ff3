import DshNexus.Durable.Session

/-!
# Crashes alone

The weakest precondition of `Durable.Program` is for every fault.  Some stores promise less: no step
reports an error, and the process may stop before or after any step.  This is the same calculus for
these runs.

* `CrashOnly`: a list of faults without errors.
* `Program.crashWp`, and `Program.crashWp_iff_run`, which says that it is exact.
* The rules for binds, handlers, steps, loops and `zoom`.
* `Session.after_of_crashWp`.
-/

namespace DshNexus.Durable

def CrashOnly (fs : List Fault) : Prop := ∀ f ∈ fs, f ≠ .errorBefore ∧ f ≠ .errorAfter

namespace Program

variable {σ τ ε ε' α β ι : Type}

/-- The weakest precondition for runs that may be cut. -/
def crashWp : Program σ ε α → (α → σ → Prop) → (ε → σ → Prop) → (σ → Prop) → σ → Prop
  | ret a, Q, _, _, s => Q a s
  | fail e, _, E, _, s => E e s
  | look k, Q, E, C, s => crashWp (k s) Q E C s
  | step f next _, Q, E, C, s => C s ∧ C (f s) ∧ crashWp next Q E C (f s)

/-- **It is exact**: it holds if and only if every run that may be cut, and meets no other fault,
meets the postconditions. -/
theorem crashWp_iff_run (p : Program σ ε α) (Q : α → σ → Prop) (E : ε → σ → Prop) (C : σ → Prop) :
    ∀ s, crashWp p Q E C s ↔ ∀ fs, CrashOnly fs → Meets Q E C (run p fs s) := by
  induction p with
  | ret a => exact fun s => ⟨fun h _ _ => h, fun h => h [] (by simp [CrashOnly])⟩
  | fail e => exact fun s => ⟨fun h _ _ => h, fun h => h [] (by simp [CrashOnly])⟩
  | look k ih => exact fun s => ih s s
  | step f next onError ihn ihe =>
    intro s
    constructor
    · rintro ⟨hc, hcf, hn⟩ fs hfs
      rcases fs with _ | ⟨_ | _ | _ | _ | _, fs⟩
      · exact (ihn _).mp hn [] hfs
      · exact (ihn _).mp hn fs fun f hf => hfs f (List.mem_cons_of_mem _ hf)
      · exact absurd rfl (hfs _ List.mem_cons_self).1
      · exact absurd rfl (hfs _ List.mem_cons_self).2
      · exact hc
      · exact hcf
    · intro h
      refine ⟨h [.crashBefore] (by simp [CrashOnly]), h [.crashAfter] (by simp [CrashOnly]),
        (ihn _).mpr fun fs hfs => h (.none :: fs) ?_⟩
      intro f hf
      rcases List.mem_cons.mp hf with rfl | hf
      · exact ⟨by simp, by simp⟩
      · exact hfs f hf

theorem crashWp_mono {p : Program σ ε α} {Q Q' : α → σ → Prop} {E E' : ε → σ → Prop}
    {C C' : σ → Prop} (hQ : ∀ a s, Q a s → Q' a s) (hE : ∀ e s, E e s → E' e s)
    (hC : ∀ s, C s → C' s) : ∀ {s}, crashWp p Q E C s → crashWp p Q' E' C' s := by
  induction p with
  | ret a => exact fun h => hQ _ _ h
  | fail e => exact fun h => hE _ _ h
  | look k ih => exact fun h => ih _ h
  | step f next onError ihn ihe => exact fun ⟨hc, hcf, hn⟩ => ⟨hC _ hc, hC _ hcf, ihn hn⟩

theorem crashWp_imp {p : Program σ ε α} {Q Q' : α → σ → Prop} {E : ε → σ → Prop} {C : σ → Prop}
    {s : σ} (hQ : ∀ a s, Q a s → Q' a s) (h : crashWp p Q E C s) : crashWp p Q' E C s :=
  crashWp_mono hQ (fun _ _ h => h) (fun _ h => h) h

section Rules

variable {Q : β → σ → Prop} {E : ε → σ → Prop} {C : σ → Prop} {s : σ}

@[simp] theorem crashWp_pure (b : β) : crashWp (pure b : Program σ ε β) Q E C s ↔ Q b s := Iff.rfl

@[simp] theorem crashWp_throw (e : ε) : crashWp (throw e : Program σ ε β) Q E C s ↔ E e s :=
  Iff.rfl

@[simp] theorem crashWp_bind (p : Program σ ε α) (g : α → Program σ ε β) :
    crashWp (p >>= g) Q E C s ↔ crashWp p (fun a s => crashWp (g a) Q E C s) E C s := by
  show crashWp (bind p g) Q E C s ↔ _
  induction p generalizing s with
  | ret a => exact Iff.rfl
  | fail e => exact Iff.rfl
  | look k ih => exact ih _
  | step f next onError ihn ihe => rw [bind, crashWp, crashWp, ihn]

@[simp] theorem crashWp_map (p : Program σ ε α) (g : α → β) :
    crashWp (g <$> p) Q E C s ↔ crashWp p (fun a s => Q (g a) s) E C s := by
  rw [map_eq_pure_bind, crashWp_bind]
  exact Iff.rfl

@[simp] theorem crashWp_tryCatch (p : Program σ ε β) (h : ε → Program σ ε β) :
    crashWp (tryCatch p h) Q E C s ↔ crashWp p Q (fun e s => crashWp (h e) Q E C s) C s := by
  show crashWp (handle p h) Q E C s ↔ _
  induction p generalizing s with
  | ret a => exact Iff.rfl
  | fail e => exact Iff.rfl
  | look k ih => exact ih _
  | step f next onError ihn ihe => rw [handle, crashWp, crashWp, ihn]

@[simp] theorem crashWp_read {Q : σ → σ → Prop} :
    crashWp (read : Program σ ε σ) Q E C s ↔ Q s s := Iff.rfl

@[simp] theorem crashWp_durable {Q : Unit → σ → Prop} (e : ε) (f : σ → σ) :
    crashWp (durable e f) Q E C s ↔ C s ∧ C (f s) ∧ Q () (f s) := Iff.rfl

@[simp] theorem crashWp_ignoreError {Q : Unit → σ → Prop} (p : Program σ ε Unit) :
    crashWp (ignoreError p) Q E C s ↔ crashWp p Q (fun _ s => Q () s) C s := by
  rw [ignoreError, crashWp_tryCatch]
  exact Iff.rfl

@[simp] theorem crashWp_toExcept {Q : Except ε β → σ → Prop} (p : Program σ ε β) :
    crashWp (toExcept p) Q E C s ↔
      crashWp p (fun b s => Q (.ok b) s) (fun e s => Q (.error e) s) C s := by
  rw [toExcept, crashWp_tryCatch, crashWp_map]
  exact Iff.rfl

theorem crashWp_ofExcept (x : Except ε β) :
    crashWp (ofExcept x : Program σ ε β) Q E C s ↔
      (∀ b, x = .ok b → Q b s) ∧ ∀ e, x = .error e → E e s := by
  cases x with
  | ok b => simp [ofExcept, crashWp]
  | error e => simp [ofExcept, crashWp]

theorem crashWp_inspect (f : σ → Except ε β) :
    crashWp (inspect f) Q E C s ↔ (∀ b, f s = .ok b → Q b s) ∧ ∀ e, f s = .error e → E e s :=
  crashWp_ofExcept (f s)

/-- The loop rule for a loop without an accumulator. -/
theorem crashWp_forM {I : List ι → σ → Prop} {g : ι → Program σ ε PUnit}
    (hstep : ∀ x xs s, I (x :: xs) s → crashWp (g x) (fun _ s' => I xs s') E C s) :
    ∀ xs s, I xs s → crashWp (xs.forM g) (fun _ s' => I [] s') E C s := by
  intro xs
  induction xs with
  | nil => exact fun s h => h
  | cons x xs ih =>
    intro s h
    rw [List.forM_eq_forM, List.forM_cons, crashWp_bind]
    exact crashWp_imp (fun _ s' h' => ih s' h')
      (hstep x xs s h)

end Rules

theorem crashWp_zoom (l : Lens τ σ) (conv : ε → ε') (p : Program σ ε α) {Q : α → τ → Prop}
    {E : ε' → τ → Prop} {C : τ → Prop} : ∀ t, crashWp (zoom l conv p) Q E C t ↔
      crashWp p (fun a s => Q a (l.put s t)) (fun e s => E (conv e) (l.put s t))
        (fun s => C (l.put s t)) (l.get t) := by
  induction p with
  | ret a => intro t; rw [zoom, crashWp, crashWp, l.put_get]
  | fail e => intro t; rw [zoom, crashWp, crashWp, l.put_get]
  | look k ih => exact fun t => ih _ t
  | step f next onError ihn ihe =>
    intro t
    rw [zoom, crashWp, crashWp, ihn, l.put_get, l.get_put]
    simp only [l.put_put]

end Program

namespace Session

variable {σ ε α : Type}

/-- What a specification says of every cut, it says of the store after the call. -/
theorem after_of_crashWp {p : Program σ ε α} {I : σ → Prop} {s : σ} {fs : List Fault}
    (hfs : CrashOnly fs) (h : p.crashWp (fun _ => I) (fun _ => I) I s) : I (after p fs s) := by
  have hrun := (Program.crashWp_iff_run p _ _ _ s).mp h fs hfs
  unfold after
  rcases hr : p.run fs s with ⟨_ | _ | _, s'⟩ <;> rw [hr] at hrun <;> exact hrun

end Session

end DshNexus.Durable
