import DshNexus.Durable.Program

/-!
# Sessions: finite sequences of calls that may each fail or crash

A session is a finite list of calls on one store, each with the faults it meets.  After
a crash only the store is left, and the next call starts from it.

* `finalState`: the store after a session.
* `Respects`: every call of the session is allowed in the state where it is made.
* `finalState_invariant`: what every call preserves, at every cut, holds at the end.
* `exists_call_of_finalState`: what holds at the end and not at the beginning came with a call.
* `trace`: the calls of a session, each with how it ended, and the invariant rule
  `finalState_trace` for what is said of both.
-/

namespace DshNexus.Durable.Session

variable {σ ε α ι : Type}

/-- The store after one call under the given faults. -/
def after (p : Program σ ε α) (fs : List Fault) (s : σ) : σ := (p.run fs s).2

def finalState (calls : ι → Program σ ε α) : List (ι × List Fault) → σ → σ
  | [], s => s
  | (i, fs) :: cs, s => finalState calls cs (after (calls i) fs s)

/-- Every call of the session is allowed in the state where it is made. -/
def Respects (calls : ι → Program σ ε α) (allowed : ι → σ → Prop) :
    List (ι × List Fault) → σ → Prop
  | [], _ => True
  | (i, fs) :: cs, s => allowed i s ∧ Respects calls allowed cs (after (calls i) fs s)

variable {calls : ι → Program σ ε α} {allowed : ι → σ → Prop}

theorem finalState_append (cs ds : List (ι × List Fault)) (s : σ) :
    finalState calls (cs ++ ds) s = finalState calls ds (finalState calls cs s) := by
  induction cs generalizing s with
  | nil => rfl
  | cons c cs ih => exact ih _

/-- What a specification says of every end of a call, it says of the store after it. -/
theorem after_of_wp {p : Program σ ε α} {I : σ → Prop} {s : σ} (fs : List Fault)
    (h : p.wp (fun _ => I) (fun _ => I) I s) : I (after p fs s) := by
  have hrun := (Program.wp_iff_run p _ _ _ s).mp h fs
  unfold after
  rcases hr : p.run fs s with ⟨_ | _ | _, s'⟩ <;> rw [hr] at hrun <;> exact hrun

/-- The store after a call does not depend on what becomes of its result. -/
theorem after_map {β : Type} (g : α → β) (p : Program σ ε α) (fs : List Fault) (s : σ) :
    after (g <$> p) fs s = after p fs s := by
  rw [map_eq_pure_bind]
  show (Program.run (Program.bind p _) fs s).2 = (Program.run p fs s).2
  induction p generalizing fs s with
  | ret a => rfl
  | fail e => rfl
  | look k ih => exact ih s fs s
  | step f next onError ihn ihe =>
    rcases fs with _ | ⟨_ | _ | _ | _ | _, fs⟩
    · exact ihn [] (f s)
    · exact ihn fs (f s)
    · exact ihe fs s
    · exact ihe fs (f s)
    · rfl
    · rfl

/-- **Sessions preserve an invariant of their calls.**  If every allowed call preserves
`I` at a return, at an error and at a crash, then `I` holds after every session whose
calls are all allowed. -/
theorem finalState_invariant {I : σ → Prop}
    (hcall : ∀ i s, I s → allowed i s → (calls i).wp (fun _ => I) (fun _ => I) I s) :
    ∀ cs s, I s → Respects calls allowed cs s → I (finalState calls cs s) := by
  intro cs
  induction cs with
  | nil => exact fun s h _ => h
  | cons c cs ih =>
    obtain ⟨i, fs⟩ := c
    intro s h hr
    exact ih _ (after_of_wp fs (hcall i s h hr.1)) hr.2

/-- What every call keeps until something happens is kept by a session, or it has happened. -/
theorem finalState_until {I P Q : σ → Prop} (hkeep : ∀ i fs s, I s → I (after (calls i) fs s))
    (hstep : ∀ i fs s, I s → P s → P (after (calls i) fs s) ∨ Q (after (calls i) fs s))
    (cs : List (ι × List Fault)) : ∀ s, I s → P s →
      P (finalState calls cs s) ∨ ∃ before rest, cs = before ++ rest ∧
        Q (finalState calls before s) := by
  induction cs with
  | nil => exact fun s _ hp => Or.inl hp
  | cons c cs ih =>
    obtain ⟨i, fs⟩ := c
    intro s hi hp
    rcases hstep i fs s hi hp with hnext | hnext
    · rcases ih _ (hkeep i fs s hi) hnext with hend | ⟨before, rest, rfl, hq⟩
      · exact Or.inl hend
      · exact Or.inr ⟨(i, fs) :: before, rest, rfl, hq⟩
    · exact Or.inr ⟨[(i, fs)], cs, rfl, hnext⟩

/-- **What a session has come to came with one of its calls.** -/
theorem exists_call_of_finalState {P : σ → Prop} {cs : List (ι × List Fault)} {s : σ}
    (h : P (finalState calls cs s)) (hstart : ¬ P s) :
    ∃ before i fs rest, cs = before ++ (i, fs) :: rest ∧ ¬ P (finalState calls before s) ∧
      P (after (calls i) fs (finalState calls before s)) := by
  induction cs generalizing s with
  | nil => exact absurd h hstart
  | cons c cs ih =>
    obtain ⟨i, fs⟩ := c
    by_cases hnext : P (after (calls i) fs s)
    · exact ⟨[], i, fs, cs, rfl, hstart, hnext⟩
    · obtain ⟨before, j, gs, rest, rfl, hbefore, hcall⟩ := ih h hnext
      exact ⟨(i, fs) :: before, j, gs, rest, rfl, hbefore, hcall⟩

/-- A session without conditions respects the trivial one. -/
theorem respects_true (cs : List (ι × List Fault)) (s : σ) :
    Respects calls (fun _ _ => True) cs s := by
  induction cs generalizing s with
  | nil => trivial
  | cons c cs ih => exact ⟨trivial, ih _⟩

/-- Sessions of calls without conditions preserve what every call preserves. -/
theorem finalState_preserves {I : σ → Prop}
    (hcall : ∀ i s, I s → (calls i).wp (fun _ => I) (fun _ => I) I s) (cs : List (ι × List Fault))
    (s : σ) (h : I s) : I (finalState calls cs s) :=
  finalState_invariant (fun i t ht _ => hcall i t ht) cs s h (respects_true cs s)

theorem respects_append (cs ds : List (ι × List Fault)) (s : σ) :
    Respects calls allowed (cs ++ ds) s ↔
      Respects calls allowed cs s ∧ Respects calls allowed ds (finalState calls cs s) := by
  induction cs generalizing s with
  | nil => exact ⟨fun h => ⟨trivial, h⟩, fun h => h.2⟩
  | cons c cs ih =>
    show allowed c.1 s ∧ Respects calls allowed (cs ++ ds) _ ↔
      (allowed c.1 s ∧ Respects calls allowed cs _) ∧ _
    rw [ih, and_assoc]
    exact Iff.rfl

/-- The calls of a session, each with how it ended. -/
def trace (calls : ι → Program σ ε α) : List (ι × List Fault) → σ → List (ι × Outcome ε α)
  | [], _ => []
  | (i, fs) :: cs, s => (i, ((calls i).run fs s).1) :: trace calls cs (after (calls i) fs s)

theorem map_fst_trace (cs : List (ι × List Fault)) (s : σ) :
    (trace calls cs s).map Prod.fst = cs.map Prod.fst := by
  induction cs generalizing s with
  | nil => rfl
  | cons c cs ih => exact congrArg (c.1 :: ·) (ih _)

/-- **What the calls say of the trace and the store together.**  `I` relates the calls so far, with
their ends, to the store they have left. -/
theorem finalState_trace {I : List (ι × Outcome ε α) → σ → Prop} {P : ι → Prop}
    (hcall : ∀ i t s, P i → I t s → (calls i).wp (fun a s' => I (t ++ [(i, .ok a)]) s')
      (fun e s' => I (t ++ [(i, .error e)]) s') (fun s' => I (t ++ [(i, .crash)]) s') s) :
    ∀ cs t s, (∀ c ∈ cs, P c.1) → I t s → I (t ++ trace calls cs s) (finalState calls cs s) := by
  intro cs
  induction cs with
  | nil =>
    intro t s _ h
    rw [trace, List.append_nil]
    exact h
  | cons c cs ih =>
    obtain ⟨i, fs⟩ := c
    intro t s hP h
    have hnext : I (t ++ [(i, ((calls i).run fs s).1)]) (after (calls i) fs s) := by
      have hrun := (Program.wp_iff_run _ _ _ _ s).mp
        (hcall i t s (hP _ List.mem_cons_self) h) fs
      unfold after
      rcases hr : (calls i).run fs s with ⟨_ | _ | _, s'⟩ <;> rw [hr] at hrun <;> exact hrun
    have hrest := ih _ _ (fun c' hc' => hP c' (List.mem_cons_of_mem _ hc')) hnext
    rw [List.append_assoc] at hrest
    exact hrest

/-- A condition on the calls alone can be moved into the condition on the states. -/
theorem Respects.and_of_forall {cs : List (ι × List Fault)} {s : σ}
    (h : Respects calls allowed cs s) (P : ι → Prop) (hP : ∀ c ∈ cs, P c.1) :
    Respects calls (fun i s => P i ∧ allowed i s) cs s := by
  induction cs generalizing s with
  | nil => trivial
  | cons c cs ih =>
    exact ⟨⟨hP c (List.mem_cons_self ..), h.1⟩,
      ih h.2 fun c' hc' => hP c' (List.mem_cons_of_mem _ hc')⟩

end DshNexus.Durable.Session
