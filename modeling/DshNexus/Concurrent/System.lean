import Mathlib.Data.List.AList

/-!
# Interleaved systems

A system is one state and the events of all its tasks, in whatever order they come.  An event
that cannot happen in a state has no step there.

* `System.run`: the state after a list of events.
* `RunMeets`: every event of a run meets a condition, in the state where it happens.
* `run_invariant`: what every step preserves holds at the end of a run.
* `runMeets_of_invariant`: what follows from an invariant holds at every event of a run.
* `run_iff_runMeets`: a property of states that a step keeps exactly when it meets a condition
  holds at the end of a run exactly when all steps meet the condition.
-/

namespace DshNexus.Concurrent

structure System (σ ε : Type) where
  /-- the state before the first event -/
  init : σ
  /-- the state after an event, where it can happen -/
  step : σ → ε → Option σ

namespace System

variable {σ ε : Type} (S : System σ ε)

def run : List ε → σ → Option σ
  | [], s => some s
  | e :: es, s => (S.step s e).bind (run es)

/-- Every event of the run meets the condition, in the state where it happens. -/
def RunMeets (P : σ → ε → Prop) : List ε → σ → Prop
  | [], _ => True
  | e :: es, s => P s e ∧ ∀ s', S.step s e = some s' → RunMeets P es s'

variable {S}

instance decidableRunMeets {P : σ → ε → Prop} [∀ s e, Decidable (P s e)] :
    ∀ es s, Decidable (S.RunMeets P es s)
  | [], _ => isTrue trivial
  | e :: es, s =>
      match h : S.step s e with
      | none => decidable_of_iff (P s e)
          (iff_self_and.mpr fun _ _ hs' => nomatch h.symm.trans hs')
      | some s' =>
          have : Decidable (S.RunMeets P es s') := decidableRunMeets es s'
          decidable_of_iff (P s e ∧ S.RunMeets P es s') (and_congr_right fun _ =>
            ⟨fun hm _ ht => Option.some.inj (h.symm.trans ht) ▸ hm, fun hm => hm s' h⟩)

theorem run_cons {e : ε} {es : List ε} {s s'' : σ} :
    S.run (e :: es) s = some s'' ↔ ∃ s', S.step s e = some s' ∧ S.run es s' = some s'' := by
  rw [run, Option.bind_eq_some_iff]

theorem run_append {es fs : List ε} {s s'' : σ} :
    S.run (es ++ fs) s = some s'' ↔ ∃ s', S.run es s = some s' ∧ S.run fs s' = some s'' := by
  induction es generalizing s with
  | nil => exact ⟨fun h => ⟨s, rfl, h⟩, fun ⟨_, hs, h⟩ => Option.some.inj hs ▸ h⟩
  | cons e es ih =>
    rw [List.cons_append, run_cons]
    constructor
    · rintro ⟨t, ht, h⟩
      obtain ⟨s', hs', h⟩ := ih.mp h
      exact ⟨s', run_cons.mpr ⟨t, ht, hs'⟩, h⟩
    · rintro ⟨s', hs', h⟩
      obtain ⟨t, ht, hs'⟩ := run_cons.mp hs'
      exact ⟨t, ht, ih.mpr ⟨s', hs', h⟩⟩

/-- What the events of a run meet, the events after a part of it meet. -/
theorem RunMeets.of_append {P : σ → ε → Prop} {es fs : List ε} {s s' : σ}
    (h : S.RunMeets P (es ++ fs) s) (hrun : S.run es s = some s') : S.RunMeets P fs s' := by
  induction es generalizing s with
  | nil => exact Option.some.inj hrun ▸ h
  | cons e es ih =>
    obtain ⟨t, ht, hrun⟩ := run_cons.mp hrun
    exact ih (h.2 t ht) hrun

/-- What the events of a run meet, the events of its first part meet. -/
theorem RunMeets.of_append_left {P : σ → ε → Prop} {es fs : List ε} {s : σ}
    (h : S.RunMeets P (es ++ fs) s) : S.RunMeets P es s := by
  induction es generalizing s with
  | nil => trivial
  | cons e es ih => exact ⟨h.1, fun s' hs' => ih (h.2 s' hs')⟩

theorem runMeets_of_forall {P : σ → ε → Prop} (h : ∀ s e, P s e) (es : List ε) (s : σ) :
    S.RunMeets P es s := by
  induction es generalizing s with
  | nil => trivial
  | cons e es ih => exact ⟨h s e, fun s' _ => ih s'⟩

theorem runMeets_of_forall_mem {P : σ → ε → Prop} {es : List ε} (h : ∀ e ∈ es, ∀ s, P s e)
    (s : σ) : S.RunMeets P es s := by
  induction es generalizing s with
  | nil => trivial
  | cons e es ih =>
    exact ⟨h e List.mem_cons_self s, fun s' _ => ih (fun e he => h e (List.mem_cons_of_mem _ he)) s'⟩

/-- The invariant rule for runs whose events meet a condition. -/
theorem run_invariant {I : σ → Prop} {P : σ → ε → Prop}
    (hstep : ∀ s e s', I s → P s e → S.step s e = some s' → I s') :
    ∀ es s s', I s → S.RunMeets P es s → S.run es s = some s' → I s' := by
  intro es
  induction es with
  | nil => exact fun s s' h _ hr => Option.some.inj hr ▸ h
  | cons e es ih =>
    intro s s' h hm hr
    obtain ⟨t, ht, hr⟩ := run_cons.mp hr
    exact ih t s' (hstep s e t h hm.1 ht) (hm.2 t ht) hr

/-- What every state of an invariant meets, every event of a run meets. -/
theorem runMeets_of_invariant {I : σ → Prop} {P Q : σ → ε → Prop}
    (hstep : ∀ s e s', I s → P s e → S.step s e = some s' → I s')
    (hmeets : ∀ s e, I s → P s e → Q s e) :
    ∀ es s, I s → S.RunMeets P es s → S.RunMeets Q es s := by
  intro es
  induction es with
  | nil => exact fun _ _ _ => trivial
  | cons e es ih =>
    intro s h hm
    exact ⟨hmeets s e h hm.1, fun s' hs' => ih s' (hstep s e s' h hm.1 hs') (hm.2 s' hs')⟩

/-- The invariant rule for all runs. -/
theorem invariant {I : σ → Prop} (hinit : I S.init)
    (hstep : ∀ s e s', I s → S.step s e = some s' → I s') {es : List ε} {s : σ}
    (h : S.run es S.init = some s) : I s :=
  run_invariant (P := fun _ _ => True) (fun s e s' hs _ => hstep s e s' hs) es S.init s hinit
    (runMeets_of_forall (fun _ _ => trivial) es S.init) h

/-- **The rule for exact conditions.**  Where a step keeps `G` exactly when it meets `P`, a run
keeps `G` exactly when all its steps meet `P`. -/
theorem run_iff_runMeets {I G : σ → Prop} {P : σ → ε → Prop}
    (hinv : ∀ s e s', I s → S.step s e = some s' → I s')
    (hstep : ∀ s e s', I s → S.step s e = some s' → (G s' ↔ G s ∧ P s e)) :
    ∀ es s s', I s → S.run es s = some s' → (G s' ↔ G s ∧ S.RunMeets P es s) := by
  intro es
  induction es with
  | nil =>
    intro s s' _ hr
    rw [← Option.some.inj hr]
    exact (and_iff_left trivial).symm
  | cons e es ih =>
    intro s s' h hr
    obtain ⟨t, ht, hr⟩ := run_cons.mp hr
    rw [ih t s' (hinv s e t h ht) hr, hstep s e t h ht, and_assoc]
    refine and_congr_right fun _ => and_congr_right fun _ => ⟨fun hm t' ht' => ?_, fun hm => hm t ht⟩
    rwa [← Option.some.inj (ht.symm.trans ht')]

end System
end DshNexus.Concurrent
