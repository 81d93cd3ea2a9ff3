import DshNexus.Durable.Session

/-!
# Calls beside an environment

A call need not have its store alone: others may change it before any of its reads and
steps.  This file is about calls that such changes do not disturb.  The comparison is always
with the same call, under the same faults, on a store that nobody else changes.

* `Program.runAmong`: a call under faults and under changes by others.
* `Program.Along`: along such a run every change by others is of one kind, and every step of
  the call of another.
* `Program.Alike`: from two stores, the first of which others change, the call does the same;
  `Alike.run` is what this says about runs.
* `Program.Blind`: no read and no step of the call tells related stores apart.
* `Session.observe`: the outcomes of a session of such calls; `Session.observe_alike` compares
  them with those of the session without the changes.
-/

namespace DshNexus.Durable

namespace Program

variable {σ ε α β ι : Type}

def change : List (σ → σ) → σ → σ
  | [], s => s
  | a :: _, s => a s

/-- The call under faults, one for each durable step, and under changes by others, one before
each read and each step; after the end of the list nothing is changed. -/
def runAmong : Program σ ε α → List (σ → σ) → List Fault → σ → Outcome ε α × σ
  | ret a, _, _, s => (.ok a, s)
  | fail e, _, _, s => (.error e, s)
  | look k, as, fs, s => runAmong (k (change as s)) as.tail fs (change as s)
  | step f next _, as, [], s => runAmong next as.tail [] (f (change as s))
  | step f next _, as, .none :: fs, s => runAmong next as.tail fs (f (change as s))
  | step _ _ onError, as, .errorBefore :: fs, s => runAmong onError as.tail fs (change as s)
  | step f _ onError, as, .errorAfter :: fs, s =>
      runAmong onError as.tail fs (f (change as s))
  | step _ _ _, as, .crashBefore :: _, s => (.crash, change as s)
  | step f _ _, as, .crashAfter :: _, s => (.crash, f (change as s))

/-- Without changes by others this is the run itself. -/
theorem runAmong_nil (p : Program σ ε α) (fs : List Fault) (s : σ) :
    runAmong p [] fs s = run p fs s := by
  induction p generalizing fs s with
  | ret a => rfl
  | fail e => rfl
  | look k ih => exact ih s fs s
  | step f next onError ihn ihe =>
    rcases fs with _ | ⟨_ | _ | _ | _ | _, fs⟩
    · exact ihn [] (f s)
    · exact ihn fs (f s)
    · exact ihe fs s
    · exact ihe fs (f s)
    · rfl
    · rfl

/-- Along the run every change by others takes a store to one that `G` relates to it, and so
does every step of the call with `K`. -/
def Along (G K : σ → σ → Prop) : Program σ ε α → List (σ → σ) → List Fault → σ → Prop
  | ret _, _, _, _ => True
  | fail _, _, _, _ => True
  | look k, as, fs, s =>
      G s (change as s) ∧ Along G K (k (change as s)) as.tail fs (change as s)
  | step f next _, as, [], s =>
      G s (change as s) ∧ K (change as s) (f (change as s)) ∧
        Along G K next as.tail [] (f (change as s))
  | step f next _, as, .none :: fs, s =>
      G s (change as s) ∧ K (change as s) (f (change as s)) ∧
        Along G K next as.tail fs (f (change as s))
  | step _ _ onError, as, .errorBefore :: fs, s =>
      G s (change as s) ∧ Along G K onError as.tail fs (change as s)
  | step f _ onError, as, .errorAfter :: fs, s =>
      G s (change as s) ∧ K (change as s) (f (change as s)) ∧
        Along G K onError as.tail fs (f (change as s))
  | step _ _ _, as, .crashBefore :: _, s => G s (change as s)
  | step f _ _, as, .crashAfter :: _, s =>
      G s (change as s) ∧ K (change as s) (f (change as s))

/-- A run that nobody changes. -/
theorem along_nil {G : σ → σ → Prop} (hG : ∀ s, G s s) (p : Program σ ε α) (fs : List Fault)
    (s : σ) : Along G (fun _ _ => True) p [] fs s := by
  induction p generalizing fs s with
  | ret a => trivial
  | fail e => trivial
  | look k ih => exact ⟨hG s, ih s fs s⟩
  | step f next onError ihn ihe =>
    rcases fs with _ | ⟨_ | _ | _ | _ | _, fs⟩
    · exact ⟨hG s, trivial, ihn [] (f s)⟩
    · exact ⟨hG s, trivial, ihn fs (f s)⟩
    · exact ⟨hG s, ihe fs s⟩
    · exact ⟨hG s, trivial, ihe fs (f s)⟩
    · exact hG s
    · exact ⟨hG s, trivial⟩

/-- A run that others change at its first read or step only. -/
theorem along_single {G : σ → σ → Prop} (hG : ∀ s, G s s) {p : Program σ ε α} {a : σ → σ}
    {fs : List Fault} {s : σ} (ha : G s (a s)) : Along G (fun _ _ => True) p [a] fs s := by
  cases p with
  | ret a => trivial
  | fail e => trivial
  | look k => exact ⟨ha, along_nil hG _ fs _⟩
  | step f next onError =>
    rcases fs with _ | ⟨_ | _ | _ | _ | _, fs⟩
    · exact ⟨ha, trivial, along_nil hG next [] _⟩
    · exact ⟨ha, trivial, along_nil hG next fs _⟩
    · exact ⟨ha, along_nil hG onError fs _⟩
    · exact ⟨ha, trivial, along_nil hG onError fs _⟩
    · exact ha
    · exact ⟨ha, trivial⟩

/-! ## The same from two stores -/

/-- From `s`, which others change by `G`, and from `t`, which nobody changes, the call is the
same after every read; its steps are of the kind `K` on the first store and keep the two
related by `R`. -/
def Alike (G K R : σ → σ → Prop) : Program σ ε α → (α → σ → σ → Prop) → σ → σ → Prop
  | ret a, Q, s, t => Q a s t
  | fail _, _, s, t => R s t
  | look k, Q, s, t => ∀ s', G s s' → k s' = k t ∧ Alike G K R (k t) Q s' t
  | step f next onError, Q, s, t => ∀ s', G s s' → R s' t ∧ K s' (f s') ∧ R (f s') (f t) ∧
      Alike G K R next Q (f s') (f t) ∧ Alike G K R onError Q s' t ∧
      Alike G K R onError Q (f s') (f t)

section Alike

variable {G K R : σ → σ → Prop} {s t : σ}

/-- **A call that is the same from two stores ends the same way**, whatever others do to the
first one, and its steps there are of the kind it makes. -/
theorem Alike.run {p : Program σ ε α} (h : Alike G K R p (fun _ => R) s t)
    {as : List (σ → σ)} {fs : List Fault} (hal : Along G (fun _ _ => True) p as fs s) :
    (runAmong p as fs s).1 = (p.run fs t).1 ∧ R (runAmong p as fs s).2 (p.run fs t).2 ∧
      Along (fun _ _ => True) K p as fs s := by
  induction p generalizing as fs s t with
  | ret a => exact ⟨rfl, h, trivial⟩
  | fail e => exact ⟨rfl, h, trivial⟩
  | look k ih =>
    obtain ⟨hsame, hnext⟩ := h _ hal.1
    have hal' := hal.2
    rw [hsame] at hal'
    have hend := ih t hnext hal'
    show (runAmong (k _) as.tail fs _).1 = _ ∧ R (runAmong (k _) as.tail fs _).2 _ ∧
      True ∧ Along _ K (k _) as.tail fs _
    rw [hsame]
    exact ⟨hend.1, hend.2.1, trivial, hend.2.2⟩
  | step f next onError ihn ihe =>
    rcases fs with _ | ⟨_ | _ | _ | _ | _, fs⟩
    · obtain ⟨-, hk, -, hn, -, -⟩ := h _ hal.1
      have hend := ihn hn hal.2.2
      exact ⟨hend.1, hend.2.1, trivial, hk, hend.2.2⟩
    · obtain ⟨-, hk, -, hn, -, -⟩ := h _ hal.1
      have hend := ihn hn hal.2.2
      exact ⟨hend.1, hend.2.1, trivial, hk, hend.2.2⟩
    · obtain ⟨-, -, -, -, he, -⟩ := h _ hal.1
      have hend := ihe he hal.2
      exact ⟨hend.1, hend.2.1, trivial, hend.2.2⟩
    · obtain ⟨-, hk, -, -, -, hef⟩ := h _ hal.1
      have hend := ihe hef hal.2.2
      exact ⟨hend.1, hend.2.1, trivial, hk, hend.2.2⟩
    · exact ⟨rfl, (h _ hal).1, trivial⟩
    · obtain ⟨-, hk, hr, -, -, -⟩ := h _ hal.1
      exact ⟨rfl, hr, trivial, hk⟩

/-- The rule of consequence. -/
theorem Alike.mono {R' : σ → σ → Prop} {p : Program σ ε α} {Q Q' : α → σ → σ → Prop}
    (hQ : ∀ a s t, Q a s t → Q' a s t) (hR : ∀ s t, R s t → R' s t) :
    ∀ {s t}, Alike G K R p Q s t → Alike G K R' p Q' s t := by
  induction p with
  | ret a => exact fun h => hQ _ _ _ h
  | fail e => exact fun h => hR _ _ h
  | look k ih => exact fun h s' hs' => ⟨(h s' hs').1, ih _ (h s' hs').2⟩
  | step f next onError ihn ihe =>
    intro s t h s' hs'
    obtain ⟨hr, hk, hrf, hn, he, hef⟩ := h s' hs'
    exact ⟨hR _ _ hr, hk, hR _ _ hrf, ihn hn, ihe he, ihe hef⟩

theorem Alike.bind {p : Program σ ε α} {g : α → Program σ ε β} {Q : β → σ → σ → Prop} :
    ∀ {s t}, Alike G K R p (fun a s t => Alike G K R (g a) Q s t) s t →
      Alike G K R (p >>= g) Q s t := by
  show ∀ {s t}, _ → Alike G K R (Program.bind p g) Q s t
  induction p with
  | ret a => exact fun h => h
  | fail e => exact fun h => h
  | look k ih =>
    intro s t h s' hs'
    obtain ⟨hsame, hnext⟩ := h s' hs'
    exact ⟨congrArg (fun q => Program.bind q g) hsame, ih t hnext⟩
  | step f next onError ihn ihe =>
    intro s t h s' hs'
    obtain ⟨hr, hk, hrf, hn, he, hef⟩ := h s' hs'
    exact ⟨hr, hk, hrf, ihn hn, ihe he, ihe hef⟩

/-- A read, whose answer others may have changed. -/
theorem alike_read {g : σ → Program σ ε β} {Q : β → σ → σ → Prop}
    (h : ∀ s', G s s' → g s' = g t ∧ Alike G K R (g t) Q s' t) :
    Alike G K R (read >>= g) Q s t := h

theorem alike_ofExcept {x : Except ε α} {Q : α → σ → σ → Prop} (hQ : ∀ a, x = .ok a → Q a s t)
    (hR : R s t) : Alike G K R (ofExcept x) Q s t := by
  cases x with
  | ok a => exact hQ a rfl
  | error e => exact hR

theorem alike_durable {e : ε} {f : σ → σ} {Q : Unit → σ → σ → Prop}
    (h : ∀ s', G s s' → R s' t ∧ K s' (f s') ∧ R (f s') (f t) ∧ Q () (f s') (f t)) :
    Alike G K R (durable e f) Q s t := by
  intro s' hs'
  obtain ⟨hr, hk, hrf, hq⟩ := h s' hs'
  exact ⟨hr, hk, hrf, hq, hr, hrf⟩

/-- The loop rule. -/
theorem alike_foldlM {I : List ι → β → σ → σ → Prop} {g : β → ι → Program σ ε β}
    (hstep : ∀ x xs b s t, I (x :: xs) b s t →
      Alike G K R (g b x) (fun b' s' t' => I xs b' s' t') s t) :
    ∀ xs b s t, I xs b s t →
      Alike G K R (xs.foldlM g b) (fun b' s' t' => I [] b' s' t') s t := by
  intro xs
  induction xs with
  | nil => exact fun b s t h => h
  | cons x xs ih =>
    intro b s t h
    rw [List.foldlM_cons]
    exact Alike.bind ((hstep x xs b s t h).mono (fun b' s' t' h' => ih b' s' t' h')
      (fun _ _ h => h))

/-- A call that changes nothing, on a store that nobody changes. -/
theorem ReadOnly.alike {p : Program σ ε α} {Q : α → σ → σ → Prop} (hp : p.ReadOnly)
    (hG : ∀ s', G s s' → s' = s) (hK : K s s) (hR : R s s)
    (hQ : p.wp (fun a _ => Q a s s) (fun _ _ => True) (fun _ => True) s) :
    Alike G K R p Q s s := by
  induction p with
  | ret a => exact hQ
  | fail e => exact hR
  | look k ih =>
    intro s' hs'
    rw [hG s' hs']
    exact ⟨rfl, ih s (hp s) hQ⟩
  | step f next onError ihn ihe =>
    intro s' hs'
    obtain ⟨hf, hn, he⟩ := hp
    obtain ⟨-, -, hwn, hwe, -⟩ := hQ
    rw [hG s' hs']
    rw [hf s] at hwn ⊢
    exact ⟨hR, hK, hR, ihn hn hwn, ihe he hwe, ihe he hwe⟩

end Alike

/-! ## Calls that cannot tell -/

/-- The call reads the same from stores that `S` relates and keeps them related; its steps are
of the kind `K` and keep `I`, and every value that it returns has the property `P`. -/
def Blind (S K : σ → σ → Prop) (I : σ → Prop) (P : α → Prop) : Program σ ε α → Prop
  | ret a => P a
  | fail _ => True
  | look k => ∀ s, Blind S K I P (k s) ∧ ∀ t, S s t → k s = k t
  | step f next onError => (∀ s, I s → I (f s)) ∧ (∀ s, K s (f s)) ∧
      (∀ s t, S s t → S (f s) (f t)) ∧ Blind S K I P next ∧ Blind S K I P onError

section Blind

variable {G S K : σ → σ → Prop} {I : σ → Prop} {P : α → Prop} {P' : β → Prop}

/-- A call that cannot tell related stores apart does the same from both. -/
theorem Blind.alike {p : Program σ ε α} (hp : p.Blind S K I P)
    (hG : ∀ s s' t, S s t → G s s' → S s' t) {s t : σ} (hs : S s t) (ht : I t) :
    Alike G K (fun s t => S s t ∧ I t) p (fun a s t => P a ∧ S s t ∧ I t) s t := by
  induction p generalizing s t with
  | ret a => exact ⟨hp, hs, ht⟩
  | fail e => exact ⟨hs, ht⟩
  | look k ih =>
    intro s' hs'
    have hrel := hG s s' t hs hs'
    exact ⟨(hp s').2 t hrel, ih t (hp t).1 hrel ht⟩
  | step f next onError ihn ihe =>
    intro s' hs'
    obtain ⟨hI, hK, hS, hn, he⟩ := hp
    have hrel := hG s s' t hs hs'
    exact ⟨⟨hrel, ht⟩, hK s', ⟨hS s' t hrel, hI t ht⟩, ihn hn (hS s' t hrel) (hI t ht),
      ihe he hrel ht, ihe he (hS s' t hrel) (hI t ht)⟩

theorem Blind.bind {p : Program σ ε α} {g : α → Program σ ε β} (hp : p.Blind S K I P)
    (hg : ∀ a, P a → (g a).Blind S K I P') : (p >>= g).Blind S K I P' := by
  show (Program.bind p g).Blind S K I P'
  induction p with
  | ret a => exact hg a hp
  | fail e => trivial
  | look k ih =>
    exact fun s => ⟨ih s (hp s).1, fun t ht => congrArg (fun q => Program.bind q g) ((hp s).2 t ht)⟩
  | step f next onError ihn ihe =>
    obtain ⟨hI, hK, hS, hn, he⟩ := hp
    exact ⟨hI, hK, hS, ihn hn, ihe he⟩

theorem blind_read {g : σ → Program σ ε β} (hg : ∀ s, (g s).Blind S K I P')
    (hS : ∀ s t, S s t → g s = g t) : (read >>= g).Blind S K I P' := fun s => ⟨hg s, hS s⟩

theorem blind_ofExcept {x : Except ε α} (hP : ∀ a, x = .ok a → P a) :
    (ofExcept x : Program σ ε α).Blind S K I P := by
  cases x with
  | ok a => exact hP a rfl
  | error e => trivial

theorem blind_durable {e : ε} {f : σ → σ} {P : Unit → Prop} (hI : ∀ s, I s → I (f s))
    (hK : ∀ s, K s (f s)) (hS : ∀ s t, S s t → S (f s) (f t)) (hP : P ()) :
    (durable e f).Blind S K I P := ⟨hI, hK, hS, hP, trivial⟩

theorem blind_attempt {e : ε} {P : Unit → Prop} (hK : ∀ s, K s s) (hP : P ()) :
    (attempt e : Program σ ε Unit).Blind S K I P :=
  blind_durable (fun _ h => h) hK (fun _ _ h => h) hP

theorem blind_forM {g : ι → Program σ ε PUnit} (xs : List ι)
    (hg : ∀ x ∈ xs, (g x).Blind S K I fun _ => True) :
    (xs.forM g).Blind S K I fun _ => True := by
  induction xs with
  | nil => trivial
  | cons x xs ih =>
    rw [List.forM_eq_forM, List.forM_cons]
    exact Blind.bind (hg x (List.mem_cons_self ..)) fun _ _ =>
      ih fun y hy => hg y (List.mem_cons_of_mem _ hy)

theorem blind_foldlM {g : β → ι → Program σ ε β} (hg : ∀ b x, P' b → (g b x).Blind S K I P')
    (xs : List ι) {b : β} (hb : P' b) : (xs.foldlM g b).Blind S K I P' := by
  induction xs generalizing b with
  | nil => exact hb
  | cons x xs ih =>
    rw [List.foldlM_cons]
    exact Blind.bind (hg b x hb) fun b' hb' => ih hb'

end Blind

end Program

/-! ## Sessions beside an environment -/

namespace Session

variable {σ ε α ι : Type}

/-- One call of a session, with the changes by others and the faults that it meets. -/
structure Visit (ι σ : Type) where
  call : ι
  changes : List (σ → σ)
  faults : List Fault

def Visit.undisturbed (v : Visit ι σ) : Visit ι σ := { v with changes := [] }

/-- How the calls of a session end, and the store after it. -/
def observe (calls : ι → Program σ ε α) : List (Visit ι σ) → σ → List (Outcome ε α) × σ
  | [], s => ([], s)
  | v :: vs, s =>
      let result := (calls v.call).runAmong v.changes v.faults s
      let rest := observe calls vs result.2
      (result.1 :: rest.1, rest.2)

/-- Along the session, every change by others during the call `i` is of the kind `G i`, and
every step of a call of the kind `K`. -/
def Along (calls : ι → Program σ ε α) (G : ι → σ → σ → Prop) (K : σ → σ → Prop) :
    List (Visit ι σ) → σ → Prop
  | [], _ => True
  | v :: vs, s => (calls v.call).Along (G v.call) K v.changes v.faults s ∧
      Along calls G K vs ((calls v.call).runAmong v.changes v.faults s).2

/-- **A session whose calls do the same from related stores is not disturbed**: every call ends
as it does in the session that nobody disturbs. -/
theorem observe_alike {calls : ι → Program σ ε α} {G : ι → σ → σ → Prop} {K R : σ → σ → Prop}
    (hcall : ∀ i s t, R s t → Program.Alike (G i) K R (calls i) (fun _ => R) s t)
    (vs : List (Visit ι σ)) {s t : σ} (hs : R s t)
    (hal : Along calls G (fun _ _ => True) vs s) :
    (observe calls vs s).1 = (observe calls (vs.map Visit.undisturbed) t).1 ∧
      R (observe calls vs s).2 (observe calls (vs.map Visit.undisturbed) t).2 ∧
      Along calls (fun _ _ _ => True) K vs s := by
  induction vs generalizing s t with
  | nil => exact ⟨rfl, hs, trivial⟩
  | cons v vs ih =>
    have hend := (hcall v.call s t hs).run hal.1
    have hrest := ih hend.2.1 hal.2
    have hundisturbed : (calls v.undisturbed.call).runAmong v.undisturbed.changes
        v.undisturbed.faults t = (calls v.call).run v.faults t := Program.runAmong_nil _ _ _
    simp only [List.map_cons, observe, hundisturbed]
    exact ⟨by rw [hend.1, hrest.1], hrest.2.1, hend.2.2, hrest.2.2⟩

end Session

end DshNexus.Durable
