import Mathlib.Data.List.Nodup
import DshNexus.Agent.Canary

/-!
# The delta search of the Canary checker

`canarySearch` of `crates/nexus-agent/src/compatibility.mjs`: after the full list has failed and the
empty one has passed, the suspects are cut into chunks, and each chunk and each complement of a
chunk is run until one of them fails and becomes the new list of suspects.  When none fails the
chunks are made smaller.

1. The search, with an oracle that may answer differently in each round.
2. `tryChunks_shows`: what one pass over the chunks adds to the rounds.
3. `Inv`: what the rounds say of the suspects, at any time of the search.
4. `canary_search_minimal`: the suspects of a search that ended within its budget.

The oracle is a function of the number of the round, so an oracle that looks at all earlier rounds
is covered: a run asks it once in each round.
-/

namespace DshNexus.Agent.Canary.DeltaSearch

/-! ## 1. The search -/

/-- `Math.ceil(n / k)`. -/
def ceilDiv (n k : Nat) : Nat := (n + k - 1) / k

/-- What `canarySearch` returns. -/
structure SearchReport (β : Type) where
  outcome : CanaryOutcome
  rounds : List (CanaryRound β)
  suspectCombination : List β
  reason : Option String
  deriving DecidableEq, Repr

inductive Pass (β : Type) where
  | stopped (rounds : List (CanaryRound β))
  | reduced (chunk : List β) (rounds : List (CanaryRound β))
  | exhausted (rounds : List (CanaryRound β))
  deriving DecidableEq, Repr

structure Narrowing (β : Type) where
  selected : List β
  width : Nat
  rounds : List (CanaryRound β)
  width_pos : 0 < width

/-- How the loop ends: with `stopped` the search returns from inside of it. -/
structure Narrowed (β : Type) where
  selected : List β
  rounds : List (CanaryRound β)
  stopped : Bool
  deriving DecidableEq, Repr

section Search

variable {β : Type} [DecidableEq β] (test : Nat → List β → CanaryOutcome) (limit : Nat)

omit [DecidableEq β] in
/-- The inner function `run`: no round when the budget is used up. -/
def run (rounds : List (CanaryRound β)) (enabled : List β) :
    Option CanaryOutcome × List (CanaryRound β) :=
  if limit ≤ rounds.length then (none, rounds)
  else (some (test rounds.length enabled), rounds ++ [⟨enabled, test rounds.length enabled⟩])

/-- The chunks of a pass, and after them their complements. -/
def trials (selected : List β) (width : Nat) : List (List β) :=
  let size := ceilDiv selected.length width
  let chunks := (List.range (ceilDiv selected.length size)).map fun i =>
    (selected.drop (i * size)).take size
  chunks ++ chunks.map fun chunk => selected.filter (· ∉ chunk)

omit [DecidableEq β] in
def tryChunks (selected : List β) : List (List β) → List (CanaryRound β) → Pass β
  | [], rounds => .exhausted rounds
  | chunk :: chunks, rounds =>
      if chunk = [] ∨ chunk.length = selected.length then tryChunks selected chunks rounds
      else
        match run test limit rounds chunk with
        | (none, rounds) => .stopped rounds
        | (some .inconclusive, rounds) => .stopped rounds
        | (some .failed, rounds) => .reduced chunk rounds
        | (some .passed, rounds) => tryChunks selected chunks rounds

/-! ## 2. One pass -/

section Pass

variable {test : Nat → List β → CanaryOutcome} {limit : Nat}

variable (test limit) in
omit [DecidableEq β] in
theorem run_eq (rounds : List (CanaryRound β)) (enabled : List β) :
    (limit ≤ rounds.length ∧ run test limit rounds enabled = (none, rounds)) ∨
    (rounds.length < limit ∧ run test limit rounds enabled =
      (some (test rounds.length enabled),
        rounds ++ [⟨enabled, test rounds.length enabled⟩])) := by
  by_cases hbudget : limit ≤ rounds.length
  · exact Or.inl ⟨hbudget, by rw [run, if_pos hbudget]⟩
  · exact Or.inr ⟨by omega, by rw [run, if_neg hbudget]⟩

/-- The rounds so far are within the budget, and each is an answer of the oracle. -/
structure Recorded (test : Nat → List β → CanaryOutcome) (limit : Nat)
    (rounds : List (CanaryRound β)) : Prop where
  bound : rounds.length ≤ limit
  observed : ∀ i r, rounds[i]? = some r → r.outcome = test i r.enabledBundles

variable (test limit) in
omit [DecidableEq β] in
theorem recorded_nil : Recorded test limit ([] : List (CanaryRound β)) :=
  ⟨Nat.zero_le _, fun i r h => by simp at h⟩

omit [DecidableEq β] in
theorem Recorded.run {rounds : List (CanaryRound β)} (h : Recorded test limit rounds)
    (enabled : List β) : Recorded test limit (run test limit rounds enabled).2 := by
  rcases run_eq test limit rounds enabled with ⟨-, hrun⟩ | ⟨hbudget, hrun⟩
  · rw [hrun]
    exact h
  · rw [hrun]
    refine ⟨?_, fun i r hr => ?_⟩
    · rw [List.length_append, List.length_singleton]
      omega
    · rcases Nat.lt_trichotomy i rounds.length with hlt | heq | hgt
      · rw [List.getElem?_append_left hlt] at hr
        exact h.observed i r hr
      · rw [heq, List.getElem?_concat_length] at hr
        obtain rfl := Option.some.inj hr
        rw [heq]
      · rw [List.getElem?_eq_none (by simp; omega)] at hr
        cases hr

def Pass.rounds : Pass β → List (CanaryRound β)
  | .stopped rounds => rounds
  | .reduced _ rounds => rounds
  | .exhausted rounds => rounds

/-- What the rounds of a pass show: a list that fails, or that every list passes. -/
def Pass.Shows (selected : List β) (chunks : List (List β)) (added : List (CanaryRound β)) :
    Pass β → Prop
  | .stopped _ => True
  | .reduced chunk _ => chunk ∈ chunks ∧ chunk ≠ [] ∧ ⟨chunk, .failed⟩ ∈ added
  | .exhausted _ => ∀ chunk ∈ chunks, chunk ≠ [] → chunk.length ≠ selected.length →
      ⟨chunk, .passed⟩ ∈ added

omit [DecidableEq β] in
theorem Pass.Shows.cons {selected chunk : List β} {chunks : List (List β)}
    {added : List (CanaryRound β)} {round : CanaryRound β} {pass : Pass β}
    (h : pass.Shows selected chunks added)
    (hchunk : chunk ≠ [] → chunk.length ≠ selected.length → round = ⟨chunk, .passed⟩) :
    pass.Shows selected (chunk :: chunks) (round :: added) := by
  cases pass with
  | stopped rounds => trivial
  | reduced chunk' rounds =>
    obtain ⟨hmem, hne, hfailed⟩ := h
    exact ⟨List.mem_cons_of_mem _ hmem, hne, List.mem_cons_of_mem _ hfailed⟩
  | exhausted rounds =>
    intro chunk' hmem hne hlen
    rcases List.mem_cons.mp hmem with rfl | hmem
    · rw [hchunk hne hlen]
      exact List.mem_cons_self
    · exact List.mem_cons_of_mem _ (h chunk' hmem hne hlen)

omit [DecidableEq β] in
theorem Pass.Shows.skip {selected chunk : List β} {chunks : List (List β)}
    {added : List (CanaryRound β)} {pass : Pass β} (h : pass.Shows selected chunks added)
    (hchunk : chunk = [] ∨ chunk.length = selected.length) :
    pass.Shows selected (chunk :: chunks) added := by
  cases pass with
  | stopped rounds => trivial
  | reduced chunk' rounds => exact ⟨List.mem_cons_of_mem _ h.1, h.2⟩
  | exhausted rounds =>
    intro chunk' hmem hne hlen
    rcases List.mem_cons.mp hmem with rfl | hmem
    · rcases hchunk with hnil | hfull
      · exact absurd hnil hne
      · exact absurd hfull hlen
    · exact h chunk' hmem hne hlen

variable (test limit) in
omit [DecidableEq β] in
/-- **One pass** adds rounds, and they show what its end says. -/
theorem tryChunks_shows (selected : List β) (chunks : List (List β))
    (rounds : List (CanaryRound β)) :
    ∃ added, (tryChunks test limit selected chunks rounds).rounds = rounds ++ added ∧
      (tryChunks test limit selected chunks rounds).Shows selected chunks added := by
  induction chunks generalizing rounds with
  | nil => exact ⟨[], (List.append_nil _).symm, fun chunk hmem => absurd hmem List.not_mem_nil⟩
  | cons chunk chunks ih =>
    by_cases hskip : chunk = [] ∨ chunk.length = selected.length
    · rw [tryChunks, if_pos hskip]
      obtain ⟨added, hadded, hshows⟩ := ih rounds
      exact ⟨added, hadded, hshows.skip hskip⟩
    · rw [tryChunks, if_neg hskip]
      rw [not_or] at hskip
      rcases run_eq test limit rounds chunk with ⟨-, hrun⟩ | ⟨-, hrun⟩
      · rw [hrun]
        exact ⟨[], (List.append_nil _).symm, trivial⟩
      · rw [hrun]
        cases houtcome : test rounds.length chunk with
        | failed => exact ⟨_, rfl, List.mem_cons_self, hskip.1, List.mem_singleton_self _⟩
        | inconclusive => exact ⟨_, rfl, trivial⟩
        | passed =>
          obtain ⟨added, hadded, hshows⟩ := ih (rounds ++ [⟨chunk, .passed⟩])
          refine ⟨⟨chunk, .passed⟩ :: added, ?_, hshows.cons fun _ _ => rfl⟩
          rw [hadded, List.append_assoc, List.singleton_append]

omit [DecidableEq β] in
theorem Recorded.tryChunks (selected : List β) (chunks : List (List β))
    {rounds : List (CanaryRound β)} (h : Recorded test limit rounds) :
    Recorded test limit (tryChunks test limit selected chunks rounds).rounds := by
  induction chunks generalizing rounds with
  | nil => exact h
  | cons chunk chunks ih =>
    by_cases hskip : chunk = [] ∨ chunk.length = selected.length
    · rw [DeltaSearch.tryChunks, if_pos hskip]
      exact ih h
    · rw [DeltaSearch.tryChunks, if_neg hskip]
      have hnext := h.run chunk
      rcases run_eq test limit rounds chunk with ⟨-, hrun⟩ | ⟨-, hrun⟩
      · rw [hrun]
        exact h
      · rw [hrun] at hnext ⊢
        cases houtcome : test rounds.length chunk with
        | failed =>
          rw [houtcome] at hnext
          exact hnext
        | inconclusive =>
          rw [houtcome] at hnext
          exact hnext
        | passed =>
          rw [houtcome] at hnext
          exact ih hnext

omit [DecidableEq β] in
theorem length_lt_of_reduced {selected chunk : List β} {chunks : List (List β)}
    {rounds rounds' : List (CanaryRound β)}
    (h : tryChunks test limit selected chunks rounds = .reduced chunk rounds') :
    rounds.length < rounds'.length := by
  obtain ⟨added, hadded, hshows⟩ := tryChunks_shows test limit selected chunks rounds
  rw [h] at hadded hshows
  obtain ⟨-, -, hfailed⟩ := hshows
  have hpos := List.length_pos_of_mem hfailed
  change rounds' = rounds ++ added at hadded
  rw [hadded, List.length_append]
  omega

omit [DecidableEq β] in
theorem length_le_of_exhausted {selected : List β} {chunks : List (List β)}
    {rounds rounds' : List (CanaryRound β)}
    (h : tryChunks test limit selected chunks rounds = .exhausted rounds') :
    rounds.length ≤ rounds'.length := by
  obtain ⟨added, hadded, -⟩ := tryChunks_shows test limit selected chunks rounds
  rw [h] at hadded
  change rounds' = rounds ++ added at hadded
  rw [hadded, List.length_append]
  omega

end Pass

def narrow (s : Narrowing β) : Narrowed β :=
  if hloop : 1 < s.selected.length ∧ s.rounds.length < limit - 1 then
    match hpass : tryChunks test limit s.selected (trials s.selected s.width) s.rounds with
    | .stopped rounds => ⟨s.selected, rounds, true⟩
    | .reduced chunk rounds => narrow ⟨chunk, 2, rounds, Nat.zero_lt_two⟩
    | .exhausted rounds =>
        if hwidth : s.selected.length ≤ s.width then ⟨s.selected, rounds, false⟩
        else
          narrow ⟨s.selected, min s.selected.length (s.width * 2), rounds, by
            have hpos := s.width_pos
            omega⟩
  else ⟨s.selected, s.rounds, false⟩
termination_by (limit - s.rounds.length, s.selected.length - s.width)
decreasing_by
  · have hmore := length_lt_of_reduced hpass
    exact Prod.Lex.left _ _ (by omega)
  · have hmore := length_le_of_exhausted hpass
    have hpos := s.width_pos
    rcases Nat.lt_or_eq_of_le hmore with hlt | heq
    · exact Prod.Lex.left _ _ (by omega)
    · rw [← heq]
      exact Prod.Lex.right _ (by omega)

def canarySearch (candidates : List β) (mode : CanaryMode) : SearchReport β :=
  match run test limit [] candidates with
  | (original, rounds) =>
      if original ≠ some .failed ∨ mode = .diagnosticOnly then
        ⟨original.getD .inconclusive, rounds, [], none⟩
      else
        match run test limit rounds [] with
        | (baseline, rounds) =>
            if baseline ≠ some .passed then
              ⟨.inconclusive, rounds, [], some
                "The baseline also failed or could not be verified."⟩
            else
              let last := narrow test limit ⟨candidates, 2, rounds, Nat.zero_lt_two⟩
              if last.stopped = true then
                ⟨.inconclusive, last.rounds, last.selected, some
                  "The execution budget or a probe limitation prevented attribution."⟩
              else
                match run test limit last.rounds last.selected with
                | (confirmed, rounds) =>
                    ⟨if confirmed = some .failed then .failed else .inconclusive, rounds,
                      last.selected, some ("A reproduced combination is evidence of a conflict, " ++
                        "not proof that one plugin is defective.")⟩

/-! ## 3. What the rounds say of the suspects -/

section Result

variable {test : Nat → List β → CanaryOutcome} {limit : Nat}

theorem sublist_of_mem_trials {selected chunk : List β} {width : Nat}
    (h : chunk ∈ trials selected width) : chunk.Sublist selected := by
  rw [trials, List.mem_append] at h
  rcases h with h | h
  · obtain ⟨i, -, rfl⟩ := List.mem_map.mp h
    exact (List.take_sublist _ _).trans (List.drop_sublist _ _)
  · obtain ⟨chunk', -, rfl⟩ := List.mem_map.mp h
    exact List.filter_sublist

theorem ceilDiv_of_le {n width : Nat} (hn : 0 < n) (h : n ≤ width) : ceilDiv n width = 1 := by
  unfold ceilDiv
  apply Nat.div_eq_of_lt_le
  · omega
  · omega

theorem ceilDiv_one (n : Nat) : ceilDiv n 1 = n := by
  unfold ceilDiv
  rw [Nat.div_one]
  omega

theorem eraseIdx_mem_trials {selected : List β} {width m : Nat} (hdistinct : selected.Nodup)
    (hm : m < selected.length) (hwidth : selected.length ≤ width) :
    selected.eraseIdx m ∈ trials selected width := by
  have hsize : ceilDiv selected.length width = 1 := ceilDiv_of_le (by omega) hwidth
  have hchunk : (selected.drop (m * 1)).take 1 = [selected[m]] := by
    rw [Nat.mul_one, List.drop_eq_getElem_cons hm]
    rfl
  rw [trials, hsize, ceilDiv_one, List.mem_append]
  refine Or.inr (List.mem_map.mpr ⟨[selected[m]], ?_, ?_⟩)
  · exact List.mem_map.mpr ⟨m, List.mem_range.mpr hm, hchunk⟩
  · rw [eraseIdx_eq_filter hdistinct hm]
    refine List.filter_congr fun x hx => ?_
    by_cases heq : x = selected[m] <;> simp [heq]

/-- The list without one element was run after the whole list had failed, and passed. -/
def RemovalPassed (rounds : List (CanaryRound β)) (selected : List β) (m : Nat) : Prop :=
  ∃ i j : Nat, i < j ∧ rounds[i]? = some ⟨selected, .failed⟩ ∧
    rounds[j]? = some ⟨selected.eraseIdx m, .passed⟩

omit [DecidableEq β] in
theorem RemovalPassed.append {rounds : List (CanaryRound β)} {selected : List β} {m : Nat}
    (h : RemovalPassed rounds selected m) (more : List (CanaryRound β)) :
    RemovalPassed (rounds ++ more) selected m := by
  obtain ⟨i, j, hij, hi, hj⟩ := h
  refine ⟨i, j, hij, ?_, ?_⟩
  · rw [List.getElem?_append_left (List.getElem?_eq_some_iff.mp hi).1]
    exact hi
  · rw [List.getElem?_append_left (List.getElem?_eq_some_iff.mp hj).1]
    exact hj

/-- What holds of the suspects and the rounds at any time of the search. -/
structure Inv (test : Nat → List β → CanaryOutcome) (limit : Nat) (candidates selected : List β)
    (rounds : List (CanaryRound β)) : Prop where
  recorded : Recorded test limit rounds
  full : rounds[0]? = some ⟨candidates, .failed⟩
  empty : rounds[1]? = some ⟨[], .passed⟩
  sublist : selected.Sublist candidates
  failed : ⟨selected, .failed⟩ ∈ rounds

variable {candidates selected chunk : List β} {rounds rounds' added : List (CanaryRound β)}

omit [DecidableEq β] in
theorem Inv.append (h : Inv test limit candidates selected rounds)
    (hrecorded : Recorded test limit (rounds ++ added)) :
    Inv test limit candidates selected (rounds ++ added) where
  recorded := hrecorded
  full := by
    rw [List.getElem?_append_left (List.getElem?_eq_some_iff.mp h.full).1]
    exact h.full
  empty := by
    rw [List.getElem?_append_left (List.getElem?_eq_some_iff.mp h.empty).1]
    exact h.empty
  sublist := h.sublist
  failed := List.mem_append_left _ h.failed

theorem Inv.reduced {width : Nat} (h : Inv test limit candidates selected rounds)
    (hpass : tryChunks test limit selected (trials selected width) rounds =
      .reduced chunk rounds') : Inv test limit candidates chunk rounds' := by
  have hrecorded := h.recorded.tryChunks selected (trials selected width)
  obtain ⟨added, hadded, hshows⟩ := tryChunks_shows test limit selected (trials selected width) rounds
  rw [hpass] at hrecorded hadded hshows
  obtain ⟨hmem, -, hfailed⟩ := hshows
  obtain rfl : rounds' = rounds ++ added := hadded
  obtain ⟨hrecorded, hfull, hempty, -, -⟩ := h.append hrecorded
  exact ⟨hrecorded, hfull, hempty, (sublist_of_mem_trials hmem).trans h.sublist,
    List.mem_append_right _ hfailed⟩

theorem Inv.exhausted {width : Nat} (h : Inv test limit candidates selected rounds)
    (hdistinct : candidates.Nodup) (hmany : 1 < selected.length)
    (hpass : tryChunks test limit selected (trials selected width) rounds = .exhausted rounds') :
    Inv test limit candidates selected rounds' ∧
      (selected.length ≤ width → ∀ m < selected.length, RemovalPassed rounds' selected m) := by
  have hrecorded := h.recorded.tryChunks selected (trials selected width)
  obtain ⟨added, hadded, hshows⟩ := tryChunks_shows test limit selected (trials selected width) rounds
  rw [hpass] at hrecorded hadded hshows
  obtain rfl : rounds' = rounds ++ added := hadded
  refine ⟨h.append hrecorded, fun hwidth m hm => ?_⟩
  have hlen : (selected.eraseIdx m).length = selected.length - 1 := by
    rw [List.length_eraseIdx, if_pos hm]
  have hpassed : ⟨selected.eraseIdx m, .passed⟩ ∈ added := by
    refine hshows _ (eraseIdx_mem_trials (hdistinct.sublist h.sublist) hm hwidth) ?_ ?_
    · exact List.ne_nil_of_length_pos (by omega)
    · omega
  obtain ⟨i, hi, hfailed⟩ := List.getElem_of_mem h.failed
  obtain ⟨j, hj, hpassed⟩ := List.getElem_of_mem hpassed
  refine ⟨i, rounds.length + j, by omega, ?_, ?_⟩
  · rw [List.getElem?_append_left hi, List.getElem?_eq_getElem hi, hfailed]
  · rw [List.getElem?_append_right (by omega), Nat.add_sub_cancel_left,
      List.getElem?_eq_getElem hj, hpassed]

/-- **The loop** keeps the invariant, and unless it stops the search it ends with one suspect at
most, with every removal passed, or with the budget but one used up. -/
theorem inv_narrow (hdistinct : candidates.Nodup) (s : Narrowing β)
    (h : Inv test limit candidates s.selected s.rounds) :
    Inv test limit candidates (narrow test limit s).selected (narrow test limit s).rounds ∧
      ((narrow test limit s).stopped = false →
        (narrow test limit s).selected.length ≤ 1 ∨
        (∀ m < (narrow test limit s).selected.length,
          RemovalPassed (narrow test limit s).rounds (narrow test limit s).selected m) ∨
        limit - 1 ≤ (narrow test limit s).rounds.length) := by
  fun_induction narrow test limit s with
  | case1 s hloop rounds hpass =>
    have hrecorded := h.recorded.tryChunks s.selected (trials s.selected s.width)
    obtain ⟨added, hadded, -⟩ := tryChunks_shows test limit s.selected (trials s.selected s.width)
      s.rounds
    rw [hpass] at hrecorded hadded
    obtain rfl : rounds = s.rounds ++ added := hadded
    exact ⟨h.append hrecorded, fun hstopped => absurd hstopped (by simp)⟩
  | case2 s hloop chunk rounds hpass ih => exact ih (h.reduced hpass)
  | case3 s hloop rounds hpass hwidth =>
    obtain ⟨hinv, hremovals⟩ := h.exhausted hdistinct hloop.1 hpass
    exact ⟨hinv, fun _ => Or.inr (Or.inl (hremovals hwidth))⟩
  | case4 s hloop rounds hpass hwidth ih => exact ih (h.exhausted hdistinct hloop.1 hpass).1
  | case5 s hloop =>
    refine ⟨h, fun _ => ?_⟩
    by_cases hmany : 1 < s.selected.length
    · have hbudget : limit - 1 ≤ s.rounds.length := by omega
      exact Or.inr (Or.inr hbudget)
    · exact Or.inl (Nat.le_of_not_lt hmany)

/-! ## 4. The suspects of a search -/

omit [DecidableEq β] in
theorem run_eq_some {outcome : CanaryOutcome} {enabled : List β}
    (h : run test limit rounds enabled = (some outcome, rounds')) :
    rounds.length < limit ∧ rounds' = rounds ++ [⟨enabled, outcome⟩] := by
  rcases run_eq test limit rounds enabled with ⟨-, hrun⟩ | ⟨hbudget, hrun⟩
  · rw [hrun] at h
    cases h
  · rw [hrun] at h
    obtain ⟨houtcome, hrounds⟩ := Prod.mk.inj h
    rw [Option.some.inj houtcome] at hrounds
    exact ⟨hbudget, hrounds.symm⟩

omit [DecidableEq β] in
theorem inv_first {rounds₁ rounds₂ : List (CanaryRound β)}
    (hfull : run test limit [] candidates = (some .failed, rounds₁))
    (hempty : run test limit rounds₁ [] = (some .passed, rounds₂)) :
    Inv test limit candidates candidates rounds₂ := by
  have hrecorded := ((recorded_nil test limit).run candidates).run []
  rw [hfull, hempty] at hrecorded
  obtain ⟨-, rfl⟩ := run_eq_some hfull
  obtain ⟨-, rfl⟩ := run_eq_some hempty
  exact ⟨hrecorded, rfl, rfl, .refl _, List.mem_cons_self⟩

/-- How a search ends. -/
theorem canarySearch_cases (hdistinct : candidates.Nodup) (mode : CanaryMode) :
    Recorded test limit (canarySearch test limit candidates mode).rounds ∧
      ((canarySearch test limit candidates mode).outcome = .failed → mode = .bisect →
        ∃ rounds, Inv test limit candidates
            (canarySearch test limit candidates mode).suspectCombination rounds ∧
          (canarySearch test limit candidates mode).rounds = rounds ++
            [⟨(canarySearch test limit candidates mode).suspectCombination, .failed⟩] ∧
          ((canarySearch test limit candidates mode).suspectCombination.length ≤ 1 ∨
            (∀ m < (canarySearch test limit candidates mode).suspectCombination.length,
              RemovalPassed rounds
                (canarySearch test limit candidates mode).suspectCombination m) ∨
            limit - 1 ≤ rounds.length)) := by
  have hrecorded₁ := (recorded_nil test limit).run candidates
  unfold canarySearch
  rcases hfull : run test limit [] candidates with ⟨original, rounds₁⟩
  rw [hfull] at hrecorded₁
  have hrecorded₂ := hrecorded₁.run []
  dsimp only
  split
  · next hstop =>
    refine ⟨hrecorded₁, fun hfailed hmode => ?_⟩
    rcases hstop with hother | hdiagnostic
    · cases original with
      | none => cases hfailed
      | some outcome => exact absurd (congrArg some hfailed) hother
    · rw [hmode] at hdiagnostic
      cases hdiagnostic
  · next hgo =>
    rw [not_or, not_not] at hgo
    obtain rfl := hgo.1
    rcases hempty : run test limit rounds₁ [] with ⟨baseline, rounds₂⟩
    rw [hempty] at hrecorded₂
    dsimp only
    split
    · exact ⟨hrecorded₂, fun hfailed => by cases hfailed⟩
    · next hpassed =>
      rw [not_not] at hpassed
      obtain rfl := hpassed
      obtain ⟨hinv, hend⟩ := inv_narrow hdistinct ⟨candidates, 2, rounds₂, Nat.zero_lt_two⟩
        (inv_first hfull hempty)
      split
      · exact ⟨hinv.recorded, fun hfailed => by cases hfailed⟩
      · next hstopped =>
        rw [Bool.not_eq_true] at hstopped
        have hlast := hinv.recorded.run
          (narrow test limit ⟨candidates, 2, rounds₂, Nat.zero_lt_two⟩).selected
        rcases hconfirmed : run test limit
          (narrow test limit ⟨candidates, 2, rounds₂, Nat.zero_lt_two⟩).rounds
          (narrow test limit ⟨candidates, 2, rounds₂, Nat.zero_lt_two⟩).selected with
          ⟨confirmed, rounds₃⟩
        rw [hconfirmed] at hlast
        refine ⟨hlast, fun hfailed _ => ?_⟩
        dsimp only at hfailed
        split at hfailed
        · next heq =>
          rw [heq] at hconfirmed
          exact ⟨_, hinv, (run_eq_some hconfirmed).2, hend hstopped⟩
        · cases hfailed

end Result

/-- **The suspects of a delta search.**  A search makes at most `limit` rounds.  If it reports
"failed" in the mode `bisect`, then the full list failed, the empty list passed, the suspects are
candidates in their order and failed in the last round.  If moreover the budget was not used up,
each list that leaves out one of the suspects was run and passed: after the suspects had failed,
or, for a single suspect, as the empty list in the second round. -/
theorem canary_search_minimal (test : Nat → List β → CanaryOutcome) (limit : Nat)
    (candidates : List β) (hdistinct : candidates.Nodup) :
    (∀ mode, Recorded test limit (canarySearch test limit candidates mode).rounds) ∧
    ∀ report, canarySearch test limit candidates .bisect = report → report.outcome = .failed →
      report.rounds[0]? = some ⟨candidates, .failed⟩ ∧
      report.rounds[1]? = some ⟨[], .passed⟩ ∧
      report.suspectCombination.Sublist candidates ∧
      report.rounds.getLast? = some ⟨report.suspectCombination, .failed⟩ ∧
      (report.rounds.length < limit → ∀ m < report.suspectCombination.length,
        ⟨report.suspectCombination.eraseIdx m, .passed⟩ ∈ report.rounds ∧
          (1 < report.suspectCombination.length →
            RemovalPassed report.rounds report.suspectCombination m)) := by
  refine ⟨fun mode => (canarySearch_cases hdistinct mode).1, ?_⟩
  rintro report rfl hfailed
  obtain ⟨rounds, hinv, hrounds, hend⟩ :=
    (canarySearch_cases hdistinct .bisect).2 hfailed rfl
  rw [hrounds]
  have hrecorded : Recorded test limit (canarySearch test limit candidates .bisect).rounds :=
    (canarySearch_cases hdistinct .bisect).1
  rw [hrounds] at hrecorded
  have hall := hinv.append hrecorded
  refine ⟨hall.full, hall.empty, hall.sublist, List.getLast?_concat, fun hbudget m hm => ?_⟩
  rw [List.length_append, List.length_singleton] at hbudget
  rcases hend with hone | hremovals | hused
  · have hnil : (canarySearch test limit candidates .bisect).suspectCombination.eraseIdx m = [] := by
      rw [← List.length_eq_zero_iff, List.length_eraseIdx, if_pos hm]
      omega
    rw [hnil]
    exact ⟨List.mem_of_getElem? hall.empty, fun hmany => absurd hmany (by omega)⟩
  · have hremoval := (hremovals m hm).append
      [⟨(canarySearch test limit candidates .bisect).suspectCombination, .failed⟩]
    obtain ⟨-, j, -, -, hj⟩ := id hremoval
    exact ⟨List.mem_of_getElem? hj, fun _ => hremoval⟩
  · omega

section Equations

variable {test : Nat → List β → CanaryOutcome} {limit : Nat} {s : Narrowing β} {chunk : List β}
  {rounds : List (CanaryRound β)}

theorem narrow_of_done (hloop : ¬ (1 < s.selected.length ∧ s.rounds.length < limit - 1)) :
    narrow test limit s = ⟨s.selected, s.rounds, false⟩ := by
  rw [narrow, dif_neg hloop]

theorem narrow_of_reduced (hloop : 1 < s.selected.length ∧ s.rounds.length < limit - 1)
    (hpass : tryChunks test limit s.selected (trials s.selected s.width) s.rounds =
      .reduced chunk rounds) :
    narrow test limit s = narrow test limit ⟨chunk, 2, rounds, Nat.zero_lt_two⟩ := by
  rw [narrow, dif_pos hloop]
  split
  · next h => rw [hpass] at h; cases h
  · next h => rw [hpass] at h; obtain ⟨rfl, rfl⟩ := Pass.reduced.inj h; rfl
  · next h => rw [hpass] at h; cases h

theorem narrow_of_exhausted (hloop : 1 < s.selected.length ∧ s.rounds.length < limit - 1)
    (hpass : tryChunks test limit s.selected (trials s.selected s.width) s.rounds =
      .exhausted rounds) :
    narrow test limit s =
      if s.selected.length ≤ s.width then ⟨s.selected, rounds, false⟩
      else narrow test limit ⟨s.selected, min s.selected.length (s.width * 2), rounds, by
        have hpos := s.width_pos
        omega⟩ := by
  rw [narrow, dif_pos hloop]
  split
  · next h => rw [hpass] at h; cases h
  · next h => rw [hpass] at h; cases h
  · next h => rw [hpass] at h; obtain rfl := Pass.exhausted.inj h; split <;> rfl

theorem canarySearch_of_narrow {candidates : List β} {last : Narrowed β}
    (hfull : run test limit [] candidates = (some .failed, [⟨candidates, .failed⟩]))
    (hempty : run test limit [⟨candidates, .failed⟩] [] = (some .passed,
      [⟨candidates, .failed⟩, ⟨[], .passed⟩]))
    (hlast : narrow test limit ⟨candidates, 2, [⟨candidates, .failed⟩, ⟨[], .passed⟩],
      Nat.zero_lt_two⟩ = last) (hstopped : last.stopped = false)
    (hconfirmed : run test limit last.rounds last.selected = (some .failed, rounds)) :
    (canarySearch test limit candidates .bisect).outcome = .failed ∧
      (canarySearch test limit candidates .bisect).rounds = rounds ∧
      (canarySearch test limit candidates .bisect).suspectCombination = last.selected := by
  subst hlast
  unfold canarySearch
  rw [hfull]
  dsimp only
  rw [if_neg (by simp), hempty]
  dsimp only
  rw [if_neg (by simp), if_neg (by rw [hstopped]; simp), hconfirmed]
  exact ⟨rfl, rfl, rfl⟩

end Equations

end Search

/-! ## Two searches -/

/-- The harness fails when all of `culprits` are enabled. -/
def failsWith (culprits : List String) (_ : Nat) (enabled : List String) : CanaryOutcome :=
  if culprits.all (enabled.contains ·) = true then .failed else .passed

/-- Two of three plugins are in conflict: they are found, and each alone was seen to pass after
the two together had failed. -/
theorem canary_search_minimal_of_conflict :
    ∃ report, canarySearch (failsWith ["a", "c"]) 20 ["a", "b", "c"] .bisect = report ∧
      report.outcome = .failed ∧ report.rounds.length < 20 ∧
      report.suspectCombination = ["a", "c"] ∧
      RemovalPassed report.rounds ["a", "c"] 0 ∧ RemovalPassed report.rounds ["a", "c"] 1 := by
  have hlast : ∃ rounds, narrow (failsWith ["a", "c"]) 20 ⟨["a", "b", "c"], 2,
      [⟨["a", "b", "c"], .failed⟩, ⟨[], .passed⟩], Nat.zero_lt_two⟩ =
        ⟨["a", "c"], rounds, false⟩ ∧ rounds.length = 15 := by
    rw [narrow_of_exhausted (by decide) rfl, if_neg (by decide), narrow_of_reduced (by decide) rfl,
      narrow_of_exhausted (by decide) rfl, if_pos (by decide)]
    exact ⟨_, rfl, rfl⟩
  obtain ⟨rounds, hlast, hlength⟩ := hlast
  have hconfirmed : run (failsWith ["a", "c"]) 20 rounds ["a", "c"] =
      (some .failed, rounds ++ [⟨["a", "c"], .failed⟩]) := by
    rw [run, if_neg (by omega)]
    rfl
  obtain ⟨houtcome, hrounds, hsuspects⟩ := canarySearch_of_narrow rfl rfl hlast rfl hconfirmed
  obtain ⟨-, hminimal⟩ := canary_search_minimal (failsWith ["a", "c"]) 20 ["a", "b", "c"]
    (by decide)
  obtain ⟨-, -, -, -, hremovals⟩ := hminimal _ rfl houtcome
  have hbudget : (canarySearch (failsWith ["a", "c"]) 20 ["a", "b", "c"] .bisect).rounds.length <
      20 := by
    rw [hrounds, List.length_append, List.length_singleton, hlength]
    decide
  have hremovals := hremovals hbudget
  rw [hsuspects] at hremovals
  exact ⟨_, rfl, houtcome, hbudget, hsuspects, (hremovals 0 Nat.zero_lt_two).2 Nat.one_lt_two,
    (hremovals 1 Nat.one_lt_two).2 Nat.one_lt_two⟩

/-- One of two plugins fails alone: the empty list, which leaves it out, was run before it had
failed alone, and not again. -/
theorem empty_not_run_after_suspect :
    ∃ report, canarySearch (failsWith ["a"]) 20 ["a", "b"] .bisect = report ∧
      report.outcome = .failed ∧ report.rounds.length < 20 ∧
      report.suspectCombination = ["a"] ∧ ¬ RemovalPassed report.rounds ["a"] 0 := by
  have hlast : narrow (failsWith ["a"]) 20 ⟨["a", "b"], 2,
      [⟨["a", "b"], .failed⟩, ⟨[], .passed⟩], Nat.zero_lt_two⟩ =
        ⟨["a"], [⟨["a", "b"], .failed⟩, ⟨[], .passed⟩, ⟨["a"], .failed⟩], false⟩ := by
    rw [narrow_of_reduced (by decide) rfl, narrow_of_done (by decide)]
    rfl
  obtain ⟨houtcome, hrounds, hsuspects⟩ := canarySearch_of_narrow rfl rfl hlast rfl rfl
  refine ⟨_, rfl, houtcome, by rw [hrounds]; decide, hsuspects, ?_⟩
  rw [hrounds]
  rintro ⟨i, j, hij, hi, hj⟩
  rcases i with _ | _ | i
  · exact absurd hi (by decide)
  · exact absurd hi (by decide)
  · rcases j with _ | _ | _ | _ | j
    · omega
    · omega
    · exact absurd hj (by decide)
    · exact absurd hj (by decide)
    · exact absurd hj (by simp)

end DshNexus.Agent.Canary.DeltaSearch
