import Mathlib.Data.List.Nodup
import Mathlib.Data.Finset.Dedup
import DshNexus.Core.Io

/-!
# The Canary run and its plugin bisection

`crates/nexus-agent/src/canary.rs` runs the harness once with all third-party plugins and, when
that fails, looks for a smaller combination that still fails: first without plugins, then with one
plugin of the suspects left out at a time, last with the suspects again.  Each round is a run of
`checkCanary` (`compatibility.mjs`) in `diagnostic_only` mode.

1. One round: what the checker reports.
2. The bisection loop and `run`.
3. `Inv`: what the rounds so far say of the suspects.
4. `suspects_sound`, and what it means for a monotone verdict.
-/

namespace DshNexus.Agent.Canary

/-! ## 1. One round -/

/-- The outcome of a round.  The code reads every other text as inconclusive. -/
inductive CanaryOutcome where
  | passed
  | failed
  | inconclusive
  deriving DecidableEq, Repr

inductive CanaryMode where
  | diagnosticOnly
  | bisect
  deriving DecidableEq, Repr

/-- An entry of a report's `rounds`. -/
structure CanaryRound (β : Type) where
  enabledBundles : List β
  outcome : CanaryOutcome
  deriving DecidableEq, Repr

/-- A report, of one round or of the whole run. -/
structure CanaryReport (β : Type) where
  outcome : CanaryOutcome
  reason : Option String
  rounds : List (CanaryRound β)
  suspectCombination : List β
  sourceProfile : String
  releaseId : String
  fingerprint : String
  allCandidates : List β
  patches : List (String × String)
  configRevision : Option String
  deriving DecidableEq, Repr

/-- What one round finds.  `command` is everything around the checker that can fail: the progress
record, the copy plan, the space budget, a cancelled or failed process, its report, the cleanup. -/
structure CanaryHost (β : Type) where
  command : Except IoError Unit
  plannedFingerprint : String
  /-- the active third-party bundles of the profile -/
  candidates : List β
  sourceProfile : String
  releaseId : String
  fingerprint : String
  patches : List (String × String)
  /-- the probe of the profile with the given bundles -/
  test : List β → CanaryOutcome

section Round

variable {β : Type} [DecidableEq β]

/-- `canarySearch` in the mode `diagnostic_only`: one test, and no attribution. -/
def canarySearch (host : CanaryHost β) (candidates : List β) :
    CanaryOutcome × List (CanaryRound β) × List β :=
  let outcome := host.test candidates
  (outcome, [⟨candidates, outcome⟩], [])

def checkCanary (host : CanaryHost β) (subset : Option (List β)) :
    Except IoError (CanaryReport β) :=
  let candidates := subset.getD host.candidates
  if (∃ name ∈ candidates, name ∉ host.candidates) ∨ ¬ candidates.Nodup then
    .error ⟨.other, "Invalid Canary subset"⟩
  else
    let (outcome, rounds, suspects) := canarySearch host candidates
    .ok ⟨outcome, none, rounds, suspects, host.sourceProfile, host.releaseId, host.fingerprint,
      host.candidates, host.patches, none⟩

def operationRound (host : CanaryHost β) (subset : Option (List β)) :
    Except IoError (CanaryReport β) := do
  host.command
  let report ← checkCanary host subset
  if report.fingerprint ≠ host.plannedFingerprint then
    throw ⟨.other, "Canary source changed after copy planning"⟩
  pure report

end Round

/-! ## 2. The run -/

/-- What a whole run finds: the checks before the first round, each round, the clock after a number
of rounds, and the identities that are compared. -/
structure CanaryRun (β : Type) where
  prepare : Except IoError Unit
  host : Nat → CanaryHost β
  timeUp : Nat → Bool
  profile : String
  release : String
  revision : String
  finalRevision : String

structure Bisection (β : Type) where
  report : CanaryReport β
  rounds : List (CanaryRound β)
  suspects : List β
  trial : List β
  baseline : Bool
  index : Nat
  confirmed : Bool
  deriving DecidableEq, Repr

inductive Iteration (β : Type) where
  | break (b : Bisection β)
  | continue (b : Bisection β)
  deriving DecidableEq, Repr

section Run

variable {β : Type}

/-- The variables after a round with the given outcome. -/
def Bisection.addRound (b : Bisection β) (outcome : CanaryOutcome) : Bisection β :=
  { b with rounds := b.rounds ++ [⟨b.trial, outcome⟩] }

def Bisection.inconclusive (b : Bisection β) (reason : Option String) : Bisection β :=
  { b with report := { b.report with outcome := .inconclusive, reason } }

def Bisection.nextTrial (b : Bisection β) : Bisection β :=
  if b.suspects.length ≤ b.index then { b with trial := b.suspects, confirmed := true }
  else { b with trial := b.suspects.eraseIdx b.index }

/-- An iteration once its round has been made. -/
def Bisection.conclude (b : Bisection β) (next : CanaryReport β) : Iteration β :=
  if b.baseline = true then
    if next.outcome ≠ .passed then
      .break (b.inconclusive (some "Baseline without third-party plugins did not pass"))
    else .continue { b with baseline := false }.nextTrial
  else if b.confirmed = true then
    if next.outcome = .failed then
      .break { b with
        report := { b.report with
          suspectCombination := b.suspects
          reason := some "Confirmed failing combination; no plugins were changed" } }
    else .break (b.inconclusive (some "Failure could not be reproduced"))
  else
    match next.outcome with
    | .failed => .continue { b with suspects := b.trial, index := 0 }.nextTrial
    | .passed => .continue { b with index := b.index + 1 }.nextTrial
    | .inconclusive => .break (b.inconclusive next.reason)

@[simp] theorem Bisection.nextTrial_rounds (b : Bisection β) : b.nextTrial.rounds = b.rounds := by
  unfold nextTrial
  split <;> rfl

theorem Bisection.conclude_eq_continue {b b' : Bisection β} {next : CanaryReport β}
    (h : b.conclude next = .continue b') :
    (b.baseline = true ∧ next.outcome = .passed ∧ b' = { b with baseline := false }.nextTrial) ∨
    (b.baseline = false ∧ b.confirmed = false ∧ next.outcome = .failed ∧
      b' = { b with suspects := b.trial, index := 0 }.nextTrial) ∨
    (b.baseline = false ∧ b.confirmed = false ∧ next.outcome = .passed ∧
      b' = { b with index := b.index + 1 }.nextTrial) := by
  unfold conclude at h
  split at h
  · next hbaseline =>
    split at h
    · cases h
    · next hpassed =>
      exact Or.inl ⟨hbaseline, not_not.mp hpassed, (Iteration.continue.inj h).symm⟩
  · next hbaseline =>
    rw [Bool.not_eq_true] at hbaseline
    split at h
    · split at h <;> cases h
    · next hconfirmed =>
      rw [Bool.not_eq_true] at hconfirmed
      split at h
      · next hfailed =>
        exact Or.inr (Or.inl ⟨hbaseline, hconfirmed, hfailed, (Iteration.continue.inj h).symm⟩)
      · next hpassed =>
        exact Or.inr (Or.inr ⟨hbaseline, hconfirmed, hpassed, (Iteration.continue.inj h).symm⟩)
      · cases h

theorem Bisection.conclude_eq_break {b b' : Bisection β} {next : CanaryReport β}
    (h : b.conclude next = .break b') :
    (∃ reason, b' = b.inconclusive reason) ∨
    (b.baseline = false ∧ b.confirmed = true ∧ next.outcome = .failed ∧
      b' = { b with
        report := { b.report with
          suspectCombination := b.suspects
          reason := some "Confirmed failing combination; no plugins were changed" } }) := by
  unfold conclude at h
  split at h
  · split at h
    · exact Or.inl ⟨_, (Iteration.break.inj h).symm⟩
    · cases h
  · next hbaseline =>
    rw [Bool.not_eq_true] at hbaseline
    split at h
    · next hconfirmed =>
      split at h
      · next hfailed => exact Or.inr ⟨hbaseline, hconfirmed, hfailed, (Iteration.break.inj h).symm⟩
      · exact Or.inl ⟨_, (Iteration.break.inj h).symm⟩
    · split at h
      · cases h
      · cases h
      · exact Or.inl ⟨_, (Iteration.break.inj h).symm⟩

theorem Bisection.conclude_rounds {b b' : Bisection β} {next : CanaryReport β}
    (h : b.conclude next = .continue b') : b'.rounds = b.rounds := by
  rcases conclude_eq_continue h with ⟨-, -, rfl⟩ | ⟨-, -, -, rfl⟩ | ⟨-, -, -, rfl⟩ <;>
  · rw [nextTrial_rounds]

variable [DecidableEq β]

def Bisection.round (run : CanaryRun β) (b : Bisection β) :
    Except IoError (CanaryReport β × Bisection β) := do
  let next ← operationRound (run.host b.rounds.length) (some b.trial)
  if (next.fingerprint, next.patches) ≠ (b.report.fingerprint, b.report.patches) then
    throw ⟨.other, "Canary source or patches changed between rounds"⟩
  pure (next, { b with rounds := b.rounds ++ next.rounds.take 1 })

theorem operationRound_eq_ok {host : CanaryHost β} {subset : Option (List β)}
    {report : CanaryReport β} (h : operationRound host subset = .ok report) :
    report.outcome = host.test (subset.getD host.candidates) ∧
      report.rounds = [⟨subset.getD host.candidates, report.outcome⟩] ∧
      report.suspectCombination = [] ∧ report.allCandidates = host.candidates ∧
      (subset.getD host.candidates).Nodup := by
  obtain ⟨-, -, h⟩ := bind_eq_ok h
  obtain ⟨report', hcheck, h⟩ := bind_eq_ok h
  rw [guard_eq_ok] at h
  obtain rfl := Except.ok.inj h.2
  unfold checkCanary at hcheck
  dsimp only at hcheck
  split at hcheck
  · cases hcheck
  · next hvalid =>
    obtain rfl := Except.ok.inj hcheck
    rw [not_or, not_not] at hvalid
    exact ⟨rfl, rfl, rfl, rfl, hvalid.2⟩

theorem Bisection.round_eq_ok {run : CanaryRun β} {b b' : Bisection β} {next : CanaryReport β}
    (h : b.round run = .ok (next, b')) :
    next.outcome = (run.host b.rounds.length).test b.trial ∧
      b' = b.addRound next.outcome := by
  obtain ⟨next', hround, h⟩ := bind_eq_ok h
  rw [guard_eq_ok] at h
  obtain ⟨rfl, rfl⟩ := Prod.mk.inj (Except.ok.inj h.2)
  obtain ⟨houtcome, hrounds, -⟩ := operationRound_eq_ok hround
  rw [hrounds]
  exact ⟨houtcome, rfl⟩

/-- The bisection loop.  Every iteration adds a round, and none begins after the 20th. -/
def bisect (run : CanaryRun β) (b : Bisection β) : Except IoError (Bisection β) :=
  if _hbudget : 20 ≤ b.rounds.length ∨ run.timeUp b.rounds.length = true then
    .ok (b.inconclusive (some "Canary round or time budget exceeded"))
  else
    match _hround : b.round run with
    | .error e => .error e
    | .ok (next, b') =>
        match _hconclude : b'.conclude next with
        | .break b'' => .ok b''
        | .continue b'' => bisect run b''
termination_by 20 - b.rounds.length
decreasing_by
  rw [Bisection.conclude_rounds _hconclude, (Bisection.round_eq_ok _hround).2]
  simp only [Bisection.addRound, List.length_append, List.length_singleton]
  omega

section Equations

variable {r : CanaryRun β} {b b' b'' : Bisection β} {next : CanaryReport β}

theorem bisect_of_error (hbudget : ¬ (20 ≤ b.rounds.length ∨ r.timeUp b.rounds.length = true))
    {e : IoError} (hround : b.round r = .error e) : bisect r b = .error e := by
  rw [bisect, dif_neg hbudget]
  split
  · next e' he' =>
    rw [hround] at he'
    rw [Except.error.inj he']
  · next hok =>
    rw [hround] at hok
    cases hok

theorem bisect_of_break (hbudget : ¬ (20 ≤ b.rounds.length ∨ r.timeUp b.rounds.length = true))
    (hround : b.round r = .ok (next, b')) (hbreak : b'.conclude next = .break b'') :
    bisect r b = .ok b'' := by
  rw [bisect, dif_neg hbudget]
  split
  · next he' =>
    rw [hround] at he'
    cases he'
  · next next' b₁ hok =>
    rw [hround] at hok
    obtain ⟨rfl, rfl⟩ := Prod.mk.inj (Except.ok.inj hok)
    split
    · next hbreak' =>
      rw [hbreak] at hbreak'
      rw [Iteration.break.inj hbreak']
    · next hcontinue =>
      rw [hbreak] at hcontinue
      cases hcontinue

theorem bisect_of_continue (hbudget : ¬ (20 ≤ b.rounds.length ∨ r.timeUp b.rounds.length = true))
    (hround : b.round r = .ok (next, b')) (hcontinue : b'.conclude next = .continue b'') :
    bisect r b = bisect r b'' := by
  rw [bisect, dif_neg hbudget]
  split
  · next he' =>
    rw [hround] at he'
    cases he'
  · next next' b₁ hok =>
    rw [hround] at hok
    obtain ⟨rfl, rfl⟩ := Prod.mk.inj (Except.ok.inj hok)
    split
    · next hbreak =>
      rw [hcontinue] at hbreak
      cases hbreak
    · next hcontinue' =>
      rw [hcontinue] at hcontinue'
      rw [Iteration.continue.inj hcontinue']

end Equations

/-- The variables before the first iteration. -/
def Bisection.first (report : CanaryReport β) : Bisection β :=
  ⟨report, report.rounds.take 1, report.allCandidates, [], true, 0, false⟩

/-- The bisection, if the mode asks for it and the first round failed. -/
def search (r : CanaryRun β) (mode : CanaryMode) (report : CanaryReport β) :
    Except IoError (Bisection β) :=
  if mode = .bisect ∧ report.outcome = .failed then bisect r (.first report)
  else .ok (.first report)

def run (r : CanaryRun β) (mode : CanaryMode) : Except IoError (CanaryReport β) := do
  r.prepare
  let report ← operationRound (r.host 0) none
  let last ← search r mode report
  if r.finalRevision ≠ r.revision then
    throw ⟨.other, "Configuration changed during Canary; no attribution is valid"⟩
  if last.report.sourceProfile ≠ r.profile ∨ last.report.releaseId ≠ r.release then
    throw ⟨.other, "Canary report identity mismatch"⟩
  pure { last.report with rounds := last.rounds, configRevision := some r.revision }

/-! ## 3. What the rounds say -/

/-- Every round is an observation of the run. -/
def Observed (run : CanaryRun β) (rounds : List (CanaryRound β)) : Prop :=
  ∀ i r, rounds[i]? = some r → r.outcome = (run.host i).test r.enabledBundles

omit [DecidableEq β] in
theorem Observed.concat {run : CanaryRun β} {rounds : List (CanaryRound β)}
    (h : Observed run rounds) (trial : List β) :
    Observed run (rounds ++ [⟨trial, (run.host rounds.length).test trial⟩]) := by
  intro i r hr
  rcases Nat.lt_trichotomy i rounds.length with hlt | heq | hgt
  · rw [List.getElem?_append_left hlt] at hr
    exact h i r hr
  · rw [heq, List.getElem?_concat_length] at hr
    obtain rfl := Option.some.inj hr
    rw [heq]
  · rw [List.getElem?_eq_none (by simp; omega)] at hr
    cases hr

/-- What holds of the suspects at any time: they are candidates, and the removals before `index`
have been seen to pass. -/
structure Narrowed (b : Bisection β) : Prop where
  distinct : b.suspects.Nodup
  sublist : b.suspects.Sublist b.report.allCandidates
  unattributed : b.report.suspectCombination = []
  tested : ∀ i < b.index, i < b.suspects.length → ⟨b.suspects.eraseIdx i, .passed⟩ ∈ b.rounds

structure Inv (run : CanaryRun β) (b : Bisection β) : Prop extends Narrowed b where
  observed : Observed run b.rounds
  bound : b.rounds.length ≤ 20
  start : b.baseline = true → b.trial = [] ∧ b.confirmed = false
  baseline : b.baseline = false → ⟨[], .passed⟩ ∈ b.rounds
  removal : b.baseline = false → b.confirmed = false →
    b.index < b.suspects.length ∧ b.trial = b.suspects.eraseIdx b.index
  last : b.confirmed = true → b.trial = b.suspects ∧ b.suspects.length ≤ b.index

omit [DecidableEq β] in
theorem Narrowed.nextTrial {run : CanaryRun β} {b : Bisection β} (h : Narrowed b)
    (hobserved : Observed run b.rounds) (hbound : b.rounds.length ≤ 20)
    (hbaseline : b.baseline = false) (hempty : ⟨[], .passed⟩ ∈ b.rounds)
    (hconfirmed : b.confirmed = false) : Inv run b.nextTrial := by
  unfold Bisection.nextTrial
  split
  · next hall =>
    exact ⟨⟨h.distinct, h.sublist, h.unattributed, h.tested⟩, hobserved, hbound,
      fun htrue => absurd (hbaseline.symm.trans htrue) Bool.false_ne_true, fun _ => hempty,
      fun _ hfalse => absurd hfalse.symm Bool.false_ne_true, fun _ => ⟨rfl, hall⟩⟩
  · next hmore =>
    exact ⟨⟨h.distinct, h.sublist, h.unattributed, h.tested⟩, hobserved, hbound,
      fun htrue => absurd (hbaseline.symm.trans htrue) Bool.false_ne_true, fun _ => hempty,
      fun _ _ => ⟨Nat.lt_of_not_le hmore, rfl⟩,
      fun htrue => absurd (hconfirmed.symm.trans htrue) Bool.false_ne_true⟩

omit [DecidableEq β] in
theorem Inv.conclude {run : CanaryRun β} {b b' : Bisection β} {next : CanaryReport β}
    (h : Inv run b) (hbudget : b.rounds.length < 20)
    (houtcome : next.outcome = (run.host b.rounds.length).test b.trial)
    (hnext : (b.addRound next.outcome).conclude next = .continue b') : Inv run b' := by
  have hobserved : Observed run (b.rounds ++ [(⟨b.trial, next.outcome⟩ : CanaryRound β)]) := by
    rw [houtcome]
    exact h.observed.concat b.trial
  have hbound : (b.rounds ++ [(⟨b.trial, next.outcome⟩ : CanaryRound β)]).length ≤ 20 := by
    rw [List.length_append, List.length_singleton]
    exact hbudget
  have hnew : (⟨b.trial, next.outcome⟩ : CanaryRound β) ∈
      b.rounds ++ [⟨b.trial, next.outcome⟩] :=
    List.mem_append_right _ List.mem_cons_self
  rcases Bisection.conclude_eq_continue hnext with
    ⟨hbaseline, hpassed, rfl⟩ | ⟨hbaseline, hconfirmed, hfailed, rfl⟩ |
    ⟨hbaseline, hconfirmed, hpassed, rfl⟩
  · obtain ⟨htrial, hconfirmed⟩ := h.start hbaseline
    refine Narrowed.nextTrial ⟨h.distinct, h.sublist, h.unattributed, fun i hi hlen => ?_⟩
      hobserved hbound rfl ?_ hconfirmed
    · exact List.mem_append_left _ (h.tested i hi hlen)
    · change b.trial = [] at htrial
      rw [htrial, hpassed] at hnew
      change _ ∈ b.rounds ++ [(⟨b.trial, next.outcome⟩ : CanaryRound β)]
      rw [htrial, hpassed]
      exact hnew
  · obtain ⟨-, htrial⟩ := h.removal hbaseline hconfirmed
    refine Narrowed.nextTrial ⟨?_, ?_, h.unattributed, fun i hi => absurd hi (Nat.not_lt_zero i)⟩
      hobserved hbound hbaseline (List.mem_append_left _ (h.baseline hbaseline)) hconfirmed
    · change b.trial.Nodup
      rw [htrial]
      exact h.distinct.sublist (List.eraseIdx_sublist ..)
    · change b.trial.Sublist _
      rw [htrial]
      exact (List.eraseIdx_sublist ..).trans h.sublist
  · obtain ⟨-, htrial⟩ := h.removal hbaseline hconfirmed
    refine Narrowed.nextTrial ⟨h.distinct, h.sublist, h.unattributed, fun i hi hlen => ?_⟩
      hobserved hbound hbaseline (List.mem_append_left _ (h.baseline hbaseline)) hconfirmed
    rcases Nat.lt_or_eq_of_le (Nat.le_of_lt_succ hi) with hlt | rfl
    · exact List.mem_append_left _ (h.tested i hlt hlen)
    · change (⟨b.suspects.eraseIdx b.index, .passed⟩ : CanaryRound β) ∈
        b.rounds ++ [⟨b.trial, next.outcome⟩]
      rw [← htrial, ← hpassed]
      exact hnew

/-- What a report with an attribution says: without plugins the harness was seen to start, with the
suspects it was seen to fail, and without any one of them it was seen to start. -/
structure Attributed (report : CanaryReport β) : Prop where
  empty : ⟨[], .passed⟩ ∈ report.rounds
  fails : ⟨report.suspectCombination, .failed⟩ ∈ report.rounds
  removals : ∀ m ∈ report.suspectCombination,
    ⟨report.suspectCombination.filter (· != m), .passed⟩ ∈ report.rounds
  sublist : report.suspectCombination.Sublist report.allCandidates

theorem eraseIdx_eq_filter {xs : List β} (h : xs.Nodup) {i : Nat} (hi : i < xs.length) :
    xs.eraseIdx i = xs.filter (· != xs[i]) := by
  rw [← h.erase_getElem i hi]
  exact h.erase_eq_filter _

/-- The end of a loop: the rounds are observations, and the report is inconclusive or an
attribution that the rounds bear out. -/
structure Settled (run : CanaryRun β) (b : Bisection β) : Prop where
  observed : Observed run b.rounds
  bound : b.rounds.length ≤ 20
  verdict : (b.report.outcome = .inconclusive ∧ b.report.suspectCombination = []) ∨
    Attributed { b.report with rounds := b.rounds }

theorem Inv.settled {run : CanaryRun β} {b b' : Bisection β} {next : CanaryReport β}
    (h : Inv run b) (hbudget : b.rounds.length < 20)
    (houtcome : next.outcome = (run.host b.rounds.length).test b.trial)
    (hnext : (b.addRound next.outcome).conclude next = .break b') : Settled run b' := by
  have hobserved : Observed run (b.rounds ++ [(⟨b.trial, next.outcome⟩ : CanaryRound β)]) := by
    rw [houtcome]
    exact h.observed.concat b.trial
  have hbound : (b.rounds ++ [(⟨b.trial, next.outcome⟩ : CanaryRound β)]).length ≤ 20 := by
    rw [List.length_append, List.length_singleton]
    exact hbudget
  rcases Bisection.conclude_eq_break hnext with ⟨reason, rfl⟩ | ⟨hbaseline, hconfirmed, hfailed, rfl⟩
  · exact ⟨hobserved, hbound, Or.inl ⟨rfl, h.unattributed⟩⟩
  · obtain ⟨htrial, hall⟩ := h.last hconfirmed
    refine ⟨hobserved, hbound, Or.inr ⟨?_, ?_, fun m hm => ?_, h.sublist⟩⟩
    · exact List.mem_append_left _ (h.baseline hbaseline)
    · change (⟨b.suspects, .failed⟩ : CanaryRound β) ∈ b.rounds ++ [⟨b.trial, next.outcome⟩]
      rw [htrial, hfailed]
      exact List.mem_append_right _ List.mem_cons_self
    · obtain ⟨i, hi, rfl⟩ := List.getElem_of_mem hm
      change (⟨b.suspects.filter (· != b.suspects[i]), .passed⟩ : CanaryRound β) ∈ b.rounds ++ _
      rw [← eraseIdx_eq_filter h.distinct hi]
      exact List.mem_append_left _ (h.tested i (Nat.lt_of_lt_of_le hi hall) hi)

/-- **The loop** ends settled. -/
theorem settled_bisect {run : CanaryRun β} {b b' : Bisection β} (h : Inv run b)
    (hrun : bisect run b = .ok b') : Settled run b' := by
  fun_induction bisect run b with
  | case1 b hbudget =>
    obtain rfl := Except.ok.inj hrun
    exact ⟨h.observed, h.bound, Or.inl ⟨rfl, h.unattributed⟩⟩
  | case2 b hbudget e hround => cases hrun
  | case3 b hbudget next b₁ hround b₂ hconclude =>
    obtain rfl := Except.ok.inj hrun
    obtain ⟨houtcome, rfl⟩ := Bisection.round_eq_ok hround
    rw [not_or, Nat.not_le] at hbudget
    exact h.settled hbudget.1 houtcome hconclude
  | case4 b hbudget next b₁ hround b₂ hconclude ih =>
    obtain ⟨houtcome, rfl⟩ := Bisection.round_eq_ok hround
    rw [not_or, Nat.not_le] at hbudget
    exact ih (h.conclude hbudget.1 houtcome hconclude) hrun

/-! ## 4. The attribution of a run -/

theorem inv_first {r : CanaryRun β} {report : CanaryReport β}
    (hround : operationRound (r.host 0) none = .ok report) :
    Inv r (.first report) := by
  obtain ⟨houtcome, hrounds, hsuspects, hcandidates, hdistinct⟩ := operationRound_eq_ok hround
  refine ⟨⟨?_, .refl _, hsuspects, fun i hi => absurd hi (Nat.not_lt_zero i)⟩, ?_, ?_,
    fun _ => ⟨rfl, rfl⟩, fun hfalse => absurd hfalse.symm Bool.false_ne_true,
    fun hfalse => absurd hfalse.symm Bool.false_ne_true,
    fun htrue => absurd htrue Bool.false_ne_true⟩
  · change report.allCandidates.Nodup
    rw [hcandidates]
    exact hdistinct
  · change Observed r (report.rounds.take 1)
    rw [hrounds, houtcome]
    have hnone : Observed r [] := fun i r hr => by cases hr
    exact hnone.concat _
  · change (report.rounds.take 1).length ≤ 20
    rw [hrounds]
    exact Nat.succ_le_succ (Nat.zero_le 19)

theorem run_eq_ok {r : CanaryRun β} {report : CanaryReport β}
    (hrun : run r .bisect = .ok report) :
    Observed r report.rounds ∧ report.rounds.length ≤ 20 ∧
      (report.outcome ≠ .failed ∧ report.suspectCombination = [] ∨ Attributed report) := by
  obtain ⟨-, -, hrun⟩ := bind_eq_ok hrun
  obtain ⟨first, hfirst, hrun⟩ := bind_eq_ok hrun
  obtain ⟨last, hlast, hrun⟩ := bind_eq_ok hrun
  rw [guard_eq_ok] at hrun
  have hrun := hrun.2
  rw [guard_eq_ok] at hrun
  obtain rfl := Except.ok.inj hrun.2
  have hinv := inv_first hfirst
  unfold search at hlast
  split at hlast
  · obtain ⟨hobserved, hbound, hverdict⟩ := settled_bisect hinv hlast
    refine ⟨hobserved, hbound, ?_⟩
    rcases hverdict with ⟨hinconclusive, hnone⟩ | hattributed
    · refine Or.inl ⟨?_, hnone⟩
      change last.report.outcome ≠ .failed
      rw [hinconclusive]
      decide
    · exact Or.inr ⟨hattributed.empty, hattributed.fails, hattributed.removals,
        hattributed.sublist⟩
  · next hother =>
    obtain rfl := Except.ok.inj hlast
    refine ⟨hinv.observed, hinv.bound, Or.inl ⟨fun hfailed => hother ⟨rfl, hfailed⟩, ?_⟩⟩
    exact hinv.unattributed

theorem Bisection.round_congr {r : CanaryRun β} {hosts : Nat → CanaryHost β}
    (hhosts : ∀ i < 20, hosts i = r.host i) {b : Bisection β} (hbudget : b.rounds.length < 20) :
    b.round { r with host := hosts } = b.round r := by
  unfold Bisection.round
  change operationRound (hosts b.rounds.length) (some b.trial) >>= _ = _
  rw [hhosts _ hbudget]

theorem bisect_congr {r : CanaryRun β} {hosts : Nat → CanaryHost β}
    (hhosts : ∀ i < 20, hosts i = r.host i) (b : Bisection β) :
    bisect { r with host := hosts } b = bisect r b := by
  fun_induction bisect r b with
  | case1 b hbudget => rw [bisect, dif_pos hbudget]
  | case2 b hbudget e hround =>
    exact bisect_of_error (r := { r with host := hosts }) hbudget
      ((Bisection.round_congr hhosts (by omega)).trans hround)
  | case3 b hbudget next b₁ hround b₂ hconclude =>
    exact bisect_of_break (r := { r with host := hosts }) hbudget
      ((Bisection.round_congr hhosts (by omega)).trans hround) hconclude
  | case4 b hbudget next b₁ hround b₂ hconclude ih =>
    rw [← ih]
    exact bisect_of_continue (r := { r with host := hosts }) hbudget
      ((Bisection.round_congr hhosts (by omega)).trans hround) hconclude

theorem run_congr {r : CanaryRun β} {hosts : Nat → CanaryHost β} (mode : CanaryMode)
    (hhosts : ∀ i < 20, hosts i = r.host i) : run { r with host := hosts } mode = run r mode := by
  unfold run search
  simp only [bisect_congr hhosts, hhosts 0 (Nat.zero_lt_succ 19)]

theorem Attributed.minimal {r : CanaryRun β} {report : CanaryReport β} (h : Attributed report)
    (hobserved : Observed r report.rounds) {verdict : Finset β → CanaryOutcome}
    (hverdict : ∀ i enabled, (r.host i).test enabled = verdict enabled.toFinset)
    (hmono : ∀ T T', T ⊆ T' → T' ⊆ report.allCandidates.toFinset →
      verdict T = .failed → verdict T' = .failed) :
    verdict report.suspectCombination.toFinset = .failed ∧
      ∀ T ⊂ report.suspectCombination.toFinset, verdict T ≠ .failed := by
  have hround : ∀ enabled outcome, ⟨enabled, outcome⟩ ∈ report.rounds →
      verdict enabled.toFinset = outcome := by
    intro enabled outcome hmem
    obtain ⟨i, hi, hget⟩ := List.getElem_of_mem hmem
    have hsome := hobserved i ⟨enabled, outcome⟩ (by rw [List.getElem?_eq_getElem hi, hget])
    rw [← hverdict i enabled]
    exact hsome.symm
  refine ⟨hround _ _ h.fails, fun T hT hfailed => ?_⟩
  obtain ⟨m, hm, hmT⟩ := Finset.exists_of_ssubset hT
  have hsubset : T ⊆ report.suspectCombination.toFinset := hT.1
  rw [List.mem_toFinset] at hm
  have hpassed := hround _ _ (h.removals m hm)
  have hwithout : T ⊆ (report.suspectCombination.filter (· != m)).toFinset := by
    intro x hx
    rw [List.mem_toFinset, List.mem_filter]
    refine ⟨List.mem_toFinset.mp (hsubset hx), bne_iff_ne.mpr ?_⟩
    rintro rfl
    exact hmT hx
  have hcandidates : (report.suspectCombination.filter (· != m)).toFinset ⊆
      report.allCandidates.toFinset := by
    intro x hx
    rw [List.mem_toFinset, List.mem_filter] at hx
    exact List.mem_toFinset.mpr (h.sublist.subset hx.1)
  rw [hmono _ _ hwithout hcandidates hfailed] at hpassed
  cases hpassed

/-- **The bisection is sound.**  A run looks at 20 rounds at most.  When its report says "failed",
or names suspects, then in this run the harness was seen to start without plugins, to fail with the
suspects, and to start without any one of them; the suspects are candidates; and for a verdict that
does not change and is monotone they are a minimal failing set. -/
theorem bisection_sound (r : CanaryRun β) :
    (∀ hosts, (∀ i < 20, hosts i = r.host i) →
      run { r with host := hosts } .bisect = run r .bisect) ∧
    ∀ report, run r .bisect = .ok report →
      report.rounds.length ≤ 20 ∧ Observed r report.rounds ∧
      (report.outcome = .failed ∨ report.suspectCombination ≠ [] →
        Attributed report ∧
        ∀ verdict : Finset β → CanaryOutcome,
          (∀ i enabled, (r.host i).test enabled = verdict enabled.toFinset) →
          (∀ T T', T ⊆ T' → T' ⊆ report.allCandidates.toFinset →
            verdict T = .failed → verdict T' = .failed) →
          verdict report.suspectCombination.toFinset = .failed ∧
            ∀ T ⊂ report.suspectCombination.toFinset, verdict T ≠ .failed) := by
  refine ⟨fun hosts hhosts => run_congr _ hhosts, fun report hrun => ?_⟩
  obtain ⟨hobserved, hbound, hverdict⟩ := run_eq_ok hrun
  refine ⟨hbound, hobserved, fun hclaims => ?_⟩
  have hattributed : Attributed report := by
    rcases hverdict with ⟨houtcome, hnone⟩ | hattributed
    · rcases hclaims with hfailed | hsome
      · exact absurd hfailed houtcome
      · exact absurd hnone hsome
    · exact hattributed
  exact ⟨hattributed, fun verdict hverdict hmono => hattributed.minimal hobserved hverdict hmono⟩

end Run

/-! ## Two runs -/

/-- A run over one plugin with the given probe. -/
def sampleRun (test : List String → CanaryOutcome) : CanaryRun String :=
  ⟨.ok (), fun _ => ⟨.ok (), "source", ["plugin"], "web", "release", "source", [], test⟩,
    fun _ => false, "web", "release", "revision", "revision"⟩

/-- The report that both runs begin with. -/
def firstReport (test : List String → CanaryOutcome) : CanaryReport String :=
  ⟨test ["plugin"], none, [⟨["plugin"], test ["plugin"]⟩], [], "web", "release", "source",
    ["plugin"], [], none⟩

def pluginFails (enabled : List String) : CanaryOutcome :=
  if enabled = [] then .passed else .failed

theorem run_sampleRun {test : List String → CanaryOutcome} {last : Bisection String}
    (hsearch : search (sampleRun test) .bisect (firstReport test) = .ok last)
    (hprofile : last.report.sourceProfile = "web") (hrelease : last.report.releaseId = "release") :
    run (sampleRun test) .bisect =
      .ok { last.report with rounds := last.rounds, configRevision := some "revision" } := by
  change (search (sampleRun test) .bisect (firstReport test) >>= _) = _
  rw [hsearch]
  change (if _ ∨ _ then _ else _) = _
  rw [if_neg (by rw [hprofile, hrelease]; simp [sampleRun])]
  rfl

/-- The plugin is the minimal failing combination. -/
theorem bisection_sound_of_pluginFails : ∃ report,
    run (sampleRun pluginFails) .bisect = .ok report ∧ Attributed report ∧
      report.suspectCombination = ["plugin"] := by
  have hsearch : search (sampleRun pluginFails) .bisect (firstReport pluginFails) =
      bisect (sampleRun pluginFails) (.first (firstReport pluginFails)) := rfl
  rw [bisect_of_continue (by decide) rfl rfl, bisect_of_continue (by decide) rfl rfl,
    bisect_of_break (by decide) rfl rfl] at hsearch
  have hrun := run_sampleRun hsearch rfl rfl
  obtain ⟨-, -, hattributed⟩ := (bisection_sound (sampleRun pluginFails)).2 _ hrun
  exact ⟨_, hrun, (hattributed (Or.inl rfl)).1, rfl⟩

/-- Nothing starts, not even without plugins: the report still carries the empty list that the
first round has put there. -/
theorem empty_suspects_unattributed : ∃ report,
    run (sampleRun fun _ => .failed) .bisect = .ok report ∧ report.suspectCombination = [] ∧
      ¬ Attributed report := by
  have hsearch : search (sampleRun fun _ => .failed) .bisect (firstReport fun _ => .failed) =
      bisect (sampleRun fun _ => .failed) (.first (firstReport fun _ => .failed)) := rfl
  rw [bisect_of_break (by decide) rfl rfl] at hsearch
  refine ⟨_, run_sampleRun hsearch rfl rfl, rfl, fun hattributed => ?_⟩
  exact absurd hattributed.empty (by decide)

end DshNexus.Agent.Canary
