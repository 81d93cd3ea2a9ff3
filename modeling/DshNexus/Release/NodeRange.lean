import DshNexus.Config.Document
import DshNexus.Core.Integer
import DshNexus.Core.SemVer
import DshNexus.Core.Text

/-!
# Node version requirements

`crates/nexus-core/src/runtime_requirements.rs`: a release declares a range of Node versions, and
Nexus decides whether the version it finds is in it.

1. Versions, and their texts.
2. Ranges: `parseNodeRange`, `comparatorSetMatches`, `nodeVersionSatisfies`.
3. What the requirements of a range are, and when the answer is that of the requirements.
-/

namespace DshNexus.NodeRange

open SemVer Text Config

/-! ## 1. Versions -/

/-- `str::trim`. -/
def trimText (text : List Char) : List Char :=
  ((text.dropWhile isWhitespace).reverse.dropWhile isWhitespace).reverse

/-- `invalid semantic version`. -/
def invalidVersion (value : List Char) : IoError :=
  invalidData ("invalid semantic version: " ++ String.ofList value)

def parseNumericComponent (component : Option (List Char)) (original : List Char) :
    Except IoError Nat :=
  match component.filter fun component => !component.isEmpty with
  | none => .error (invalidVersion original)
  | some component =>
      if (component.length > 1 ∧ component.head? = some '0') ∨ component.all Char.isDigit = false then
        .error (invalidVersion original)
      else if digitsValue component > U64_MAX then
        .error (invalidData ("semantic version component is too large: " ++ String.ofList original))
      else .ok (digitsValue component)

def parsePrereleaseIdentifier (original identifier : List Char) : Except IoError Identifier :=
  if identifier.isEmpty ∨ identifier.all (fun c => c.isAlphanum || c = '-') = false then
    .error (invalidVersion original)
  else if identifier.all Char.isDigit = true then
    if (identifier.length > 1 ∧ identifier.head? = some '0') ∨ digitsValue identifier > U64_MAX then
      .error (invalidVersion original)
    else .ok (.numeric (digitsValue identifier))
  else .ok (.text (String.ofList identifier))

/-- `strip_prefix('v')`. -/
def stripV : List Char → List Char
  | 'v' :: rest => rest
  | text => text

def parseVersion (text : List Char) : Except IoError Version := do
  let value := stripV (trimText text)
  if value.isEmpty ∨ '+' ∈ value then throw (invalidVersion value)
  let (core, prerelease) :=
    match splitOnce '-' value with
    | some (core, prerelease) => (core, some prerelease)
    | none => (value, none)
  let components := core.splitOn '.'
  let major ← parseNumericComponent components[0]? value
  let minor ← parseNumericComponent components[1]? value
  let patch ← parseNumericComponent components[2]? value
  if components[3]?.isSome then throw (invalidVersion value)
  let prerelease ← match prerelease with
    | none => pure []
    | some [] => throw (invalidVersion value)
    | some prerelease => (prerelease.splitOn '.').mapM (parsePrereleaseIdentifier value)
  pure ⟨major, minor, patch, prerelease⟩

/-! ## 2. Ranges -/

inductive Comparator where
  | exact (v : Version)
  | greaterOrEqual (v : Version)
  | lessThan (v : Version)
  deriving DecidableEq, Repr

namespace Comparator

/-- `Comparator::matches`. -/
def admits (v : Version) : Comparator → Bool
  | exact required => v = required
  | greaterOrEqual required => compareVersion v required ≠ .lt
  | lessThan required => compareVersion v required = .lt

def version : Comparator → Version
  | exact v => v
  | greaterOrEqual v => v
  | lessThan v => v

end Comparator

/-- The error of `checked_add`. -/
def caretOverflow : IoError := invalidData "engines.node caret upper bound overflows"

def caretUpperBound (v : Version) : Except IoError Version :=
  if 0 < v.major then
    if v.major + 1 > U64_MAX then .error caretOverflow else .ok ⟨v.major + 1, 0, 0, []⟩
  else if 0 < v.minor then
    if v.minor + 1 > U64_MAX then .error caretOverflow else .ok ⟨0, v.minor + 1, 0, []⟩
  else if v.patch + 1 > U64_MAX then .error caretOverflow
  else .ok ⟨0, 0, v.patch + 1, []⟩

/-- `split("||")`. -/
def splitBars : List Char → List (List Char)
  | '|' :: '|' :: rest => [] :: splitBars rest
  | c :: rest =>
      match splitBars rest with
      | [] => [[c]]
      | part :: parts => (c :: part) :: parts
  | [] => [[]]

def splitWhitespace (text : List Char) : List (List Char) :=
  (text.splitOnP isWhitespace).filter fun word => !word.isEmpty

/-- A token that no comparator is written as. -/
def unsupported (token : List Char) : Bool :=
  token.head?.any (fun c => ['>', '<', '~', '='].contains c) ||
    token.any (fun c => ['*', 'x', 'X'].contains c) || token = ['-']

def parseToken (token : List Char) : Except IoError (List Comparator) :=
  match token with
  | '^' :: value => do
      let lower ← parseVersion value
      let upper ← caretUpperBound lower
      pure [.greaterOrEqual lower, .lessThan upper]
  | '>' :: '=' :: value => do
      let version ← parseVersion value
      pure [.greaterOrEqual version]
  | token =>
      if unsupported token then
        .error (invalidData ("unsupported engines.node comparator: " ++ String.ofList token))
      else do
        let version ← parseVersion token
        pure [.exact version]

def parseAlternative (alternative : List Char) : Except IoError (List Comparator) := do
  let alternative := trimText alternative
  if alternative.isEmpty then throw (invalidData "engines.node contains an empty || branch")
  let comparators ← (splitWhitespace alternative).mapM parseToken
  if comparators.flatten.isEmpty then throw (invalidData "engines.node comparator set is empty")
  pure comparators.flatten

def parseNodeRange (range : List Char) : Except IoError (List (List Comparator)) :=
  (splitBars range).mapM parseAlternative

def comparatorSetMatches (comparators : List Comparator) (v : Version) : Bool :=
  if v.prerelease.isEmpty = false ∧ comparators.any (fun comparator =>
      !comparator.version.prerelease.isEmpty && decide (SameRelease comparator.version v)) = false then
    false
  else comparators.all fun comparator => comparator.admits v

def nodeVersionSatisfies (range version : List Char) : Except IoError Bool := do
  let alternatives ← parseNodeRange range
  let version ← parseVersion version
  pure (alternatives.any fun comparators => comparatorSetMatches comparators version)

/-! ## 3. Requirements -/

def requirementOf : List Char → Option Requirement
  | '^' :: value => (parseVersion value).toOption.map .caret
  | '>' :: '=' :: value => (parseVersion value).toOption.map .atLeast
  | value => (parseVersion value).toOption.map .exact

def rangeOf (range : List Char) : Option (List (List Requirement)) :=
  (splitBars range).mapM fun alternative =>
    (splitWhitespace (trimText alternative)).mapM requirementOf

/-- The comparators that the code makes of a requirement. -/
def comparatorsOf : Requirement → List Comparator
  | .exact v => [.exact v]
  | .atLeast v => [.greaterOrEqual v]
  | .caret v => [.greaterOrEqual v, .lessThan (nextBreaking v)]

theorem caretUpperBound_eq {v w : Version} (h : caretUpperBound v = .ok w) : w = nextBreaking v := by
  unfold caretUpperBound at h
  unfold nextBreaking
  split at h
  · next hmajor =>
    rw [if_pos hmajor]
    split at h
    · cases h
    · exact (Except.ok.inj h).symm
  · next hmajor =>
    rw [if_neg hmajor]
    split at h
    · next hminor =>
      rw [if_pos hminor]
      split at h
      · cases h
      · exact (Except.ok.inj h).symm
    · next hminor =>
      rw [if_neg hminor]
      split at h
      · cases h
      · exact (Except.ok.inj h).symm

/-- **A token** is read as the comparators of its requirement. -/
theorem requirementOf_of_parseToken {token : List Char} {comparators : List Comparator}
    (h : parseToken token = .ok comparators) :
    ∃ r, requirementOf token = some r ∧ comparators = comparatorsOf r := by
  unfold parseToken at h
  unfold requirementOf
  split at h
  · obtain ⟨lower, hlower, h⟩ := bind_eq_ok h
    obtain ⟨upper, hupper, h⟩ := bind_eq_ok h
    refine ⟨.caret lower, by rw [hlower]; rfl, ?_⟩
    rw [← Except.ok.inj h, caretUpperBound_eq hupper]
    rfl
  · obtain ⟨version, hversion, h⟩ := bind_eq_ok h
    exact ⟨.atLeast version, by rw [hversion]; rfl, (Except.ok.inj h).symm⟩
  · split at h
    · cases h
    · obtain ⟨version, hversion, h⟩ := bind_eq_ok h
      refine ⟨.exact version, ?_, (Except.ok.inj h).symm⟩
      rw [hversion]
      rfl

theorem mapM_of_mapM {ι α β : Type} {f : ι → Except IoError α} {g : ι → Option β} {k : β → α}
    (hitem : ∀ x a, f x = .ok a → ∃ b, g x = some b ∧ a = k b) :
    ∀ {xs : List ι} {as : List α}, xs.mapM f = .ok as → ∃ bs, xs.mapM g = some bs ∧ as = bs.map k := by
  intro xs
  induction xs with
  | nil =>
    intro as h
    rw [List.mapM_nil] at h
    rw [← Except.ok.inj h]
    exact ⟨[], rfl, rfl⟩
  | cons x xs ih =>
    intro as h
    rw [List.mapM_cons] at h
    obtain ⟨a, hx, h⟩ := bind_eq_ok h
    obtain ⟨rest, hxs, h⟩ := bind_eq_ok h
    rw [← Except.ok.inj h]
    obtain ⟨b, hb, rfl⟩ := hitem x a hx
    obtain ⟨bs, hbs, rfl⟩ := ih hxs
    refine ⟨b :: bs, ?_, rfl⟩
    rw [List.mapM_cons, hb, hbs]
    rfl

/-- **A range** is read as the comparators of its requirements. -/
theorem rangeOf_of_parseNodeRange {text : List Char} {sets : List (List Comparator)}
    (h : parseNodeRange text = .ok sets) :
    ∃ range, rangeOf text = some range ∧ sets = range.map fun set => set.flatMap comparatorsOf := by
  refine mapM_of_mapM (fun alternative comparators halternative => ?_) h
  unfold parseAlternative at halternative
  rw [guard_eq_ok] at halternative
  obtain ⟨-, halternative⟩ := halternative
  obtain ⟨tokens, htokens, halternative⟩ := bind_eq_ok halternative
  rw [guard_eq_ok] at halternative
  obtain ⟨-, halternative⟩ := halternative
  obtain ⟨set, hset, rfl⟩ := mapM_of_mapM
    (fun token found htoken => requirementOf_of_parseToken htoken) htokens
  exact ⟨set, hset, (Except.ok.inj halternative).symm⟩

theorem compareVersion_lt_iff {v w : Version} :
    compareVersion v w = .lt ↔ v.precedence < w.precedence := by
  have h := compares_version v w
  cases hcompare : compareVersion v w with
  | lt =>
    rw [hcompare] at h
    exact iff_of_true rfl h
  | eq =>
    rw [hcompare] at h
    refine iff_of_false (by simp) ?_
    rw [show v.precedence = w.precedence from h]
    exact lt_irrefl _
  | gt =>
    rw [hcompare] at h
    exact iff_of_false (by simp) (lt_asymm h)

/-- A requirement as the code reads it: the upper bound of a caret is the next breaking version. -/
def Admits (v : Version) : Requirement → Prop
  | .exact w => v = w
  | .atLeast w => w.precedence ≤ v.precedence
  | .caret w => w.precedence ≤ v.precedence ∧ v.precedence < (nextBreaking w).precedence

/-- The version is a prerelease of the next breaking version of a caret. -/
def Beyond (set : List Requirement) (v : Version) : Prop :=
  ∃ w, .caret w ∈ set ∧ SameRelease v (nextBreaking w)

theorem admits_iff {r : Requirement} {v : Version} :
    (∀ c ∈ comparatorsOf r, c.admits v = true) ↔ Admits v r := by
  cases r with
  | exact w => simp [comparatorsOf, Comparator.admits, Admits]
  | atLeast w =>
    simp only [comparatorsOf, Comparator.admits, Admits, List.mem_singleton, forall_eq,
      decide_eq_true_eq, ne_eq, compareVersion_lt_iff, not_lt]
  | caret w =>
    simp only [comparatorsOf, Comparator.admits, Admits, List.mem_cons, List.not_mem_nil, or_false,
      forall_eq_or_imp, forall_eq, decide_eq_true_eq, ne_eq, compareVersion_lt_iff, not_lt]

theorem holds_iff {r : Requirement} {v : Version} :
    r.Holds v ↔ Admits v r ∧ ∀ w, r = .caret w → ¬ SameRelease v (nextBreaking w) := by
  cases r with
  | exact w => simp [Requirement.Holds, Admits]
  | atLeast w => simp [Requirement.Holds, Admits]
  | caret w =>
    simp only [Requirement.Holds, Admits, lt_first_iff (prerelease_nextBreaking w),
      Requirement.caret.injEq, forall_eq', and_assoc]

theorem named_comparatorsOf (r : Requirement) (v : Version) :
    (comparatorsOf r).any (fun comparator => !comparator.version.prerelease.isEmpty &&
      decide (SameRelease comparator.version v)) = true ↔
      r.version.prerelease ≠ [] ∧ SameRelease r.version v := by
  have hnames : ∀ w : Version, (!w.prerelease.isEmpty && decide (SameRelease w v)) = true ↔
      w.prerelease ≠ [] ∧ SameRelease w v := by
    intro w
    rw [Bool.and_eq_true, decide_eq_true_iff, Bool.not_eq_true', List.isEmpty_eq_false_iff]
  cases r with
  | exact w =>
    show ((!w.prerelease.isEmpty && decide (SameRelease w v)) || false) = true ↔ _
    rw [Bool.or_false]
    exact hnames w
  | atLeast w =>
    show ((!w.prerelease.isEmpty && decide (SameRelease w v)) || false) = true ↔ _
    rw [Bool.or_false]
    exact hnames w
  | caret w =>
    show ((!w.prerelease.isEmpty && decide (SameRelease w v)) ||
      ((!(nextBreaking w).prerelease.isEmpty && decide (SameRelease (nextBreaking w) v)) ||
        false)) = true ↔ _
    rw [prerelease_nextBreaking, Bool.or_false, List.isEmpty_nil, Bool.not_true, Bool.false_and,
      Bool.or_false]
    exact hnames w

theorem named_iff {set : List Requirement} {v : Version} :
    (v.prerelease.isEmpty = false ∧ (set.flatMap comparatorsOf).any (fun comparator =>
      !comparator.version.prerelease.isEmpty && decide (SameRelease comparator.version v)) = false) ↔
      ¬ Named set v := by
  have hany : (set.flatMap comparatorsOf).any (fun comparator =>
      !comparator.version.prerelease.isEmpty && decide (SameRelease comparator.version v)) = true ↔
      ∃ r ∈ set, r.version.prerelease ≠ [] ∧ SameRelease r.version v := by
    rw [List.any_flatMap, List.any_eq_true]
    exact exists_congr fun r => and_congr_right fun _ => named_comparatorsOf r v
  unfold Named
  rw [not_or, ← hany, Bool.not_eq_true, List.isEmpty_eq_false_iff]

/-- **A set of comparators** matches what its requirements admit and name. -/
theorem comparatorSetMatches_iff {set : List Requirement} {v : Version} :
    comparatorSetMatches (set.flatMap comparatorsOf) v = true ↔
      (∀ r ∈ set, Admits v r) ∧ Named set v := by
  unfold comparatorSetMatches
  split
  · next h => exact iff_of_false (by simp) fun h' => named_iff.mp h h'.2
  · next h =>
    rw [named_iff, not_not] at h
    rw [and_iff_left h, List.all_eq_true]
    simp only [List.mem_flatMap, forall_exists_index, and_imp]
    exact ⟨fun hall r hr => admits_iff.mp fun c hc => hall c r hr hc,
      fun hall c r hr hc => admits_iff.mpr (hall r hr) c hc⟩

theorem satisfies_iff {set : List Requirement} {v : Version} : Satisfies set v ↔
    comparatorSetMatches (set.flatMap comparatorsOf) v = true ∧ ¬ Beyond set v := by
  rw [comparatorSetMatches_iff]
  unfold Satisfies Beyond
  constructor
  · rintro ⟨hholds, hnamed⟩
    refine ⟨⟨fun r hr => (holds_iff.mp (hholds r hr)).1, hnamed⟩, ?_⟩
    rintro ⟨w, hw, hsame⟩
    exact (holds_iff.mp (hholds _ hw)).2 w rfl hsame
  · rintro ⟨⟨hadmits, hnamed⟩, hbeyond⟩
    refine ⟨fun r hr => holds_iff.mpr ⟨hadmits r hr, ?_⟩, hnamed⟩
    rintro w rfl hsame
    exact hbeyond ⟨w, hr, hsame⟩

/-- **Where the answer is that of the requirements.**  On every range and every version that parse,
the answer is whether the version satisfies the range, if and only if no alternative admits a
prerelease of the next breaking version of one of its own carets, unless the version satisfies
another alternative.  The order of the versions is that of their precedence, which is total. -/
theorem node_version_satisfies_iff {text version : List Char} {sets : List (List Comparator)}
    {v : Version} (hrange : parseNodeRange text = .ok sets) (hversion : parseVersion version = .ok v) :
    ∃ range answer, rangeOf text = some range ∧ nodeVersionSatisfies text version = .ok answer ∧
      ((answer = true ↔ SatisfiesRange range v) ↔
        ∀ set ∈ range, Beyond set v → (∀ r ∈ set, Admits v r) → Named set v →
          SatisfiesRange range v) ∧
      (∀ a b : Version, (compareVersion a b).Compares a.precedence b.precedence) ∧
      Function.Injective Version.precedence := by
  obtain ⟨range, hread, rfl⟩ := rangeOf_of_parseNodeRange hrange
  refine ⟨range, _, hread, by unfold nodeVersionSatisfies; rw [hrange, hversion]; rfl, ?_,
    compares_version, precedence_injective⟩
  have hany : (List.any (range.map fun set => set.flatMap comparatorsOf) fun comparators =>
      comparatorSetMatches comparators v) = true ↔
      ∃ set ∈ range, (∀ r ∈ set, Admits v r) ∧ Named set v := by
    rw [List.any_map, List.any_eq_true]
    exact exists_congr fun set => and_congr_right fun _ => comparatorSetMatches_iff
  rw [hany]
  constructor
  · intro h set hset _ hadmits hnamed
    exact h.mp ⟨set, hset, hadmits, hnamed⟩
  · intro h
    constructor
    · rintro ⟨set, hset, hadmits, hnamed⟩
      by_cases hbeyond : Beyond set v
      · exact h set hset hbeyond hadmits hnamed
      · exact ⟨set, hset, satisfies_iff.mpr
          ⟨comparatorSetMatches_iff.mpr ⟨hadmits, hnamed⟩, hbeyond⟩⟩
    · rintro ⟨set, hset, hsatisfies⟩
      exact ⟨set, hset, comparatorSetMatches_iff.mp (satisfies_iff.mp hsatisfies).1⟩

/-- The range of a release, and a version of Node. -/
theorem node_version_satisfies_iff_release :
    nodeVersionSatisfies "^22.19.0 || >=24.0.0".toList "v22.19.0".toList = .ok true ∧
    ∃ range, rangeOf "^22.19.0 || >=24.0.0".toList = some range ∧
      SatisfiesRange range ⟨22, 19, 0, []⟩ := by
  have hrange : parseNodeRange "^22.19.0 || >=24.0.0".toList =
      .ok [[.greaterOrEqual ⟨22, 19, 0, []⟩, .lessThan ⟨23, 0, 0, []⟩],
        [.greaterOrEqual ⟨24, 0, 0, []⟩]] := by
    decide +kernel
  have hversion : parseVersion "v22.19.0".toList = .ok ⟨22, 19, 0, []⟩ := by
    decide +kernel
  have hanswer : nodeVersionSatisfies "^22.19.0 || >=24.0.0".toList "v22.19.0".toList =
      .ok true := by
    decide +kernel
  obtain ⟨range, answer, hread, heq, hiff, -⟩ := node_version_satisfies_iff hrange hversion
  refine ⟨hanswer, range, hread, ?_⟩
  rw [hanswer] at heq
  refine (hiff.mpr ?_).mp (Except.ok.inj heq).symm
  have hread' : rangeOf "^22.19.0 || >=24.0.0".toList =
      some [[.caret ⟨22, 19, 0, []⟩], [.atLeast ⟨24, 0, 0, []⟩]] := by
    decide +kernel
  obtain rfl := Option.some.inj (hread.symm.trans hread')
  rintro set hset ⟨w, hw, hsame⟩
  simp only [List.mem_cons, List.not_mem_nil, or_false] at hset
  rcases hset with rfl | rfl
  · rw [List.mem_singleton, Requirement.caret.injEq] at hw
    subst hw
    exact absurd hsame (by decide)
  · simp at hw

/-- A prerelease of the next breaking version is admitted, next to a lower bound that names it. -/
theorem caret_admits_next_breaking :
    nodeVersionSatisfies "^1.2.3 >=2.0.0-alpha".toList "2.0.0-rc.1".toList = .ok true ∧
    ∃ range, rangeOf "^1.2.3 >=2.0.0-alpha".toList = some range ∧
      parseVersion "2.0.0-rc.1".toList = .ok ⟨2, 0, 0, [.text "rc", .numeric 1]⟩ ∧
      ¬ SatisfiesRange range ⟨2, 0, 0, [.text "rc", .numeric 1]⟩ := by
  refine ⟨by decide +kernel, [[.caret ⟨1, 2, 3, []⟩, .atLeast ⟨2, 0, 0, [.text "alpha"]⟩]],
    by decide +kernel, by decide +kernel, ?_⟩
  rintro ⟨set, hset, hsatisfies⟩
  rw [List.mem_singleton] at hset
  subst hset
  exact (satisfies_iff.mp hsatisfies).2 ⟨⟨1, 2, 3, []⟩, List.mem_cons_self, by decide⟩

end DshNexus.NodeRange
