import Mathlib

/-!
# Semantic versions

Versions with their precedence, and ranges as the Node package managers read them.

* `Version.precedence`: the precedence of a version, in a linear order of Mathlib: the three
  numbers first, a release after its prereleases, identifiers one by one, numbers before texts, and
  a longer list after its beginnings.  `precedence_injective`: no two versions have the same one.
* `compareVersion`: the comparison, case by case; `compares_version` says that it is that of the
  precedence, so it is a total order.
* `Requirement`, `Satisfies`: exact versions, lower bounds and carets; what satisfies a list of them.
-/

namespace DshNexus.SemVer

inductive Identifier where
  | numeric (n : Nat)
  | text (s : String)
  deriving DecidableEq, Repr

/-- A version without build metadata.  A release has no prerelease identifiers. -/
structure Version where
  major : Nat
  minor : Nat
  patch : Nat
  prerelease : List Identifier
  deriving DecidableEq, Repr

/-! ## Precedence -/

def Identifier.key : Identifier → ℕ ⊕ₗ String
  | .numeric n => Sum.inlₗ n
  | .text s => Sum.inrₗ s

/-- A release comes after its prereleases. -/
def prereleaseKey : List Identifier → WithTop (List (ℕ ⊕ₗ String))
  | [] => ⊤
  | identifier :: rest => some ((identifier :: rest).map Identifier.key)

def Version.precedence (v : Version) : ℕ ×ₗ ℕ ×ₗ ℕ ×ₗ WithTop (List (ℕ ⊕ₗ String)) :=
  toLex (v.major, toLex (v.minor, toLex (v.patch, prereleaseKey v.prerelease)))

theorem key_injective : Function.Injective Identifier.key := by
  intro a b h
  cases a with
  | numeric m =>
    cases b with
    | numeric n => rw [Sum.inl.inj (toLex.injective h)]
    | text s => cases toLex.injective h
  | text s =>
    cases b with
    | numeric n => cases toLex.injective h
    | text s' => rw [Sum.inr.inj (toLex.injective h)]

theorem prereleaseKey_injective : Function.Injective prereleaseKey := by
  intro a b h
  cases a with
  | nil =>
    cases b with
    | nil => rfl
    | cons i b => cases h
  | cons i a =>
    cases b with
    | nil => cases h
    | cons j b => exact (List.map_injective_iff.mpr key_injective) (Option.some.inj h)

/-- Versions with one precedence are the same version. -/
theorem precedence_injective : Function.Injective Version.precedence := by
  intro a b h
  obtain ⟨hmajor, h⟩ := Prod.mk.inj (toLex.injective h)
  obtain ⟨hminor, h⟩ := Prod.mk.inj (toLex.injective h)
  obtain ⟨hpatch, h⟩ := Prod.mk.inj (toLex.injective h)
  cases a
  cases b
  rw [Version.mk.injEq]
  exact ⟨hmajor, hminor, hpatch, prereleaseKey_injective h⟩

/-! ## The comparison -/

def compareIdentifier : Identifier → Identifier → Ordering
  | .numeric left, .numeric right => compare left right
  | .numeric _, .text _ => .lt
  | .text _, .numeric _ => .gt
  | .text left, .text right => compare left right

/-- Two lists of identifiers, one after the other. -/
def compareIdentifiers : List Identifier → List Identifier → Ordering
  | [], [] => .eq
  | [], _ :: _ => .lt
  | _ :: _, [] => .gt
  | left :: lefts, right :: rights =>
      (compareIdentifier left right).then (compareIdentifiers lefts rights)

def compareVersion (left right : Version) : Ordering :=
  (((compare left.major right.major).then (compare left.minor right.minor)).then
    (compare left.patch right.patch)).then
      (match left.prerelease.isEmpty, right.prerelease.isEmpty with
        | true, true => .eq
        | true, false => .gt
        | false, true => .lt
        | false, false => compareIdentifiers left.prerelease right.prerelease)

section Compare

variable {α β : Type} [LinearOrder α] [LinearOrder β] {o p : Ordering}

theorem compares_toLex {a c : α} {b d : β} (h : o.Compares a c) (h' : p.Compares b d) :
    (o.then p).Compares (toLex (a, b)) (toLex (c, d)) := by
  cases o with
  | lt => exact Prod.Lex.toLex_lt_toLex.mpr (Or.inl h)
  | gt => exact Prod.Lex.toLex_lt_toLex.mpr (Or.inl h)
  | eq =>
    obtain rfl : a = c := h
    cases p with
    | lt => exact Prod.Lex.toLex_lt_toLex.mpr (Or.inr ⟨rfl, h'⟩)
    | gt => exact Prod.Lex.toLex_lt_toLex.mpr (Or.inr ⟨rfl, h'⟩)
    | eq =>
      obtain rfl : b = d := h'
      exact rfl

theorem compares_cons {a b : α} {l m : List α} (h : o.Compares a b) (h' : p.Compares l m) :
    (o.then p).Compares (a :: l) (b :: m) := by
  cases o with
  | lt => exact List.Lex.rel h
  | gt => exact List.Lex.rel h
  | eq =>
    obtain rfl : a = b := h
    cases p with
    | lt => exact List.Lex.cons h'
    | gt => exact List.Lex.cons h'
    | eq =>
      obtain rfl : l = m := h'
      exact rfl

end Compare

theorem compares_identifier (left right : Identifier) :
    (compareIdentifier left right).Compares left.key right.key := by
  cases left with
  | numeric m =>
    cases right with
    | numeric n =>
      have h : (compare m n).Compares m n := by
        rw [← cmp_eq_compare]
        exact cmp_compares m n
      show (compare m n).Compares (Sum.inlₗ m : ℕ ⊕ₗ String) (Sum.inlₗ n)
      cases hcompare : compare m n with
      | lt => rw [hcompare] at h; exact Sum.Lex.inl_strictMono h
      | eq => rw [hcompare] at h; exact congrArg _ h
      | gt => rw [hcompare] at h; exact Sum.Lex.inl_strictMono h
    | text s => exact Sum.Lex.inl_lt_inr m s
  | text s =>
    cases right with
    | numeric n => exact Sum.Lex.inl_lt_inr n s
    | text s' =>
      have h : (compare s s').Compares s s' := by
        rw [← cmp_eq_compare]
        exact cmp_compares s s'
      show (compare s s').Compares (Sum.inrₗ s : ℕ ⊕ₗ String) (Sum.inrₗ s')
      cases hcompare : compare s s' with
      | lt => rw [hcompare] at h; exact Sum.Lex.inr_strictMono h
      | eq => rw [hcompare] at h; exact congrArg _ h
      | gt => rw [hcompare] at h; exact Sum.Lex.inr_strictMono h

theorem compares_identifiers (lefts : List Identifier) : ∀ rights,
    (compareIdentifiers lefts rights).Compares (lefts.map Identifier.key)
      (rights.map Identifier.key) := by
  induction lefts with
  | nil =>
    intro rights
    cases rights with
    | nil => exact rfl
    | cons right rights => exact List.Lex.nil
  | cons left lefts ih =>
    intro rights
    cases rights with
    | nil => exact List.Lex.nil
    | cons right rights => exact compares_cons (compares_identifier left right) (ih rights)

theorem compares_prerelease (left right : List Identifier) :
    (match left.isEmpty, right.isEmpty with
      | true, true => Ordering.eq
      | true, false => .gt
      | false, true => .lt
      | false, false => compareIdentifiers left right).Compares (prereleaseKey left)
        (prereleaseKey right) := by
  cases left with
  | nil =>
    cases right with
    | nil => exact rfl
    | cons i right => exact WithTop.coe_lt_top _
  | cons i left =>
    cases right with
    | nil => exact WithTop.coe_lt_top _
    | cons j right =>
      have h := compares_identifiers (i :: left) (j :: right)
      dsimp only [List.isEmpty_cons]
      cases hcompare : compareIdentifiers (i :: left) (j :: right) with
      | lt => rw [hcompare] at h; exact WithTop.coe_lt_coe.mpr h
      | eq => rw [hcompare] at h; exact congrArg some h
      | gt => rw [hcompare] at h; exact WithTop.coe_lt_coe.mpr h

/-- **The comparison is that of the precedence.** -/
theorem compares_version (left right : Version) :
    (compareVersion left right).Compares left.precedence right.precedence := by
  have hnat : ∀ m n : ℕ, (compare m n).Compares m n := by
    intro m n
    rw [← cmp_eq_compare]
    exact cmp_compares m n
  unfold compareVersion Version.precedence
  rw [Ordering.then_assoc, Ordering.then_assoc]
  exact compares_toLex (hnat _ _) (compares_toLex (hnat _ _) (compares_toLex (hnat _ _)
    (compares_prerelease _ _)))

/-! ## Requirements -/

inductive Requirement where
  | exact (v : Version)
  | atLeast (v : Version)
  | caret (v : Version)
  deriving DecidableEq, Repr

def Requirement.version : Requirement → Version
  | exact v => v
  | atLeast v => v
  | caret v => v

/-- The next version that may break what works with a version. -/
def nextBreaking (v : Version) : Version :=
  if 0 < v.major then ⟨v.major + 1, 0, 0, []⟩
  else if 0 < v.minor then ⟨0, v.minor + 1, 0, []⟩
  else ⟨0, 0, v.patch + 1, []⟩

def Version.first (v : Version) : Version := { v with prerelease := [.numeric 0] }

def SameRelease (v w : Version) : Prop :=
  v.major = w.major ∧ v.minor = w.minor ∧ v.patch = w.patch

instance instDecidableSameRelease (v w : Version) : Decidable (SameRelease v w) :=
  inferInstanceAs (Decidable (v.major = w.major ∧ v.minor = w.minor ∧ v.patch = w.patch))

/-- **A version meets a requirement.**  A caret leaves out the prereleases of the next breaking
version. -/
def Requirement.Holds (v : Version) : Requirement → Prop
  | exact w => v = w
  | atLeast w => w.precedence ≤ v.precedence
  | caret w => w.precedence ≤ v.precedence ∧ v.precedence < (nextBreaking w).first.precedence

/-- A release may be met by any requirements, and a prerelease only by those that name a prerelease
of the same release. -/
def Named (set : List Requirement) (v : Version) : Prop :=
  v.prerelease = [] ∨ ∃ r ∈ set, r.version.prerelease ≠ [] ∧ SameRelease r.version v

/-- **A version satisfies a set of requirements.** -/
def Satisfies (set : List Requirement) (v : Version) : Prop :=
  (∀ r ∈ set, r.Holds v) ∧ Named set v

def SatisfiesRange (range : List (List Requirement)) (v : Version) : Prop :=
  ∃ set ∈ range, Satisfies set v

theorem precedence_lt_iff {v w : Version} : v.precedence < w.precedence ↔
    v.major < w.major ∨ v.major = w.major ∧ (v.minor < w.minor ∨ v.minor = w.minor ∧
      (v.patch < w.patch ∨ v.patch = w.patch ∧
        prereleaseKey v.prerelease < prereleaseKey w.prerelease)) := by
  unfold Version.precedence
  rw [Prod.Lex.toLex_lt_toLex, Prod.Lex.toLex_lt_toLex, Prod.Lex.toLex_lt_toLex]

/-- No prerelease comes before the first one. -/
theorem not_lt_first (identifiers : List Identifier) :
    ¬ prereleaseKey identifiers < prereleaseKey [.numeric 0] := by
  cases identifiers with
  | nil => exact not_top_lt
  | cons i rest =>
    intro h
    have hlex : (i :: rest).map Identifier.key < [Identifier.key (.numeric 0)] :=
      WithTop.coe_lt_coe.mp h
    rw [List.map_cons] at hlex
    rcases List.cons_lt_cons_iff.mp hlex with hkey | ⟨-, hrest⟩
    · cases i with
      | numeric n => exact Nat.not_lt_zero n (Sum.Lex.inl_lt_inl_iff.mp hkey)
      | text s => exact Sum.Lex.not_inr_lt_inl hkey
    · exact List.not_lt_nil _ hrest

/-- **Before the first prerelease of a release** is what is before the release and has other
numbers. -/
theorem lt_first_iff {v w : Version} (hw : w.prerelease = []) :
    v.precedence < w.first.precedence ↔ v.precedence < w.precedence ∧ ¬ SameRelease v w := by
  have hnot := not_lt_first v.prerelease
  rw [precedence_lt_iff, precedence_lt_iff]
  unfold Version.first SameRelease
  dsimp only
  rw [hw]
  constructor
  · rintro (h | ⟨hmajor, h | ⟨hminor, h | ⟨-, h⟩⟩⟩)
    · exact ⟨Or.inl h, fun hsame => by omega⟩
    · exact ⟨Or.inr ⟨hmajor, Or.inl h⟩, fun hsame => by omega⟩
    · exact ⟨Or.inr ⟨hmajor, Or.inr ⟨hminor, Or.inl h⟩⟩, fun hsame => by omega⟩
    · exact absurd h hnot
  · rintro ⟨h | ⟨hmajor, h | ⟨hminor, h | ⟨hpatch, -⟩⟩⟩, hsame⟩
    · exact Or.inl h
    · exact Or.inr ⟨hmajor, Or.inl h⟩
    · exact Or.inr ⟨hmajor, Or.inr ⟨hminor, Or.inl h⟩⟩
    · exact absurd ⟨hmajor, hminor, hpatch⟩ hsame

@[simp] theorem prerelease_nextBreaking (v : Version) : (nextBreaking v).prerelease = [] := by
  unfold nextBreaking
  split
  · rfl
  · split
    · rfl
    · rfl

end DshNexus.SemVer
