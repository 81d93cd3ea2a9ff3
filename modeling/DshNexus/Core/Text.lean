import Mathlib

/-!
# Texts as lists of characters

The text operations of the code, on lists of characters: splitting at the first occurrence of a
character or of a text, trimming, and looking for a text in another.

* `splitOnce_eq_some`, `splitOnce_eq_none`, `splitOnce_append`: the two parts of a text at the
  first occurrence of a character; `rsplitOnce_eq_some`, `rsplitOnce_eq_none` at the last one.
* `splitAtText_eq_some`, `splitAtText_append`: the two parts at a text; what follows the first
  occurrence does not matter for finding it.
* `isInfix_of_isInfix_append`: an occurrence whose last character is not in the second of two
  texts lies in the first.
-/

namespace DshNexus.Text

variable {α : Type} [DecidableEq α]

/-- `split_once` at a character. -/
def splitOnce (c : α) : List α → Option (List α × List α)
  | [] => none
  | d :: ds => if d = c then some ([], ds) else (splitOnce c ds).map fun p => (d :: p.1, p.2)

theorem splitOnce_eq_some {c : α} {text before after : List α}
    (h : splitOnce c text = some (before, after)) : text = before ++ c :: after ∧ c ∉ before := by
  induction text generalizing before with
  | nil => cases h
  | cons d ds ih =>
    rw [splitOnce] at h
    split at h
    · next hd =>
      obtain ⟨rfl, rfl⟩ := Prod.mk.inj (Option.some.inj h)
      rw [hd]
      exact ⟨rfl, List.not_mem_nil⟩
    · next hd =>
      obtain ⟨⟨before', after'⟩, hrest, heq⟩ := Option.map_eq_some_iff.mp h
      obtain ⟨rfl, rfl⟩ := Prod.mk.inj heq
      obtain ⟨rfl, hnot⟩ := ih hrest
      refine ⟨rfl, fun hmem => ?_⟩
      rcases List.mem_cons.mp hmem with rfl | hmem
      · exact hd rfl
      · exact hnot hmem

theorem splitOnce_eq_none {c : α} {text : List α} : splitOnce c text = none ↔ c ∉ text := by
  induction text with
  | nil => simp [splitOnce]
  | cons d ds ih =>
    rw [splitOnce, List.mem_cons, not_or]
    split
    · next hd => exact iff_of_false (by simp) fun h => h.1 hd.symm
    · next hd =>
      rw [Option.map_eq_none_iff, ih]
      exact (and_iff_right fun h => hd h.symm).symm

theorem splitOnce_append {c : α} {before : List α} (after : List α) (h : c ∉ before) :
    splitOnce c (before ++ c :: after) = some (before, after) := by
  induction before with
  | nil => rw [List.nil_append, splitOnce, if_pos rfl]
  | cons d ds ih =>
    rw [List.mem_cons, not_or] at h
    rw [List.cons_append, splitOnce, if_neg fun hd => h.1 hd.symm, ih h.2]
    rfl

/-- What stands before the first occurrence of a character, or the whole text. -/
theorem takeWhile_eq_splitOnce (c : α) (text : List α) :
    (text.takeWhile fun d => d ≠ c) = ((splitOnce c text).map Prod.fst).getD text := by
  induction text with
  | nil => rfl
  | cons d ds ih =>
    by_cases hd : d = c
    · rw [List.takeWhile_cons_of_neg (by simpa using hd), splitOnce, if_pos hd]
      rfl
    · rw [List.takeWhile_cons_of_pos (by simpa using hd), ih, splitOnce, if_neg hd]
      cases splitOnce c ds <;> rfl

/-- `rsplit_once` at a character. -/
def rsplitOnce (c : α) (text : List α) : Option (List α × List α) :=
  (splitOnce c text.reverse).map fun p => (p.2.reverse, p.1.reverse)

theorem rsplitOnce_eq_some {c : α} {text before after : List α} :
    rsplitOnce c text = some (before, after) ↔ text = before ++ c :: after ∧ c ∉ after := by
  unfold rsplitOnce
  constructor
  · intro h
    obtain ⟨⟨late, early⟩, hsplit, heq⟩ := Option.map_eq_some_iff.mp h
    obtain ⟨rfl, rfl⟩ := Prod.mk.inj heq
    obtain ⟨htext, hlate⟩ := splitOnce_eq_some hsplit
    have htext' := congrArg List.reverse htext
    rw [List.reverse_reverse, List.reverse_append, List.reverse_cons, List.append_assoc] at htext'
    exact ⟨htext', by rwa [List.mem_reverse]⟩
  · rintro ⟨rfl, hafter⟩
    have hreverse : (before ++ c :: after).reverse = after.reverse ++ c :: before.reverse := by
      simp
    rw [hreverse, splitOnce_append _ (by rwa [List.mem_reverse])]
    simp

theorem rsplitOnce_eq_none {c : α} {text : List α} : rsplitOnce c text = none ↔ c ∉ text := by
  rw [rsplitOnce, Option.map_eq_none_iff, splitOnce_eq_none, List.mem_reverse]

/-- The parts of a text before and after the first occurrence of another. -/
def splitAtText (needle : List α) : List α → Option (List α × List α)
  | [] => if needle = [] then some ([], []) else none
  | c :: cs =>
      if needle.isPrefixOf (c :: cs) = true then some ([], (c :: cs).drop needle.length)
      else (splitAtText needle cs).map fun p => (c :: p.1, p.2)

theorem splitAtText_eq_some {needle text before after : List α}
    (h : splitAtText needle text = some (before, after)) : text = before ++ needle ++ after := by
  induction text generalizing before with
  | nil =>
    rw [splitAtText] at h
    split at h
    · next hneedle =>
      obtain ⟨rfl, rfl⟩ := Prod.mk.inj (Option.some.inj h)
      rw [hneedle]
      rfl
    · cases h
  | cons c cs ih =>
    rw [splitAtText] at h
    split at h
    · next hprefix =>
      obtain ⟨rfl, rfl⟩ := Prod.mk.inj (Option.some.inj h)
      obtain ⟨rest, hrest⟩ := List.isPrefixOf_iff_prefix.mp hprefix
      rw [← hrest, List.drop_left]
      rfl
    · obtain ⟨⟨before', after'⟩, hrest, heq⟩ := Option.map_eq_some_iff.mp h
      obtain ⟨rfl, rfl⟩ := Prod.mk.inj heq
      rw [ih hrest]
      rfl

/-- The first occurrence is found whatever follows it. -/
theorem splitAtText_append {needle text before after : List α}
    (h : splitAtText needle text = some (before, after)) (rest : List α) :
    splitAtText needle (before ++ needle ++ rest) = some (before, rest) := by
  induction text generalizing before with
  | nil =>
    rw [splitAtText] at h
    split at h
    · next hneedle =>
      obtain ⟨rfl, rfl⟩ := Prod.mk.inj (Option.some.inj h)
      subst hneedle
      cases rest with
      | nil => rfl
      | cons c cs => rfl
    · cases h
  | cons c cs ih =>
    rw [splitAtText] at h
    split at h
    · next hprefix =>
      obtain ⟨rfl, rfl⟩ := Prod.mk.inj (Option.some.inj h)
      rw [List.nil_append]
      cases hneedle : needle ++ rest with
      | nil =>
        rw [List.append_eq_nil_iff] at hneedle
        rw [splitAtText, if_pos hneedle.1, hneedle.2]
      | cons d ds =>
        rw [splitAtText, ← hneedle, if_pos (List.isPrefixOf_iff_prefix.mpr (List.prefix_append _ _)),
          List.drop_left]
    · next hprefix =>
      obtain ⟨⟨before', after'⟩, hrest, heq⟩ := Option.map_eq_some_iff.mp h
      obtain ⟨rfl, rfl⟩ := Prod.mk.inj heq
      have hcs := splitAtText_eq_some hrest
      have hnot : ¬ needle.isPrefixOf (c :: (before' ++ needle ++ rest)) = true := by
        rw [List.isPrefixOf_iff_prefix] at hprefix ⊢
        intro hfound
        refine hprefix ?_
        have hshort : needle <+: c :: (before' ++ needle) := by
          refine List.prefix_of_prefix_length_le hfound ?_ (by simp; omega)
          exact ⟨rest, by simp⟩
        rw [hcs]
        exact hshort.trans ⟨after', by simp⟩
      rw [List.cons_append, List.cons_append, splitAtText, if_neg hnot, ih hrest]
      rfl

omit [DecidableEq α] in
/-- Where a text ends with a character that a second part does not have, it lies in the first. -/
theorem isInfix_of_isInfix_append {needle : List α} {last : α} {left right : List α}
    (hright : last ∉ right) (h : needle ++ [last] <:+: left ++ right) :
    needle ++ [last] <:+: left := by
  obtain ⟨before, after, heq⟩ := h
  rcases List.append_eq_append_iff.mp heq with ⟨middle, hleft, hafter⟩ | ⟨middle, hbefore, hright'⟩
  · exact ⟨before, middle, hleft.symm⟩
  · -- the occurrence would reach into the second part
    rcases List.eq_nil_or_concat middle with rfl | ⟨init, d, rfl⟩
    · rw [List.append_nil] at hbefore
      exact ⟨before, [], by rw [List.append_nil, hbefore]⟩
    · rw [← List.append_assoc, List.concat_eq_append, ← List.append_assoc] at hbefore
      have hd := (List.append_inj' hbefore rfl).2
      rw [hright', List.concat_eq_append] at hright
      refine absurd ?_ hright
      rw [List.singleton_inj] at hd
      rw [hd]
      simp

/-- The part after the last occurrence of a character, or the whole text. -/
def afterLast (c : α) (text : List α) : List α :=
  (text.reverse.takeWhile fun d => d ≠ c).reverse

theorem notMem_afterLast (c : α) (text : List α) : c ∉ afterLast c text := by
  unfold afterLast
  rw [List.mem_reverse]
  intro h
  exact absurd (List.mem_takeWhile_imp h) (by simp)

theorem afterLast_subset (c : α) (text : List α) : ∀ d ∈ afterLast c text, d ∈ text := by
  unfold afterLast
  intro d hd
  rw [List.mem_reverse] at hd
  exact List.mem_reverse.mp ((List.takeWhile_prefix _).subset hd)

end DshNexus.Text
