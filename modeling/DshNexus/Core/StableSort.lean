import Mathlib

/-!
# The first match in a stably sorted list

Sorting a list and taking the first element with a property finds a best element with that
property; among equals, stability makes it the first one of the original list.
`find?_insertionSort_eq_some` says this in terms of the original list only.
`mem_take_insertionSort_iff` tells which elements are among the first of the sorted list.
-/

namespace DshNexus

section StableSort

variable {α : Type} {r : α → α → Prop} [DecidableRel r] [Std.Total r] [IsTrans α r]
  {p : α → Bool} {l : List α} {x a : α}

omit [Std.Total r] in
/-- Inserting an element changes the first match only if it matches and comes first. -/
theorem find?_orderedInsert (h : l.Pairwise r) :
    (l.orderedInsert r x).find? p =
      match l.find? p with
      | none => if p x = true then some x else none
      | some b => if p x = true ∧ r x b then some x else some b := by
  induction l with
  | nil => cases hx : p x <;> simp [hx]
  | cons c l ih =>
    obtain ⟨hc, hl⟩ := List.pairwise_cons.mp h
    rw [List.orderedInsert_cons]
    split
    · next hxc =>
      -- the element goes to the front, and precedes whatever is found behind
      cases hx : p x with
      | true =>
        rw [List.find?_cons_of_pos hx]
        split
        · rfl
        · next b hb =>
          have hxb : r x b := by
            rcases List.mem_cons.mp (List.mem_of_find?_eq_some hb) with rfl | hmem
            · exact hxc
            · exact IsTrans.trans _ _ _ hxc (hc b hmem)
          rw [if_pos ⟨rfl, hxb⟩]
      | false =>
        rw [List.find?_cons_of_neg (by simp [hx])]
        split <;> simp_all
    · next hxc =>
      cases hcp : p c with
      | true => simp [List.find?_cons_of_pos hcp, hxc]
      | false =>
        have hneg : ¬ p c = true := by simp [hcp]
        rw [List.find?_cons_of_neg hneg, List.find?_cons_of_neg hneg]
        exact ih hl

/-- **The first match in a stably sorted list**: it comes before every match behind it in
the original list, and strictly before every match ahead of it. -/
theorem find?_insertionSort_eq_some :
    (l.insertionSort r).find? p = some a ↔ ∃ before after, l = before ++ a :: after ∧
      p a = true ∧ (∀ b ∈ before, p b = true → ¬ r b a) ∧ ∀ b ∈ after, p b = true → r a b := by
  induction l generalizing a with
  | nil => simp
  | cons x l ih =>
    rw [List.insertionSort_cons, find?_orderedInsert (List.pairwise_insertionSort r l)]
    have hsplit : (∃ before after, x :: l = before ++ a :: after ∧ p a = true ∧
        (∀ b ∈ before, p b = true → ¬ r b a) ∧ ∀ b ∈ after, p b = true → r a b) ↔
        (x = a ∧ p a = true ∧ ∀ b ∈ l, p b = true → r a b) ∨
          ((l.insertionSort r).find? p = some a ∧ (p x = true → ¬ r x a)) := by
      rw [ih]
      constructor
      · rintro ⟨_ | ⟨c, before⟩, after, heq, ha, hbefore, hafter⟩
        · obtain ⟨rfl, rfl⟩ := List.cons.inj heq
          exact Or.inl ⟨rfl, ha, hafter⟩
        · obtain ⟨rfl, rfl⟩ := List.cons.inj heq
          exact Or.inr ⟨⟨before, after, rfl, ha, fun b hb => hbefore b (List.mem_cons_of_mem _ hb),
            hafter⟩, hbefore x (List.mem_cons_self ..)⟩
      · rintro (⟨rfl, ha, hafter⟩ | ⟨⟨before, after, rfl, ha, hbefore, hafter⟩, hx⟩)
        · exact ⟨[], l, rfl, ha, by simp, hafter⟩
        · refine ⟨x :: before, after, rfl, ha, fun b hb => ?_, hafter⟩
          rcases List.mem_cons.mp hb with rfl | hb
          · exact hx
          · exact hbefore b hb
    rw [hsplit]
    cases hfind : (l.insertionSort r).find? p with
    | none =>
      have hnone : ∀ b ∈ l, ¬ p b = true := fun b hb =>
        List.find?_eq_none.mp hfind b ((List.mem_insertionSort r).mpr hb)
      cases hx : p x with
      | true =>
        simp only [if_pos, Option.some.injEq, reduceCtorEq, false_and, or_false]
        refine ⟨fun h => ⟨h, h ▸ hx, fun b hb hp => absurd hp (hnone b hb)⟩, fun h => h.1⟩
      | false =>
        simp only [Bool.false_eq_true, if_false, reduceCtorEq, false_and, or_false, false_iff]
        rintro ⟨rfl, ha, -⟩
        exact absurd ha (by simp [hx])
    | some b =>
      have hb : b ∈ l := (List.mem_insertionSort r).mp (List.mem_of_find?_eq_some hfind)
      have hpb := List.find?_some hfind
      obtain ⟨before, after, hl, -, hbefore, hafter⟩ := ih.mp hfind
      have hbest : ∀ c ∈ l, p c = true → r b c := by
        intro c hc hpc
        rw [hl, List.mem_append, List.mem_cons] at hc
        rcases hc with hc | rfl | hc
        · exact (Std.Total.total b c).resolve_right (hbefore c hc hpc)
        · exact refl_of r c
        · exact hafter c hc hpc
      dsimp only
      split
      · next hx =>
        rw [Option.some.injEq, Option.some.injEq]
        constructor
        · rintro rfl
          exact Or.inl ⟨rfl, hx.1, fun c hc hpc => IsTrans.trans _ _ _ hx.2 (hbest c hc hpc)⟩
        · rintro (⟨rfl, -, -⟩ | ⟨rfl, hnot⟩)
          · rfl
          · exact absurd hx.2 (hnot hx.1)
      · next hx =>
        rw [Option.some.injEq]
        constructor
        · rintro rfl
          exact Or.inr ⟨rfl, fun hp hr => hx ⟨hp, hr⟩⟩
        · rintro (⟨rfl, ha, hall⟩ | ⟨h, -⟩)
          · exact absurd ⟨ha, hall b hb hpb⟩ hx
          · exact h

/-- **Among the first of a sorted list**: fewer elements than that come before the element. -/
theorem mem_take_insertionSort_iff (ha : a ∈ l) (hnodup : l.Nodup)
    (hanti : ∀ b ∈ l, r b a → r a b → b = a) (n : Nat) :
    a ∈ (l.insertionSort r).take n ↔ (l.filter fun b => ¬ r a b).length < n := by
  have hperm := List.perm_insertionSort r l
  have hsorted := List.pairwise_insertionSort r l
  have hnodup' : (l.insertionSort r).Nodup := hperm.nodup_iff.mpr hnodup
  obtain ⟨before, after, hsplit⟩ := List.append_of_mem (hperm.mem_iff.mpr ha)
  have hcount := (hperm.filter fun b => ¬ r a b).length_eq
  rw [hsplit] at hsorted hnodup' hcount ⊢
  obtain ⟨-, hright, hcross⟩ := List.pairwise_append.mp hsorted
  have hnotMem : a ∉ before := fun hmem =>
    (List.disjoint_of_nodup_append hnodup') hmem List.mem_cons_self
  have hself : r a a := by
    rcases Std.Total.total (r := r) a a with h | h <;> exact h
  have hbefore : before.filter (fun b => ¬ r a b) = before := by
    refine List.filter_eq_self.mpr fun b hb => decide_eq_true fun hab => hnotMem ?_
    have hmem : b ∈ l := hperm.mem_iff.mp (by rw [hsplit]; simp [hb])
    rw [← hanti b hmem (hcross b hb a List.mem_cons_self) hab]
    exact hb
  have hafter : (a :: after).filter (fun b => ¬ r a b) = [] := by
    refine List.filter_eq_nil_iff.mpr fun b hb => ?_
    rcases List.mem_cons.mp hb with rfl | hb
    · simp [hself]
    · simp [List.rel_of_pairwise_cons hright hb]
  rw [List.filter_append, hbefore, hafter, List.append_nil] at hcount
  rw [← hcount]
  constructor
  · intro hmem
    by_contra hle
    rw [List.take_append_of_le_length (by omega)] at hmem
    exact hnotMem (List.mem_of_mem_take hmem)
  · intro hlt
    rw [List.take_append]
    obtain ⟨k, hk⟩ : ∃ k, n - before.length = k + 1 := ⟨n - before.length - 1, by omega⟩
    rw [hk, List.take_succ_cons]
    simp

end StableSort

end DshNexus
