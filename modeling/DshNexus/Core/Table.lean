import Mathlib.Data.List.AList

/-!
# Tables

Finite maps from keys to values, as `AList`s with one type of values.

* `lookup_insert`, `lookup_erase`: a lookup after a change.
* `ForallEntry`: a condition on all entries, which can be decided.
-/

namespace DshNexus.Table

variable {α β : Type} [DecidableEq α] {m : AList fun _ : α => β}

@[grind =]
theorem lookup_insert (key key' : α) (value : β) :
    (m.insert key value).lookup key' = if key' = key then some value else m.lookup key' := by
  split
  · next h => rw [h, AList.lookup_insert]
  · next h => exact AList.lookup_insert_ne h

@[grind =]
theorem lookup_erase (key key' : α) :
    (m.erase key).lookup key' = if key' = key then none else m.lookup key' := by
  split
  · next h => rw [h, AList.lookup_erase]
  · next h => exact AList.lookup_erase_ne h

@[simp]
theorem lookup_empty (key : α) : (∅ : AList fun _ : α => β).lookup key = none := rfl

/-- Every entry of the table meets the condition. -/
def ForallEntry (m : AList fun _ : α => β) (P : α → β → Prop) : Prop :=
  ∀ key value, m.lookup key = some value → P key value

theorem forallEntry_iff {P : α → β → Prop} :
    ForallEntry m P ↔ ∀ entry ∈ m.entries, P entry.1 entry.2 :=
  ⟨fun h entry he => h entry.1 entry.2 (AList.mem_lookup_iff.mpr he),
    fun h key value hk => h ⟨key, value⟩ (AList.mem_lookup_iff.mp hk)⟩

instance {P : α → β → Prop} [∀ key value, Decidable (P key value)] :
    Decidable (ForallEntry m P) := decidable_of_iff' _ forallEntry_iff

end DshNexus.Table
