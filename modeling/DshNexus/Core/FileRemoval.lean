import DshNexus.Core.FileTree

/-!
# Removal in file trees

A file tree whose directories can be listed, and the operations that take something out of it by
its path.  The links on the way to a path are followed; one at the path itself is not.

* `ListedTree`, `erase`: the tree without a place that has nothing in it.
* `removeEntry`: what is at a path, taken out if it is of an accepted kind; `removeEntry_eq_ok`,
  `removeEntry_of_accepts`.
* `readDir`: the names of a directory, reached through links.
* `Shrinks`: a tree that has less, below one place only.
-/

namespace DshNexus

structure ListedTree (γ : Type) extends FileTree γ where
  names : Place → List String
  mem_names : ∀ p name, name ∈ names p ↔ node (p ++ [name]) ≠ none
  nodup : ∀ p, (names p).Nodup

inductive RemoveError where
  | walk (error : WalkError)
  | wrongKind
  | notEmpty
  deriving DecidableEq, Repr

namespace ListedTree

open FileTree

variable {γ : Type}

/-- The tree without what is at a place.  Nothing is in it, and it is not the root directory. -/
def erase (t : ListedTree γ) (p : Place) (hroot : p ≠ []) (hempty : t.names p = []) :
    ListedTree γ where
  node q := if q = p then none else t.node q
  root := by
    rw [if_neg hroot.symm]
    exact t.root
  parent q name h := by
    have hthere : t.node (q ++ [name]) ≠ none := by
      intro hnone
      rw [hnone, ite_self] at h
      exact h rfl
    rw [if_neg, t.parent q name hthere]
    rintro rfl
    have hmem := (t.mem_names q name).mpr hthere
    rw [hempty] at hmem
    cases hmem
  names q := (t.names q).filter fun name => q ++ [name] ≠ p
  mem_names q name := by
    rw [List.mem_filter, t.mem_names, decide_eq_true_eq]
    by_cases h : q ++ [name] = p
    · simp [h]
    · simp [h]
  nodup q := (t.nodup q).filter _

theorem node_erase (t : ListedTree γ) {p : Place} (hroot : p ≠ []) (hempty : t.names p = [])
    (q : Place) : (t.erase p hroot hempty).node q = if q = p then none else t.node q := rfl

/-- Something that is no directory has nothing in it. -/
theorem names_of_not_directory {t : ListedTree γ} {p : Place}
    (h : t.node p ≠ some .directory) : t.names p = [] := by
  rw [List.eq_nil_iff_forall_not_mem]
  intro name hname
  exact h (t.parent p name ((t.mem_names p name).mp hname))

def entryPlace (t : ListedTree γ) (links : Nat) (p : Place) : Except WalkError Place :=
  match p.getLast? with
  | none => .ok []
  | some name =>
      match t.resolve links [] (hopsTo p.dropLast) with
      | .error error => .error error
      | .ok parent => if t.isDirectory parent then .ok (parent ++ [name]) else .error .notADirectory

/-- The entry at a path, taken out of the tree. -/
def removeEntry (t : ListedTree γ) (links : Nat) (accepts : Place → Node γ → Bool) (p : Place) :
    Except RemoveError (ListedTree γ) :=
  match t.entryPlace links p with
  | .error error => .error (.walk error)
  | .ok q =>
      match t.node q with
      | none => .error (.walk .notFound)
      | some found =>
          if accepts q found = false then .error .wrongKind
          else if h : q ≠ [] ∧ t.names q = [] then .ok (t.erase q h.1 h.2)
          else .error .notEmpty

def readDir (t : ListedTree γ) (links : Nat) (p : Place) : Except WalkError (List String) :=
  match t.resolve links [] (hopsTo p) with
  | .error error => .error error
  | .ok q => if t.isDirectory q then .ok (t.names q) else .error .notADirectory

/-- A place that is there, and is not the root directory, is in a directory. -/
theorem parent_of_node {t : ListedTree γ} {p : Place} (hroot : p ≠ []) (hp : t.node p ≠ none) :
    ∃ q name, p = q ++ [name] ∧ t.node q = some .directory := by
  rcases List.eq_nil_or_concat p with rfl | ⟨q, name, rfl⟩
  · exact absurd rfl hroot
  · rw [List.concat_eq_append] at hp ⊢
    exact ⟨q, name, rfl, t.parent q name hp⟩

/-- What is in a directory is found at its own place. -/
theorem entryPlace_of_node {t : ListedTree γ} {p : Place} (hroot : p ≠ [])
    (hp : t.node p ≠ none) (links : Nat) : t.entryPlace links p = .ok p := by
  obtain ⟨q, name, rfl, hq⟩ := parent_of_node hroot hp
  unfold entryPlace
  rw [List.getLast?_concat, List.dropLast_concat]
  dsimp only
  rw [resolve_of_real (Real.of_directory hq)]
  dsimp only
  rw [if_pos (isDirectory_iff.mpr hq)]

theorem lookup_of_node {t : ListedTree γ} {p : Place} {found : Node γ} (hroot : p ≠ [])
    (hp : t.node p = some found) (links : Nat) : t.lookup links p = .ok found := by
  have hne : t.node p ≠ none := by
    rw [hp]
    exact Option.some_ne_none _
  obtain ⟨q, name, rfl, hq⟩ := parent_of_node hroot hne
  rw [lookup_of_directory hq, hp]

/-- What is taken out by its own place. -/
theorem removeEntry_of_node {t : ListedTree γ} {p : Place} {found : Node γ} (hroot : p ≠ [])
    (hp : t.node p = some found) (links : Nat) (accepts : Place → Node γ → Bool) :
    t.removeEntry links accepts p =
      if accepts p found = false then .error .wrongKind
      else if h : p ≠ [] ∧ t.names p = [] then .ok (t.erase p h.1 h.2) else .error .notEmpty := by
  have hne : t.node p ≠ none := by
    rw [hp]
    exact Option.some_ne_none _
  unfold removeEntry
  rw [entryPlace_of_node hroot hne]
  dsimp only
  rw [hp]

/-- **A removal takes out its own place and nothing else.** -/
theorem removeEntry_eq_ok {t t' : ListedTree γ} {p : Place} {links : Nat}
    {accepts : Place → Node γ → Bool} (hroot : p ≠ []) (hp : t.node p ≠ none)
    (h : t.removeEntry links accepts p = .ok t') :
    ∃ hempty : t.names p = [], t' = t.erase p hroot hempty := by
  obtain ⟨found, hfound⟩ := Option.ne_none_iff_exists'.mp hp
  rw [removeEntry_of_node hroot hfound] at h
  split at h
  · cases h
  · split at h
    · next hempty => exact ⟨hempty.2, (Except.ok.inj h).symm⟩
    · cases h

/-- An entry of an accepted kind that has nothing in it is removed. -/
theorem removeEntry_of_accepts {t : ListedTree γ} {p : Place} {found : Node γ} {links : Nat}
    {accepts : Place → Node γ → Bool} (hroot : p ≠ []) (hp : t.node p = some found)
    (hempty : t.names p = []) (haccepts : accepts p found = true) :
    t.removeEntry links accepts p = .ok (t.erase p hroot hempty) := by
  rw [removeEntry_of_node hroot hp, haccepts, if_neg (by decide), dif_pos ⟨hroot, hempty⟩]

theorem readDir_of_directory {t : ListedTree γ} {p : Place} (hp : t.node p = some .directory)
    (links : Nat) : t.readDir links p = .ok (t.names p) := by
  unfold readDir
  rw [resolve_of_real (Real.of_directory hp)]
  dsimp only
  rw [if_pos (isDirectory_iff.mpr hp)]

/-! ## Trees that have less -/

/-- The second tree is the first one without some of what was at a place or below it. -/
def Shrinks (top : Place) (t t' : ListedTree γ) : Prop :=
  ∀ q, t'.node q = t.node q ∨ (top <+: q ∧ t'.node q = none)

theorem Shrinks.refl (top : Place) (t : ListedTree γ) : Shrinks top t t := fun _ => Or.inl rfl

theorem Shrinks.trans {top : Place} {t t' t'' : ListedTree γ} (h : Shrinks top t t')
    (h' : Shrinks top t' t'') : Shrinks top t t'' := by
  intro q
  rcases h' q with h' | h'
  · rw [h']
    exact h q
  · exact Or.inr h'

theorem Shrinks.erase {top p : Place} (t : ListedTree γ) (htop : top <+: p) (hroot : p ≠ [])
    (hempty : t.names p = []) : Shrinks top t (t.erase p hroot hempty) := by
  intro q
  rw [node_erase]
  by_cases h : q = p
  · rw [if_pos h, h]
    exact Or.inr ⟨htop, rfl⟩
  · rw [if_neg h]
    exact Or.inl rfl

/-- What is not at the place or below it stays. -/
theorem Shrinks.outside {top q : Place} {t t' : ListedTree γ} (h : Shrinks top t t')
    (hq : ¬ top <+: q) : t'.node q = t.node q :=
  (h q).resolve_right fun hbelow => hq hbelow.1

theorem Shrinks.node_ne_none {top q : Place} {t t' : ListedTree γ} (h : Shrinks top t t')
    (hq : t'.node q ≠ none) : t'.node q = t.node q :=
  (h q).resolve_right fun hbelow => hq hbelow.2

end ListedTree
end DshNexus
