import Mathlib
import DshNexus.Core.Io

/-!
# File trees with symbolic links

A file system as a map from places, which are lists of names from the root directory, to
directories, files and links.  A path is resolved step by step: a link on the way is replaced by
what it says, and `..` goes to the parent of the place that was reached.

* `FileTree`: the tree, with its law that what is there is in a directory.
* `walk`, `resolve`: the place of a path, through at most so many links.
* `Real`: a place that is there and is no link; `real_of_resolve`, `resolve_of_real`.
* `resolve_concat`: a path that goes on from where its first part leads.
* `lookup`: what is at a place, reached through the links of its parent; `lookup_of_directory`.
* `Extends`, `add`: a tree that has more; `Extends.resolve_of_real`.
-/

namespace DshNexus

inductive Hop where
  | name (text : String)
  | here
  | up
  deriving DecidableEq, Repr

/-- A path: whether it starts at the root directory, and its steps. -/
structure Route where
  absolute : Bool
  hops : List Hop
  deriving DecidableEq, Repr

/-- A part of a path's text.  An empty part asks for a directory, as `.` does. -/
def Hop.parse (part : String) : Hop :=
  if part = "" ∨ part = "." then .here else if part = ".." then .up else .name part

def Route.parse (text : String) : Route :=
  ⟨decide (text.toList.head? = some '/'),
    (text.toList.splitOn '/').map fun part => Hop.parse (String.ofList part)⟩

/-- A place: the names from the root directory. -/
abbrev Place := List String

inductive Node (γ : Type) where
  | directory
  | file (content : γ)
  | link (route : Route)
  deriving DecidableEq, Repr

structure FileTree (γ : Type) where
  node : Place → Option (Node γ)
  root : node [] = some .directory
  parent : ∀ p name, node (p ++ [name]) ≠ none → node p = some .directory

inductive WalkError where
  | notFound
  | notADirectory
  | tooManyLinks
  deriving DecidableEq, Repr

inductive Walk where
  | reached (place : Place)
  | link (base : Place) (route : Route) (rest : List Hop)
  | failed (error : WalkError)
  deriving DecidableEq, Repr

namespace FileTree

variable {γ : Type}

def isDirectory (t : FileTree γ) (p : Place) : Bool :=
  match t.node p with
  | some .directory => true
  | some (.file _) => false
  | some (.link _) => false
  | none => false

theorem isDirectory_iff {t : FileTree γ} {p : Place} :
    t.isDirectory p = true ↔ t.node p = some .directory := by
  unfold isDirectory
  rcases t.node p with _ | _ | _ | _
  · simp
  · simp
  · simp
  · simp

def walk (t : FileTree γ) : Place → List Hop → Walk
  | base, [] => .reached base
  | base, hop :: rest =>
      if t.isDirectory base then
        match hop with
        | .here => walk t base rest
        | .up => walk t base.dropLast rest
        | .name name =>
            match t.node (base ++ [name]) with
            | none => .failed .notFound
            | some (.link route) => .link base route rest
            | some .directory => walk t (base ++ [name]) rest
            | some (.file _) => walk t (base ++ [name]) rest
      else .failed .notADirectory

/-- The place of a path, through at most `links` links. -/
def resolve (t : FileTree γ) : Nat → Place → List Hop → Except WalkError Place
  | 0, base, hops =>
      match t.walk base hops with
      | .reached place => .ok place
      | .link .. => .error .tooManyLinks
      | .failed error => .error error
  | links + 1, base, hops =>
      match t.walk base hops with
      | .reached place => .ok place
      | .link base route rest =>
          resolve t links (if route.absolute then [] else base) (route.hops ++ rest)
      | .failed error => .error error

def hopsTo (p : Place) : List Hop := p.map .name

/-- What is at a place.  The links on the way are followed, one at the place itself is not. -/
def lookup (t : FileTree γ) (links : Nat) (p : Place) : Except WalkError (Node γ) :=
  match p.getLast? with
  | none => .ok .directory
  | some name =>
      match t.resolve links [] (hopsTo p.dropLast) with
      | .error error => .error error
      | .ok parent =>
          if t.isDirectory parent then
            match t.node (parent ++ [name]) with
            | some found => .ok found
            | none => .error .notFound
          else .error .notADirectory

/-- A place that is there and is no link. -/
def Real (t : FileTree γ) (p : Place) : Prop :=
  ∃ found, t.node p = some found ∧ ∀ route, found ≠ .link route

section Resolve

variable {t : FileTree γ} {p q : Place}

theorem Real.root : t.Real [] := ⟨.directory, t.root, by simp⟩

theorem Real.of_directory (h : t.node p = some .directory) : t.Real p := ⟨.directory, h, by simp⟩

/-- What is on the way to a place that is there is a directory. -/
theorem directory_above (h : t.node q ≠ none) (hp : p <+: q) (hne : p ≠ q) :
    t.node p = some .directory := by
  obtain ⟨rest, rfl⟩ := hp
  induction rest using List.reverseRec with
  | nil => exact absurd (List.append_nil p).symm hne
  | append_singleton rest name ih =>
    rw [← List.append_assoc] at h
    have hparent := t.parent _ name h
    by_cases hrest : rest = []
    · rw [hrest, List.append_nil] at hparent
      exact hparent
    · refine ih (by rw [hparent]; simp) fun heq => hrest ?_
      exact List.self_eq_append_right.mp heq

theorem Real.dropLast (h : t.Real p) : t.Real p.dropLast := by
  obtain ⟨found, hfound, -⟩ := h
  by_cases hp : p = []
  · rw [hp]
    exact Real.root
  · refine Real.of_directory (directory_above (by rw [hfound]; simp) (List.dropLast_prefix p) ?_)
    intro heq
    have hlength := congrArg List.length heq
    have hpos := List.length_pos_of_ne_nil hp
    rw [List.length_dropLast] at hlength
    omega

/-- A walk from a real place leads to a real place, or to a link in a directory. -/
theorem walk_real {hops : List Hop} : ∀ {base : Place}, t.Real base →
    (∀ place, t.walk base hops = .reached place → t.Real place) ∧
      ∀ at_ route rest, t.walk base hops = .link at_ route rest → t.Real at_ := by
  induction hops with
  | nil =>
    intro base hbase
    refine ⟨fun place hplace => ?_, fun _ _ _ h => by simp [walk] at h⟩
    rw [walk] at hplace
    rw [← Walk.reached.inj hplace]
    exact hbase
  | cons hop rest ih =>
    intro base hbase
    have hstuck : (∀ place, Walk.failed .notADirectory = .reached place → t.Real place) ∧
        ∀ at_ route rest', Walk.failed .notADirectory = .link at_ route rest' → t.Real at_ :=
      ⟨fun _ h => by simp at h, fun _ _ _ h => by simp at h⟩
    cases hop with
    | here =>
      rw [walk]
      split
      · exact ih hbase
      · exact hstuck
    | up =>
      rw [walk]
      split
      · exact ih hbase.dropLast
      · exact hstuck
    | name name =>
      rw [walk]
      split
      · split
        · exact ⟨fun _ h => by simp at h, fun _ _ _ h => by simp at h⟩
        · refine ⟨fun _ h => by simp at h, fun at_ route' rest' h => ?_⟩
          rw [← (Walk.link.inj h).1]
          exact hbase
        · next hnext => exact ih (Real.of_directory hnext)
        · next content hnext => exact ih ⟨.file content, hnext, by simp⟩
      · exact hstuck

/-- **What a path resolves to is real.** -/
theorem real_of_resolve {links : Nat} : ∀ {base : Place} {hops : List Hop}, t.Real base →
    t.resolve links base hops = .ok p → t.Real p := by
  induction links with
  | zero =>
    intro base hops hbase h
    rw [resolve] at h
    split at h
    · next place hplace =>
      rw [← Except.ok.inj h]
      exact (walk_real hbase).1 place hplace
    · cases h
    · cases h
  | succ links ih =>
    intro base hops hbase h
    rw [resolve] at h
    split at h
    · next place hplace =>
      rw [← Except.ok.inj h]
      exact (walk_real hbase).1 place hplace
    · next at_ route rest hlink =>
      refine ih ?_ h
      split
      · exact Real.root
      · exact (walk_real hbase).2 at_ route rest hlink
    · cases h

/-- Names that lead to a directory can be walked at once. -/
theorem walk_append {rest : List Hop} : ∀ {base q : Place}, t.node (base ++ q) = some .directory →
    t.walk base (hopsTo q ++ rest) = t.walk (base ++ q) rest := by
  intro base q
  induction q generalizing base with
  | nil =>
    intro _
    rw [List.append_nil]
    rfl
  | cons name q ih =>
    intro h
    have hsplit : base ++ name :: q = base ++ [name] ++ q := by
      rw [List.append_assoc]
      rfl
    have hthere : t.node (base ++ name :: q) ≠ none := by
      rw [h]
      simp
    have hnext : t.node (base ++ [name]) = some .directory := by
      by_cases hq : q = []
      · rw [← h, hq]
      · refine directory_above hthere ⟨q, hsplit.symm⟩ fun heq => hq ?_
        rw [hsplit] at heq
        exact List.self_eq_append_right.mp heq
    have hbase : t.node base = some .directory := t.parent base name (by rw [hnext]; simp)
    show t.walk base (.name name :: (hopsTo q ++ rest)) = _
    rw [hsplit] at h ⊢
    rw [walk, if_pos (isDirectory_iff.mpr hbase), hnext]
    exact ih h

theorem walk_of_real (h : t.Real p) : t.walk [] (hopsTo p) = .reached p := by
  obtain ⟨found, hfound, hlink⟩ := h
  rcases List.eq_nil_or_concat p with rfl | ⟨q, name, hp⟩
  · rfl
  · rw [List.concat_eq_append] at hp
    subst hp
    have hq : t.node q = some .directory := t.parent q name (by rw [hfound]; simp)
    have hhops : hopsTo (q ++ [name]) = hopsTo q ++ [.name name] := List.map_append
    rw [hhops, walk_append (by exact hq), List.nil_append, walk,
      if_pos (isDirectory_iff.mpr hq), hfound]
    cases found with
    | directory => rfl
    | file content => rfl
    | link route => exact absurd rfl (hlink route)

/-- **A real place resolves to itself.** -/
theorem resolve_of_real (h : t.Real p) (links : Nat) : t.resolve links [] (hopsTo p) = .ok p := by
  have hwalk := walk_of_real h
  cases links with
  | zero => rw [resolve, hwalk]
  | succ links => rw [resolve, hwalk]

/-- What is at a place in a directory. -/
theorem lookup_of_directory {name : String} (h : t.node p = some .directory) (links : Nat) :
    t.lookup links (p ++ [name]) =
      match t.node (p ++ [name]) with
      | some found => .ok found
      | none => .error .notFound := by
  unfold lookup
  rw [List.getLast?_concat, List.dropLast_concat]
  dsimp only
  rw [resolve_of_real (Real.of_directory h)]
  dsimp only
  rw [if_pos (isDirectory_iff.mpr h)]

/-- **A link to a real place resolves to it.** -/
theorem resolve_of_link {name : String} (hlink : t.node (p ++ [name]) =
    some (.link ⟨true, hopsTo q⟩)) (hq : t.Real q) (links : Nat) :
    t.resolve (links + 1) [] (hopsTo (p ++ [name])) = .ok q := by
  have hp : t.node p = some .directory := t.parent p name (by rw [hlink]; simp)
  have hhops : hopsTo (p ++ [name]) = hopsTo p ++ [.name name] := List.map_append
  have hwalk : t.walk [] (hopsTo (p ++ [name])) = .link p ⟨true, hopsTo q⟩ [] := by
    rw [hhops, walk_append (by exact hp), List.nil_append, walk,
      if_pos (isDirectory_iff.mpr hp), hlink]
  rw [resolve, hwalk]
  dsimp only
  rw [if_pos rfl, List.append_nil]
  exact resolve_of_real hq links

/-- What is found in a real place is in it. -/
theorem node_of_lookup {name : String} {links : Nat} {found : Node γ} (h : t.Real p)
    (hfound : t.lookup links (p ++ [name]) = .ok found) :
    t.node p = some .directory ∧ t.node (p ++ [name]) = some found := by
  have hp : t.node p = some .directory := by
    unfold lookup at hfound
    rw [List.getLast?_concat, List.dropLast_concat] at hfound
    dsimp only at hfound
    rw [resolve_of_real h] at hfound
    dsimp only at hfound
    split at hfound
    · next hdirectory => exact isDirectory_iff.mp hdirectory
    · cases hfound
  rw [lookup_of_directory hp] at hfound
  split at hfound
  · next there hthere => exact ⟨hp, hthere.trans (congrArg some (Except.ok.inj hfound))⟩
  · cases hfound

/-- A walk goes on where its first part ends. -/
theorem walk_concat {rest : List Hop} : ∀ {base : Place} {hops : List Hop},
    t.walk base (hops ++ rest) =
      match t.walk base hops with
      | .reached place => t.walk place rest
      | .link at_ route left => .link at_ route (left ++ rest)
      | .failed error => .failed error := by
  intro base hops
  induction hops generalizing base with
  | nil => rfl
  | cons hop hops ih =>
    rw [List.cons_append]
    cases hop with
    | here =>
      rw [walk, walk]
      split
      · exact ih
      · rfl
    | up =>
      rw [walk, walk]
      split
      · exact ih
      · rfl
    | name name =>
      rw [walk, walk]
      split
      · split
        · rfl
        · rfl
        · exact ih
        · exact ih
      · rfl

/-- A path that leads on without links from where its first part leads. -/
theorem resolve_concat {links : Nat} {rest : List Hop} : ∀ {base place : Place} {hops : List Hop},
    t.resolve links base hops = .ok q → t.walk q rest = .reached place →
      t.resolve links base (hops ++ rest) = .ok place := by
  induction links with
  | zero =>
    intro base place hops h hrest
    rw [resolve] at h ⊢
    rw [walk_concat]
    split at h
    · next reached hreached =>
      obtain rfl := Except.ok.inj h
      rw [hrest]
    · cases h
    · cases h
  | succ links ih =>
    intro base place hops h hrest
    rw [resolve] at h ⊢
    rw [walk_concat]
    split at h
    · next reached hreached =>
      obtain rfl := Except.ok.inj h
      rw [hrest]
    · next at_ route left hlink =>
      rw [← List.append_assoc]
      exact ih h hrest
    · cases h

/-- On the way to a place there are directories and nothing else. -/
def Ordinary (t : FileTree γ) (p : Place) : Prop :=
  ∀ q, q <+: p → t.node q = some .directory ∨ t.node q = none

theorem Ordinary.of_directory (h : t.node p = some .directory) : t.Ordinary p := by
  intro q hq
  by_cases hne : q = p
  · exact Or.inl (by rw [hne]; exact h)
  · exact Or.inl (directory_above (by rw [h]; simp) hq hne)

theorem Ordinary.above (h : t.Ordinary p) (hq : q <+: p) : t.Ordinary q :=
  fun r hr => h r (hr.trans hq)

theorem ordinary_concat {name : String} : t.Ordinary (p ++ [name]) ↔
    t.Ordinary p ∧ (t.node (p ++ [name]) = some .directory ∨ t.node (p ++ [name]) = none) := by
  constructor
  · intro h
    exact ⟨h.above (List.prefix_append _ _), h _ (List.prefix_refl _)⟩
  · rintro ⟨h, hlast⟩ q hq
    rcases List.prefix_concat_iff.mp hq with rfl | hq
    · exact hlast
    · exact h q hq

/-- Nothing is found where nothing is. -/
theorem absent_of_lookup {name : String} {links : Nat} (h : t.Ordinary p)
    (hmissing : t.lookup links (p ++ [name]) = .error .notFound) :
    t.node (p ++ [name]) = none := by
  rcases h p (List.prefix_refl p) with hp | hp
  · rw [lookup_of_directory hp] at hmissing
    split at hmissing
    · cases hmissing
    · next hnone => exact hnone
  · by_contra hthere
    have hparent := t.parent p name hthere
    rw [hp] at hparent
    cases hparent

/-- A path through nothing fails. -/
theorem walk_of_absent : ∀ {base q : Place}, t.node base = some .directory →
    (∀ r, r <+: q → t.node (base ++ r) = some .directory ∨ t.node (base ++ r) = none) →
    t.node (base ++ q) = none → t.walk base (hopsTo q) = .failed .notFound := by
  intro base q
  induction q generalizing base with
  | nil =>
    intro hbase _ hnone
    rw [List.append_nil, hbase] at hnone
    cases hnone
  | cons name q ih =>
    intro hbase hordinary hnone
    have hsplit : ∀ r, base ++ name :: r = base ++ [name] ++ r := by
      intro r
      rw [List.append_assoc]
      rfl
    show t.walk base (.name name :: hopsTo q) = _
    rw [walk, if_pos (isDirectory_iff.mpr hbase)]
    rcases hordinary [name] (by simp) with hnext | hnext
    · rw [hnext]
      refine ih hnext (fun r hr => ?_) (by rw [← hsplit]; exact hnone)
      rw [← hsplit]
      exact hordinary (name :: r) (List.cons_prefix_cons.mpr ⟨rfl, hr⟩)
    · rw [hnext]

/-- **A path through directories resolves to itself**, if it resolves. -/
theorem Ordinary.resolve {links : Nat} {real : Place} (h : t.Ordinary p)
    (hreal : t.resolve links [] (hopsTo p) = .ok real) :
    real = p ∧ t.node p = some .directory := by
  rcases h p (List.prefix_refl p) with hp | hp
  · rw [resolve_of_real (Real.of_directory hp)] at hreal
    exact ⟨(Except.ok.inj hreal).symm, hp⟩
  · have hwalk : t.walk [] (hopsTo p) = .failed .notFound :=
      walk_of_absent t.root (fun r hr => h r hr) hp
    cases links with
    | zero =>
      rw [FileTree.resolve, hwalk] at hreal
      cases hreal
    | succ links =>
      rw [FileTree.resolve, hwalk] at hreal
      cases hreal

end Resolve

/-! ## More in a tree -/

/-- Everything of the first tree is in the second. -/
def Extends (t t' : FileTree γ) : Prop := ∀ p found, t.node p = some found → t'.node p = some found

theorem Extends.refl (t : FileTree γ) : t.Extends t := fun _ _ h => h

theorem Extends.trans {t t' t'' : FileTree γ} (h : t.Extends t') (h' : t'.Extends t'') :
    t.Extends t'' := fun p found hp => h' p found (h p found hp)

theorem Real.of_extends {t t' : FileTree γ} {p : Place} (h : t.Real p) (hext : t.Extends t') :
    t'.Real p := by
  obtain ⟨found, hfound, hlink⟩ := h
  exact ⟨found, hext p found hfound, hlink⟩

/-- The tree with something new in a directory, if nothing is there. -/
def add (t : FileTree γ) (p : Place) (name : String) (new : Node γ) : FileTree γ where
  node q := if q = p ++ [name] ∧ t.isDirectory p = true ∧ (t.node q).isNone = true then some new
    else t.node q
  root := by
    rw [if_neg fun h => List.cons_ne_nil _ _ (List.append_eq_nil_iff.mp h.1.symm).2]
    exact t.root
  parent q last h := by
    have hq : t.node q = some .directory := by
      split at h
      · next hnew =>
        obtain ⟨hplace, hdirectory, -⟩ := hnew
        obtain ⟨rfl, -⟩ := List.append_inj' hplace rfl
        exact isDirectory_iff.mp hdirectory
      · exact t.parent q last h
    rw [if_neg fun hnew => ?_]
    · exact hq
    · rw [hq] at hnew
      exact absurd hnew.2.2 (by simp)

theorem node_add (t : FileTree γ) (p : Place) (name : String) (new : Node γ) (q : Place) :
    (t.add p name new).node q =
      if q = p ++ [name] ∧ t.isDirectory p = true ∧ (t.node q).isNone = true then some new
      else t.node q := rfl

theorem extends_add (t : FileTree γ) (p : Place) (name : String) (new : Node γ) :
    t.Extends (t.add p name new) := by
  intro q found hq
  rw [node_add, if_neg fun h => ?_]
  · exact hq
  · rw [hq] at h
    exact absurd h.2.2 (by simp)

/-- A new directory on the way is a directory on the way. -/
theorem Ordinary.add {t : FileTree γ} {p : Place} (h : t.Ordinary p) (q : Place) (name : String) :
    (t.add q name .directory).Ordinary p := by
  intro r hr
  rw [node_add]
  split
  · exact Or.inl rfl
  · exact h r hr

end FileTree
end DshNexus
