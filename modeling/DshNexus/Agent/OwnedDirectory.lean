import DshNexus.Core.FileRemoval

/-!
# Removal of an owned directory

`remove_owned_directory` of `crates/nexus-agent/src/cold.rs`: a directory that Nexus made is
deleted with everything in it, and the links in it are deleted as links.

1. `removeOwnedDirectory`: the checks, the stack of entries, and the bounds of the walk.
2. What one visit does.
3. What a stack says of the tree: `Sweeping`.
4. A run takes out entries of the tree and nothing else, and a run that ends has taken out all.
-/

namespace DshNexus.OwnedDirectory

open FileTree ListedTree

variable {γ : Type}

/-! ## 1. The walk -/

def MAX_STACK : Nat := 1000000
def MAX_VISITED : Nat := 2000000

/-- The operating system's report of a failed operation. -/
inductive Cause where
  | remove (error : RemoveError)
  | walk (error : WalkError)
  | system (code : Nat)
  deriving DecidableEq, Repr

inductive CleanupError where
  /-- cleanup target escapes owned root -/
  | escapes
  /-- owned candidate cleanup exceeded its bound -/
  | exceeded
  | path (error : WalkError)
  /-- `cleanup_entry_error` -/
  | entry (entryType : String) (place : Place) (cause : Cause)
  deriving DecidableEq, Repr

/-- What a platform says of a link: whether it is a link to a directory, which `remove_dir`
takes and `remove_file` does not, and whether its metadata are those of a directory. -/
structure Platform where
  links : Nat
  directoryLink : Place → Bool
  metadataIsDir : Place → Bool

/-- What happens during one run: the order of each listing, the operations that fail, and the
deadline. -/
structure Run where
  arrange : List String → List String
  arranged : ∀ names, (arrange names).Perm names
  metadataFault : Nat → Option Nat
  operationFault : Nat → Option Nat
  listingFault : Nat → Nat → Option Nat
  expired : Nat → Bool
  listingExpired : Nat → Nat → Bool

def acceptsFile (platform : Platform) (p : Place) : Node γ → Bool
  | .directory => false
  | .file _ => true
  | .link _ => !platform.directoryLink p

def acceptsDir (platform : Platform) (p : Place) : Node γ → Bool
  | .directory => true
  | .file _ => false
  | .link _ => platform.directoryLink p

def removeFile (platform : Platform) (t : ListedTree γ) (p : Place) :
    Except RemoveError (ListedTree γ) :=
  t.removeEntry platform.links (acceptsFile platform) p

def removeDir (platform : Platform) (t : ListedTree γ) (p : Place) :
    Except RemoveError (ListedTree γ) :=
  t.removeEntry platform.links (acceptsDir platform) p

def orElseFirst {ε α : Type} (first second : Except ε α) : Except ε α :=
  match first with
  | .ok a => .ok a
  | .error error =>
      match second with
      | .ok a => .ok a
      | .error _ => .error error

def removeLinkObject (platform : Platform) (t : ListedTree γ) (p : Place) :
    Except RemoveError (ListedTree γ) :=
  if platform.metadataIsDir p then orElseFirst (removeDir platform t p) (removeFile platform t p)
  else orElseFirst (removeFile platform t p) (removeDir platform t p)

/-- The error of an entry, with the operating system's report. -/
def atEntry {α : Type} (entryType : String) (p : Place) (fault : Option Nat)
    (result : Except RemoveError α) : Except CleanupError α :=
  match fault with
  | some code => .error (.entry entryType p (.system code))
  | none =>
      match result with
      | .ok a => .ok a
      | .error error => .error (.entry entryType p (.remove error))

/-- The entries of a directory are put on the stack one after another. -/
def pushEntries (run : Run) (visited : Nat) (p : Place) :
    Nat → List String → List (Place × Bool) → Except CleanupError (List (Place × Bool))
  | _, [], stack => .ok stack
  | index, name :: names, stack =>
      if stack.length > MAX_STACK ∨ run.listingExpired visited index = true then .error .exceeded
      else
        match run.listingFault visited index with
        | some code => .error (.entry "directory entry" p (.system code))
        | none => pushEntries run visited p (index + 1) names ((p ++ [name], false) :: stack)

/-- One entry that was taken from the stack. -/
def visit (platform : Platform) (run : Run) (visited : Nat) (t : ListedTree γ)
    (item : Place × Bool) (stack : List (Place × Bool)) :
    Except CleanupError (ListedTree γ × List (Place × Bool)) :=
  match run.metadataFault visited with
  | some code => .error (.entry "metadata" item.1 (.system code))
  | none =>
      match t.lookup platform.links item.1 with
      | .error error => .error (.entry "metadata" item.1 (.walk error))
      | .ok .directory =>
          if item.2 = true then
            (atEntry "directory" item.1 (run.operationFault visited)
              (removeDir platform t item.1)).map fun t' => (t', stack)
          else
            match run.operationFault visited with
            | some code => .error (.entry "read directory" item.1 (.system code))
            | none =>
                match t.readDir platform.links item.1 with
                | .error error => .error (.entry "read directory" item.1 (.walk error))
                | .ok names =>
                    (pushEntries run visited item.1 0 (run.arrange names)
                      ((item.1, true) :: stack)).map fun stack' => (t, stack')
      | .ok (.link _) =>
          (atEntry "reparse point" item.1 (run.operationFault visited)
            (removeLinkObject platform t item.1)).map fun t' => (t', stack)
      | .ok (.file _) =>
          (atEntry "file" item.1 (run.operationFault visited)
            (removeFile platform t item.1)).map fun t' => (t', stack)

/-- The loop, with the number of visits that are left. -/
def sweep (platform : Platform) (run : Run) :
    Nat → ListedTree γ → List (Place × Bool) → Except CleanupError Unit × ListedTree γ
  | _, t, [] => (.ok (), t)
  | 0, t, _ :: _ => (.error .exceeded, t)
  | left + 1, t, item :: stack =>
      if run.expired (MAX_VISITED - left) = true then (.error .exceeded, t)
      else
        match visit platform run (MAX_VISITED - left) t item stack with
        | .error error => (.error error, t)
        | .ok (t', stack') => sweep platform run left t' stack'

/-- `fs::symlink_metadata` of the last component of a path in a directory. -/
def metadataIn (t : ListedTree γ) (parent : Place) (last : Hop) : Except WalkError (Node γ) :=
  if t.isDirectory parent = false then .error .notADirectory
  else
    match last with
    | .name name =>
        match t.node (parent ++ [name]) with
        | some found => .ok found
        | none => .error .notFound
    | .here => .ok .directory
    | .up => .ok .directory

/-- The place of a path's last component, without following a link there. -/
def placeIn (parent : Place) : Hop → Place
  | .name name => parent ++ [name]
  | .here => parent
  | .up => parent.dropLast

/-- `remove_owned_directory`.  A path's components have no `.` after the first. -/
def removeOwnedDirectory (platform : Platform) (run : Run) (parent target : List Hop)
    (t : ListedTree γ) : Except CleanupError Unit × ListedTree γ :=
  match t.resolve platform.links [] parent with
  | .error error => (.error (.path error), t)
  | .ok parent =>
      match target.getLast? with
      | none => (.error .escapes, t)
      | some last =>
          match t.resolve platform.links [] target.dropLast with
          | .error error => (.error (.path error), t)
          | .ok targetParent =>
              if targetParent ≠ parent then (.error .escapes, t)
              else
                match metadataIn t targetParent last with
                | .error .notFound => (.ok (), t)
                | .error error =>
                    (.error (.entry "root" (placeIn targetParent last) (.walk error)), t)
                | .ok (.link _) =>
                    match atEntry "root reparse point" (placeIn targetParent last)
                        (run.operationFault 0)
                        (removeLinkObject platform t (placeIn targetParent last)) with
                    | .error error => (.error error, t)
                    | .ok t' => (.ok (), t')
                | .ok _ =>
                    match t.resolve platform.links [] target with
                    | .error error => (.error (.path error), t)
                    | .ok place =>
                        if place = parent ∨ ¬ parent <+: place then (.error .escapes, t)
                        else sweep platform run MAX_VISITED t [(place, false)]

/-! ## 2. One visit -/

/-- The stack with the entries of a directory that is left for later. -/
def opened (p : Place) (names : List String) (stack : List (Place × Bool)) : List (Place × Bool) :=
  (names.reverse.map fun name => (p ++ [name], false)) ++ (p, true) :: stack

theorem pushEntries_eq_ok {run : Run} {visited : Nat} {p : Place} {names : List String} :
    ∀ {index : Nat} {stack stack' : List (Place × Bool)},
      pushEntries run visited p index names stack = .ok stack' →
        stack' = (names.reverse.map fun name => (p ++ [name], false)) ++ stack := by
  induction names with
  | nil =>
    intro index stack stack' h
    exact (Except.ok.inj h).symm
  | cons name names ih =>
    intro index stack stack' h
    rw [pushEntries] at h
    split at h
    · cases h
    · split at h
      · cases h
      · rw [ih h, List.reverse_cons, List.map_append, List.append_assoc]
        rfl

theorem pushEntries_of_bound {run : Run} {visited : Nat} {p : Place} {names : List String}
    (htime : ∀ index, run.listingExpired visited index = false)
    (hfault : ∀ index, run.listingFault visited index = none) :
    ∀ {index : Nat} {stack : List (Place × Bool)}, stack.length + names.length ≤ MAX_STACK + 1 →
      pushEntries run visited p index names stack =
        .ok ((names.reverse.map fun name => (p ++ [name], false)) ++ stack) := by
  induction names with
  | nil =>
    intro index stack _
    rfl
  | cons name names ih =>
    intro index stack hbound
    rw [List.length_cons] at hbound
    have hstack : ¬ (stack.length > MAX_STACK ∨ run.listingExpired visited index = true) := by
      rw [htime index]
      simp
      omega
    rw [pushEntries, if_neg hstack, hfault index]
    dsimp only
    rw [ih (by rw [List.length_cons]; omega), List.reverse_cons, List.map_append, List.append_assoc]
    rfl

theorem atEntry_eq_ok {α : Type} {entryType : String} {p : Place} {fault : Option Nat}
    {result : Except RemoveError α} {a : α} (h : atEntry entryType p fault result = .ok a) :
    result = .ok a := by
  unfold atEntry at h
  split at h
  · cases h
  · split at h
    · exact congrArg _ (Except.ok.inj h)
    · cases h

theorem orElseFirst_eq_ok {ε α : Type} {first second : Except ε α} {a : α}
    (h : orElseFirst first second = .ok a) : first = .ok a ∨ second = .ok a := by
  unfold orElseFirst at h
  split at h
  · exact Or.inl (congrArg _ (Except.ok.inj h))
  · split at h
    · exact Or.inr (congrArg _ (Except.ok.inj h))
    · cases h

section Visit

variable {platform : Platform} {t t' : ListedTree γ} {p : Place}

theorem removeLinkObject_eq_ok (hroot : p ≠ []) (hp : t.node p ≠ none)
    (h : removeLinkObject platform t p = .ok t') :
    ∃ hempty : t.names p = [], t' = t.erase p hroot hempty := by
  unfold removeLinkObject at h
  split at h
  · rcases orElseFirst_eq_ok h with h | h
    · exact removeEntry_eq_ok hroot hp h
    · exact removeEntry_eq_ok hroot hp h
  · rcases orElseFirst_eq_ok h with h | h
    · exact removeEntry_eq_ok hroot hp h
    · exact removeEntry_eq_ok hroot hp h

theorem removeLinkObject_of_link {route : Route} (hroot : p ≠ [])
    (hp : t.node p = some (.link route)) (hempty : t.names p = []) :
    removeLinkObject platform t p = .ok (t.erase p hroot hempty) := by
  have hfile : removeFile platform t p =
      if platform.directoryLink p = true then .error .wrongKind
      else .ok (t.erase p hroot hempty) := by
    rw [removeFile, removeEntry_of_node hroot hp, dif_pos ⟨hroot, hempty⟩]
    simp [acceptsFile]
  have hdir : removeDir platform t p =
      if platform.directoryLink p = true then .ok (t.erase p hroot hempty)
      else .error .wrongKind := by
    rw [removeDir, removeEntry_of_node hroot hp, dif_pos ⟨hroot, hempty⟩]
    by_cases hlink : platform.directoryLink p = true
    · simp [acceptsDir, hlink]
    · simp [acceptsDir, hlink]
  unfold removeLinkObject
  rw [hfile, hdir]
  by_cases hlink : platform.directoryLink p = true
  · simp [hlink, orElseFirst]
  · simp [hlink, orElseFirst]

theorem removed_of_map {entryType : String} {fault : Option Nat}
    {stack stack' : List (Place × Bool)} {result : Except RemoveError (ListedTree γ)}
    (h : (atEntry entryType p fault result).map (fun t' => (t', stack)) = .ok (t', stack')) :
    result = .ok t' ∧ stack' = stack := by
  cases hentry : atEntry entryType p fault result with
  | error error =>
    rw [hentry] at h
    cases h
  | ok removed =>
    rw [hentry] at h
    obtain ⟨rfl, rfl⟩ := Prod.mk.inj (Except.ok.inj h)
    exact ⟨atEntry_eq_ok hentry, rfl⟩

/-- **What a visit does**: it takes out its entry, or it opens its directory. -/
theorem visit_cases {run : Run} {visited : Nat} {expanded : Bool}
    {stack stack' : List (Place × Bool)} (hroot : p ≠ []) (hp : t.node p ≠ none)
    (h : visit platform run visited t (p, expanded) stack = .ok (t', stack')) :
    (∃ hempty : t.names p = [], t' = t.erase p hroot hempty ∧ stack' = stack) ∨
    (expanded = false ∧ t.node p = some .directory ∧ t' = t ∧
      stack' = opened p (run.arrange (t.names p)) stack) := by
  obtain ⟨found, hfound⟩ := Option.ne_none_iff_exists'.mp hp
  unfold visit at h
  split at h
  · cases h
  · rw [lookup_of_node hroot hfound] at h
    cases found with
    | directory =>
      dsimp only at h
      split at h
      · obtain ⟨hremoved, rfl⟩ := removed_of_map h
        obtain ⟨hempty, ht⟩ := removeEntry_eq_ok hroot hp hremoved
        exact Or.inl ⟨hempty, ht, rfl⟩
      · next hexpanded =>
        rw [Bool.not_eq_true] at hexpanded
        split at h
        · cases h
        · rw [readDir_of_directory hfound] at h
          dsimp only at h
          cases hpush : pushEntries run visited p 0 (run.arrange (t.names p))
              ((p, true) :: stack) with
          | error error =>
            rw [hpush] at h
            cases h
          | ok pushed =>
            rw [hpush] at h
            obtain ⟨rfl, rfl⟩ := Prod.mk.inj (Except.ok.inj h)
            exact Or.inr ⟨hexpanded, hfound, rfl, pushEntries_eq_ok hpush⟩
    | file content =>
      obtain ⟨hremoved, rfl⟩ := removed_of_map h
      obtain ⟨hempty, ht⟩ := removeEntry_eq_ok hroot hp hremoved
      exact Or.inl ⟨hempty, ht, rfl⟩
    | link route =>
      obtain ⟨hremoved, rfl⟩ := removed_of_map h
      obtain ⟨hempty, ht⟩ := removeLinkObject_eq_ok hroot hp hremoved
      exact Or.inl ⟨hempty, ht, rfl⟩

/-- A run in which no operation fails and the time does not run out. -/
structure Run.Quiet (run : Run) : Prop where
  metadata : ∀ visited, run.metadataFault visited = none
  operation : ∀ visited, run.operationFault visited = none
  listing : ∀ visited index, run.listingFault visited index = none
  time : ∀ visited, run.expired visited = false
  listingTime : ∀ visited index, run.listingExpired visited index = false

theorem visit_of_quiet {run : Run} (hquiet : run.Quiet) (platform : Platform) (visited : Nat)
    {t : ListedTree γ} {p : Place} {expanded : Bool}
    {stack : List (Place × Bool)} (hroot : p ≠ []) (hp : t.node p ≠ none)
    (hempty : expanded = true → t.names p = [])
    (hbound : expanded = false → stack.length + (t.names p).length ≤ MAX_STACK) :
    ∃ next, visit platform run visited t (p, expanded) stack = .ok next := by
  obtain ⟨found, hfound⟩ := Option.ne_none_iff_exists'.mp hp
  unfold visit
  rw [hquiet.metadata visited]
  dsimp only
  rw [lookup_of_node hroot hfound]
  cases found with
  | directory =>
    dsimp only
    by_cases hexpanded : expanded = true
    · rw [if_pos hexpanded, hquiet.operation visited, removeDir,
        removeEntry_of_accepts hroot hfound (hempty hexpanded) rfl]
      exact ⟨_, rfl⟩
    · rw [if_neg hexpanded, hquiet.operation visited]
      dsimp only
      rw [readDir_of_directory hfound]
      dsimp only
      have hlength := (run.arranged (t.names p)).length_eq
      have hroom := hbound (Bool.eq_false_iff.mpr hexpanded)
      rw [pushEntries_of_bound (hquiet.listingTime visited) (hquiet.listing visited)
        (by rw [List.length_cons]; omega)]
      exact ⟨_, rfl⟩
  | file content =>
    have hnames : t.names p = [] := names_of_not_directory (by rw [hfound]; simp)
    dsimp only
    rw [hquiet.operation visited, removeFile, removeEntry_of_accepts hroot hfound hnames rfl]
    exact ⟨_, rfl⟩
  | link route =>
    have hnames : t.names p = [] := names_of_not_directory (by rw [hfound]; simp)
    dsimp only
    rw [hquiet.operation visited, removeLinkObject_of_link hroot hfound hnames]
    exact ⟨_, rfl⟩

end Visit

/-! ## 3. The stack and the tree -/

/-- **What a stack says of the tree** while the place `top` is deleted. -/
structure Sweeping (top : Place) (t : ListedTree γ) (stack : List (Place × Bool)) : Prop where
  /-- every entry is at the place or below it, and is there -/
  below : ∀ item ∈ stack, top <+: item.1 ∧ t.node item.1 ≠ none
  /-- no entry is below an entry that comes first -/
  apart : stack.Pairwise fun first later => ¬ first.1 <+: later.1
  /-- what is left in a directory that was opened comes before it -/
  inside : ∀ before p after, stack = before ++ (p, true) :: after → ∀ name,
    t.node (p ++ [name]) ≠ none → ∃ item ∈ before, item.1 = p ++ [name]
  /-- the place itself is still to come, if it is there -/
  top : t.node top ≠ none → ∃ item ∈ stack, item.1 = top

section Sweeping

variable {top p : Place} {t : ListedTree γ} {expanded : Bool} {stack : List (Place × Bool)}

theorem Sweeping.start (h : t.node p ≠ none) : Sweeping p t [(p, false)] where
  below item hitem := by
    rw [List.mem_singleton.mp hitem]
    exact ⟨List.prefix_refl p, h⟩
  apart := List.pairwise_singleton _ _
  inside before q after hsplit := by
    have hmem : (q, true) ∈ [(p, false)] := by
      rw [hsplit]
      simp
    simp at hmem
  top _ := ⟨(p, false), List.mem_singleton.mpr rfl, rfl⟩

theorem split_cons {first item : Place × Bool} {rest before after : List (Place × Bool)}
    (h : first :: rest = before ++ item :: after) (hne : first ≠ item) :
    ∃ before', before = first :: before' ∧ rest = before' ++ item :: after := by
  cases before with
  | nil => exact absurd (List.cons.inj h).1 hne
  | cons head before' =>
    obtain ⟨rfl, hrest⟩ := List.cons.inj h
    exact ⟨before', rfl, hrest⟩

theorem Sweeping.erase (h : Sweeping top t ((p, expanded) :: stack)) (hroot : p ≠ [])
    (hempty : t.names p = []) : Sweeping top (t.erase p hroot hempty) stack where
  below item hitem := by
    obtain ⟨hbelow, hthere⟩ := h.below item (List.mem_cons_of_mem _ hitem)
    have hapart := (List.pairwise_cons.mp h.apart).1 item hitem
    refine ⟨hbelow, ?_⟩
    have hne : item.1 ≠ p := by
      intro heq
      rw [heq] at hapart
      exact hapart (List.prefix_refl p)
    rw [node_erase, if_neg hne]
    exact hthere
  apart := (List.pairwise_cons.mp h.apart).2
  inside before q after hsplit name hname := by
    rw [node_erase] at hname
    have hne : q ++ [name] ≠ p := fun heq => hname (if_pos heq)
    rw [if_neg hne] at hname
    obtain ⟨item, hitem, hplace⟩ :=
      h.inside ((p, expanded) :: before) q after (by rw [hsplit]; rfl) name hname
    rcases List.mem_cons.mp hitem with rfl | hitem
    · exact absurd hplace.symm hne
    · exact ⟨item, hitem, hplace⟩
  top htop := by
    rw [node_erase] at htop
    have hne : top ≠ p := fun heq => htop (if_pos heq)
    rw [if_neg hne] at htop
    obtain ⟨item, hitem, hplace⟩ := h.top htop
    rcases List.mem_cons.mp hitem with rfl | hitem
    · exact absurd hplace.symm hne
    · exact ⟨item, hitem, hplace⟩

theorem mem_opened {names : List String} {item : Place × Bool} :
    item ∈ opened p names stack ↔
      (∃ name ∈ names, item = (p ++ [name], false)) ∨ item = (p, true) ∨ item ∈ stack := by
  unfold opened
  simp [eq_comm]

/-- A directory that was opened waits behind what is in it. -/
theorem Sweeping.opened (h : Sweeping top t ((p, false) :: stack)) {names : List String}
    (hnames : names.Perm (t.names p)) : Sweeping top t (opened p names stack) where
  below item hitem := by
    obtain ⟨hbelow, hthere⟩ := h.below (p, false) List.mem_cons_self
    rcases mem_opened.mp hitem with ⟨name, hname, rfl⟩ | rfl | hitem
    · refine ⟨hbelow.trans (List.prefix_append _ _), ?_⟩
      exact (t.mem_names p name).mp (hnames.mem_iff.mp hname)
    · exact ⟨hbelow, hthere⟩
    · exact h.below item (List.mem_cons_of_mem _ hitem)
  apart := by
    obtain ⟨hfirst, hrest⟩ := List.pairwise_cons.mp h.apart
    have hchild : ∀ name : String, ¬ p ++ [name] <+: p := by
      intro name hprefix
      have hlength := hprefix.length_le
      rw [List.length_append, List.length_singleton] at hlength
      omega
    have hsiblings : (names.reverse.map fun name => (p ++ [name], false)).Pairwise
        fun first later => ¬ first.1 <+: later.1 := by
      rw [List.pairwise_map]
      have hnodup : names.reverse.Nodup := List.nodup_reverse.mpr (hnames.nodup_iff.mpr (t.nodup p))
      refine hnodup.imp fun hne hprefix => hne ?_
      have heq := hprefix.eq_of_length (by simp)
      exact List.singleton_inj.mp (List.append_cancel_left heq)
    refine List.pairwise_append.mpr ⟨hsiblings, List.pairwise_cons.mpr ⟨?_, hrest⟩, ?_⟩
    · exact fun later hlater => hfirst later hlater
    · intro first hmem later hlater hprefix
      obtain ⟨name, _, rfl⟩ := List.mem_map.mp hmem
      rcases List.mem_cons.mp hlater with rfl | hlater
      · exact hchild name hprefix
      · exact hfirst later hlater ((List.prefix_append _ _).trans hprefix)
  inside before q after hsplit name hname := by
    -- no entry of the listing is an opened directory, so this one stands behind the listing
    have hbehind : ∃ middle,
        before = (names.reverse.map fun name => (p ++ [name], false)) ++ middle ∧
          (p, true) :: stack = middle ++ (q, true) :: after := by
      rcases List.append_eq_append_iff.mp hsplit with ⟨middle, hbefore, hrest⟩ |
        ⟨middle, hlisting, hrest⟩
      · exact ⟨middle, hbefore, hrest⟩
      · cases middle with
        | nil => exact ⟨[], by rw [hlisting]; simp, hrest.symm⟩
        | cons head tail =>
          have hmem : (q, true) ∈ names.reverse.map fun name => (p ++ [name], false) := by
            rw [hlisting, ← (List.cons.inj hrest).1]
            simp
          obtain ⟨_, _, heq⟩ := List.mem_map.mp hmem
          cases heq
    obtain ⟨middle, rfl, hrest⟩ := hbehind
    by_cases heq : (p, true) = (q, true)
    · obtain rfl : p = q := (Prod.mk.inj heq).1
      refine ⟨(p ++ [name], false), ?_, rfl⟩
      refine List.mem_append_left _ (List.mem_map.mpr ⟨name, ?_, rfl⟩)
      exact List.mem_reverse.mpr (hnames.mem_iff.mpr ((t.mem_names p name).mpr hname))
    · obtain ⟨middle', rfl, hstack⟩ := split_cons hrest heq
      obtain ⟨item, hitem, hplace⟩ :=
        h.inside ((p, false) :: middle') q after (by rw [hstack]; rfl) name hname
      rcases List.mem_cons.mp hitem with rfl | hitem
      · exact ⟨(p, true), by simp, hplace⟩
      · exact ⟨item, by simp [hitem], hplace⟩
  top htop := by
    obtain ⟨item, hitem, hplace⟩ := h.top htop
    rcases List.mem_cons.mp hitem with rfl | hitem
    · exact ⟨(p, true), mem_opened.mpr (Or.inr (Or.inl rfl)), hplace⟩
    · exact ⟨item, mem_opened.mpr (Or.inr (Or.inr hitem)), hplace⟩

end Sweeping

/-! ## 4. Runs -/

section Runs

variable {platform : Platform} {run : Run} {top : Place}

/-- **A run takes out entries of the tree and nothing else**, and when it ends nothing is left. -/
theorem sweep_removes (htop : top ≠ []) : ∀ {left : Nat} {t : ListedTree γ}
    {stack : List (Place × Bool)}, Sweeping top t stack →
      Shrinks top t (sweep platform run left t stack).2 ∧
        ((sweep platform run left t stack).1 = .ok () →
          (sweep platform run left t stack).2.node top = none) := by
  intro left
  induction left with
  | zero =>
    intro t stack h
    cases stack with
    | nil =>
      refine ⟨Shrinks.refl top t, fun _ => ?_⟩
      by_contra hthere
      obtain ⟨item, hitem, _⟩ := h.top hthere
      cases hitem
    | cons item stack => exact ⟨Shrinks.refl top t, fun hok => by cases hok⟩
  | succ left ih =>
    intro t stack h
    cases stack with
    | nil =>
      refine ⟨Shrinks.refl top t, fun _ => ?_⟩
      by_contra hthere
      obtain ⟨item, hitem, _⟩ := h.top hthere
      cases hitem
    | cons item stack =>
      obtain ⟨p, expanded⟩ := item
      rw [sweep]
      by_cases htime : run.expired (MAX_VISITED - left) = true
      · rw [if_pos htime]
        exact ⟨Shrinks.refl top t, fun hok => by cases hok⟩
      · rw [if_neg htime]
        cases hvisit : visit platform run (MAX_VISITED - left) t (p, expanded) stack with
        | error error => exact ⟨Shrinks.refl top t, fun hok => by cases hok⟩
        | ok next =>
          obtain ⟨t', stack'⟩ := next
          obtain ⟨hbelow, hthere⟩ := h.below (p, expanded) List.mem_cons_self
          have hroot : p ≠ [] := by
            rintro rfl
            exact htop (List.prefix_nil.mp hbelow)
          rcases visit_cases hroot hthere hvisit with ⟨hempty, rfl, rfl⟩ |
            ⟨rfl, _, rfl, rfl⟩
          · obtain ⟨hshrinks, hdone⟩ := ih (h.erase hroot hempty)
            exact ⟨(Shrinks.erase t hbelow hroot hempty).trans hshrinks, hdone⟩
          · exact ih (h.opened (run.arranged _))

end Runs

end DshNexus.OwnedDirectory
