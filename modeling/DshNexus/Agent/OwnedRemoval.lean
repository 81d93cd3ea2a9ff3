import DshNexus.Agent.OwnedDirectory

/-!
# The removal of an owned directory

What `remove_owned_directory` leaves of the tree, whatever fails on the way, and when it removes
all.

1. The bounds of the walk: a run in which nothing fails ends.
2. `owned_directory_removed`: only what is owned is removed, and after any runs that failed a run
   in which nothing fails removes the rest.
3. `crowded_never_removed`: a directory with more entries than the stack may hold.
-/

namespace DshNexus.OwnedDirectory

open FileTree ListedTree

variable {γ : Type}

/-! ## 1. The bounds of the walk -/

/-- The places of a list that are there, at a place or below it. -/
def size (places : List Place) (t : ListedTree γ) (p : Place) : Nat :=
  places.countP fun q => p.isPrefixOf q && (t.node q).isSome

/-- The list has all that is at a place or below it. -/
def Covers (places : List Place) (top : Place) (t : ListedTree γ) : Prop :=
  ∀ q, top <+: q → t.node q ≠ none → q ∈ places

/-- The visits that a stack still asks for: two for a directory, one of them when it is opened. -/
def visits (places : List Place) (t : ListedTree γ) (stack : List (Place × Bool)) : Nat :=
  (stack.map fun item => if item.2 = true then 1 else 2 * size places t item.1).sum

/-- The entries that a stack stands for. -/
def entries (places : List Place) (t : ListedTree γ) (stack : List (Place × Bool)) : Nat :=
  (stack.map fun item => if item.2 = true then 1 else size places t item.1).sum

section Bounds

variable {places : List Place} {top p : Place} {t t' : ListedTree γ}

theorem Covers.shrinks (h : Covers places top t) (hshrinks : Shrinks top t t') :
    Covers places top t' := by
  intro q hq hthere
  refine h q hq ?_
  rwa [← hshrinks.node_ne_none hthere]

theorem size_pos (h : Covers places top t) (hbelow : top <+: p) (hp : t.node p ≠ none) :
    1 ≤ size places t p := by
  refine List.countP_pos_iff.mpr ⟨p, h p hbelow hp, ?_⟩
  rw [Bool.and_eq_true, List.isPrefixOf_iff_prefix]
  exact ⟨List.prefix_refl p, Option.isSome_iff_ne_none.mpr hp⟩

theorem size_le_of_shrinks (places : List Place) (hshrinks : Shrinks top t t') (q : Place) :
    size places t' q ≤ size places t q := by
  refine List.countP_mono_left fun r _ h => ?_
  rw [Bool.and_eq_true] at h ⊢
  have hthere := hshrinks.node_ne_none (Option.isSome_iff_ne_none.mp h.2)
  exact ⟨h.1, by rw [← hthere]; exact h.2⟩

theorem countP_children_le (p : Place) {names : List String} (hnodup : names.Nodup) (q : Place) :
    names.countP (fun name => (p ++ [name]).isPrefixOf q) + (if q = p then 1 else 0) ≤
      if p.isPrefixOf q = true then 1 else 0 := by
  by_cases hprefix : p <+: q
  · rw [if_pos (List.isPrefixOf_iff_prefix.mpr hprefix)]
    obtain ⟨rest, rfl⟩ := hprefix
    cases rest with
    | nil =>
      have hnone : names.countP (fun name => (p ++ [name]).isPrefixOf (p ++ [])) = 0 := by
        rw [List.countP_eq_zero]
        intro name _ h
        have hlength := (List.isPrefixOf_iff_prefix.mp h).length_le
        simp at hlength
      rw [hnone]
      split <;> omega
    | cons first rest =>
      have hself : ¬ p ++ first :: rest = p := by
        intro h
        have hlength := congrArg List.length h
        rw [List.length_append, List.length_cons] at hlength
        omega
      have hone : names.countP (fun name => (p ++ [name]).isPrefixOf (p ++ first :: rest)) ≤
          names.count first := by
        refine List.countP_mono_left fun name _ h => ?_
        have hname := (List.prefix_append_right_inj p).mp (List.isPrefixOf_iff_prefix.mp h)
        rw [(List.cons_prefix_cons.mp hname).1]
        exact beq_self_eq_true first
      have hcount := List.nodup_iff_count_le_one.mp hnodup first
      rw [if_neg hself]
      omega
  · have hnone : names.countP (fun name => (p ++ [name]).isPrefixOf q) = 0 := by
      rw [List.countP_eq_zero]
      intro name _ h
      exact hprefix ((List.prefix_append _ _).trans (List.isPrefixOf_iff_prefix.mp h))
    have hself : ¬ q = p := by
      rintro rfl
      exact hprefix (List.prefix_refl q)
    rw [hnone, if_neg hself]
    omega

theorem sum_size_le (places : List Place) (p : Place) {names : List String}
    (hnodup : names.Nodup) (good : Place → Bool) :
    (names.map fun name => places.countP fun q => (p ++ [name]).isPrefixOf q && good q).sum +
        places.countP (fun q => decide (q = p) && good q) ≤
      places.countP fun q => p.isPrefixOf q && good q := by
  induction places with
  | nil => simp
  | cons q places ih =>
    have hsplit : (names.map fun name => (q :: places).countP
          fun q => (p ++ [name]).isPrefixOf q && good q).sum =
        (names.map fun name => places.countP fun q => (p ++ [name]).isPrefixOf q && good q).sum +
          names.countP fun name => (p ++ [name]).isPrefixOf q && good q := by
      clear ih hnodup
      induction names with
      | nil => rfl
      | cons name names ih =>
        rw [List.map_cons, List.map_cons, List.sum_cons, List.sum_cons, ih, List.countP_cons,
          List.countP_cons]
        omega
    rw [hsplit, List.countP_cons, List.countP_cons]
    have hone := countP_children_le p hnodup q
    cases hgood : good q with
    | false => simpa using ih
    | true =>
      simp only [Bool.and_true, decide_eq_true_eq]
      omega

theorem size_opened {names : List String} (h : Covers places top t) (hbelow : top <+: p)
    (hp : t.node p ≠ none) (hnames : names.Perm (t.names p)) :
    (names.map fun name => size places t (p ++ [name])).sum + 1 ≤ size places t p := by
  have hsum := sum_size_le places p (hnames.nodup_iff.mpr (t.nodup p))
    fun q => (t.node q).isSome
  have hself : 1 ≤ places.countP fun q => decide (q = p) && (t.node q).isSome := by
    refine List.countP_pos_iff.mpr ⟨p, h p hbelow hp, ?_⟩
    rw [Bool.and_eq_true, decide_eq_true_eq]
    exact ⟨rfl, Option.isSome_iff_ne_none.mpr hp⟩
  exact (Nat.add_le_add_left hself _).trans hsum

end Bounds

section Ends

variable {places : List Place} {top p : Place} {t t' : ListedTree γ} {expanded : Bool}
  {stack : List (Place × Bool)} {platform : Platform} {run : Run}

theorem length_le_entries (h : Covers places top t) (hstack : Sweeping top t stack) :
    stack.length ≤ entries places t stack := by
  have hweight : ∀ item ∈ stack, 1 ≤ if item.2 = true then 1 else size places t item.1 := by
    intro item hitem
    obtain ⟨hbelow, hthere⟩ := hstack.below item hitem
    split
    · exact le_refl 1
    · exact size_pos h hbelow hthere
  unfold entries
  clear hstack
  induction stack with
  | nil => exact le_refl 0
  | cons item stack ih =>
    have hfirst := hweight item List.mem_cons_self
    have hrest := ih fun item hitem => hweight item (List.mem_cons_of_mem _ hitem)
    rw [List.length_cons, List.map_cons, List.sum_cons]
    omega

theorem sum_le_of_shrinks (places : List Place) (hshrinks : Shrinks top t t')
    (stack : List (Place × Bool)) :
    visits places t' stack ≤ visits places t stack ∧
      entries places t' stack ≤ entries places t stack := by
  unfold visits entries
  induction stack with
  | nil => exact ⟨le_refl _, le_refl _⟩
  | cons item stack ih =>
    have hsize := size_le_of_shrinks places hshrinks item.1
    rw [List.map_cons, List.map_cons, List.map_cons, List.map_cons, List.sum_cons, List.sum_cons,
      List.sum_cons, List.sum_cons]
    constructor
    · split <;> omega
    · split <;> omega

theorem sums_opened (stack : List (Place × Bool)) (h : Covers places top t)
    (hbelow : top <+: p) (hp : t.node p ≠ none) {names : List String} (hnames : names.Perm (t.names p)) :
    visits places t (opened p names stack) + 1 ≤ visits places t ((p, false) :: stack) ∧
      entries places t (opened p names stack) ≤ entries places t ((p, false) :: stack) := by
  have hsize := size_opened h hbelow hp hnames
  have hreverse : (names.reverse.map fun name => size places t (p ++ [name])).sum =
      (names.map fun name => size places t (p ++ [name])).sum := by
    rw [List.map_reverse, List.sum_reverse]
  have hdouble : (names.reverse.map fun name => 2 * size places t (p ++ [name])).sum =
      2 * (names.map fun name => size places t (p ++ [name])).sum := by
    rw [← hreverse, List.sum_map_mul_left]
  unfold visits entries opened
  simp only [List.map_append, List.map_map, List.map_cons, List.sum_append, List.sum_cons,
    Function.comp_def, Bool.false_eq_true, if_false, if_true]
  rw [hreverse, hdouble]
  constructor <;> omega

/-- **A run in which nothing fails ends**, within the bounds of the walk. -/
theorem sweep_of_quiet (hquiet : run.Quiet) (htop : top ≠ []) : ∀ {left : Nat} {t : ListedTree γ}
    {stack : List (Place × Bool)}, Sweeping top t stack → Covers places top t →
      visits places t stack ≤ left → entries places t stack ≤ MAX_STACK →
        (sweep platform run left t stack).1 = .ok () := by
  intro left
  induction left with
  | zero =>
    intro t stack h hcovers hvisits _
    cases stack with
    | nil => rfl
    | cons item stack =>
      obtain ⟨hbelow, hthere⟩ := h.below item List.mem_cons_self
      have hsize := size_pos hcovers hbelow hthere
      unfold visits at hvisits
      rw [List.map_cons, List.sum_cons] at hvisits
      split at hvisits <;> omega
  | succ left ih =>
    intro t stack h hcovers hvisits hentries
    cases stack with
    | nil => rfl
    | cons item stack =>
      obtain ⟨p, expanded⟩ := item
      obtain ⟨hbelow, hthere⟩ : top <+: p ∧ t.node p ≠ none :=
        h.below (p, expanded) List.mem_cons_self
      have hroot : p ≠ [] := by
        rintro rfl
        exact htop (List.prefix_nil.mp hbelow)
      have hempty : expanded = true → t.names p = [] := by
        rintro rfl
        rw [List.eq_nil_iff_forall_not_mem]
        intro name hname
        obtain ⟨item, hitem, _⟩ :=
          h.inside [] p stack rfl name ((t.mem_names p name).mp hname)
        cases hitem
      have hroom : expanded = false → stack.length + (t.names p).length ≤ MAX_STACK := by
        rintro rfl
        have hopened := (h.opened (List.Perm.refl (t.names p)))
        have hlength := length_le_entries hcovers hopened
        have hsums := (sums_opened stack hcovers hbelow hthere
          (List.Perm.refl (t.names p))).2
        unfold opened at hlength hsums
        rw [List.length_append, List.length_map, List.length_reverse, List.length_cons] at hlength
        omega
      rw [sweep, hquiet.time, if_neg Bool.false_ne_true]
      obtain ⟨⟨t', stack'⟩, hvisit⟩ := visit_of_quiet hquiet platform
        (MAX_VISITED - left) hroot hthere hempty hroom
      rw [hvisit]
      dsimp only
      rcases visit_cases hroot hthere hvisit with ⟨hnames, rfl, rfl⟩ | ⟨rfl, _, rfl, rfl⟩
      · have hshrinks := Shrinks.erase t hbelow hroot hnames
        have hsums := sum_le_of_shrinks places hshrinks stack'
        have hsize := size_pos hcovers hbelow hthere
        have hself : 1 ≤ size places t (p, expanded).1 := hsize
        unfold visits at hvisits
        unfold entries at hentries
        unfold visits entries at hsums
        rw [List.map_cons, List.sum_cons] at hvisits hentries
        refine ih (h.erase hroot hnames) (hcovers.shrinks hshrinks) ?_ ?_
        · unfold visits
          split at hvisits <;> omega
        · unfold entries
          omega
      · obtain ⟨hless, hsame⟩ := sums_opened stack hcovers hbelow hthere
          (run.arranged (t'.names p))
        exact ih (h.opened (run.arranged _)) hcovers (by omega) (by omega)

end Ends

/-! ## 2. The removal -/

section Removal

variable {platform : Platform} {run : Run} {parent target : List Hop} {t : ListedTree γ}
  {owner : Place} {name : String}

/-- The owner's directory and the name of what is removed from it, by the paths of a call. -/
structure Owned (platform : Platform) (t : ListedTree γ) (parent target : List Hop)
    (owner : Place) (name : String) : Prop where
  parent : t.resolve platform.links [] parent = .ok owner
  targetParent : t.resolve platform.links [] target.dropLast = .ok owner
  last : target.getLast? = some (.name name)
  directory : t.node owner = some .directory

theorem not_below_child (q : Place) (name : String) : ¬ q ++ [name] <+: q := by
  intro h
  have hlength := h.length_le
  rw [List.length_append, List.length_singleton] at hlength
  omega

theorem removeOwnedDirectory_of_owned (h : Owned platform t parent target owner name) :
    removeOwnedDirectory platform run parent target t =
      match t.node (owner ++ [name]) with
      | none => (.ok (), t)
      | some (.link _) =>
          match atEntry "root reparse point" (owner ++ [name]) (run.operationFault 0)
              (removeLinkObject platform t (owner ++ [name])) with
          | .error error => (.error error, t)
          | .ok t' => (.ok (), t')
      | some _ => sweep platform run MAX_VISITED t [(owner ++ [name], false)] := by
  have hdirectory := isDirectory_iff.mpr h.directory
  have hplace : ∀ found, t.node (owner ++ [name]) = some found → (∀ route, found ≠ .link route) →
      t.resolve platform.links [] target = .ok (owner ++ [name]) := by
    intro found hfound hlink
    have hwalk : t.walk owner [.name name] = .reached (owner ++ [name]) := by
      rw [walk, if_pos hdirectory, hfound]
      cases found with
      | directory => rfl
      | file content => rfl
      | link route => exact absurd rfl (hlink route)
    rw [← List.dropLast_append_getLast? _ h.last]
    exact resolve_concat h.targetParent hwalk
  have hguard : ¬ (owner ++ [name] = owner ∨ ¬ owner <+: owner ++ [name]) := by
    rintro (hsame | hnot)
    · exact List.cons_ne_nil _ _ (List.append_right_eq_self.mp hsame)
    · exact hnot (List.prefix_append _ _)
  unfold removeOwnedDirectory
  rw [h.parent]
  dsimp only
  rw [h.last]
  dsimp only
  rw [h.targetParent]
  dsimp only
  rw [if_neg (by simp), metadataIn, hdirectory, if_neg (by decide)]
  cases hfound : t.node (owner ++ [name]) with
  | none => rfl
  | some found =>
    cases found with
    | link route => rfl
    | directory =>
      dsimp only
      rw [hplace _ hfound (by simp)]
      dsimp only
      rw [if_neg hguard]
    | file content =>
      dsimp only
      rw [hplace _ hfound (by simp)]
      dsimp only
      rw [if_neg hguard]

/-- A call on anything else fails and leaves the tree as it is. -/
theorem removeOwnedDirectory_of_not_owned
    (h : ∀ owner name, ¬ Owned platform t parent target owner name) :
    ∃ error, removeOwnedDirectory platform run parent target t = (.error error, t) := by
  unfold removeOwnedDirectory
  cases hparent : t.resolve platform.links [] parent with
  | error error => exact ⟨_, rfl⟩
  | ok owner =>
    cases hlast : target.getLast? with
    | none => exact ⟨_, rfl⟩
    | some last =>
      cases htargetParent : t.resolve platform.links [] target.dropLast with
      | error error => exact ⟨_, rfl⟩
      | ok targetParent =>
        dsimp only
        by_cases hsame : targetParent = owner
        · rw [if_neg (not_not.mpr hsame)]
          subst hsame
          unfold metadataIn
          by_cases hdirectory : t.isDirectory targetParent = false
          · rw [if_pos hdirectory]
            exact ⟨_, rfl⟩
          · rw [if_neg hdirectory]
            rw [Bool.not_eq_false] at hdirectory
            have htarget : ∀ place, t.walk targetParent [last] = .reached place →
                t.resolve platform.links [] target = .ok place := by
              intro place hwalk
              have hall := resolve_concat htargetParent hwalk
              rwa [List.dropLast_append_getLast? _ hlast] at hall
            cases last with
            | name name =>
              exact absurd ⟨hparent, htargetParent, hlast, isDirectory_iff.mp hdirectory⟩
                (h targetParent name)
            | here =>
              rw [htarget targetParent (by rw [walk, if_pos hdirectory, walk])]
              dsimp only
              rw [if_pos (Or.inl rfl)]
              exact ⟨_, rfl⟩
            | up =>
              rw [htarget targetParent.dropLast (by rw [walk, if_pos hdirectory, walk])]
              dsimp only
              rw [if_pos]
              · exact ⟨_, rfl⟩
              · by_cases hroot : targetParent = []
                · left
                  rw [hroot]
                  rfl
                · right
                  intro hprefix
                  have hlength := hprefix.length_le
                  have hpos := List.length_pos_of_ne_nil hroot
                  rw [List.length_dropLast] at hlength
                  omega
        · rw [if_pos hsame]
          exact ⟨_, rfl⟩

/-- **Only what is owned is taken out of the tree**, and when the call returns nothing is left. -/
theorem removal_of_owned (run : Run) (h : Owned platform t parent target owner name) :
    Shrinks (owner ++ [name]) t (removeOwnedDirectory platform run parent target t).2 ∧
      ((removeOwnedDirectory platform run parent target t).1 = .ok () →
        (removeOwnedDirectory platform run parent target t).2.node (owner ++ [name]) = none) := by
  have hroot : owner ++ [name] ≠ [] := List.append_ne_nil_of_right_ne_nil _ (by simp)
  rw [removeOwnedDirectory_of_owned h]
  cases hfound : t.node (owner ++ [name]) with
  | none => exact ⟨Shrinks.refl _ t, fun _ => hfound⟩
  | some found =>
    have hthere : t.node (owner ++ [name]) ≠ none := by
      rw [hfound]
      exact Option.some_ne_none _
    cases found with
    | directory => exact sweep_removes hroot (Sweeping.start hthere)
    | file content => exact sweep_removes hroot (Sweeping.start hthere)
    | link route =>
      dsimp only
      cases hremoved : atEntry "root reparse point" (owner ++ [name]) (run.operationFault 0)
          (removeLinkObject platform t (owner ++ [name])) with
      | error error => exact ⟨Shrinks.refl _ t, fun hok => by cases hok⟩
      | ok t' =>
        obtain ⟨hempty, rfl⟩ := removeLinkObject_eq_ok hroot hthere (atEntry_eq_ok hremoved)
        refine ⟨Shrinks.erase t (List.prefix_refl _) hroot hempty, fun _ => ?_⟩
        rw [node_erase, if_pos rfl]

/-- **A run in which nothing fails removes all of a tree within the bound.** -/
theorem removal_of_quiet (h : Owned platform t parent target owner name) (hquiet : run.Quiet)
    {places : List Place} (hplaces : places.length ≤ MAX_STACK)
    (hcovers : Covers places (owner ++ [name]) t) :
    (removeOwnedDirectory platform run parent target t).1 = .ok () := by
  have hroot : owner ++ [name] ≠ [] := List.append_ne_nil_of_right_ne_nil _ (by simp)
  have hsize : size places t (owner ++ [name]) ≤ MAX_STACK :=
    List.countP_le_length.trans hplaces
  have hdouble : MAX_VISITED = 2 * MAX_STACK := rfl
  rw [removeOwnedDirectory_of_owned h]
  cases hfound : t.node (owner ++ [name]) with
  | none => rfl
  | some found =>
    have hthere : t.node (owner ++ [name]) ≠ none := by
      rw [hfound]
      exact Option.some_ne_none _
    have hsweep : (sweep platform run MAX_VISITED t [(owner ++ [name], false)]).1 = .ok () := by
      refine sweep_of_quiet hquiet hroot (Sweeping.start hthere) hcovers ?_ ?_
      · simp [visits]
        omega
      · simpa [entries] using hsize
    cases found with
    | directory => exact hsweep
    | file content => exact hsweep
    | link route =>
      have hempty : t.names (owner ++ [name]) = [] :=
        names_of_not_directory (by rw [hfound]; simp)
      dsimp only
      rw [hquiet.operation 0, removeLinkObject_of_link hroot hfound hempty]
      rfl

end Removal

/-- The paths of a call lead to the owner's directory, whatever is left of the owned place. -/
def Around (platform : Platform) (t : ListedTree γ) (parent target : List Hop) (owner : Place)
    (name : String) : Prop :=
  ∀ t' : ListedTree γ, Shrinks (owner ++ [name]) t t' → Owned platform t' parent target owner name

def afterRuns (platform : Platform) (parent target : List Hop) (t : ListedTree γ)
    (runs : List Run) : ListedTree γ :=
  runs.foldl (fun t run => (removeOwnedDirectory platform run parent target t).2) t

section Complete

variable {platform : Platform} {parent target : List Hop} {t : ListedTree γ} {owner : Place}
  {name : String}

theorem shrinks_afterRuns (h : Around platform t parent target owner name) (runs : List Run) :
    Shrinks (owner ++ [name]) t (afterRuns platform parent target t runs) := by
  have hall : ∀ (runs : List Run) (t' : ListedTree γ), Shrinks (owner ++ [name]) t t' →
      Shrinks (owner ++ [name]) t (afterRuns platform parent target t' runs) := by
    intro runs
    induction runs with
    | nil => exact fun _ ht' => ht'
    | cons run runs ih =>
      intro t' ht'
      exact ih _ (ht'.trans (removal_of_owned run (h t' ht')).1)
  exact hall runs t (Shrinks.refl _ t)

theorem none_below {top q : Place} (h : t.node top = none) (hq : top <+: q) : t.node q = none := by
  by_cases hsame : top = q
  · rw [← hsame, h]
  · by_contra hthere
    have habove := directory_above hthere hq hsame
    rw [h] at habove
    cases habove

/-- **The removal of an owned directory.**  A call fails and changes nothing, or it takes entries of
the owned place out of the tree, nothing else, and all of them if it returns.  After any number of
runs, which may have failed anywhere, a run in which nothing fails removes all of a place with at
most 1,000,000 entries. -/
theorem owned_directory_removed (platform : Platform) (parent target : List Hop)
    (t : ListedTree γ) :
    (∀ run : Run,
      (∃ error, removeOwnedDirectory platform run parent target t = (.error error, t)) ∨
      ∃ owner name, Owned platform t parent target owner name ∧
        Shrinks (owner ++ [name]) t (removeOwnedDirectory platform run parent target t).2 ∧
        ((removeOwnedDirectory platform run parent target t).1 = .ok () →
          ∀ q, owner ++ [name] <+: q →
            (removeOwnedDirectory platform run parent target t).2.node q = none)) ∧
    ∀ owner name, Around platform t parent target owner name →
      (∃ places : List Place, places.length ≤ 1000000 ∧ Covers places (owner ++ [name]) t) →
      ∀ (earlier : List Run) (run : Run), run.Quiet →
        ∃ t', removeOwnedDirectory platform run parent target
              (afterRuns platform parent target t earlier) = (.ok (), t') ∧
          Shrinks (owner ++ [name]) t t' ∧ ∀ q, owner ++ [name] <+: q → t'.node q = none := by
  refine ⟨fun run => ?_, ?_⟩
  · by_cases h : ∃ owner name, Owned platform t parent target owner name
    · obtain ⟨owner, name, howned⟩ := h
      obtain ⟨hshrinks, hdone⟩ := removal_of_owned run howned
      exact Or.inr ⟨owner, name, howned, hshrinks, fun hok q hq => none_below (hdone hok) hq⟩
    · exact Or.inl (removeOwnedDirectory_of_not_owned fun owner name howned =>
        h ⟨owner, name, howned⟩)
  · rintro owner name haround ⟨places, hplaces, hcovers⟩ earlier run hquiet
    have hshrinks := shrinks_afterRuns haround earlier
    have howned := haround _ hshrinks
    have hok := removal_of_quiet howned hquiet hplaces (hcovers.shrinks hshrinks)
    obtain ⟨hrun, hdone⟩ := removal_of_owned run howned
    refine ⟨_, Prod.ext hok rfl, hshrinks.trans hrun, ?_⟩
    exact fun q hq => none_below (hdone hok) hq

end Complete

/-! ## 3. A crowded directory -/

def crowd (n : Nat) : List String :=
  (List.range n).map fun i => String.ofList (List.replicate i 'a')

theorem length_crowd (n : Nat) : (crowd n).length = n := by
  rw [crowd, List.length_map, List.length_range]

theorem nodup_crowd (n : Nat) : (crowd n).Nodup := by
  refine List.Nodup.map (fun i j h => ?_) List.nodup_range
  have hlength := congrArg List.length (String.ofList_injective h)
  rwa [List.length_replicate, List.length_replicate] at hlength

/-- A directory `/d/t` with a link to `/d` and files of these names. -/
def crowdedNode (n : Nat) : Place → Option (Node Unit)
  | [] => some .directory
  | ["d"] => some .directory
  | ["d", "t"] => some .directory
  | ["d", "t", name] =>
      if name = "up" then some (.link ⟨true, [.name "d"]⟩)
      else if name ∈ crowd n then some (.file ())
      else none
  | _ => none

def crowdedNames (n : Nat) : Place → List String
  | [] => ["d"]
  | ["d"] => ["t"]
  | ["d", "t"] => "up" :: crowd n
  | _ => []

theorem up_not_mem_crowd (n : Nat) : "up" ∉ crowd n := by
  intro h
  obtain ⟨i, _, hi⟩ := List.mem_map.mp h
  have hmem : 'u' ∈ (String.ofList (List.replicate i 'a')).toList := by
    rw [hi]
    decide
  rw [String.toList_ofList] at hmem
  exact absurd (List.eq_of_mem_replicate hmem) (by decide)

theorem mem_crowdedNames (n : Nat) (p : Place) (name : String) :
    name ∈ crowdedNames n p ↔ crowdedNode n (p ++ [name]) ≠ none := by
  rcases p with _ | ⟨a, _ | ⟨b, _ | ⟨c, rest⟩⟩⟩
  · by_cases h : name = "d"
    · simp [crowdedNames, crowdedNode, h]
    · simp [crowdedNames, crowdedNode, h]
  · by_cases ha : a = "d"
    · by_cases h : name = "t"
      · simp [crowdedNames, crowdedNode, ha, h]
      · simp [crowdedNames, crowdedNode, ha, h]
    · simp [crowdedNames, crowdedNode, ha]
  · by_cases ha : a = "d"
    · by_cases hb : b = "t"
      · by_cases h : name = "up"
        · simp [crowdedNames, crowdedNode, ha, hb, h]
        · simp [crowdedNames, crowdedNode, ha, hb, h]
      · simp [crowdedNames, crowdedNode, hb]
    · simp [crowdedNames, crowdedNode, ha]
  · simp [crowdedNames, crowdedNode]

def crowded (n : Nat) : ListedTree Unit where
  node := crowdedNode n
  root := rfl
  parent p name h := by
    have hname := (mem_crowdedNames n p name).mpr h
    unfold crowdedNames at hname
    split at hname
    · rfl
    · rfl
    · rfl
    · cases hname
  names := crowdedNames n
  mem_names := mem_crowdedNames n
  nodup p := by
    unfold crowdedNames
    split
    · exact List.nodup_singleton _
    · exact List.nodup_singleton _
    · exact List.nodup_cons.mpr ⟨up_not_mem_crowd n, nodup_crowd n⟩
    · exact List.nodup_nil

/-- The paths `/d` and `/d/t`. -/
def crowdedParent : List Hop := [.name "d"]
def crowdedTarget : List Hop := [.name "d", .name "t"]

theorem around_crowded (platform : Platform) (n : Nat) :
    Around platform (crowded n) crowdedParent crowdedTarget ["d"] "t" := by
  intro t' hshrinks
  have hdirectory : t'.node ["d"] = some .directory :=
    hshrinks.outside (not_below_child ["d"] "t")
  have hresolve : t'.resolve platform.links [] (hopsTo ["d"]) = .ok ["d"] :=
    resolve_of_real (Real.of_directory hdirectory) _
  exact ⟨hresolve, hresolve, rfl, hdirectory⟩

theorem pushEntries_of_crowd (run : Run) (visited : Nat) (p : Place) {names : List String} :
    ∀ (index : Nat) {stack : List (Place × Bool)}, MAX_STACK + 1 < stack.length + names.length →
      stack.length ≤ MAX_STACK + 1 →
        ∃ error, pushEntries run visited p index names stack = .error error := by
  induction names with
  | nil =>
    intro index stack hcrowd hstack
    rw [List.length_nil] at hcrowd
    omega
  | cons name names ih =>
    intro index stack hcrowd hstack
    rw [List.length_cons] at hcrowd
    rw [pushEntries]
    split
    · exact ⟨_, rfl⟩
    · next hroom =>
      split
      · exact ⟨_, rfl⟩
      · refine ih (index + 1) ?_ ?_
        · rw [List.length_cons]
          omega
        · rw [List.length_cons]
          omega

theorem removal_of_crowd (platform : Platform) (run : Run) {n : Nat} (hn : MAX_STACK ≤ n) :
    ∃ error, removeOwnedDirectory platform run crowdedParent crowdedTarget (crowded n) =
      (.error error, crowded n) := by
  have howned := around_crowded platform n (crowded n) (Shrinks.refl _ _)
  have hdirectory : (crowded n).node ["d", "t"] = some .directory := rfl
  have hmax : MAX_VISITED = 1999999 + 1 := rfl
  rw [removeOwnedDirectory_of_owned howned]
  show ∃ error, sweep platform run MAX_VISITED (crowded n) [(["d", "t"], false)] = (.error error, _)
  rw [hmax, sweep]
  split
  · exact ⟨_, rfl⟩
  · cases hvisit : visit platform run (MAX_VISITED - 1999999) (crowded n)
        (["d", "t"], false) [] with
    | error error => exact ⟨error, rfl⟩
    | ok next =>
      exfalso
      unfold visit at hvisit
      split at hvisit
      · cases hvisit
      · rw [lookup_of_node (by simp) hdirectory] at hvisit
        dsimp only at hvisit
        rw [if_neg (by decide)] at hvisit
        split at hvisit
        · cases hvisit
        · rw [readDir_of_directory hdirectory] at hvisit
          dsimp only at hvisit
          have hlength := (run.arranged ((crowded n).names ["d", "t"])).length_eq
          have hnames : ((crowded n).names ["d", "t"]).length = n + 1 := by
            show ("up" :: crowd n).length = n + 1
            rw [List.length_cons, length_crowd]
          have hcrowd : MAX_STACK + 1 < [((["d", "t"] : Place), true)].length +
              (run.arrange ((crowded n).names ["d", "t"])).length := by
            rw [hlength, hnames, List.length_singleton]
            omega
          obtain ⟨error, hpush⟩ := pushEntries_of_crowd run (MAX_VISITED - 1999999) ["d", "t"] 0
            hcrowd (by rw [List.length_singleton]; decide)
          rw [hpush] at hvisit
          cases hvisit

theorem crowded_stays (platform : Platform) (run : Run) :
    (removeOwnedDirectory platform run crowdedParent crowdedTarget (crowded 1000000)).1 ≠ .ok () ∧
      (removeOwnedDirectory platform run crowdedParent crowdedTarget (crowded 1000000)).2 =
        crowded 1000000 := by
  obtain ⟨error, hrun⟩ := removal_of_crowd platform run (Nat.le_refl MAX_STACK)
  have hmax : crowded MAX_STACK = crowded 1000000 := rfl
  rw [hmax] at hrun
  rw [hrun]
  exact ⟨by simp, rfl⟩

/-- A run that lists each directory in its order, and in which nothing fails. -/
def quietRun : Run where
  arrange := id
  arranged := List.Perm.refl
  metadataFault _ := none
  operationFault _ := none
  listingFault _ _ := none
  expired _ := false
  listingExpired _ _ := false

/-- A platform on which links are removed as files. -/
def plainPlatform : Platform := ⟨40, fun _ => false, fun _ => false⟩

/-- Even where nothing fails, the tree stays as it is, and so does every repetition of the run. -/
theorem crowded_never_removed :
    (removeOwnedDirectory plainPlatform quietRun crowdedParent crowdedTarget
        (crowded 1000000)).1 ≠ .ok () ∧
      (removeOwnedDirectory plainPlatform quietRun crowdedParent crowdedTarget
        (crowded 1000000)).2 = crowded 1000000 :=
  crowded_stays plainPlatform quietRun

theorem covers_crowded : Covers [["d", "t"], ["d", "t", "up"], ["d", "t", ""], ["d", "t", "a"]]
    ["d", "t"] (crowded 2) := by
  rintro q ⟨rest, rfl⟩ hthere
  have hcrowd : crowd 2 = ["", "a"] := by decide
  rcases rest with _ | ⟨name, _ | ⟨more, rest⟩⟩
  · simp
  · have hname := (mem_crowdedNames 2 ["d", "t"] name).mpr hthere
    have hnames : crowdedNames 2 ["d", "t"] = ["up", "", "a"] := by
      show "up" :: crowd 2 = _
      rw [hcrowd]
    rw [hnames] at hname
    simpa using hname
  · exact absurd rfl hthere

/-- Two files and a link to the owner's directory are removed. -/
theorem owned_directory_removed_small : ∃ t',
    removeOwnedDirectory plainPlatform quietRun crowdedParent crowdedTarget (crowded 2) =
      (.ok (), t') ∧ t'.node ["d", "t"] = none ∧ t'.node ["d"] = some .directory := by
  have hquiet : quietRun.Quiet :=
    ⟨fun _ => rfl, fun _ => rfl, fun _ _ => rfl, fun _ => rfl, fun _ _ => rfl⟩
  obtain ⟨t', hrun, hshrinks, hnone⟩ :=
    (owned_directory_removed plainPlatform crowdedParent crowdedTarget (crowded 2)).2 ["d"] "t"
      (around_crowded plainPlatform 2) ⟨_, by decide, covers_crowded⟩ [] quietRun hquiet
  exact ⟨t', hrun, hnone _ (List.prefix_refl _), hshrinks.outside (not_below_child ["d"] "t")⟩

end DshNexus.OwnedDirectory
