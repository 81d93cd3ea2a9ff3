import DshNexus.Agent.PluginIsolation
import DshNexus.Concurrent.System

/-!
# The order of the bundles

Plugins of one profile are disabled and enabled in any order.  The bundle list stays what the
original list is without the disabled ones, except that a plugin may be put back at a wrong place:
its record knows only the bundles that were active when it was disabled.

1. `bundlesBefore`, `bundlesAfter`, and the place of a bundle in a filtered list.
2. `Inv`: a listing in order; taking a bundle out keeps it (`Inv.isolate`).
3. `RestoresInOrder` and `restoreIndex_iff`: when a bundle is put back at its place, and only then.
4. `plugins_keep_order`: every sequence of calls that meets this condition.
-/

namespace DshNexus.Agent.Plugins

open Document Snapshot Concurrent

/-! ## 1. Places -/

def bundlesBefore (original : List String) (package : String) : List String :=
  original.takeWhile (· != package)

def bundlesAfter (original : List String) (package : String) : List String :=
  (original.dropWhile (· != package)).tail

theorem original_eq {original : List String} {package : String} (h : package ∈ original) :
    original = bundlesBefore original package ++ package :: bundlesAfter original package := by
  induction original with
  | nil => exact absurd h List.not_mem_nil
  | cons x xs ih =>
    by_cases hx : x = package
    · simp [bundlesBefore, bundlesAfter, hx]
    · have hmem : package ∈ xs := (List.mem_cons.mp h).resolve_left fun heq => hx heq.symm
      simpa [bundlesBefore, bundlesAfter, hx] using ih hmem

theorem notMem_bundlesBefore (original : List String) (package : String) :
    package ∉ bundlesBefore original package := by
  intro h
  exact absurd (List.mem_takeWhile_imp h) (by simp)

theorem notMem_bundlesAfter {original : List String} (hdistinct : original.Nodup)
    (package : String) : package ∉ bundlesAfter original package := by
  by_cases h : package ∈ original
  · rw [original_eq h, List.nodup_append, List.nodup_cons] at hdistinct
    exact hdistinct.2.1.1
  · intro hmem
    refine h ((List.dropWhile_suffix (· != package)).subset ?_)
    exact List.mem_of_mem_tail hmem

theorem position_append {names rest : List String} {package : String} (h : package ∉ names) :
    Listing.position (names ++ package :: rest) package = some names.length := by
  unfold Listing.position
  have hnone : names.findIdx? (fun name => name = package) = none := by
    rw [List.findIdx?_eq_none_iff]
    intro name hname
    rw [decide_eq_false_iff_not]
    rintro rfl
    exact h hname
  rw [List.findIdx?_append, hnone, List.findIdx?_cons]
  simp

theorem position_eq_none {names : List String} {package : String} :
    Listing.position names package = none ↔ package ∉ names := by
  unfold Listing.position
  rw [List.findIdx?_eq_none_iff]
  constructor
  · intro h hmem
    exact absurd (h package hmem) (by simp)
  · intro h name hname
    rw [decide_eq_false_iff_not]
    rintro rfl
    exact h hname

theorem position_isSome {names : List String} {package : String} :
    (Listing.position names package).isSome = true ↔ package ∈ names := by
  rw [Option.isSome_iff_ne_none, ne_eq, position_eq_none, not_not]

theorem findRecord_eq_none {records : List DisabledBundle} {package : String} :
    Listing.findRecord records package = none ↔
      package ∉ records.map DisabledBundle.package := by
  unfold Listing.findRecord
  rw [List.find?_eq_none, List.mem_map]
  constructor
  · rintro h ⟨r, hr, rfl⟩
    exact h r hr (by simp)
  · intro h r hr
    rw [decide_eq_true_eq]
    rintro rfl
    exact h ⟨r, hr, rfl⟩

/-! ## 2. Listings in order -/

namespace Listing

def disabled (l : Listing) : List String := l.records.map DisabledBundle.package

/-- The bundle list is the original list without the disabled ones, and every record tells of
bundles that stood after its bundle. -/
structure Inv (original : List String) (l : Listing) : Prop where
  active : l.active = original.filter fun x => decide (x ∉ l.disabled)
  distinct : l.disabled.Nodup
  known : ∀ r ∈ l.records, r.package ∈ original
  following : ∀ r ∈ l.records, r.following.Sublist (bundlesAfter original r.package)
  index : ∀ r ∈ l.records, r.index ≤ original.length

variable {original : List String} {l : Listing} {package : String}

theorem Inv.mem_active (h : Inv original l) {x : String} :
    x ∈ l.active ↔ x ∈ original ∧ x ∉ l.disabled := by
  rw [h.active, List.mem_filter, decide_eq_true_eq]

def activeBefore (original : List String) (l : Listing) (package : String) : List String :=
  (bundlesBefore original package).filter fun x => decide (x ∈ l.active)

def activeAfter (original : List String) (l : Listing) (package : String) : List String :=
  (bundlesAfter original package).filter fun x => decide (x ∈ l.active)

theorem notMem_activeBefore (original : List String) (l : Listing) (package : String) :
    package ∉ l.activeBefore original package := fun h =>
  notMem_bundlesBefore original package (List.mem_filter.mp h).1

theorem filter_split {disabled : List String} (hmem : package ∈ original) :
    original.filter (fun x => decide (x ∉ disabled)) =
      (bundlesBefore original package).filter (fun x => decide (x ∉ disabled)) ++
        ((if package ∈ disabled then [] else [package]) ++
          (bundlesAfter original package).filter fun x => decide (x ∉ disabled)) := by
  conv_lhs => rw [original_eq hmem]
  rw [List.filter_append, List.filter_cons]
  by_cases hdisabled : package ∈ disabled
  · simp [hdisabled]
  · simp [hdisabled]

theorem mem_of_mem_bundlesBefore {x : String} (hx : x ∈ bundlesBefore original package) :
    x ∈ original := (List.takeWhile_prefix (· != package)).subset hx

theorem mem_of_mem_bundlesAfter {x : String} (hx : x ∈ bundlesAfter original package) :
    x ∈ original := (List.dropWhile_suffix (· != package)).subset (List.mem_of_mem_tail hx)

theorem Inv.activeBefore_eq (h : Inv original l) : l.activeBefore original package =
    (bundlesBefore original package).filter fun x => decide (x ∉ l.disabled) := by
  refine List.filter_congr fun x hx => ?_
  rw [decide_eq_decide, h.mem_active]
  exact and_iff_right (mem_of_mem_bundlesBefore hx)

theorem Inv.activeAfter_eq (h : Inv original l) : l.activeAfter original package =
    (bundlesAfter original package).filter fun x => decide (x ∉ l.disabled) := by
  refine List.filter_congr fun x hx => ?_
  rw [decide_eq_decide, h.mem_active]
  exact and_iff_right (mem_of_mem_bundlesAfter hx)

theorem Inv.active_split (h : Inv original l) (hmem : package ∈ original) :
    l.active = l.activeBefore original package ++
      ((if package ∈ l.disabled then [] else [package]) ++ l.activeAfter original package) := by
  rw [h.activeBefore_eq, h.activeAfter_eq, h.active]
  exact filter_split hmem

theorem filter_insert_disabled {disabled disabled' : List String}
    (hother : ∀ x, x ≠ package → (x ∈ disabled' ↔ x ∈ disabled)) {xs : List String}
    (hxs : package ∉ xs) : xs.filter (fun x => decide (x ∉ disabled')) =
      xs.filter fun x => decide (x ∉ disabled) := by
  refine List.filter_congr fun x hx => ?_
  rw [decide_eq_decide, hother x]
  rintro rfl
  exact hxs hx

theorem Inv.isolate_eq (h : Inv original l) (hactive : package ∈ l.active) :
    l.isolate package =
      ⟨l.activeBefore original package ++ l.activeAfter original package,
        l.records ++ [⟨package, (l.activeBefore original package).length,
          l.activeAfter original package⟩]⟩ := by
  obtain ⟨hmem, hnot⟩ := h.mem_active.mp hactive
  have hsplit := h.active_split hmem
  rw [if_neg hnot, List.singleton_append] at hsplit
  have hposition : position l.active package = some (l.activeBefore original package).length := by
    rw [hsplit]
    exact position_append (notMem_activeBefore original l package)
  have herase : l.active.eraseIdx (l.activeBefore original package).length =
      l.activeBefore original package ++ l.activeAfter original package := by
    conv_lhs => rw [hsplit]
    rw [List.eraseIdx_append_of_length_le (Nat.le_refl _), Nat.sub_self]
    rfl
  have hdrop : l.active.drop ((l.activeBefore original package).length + 1) =
      l.activeAfter original package := by
    conv_lhs => rw [hsplit]
    rw [List.drop_append, List.drop_eq_nil_of_le (Nat.le_succ _), Nat.add_sub_cancel_left]
    rfl
  have hrecord : (findRecord l.records package).isSome = false := by
    rw [Option.isSome_eq_false_iff, Option.isNone_iff_eq_none, findRecord_eq_none]
    exact hnot
  unfold isolate
  rw [hposition]
  dsimp only
  rw [herase, hrecord, hdrop]
  rfl

/-- **Taking a bundle out keeps the order.** -/
theorem Inv.isolate (h : Inv original l) (hdistinct : original.Nodup) (package : String) :
    Inv original (l.isolate package) ∧
      ∀ x, x ∈ (l.isolate package).disabled ↔ x ∈ l.disabled ∨ (x = package ∧ x ∈ original) := by
  by_cases hactive : package ∈ l.active
  · obtain ⟨hmem, hnot⟩ := h.mem_active.mp hactive
    rw [h.isolate_eq hactive]
    have hdisabled : ∀ x, x ∈ Listing.disabled ⟨l.activeBefore original package ++
        l.activeAfter original package, l.records ++ [⟨package,
          (l.activeBefore original package).length, l.activeAfter original package⟩]⟩ ↔
        x ∈ l.disabled ∨ x = package := by
      intro x
      simp [Listing.disabled]
    refine ⟨⟨?_, ?_, fun r hr => ?_, fun r hr => ?_, fun r hr => ?_⟩, fun x => ?_⟩
    · rw [filter_split hmem, if_pos ((hdisabled package).mpr (Or.inr rfl)), List.nil_append,
        h.activeBefore_eq, h.activeAfter_eq]
      have hother : ∀ x, x ≠ package → (x ∈ Listing.disabled ⟨l.activeBefore original package ++
          l.activeAfter original package, l.records ++ [⟨package,
            (l.activeBefore original package).length, l.activeAfter original package⟩]⟩ ↔
          x ∈ l.disabled) := fun x hx => (hdisabled x).trans (or_iff_left hx)
      rw [h.activeBefore_eq, h.activeAfter_eq] at hother
      rw [filter_insert_disabled hother (notMem_bundlesBefore original package),
        filter_insert_disabled hother (notMem_bundlesAfter hdistinct package)]
    · change (l.records ++ [_]).map DisabledBundle.package |>.Nodup
      rw [List.map_append, List.nodup_append]
      refine ⟨h.distinct, List.nodup_singleton _, ?_⟩
      rintro x hx y hy rfl
      rw [List.mem_singleton.mp hy] at hx
      exact hnot hx
    · rcases List.mem_append.mp hr with hr | hr
      · exact h.known r hr
      · rw [List.mem_singleton.mp hr]
        exact hmem
    · rcases List.mem_append.mp hr with hr | hr
      · exact h.following r hr
      · rw [List.mem_singleton.mp hr]
        exact List.filter_sublist
    · rcases List.mem_append.mp hr with hr | hr
      · exact h.index r hr
      · rw [List.mem_singleton.mp hr]
        calc (l.activeBefore original package).length
            ≤ (bundlesBefore original package).length := List.length_filter_le _ _
          _ ≤ original.length := (List.takeWhile_prefix (· != package)).length_le
    · rw [hdisabled]
      refine or_congr_right ?_
      constructor
      · rintro rfl
        exact ⟨rfl, hmem⟩
      · exact And.left
  · have hsame : l.isolate package = l := by
      unfold Listing.isolate
      rw [position_eq_none.mpr hactive]
    rw [hsame]
    refine ⟨h, fun x => (or_iff_left_of_imp ?_).symm⟩
    rintro ⟨rfl, hmem⟩
    by_contra hnot
    exact hactive (h.mem_active.mpr ⟨hmem, hnot⟩)

/-! ## 3. Putting a bundle back -/

/-- **When a bundle is put back at its place.**  If one of the bundles that followed it when it was
disabled is active, then the first active bundle that belongs after it followed it then; if none is
active, then as many bundles are active before its place as were then, or as all that are active
if those are fewer. -/
def RestoresInOrder (original : List String) (l : Listing) (r : DisabledBundle) : Prop :=
  ((∃ next ∈ r.following, next ∈ l.active) →
    ∀ x ∈ (l.activeAfter original r.package).head?, x ∈ r.following) ∧
  ((∀ next ∈ r.following, next ∉ l.active) →
    min r.index l.active.length = (l.activeBefore original r.package).length)

theorem findSome?_position (active following : List String) :
    following.findSome? (position active) =
      (following.filter fun x => decide (x ∈ active)).head?.bind (position active) := by
  induction following with
  | nil => rfl
  | cons x xs ih =>
    by_cases hx : x ∈ active
    · obtain ⟨i, hi⟩ := Option.isSome_iff_exists.mp (position_isSome.mpr hx)
      rw [List.findSome?_cons, hi, List.filter_cons_of_pos (by simpa using hx)]
      exact hi.symm
    · rw [List.findSome?_cons, position_eq_none.mpr hx,
        List.filter_cons_of_neg (by simpa using hx)]
      exact ih

theorem head?_of_sublist {xs ys : List String} {x : String} (h : xs.Sublist (x :: ys))
    (hmem : x ∈ xs) (hnot : x ∉ ys) : xs.head? = some x := by
  cases h with
  | cons _ hsub => exact absurd (hsub.subset hmem) hnot
  | cons_cons _ hsub => rfl

theorem Inv.followers_sublist (h : Inv original l) {r : DisabledBundle} (hr : r ∈ l.records) :
    (r.following.filter fun x => decide (x ∈ l.active)).Sublist
      (l.activeAfter original r.package) :=
  (h.following r hr).filter _

theorem Inv.activeAfter_nodup (hdistinct : original.Nodup) :
    (l.activeAfter original package).Nodup := by
  refine (List.Nodup.sublist ?_ hdistinct).filter _
  exact (List.tail_sublist _).trans (List.dropWhile_suffix _).sublist

theorem Inv.position_after (h : Inv original l) (hdistinct : original.Nodup)
    (hmem : package ∈ original) (hdisabled : package ∈ l.disabled) {x : String}
    {before after : List String} (hx : l.activeAfter original package = before ++ x :: after) :
    position l.active x = some ((l.activeBefore original package).length + before.length) := by
  have hsplit := h.active_split hmem
  rw [if_pos hdisabled, List.nil_append, hx, ← List.append_assoc] at hsplit
  rw [hsplit, ← List.length_append]
  refine position_append fun hbefore => ?_
  have hnodup : l.active.Nodup := by
    rw [h.active]
    exact hdistinct.filter _
  rw [hsplit, List.nodup_append] at hnodup
  exact hnodup.2.2 x hbefore x List.mem_cons_self rfl

/-- **The index is the place of the bundle exactly under the condition.** -/
theorem Inv.restoreIndex_iff (h : Inv original l) (hdistinct : original.Nodup)
    {r : DisabledBundle} (hr : r ∈ l.records) :
    restoreIndex l.active r = (l.activeBefore original r.package).length ↔
      RestoresInOrder original l r := by
  have hmem := h.known r hr
  have hdisabled : r.package ∈ l.disabled := List.mem_map_of_mem hr
  unfold restoreIndex RestoresInOrder
  rw [findSome?_position]
  rcases hfollowers : r.following.filter (fun x => decide (x ∈ l.active)) with _ | ⟨f, fs⟩
  · have hnone : ∀ next ∈ r.following, next ∉ l.active := by
      intro next hnext
      have := List.filter_eq_nil_iff.mp hfollowers next hnext
      rwa [decide_eq_true_eq] at this
    change min r.index l.active.length = _ ↔ _
    refine ⟨fun heq => ⟨?_, fun _ => heq⟩, fun hcond => hcond.2 hnone⟩
    rintro ⟨next, hnext, hactive⟩
    exact absurd hactive (hnone next hnext)
  · have hf : f ∈ r.following ∧ f ∈ l.active := by
      have hmem' : f ∈ r.following.filter fun x => decide (x ∈ l.active) := by
        rw [hfollowers]
        exact List.mem_cons_self
      rw [List.mem_filter, decide_eq_true_eq] at hmem'
      exact hmem'
    have hsub := h.followers_sublist hr
    rw [hfollowers] at hsub
    obtain ⟨before, after, hafter⟩ := List.append_of_mem (hsub.subset List.mem_cons_self)
    have hposition := h.position_after hdistinct hmem hdisabled hafter
    rw [List.head?_cons, Option.bind_some, hposition, Option.getD_some]
    constructor
    · intro heq
      have hbefore : before = [] := List.eq_nil_of_length_eq_zero (by omega)
      refine ⟨fun _ x hx => ?_, fun hnone => absurd hf.2 (hnone f hf.1)⟩
      rw [hafter, hbefore, List.nil_append, List.head?_cons, Option.mem_some_iff] at hx
      rw [← hx]
      exact hf.1
    · rintro ⟨hfirst, -⟩
      rcases before with _ | ⟨x, before⟩
      · rfl
      · exfalso
        have hx : x ∈ r.following := by
          refine hfirst ⟨f, hf.1, hf.2⟩ x ?_
          rw [hafter]
          rfl
        have hxactive : x ∈ l.active := by
          have hmem' : x ∈ l.activeAfter original r.package := by
            rw [hafter]
            exact List.mem_cons_self
          have := (List.mem_filter.mp hmem').2
          rwa [decide_eq_true_eq] at this
        have hnodup : (l.activeAfter original r.package).Nodup := activeAfter_nodup hdistinct
        rw [hafter, List.cons_append, List.nodup_cons] at hnodup
        rw [hafter, List.cons_append] at hsub
        have hxmem : x ∈ f :: fs := by
          rw [← hfollowers, List.mem_filter, decide_eq_true_eq]
          exact ⟨hx, hxactive⟩
        have hhead := head?_of_sublist hsub hxmem hnodup.1
        rw [List.head?_cons] at hhead
        refine hnodup.1 ?_
        rw [← Option.some.inj hhead]
        exact List.mem_append_right _ List.mem_cons_self

theorem findRecord_eq_some {records : List DisabledBundle} {package : String} {r : DisabledBundle}
    (h : findRecord records package = some r) : r ∈ records ∧ r.package = package := by
  have hpackage := List.find?_some h
  exact ⟨List.mem_of_find?_eq_some h, of_decide_eq_true hpackage⟩

theorem Inv.restore_eq (h : Inv original l) {r : DisabledBundle}
    (hr : findRecord l.records package = some r) :
    l.restore package = ⟨l.active.insertIdx (restoreIndex l.active r) package,
      l.records.filter fun r => r.package ≠ package⟩ := by
  obtain ⟨hmem, rfl⟩ := findRecord_eq_some hr
  have hposition : (position l.active r.package).isSome = false := by
    rw [Option.isSome_eq_false_iff, Option.isNone_iff_eq_none, position_eq_none]
    intro hactive
    exact (h.mem_active.mp hactive).2 (List.mem_map_of_mem hmem)
  unfold restore
  rw [hr]
  dsimp only
  rw [hposition]
  rfl

theorem mem_disabled_restore {x : String} :
    x ∈ Listing.disabled ⟨l.active, l.records.filter fun r => r.package ≠ package⟩ ↔
      x ∈ l.disabled ∧ x ≠ package := by
  unfold disabled
  rw [List.mem_map, List.mem_map]
  constructor
  · rintro ⟨r, hr, rfl⟩
    obtain ⟨hmem, hne⟩ := List.mem_filter.mp hr
    exact ⟨⟨r, hmem, rfl⟩, of_decide_eq_true hne⟩
  · rintro ⟨⟨r, hmem, rfl⟩, hne⟩
    exact ⟨r, List.mem_filter.mpr ⟨hmem, decide_eq_true hne⟩, rfl⟩

theorem insertIdx_append (before after : List String) (x : String) :
    (before ++ after).insertIdx before.length x = before ++ x :: after := by
  induction before with
  | nil => rfl
  | cons y before ih => exact congrArg (y :: ·) ih

/-- **Putting a bundle back at its place keeps the order.** -/
theorem Inv.restore (h : Inv original l) (hdistinct : original.Nodup) (package : String)
    (hplace : ∀ r, findRecord l.records package = some r → RestoresInOrder original l r) :
    Inv original (l.restore package) ∧
      ∀ x, x ∈ (l.restore package).disabled ↔ x ∈ l.disabled ∧ x ≠ package := by
  rcases hfind : findRecord l.records package with _ | r
  · have hsame : l.restore package = l := by
      unfold Listing.restore
      rw [hfind]
    rw [hsame]
    refine ⟨h, fun x => ⟨fun hx => ⟨hx, ?_⟩, And.left⟩⟩
    rintro rfl
    exact findRecord_eq_none.mp hfind hx
  · have hindex := (h.restoreIndex_iff hdistinct (findRecord_eq_some hfind).1).mpr (hplace r hfind)
    rw [h.restore_eq hfind]
    obtain ⟨hr, rfl⟩ := findRecord_eq_some hfind
    have hmem := h.known r hr
    have hdisabled : r.package ∈ l.disabled := List.mem_map_of_mem hr
    have hrecords : ∀ r' ∈ l.records.filter (fun r' => r'.package ≠ r.package), r' ∈ l.records :=
      fun r' hr' => (List.mem_filter.mp hr').1
    refine ⟨⟨?_, ?_, fun r' hr' => h.known r' (hrecords r' hr'),
      fun r' hr' => h.following r' (hrecords r' hr'), fun r' hr' => h.index r' (hrecords r' hr')⟩,
      fun x => mem_disabled_restore⟩
    · have hother : ∀ x, x ≠ r.package →
          (x ∈ Listing.disabled ⟨l.active, l.records.filter fun r' => r'.package ≠ r.package⟩ ↔
            x ∈ l.disabled) := fun x hx => mem_disabled_restore.trans (and_iff_left hx)
      have hnot : r.package ∉
          Listing.disabled ⟨l.active, l.records.filter fun r' => r'.package ≠ r.package⟩ :=
        fun hx => (mem_disabled_restore.mp hx).2 rfl
      have hsplit := h.active_split hmem
      rw [if_pos hdisabled, List.nil_append] at hsplit
      change l.active.insertIdx _ r.package = original.filter fun x => decide (x ∉
        Listing.disabled ⟨l.active, l.records.filter fun r' => r'.package ≠ r.package⟩)
      rw [hindex, filter_split hmem, if_neg hnot,
        filter_insert_disabled hother (notMem_bundlesBefore original r.package),
        filter_insert_disabled hother (notMem_bundlesAfter hdistinct r.package),
        ← h.activeBefore_eq, ← h.activeAfter_eq]
      conv_lhs => rw [hsplit]
      rw [insertIdx_append]
      rfl
    · exact h.distinct.sublist (List.filter_sublist.map _)

instance decidableRestoresInOrder (original : List String) (l : Listing) (r : DisabledBundle) :
    Decidable (RestoresInOrder original l r) :=
  inferInstanceAs (Decidable (((∃ next ∈ r.following, next ∈ l.active) →
    ∀ x ∈ (l.activeAfter original r.package).head?, x ∈ r.following) ∧
    ((∀ next ∈ r.following, next ∉ l.active) →
      min r.index l.active.length = (l.activeBefore original r.package).length)))

theorem Inv.importLegacy (h : Inv original l) (hdistinct : original.Nodup) {names : List String}
    {l' : Listing} (himport : l.importLegacy names = .ok l') :
    Inv original l' ∧
      ∀ x, x ∈ l'.disabled ↔ x ∈ l.disabled ∨ (x ∈ names ∧ x ∈ original) := by
  induction names generalizing l with
  | nil =>
    obtain rfl := Except.ok.inj himport
    exact ⟨h, fun x => by simp⟩
  | cons item names ih =>
    unfold Listing.importLegacy at himport
    rw [List.foldlM_cons] at himport
    obtain ⟨l₁, hitem, hrest⟩ := bind_eq_ok himport
    unfold importItem at hitem
    split at hitem
    · cases hitem
    · obtain rfl := Except.ok.inj hitem
      obtain ⟨hinv, hdisabled⟩ := h.isolate hdistinct item
      obtain ⟨hinv', hdisabled'⟩ := ih hinv hrest
      refine ⟨hinv', fun x => ?_⟩
      rw [hdisabled', hdisabled, List.mem_cons]
      constructor
      · rintro ((hx | ⟨rfl, hx⟩) | ⟨hx, horiginal⟩)
        · exact Or.inl hx
        · exact Or.inr ⟨Or.inl rfl, hx⟩
        · exact Or.inr ⟨Or.inr hx, horiginal⟩
      · rintro (hx | ⟨rfl | hx, horiginal⟩)
        · exact Or.inl (Or.inl hx)
        · exact Or.inl (Or.inr ⟨rfl, horiginal⟩)
        · exact Or.inr ⟨hx, horiginal⟩

theorem inv_original (original : List String) : Inv original ⟨original, []⟩ where
  active := by
    rw [List.filter_eq_self.mpr]
    intro x _
    exact decide_eq_true List.not_mem_nil
  distinct := List.nodup_nil
  known r hr := absurd hr List.not_mem_nil
  following r hr := absurd hr List.not_mem_nil
  index r hr := absurd hr List.not_mem_nil

theorem Inv.change (h : Inv original l) (hdistinct : original.Nodup) (package : String)
    (disabled : Bool) (hplace : disabled = false → ∀ r, findRecord l.records package = some r →
      RestoresInOrder original l r) :
    Inv original (l.change package disabled) ∧
      ∀ x, x ∈ (l.change package disabled).disabled ↔
        if x = package then disabled = true ∧ x ∈ original else x ∈ l.disabled := by
  unfold Listing.change
  cases disabled with
  | true =>
    obtain ⟨hinv, hdisabled⟩ := h.isolate hdistinct package
    refine ⟨hinv, fun x => (hdisabled x).trans ?_⟩
    split
    · next heq =>
      refine ⟨?_, fun hx => Or.inr ⟨heq, hx.2⟩⟩
      rintro (hx | hx)
      · obtain ⟨r, hr, rfl⟩ := List.mem_map.mp hx
        exact ⟨rfl, h.known r hr⟩
      · exact ⟨rfl, hx.2⟩
    · next hne => exact or_iff_left fun hx => hne hx.1
  | false =>
    obtain ⟨hinv, hdisabled⟩ := h.restore hdistinct package (hplace rfl)
    refine ⟨hinv, fun x => (hdisabled x).trans ?_⟩
    split
    · next heq => exact iff_of_false (fun hx => hx.2 heq) fun hx => absurd hx.1 Bool.false_ne_true
    · next hne => exact and_iff_left hne

end Listing

/-! ## 4. Sequences of calls -/

def readRecord (record : JsonValue) : DisabledBundle :=
  ⟨(packageOf record).getD "", ((member record "index").bind asU64).getD 0,
    (((member record "following").bind asArray).getD []).filterMap asStr⟩

theorem filterMap_asStr (names : List String) : (names.map text).filterMap asStr = names := by
  rw [List.filterMap_map]
  exact List.filterMap_some

theorem readRecord_toJson {r : DisabledBundle} (h : r.index < 2 ^ 64) : readRecord r.toJson = r := by
  have hindex : (member r.toJson "index").bind asU64 = some r.index := asU64_number h
  have hfollowing : ((member r.toJson "following").bind asArray).getD [] =
      r.following.map text := rfl
  unfold readRecord
  rw [hindex, hfollowing, filterMap_asStr, packageOf_toJson]
  rfl

/-- What a call to enable a plugin finds: the listing, after the legacy list has been brought in,
and the plugin's record. -/
def savedRecord (store : PluginStore) (package : String) : Option (Listing × DisabledBundle) :=
  match readPlainJson store.package >>= readBundles store with
  | .error _ => none
  | .ok (bundles, records) =>
      (findRecord records package).map fun saved =>
        (⟨bundles.filterMap asStr, records.map readRecord⟩, readRecord saved)

/-- A profile, with the plugins that are disabled after the calls so far. -/
structure ProfileState where
  store : PluginStore
  disabled : String → Bool

/-- The disabled plugins after a call that succeeds: a legacy list counts for the bundles of the
profile from then on. -/
def nextDisabled (original : List String) (disabled : String → Bool) (call : PluginCall) :
    String → Bool := fun x =>
  if x = call.package then call.disabled else original.contains x && disabled x

/-- The profile after a call.  A call that fails changes nothing. -/
def ProfileState.after (encodedLength : JsonValue → Nat) (original : List String)
    (s : ProfileState) (call : PluginCall) : ProfileState :=
  match setPluginDisabled encodedLength s.store call with
  | .ok store => ⟨store, nextDisabled original s.disabled call⟩
  | .error _ => s

def profileSystem (encodedLength : JsonValue → Nat) (original : List String) (start : ProfileState) :
    System ProfileState PluginCall where
  init := start
  step s call := some (s.after encodedLength original call)

/-- **The condition**: a call that enables a plugin finds its record as `RestoresInOrder` says. -/
def PutsBackInOrder (original : List String) (s : ProfileState) (call : PluginCall) : Prop :=
  call.disabled = false → call.prepare = .ok () → call.write = .ok () →
    ∀ p ∈ savedRecord s.store call.package, Listing.RestoresInOrder original p.1 p.2

instance decidablePutsBackInOrder (original : List String) (s : ProfileState) (call : PluginCall) :
    Decidable (PutsBackInOrder original s call) :=
  inferInstanceAs (Decidable (call.disabled = false → call.prepare = .ok () → call.write = .ok () →
    ∀ p ∈ savedRecord s.store call.package, Listing.RestoresInOrder original p.1 p.2))

/-- What a profile is to be: the bundle list is the original one without the disabled plugins,
once a legacy list has been brought in; `disabled_plugins` returns the disabled ones; and nothing
else of the manifest has changed. -/
structure Ordered (original : List String) (start : JsonFile) (s : ProfileState) : Prop where
  manifest : ∃ file, s.store.package = some file ∧ SameOutside start.value file.value ∧
    profileMember file.value "bundles" = some (.sequence
      ((if imported file.value then original.filter fun x => !s.disabled x else original).map
        text)) ∧
    (file.length ≤ 64 * 1024 → ∃ names, disabledPlugins s.store = .ok names ∧
      ∀ x, x ∈ names ↔ s.disabled x = true)

/-- What the manifest shows of the calls so far. -/
structure Tracked (original : List String) (start : JsonFile) (legacy : List String)
    (s : ProfileState) (file : JsonFile) (l : Listing) : Prop where
  package : s.store.package = some file
  names : readLegacy s.store.legacy = .ok legacy
  shows : Shows file.value l
  outside : SameOutside start.value file.value
  inv : Listing.Inv original l
  disabled : ∀ x, s.disabled x = true ↔
    if imported file.value then x ∈ l.disabled else x ∈ legacy
  untouched : imported file.value = false → l.records = []

section Runs

variable {encodedLength : JsonValue → Nat} {original : List String} {start : JsonFile}
  {legacy : List String} {s s' : ProfileState} {file : JsonFile} {l : Listing}

theorem Tracked.ordered (h : Tracked original start legacy s file l) : Ordered original start s := by
  have hrecords : ∀ r ∈ l.records, r.package ∉ l.active := fun r hr hactive =>
    (h.inv.mem_active.mp hactive).2 (List.mem_map_of_mem hr)
  refine ⟨file, h.package, h.outside, ?_, fun hfits => ?_⟩
  · rw [h.shows.bundles, h.inv.active]
    congr 3
    split
    · next himported =>
      refine List.filter_congr fun x _ => ?_
      have hx := h.disabled x
      rw [if_pos himported] at hx
      cases hdisabled : s.disabled x with
      | true => rw [hdisabled] at hx; simp [hx.mp rfl]
      | false =>
        rw [hdisabled] at hx
        have hnot : x ∉ l.disabled := fun hmem => Bool.false_ne_true (hx.mpr hmem)
        simp [hnot]
    · next hpending =>
      rw [List.filter_eq_self]
      intro x _
      have hnil := h.untouched (Bool.eq_false_of_not_eq_true hpending)
      simp [Listing.disabled, hnil]
  · refine ⟨_, disabledPlugins_eq h.package hfits h.names h.shows h.inv.distinct ?_ hrecords, ?_⟩
    · intro r hr
      split
      · exact List.not_mem_nil
      · next hpending =>
        rw [h.untouched (Bool.eq_false_of_not_eq_true hpending)] at hr
        exact absurd hr List.not_mem_nil
    · intro x
      rw [h.disabled x]
      split
      · exact Iff.rfl
      · next hpending =>
        rw [h.untouched (Bool.eq_false_of_not_eq_true hpending), List.map_nil, List.append_nil]

theorem Tracked.opened (h : Tracked original start legacy s file l) (hdistinct : original.Nodup)
    {l₁ : Listing} (hl₁ : l.opened (imported file.value) (readLegacy s.store.legacy) = .ok l₁) :
    Listing.Inv original l₁ ∧
      ∀ x, x ∈ l₁.disabled ↔ x ∈ original ∧ s.disabled x = true := by
  unfold Listing.opened at hl₁
  split at hl₁
  · next himported =>
    obtain rfl := Except.ok.inj hl₁
    refine ⟨h.inv, fun x => ?_⟩
    rw [h.disabled x, if_pos himported]
    refine ⟨fun hx => ⟨?_, hx⟩, And.right⟩
    obtain ⟨r, hr, rfl⟩ := List.mem_map.mp hx
    exact h.inv.known r hr
  · next hpending =>
    rw [h.names] at hl₁
    obtain ⟨hinv, hdisabled⟩ := h.inv.importLegacy hdistinct hl₁
    refine ⟨hinv, fun x => ?_⟩
    have hnil : x ∉ l.disabled := by
      unfold Listing.disabled
      rw [h.untouched (Bool.eq_false_of_not_eq_true hpending)]
      exact List.not_mem_nil
    rw [hdisabled, h.disabled x, if_neg hpending, or_iff_right hnil, and_comm]

theorem Tracked.savedRecord_eq (h : Tracked original start legacy s file l)
    (hfits : file.length ≤ 64 * 1024) {l₁ : Listing}
    (hl₁ : l.opened (imported file.value) (readLegacy s.store.legacy) = .ok l₁)
    (hindex : ∀ r ∈ l₁.records, r.index < 2 ^ 64) {package : String} {r : DisabledBundle}
    (hr : Listing.findRecord l₁.records package = some r) :
    savedRecord s.store package = some (l₁, r) := by
  have hread : readPlainJson s.store.package >>= readBundles s.store = .ok l₁.toJson := by
    rw [h.package, readPlainJson, if_neg (Nat.not_lt.mpr hfits)]
    change readBundles s.store file.value = _
    rw [readBundles_eq h.shows, hl₁]
    rfl
  have hrecords : (l₁.records.map DisabledBundle.toJson).map readRecord = l₁.records := by
    rw [List.map_map]
    calc l₁.records.map (readRecord ∘ DisabledBundle.toJson)
        = l₁.records.map id := List.map_congr_left fun r hr => readRecord_toJson (hindex r hr)
      _ = l₁.records := List.map_id _
  have hfind : findRecord (l₁.records.map DisabledBundle.toJson) package = some r.toJson := by
    rw [findRecord_map, hr]
    rfl
  unfold savedRecord
  rw [hread]
  unfold Listing.toJson
  dsimp only
  rw [hfind, Option.map_some, filterMap_asStr, hrecords,
    readRecord_toJson (hindex r (Listing.findRecord_eq_some hr).1)]

/-- **A call that meets the condition keeps track.** -/
theorem Tracked.after (h : Tracked original start legacy s file l) (hdistinct : original.Nodup)
    (hsize : original.length < 2 ^ 64) {call : PluginCall}
    (hplace : PutsBackInOrder original s call) :
    ∃ file' l', Tracked original start legacy (s.after encodedLength original call) file' l' := by
  unfold ProfileState.after
  rcases hcall : setPluginDisabled encodedLength s.store call with e | store
  · exact ⟨file, l, h⟩
  · obtain ⟨file', hfile', hfits, hchange⟩ := setPluginDisabled_eq_ok hcall
    obtain rfl := Option.some.inj (h.package.symm.trans hfile')
    obtain ⟨l₁, hl₁, -, hknown, hstore⟩ := hchange l h.shows
    obtain ⟨hinv₁, hdisabled₁⟩ := h.opened hdistinct hl₁
    have hindex : ∀ r ∈ l₁.records, r.index < 2 ^ 64 := fun r hr =>
      Nat.lt_of_le_of_lt (hinv₁.index r hr) hsize
    obtain ⟨length, rfl⟩ := hstore hindex
    have hpackage : call.package ∈ original := by
      rcases hknown with hactive | hrecord
      · exact (hinv₁.mem_active.mp (position_isSome.mp hactive)).1
      · obtain ⟨r, hr⟩ := Option.isSome_iff_exists.mp hrecord
        obtain ⟨hmem, heq⟩ := Listing.findRecord_eq_some hr
        rw [← heq]
        exact hinv₁.known r hmem
    have hmeets : call.disabled = false → ∀ r,
        Listing.findRecord l₁.records call.package = some r →
          Listing.RestoresInOrder original l₁ r := by
      intro hfalse r hr
      obtain ⟨hprepare, hwrite⟩ := prepare_write_of_ok hcall
      exact hplace hfalse hprepare hwrite (l₁, r)
        (h.savedRecord_eq hfits hl₁ hindex hr)
    obtain ⟨hinv, hdisabled⟩ := hinv₁.change hdistinct call.package call.disabled hmeets
    refine ⟨_, l₁.change call.package call.disabled, rfl, h.names, h.shows.withBundles _,
      h.outside.trans (sameOutside_withBundles h.shows.bundles), hinv, fun x => ?_,
      fun hpending => ?_⟩
    · rw [if_pos (imported_withBundles h.shows.bundles _ _), hdisabled]
      change nextDisabled original s.disabled call x = true ↔ _
      unfold nextDisabled
      split
      · next heq => rw [heq]; exact (and_iff_left hpackage).symm
      · rw [hdisabled₁, Bool.and_eq_true, List.contains_iff_mem]
    · rw [imported_withBundles h.shows.bundles] at hpending
      cases hpending

/-- **Disabling and enabling plugins keeps the order of the bundles** in every run whose calls
enable a plugin only while it can be put back at its place. -/
theorem plugins_keep_order (encodedLength : JsonValue → Nat) (hdistinct : original.Nodup)
    (hsize : original.length < 2 ^ 64) {store : PluginStore} (hstart : store.package = some start)
    (hshows : Shows start.value ⟨original, []⟩) (hlegacy : readLegacy store.legacy = .ok legacy)
    {calls : List PluginCall} {first : ProfileState}
    (hfirst : first = ⟨store, fun x => !imported start.value && legacy.contains x⟩)
    (hmeets : (profileSystem encodedLength original first).RunMeets (PutsBackInOrder original)
      calls first)
    (hrun : (profileSystem encodedLength original first).run calls first = some s) :
    Ordered original start s := by
  have htracked : ∃ file l, Tracked original start legacy first file l := by
    rw [hfirst]
    refine ⟨start, ⟨original, []⟩, hstart, hlegacy, hshows, .refl _, Listing.inv_original original,
      fun x => ?_, fun _ => rfl⟩
    cases himported : imported start.value with
    | true => simp [Listing.disabled]
    | false => simp
  have hstep : ∀ u call v, (∃ file l, Tracked original start legacy u file l) →
      PutsBackInOrder original u call →
      (profileSystem encodedLength original first).step u call = some v →
        ∃ file l, Tracked original start legacy v file l := by
    rintro u call v ⟨file, l, hu⟩ hcall hv
    obtain rfl := Option.some.inj hv
    exact hu.after hdistinct hsize hcall
  obtain ⟨file, l, hs⟩ := System.run_invariant hstep calls first s htracked hmeets hrun
  exact hs.ordered

end Runs

/-! ## Two profiles -/

/-- A manifest with three third-party bundles. -/
def sampleFile : JsonFile :=
  ⟨.mapping [("custom", text "keep"), ("dsh", .mapping [("profile", .mapping
    [("bundles", .sequence [text "p", text "q", text "r"])])])], 100⟩

def sampleProfile : ProfileState := ⟨⟨some sampleFile, none⟩, fun _ => false⟩

def setDisabled (package : String) (disabled : Bool) : PluginCall :=
  ⟨package, disabled, .ok (), .ok ()⟩

/-- `p` is disabled while `q` is, and enabled after `q` has come back. -/
def crossedCalls : List PluginCall :=
  [setDisabled "q" true, setDisabled "p" true, setDisabled "q" false, setDisabled "p" false]

def bundleNames (value : JsonValue) : Option (List String) :=
  ((profileMember value "bundles").bind asArray).map fun bundles => bundles.filterMap asStr

/-- **The order is lost**: with all plugins enabled again the bundles are `q`, `p`, `r`. -/
theorem crossedCalls_lose_order : ∃ s,
    (profileSystem (fun _ => 100) ["p", "q", "r"] sampleProfile).run crossedCalls sampleProfile =
      some s ∧ (∀ x ∈ ["p", "q", "r"], s.disabled x = false) ∧
      s.store.package.bind (fun file => bundleNames file.value) = some ["q", "p", "r"] ∧
      ¬ Ordered ["p", "q", "r"] sampleFile s := by
  refine ⟨_, rfl, by decide +kernel, by decide +kernel, fun hordered => ?_⟩
  obtain ⟨file, hfile, -, hbundles, -⟩ := hordered.manifest
  obtain rfl := Option.some.inj hfile
  have hnames := congrArg (fun v => (v.bind asArray).map fun bundles => bundles.filterMap asStr)
    hbundles
  exact absurd hnames (by decide +kernel)

/-- `p` is disabled while `q` is, and comes back first. -/
def nestedCalls : List PluginCall :=
  [setDisabled "q" true, setDisabled "p" true, setDisabled "p" false, setDisabled "q" false]

theorem plugins_keep_order_of_nestedCalls : ∃ s,
    (profileSystem (fun _ => 100) ["p", "q", "r"] sampleProfile).run nestedCalls sampleProfile =
      some s ∧ Ordered ["p", "q", "r"] sampleFile s := by
  refine ⟨_, rfl, ?_⟩
  have hfirst : sampleProfile = ⟨⟨some sampleFile, none⟩,
      fun x => !imported sampleFile.value && ([] : List String).contains x⟩ := by
    unfold sampleProfile
    congr 1
  have hmeets : (profileSystem (fun _ => 100) ["p", "q", "r"] sampleProfile).RunMeets
      (PutsBackInOrder ["p", "q", "r"]) nestedCalls sampleProfile := by
    decide +kernel
  exact plugins_keep_order (fun _ => 100) (by decide) (by decide) rfl ⟨rfl, rfl⟩ rfl hfirst hmeets rfl

end DshNexus.Agent.Plugins
