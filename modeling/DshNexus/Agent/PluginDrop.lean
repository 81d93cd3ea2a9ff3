import DshNexus.Agent.MoveUndo

/-!
# Dragging a plugin

The console turns a drop of a row on another one into the bundle before which the dragged one is to
stand (`pluginMoveTarget` of `apps/nexus-launcher/src/control-state.ts`); `move_profile_plugin`
takes this request.

* `target_below`, `target_above`: what the console asks for.
* `planMove_eq`: the request is accepted, up to the size of the manifest that is written.
* `plugin_drop`: the dragged bundle stands next to the row where it was dropped.
-/

namespace DshNexus.Agent.PluginMoves

open Document Snapshot Durable Plugins Config

/-- `pluginMoveTarget`.  A bundle that is not in the list has its length as index; no bundle as a
target stands for the end of the list. -/
def pluginMoveTarget (order : List String) (source destination : String) :
    Option (Option String) :=
  let start := order.idxOf source
  let stop := order.idxOf destination
  if start = order.length ∨ stop = order.length ∨ start = stop ∨ fixedBundle source = true ∨
      fixedBundle destination = true then none
  else some (if start < stop then order[stop + 1]? else some destination)

/-- A bundle of the list that is not fixed. -/
def Loose (order : List String) (bundle : String) : Prop :=
  bundle ∈ order ∧ fixedBundle bundle = false

/-- **Where a dropped bundle is to stand**: directly behind the row on which it was dropped where
that one was below it, and directly before it otherwise. -/
def StandsAtDrop (order : List String) (source destination : String) (rest : List String) : Prop :=
  if order.idxOf source < order.idxOf destination then [destination, source] <:+: rest
  else [source, destination] <:+: rest

section Drop

variable {order upper middle lower : List String} {source destination : String}

theorem idxOf_split (hdistinct : (upper ++ source :: (middle ++ destination :: lower)).Nodup) :
    (upper ++ source :: (middle ++ destination :: lower)).idxOf source = upper.length ∧
      (upper ++ source :: (middle ++ destination :: lower)).idxOf destination =
        upper.length + 1 + middle.length := by
  obtain ⟨-, hright, hcross⟩ := List.nodup_append'.mp hdistinct
  rw [List.nodup_cons] at hright
  obtain ⟨hsource, hmiddle⟩ := hright
  have hne : source ≠ destination := fun heq => hsource (by simp [heq])
  have hsourceUpper : source ∉ upper := fun h => hcross h List.mem_cons_self
  have hdestinationUpper : destination ∉ upper := fun h => hcross h (by simp)
  have hdestinationMiddle : destination ∉ middle := fun h =>
    (List.nodup_append'.mp hmiddle).2.2 h List.mem_cons_self
  constructor
  · rw [List.idxOf_append_of_notMem hsourceUpper, List.idxOf_cons_self, Nat.add_zero]
  · rw [List.idxOf_append_of_notMem hdestinationUpper, List.idxOf_cons_ne _ hne,
      List.idxOf_append_of_notMem hdestinationMiddle, List.idxOf_cons_self]
    omega

theorem exists_split (hsource : source ∈ order) (hdestination : destination ∈ order)
    (hne : source ≠ destination) :
    (∃ upper middle lower, order = upper ++ source :: (middle ++ destination :: lower)) ∨
      ∃ upper middle lower, order = upper ++ destination :: (middle ++ source :: lower) := by
  obtain ⟨upper, rest, rfl⟩ := List.append_of_mem hsource
  rcases List.mem_append.mp hdestination with h | h
  · obtain ⟨upper, middle, rfl⟩ := List.append_of_mem h
    exact Or.inr ⟨upper, middle, rest, by simp⟩
  · obtain ⟨middle, lower, rfl⟩ := List.append_of_mem ((List.mem_cons.mp h).resolve_left hne.symm)
    exact Or.inl ⟨upper, middle, lower, rfl⟩

theorem getElem?_below : (upper ++ source :: (middle ++ destination :: lower))[
    upper.length + 1 + middle.length + 1]? = lower.head? := by
  have hlist : upper ++ source :: (middle ++ destination :: lower) =
      (upper ++ source :: (middle ++ [destination])) ++ lower := by simp
  rw [hlist, List.getElem?_append_right (by simp; omega), List.head?_eq_getElem?]
  congr 1
  simp
  omega

/-- **A drop on a row below** asks for the place before the next row, or for the end. -/
theorem target_below (hdistinct : (upper ++ source :: (middle ++ destination :: lower)).Nodup)
    (hsource : fixedBundle source = false) (hdestination : fixedBundle destination = false) :
    pluginMoveTarget (upper ++ source :: (middle ++ destination :: lower)) source destination =
      some lower.head? := by
  obtain ⟨hstart, hstop⟩ := idxOf_split hdistinct
  unfold pluginMoveTarget
  rw [hstart, hstop, hsource, hdestination]
  dsimp only
  rw [if_neg (by simp; omega), if_pos (by omega), getElem?_below]

/-- **A drop on a row above** asks for the place before this row. -/
theorem target_above (hdistinct : (upper ++ destination :: (middle ++ source :: lower)).Nodup)
    (hsource : fixedBundle source = false) (hdestination : fixedBundle destination = false) :
    pluginMoveTarget (upper ++ destination :: (middle ++ source :: lower)) source destination =
      some (some destination) := by
  obtain ⟨hstop, hstart⟩ := idxOf_split hdistinct
  unfold pluginMoveTarget
  rw [hstart, hstop, hsource, hdestination]
  dsimp only
  rw [if_neg (by simp; omega), if_neg (by omega)]

def others (order : List String) (source : String) : List String :=
  order.filter fun bundle => !fixedBundle bundle && bundle ≠ source

theorem before_eq {before before' after after' : List String} {x : String}
    (hdistinct : (before ++ x :: after).Nodup) (heq : before ++ x :: after = before' ++ x :: after') :
    before = before' ∧ after = after' := by
  have hleft : x ∉ before := fun h => (List.nodup_append'.mp hdistinct).2.2 h List.mem_cons_self
  rw [heq] at hdistinct
  have hright : x ∉ before' := fun h => (List.nodup_append'.mp hdistinct).2.2 h List.mem_cons_self
  have hsplit := Text.splitOnce_append after hleft
  rw [heq, Text.splitOnce_append after' hright] at hsplit
  obtain ⟨h, h'⟩ := Prod.mk.inj (Option.some.inj hsplit)
  exact ⟨h.symm, h'.symm⟩

/-- **A dropped bundle stands next to the row**, and the others stay in their order. -/
theorem exists_reorder (hdistinct : order.Nodup) (hsource : Loose order source)
    (hdestination : Loose order destination) (hne : source ≠ destination)
    (hnext : ∀ next, order.idxOf source < order.idxOf destination →
      order[order.idxOf destination + 1]? = some next → fixedBundle next = false) :
    ∃ target rest, pluginMoveTarget order source destination = some target ∧
      Movable order source target ∧
      reorder order source target = FIXED_BUNDLES.filter (fun fixed => fixed ∈ order) ++ rest ∧
      rest.filter (fun bundle => bundle ≠ source) = others order source ∧
      StandsAtDrop order source destination rest := by
  have hrest : ∀ {l₁ l₂ : List String}, others order source = l₁ ++ l₂ →
      (l₁ ++ source :: l₂).filter (fun bundle => bundle ≠ source) = others order source := by
    intro l₁ l₂ heq
    have hkeep : (l₁ ++ l₂).filter (fun bundle => bundle ≠ source) = l₁ ++ l₂ := by
      rw [← heq, List.filter_eq_self]
      intro bundle hbundle
      simpa using (by simpa [others] using hbundle : _ ∧ _ ∧ bundle ≠ source).2.2
    rw [List.filter_append, List.filter_cons_of_neg (by simp), ← List.filter_append, hkeep, heq]
  have hothers : (others order source).Nodup := hdistinct.filter _
  rcases exists_split hsource.1 hdestination.1 hne with ⟨upper, middle, lower, rfl⟩ |
    ⟨upper, middle, lower, rfl⟩
  · obtain ⟨hstart, hstop⟩ := idxOf_split hdistinct
    have hbelow : (upper ++ source :: (middle ++ destination :: lower)).idxOf source <
        (upper ++ source :: (middle ++ destination :: lower)).idxOf destination := by omega
    have hfree : ∀ next, lower.head? = some next → fixedBundle next = false := by
      intro next hhead
      refine hnext next hbelow ?_
      rw [hstop, getElem?_below]
      exact hhead
    have hmovable : Movable (upper ++ source :: (middle ++ destination :: lower)) source
        lower.head? := by
      refine ⟨hsource.2, hsource.1, fun next hhead => ⟨hfree next hhead, ?_, ?_⟩⟩
      · rintro rfl
        have hmem := List.mem_of_mem_head? hhead
        obtain ⟨-, hright, -⟩ := List.nodup_append'.mp hdistinct
        exact (List.nodup_cons.mp hright).1 (by simp [hmem])
      · have hmem := List.mem_of_mem_head? hhead
        simp [hmem]
    have hsplit : others (upper ++ source :: (middle ++ destination :: lower)) source =
        (others upper source ++ others middle source ++ [destination]) ++ others lower source := by
      simp [others, hdestination.2, hne.symm]
    obtain ⟨l₁, l₂, hl, heq, hlast, hbefore⟩ := reorder_eq hmovable
    refine ⟨_, l₁ ++ source :: l₂, target_below hdistinct hsource.2 hdestination.2, hmovable, heq,
      hrest hl, ?_⟩
    rw [StandsAtDrop, if_pos hbelow]
    have hl₁ : l₁ = others upper source ++ others middle source ++ [destination] := by
      rcases lower with _ | ⟨next, lower⟩
      · rw [hlast rfl, List.append_nil] at hl
        have hnone : others [] source = [] := rfl
        rw [hnone, List.append_nil] at hsplit
        exact hl.symm.trans hsplit
      · obtain ⟨l₃, rfl⟩ := hbefore next rfl
        have hkept : others (next :: lower) source = next :: others lower source := by
          have hsimple := hmovable.target next rfl
          simp [others, hsimple.1, hsimple.2.1]
        rw [hkept] at hsplit
        rw [hsplit] at hothers
        exact (before_eq hothers (hsplit.symm.trans hl)).1.symm
    rw [hl₁]
    exact ⟨others upper source ++ others middle source, l₂, by simp⟩
  · obtain ⟨hstop, hstart⟩ := idxOf_split hdistinct
    have hmovable : Movable (upper ++ destination :: (middle ++ source :: lower)) source
        (some destination) := by
      refine ⟨hsource.2, hsource.1, ?_⟩
      rintro _ ⟨⟩
      exact ⟨hdestination.2, hne.symm, hdestination.1⟩
    obtain ⟨l₁, l₂, hl, heq, -, hbefore⟩ := reorder_eq hmovable
    obtain ⟨l₃, rfl⟩ := hbefore destination rfl
    refine ⟨_, l₁ ++ source :: destination :: l₃, target_above hdistinct hsource.2 hdestination.2,
      hmovable, heq, hrest hl, ?_⟩
    rw [StandsAtDrop, if_neg (by omega)]
    exact ⟨l₁, l₃, by simp⟩

end Drop

/-! ## The Agent -/

theorem sameValue_names (names : List String) :
    sameValue (.sequence (names.map text)) (.sequence (names.map text)) = true := by
  have hitems : sameItems (names.map text) (names.map text) = true := by
    induction names with
    | nil => rfl
    | cons name names ih =>
      rw [List.map_cons, sameItems, ih, sameValue_text]
      simp
  rwa [sameValue]

theorem checkMove_of_movable {inventory : NativeProfile} {package : String}
    {target : Option String} (hsource : inventory.sourceProfile = none)
    (h : Movable inventory.bundles package target) : checkMove inventory package target = .ok () := by
  unfold checkMove
  rw [hsource]
  dsimp only
  rw [if_neg (by simp [h.free, h.mem]), if_neg]
  rcases target with _ | t
  · simp
  · obtain ⟨hfree, hne, hmem⟩ := h.target t rfl
    simp [hfree, hne, hmem]

/-- **A move that may be made is accepted**, up to the size of the manifest that is written. -/
theorem planMove_eq {env : OrderEnv} {l : Location} {s : OrderStore} {inventory : NativeProfile}
    {package : String} {target : Option String} (hinventory : nativeProfile env l s = .ok inventory)
    (hsource : inventory.sourceProfile = none) (h : Movable inventory.bundles package target) :
    ∃ before value, l.manifest s = some before ∧ env.codec.decode before = .ok value ∧
      Lists value inventory.bundles ∧ inventory.bundles.Nodup ∧
      planMove env l package target s =
        (do
          let after ← encodeManifest env.codec
            (setBundles (reorder inventory.bundles package target) value)
          pure (before, after)) := by
  obtain ⟨before, value, hfile, hloads, -⟩ :=
    nativeProfileOf_eq_ok.mp ⟨inventory, hinventory, rfl, rfl⟩
  obtain ⟨hlists, hdistinct, -⟩ := readBundleList_eq_ok.mp hloads.bundles
  refine ⟨before, value, hfile, hloads.decode, hlists, hdistinct, ?_⟩
  have hcurrent := currentManifest_eq_ok.mpr ⟨hfile, hloads.bounded⟩
  have hreordered : reorderedManifest env.codec inventory.bundles package target before =
      .ok (setBundles (reorder inventory.bundles package target) value) := by
    refine bind_eq_ok_iff.mpr ⟨value, mapError_eq_ok.mpr hloads.decode, ?_⟩
    have hlisted : profileMember value "bundles" = some (.sequence (inventory.bundles.map text)) :=
      hlists
    rw [hlisted, Option.any_some, if_pos (sameValue_names _)]
    rfl
  have hunchanged : checkUnchanged (l.manifest s) before = .ok () := by
    unfold checkUnchanged
    rw [hfile, readRegularFileBounded, if_neg (by have hbounded := hloads.bounded; omega)]
    exact if_pos rfl
  unfold planMove
  rw [hinventory, hcurrent]
  change (checkMove inventory package target >>= fun _ => _) = _
  rw [checkMove_of_movable hsource h]
  change (reorderedManifest env.codec inventory.bundles package target before >>= fun _ => _) = _
  rw [hreordered, hunchanged]
  rfl

/-- **Dropping a plugin.**  For every list of a profile that is not generated and every drop of a
bundle that is not fixed on another one, unless the drop is on a row below which a fixed bundle is
next: the request is accepted, and in the list that is written the fixed bundles are first, the
dragged bundle stands next to the row where it was dropped, and the others that are not fixed are in
their old order. -/
theorem plugin_drop (env : OrderEnv) (l : Location) (s : OrderStore) (inventory : NativeProfile)
    (source destination : String) (hinventory : nativeProfile env l s = .ok inventory)
    (hsource : inventory.sourceProfile = none) (hdragged : Loose inventory.bundles source)
    (hrow : Loose inventory.bundles destination) (hne : source ≠ destination)
    (hnext : ∀ next, inventory.bundles.idxOf source < inventory.bundles.idxOf destination →
      inventory.bundles[inventory.bundles.idxOf destination + 1]? = some next →
        fixedBundle next = false) :
    ∃ target before value written rest,
      pluginMoveTarget inventory.bundles source destination = some target ∧
      env.codec.decode before = .ok value ∧ Lists value inventory.bundles ∧
      planMove env l source target s =
        (do
          let after ← encodeManifest env.codec (setBundles written value)
          pure (before, after)) ∧
      written = FIXED_BUNDLES.filter (fun fixed => fixed ∈ inventory.bundles) ++ rest ∧
      rest.filter (fun bundle => bundle ≠ source) = others inventory.bundles source ∧
      StandsAtDrop inventory.bundles source destination rest := by
  have hdistinct : inventory.bundles.Nodup := by
    obtain ⟨_, value, _, hloads, -⟩ := nativeProfileOf_eq_ok.mp ⟨inventory, hinventory, rfl, rfl⟩
    exact (readBundleList_eq_ok.mp hloads.bundles).2.1
  obtain ⟨target, rest, htarget, hmovable, hwritten, hothers, hstands⟩ :=
    exists_reorder hdistinct hdragged hrow hne hnext
  obtain ⟨before, value, -, hdecode, hlists, -, hplan⟩ := planMove_eq hinventory hsource hmovable
  exact ⟨target, before, value, _, rest, htarget, hdecode, hlists, hplan, hwritten, hothers, hstands⟩

/-- A fixed bundle between two others goes to the front when one of these is dropped on the other. -/
theorem drop_moves_fixed :
    let order := ["a", "@deepseek-ai/dsh-base", "b"]
    pluginMoveTarget order "b" "a" = some (some "a") ∧
      reorder order "b" (some "a") = ["@deepseek-ai/dsh-base", "b", "a"] ∧
      (reorder order "b" (some "a")).filter (fun bundle => bundle ≠ "b") ≠
        order.filter fun bundle => bundle ≠ "b" := by
  decide +kernel

/-- The second of two bundles is dropped on the first. -/
theorem plugin_drop_sample : ∃ target rest,
    pluginMoveTarget ["a", "b"] "b" "a" = some target ∧ StandsAtDrop ["a", "b"] "b" "a" rest := by
  obtain ⟨inventory, hinventory, hsource, hbundles⟩ : ∃ inventory,
      nativeProfile sampleEnv sampleLocation sampleStore = .ok inventory ∧
        inventory.sourceProfile = none ∧ inventory.bundles = ["a", "b"] := ⟨_, rfl, rfl, rfl⟩
  obtain ⟨target, -, -, -, rest, htarget, -, -, -, -, -, hstands⟩ :=
    plugin_drop sampleEnv sampleLocation sampleStore inventory "b" "a" hinventory hsource
      (by rw [hbundles]; exact ⟨by decide, by decide⟩) (by rw [hbundles]; exact ⟨by decide, by decide⟩)
      (by decide) (by rw [hbundles]; exact fun _ h => absurd h (by decide))
  rw [hbundles] at htarget hstands
  exact ⟨target, rest, htarget, hstands⟩

end DshNexus.Agent.PluginMoves
