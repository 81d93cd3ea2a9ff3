import DshNexus.Config.Protection

/-!
# Protected locations

What stands in the two protection records, and what a recorded location is good for: nothing that
contains it, equals it or lies inside it is removed.

* `HomeRecorded`, `RootRecorded`: a location stands in its record.
* `FileTree.located_of_belowRoot`: a home below the data root has a name there, or the attempt to
  record it fails.
* `ensureHarnessHomesPreserved_refuses`: a removal that overlaps a recorded location is refused.
-/

namespace DshNexus.Config

open Durable Concurrent

/-! ## 1. The records -/

section Records

variable {ρ : Type} (codec : ProtectionCodec ρ)

/-- The location stands in `protected-harness-homes.json`. -/
def HomeRecorded (disk : ProtectionDisk) (location : Path) : Prop :=
  ∃ bytes record, disk.homes = some bytes ∧ codec.decodeHomes bytes = .ok record ∧
    location ∈ record.homes

/-- The location stands in `external-harness-locations.json`. -/
def RootRecorded (disk : ProtectionDisk) (location : Path) : Prop :=
  ∃ bytes record, disk.locations = some bytes ∧ codec.decodeLocations bytes = .ok record ∧
    location ∈ record.roots

variable {codec} {disk : ProtectionDisk} {locations : List Path}

theorem homeRecorded_iff {root : Path}
    (h : codec.readProtectedHarnessHomes disk root = .ok locations) (location : Path) :
    HomeRecorded codec disk location ↔ location ∈ locations := by
  rw [ProtectionCodec.readProtectedHarnessHomes] at h
  obtain ⟨-, -, h⟩ := bind_eq_ok h
  obtain ⟨file, hfile, h⟩ := bind_eq_ok h
  have hdisk : file = disk.homes := eq_of_readRegularFileBounded hfile
  cases file with
  | none =>
    rw [← Except.ok.inj h]
    refine iff_of_false (fun hrecorded => ?_) List.not_mem_nil
    obtain ⟨bytes, record, hbytes, -⟩ := hrecorded
    rw [← hdisk] at hbytes
    cases hbytes
  | some bytes =>
    obtain ⟨record, hrecord, h⟩ := bind_eq_ok h
    obtain ⟨-, -, h⟩ := bind_eq_ok h
    have hlocations : record.homes = locations := by
      split at h
      · cases h
      · obtain ⟨savedId, -, h⟩ := bind_eq_ok h
        obtain ⟨rootId, -, h⟩ := bind_eq_ok h
        split at h
        · cases h
        · obtain ⟨-, -, h⟩ := bind_eq_ok h
          exact Except.ok.inj h
    rw [← hlocations]
    constructor
    · rintro ⟨bytes', record', hbytes, hdecode, hmem⟩
      rw [← hdisk] at hbytes
      rw [← Option.some.inj hbytes, hrecord] at hdecode
      rwa [Except.ok.inj hdecode]
    · exact fun hmem => ⟨bytes, record, hdisk.symm, hrecord, hmem⟩

theorem rootRecorded_iff (h : codec.protectedLocations disk = .ok locations) (location : Path) :
    RootRecorded codec disk location ↔ location ∈ locations := by
  rw [ProtectionCodec.protectedLocations] at h
  obtain ⟨file, hfile, h⟩ := bind_eq_ok h
  have hdisk : file = disk.locations := eq_of_readRegularFileBounded hfile
  cases file with
  | none =>
    rw [← Except.ok.inj h]
    refine iff_of_false (fun hrecorded => ?_) List.not_mem_nil
    obtain ⟨bytes, record, hbytes, -⟩ := hrecorded
    rw [← hdisk] at hbytes
    cases hbytes
  | some bytes =>
    obtain ⟨record, hrecord, h⟩ := bind_eq_ok h
    have hlocations : record.roots = locations := by
      split at h
      · cases h
      · exact Except.ok.inj h
    rw [← hlocations]
    constructor
    · rintro ⟨bytes', record', hbytes, hdecode, hmem⟩
      rw [← hdisk] at hbytes
      rw [← Option.some.inj hbytes, hrecord] at hdecode
      rwa [Except.ok.inj hdecode]
    · exact fun hmem => ⟨bytes, record, hdisk.symm, hrecord, hmem⟩

end Records

/-! ## 2. Locations in the tree -/

namespace FileTree

variable {tree : FileTree}

theorem identity_eq {p q : Path} (h : tree.canonicalize p = .ok q) :
    tree.identity p = tree.metadata q := by
  rw [identity, h]
  rfl

theorem identity_resolved {p q : Path} (h : tree.canonicalize p = .ok q) :
    tree.identity q = tree.identity p := by
  rw [identity_eq h, identity_eq (tree.canonicalize_resolved h)]

def BelowRoot (tree : FileTree) (root home : Path) : Prop :=
  ∃ root' resolved, tree.canonicalize root = .ok root' ∧ tree.canonicalize home = .ok resolved ∧
    root' ∈ resolved.ancestors

/-- What recording makes of a home, from the root as it was given. -/
def located (tree : FileTree) (root home : Path) : Except IoError (Option Path) := do
  let root ← tree.canonicalize root
  let rootId ← tree.identity root
  tree.locateHome root rootId home

theorem nameBelow_identity {root resolved name : Path} {rootId homeId : String} {ps : List Path}
    (h : tree.nameBelow root rootId homeId resolved ps = .ok (some name)) :
    tree.identity name = .ok homeId := by
  induction ps with
  | nil => cases h
  | cons ancestor rest ih =>
    rw [nameBelow] at h
    obtain ⟨id, -, h⟩ := bind_eq_ok h
    by_cases hid : id = rootId
    · rw [if_pos hid] at h
      obtain ⟨localId, hlocal, h⟩ := bind_eq_ok h
      by_cases hsame : localId = homeId
      · rw [if_neg (not_not_intro hsame)] at h
        obtain rfl := Option.some.inj (Except.ok.inj h)
        rw [hlocal, hsame]
      · rw [if_pos hsame] at h
        cases h
    · rw [if_neg hid] at h
      exact ih h

theorem nameBelow_ne_none {root resolved ancestor : Path} {rootId homeId : String}
    {ps : List Path} (hmem : ancestor ∈ ps) (hid : tree.identity ancestor = .ok rootId) :
    tree.nameBelow root rootId homeId resolved ps ≠ .ok none := by
  induction ps with
  | nil => cases hmem
  | cons first rest ih =>
    intro h
    rw [nameBelow] at h
    obtain ⟨id, hfirst, h⟩ := bind_eq_ok h
    by_cases hroot : id = rootId
    · rw [if_pos hroot] at h
      obtain ⟨localId, -, h⟩ := bind_eq_ok h
      split at h
      · cases h
      · cases h
    · rw [if_neg hroot] at h
      rcases List.mem_cons.mp hmem with rfl | hrest
      · rw [hid] at hfirst
        exact hroot (Except.ok.inj hfirst).symm
      · exact ih hrest h

theorem located_identity {root home name : Path} (h : tree.located root home = .ok (some name)) :
    tree.identity name = tree.identity home := by
  obtain ⟨root', -, h⟩ := bind_eq_ok h
  obtain ⟨rootId, -, h⟩ := bind_eq_ok h
  rw [locateHome] at h
  obtain ⟨-, -, h⟩ := bind_eq_ok h
  split at h
  · split at h
    · cases h
    · cases h
  · next resolved hresolved =>
    split at h
    · cases h
    · obtain ⟨homeId, hhome, h⟩ := bind_eq_ok h
      obtain ⟨-, -, h⟩ := bind_eq_ok h
      rw [nameBelow_identity h, ← hhome, identity_resolved hresolved]

theorem located_of_belowRoot {root home : Path} (h : tree.BelowRoot root home) :
    tree.located root home ≠ .ok none := by
  obtain ⟨root', resolved, hroot, hhome, hbelow⟩ := h
  intro hnone
  obtain ⟨root'', hroot'', hnone⟩ := bind_eq_ok hnone
  obtain rfl := Except.ok.inj (hroot.symm.trans hroot'')
  obtain ⟨rootId, hid, hnone⟩ := bind_eq_ok hnone
  rw [locateHome] at hnone
  obtain ⟨-, -, hnone⟩ := bind_eq_ok hnone
  rw [hhome] at hnone
  dsimp only at hnone
  split at hnone
  · cases hnone
  · obtain ⟨homeId, -, hnone⟩ := bind_eq_ok hnone
    obtain ⟨-, -, hnone⟩ := bind_eq_ok hnone
    exact nameBelow_ne_none hbelow hid hnone

/-! ## 3. Refusing -/

/-- The target exists, and it contains the location, equals it or lies inside it: by name, or by
where both resolve to. -/
def Overlaps (tree : FileTree) (target location : Path) : Prop :=
  ∃ resolved, tree.canonicalize target = .ok resolved ∧
    (target ∈ location.ancestors ∨ ∃ resolvedLocation,
      tree.canonicalize location = .ok resolvedLocation ∧
        (resolved ∈ resolvedLocation.ancestors ∨ resolvedLocation ∈ resolved.ancestors))

theorem anyIdentity_ne_false {id : String} {p : Path} {ps : List Path} (hmem : p ∈ ps)
    (hid : tree.identity p = .ok id) : tree.anyIdentity id ps ≠ .ok false := by
  induction ps with
  | nil => cases hmem
  | cons first rest ih =>
    intro h
    rw [anyIdentity] at h
    obtain ⟨found, hfirst, h⟩ := bind_eq_ok h
    by_cases hfound : found = some id
    · rw [if_pos hfound] at h
      cases h
    · rw [if_neg hfound] at h
      rcases List.mem_cons.mp hmem with rfl | hrest
      · rw [existingIdentity, hid] at hfirst
        exact hfound (Except.ok.inj hfirst).symm
      · exact ih hrest h

theorem contains_ne_false {parent child resolved : Path}
    (hparent : tree.canonicalize parent = .ok resolved)
    (h : parent ∈ child.ancestors ∨ ∃ resolvedChild,
      tree.canonicalize child = .ok resolvedChild ∧ resolved ∈ resolvedChild.ancestors) :
    tree.contains parent child ≠ .ok false := by
  intro hfalse
  rw [contains] at hfalse
  obtain ⟨found, hfound, hfalse⟩ := bind_eq_ok hfalse
  rw [existingIdentity] at hfound
  cases hid : tree.identity parent with
  | error e =>
    rw [hid] at hfound
    dsimp only at hfound
    rw [identity_eq hparent] at hid
    rw [if_neg (tree.metadata_resolved hparent hid)] at hfound
    cases hfound
  | ok parentId =>
    rw [hid] at hfound
    obtain rfl := Except.ok.inj hfound
    obtain ⟨named, hnamed, hfalse⟩ := bind_eq_ok hfalse
    by_cases hyes : named = true
    · rw [if_pos hyes] at hfalse
      cases hfalse
    · rw [if_neg hyes] at hfalse
      rw [eq_false_of_ne_true hyes] at hnamed
      rcases h with hname | ⟨resolvedChild, hchild, hbelow⟩
      · exact anyIdentity_ne_false hname hid hnamed
      · rw [hchild] at hfalse
        exact anyIdentity_ne_false hbelow ((identity_resolved hparent).trans hid) hfalse

theorem pathsOverlapByIdentity_ne_false {target location : Path}
    (h : tree.Overlaps target location) : tree.pathsOverlapByIdentity target location ≠ .ok false := by
  obtain ⟨resolved, htarget, h⟩ := h
  intro hfalse
  rw [pathsOverlapByIdentity] at hfalse
  obtain ⟨outside, houtside, hfalse⟩ := bind_eq_ok hfalse
  by_cases hyes : outside = true
  · rw [if_pos hyes] at hfalse
    cases hfalse
  · rw [if_neg hyes] at hfalse
    rw [eq_false_of_ne_true hyes] at houtside
    rcases h with hname | ⟨resolvedLocation, hlocation, hinside | houter⟩
    · exact contains_ne_false htarget (Or.inl hname) houtside
    · exact contains_ne_false htarget (Or.inr ⟨resolvedLocation, hlocation, hinside⟩) houtside
    · exact contains_ne_false hlocation (Or.inr ⟨resolved, htarget, houter⟩) hfalse

end FileTree

namespace ProtectionStore

variable {ρ : Type} {codec : ProtectionCodec ρ} {disk : ProtectionDisk}

/-- **What is recorded is not removed**, and nothing that overlaps it is. -/
theorem ensureHarnessHomesPreserved_refuses {target location : Path}
    (hrecorded : HomeRecorded codec disk location ∨ RootRecorded codec disk location)
    (hoverlaps : disk.tree.Overlaps target location) :
    ∃ e, ensureHarnessHomesPreserved codec disk target = .error e := by
  cases hensure : ensureHarnessHomesPreserved codec disk target with
  | error e => exact ⟨e, rfl⟩
  | ok u =>
    exfalso
    rw [ensureHarnessHomesPreserved] at hensure
    obtain ⟨-, -, hensure⟩ := bind_eq_ok hensure
    obtain ⟨saved, hsaved, hensure⟩ := bind_eq_ok hensure
    obtain ⟨configured, -, hensure⟩ := bind_eq_ok hensure
    obtain ⟨locations, hlocations, hensure⟩ := bind_eq_ok hensure
    obtain ⟨external, -, hensure⟩ := bind_eq_ok hensure
    have hmem : location ∈ saved ++ configured.toList ++ locations ++ external.toList ++
        codec.dshHome.toList ++ [codec.root.join dshDirectory] ++
          (codec.userHome.map (·.join dshDirectory)).toList := by
      simp only [List.mem_append]
      rcases hrecorded with hhome | hroot
      · exact Or.inl (Or.inl (Or.inl (Or.inl (Or.inl (Or.inl
          ((homeRecorded_iff hsaved location).mp hhome))))))
      · exact Or.inl (Or.inl (Or.inl (Or.inl (Or.inr
          ((rootRecorded_iff hlocations location).mp hroot)))))
    have hcheck := eq_ok_of_forM hensure location hmem
    obtain ⟨-, -, hcheck⟩ := bind_eq_ok hcheck
    obtain ⟨overlaps, hfound, hcheck⟩ := bind_eq_ok hcheck
    by_cases hyes : overlaps = true
    · rw [if_pos hyes] at hcheck
      cases hcheck
    · rw [eq_false_of_ne_true hyes] at hfound
      exact FileTree.pathsOverlapByIdentity_ne_false hoverlaps hfound

end ProtectionStore

end DshNexus.Config
