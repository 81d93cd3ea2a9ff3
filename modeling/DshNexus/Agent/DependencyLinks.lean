import DshNexus.Agent.DependencyRepair
import DshNexus.Durable.Session

/-!
# A repair only adds verified links

1. What the checks of paths and files say (`ordinary_of_ordinaryAncestors`, `node_of_bounded`).
2. `Verified`, what a preview says of an entry that has a target; `verified_of_preview`.
3. `Repaired`, what the tree has more after a repair, wherever it was cut.
4. `repair_only_adds_verified_links`.
-/

namespace DshNexus.Agent.Dependencies

open Durable Program Document Snapshot Plugins

/-! ## 1. Checks -/

section Checks

variable {env : RepairEnv} {t : FileTree Bytes} {root path : Place}

theorem ordinary_of_ordinaryBelow {rest : List String} : ∀ {cursor : Place}, t.Ordinary cursor →
    ordinaryBelow env t cursor rest = .ok () → t.Ordinary (cursor ++ rest) := by
  induction rest with
  | nil =>
    intro cursor h _
    rw [List.append_nil]
    exact h
  | cons part rest ih =>
    intro cursor h hok
    have hsplit : cursor ++ part :: rest = cursor ++ [part] ++ rest := by
      rw [List.append_assoc]
      rfl
    rw [hsplit]
    have hcursor := h cursor (List.prefix_refl cursor)
    -- below nothing there is nothing
    have hbelow : t.node cursor = none → t.node (cursor ++ [part]) = none := by
      intro hnone
      by_contra hthere
      have hparent := t.parent cursor part hthere
      rw [hnone] at hparent
      cases hparent
    rw [ordinaryBelow] at hok
    rcases hcursor with hcursor | hcursor
    · rw [FileTree.lookup_of_directory hcursor] at hok
      rcases hnode : t.node (cursor ++ [part]) with _ | found
      · rw [hnode] at hok
        exact ih (FileTree.ordinary_concat.mpr ⟨h, Or.inr hnode⟩) hok
      · rw [hnode] at hok
        cases found with
        | directory => exact ih (FileTree.ordinary_concat.mpr ⟨h, Or.inl hnode⟩) hok
        | file content => cases hok
        | link route => cases hok
    · have hnext := FileTree.ordinary_concat.mpr ⟨h, Or.inr (hbelow hcursor)⟩
      split at hok
      · exact ih hnext hok
      · cases hok
      · cases hok
      · exact ih hnext hok
      · cases hok
      · cases hok

/-- **What `ordinary_ancestors` lets pass** is reached through directories alone. -/
theorem ordinary_of_ordinaryAncestors (hroot : t.node root = some .directory)
    (h : ordinaryAncestors env t root path = .ok ()) : root <+: path ∧ t.Ordinary path := by
  unfold ordinaryAncestors at h
  split at h
  · next hpath =>
    obtain ⟨rest, rfl⟩ := List.isPrefixOf_iff_prefix.mp hpath
    rw [List.drop_left] at h
    exact ⟨List.prefix_append _ _,
      ordinary_of_ordinaryBelow (FileTree.Ordinary.of_directory hroot) h⟩
  · cases h

theorem lookup_of_bounded {limit : Nat} {bytes : Bytes}
    (h : bounded env t path limit = .ok bytes) : t.lookup env.links path = .ok (.file bytes) := by
  unfold bounded at h
  split at h
  · cases h
  · next content hcontent =>
    split at h
    · cases h
    · rw [← Except.ok.inj h]
      exact hcontent
  · cases h
  · cases h

theorem node_of_bounded {limit : Nat} {bytes : Bytes} {name : String} (hreal : t.Real path)
    (h : bounded env t (path ++ [name]) limit = .ok bytes) :
    t.node path = some .directory ∧ t.node (path ++ [name]) = some (.file bytes) :=
  FileTree.node_of_lookup hreal (lookup_of_bounded h)

theorem real_of_canonicalize {hops : List Hop} (h : canonicalize env t hops = .ok path) :
    t.Real path := by
  unfold canonicalize at h
  split at h
  · next place hplace =>
    rw [← Except.ok.inj h]
    exact FileTree.real_of_resolve FileTree.Real.root hplace
  · cases h

theorem canonicalize_of_real (h : t.Real path) :
    canonicalize env t (FileTree.hopsTo path) = .ok path := by
  unfold canonicalize
  rw [FileTree.resolve_of_real h]

end Checks

/-! ## 2. The preview -/

/-- The lockfile of a release selects a version of a name for an importer. -/
def Selects (env : RepairEnv) (t : FileTree Bytes) (root : Place) (importer name version : String) :
    Prop :=
  ∃ bytes lock importers spec, t.node (root ++ ["pnpm-lock.yaml"]) = some (.file bytes) ∧
    env.parseYaml bytes = .ok lock ∧ lockImporters lock = .ok importers ∧
    (importer, spec) ∈ importers ∧ selectedVersion spec name = some version

/-- The package in a directory has the name, and the version unless it is a link. -/
def Carries (env : RepairEnv) (t : FileTree Bytes) (target : Place) (name version : String) : Prop :=
  ∃ bytes metadata, t.node (target ++ ["package.json"]) = some (.file bytes) ∧
    env.parseJson bytes = .ok metadata ∧ (member metadata "name").bind asStr = some name ∧
    ((linkText version).isSome = true ∨
      (member metadata "version").bind asStr = some (expectedVersion version))

/-- **What a preview says of an entry that has a target.** -/
structure Verified (env : RepairEnv) (t : FileTree Bytes) (root : Place) (entry : DependencyEntry)
    (target : Place) : Prop where
  below : ∃ base package, importerBase root entry.importer = .ok base ∧
    packagePath entry.package = .ok package ∧
    entry.destination = base ++ "node_modules" :: package
  ordinary : root <+: entry.destination.dropLast ∧ t.Ordinary entry.destination.dropLast
  absent : t.node entry.destination = none
  inside : root <+: target
  directory : t.node target = some .directory
  package : ∃ version, Selects env t root entry.importer entry.package version ∧
    Carries env t target entry.package version

section Preview

variable {env : RepairEnv} {t : FileTree Bytes} {root base : Place} {startup : Bool}
  {limit : Option Nat}

theorem of_findTarget {name version reason : String} {package target : Place} {bytes : Bytes}
    (h : findTarget env t root base limit name version package = .ok (some target, reason, bytes)) :
    root <+: target ∧ t.node target = some .directory ∧ Carries env t target name version := by
  unfold findTarget at h
  obtain ⟨route, -, h⟩ := bind_eq_ok h
  cases hcanonical : canonicalize env t route with
  | error e =>
    rw [hcanonical] at h
    cases h
  | ok place =>
    rw [hcanonical] at h
    dsimp only at h
    rw [guard_eq_ok] at h
    obtain ⟨hinside, h⟩ := h
    obtain ⟨content, hcontent, h⟩ := bind_eq_ok h
    obtain ⟨metadata, hmetadata, h⟩ := bind_eq_ok h
    obtain ⟨hdirectory, hfile⟩ := node_of_bounded (real_of_canonicalize hcanonical) hcontent
    by_cases hcarries : carries name version metadata = true
    · rw [if_pos hcarries] at h
      obtain rfl := Option.some.inj (Prod.mk.inj (Except.ok.inj h)).1
      unfold carries at hcarries
      rw [Bool.and_eq_true, Bool.or_eq_true, decide_eq_true_eq, decide_eq_true_eq] at hcarries
      refine ⟨?_, hdirectory, content, metadata, hfile, hmetadata, hcarries⟩
      exact List.isPrefixOf_iff_prefix.mp (Bool.not_eq_false _ ▸ hinside)
    · rw [if_neg hcarries] at h
      cases (Prod.mk.inj (Except.ok.inj h)).1

/-- Every entry that has a target is verified. -/
def AllVerified (env : RepairEnv) (t : FileTree Bytes) (root : Place)
    (entries : List DependencyEntry) : Prop :=
  ∀ entry ∈ entries, ∀ target, entry.target = some target → Verified env t root entry target

theorem AllVerified.append {entries : List DependencyEntry} {entry : DependencyEntry}
    (h : AllVerified env t root entries)
    (hentry : ∀ target, entry.target = some target → Verified env t root entry target) :
    AllVerified env t root (entries ++ [entry]) := by
  intro other hother target htarget
  rcases List.mem_append.mp hother with hother | hother
  · exact h other hother target htarget
  · rw [List.mem_singleton] at hother
    subst hother
    exact hentry target htarget

theorem AllVerified.unavailable {entries : List DependencyEntry} (importer name : String)
    (destination : Place) (reason : String) (h : AllVerified env t root entries) :
    AllVerified env t root (entries ++ [⟨importer, name, destination, none, reason⟩]) :=
  h.append fun _ htarget => by cases htarget

/-- **One name**: an entry that it adds is verified. -/
theorem allVerified_previewDependency {importer name : String} {spec manifest : JsonValue}
    {progress progress' : PreviewProgress} (hroot : t.node root = some .directory)
    (hbase : importerBase root importer = .ok base)
    (hselects : ∀ name version, selectedVersion spec name = some version →
      Selects env t root importer name version)
    (hall : AllVerified env t root progress.entries)
    (h : previewDependency env t root startup limit importer spec base manifest progress name =
      .ok progress') : AllVerified env t root progress'.entries := by
  have hsame : ∀ {other : PreviewProgress}, (.ok progress : Except IoError _) = .ok other →
      AllVerified env t root other.entries := by
    intro other heq
    rw [← Except.ok.inj heq]
    exact hall
  unfold previewDependency at h
  split at h
  · exact hsame h
  · split at h
    · cases h
    · obtain ⟨package, hpackage, h⟩ := bind_eq_ok h
      obtain ⟨⟨⟩, hancestors, h⟩ := bind_eq_ok h
      obtain ⟨hbelow, hordinary⟩ := ordinary_of_ordinaryAncestors hroot hancestors
      split at h
      · exact hsame h
      · split at h
        · cases h
        · exact hsame h
      · split at h
        · exact hsame h
        · rw [← Except.ok.inj h]
          exact hall.unavailable _ _ _ _
      · next hmissing =>
        split at h
        · rw [← Except.ok.inj h]
          exact hall.unavailable _ _ _ _
        · next version hversion =>
          obtain ⟨⟨target, reason, bytes⟩, hfind, h⟩ := bind_eq_ok h
          rw [← Except.ok.inj h]
          refine hall.append fun place hplace => ?_
          dsimp only at hplace
          rw [hplace] at hfind
          obtain ⟨hinside, hdirectory, hcarries⟩ := of_findTarget hfind
          refine ⟨⟨base, package, hbase, hpackage, rfl⟩, ⟨hbelow, hordinary⟩, ?_, hinside,
            hdirectory, version, hselects name version hversion, hcarries⟩
          -- nothing is found at the destination, and its parent is no link
          have hne : base ++ "node_modules" :: package ≠ [] := by simp
          rw [← List.dropLast_append_getLast hne] at hmissing ⊢
          exact FileTree.absent_of_lookup hordinary hmissing
      · cases h
      · cases h

theorem invariant_of_foldlM {ι β : Type} {g : β → ι → Except IoError β} {I : β → Prop}
    {xs : List ι} (hstep : ∀ x ∈ xs, ∀ b b', g b x = .ok b' → I b → I b') :
    ∀ {b b' : β}, xs.foldlM g b = .ok b' → I b → I b' := by
  induction xs with
  | nil =>
    intro b b' h hb
    rw [← Except.ok.inj h]
    exact hb
  | cons x xs ih =>
    intro b b' h hb
    rw [List.foldlM_cons] at h
    obtain ⟨b₁, hx, hxs⟩ := bind_eq_ok h
    exact ih (fun y hy => hstep y (List.mem_cons_of_mem _ hy)) hxs
      (hstep x List.mem_cons_self b b₁ hx hb)

/-- **One importer.** -/
theorem allVerified_previewImporter {importer : String × JsonValue}
    {progress progress' : PreviewProgress} (hroot : t.node root = some .directory)
    (hselects : ∀ name version, selectedVersion importer.2 name = some version →
      Selects env t root importer.1 name version)
    (hall : AllVerified env t root progress.entries)
    (h : previewImporter env t root startup limit progress importer = .ok progress') :
    AllVerified env t root progress'.entries := by
  unfold previewImporter at h
  split at h
  · rw [← Except.ok.inj h]
    exact hall
  · obtain ⟨base, hbase, h⟩ := bind_eq_ok h
    obtain ⟨⟨⟩, -, h⟩ := bind_eq_ok h
    obtain ⟨bytes, -, h⟩ := bind_eq_ok h
    obtain ⟨manifest, -, h⟩ := bind_eq_ok h
    refine invariant_of_foldlM (I := fun progress => AllVerified env t root progress.entries)
      (fun name _ before after hname hbefore => ?_) h hall
    exact allVerified_previewDependency hroot hbase hselects hbefore hname

/-- **A preview**: the root is a real directory, and every entry that has a target is verified. -/
theorem verified_of_preview {route : Route} {plan : DependencyPreview}
    (h : previewScoped env route startup t = .ok plan) :
    t.node plan.root = some .directory ∧ AllVerified env t plan.root plan.entries := by
  unfold previewScoped at h
  obtain ⟨root, hcanonical, h⟩ := bind_eq_ok h
  obtain ⟨lockBytes, hbytes, h⟩ := bind_eq_ok h
  obtain ⟨lock, hlock, h⟩ := bind_eq_ok h
  obtain ⟨importers, himporters, h⟩ := bind_eq_ok h
  rw [guard_eq_ok] at h
  obtain ⟨-, h⟩ := h
  obtain ⟨⟨modules, limit⟩, -, h⟩ := bind_eq_ok h
  obtain ⟨progress, hprogress, h⟩ := bind_eq_ok h
  obtain rfl := Except.ok.inj h
  obtain ⟨hroot, hfile⟩ := node_of_bounded (real_of_canonicalize hcanonical) hbytes
  refine ⟨hroot, ?_⟩
  refine invariant_of_foldlM (I := fun progress => AllVerified env t root progress.entries)
    (fun importer himporter before after hstep hbefore => ?_) hprogress
    fun entry hentry => by cases hentry
  refine allVerified_previewImporter hroot (fun name version hversion => ?_) hbefore hstep
  exact ⟨lockBytes, lock, importers, importer.2, hfile, hlock, himporters, himporter, hversion⟩

end Preview

/-! ## 3. The repair -/

/-- What a repair may have put at a place: a directory on the way to a link, or the link. -/
def Planned (root : Place) (links : List (Place × Place)) (p : Place) (found : Node Bytes) : Prop :=
  ∃ destination target, (destination, target) ∈ links ∧
    ((found = .directory ∧ root <+: p ∧ p ≠ root ∧ p <+: destination ∧ p ≠ destination) ∨
      (p = destination ∧ found = .link ⟨true, FileTree.hopsTo target⟩))

/-- **What a tree has more after a repair.** -/
structure Repaired (root : Place) (links : List (Place × Place)) (t t' : FileTree Bytes) : Prop where
  kept : t.Extends t'
  added : ∀ p found, t.node p = none → t'.node p = some found → Planned root links p found

section Repair

variable {env : RepairEnv} {root : Place} {links : List (Place × Place)} {t t' : FileTree Bytes}
  {s s₀ : RepairStore} {round : String}

theorem Repaired.refl (t : FileTree Bytes) : Repaired root links t t where
  kept := FileTree.Extends.refl t
  added p found hnone hfound := by
    rw [hnone] at hfound
    cases hfound

theorem Repaired.add {p : Place} {name : String} {new : Node Bytes}
    (h : Repaired root links t t') (hnew : Planned root links (p ++ [name]) new) :
    Repaired root links t (t'.add p name new) where
  kept := h.kept.trans (FileTree.extends_add t' p name new)
  added q found hnone hfound := by
    rw [FileTree.node_add] at hfound
    split at hfound
    · next hplace =>
      rw [hplace.1, ← Option.some.inj hfound]
      exact hnew
    · exact h.added q found hnone hfound

/-- The state of a repair: the tree, and the records of other repairs. -/
def Repairing (root : Place) (links : List (Place × Place)) (round : String) (s₀ s : RepairStore) :
    Prop :=
  Repaired root links s₀.tree s.tree ∧ ∀ other, other ≠ round → s.rounds other = s₀.rounds other

theorem Repairing.refl (s : RepairStore) : Repairing root links round s s :=
  ⟨Repaired.refl s.tree, fun _ _ => rfl⟩

/-- **A new node** that was planned, under a parent without links. -/
theorem wp_create {parent : Place} {name : String} {new : Node Bytes}
    (h : Repairing root links round s₀ s) (hparent : s.tree.Ordinary parent)
    (hnew : Planned root links (parent ++ [name]) new) {Q : Unit → RepairStore → Prop}
    {E : IoError → RepairStore → Prop} {C : RepairStore → Prop} (hC : C s) (hE : ∀ e, E e s)
    (hadded : ∀ s', Repairing root links round s₀ s' →
      (s'.tree = s.tree.add parent name new) → C s' ∧ Q () s' ∧ ∀ e, E e s') :
    (create env parent name new).wp Q E C s := by
  unfold create
  rw [wp_bind, wp_read]
  split
  · exact hE _
  · next real hreal =>
    obtain ⟨rfl, -⟩ := hparent.resolve hreal
    split
    · exact hE _
    · split
      · exact hE _
      · obtain ⟨hc, hq, he⟩ := hadded (s.add real name new) ⟨h.1.add hnew, h.2⟩ rfl
        rw [wp_durable]
        exact ⟨hC, hc, hq, hE _, he _⟩

/-- **A directory on the way to a link.** -/
theorem wp_createOne {parent : Place} {name : String} (h : Repairing root links round s₀ s)
    (hparent : s.tree.Ordinary parent) (hnew : Planned root links (parent ++ [name]) .directory)
    {I : RepairStore → Prop} (hI : ∀ s', Repairing root links round s₀ s' →
      s'.tree = s.tree ∨ s'.tree = s.tree.add parent name .directory → I s') :
    (createOne env parent name).wp (fun _ => I) (fun _ => I) I s := by
  have hsame : I s := hI s h (Or.inl rfl)
  unfold createOne
  rw [wp_bind, wp_read]
  split
  · exact hsame
  · rw [wp_tryCatch]
    -- an error leaves the tree as it was, or with the directory
    have hhandled : ∀ (e : IoError) (s' : RepairStore), I s' →
        (do
          if isDir env (← Program.read).tree (parent ++ [name]) then pure () else throw e :
            Program RepairStore IoError Unit).wp (fun _ => I) (fun _ => I) I s' := by
      intro e s' h'
      rw [wp_bind, wp_read]
      split
      · exact h'
      · exact h'
    refine wp_create h hparent hnew hsame (fun e => hhandled e s hsame) fun s' h' htree => ?_
    have hadded : I s' := hI s' h' (Or.inr htree)
    exact ⟨hadded, hadded, fun e => hhandled e s' hadded⟩

/-- **The directories on the way to a link.** -/
theorem wp_createBelow {destination target : Place} (hlink : (destination, target) ∈ links)
    {rest : List String} : ∀ {cursor : Place} {s : RepairStore}, root <+: cursor →
      cursor ++ rest = destination.dropLast → Repairing root links round s₀ s →
      s.tree.Ordinary destination.dropLast →
      (createBelow env cursor rest).wp (fun _ => Repairing root links round s₀)
        (fun _ => Repairing root links round s₀) (Repairing root links round s₀) s := by
  induction rest with
  | nil => exact fun {_ _} _ _ h _ => h
  | cons part rest ih =>
    intro cursor s hcursor hpath h hordinary
    have hsplit : cursor ++ [part] ++ rest = destination.dropLast := by
      rw [List.append_assoc]
      exact hpath
    have hbelow : root <+: cursor ++ [part] := hcursor.trans (List.prefix_append _ _)
    have hparent : s.tree.Ordinary cursor := hordinary.above ⟨_, hpath⟩
    have hplanned : Planned root links (cursor ++ [part]) .directory := by
      have hlength := congrArg List.length hsplit
      rw [List.length_append, List.length_append, List.length_singleton,
        List.length_dropLast] at hlength
      refine ⟨destination, target, hlink, Or.inl ⟨rfl, hbelow, fun heq => ?_, ?_, fun heq => ?_⟩⟩
      · have hle := hcursor.length_le
        have heq' := congrArg List.length heq
        rw [List.length_append, List.length_singleton] at heq'
        omega
      · exact (List.IsPrefix.trans ⟨_, hsplit⟩ (List.dropLast_prefix destination))
      · have heq' := congrArg List.length heq
        rw [List.length_append, List.length_singleton] at heq'
        omega
    rw [createBelow, wp_bind]
    refine wp_mono ?_ (fun _ _ h' => h'.1) (fun _ h' => h'.1)
      (wp_createOne (I := fun s' => Repairing root links round s₀ s' ∧
        s'.tree.Ordinary destination.dropLast) h hparent hplanned fun s' h' htree => ⟨h', ?_⟩)
    · rintro _ s' ⟨h', hordinary'⟩
      exact ih hbelow hsplit h' hordinary'
    · rcases htree with htree | htree
      · rw [htree]
        exact hordinary
      · rw [htree]
        exact hordinary.add cursor part

/-- **One link.** -/
theorem wp_repairLink {destination target : Place} (hlink : (destination, target) ∈ links)
    (hne : destination ≠ []) (h : Repairing root links round s₀ s)
    (hroot : s₀.tree.node root = some .directory) (htarget : s₀.tree.Real target) :
    (repairLink env root destination target).wp (fun _ => Repairing root links round s₀)
      (fun _ => Repairing root links round s₀) (Repairing root links round s₀) s := by
  have hrootNow : ∀ s', Repairing root links round s₀ s' → s'.tree.node root = some .directory :=
    fun s' h' => h'.1.kept root _ hroot
  unfold repairLink
  rw [wp_bind, wp_inspect]
  refine ⟨fun _ hfirst => ?_, fun _ _ => h⟩
  obtain ⟨⟨rest, hrest⟩, hordinary⟩ := ordinary_of_ordinaryAncestors (hrootNow s h) hfirst
  rw [wp_bind, ← hrest, List.drop_left]
  refine wp_imp ?_
    (wp_createBelow hlink (List.prefix_refl root) hrest h hordinary)
  intro _ s₁ h₁
  rw [wp_bind, wp_inspect]
  refine ⟨fun _ hsecond => ?_, fun _ _ => h₁⟩
  rw [hrest] at hsecond
  obtain ⟨-, hordinary₁⟩ := ordinary_of_ordinaryAncestors (hrootNow s₁ h₁) hsecond
  unfold createMissingModuleLink
  rw [wp_bind, wp_inspect]
  refine ⟨fun place hplace => ?_, fun _ _ => h₁⟩
  rw [canonicalize_of_real (htarget.of_extends h₁.1.kept)] at hplace
  obtain rfl := Except.ok.inj hplace
  rw [wp_bind, wp_read]
  split
  · exact h₁
  · have hdestination : destination.dropLast ++ [destination.getLast?.getD ""] = destination := by
      rw [List.getLast?_eq_some_getLast hne, Option.getD_some]
      exact List.dropLast_append_getLast hne
    refine wp_create h₁ hordinary₁ ?_ h₁ (fun _ => h₁) fun s₂ h₂ _ => ⟨h₂, h₂, fun _ => h₂⟩
    rw [hdestination]
    exact ⟨destination, target, hlink, Or.inr ⟨rfl, rfl⟩⟩

theorem repairing_putFile (file : String) (content : RecordFile)
    (h : Repairing root links round s₀ s) :
    Repairing root links round s₀ (s.putFile round file content) := by
  refine ⟨h.1, fun other hother => ?_⟩
  unfold RepairStore.putFile
  dsimp only
  rw [Function.update_of_ne hother]
  exact h.2 other hother

theorem wp_writeRecord {file : String} {content : RecordFile}
    (h : Repairing root links round s₀ s) :
    (writeRecord round file content).wp (fun _ => Repairing root links round s₀)
      (fun _ => Repairing root links round s₀) (Repairing root links round s₀) s := by
  have hput := repairing_putFile file content h
  unfold writeRecord
  rw [wp_durable]
  exact ⟨h, hput, hput, h, hput⟩

/-- **The links one after the other.** -/
theorem wp_repairLinks (hroot : s₀.tree.node root = some .directory)
    (hlinks : ∀ link ∈ links, link.1 ≠ [] ∧ s₀.tree.Real link.2) :
    ∀ {todo : List (Place × Place)} {repaired : List Place} {s : RepairStore},
      (∀ link ∈ todo, link ∈ links) → Repairing root links round s₀ s →
      (repairLinks env root round todo repaired).wp (fun _ => Repairing root links round s₀)
        (fun _ => Repairing root links round s₀) (Repairing root links round s₀) s := by
  intro todo
  induction todo with
  | nil => exact fun {_ _} _ h => h
  | cons link todo ih =>
    obtain ⟨destination, target⟩ := link
    intro repaired s htodo h
    have hlink := htodo (destination, target) List.mem_cons_self
    obtain ⟨hne, htarget⟩ := hlinks _ hlink
    rw [repairLinks, wp_bind, wp_toExcept]
    refine wp_imp ?_
      (wp_repairLink hlink hne h hroot htarget)
    intro _ s₁ h₁
    rw [wp_bind, wp_toExcept]
    refine wp_imp ?_ (wp_writeRecord h₁)
    intro _ s₂ h₂
    exact ih (fun link hmem => htodo link (List.mem_cons_of_mem _ hmem)) h₂

/-- **The record** changes nothing in the tree. -/
theorem wp_saveRecord {plan : DependencyPreview} {call : RepairCall} {startup : Bool}
    (h : Repairing root links call.round s₀ s) :
    (saveRecord env plan call startup).wp (fun _ => Repairing root links call.round s₀)
      (fun _ => Repairing root links call.round s₀) (Repairing root links call.round s₀) s := by
  -- every step keeps it, and so does what follows
  have hthen : ∀ {α : Type} {file : String} {content : RecordFile} {s₁ : RepairStore}
      {rest : Program RepairStore IoError α} {Q : α → RepairStore → Prop},
      Repairing root links call.round s₀ s₁ →
      (∀ s₂, Repairing root links call.round s₀ s₂ →
        rest.wp Q (fun _ => Repairing root links call.round s₀)
          (Repairing root links call.round s₀) s₂) →
      (do writeRecord call.round file content; rest).wp Q
        (fun _ => Repairing root links call.round s₀) (Repairing root links call.round s₀) s₁ := by
    intro α file content s₁ rest Q h₁ hrest
    rw [wp_bind]
    exact wp_imp (fun _ s₂ h₂ => hrest s₂ h₂)
      (wp_writeRecord h₁)
  unfold saveRecord
  rw [wp_bind, wp_ofExcept]
  refine ⟨fun _ _ => ?_, fun _ _ => h⟩
  unfold createRound
  rw [wp_bind, wp_bind, wp_read]
  split
  · exact h
  · have hround : Repairing root links call.round s₀ (s.putRound call.round) := by
      refine ⟨h.1, fun other hother => ?_⟩
      unfold RepairStore.putRound
      dsimp only
      rw [Function.update_of_ne hother]
      exact h.2 other hother
    rw [wp_durable]
    refine ⟨h, hround, ?_, h, hround⟩
    refine hthen hround fun s₁ h₁ => ?_
    rw [wp_bind, wp_inspect]
    refine ⟨fun lock _ => ?_, fun _ _ => h₁⟩
    refine hthen h₁ fun s₂ h₂ => ?_
    rw [wp_bind]
    have hmodules : (saveModules env plan.root call.round).wp
        (fun _ => Repairing root links call.round s₀)
        (fun _ => Repairing root links call.round s₀) (Repairing root links call.round s₀) s₂ := by
      unfold saveModules
      rw [wp_bind, wp_read]
      split
      · exact h₂
      · rw [wp_bind, wp_inspect]
        exact ⟨fun _ _ => wp_writeRecord h₂, fun _ _ => h₂⟩
    refine wp_imp (fun _ s₃ h₃ => ?_) hmodules
    rw [wp_bind, wp_inspect]
    refine ⟨fun manifests _ => ?_, fun _ _ => h₃⟩
    refine hthen h₃ fun s₄ h₄ => ?_
    rw [wp_bind, wp_inspect]
    refine ⟨fun again _ => ?_, fun _ _ => h₄⟩
    split
    · exact h₄
    · exact h₄

/-- The links of a plan: where each one is, and what it leads to. -/
def plannedLinks (plan : DependencyPreview) : List (Place × Place) :=
  (candidates plan).filterMap fun entry => entry.target.map fun target =>
    (entry.destination, target)

theorem mem_plannedLinks {plan : DependencyPreview} {destination target : Place} :
    (destination, target) ∈ plannedLinks plan ↔
      ∃ entry ∈ plan.entries, entry.destination = destination ∧ entry.target = some target := by
  unfold plannedLinks candidates
  simp only [List.mem_filterMap, List.mem_filter, Option.map_eq_some_iff, Prod.mk.injEq]
  constructor
  · rintro ⟨entry, ⟨hentry, -⟩, place, hplace, rfl, rfl⟩
    exact ⟨entry, hentry, rfl, hplace⟩
  · rintro ⟨entry, hentry, rfl, htarget⟩
    exact ⟨entry, ⟨hentry, by rw [htarget]; rfl⟩, target, htarget, rfl, rfl⟩

/-- **A repair, wherever it is cut**: it does nothing, or what its preview planned. -/
theorem wp_applyScoped {route : Route} {expected : String} {call : RepairCall} {startup : Bool}
    {I : RepairStore → Prop} (hsame : I s) (hrepair : ∀ plan s',
      previewScoped env route startup s.tree = .ok plan → plan.fingerprint = expected →
      s.rounds call.round = none → Repairing plan.root (plannedLinks plan) call.round s s' → I s') :
    (applyScoped env route expected call startup).wp (fun _ => I) (fun _ => I) I s := by
  unfold applyScoped
  rw [wp_bind, wp_inspect]
  refine ⟨fun plan hplan => ?_, fun _ _ => hsame⟩
  split
  · exact hsame
  · next hexpected =>
    rw [ne_eq, not_not] at hexpected
    split
    · exact hsame
    · obtain ⟨hroot, hall⟩ := verified_of_preview hplan
      have hlinks : ∀ link ∈ plannedLinks plan, link.1 ≠ [] ∧ s.tree.Real link.2 := by
        rintro ⟨destination, target⟩ hlink
        obtain ⟨entry, hentry, rfl, htarget⟩ := mem_plannedLinks.mp hlink
        have hverified := hall entry hentry target htarget
        obtain ⟨base, package, -, -, hdestination⟩ := hverified.below
        refine ⟨?_, FileTree.Real.of_directory hverified.directory⟩
        rw [hdestination]
        simp
      by_cases hfresh : s.rounds call.round = none
      · have hend : ∀ s', Repairing plan.root (plannedLinks plan) call.round s s' → I s' :=
          fun s' h' => hrepair plan s' hplan hexpected.symm hfresh h'
        rw [wp_bind]
        refine wp_mono ?_ (fun _ s' h' => hend s' h') hend
          (wp_saveRecord (Repairing.refl s))
        intro _ s₁ h₁
        rw [wp_bind]
        refine wp_mono ?_ (fun _ s' h' => hend s' h') hend
          (wp_repairLinks hroot hlinks (fun link hlink => hlink) h₁)
        rintro ⟨repaired, error⟩ s₂ h₂
        rw [wp_bind, wp_read]
        dsimp only
        rw [wp_bind]
        refine wp_mono ?_ (fun _ s' h' => hend s' h') hend (wp_writeRecord h₂)
        intro _ s₃ h₃
        exact hend s₃ h₃
      · rw [wp_bind]
        refine wp_mono (Q := fun _ _ => False) (fun _ _ hf => hf.elim)
          (fun _ s' h' => h' ▸ hsame) (fun s' h' => h' ▸ hsame)
          (?_ : (saveRecord env plan call startup).wp (fun _ _ => False) (fun _ s' => s' = s)
            (fun s' => s' = s) s)
        unfold saveRecord
        rw [wp_bind, wp_ofExcept]
        refine ⟨fun _ _ => ?_, fun _ _ => rfl⟩
        unfold createRound
        rw [wp_bind, wp_bind, wp_read,
          if_pos (Option.isSome_iff_ne_none.mpr hfresh)]
        exact rfl

end Repair

/-! ## 4. The result -/

/-- **A new link**: it resolves to the verified target of its entry, which is still there. -/
structure NewLink (env : RepairEnv) (t t' : FileTree Bytes) (root : Place)
    (entry : DependencyEntry) (target : Place) : Prop where
  resolves : canonicalize env t' (FileTree.hopsTo entry.destination) = .ok target
  inside : root <+: target
  directory : t'.node target = some .directory
  package : ∃ version, Selects env t root entry.importer entry.package version ∧
    Carries env t' target entry.package version

theorem Carries.of_extends {env : RepairEnv} {t t' : FileTree Bytes} {target : Place}
    {name version : String} (h : Carries env t target name version) (hext : t.Extends t') :
    Carries env t' target name version := by
  obtain ⟨bytes, metadata, hfile, hmetadata⟩ := h
  exact ⟨bytes, metadata, hext _ _ hfile, hmetadata⟩

theorem Verified.strictly {env : RepairEnv} {t : FileTree Bytes} {root target : Place}
    {entry : DependencyEntry} (h : Verified env t root entry target) :
    root <+: entry.destination ∧ entry.destination ≠ root := by
  refine ⟨h.ordinary.1.trans (List.dropLast_prefix _), fun heq => ?_⟩
  obtain ⟨base, package, -, -, hdestination⟩ := h.below
  have hlength := h.ordinary.1.length_le
  have hpos : 0 < entry.destination.length := by
    rw [hdestination, List.length_append, List.length_cons]
    omega
  rw [List.length_dropLast, heq] at hlength
  rw [heq] at hpos
  omega

/-- **A repair only adds verified links**, with any faults: wherever it was cut, and whatever failed.
Nothing that was there is changed or removed.  What is new was absent, is strictly below the root
of the release and is reached through directories alone; it is a directory on the way to the
destination of an entry, or the link of an entry: it resolves to a directory in the release, whose
manifest has the name of the dependency and, unless the lockfile has a link, the version that the
lockfile selects for the importer.  A repair with another fingerprint than that of the preview
changes nothing at all, and no repair changes the record of another. -/
theorem repair_only_adds_verified_links (env : RepairEnv) (s : RepairStore) (route : Route)
    (expected : String) (call : RepairCall) (startup : Bool) (fs : List Fault) :
    let s' := Session.after (applyScoped env route expected call startup) fs s
    s.tree.Extends s'.tree ∧
    (∀ p found, s.tree.node p = none → s'.tree.node p = some found →
      ∃ plan entry target, previewScoped env route startup s.tree = .ok plan ∧
        plan.fingerprint = expected ∧ entry ∈ plan.entries ∧ entry.target = some target ∧
        plan.root <+: p ∧ p ≠ plan.root ∧
        (∀ q, q <+: p → q ≠ p → s'.tree.node q = some .directory) ∧
        ((found = .directory ∧ p <+: entry.destination ∧ p ≠ entry.destination) ∨
          (p = entry.destination ∧ NewLink env s.tree s'.tree plan.root entry target))) ∧
    (∀ plan, previewScoped env route startup s.tree = .ok plan → plan.fingerprint ≠ expected →
      s' = s) ∧
    (∀ round files, s.rounds round = some files → s'.rounds round = some files) := by
  intro s'
  have hends : s' = s ∨ ∃ plan, previewScoped env route startup s.tree = .ok plan ∧
      plan.fingerprint = expected ∧ s.rounds call.round = none ∧
      Repairing plan.root (plannedLinks plan) call.round s s' := by
    refine Session.after_of_wp (I := fun s' => s' = s ∨ ∃ plan,
      previewScoped env route startup s.tree = .ok plan ∧ plan.fingerprint = expected ∧
      s.rounds call.round = none ∧ Repairing plan.root (plannedLinks plan) call.round s s') fs ?_
    exact wp_applyScoped (Or.inl rfl) fun plan s'' hplan hexpected hfresh h =>
      Or.inr ⟨plan, hplan, hexpected, hfresh, h⟩
  rcases hends with hsame | ⟨plan, hplan, hexpected, hfresh, hrepaired, hrounds⟩
  · rw [hsame]
    refine ⟨FileTree.Extends.refl _, fun p found hnone hfound => ?_, fun _ _ _ => rfl,
      fun _ _ h => h⟩
    rw [hnone] at hfound
    cases hfound
  · refine ⟨hrepaired.kept, fun p found hnone hfound => ?_, fun other hother hne => ?_,
      fun round files hround => ?_⟩
    · obtain ⟨destination, target, hlink, hplanned⟩ := hrepaired.added p found hnone hfound
      obtain ⟨entry, hentry, rfl, htarget⟩ := mem_plannedLinks.mp hlink
      have hverified := (verified_of_preview hplan).2 entry hentry target htarget
      have hparents : ∀ q, q <+: p → q ≠ p → s'.tree.node q = some .directory :=
        fun q hq hne => FileTree.directory_above (by rw [hfound]; simp) hq hne
      refine ⟨plan, entry, target, hplan, hexpected, hentry, htarget, ?_⟩
      rcases hplanned with ⟨rfl, hbelow, hne, hway, hlast⟩ | ⟨rfl, rfl⟩
      · exact ⟨hbelow, hne, hparents, Or.inl ⟨rfl, hway, hlast⟩⟩
      · obtain ⟨hbelow, hne⟩ := hverified.strictly
        obtain ⟨version, hselects, hcarries⟩ := hverified.package
        have hdirectory := hrepaired.kept target _ hverified.directory
        refine ⟨hbelow, hne, hparents, Or.inr ⟨rfl, ?_, hverified.inside, hdirectory, version,
          hselects, hcarries.of_extends hrepaired.kept⟩⟩
        have hnil : entry.destination ≠ [] := by
          intro hnil
          rw [hnil] at hfound
          rw [s'.tree.root] at hfound
          cases hfound
        have hpositive := env.links_pos
        rw [← List.dropLast_append_getLast hnil] at hfound ⊢
        unfold canonicalize
        obtain ⟨links, hlinks⟩ := Nat.exists_eq_succ_of_ne_zero (Nat.ne_of_gt hpositive)
        rw [hlinks, FileTree.resolve_of_link hfound (FileTree.Real.of_directory hdirectory) links]
    · rw [hplan] at hother
      rw [← Except.ok.inj hother] at hne
      exact absurd hexpected hne
    · rw [hrounds round fun heq => ?_]
      · exact hround
      · rw [heq, hfresh] at hround
        cases hround

end DshNexus.Agent.Dependencies
