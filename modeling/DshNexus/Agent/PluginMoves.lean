import DshNexus.Agent.PluginIsolation
import DshNexus.Config.Document
import DshNexus.Core.Table
import DshNexus.Core.Text
import DshNexus.Durable.Session
import Mathlib.Data.List.Sort

/-!
# The order of plugins

`crates/nexus-agent/src/dsh.rs`: a bundle of a profile is moved to another place in the list of the
profile's `package.json`.  Before the manifest is replaced, a record keeps its bytes and the bytes
that replace it; undo puts the first back as long as the manifest holds the second.

1. `native_profile`.
2. `reorder`, the list after a move, and `reordered_reorder`, what it keeps.
3. Manifests and records, and `move_profile_plugin`, `undo_profile_order` and `order_undo_id`.
4. `of_planMove`: what a move makes of the bytes.
-/

namespace DshNexus.Agent.PluginMoves

open Document Snapshot Durable Plugins Config

/-! ## 1. The profile -/

def MAX_PROFILE_MANIFEST_BYTES : Nat := 1024 * 1024

def FIXED_BUNDLES : List String := ["@deepseek-ai/dsh-base", "@deepseek-ai/dsh-web-app"]

def fixedBundle (package : String) : Bool := FIXED_BUNDLES.contains package

def validPackageName (value : String) : Bool :=
  let chars := value.toList
  !chars.isEmpty && decide (value.utf8ByteSize ≤ 214) && !chars.any isWhitespace &&
    !chars.any isControl && !chars.any (fun c => c.toNat = 0x5c || c = ':') &&
    decide (chars.head? ≠ some '.') && decide (chars.getLast? ≠ some '/') &&
    if chars.head? = some '@' then
      match Text.splitOnce '/' chars.tail with
      | some (scope, name) => !scope.isEmpty && !name.isEmpty && !name.contains '/'
      | none => false
    else !chars.contains '/'

/-- `ProfilePluginPayload`. -/
structure ProfilePlugin where
  package : String
  version : Option String
  builtin : Bool
  removable : Bool
  deriving DecidableEq, Repr

/-- `NativeProfilePayload`. -/
structure NativeProfile where
  name : String
  orderUndoId : Option String
  sourceProfile : Option String
  bundles : List String
  plugins : List ProfilePlugin
  deriving DecidableEq, Repr

/-- The manifest with another list of bundles. -/
def setBundles (names : List String) (manifest : JsonValue) : JsonValue :=
  mapMember "dsh"
    (mapMember "profile" (mapMember "bundles" fun _ => .sequence (names.map text))) manifest

/-- `serde_json` from bytes and to bytes.  What is printed of a manifest that was read, with other
names in its list, is read back. -/
structure ManifestCodec where
  decode : Bytes → Except String JsonValue
  encode : JsonValue → Except String Bytes
  reads : ∀ {bytes value names after}, decode bytes = .ok value →
    encode (setBundles names value) = .ok after → decode after = .ok (setBundles names value)

def readBundle (bundles : List String) (item : JsonValue) : Except IoError (List String) :=
  match (asStr item).filter validPackageName with
  | none => .error (invalidData "profile bundle is not a valid package name")
  | some bundle =>
      if bundle ∈ bundles then .error (invalidData "profile bundles contain a duplicate")
      else .ok (bundles ++ [bundle])

def readBundleList (value : JsonValue) : Except IoError (List String) :=
  match (profileMember value "bundles").bind asArray with
  | none => .error (invalidData "profile manifest has no dsh.profile.bundles array")
  | some items => items.foldlM readBundle []

def readVersion (dependency : String × JsonValue) : Except IoError (String × String) :=
  if validPackageName dependency.1 = false then
    .error (invalidData "profile dependency has an invalid package name")
  else
    match asStr dependency.2 with
    | none => .error (invalidData "profile dependency version must be text")
    | some version => .ok (dependency.1, version)

def readVersions (value : JsonValue) : Except IoError (List (String × String)) :=
  match member value "dependencies" with
  | none => .ok []
  | some (.mapping dependencies) => dependencies.mapM readVersion
  | some _ => .error (invalidData "profile manifest dependencies must be an object")

/-- A bundle of the list.  The names are distinct, so taking a version out of the map does not
matter to the next bundle. -/
def loadedPlugin (versions : List (String × String)) (bundle : String) : ProfilePlugin :=
  let version := versions.lookup bundle
  let builtin := fixedBundle bundle || version.isNone
  ⟨bundle, version, builtin, !builtin⟩

/-- A dependency that is not in the list. -/
def installedPlugin (dependency : String × String) : ProfilePlugin :=
  ⟨dependency.1, some dependency.2, fixedBundle dependency.1, !fixedBundle dependency.1⟩

/-- A disabled bundle, unless it is shown already. -/
def addDisabledPlugin (plugins : List ProfilePlugin) (record : JsonValue) : List ProfilePlugin :=
  match (packageOf record).filter validPackageName with
  | none => plugins
  | some package =>
      if plugins.any fun plugin => plugin.package = package then plugins
      else plugins ++ [⟨package, none, false, false⟩]

def pluginsOf (value : JsonValue) (bundles : List String) (versions : List (String × String)) :
    List ProfilePlugin :=
  let plugins := bundles.map (loadedPlugin versions) ++
    (versions.filter fun dependency => dependency.1 ∉ bundles).map installedPlugin
  (((profileMember value "nexusDisabledBundles").bind asArray).getD []).foldl addDisabledPlugin
    plugins

/-- `native_profile`.  `source` is the result of `generated_source_profile`. -/
def nativeProfileOf (codec : ManifestCodec) (source : Except IoError (Option String))
    (profile : String) (file : Option Bytes) : Except IoError NativeProfile := do
  let some bytes := file | throw ⟨.notFound, "No such file or directory"⟩
  if bytes.length > MAX_PROFILE_MANIFEST_BYTES then
    throw (invalidData "profile package.json must be an ordinary file no larger than 1 MiB")
  let value ← (codec.decode bytes).mapError invalidData
  let bundles ← readBundleList value
  let versions ← readVersions value
  let sourceProfile ← source
  pure ⟨profile, none, sourceProfile, bundles, pluginsOf value bundles versions⟩

/-! ## 2. Reordering -/

/-- The list after a move: the fixed bundles, then the others with the moved one before its target,
or last. -/
def reorder (bundles : List String) (package : String) (target : Option String) : List String :=
  let ordered := FIXED_BUNDLES.filter (fun fixed => fixed ∈ bundles) ++
    bundles.filter fun bundle => !fixedBundle bundle && bundle ≠ package
  let position := (target.bind fun target =>
    ordered.findIdx? fun bundle => bundle = target).getD ordered.length
  ordered.insertIdx position package

/-- **What a move makes of a list**: a permutation, the fixed bundles first and in their order, the
moved bundle directly before its target or last, and the others as they were. -/
structure Reordered (bundles : List String) (package : String) (target : Option String)
    (ordered : List String) : Prop where
  perm : ordered.Perm bundles
  fixedFirst : ∃ rest, ordered = FIXED_BUNDLES.filter (fun fixed => fixed ∈ bundles) ++ rest ∧
    ∀ bundle ∈ rest, fixedBundle bundle = false
  last : target = none → ordered.getLast? = some package
  before : ∀ t, target = some t → [package, t] <:+: ordered
  others : (ordered.filter fun bundle => !fixedBundle bundle && bundle ≠ package) =
    bundles.filter fun bundle => !fixedBundle bundle && bundle ≠ package

/-- A bundle may be moved before a target. -/
structure Movable (bundles : List String) (package : String) (target : Option String) : Prop where
  free : fixedBundle package = false
  mem : package ∈ bundles
  target : ∀ t, target = some t → fixedBundle t = false ∧ t ≠ package ∧ t ∈ bundles

theorem insertIdx_length_append {α : Type} (l₁ l₂ : List α) (a : α) :
    (l₁ ++ l₂).insertIdx l₁.length a = l₁ ++ a :: l₂ := by
  induction l₁ with
  | nil => rfl
  | cons b l₁ ih => exact congrArg (b :: ·) ih

theorem reorder_eq {bundles : List String} {package : String} {target : Option String}
    (h : Movable bundles package target) :
    ∃ l₁ l₂, (bundles.filter fun bundle => !fixedBundle bundle && bundle ≠ package) = l₁ ++ l₂ ∧
      reorder bundles package target =
        FIXED_BUNDLES.filter (fun fixed => fixed ∈ bundles) ++ (l₁ ++ package :: l₂) ∧
      (target = none → l₂ = []) ∧ ∀ t, target = some t → ∃ l₃, l₂ = t :: l₃ := by
  unfold reorder
  dsimp only
  cases target with
  | none =>
    refine ⟨_, [], (List.append_nil _).symm, ?_, fun _ => rfl, by simp⟩
    rw [Option.bind_none, Option.getD_none, ← List.append_assoc]
    have hend := insertIdx_length_append
      (FIXED_BUNDLES.filter (fun fixed => fixed ∈ bundles) ++
        bundles.filter fun bundle => !fixedBundle bundle && bundle ≠ package) [] package
    rwa [List.append_nil] at hend
  | some t =>
    obtain ⟨hfree, hne, hmem⟩ := h.target t rfl
    have hin : t ∈ bundles.filter fun bundle => !fixedBundle bundle && bundle ≠ package := by
      rw [List.mem_filter]
      exact ⟨hmem, by simp [hfree, hne]⟩
    obtain ⟨l₁, l₃, hl, hnot⟩ := List.eq_append_cons_of_mem hin
    refine ⟨l₁, t :: l₃, hl, ?_, by simp, by simp⟩
    have hfixed : t ∉ FIXED_BUNDLES.filter (fun fixed => fixed ∈ bundles) := by
      intro hfound
      have hfound' := (List.mem_filter.mp hfound).1
      rw [fixedBundle, List.contains_eq_mem, decide_eq_false_iff_not] at hfree
      exact hfree hfound'
    rw [Option.bind_some, hl, ← List.append_assoc]
    have hfind : ((FIXED_BUNDLES.filter (fun fixed => fixed ∈ bundles) ++ l₁) ++ t :: l₃).findIdx?
        (fun bundle => bundle = t) =
        some (FIXED_BUNDLES.filter (fun fixed => fixed ∈ bundles) ++ l₁).length := by
      rw [List.findIdx?_append, List.findIdx?_eq_none_iff.mpr]
      · simp [List.findIdx?_cons]
      · intro bundle hbundle
        rw [decide_eq_false_iff_not]
        rintro rfl
        rcases List.mem_append.mp hbundle with hbundle | hbundle
        · exact hfixed hbundle
        · exact hnot hbundle
    rw [hfind, Option.getD_some, insertIdx_length_append, List.append_assoc]

/-- **A move is a reordering.** -/
theorem reordered_reorder {bundles : List String} {package : String} {target : Option String}
    (hdistinct : bundles.Nodup) (h : Movable bundles package target) :
    Reordered bundles package target (reorder bundles package target) := by
  obtain ⟨l₁, l₂, hl, heq, hlast, hbefore⟩ := reorder_eq h
  have hrest : ∀ bundle ∈ l₁ ++ l₂, bundle ∈ bundles ∧ fixedBundle bundle = false ∧
      bundle ≠ package := by
    intro bundle hbundle
    rw [← hl, List.mem_filter] at hbundle
    simpa using hbundle
  have hnodup : (l₁ ++ l₂).Nodup := hl ▸ hdistinct.filter _
  have hfixed : ∀ bundle ∈ FIXED_BUNDLES.filter (fun fixed => fixed ∈ bundles),
      fixedBundle bundle = true ∧ bundle ∈ bundles := by
    intro bundle hbundle
    rw [List.mem_filter] at hbundle
    rw [fixedBundle, List.contains_eq_mem]
    simpa using hbundle
  rw [heq]
  constructor
  · have hmoved : (FIXED_BUNDLES.filter (fun fixed => fixed ∈ bundles) ++
        (l₁ ++ package :: l₂)).Perm
        (package :: (FIXED_BUNDLES.filter (fun fixed => fixed ∈ bundles) ++ (l₁ ++ l₂))) := by
      refine List.Perm.trans ?_ List.perm_middle
      exact List.Perm.append_left _ List.perm_middle
    refine hmoved.trans ?_
    rw [List.perm_ext_iff_of_nodup _ hdistinct]
    · intro bundle
      rw [List.mem_cons, List.mem_append]
      constructor
      · rintro (rfl | hbundle | hbundle)
        · exact h.mem
        · exact (hfixed bundle hbundle).2
        · exact (hrest bundle hbundle).1
      · intro hbundle
        by_cases hpackage : bundle = package
        · exact Or.inl hpackage
        · by_cases hfree : fixedBundle bundle = true
          · refine Or.inr (Or.inl (List.mem_filter.mpr ⟨?_, by simpa using hbundle⟩))
            rwa [fixedBundle, List.contains_eq_mem, decide_eq_true_eq] at hfree
          · refine Or.inr (Or.inr ?_)
            rw [← hl, List.mem_filter]
            exact ⟨hbundle, by simp [hfree, hpackage]⟩
    · rw [List.nodup_cons]
      constructor
      · intro hmem
        rcases List.mem_append.mp hmem with hmem | hmem
        · have hfree := h.free
          rw [(hfixed package hmem).1] at hfree
          cases hfree
        · exact (hrest package hmem).2.2 rfl
      · rw [List.nodup_append']
        refine ⟨List.Nodup.filter _ (by decide), hnodup, ?_⟩
        intro bundle hbundle hbundle'
        have hfree := (hrest bundle hbundle').2.1
        rw [(hfixed bundle hbundle).1] at hfree
        cases hfree
  · refine ⟨_, rfl, ?_⟩
    intro bundle hbundle
    rcases List.mem_append.mp hbundle with hbundle | hbundle
    · exact (hrest bundle (List.mem_append_left _ hbundle)).2.1
    · rcases List.mem_cons.mp hbundle with rfl | hbundle
      · exact h.free
      · exact (hrest bundle (List.mem_append_right _ hbundle)).2.1
  · intro hnone
    rw [hlast hnone]
    simp
  · intro t ht
    obtain ⟨l₃, rfl⟩ := hbefore t ht
    exact ⟨FIXED_BUNDLES.filter (fun fixed => fixed ∈ bundles) ++ l₁, l₃, by simp⟩
  · have hnone : (FIXED_BUNDLES.filter (fun fixed => fixed ∈ bundles)).filter
        (fun bundle => !fixedBundle bundle && bundle ≠ package) = [] := by
      rw [List.filter_eq_nil_iff]
      intro bundle hbundle
      rw [(hfixed bundle hbundle).1]
      simp
    have hall : (l₁ ++ l₂).filter (fun bundle => !fixedBundle bundle && bundle ≠ package) =
        l₁ ++ l₂ := by
      rw [List.filter_eq_self]
      intro bundle hbundle
      obtain ⟨-, hfree, hne⟩ := hrest bundle hbundle
      simp [hfree, hne]
    rw [hl, List.filter_append, hnone, List.nil_append, List.filter_append,
      List.filter_cons_of_neg (by simp), ← List.filter_append, hall]

/-! ## 3. Manifests and records -/

structure OrderUndo where
  schema : Nat
  profile : String
  home : String
  directory : String
  before : Bytes
  after : Bytes
  deriving DecidableEq, Repr

/-- A profile whose directory was found: its name, and the identities of the home and of the
directory. -/
structure Location where
  profile : String
  home : String
  directory : String
  deriving DecidableEq, Repr

/-- The manifests, by directory, and the records below `plugin-order-undo`, by profile and id. -/
structure OrderStore where
  manifests : String → Option Bytes
  records : String → AList fun _ : String => OrderUndo

def Location.manifest (l : Location) (s : OrderStore) : Option Bytes := s.manifests l.directory

namespace OrderStore

def record (s : OrderStore) (profile id : String) : Option OrderUndo := (s.records profile).lookup id

def setManifest (directory : String) (file : Option Bytes) (s : OrderStore) : OrderStore :=
  { s with manifests := Function.update s.manifests directory file }

def putRecord (profile id : String) (r : OrderUndo) (s : OrderStore) : OrderStore :=
  { s with records := Function.update s.records profile ((s.records profile).insert id r) }

def dropRecord (profile id : String) (s : OrderStore) : OrderStore :=
  { s with records := Function.update s.records profile ((s.records profile).erase id) }

variable (s : OrderStore) (profile id directory : String) (r : OrderUndo) (file : Option Bytes)

@[simp] theorem manifests_setManifest :
    (s.setManifest directory file).manifests = Function.update s.manifests directory file := rfl

@[simp] theorem manifests_putRecord : (s.putRecord profile id r).manifests = s.manifests := rfl

@[simp] theorem manifests_dropRecord : (s.dropRecord profile id).manifests = s.manifests := rfl

@[simp] theorem record_setManifest (p i : String) :
    (s.setManifest directory file).record p i = s.record p i := rfl

theorem record_putRecord (p i : String) :
    (s.putRecord profile id r).record p i =
      if p = profile ∧ i = id then some r else s.record p i := by
  unfold record putRecord
  by_cases hp : p = profile
  · rw [hp]
    simp only [Function.update_self, Table.lookup_insert, true_and]
  · simp only [Function.update_of_ne hp, hp, false_and, if_false]

theorem record_dropRecord (p i : String) :
    (s.dropRecord profile id).record p i =
      if p = profile ∧ i = id then none else s.record p i := by
  unfold record dropRecord
  by_cases hp : p = profile
  · rw [hp]
    simp only [Function.update_self, Table.lookup_erase, true_and]
  · simp only [Function.update_of_ne hp, hp, false_and, if_false]

end OrderStore

/-- The part of an id that `order_records` looks at. -/
def isOrderName (id : String) : Bool :=
  "order-".toList.isPrefixOf id.toList && (id.toList.drop 6).all Char.isDigit

/-- The check of an id in `order_record_path`. -/
def checkOrderId (id : String) : Except IoError Unit :=
  if isOrderName id = true ∧ id.utf8ByteSize ≤ 80 then .ok ()
  else .error ⟨.other, "Invalid order operation ID"⟩

/-- `format!("order-{}", unix_time_nanos_for_update())`. -/
def orderId (now : Nat) : String := "order-" ++ toString now

/-- `order_records`: the newest first. -/
def orderRecords (s : OrderStore) (profile : String) : Except IoError (List String) :=
  let ids := (s.records profile).keys.filter isOrderName
  if ids.length > 128 then
    .error ⟨.other, "Too many order recovery records; preserve them and export diagnostics"⟩
  else .ok (ids.insertionSort fun a b => b ≤ a)

def readOrderRecord (s : OrderStore) (profile id : String) : Except IoError OrderUndo :=
  match s.record profile id with
  | none => .error ⟨.other, "Order undo record is missing"⟩
  | some r =>
      if r.schema ≠ 1 ∨ r.before.length > MAX_PROFILE_MANIFEST_BYTES ∨
          r.after.length > MAX_PROFILE_MANIFEST_BYTES then
        .error ⟨.other, "Invalid order undo bounds"⟩
      else .ok r

/-- `serde_json`, and `generated_source_profile` of every profile, which no call changes. -/
structure OrderEnv where
  codec : ManifestCodec
  source : Location → Except IoError (Option String)

def currentManifest (file : Option Bytes) : Except IoError Bytes := do
  let some bytes ← readRegularFileBounded file MAX_PROFILE_MANIFEST_BYTES
    | throw ⟨.other, "Profile manifest is missing"⟩
  pure bytes

def checkMove (inventory : NativeProfile) (package : String) (target : Option String) :
    Except IoError Unit :=
  match inventory.sourceProfile with
  | some source =>
      .error ⟨.permissionDenied,
        "Generated compatibility profiles are read-only; reorder source profile " ++ source⟩
  | none =>
      if fixedBundle package = true ∨ package ∉ inventory.bundles then
        .error ⟨.invalidInput, "Only non-fixed loaded bundles can be moved"⟩
      else if target.any fun t =>
          fixedBundle t || decide (t = package) || decide (t ∉ inventory.bundles) then
        .error ⟨.invalidInput, "Move target must be another non-fixed loaded bundle"⟩
      else .ok ()

/-- The manifest with the list in its new order. -/
def reorderedManifest (codec : ManifestCodec) (bundles : List String) (package : String)
    (target : Option String) (before : Bytes) : Except IoError JsonValue := do
  let value ← (codec.decode before).mapError (⟨.other, ·⟩)
  if (profileMember value "bundles").any (sameValue · (.sequence (bundles.map text))) then
    pure (setBundles (reorder bundles package target) value)
  else throw ⟨.wouldBlock, "Profile bundles changed during reorder; refresh and retry"⟩

def checkUnchanged (file : Option Bytes) (before : Bytes) : Except IoError Unit := do
  let again ← readRegularFileBounded file MAX_PROFILE_MANIFEST_BYTES
  if again = some before then pure ()
  else throw ⟨.wouldBlock, "Profile manifest changed during reorder; refresh and retry"⟩

/-- `encode_json`, and the bound on the result. -/
def encodeManifest (codec : ManifestCodec) (value : JsonValue) : Except IoError Bytes := do
  let after ← (codec.encode value).mapError (⟨.other, ·⟩)
  if after.length > MAX_PROFILE_MANIFEST_BYTES then
    throw ⟨.other, "Profile manifest is too large"⟩
  pure after

section Calls

variable (env : OrderEnv)

/-- `native_profile` in a store. -/
def nativeProfile (l : Location) (s : OrderStore) : Except IoError NativeProfile :=
  nativeProfileOf env.codec (env.source l) l.profile (l.manifest s)

/-- What a move does before it writes anything: the bytes of the manifest and those that are to
replace them. -/
def planMove (l : Location) (package : String) (target : Option String) (s : OrderStore) :
    Except IoError (Bytes × Bytes) := do
  let inventory ← nativeProfile env l s
  let before ← currentManifest (l.manifest s)
  checkMove inventory package target
  let value ← reorderedManifest env.codec inventory.bundles package target before
  checkUnchanged (l.manifest s) before
  let after ← encodeManifest env.codec value
  pure (before, after)

/-- `fs::hard_link` of the temporary file, which does not replace a record. -/
def linkRecord (profile id : String) (r : OrderUndo) : Program OrderStore IoError Unit := do
  let s ← Program.read
  if (s.record profile id).isSome then throw ⟨.alreadyExists, "File exists"⟩
  else Program.durable fileOperationFailed (OrderStore.putRecord profile id r)

/-- Publish a record: the directories, the temporary file, the link, and the temporary file is
removed. -/
def publishRecord (profile id : String) (r : OrderUndo) : Program OrderStore IoError Unit := do
  Program.ofExcept (checkOrderId id)
  Program.attempt fileOperationFailed
  Program.attempt fileOperationFailed
  let published ← Program.toExcept (linkRecord profile id r)
  Program.ignoreError (Program.attempt fileOperationFailed)
  Program.ofExcept published

/-- `let _ = fs::remove_file(record)`. -/
def removeRecord (profile id : String) : Program OrderStore IoError Unit :=
  Program.ignoreError
    (Program.durable fileOperationFailed (OrderStore.dropRecord profile id))

/-- Replace the manifest, if it still holds `before`; the record goes if it is not replaced. -/
def replaceManifest (l : Location) (id : String) (before after : Bytes) :
    Program OrderStore IoError Unit := do
  let file ← readFile l.manifest MAX_PROFILE_MANIFEST_BYTES
  if file ≠ some before then do
    removeRecord l.profile id
    throw ⟨.wouldBlock, "Profile manifest changed during reorder"⟩
  else
    tryCatch (Program.durable fileOperationFailed (OrderStore.setManifest l.directory (some after)))
      fun e => do
        let s ← Program.read
        if readRegularFileBounded (l.manifest s) MAX_PROFILE_MANIFEST_BYTES = .ok (some before) then
          removeRecord l.profile id
        throw e

/-- One older record, which goes if it is of the same location. -/
def forgetRecord (l : Location) (id old : String) : Program OrderStore IoError PUnit := do
  let s ← Program.read
  match readOrderRecord s l.profile old with
  | .ok saved =>
      if old ≠ id ∧ saved.home = l.home ∧ saved.directory = l.directory then
        removeRecord l.profile old
      else pure ()
  | .error _ => pure ()

def forgetRecords (l : Location) (id : String) : Program OrderStore IoError Unit := do
  let olds ← Program.inspect fun s => orderRecords s l.profile
  olds.forM (forgetRecord l id)

def moveProfilePlugin (l : Location) (package : String) (target : Option String) (now : Nat) :
    Program OrderStore IoError NativeProfile := do
  Program.attempt fileOperationFailed
  let (before, after) ← Program.inspect (planMove env l package target)
  if before = after then Program.inspect (nativeProfile env l)
  else do
    let id := orderId now
    publishRecord l.profile id ⟨1, l.profile, l.home, l.directory, before, after⟩
    replaceManifest l id before after
    forgetRecords l id
    let inventory ← Program.inspect (nativeProfile env l)
    pure { inventory with orderUndoId := some id }

/-- The checks of an undo, with its record. -/
def readUndo (l : Location) (id : String) (s : OrderStore) : Except IoError OrderUndo := do
  let inventory ← nativeProfile env l s
  if inventory.sourceProfile.isSome then throw ⟨.other, "Generated profiles are read-only"⟩
  checkOrderId id
  let saved ← readOrderRecord s l.profile id
  if saved.profile ≠ l.profile ∨ saved.home ≠ l.home ∨ saved.directory ≠ l.directory then
    throw ⟨.other, "Order undo belongs to a different profile location"⟩
  let current ← currentManifest (l.manifest s)
  if current ≠ saved.after then
    throw ⟨.wouldBlock, "Profile manifest changed after reorder; undo will not overwrite it"⟩
  let _ ← (env.codec.decode saved.before).mapError
    fun _ => ⟨.other, "Invalid original profile manifest"⟩
  pure saved

def undoProfileOrder (l : Location) (id : String) : Program OrderStore IoError NativeProfile := do
  Program.attempt fileOperationFailed
  let saved ← Program.inspect (readUndo env l id)
  Program.durable fileOperationFailed (OrderStore.setManifest l.directory (some saved.before))
  removeRecord l.profile id
  Program.inspect (nativeProfile env l)

/-- The first record in a list whose undo fits the manifest. -/
def findUndo (s : OrderStore) (l : Location) (current : Option Bytes) :
    List String → Except IoError (Option String)
  | [] => .ok none
  | id :: ids => do
      let saved ← readOrderRecord s l.profile id
      if saved.profile = l.profile ∧ saved.home = l.home ∧ saved.directory = l.directory ∧
          current = some saved.after then
        pure (some id)
      else findUndo s l current ids

def orderUndoId (s : OrderStore) (l : Location) : Except IoError (Option String) := do
  let current ← readRegularFileBounded (l.manifest s) MAX_PROFILE_MANIFEST_BYTES
  let ids ← orderRecords s l.profile
  findUndo s l current ids

/-- What happens to a store: a move at a time of the clock, an undo, and an edit of a manifest by
somebody else. -/
inductive OrderCall where
  | move (l : Location) (package : String) (target : Option String) (now : Nat)
  | undo (l : Location) (id : String)
  | edit (directory : String) (file : Option Bytes)

def orderCall : OrderCall → Program OrderStore IoError (Option NativeProfile)
  | .move l package target now => some <$> moveProfilePlugin env l package target now
  | .undo l id => some <$> undoProfileOrder env l id
  | .edit directory file => do
      Program.durable fileOperationFailed (OrderStore.setManifest directory file)
      pure none

end Calls

/-! ## 4. What a move makes of the bytes -/

/-- Two manifests agree but for the list of bundles. -/
structure OnlyBundles (m m' : JsonValue) : Prop where
  top : ∀ k, k ≠ "dsh" → member m' k = member m k
  dsh : ∀ k, k ≠ "profile" → ((member m' "dsh").bind fun v => member v k) =
    (member m "dsh").bind fun v => member v k
  profile : ∀ k, k ≠ "bundles" → profileMember m' k = profileMember m k

def Lists (value : JsonValue) (names : List String) : Prop :=
  profileMember value "bundles" = some (.sequence (names.map text))

/-- **What a move makes of a manifest.** -/
def Moves (codec : ManifestCodec) (package : String) (target : Option String)
    (before after : Bytes) : Prop :=
  ∃ value value' bundles ordered, codec.decode before = .ok value ∧
    codec.decode after = .ok value' ∧ Lists value bundles ∧ Lists value' ordered ∧
    bundles.Nodup ∧ Reordered bundles package target ordered ∧ OnlyBundles value value'

section SetBundles

variable {value : JsonValue} {names : List String}

theorem profileOf_setBundles : profileOf (setBundles names value) =
    (profileOf value).map (mapMember "bundles" fun _ => .sequence (names.map text)) := by
  unfold profileOf setBundles
  rw [member_mapMember, if_pos rfl, Option.bind_map]
  cases member value "dsh" with
  | none => rfl
  | some dsh =>
    change member (mapMember "profile" _ dsh) "profile" = _
    rw [member_mapMember, if_pos rfl]
    rfl

theorem profileMember_setBundles (k : String) : profileMember (setBundles names value) k =
    if k = "bundles" then (profileMember value k).map fun _ => .sequence (names.map text)
    else profileMember value k := by
  rw [profileMember_eq, profileMember_eq, profileOf_setBundles, Option.bind_map]
  cases profileOf value with
  | none => simp
  | some profile =>
    change member (mapMember "bundles" _ profile) k = _
    rw [member_mapMember]
    split
    · next hk => rw [hk]; rfl
    · rfl

theorem onlyBundles_setBundles : OnlyBundles value (setBundles names value) where
  top k hk := by
    unfold setBundles
    rw [member_mapMember, if_neg hk]
  dsh k hk := by
    unfold setBundles
    rw [member_mapMember, if_pos rfl, Option.bind_map]
    refine Option.bind_congr fun dsh _ => ?_
    change member (mapMember "profile" _ dsh) k = _
    rw [member_mapMember, if_neg hk]
  profile k hk := by rw [profileMember_setBundles, if_neg hk]

theorem Lists.setBundles {bundles : List String} (h : Lists value bundles) :
    Lists (setBundles names value) names := by
  unfold Lists at h ⊢
  rw [profileMember_setBundles, if_pos rfl, h]
  rfl

theorem readVersions_setBundles : readVersions (setBundles names value) = readVersions value := by
  unfold readVersions
  rw [onlyBundles_setBundles.top "dependencies" (by decide)]

end SetBundles

theorem eq_text_of_asStr {value : JsonValue} {name : String} (h : asStr value = some name) :
    value = text name := by
  unfold asStr at h
  split at h
  · rw [Option.some.inj h]
    rfl
  · cases h

theorem foldlM_readBundle {items : List JsonValue} {bundles names : List String} :
    items.foldlM readBundle bundles = .ok names ↔ ∃ new, items = new.map text ∧
      names = bundles ++ new ∧ (∀ b ∈ new, validPackageName b = true ∧ b ∉ bundles) ∧
      new.Nodup := by
  induction items generalizing bundles with
  | nil =>
    rw [List.foldlM_nil]
    constructor
    · intro h
      exact ⟨[], rfl, by rw [List.append_nil, Except.ok.inj h], by simp, List.nodup_nil⟩
    · rintro ⟨new, hnil, rfl, -, -⟩
      rw [List.map_eq_nil_iff.mp hnil.symm, List.append_nil]
      rfl
  | cons item items ih =>
    rw [List.foldlM_cons, bind_eq_ok_iff]
    constructor
    · rintro ⟨bundles', hitem, hitems⟩
      unfold readBundle at hitem
      cases hname : (asStr item).filter validPackageName with
      | none =>
        rw [hname] at hitem
        cases hitem
      | some name =>
        rw [hname] at hitem
        dsimp only at hitem
        split at hitem
        · cases hitem
        · next hfresh =>
          obtain rfl := Except.ok.inj hitem
          obtain ⟨new, rfl, rfl, hnew, hdistinct⟩ := ih.mp hitems
          rw [Option.filter_eq_some_iff] at hname
          refine ⟨name :: new, ?_, by simp, ?_, ?_⟩
          · rw [eq_text_of_asStr hname.1]
            rfl
          · intro b hb
            rcases List.mem_cons.mp hb with rfl | hb
            · exact ⟨hname.2, hfresh⟩
            · exact ⟨(hnew b hb).1, fun hmem => (hnew b hb).2 (List.mem_append_left _ hmem)⟩
          · rw [List.nodup_cons]
            refine ⟨fun hmem => (hnew name hmem).2 ?_, hdistinct⟩
            exact List.mem_append_right _ (List.mem_singleton_self name)
    · rintro ⟨new, hcons, rfl, hnew, hdistinct⟩
      cases new with
      | nil => cases hcons
      | cons name new =>
        rw [List.map_cons, List.cons.injEq] at hcons
        obtain ⟨rfl, rfl⟩ := hcons
        rw [List.nodup_cons] at hdistinct
        obtain ⟨hvalid, hfresh⟩ := hnew name List.mem_cons_self
        refine ⟨bundles ++ [name], ?_, ih.mpr ⟨new, rfl, by simp, ?_, hdistinct.2⟩⟩
        · unfold readBundle
          rw [asStr_text, Option.filter_some, if_pos hvalid]
          exact if_neg hfresh
        · intro b hb
          obtain ⟨hb', hnot⟩ := hnew b (List.mem_cons_of_mem _ hb)
          refine ⟨hb', fun hmem => ?_⟩
          rcases List.mem_append.mp hmem with hmem | hmem
          · exact hnot hmem
          · rw [List.mem_singleton.mp hmem] at hb
            exact hdistinct.1 hb

/-- **A list of bundles that is read**: distinct valid names. -/
theorem readBundleList_eq_ok {value : JsonValue} {names : List String} :
    readBundleList value = .ok names ↔
      Lists value names ∧ names.Nodup ∧ ∀ b ∈ names, validPackageName b = true := by
  unfold readBundleList Lists
  cases hmember : profileMember value "bundles" with
  | none => simp
  | some list =>
    rw [Option.bind_some]
    cases list with
    | sequence items =>
      change items.foldlM readBundle [] = .ok names ↔ _
      rw [foldlM_readBundle]
      constructor
      · rintro ⟨new, rfl, rfl, hnew, hdistinct⟩
        exact ⟨rfl, hdistinct, fun b hb => (hnew b hb).1⟩
      · rintro ⟨heq, hdistinct, hvalid⟩
        refine ⟨names, ?_, rfl, fun b hb => ⟨hvalid b hb, List.not_mem_nil⟩, hdistinct⟩
        exact Tree.sequence.inj (Option.some.inj heq)
    | scalar s => simp [asArray]
    | mapping members => simp [asArray]
    | tagged tag v => exact tag.elim

/-- The bytes are a manifest with this value and these bundles. -/
structure Loads (codec : ManifestCodec) (bytes : Bytes) (value : JsonValue) (names : List String) :
    Prop where
  bounded : bytes.length ≤ MAX_PROFILE_MANIFEST_BYTES
  decode : codec.decode bytes = .ok value
  bundles : readBundleList value = .ok names
  versions : ∃ versions, readVersions value = .ok versions

theorem mapError_eq_ok {ε ε' α : Type} {f : ε → ε'} {x : Except ε α} {a : α} :
    x.mapError f = .ok a ↔ x = .ok a := by
  cases x with
  | ok b => exact Iff.intro (fun h => by rw [Except.ok.inj h]) fun h => by rw [h]; rfl
  | error e => exact iff_of_false (by simp [Except.mapError]) (by simp)

theorem nativeProfileOf_eq_ok {codec : ManifestCodec} {source : Except IoError (Option String)}
    {profile : String} {file : Option Bytes} {names : List String} {origin : Option String} :
    (∃ p, nativeProfileOf codec source profile file = .ok p ∧ p.bundles = names ∧
        p.sourceProfile = origin) ↔
      ∃ bytes value, file = some bytes ∧ Loads codec bytes value names ∧ source = .ok origin := by
  unfold nativeProfileOf
  cases file with
  | none => exact iff_of_false (by rintro ⟨p, h, -⟩; cases h) (by simp)
  | some bytes =>
    dsimp only
    constructor
    · rintro ⟨p, h, rfl, rfl⟩
      rw [guard_eq_ok] at h
      obtain ⟨hbounded, h⟩ := h
      obtain ⟨value, hvalue, h⟩ := bind_eq_ok h
      obtain ⟨bundles, hbundles, h⟩ := bind_eq_ok h
      obtain ⟨versions, hversions, h⟩ := bind_eq_ok h
      obtain ⟨origin, horigin, h⟩ := bind_eq_ok h
      obtain rfl := Except.ok.inj h
      exact ⟨bytes, value, rfl, ⟨Nat.le_of_not_lt hbounded, mapError_eq_ok.mp hvalue, hbundles,
        versions, hversions⟩, horigin⟩
    · rintro ⟨bytes', value, heq, hloads, rfl⟩
      obtain rfl := Option.some.inj heq
      obtain ⟨hbounded, hdecode, hbundles, versions, hversions⟩ := hloads
      refine ⟨⟨profile, none, origin, names, pluginsOf value names versions⟩, ?_, rfl, rfl⟩
      rw [guard_eq_ok]
      refine ⟨Nat.not_lt.mpr hbounded, ?_⟩
      refine bind_eq_ok_iff.mpr ⟨value, mapError_eq_ok.mpr hdecode, ?_⟩
      rw [hbundles, hversions]
      rfl

theorem currentManifest_eq_ok {file : Option Bytes} {bytes : Bytes} :
    currentManifest file = .ok bytes ↔
      file = some bytes ∧ bytes.length ≤ MAX_PROFILE_MANIFEST_BYTES := by
  unfold currentManifest readRegularFileBounded
  cases file with
  | none => exact iff_of_false (by intro h; cases h) (by simp)
  | some bytes' =>
    dsimp only
    by_cases hbound : bytes'.length > MAX_PROFILE_MANIFEST_BYTES
    · rw [if_pos hbound]
      refine iff_of_false (by intro h; cases h) ?_
      rintro ⟨heq, hle⟩
      obtain rfl := Option.some.inj heq
      omega
    · rw [if_neg hbound]
      constructor
      · intro h
        obtain rfl := Except.ok.inj h
        exact ⟨rfl, Nat.le_of_not_lt hbound⟩
      · rintro ⟨heq, -⟩
        obtain rfl := Option.some.inj heq
        rfl

theorem checkMove_eq_ok {inventory : NativeProfile} {package : String} {target : Option String}
    (h : checkMove inventory package target = .ok ()) :
    inventory.sourceProfile = none ∧ Movable inventory.bundles package target := by
  unfold checkMove at h
  cases hsource : inventory.sourceProfile with
  | some source =>
    rw [hsource] at h
    cases h
  | none =>
    rw [hsource] at h
    dsimp only at h
    split at h
    · cases h
    · next hpackage =>
      split at h
      · cases h
      · next htarget =>
        rw [not_or, not_not, Bool.not_eq_true] at hpackage
        refine ⟨rfl, hpackage.1, hpackage.2, ?_⟩
        rintro t rfl
        simpa [and_assoc] using htarget

/-- **A plan of a move**: the manifest as it is, and one that is a move of it and is read again. -/
theorem of_planMove {env : OrderEnv} {l : Location} {package : String} {target : Option String}
    {s : OrderStore} {before after : Bytes}
    (h : planMove env l package target s = .ok (before, after)) :
    s.manifests l.directory = some before ∧ env.source l = .ok none ∧
      Moves env.codec package target before after ∧
      (∃ value names, Loads env.codec before value names) ∧
      ∃ value names, Loads env.codec after value names := by
  obtain ⟨inventory, hinventory, h⟩ := bind_eq_ok h
  obtain ⟨before', hbefore, h⟩ := bind_eq_ok h
  obtain ⟨⟨⟩, hcheck, h⟩ := bind_eq_ok h
  obtain ⟨value', hvalue', h⟩ := bind_eq_ok h
  obtain ⟨-, -, h⟩ := bind_eq_ok h
  obtain ⟨after', hafter, h⟩ := bind_eq_ok h
  obtain ⟨rfl, rfl⟩ := Prod.mk.inj (Except.ok.inj h)
  obtain ⟨hfile, hbounded⟩ := currentManifest_eq_ok.mp hbefore
  obtain ⟨hsource, hmovable⟩ := checkMove_eq_ok hcheck
  obtain ⟨bytes, value, heq, hloads, horigin⟩ :=
    nativeProfileOf_eq_ok.mp ⟨inventory, hinventory, rfl, rfl⟩
  obtain rfl := Option.some.inj (hfile.symm.trans heq)
  obtain ⟨hlists, hdistinct, hvalid⟩ := readBundleList_eq_ok.mp hloads.bundles
  obtain ⟨value₁, hdecode, hset⟩ := bind_eq_ok hvalue'
  rw [mapError_eq_ok, hloads.decode] at hdecode
  obtain rfl := Except.ok.inj hdecode
  have hvalue : value' = setBundles (reorder inventory.bundles package target) value := by
    split at hset
    · exact (Except.ok.inj hset).symm
    · cases hset
  obtain ⟨bytes', hencode, hfits⟩ := bind_eq_ok hafter
  rw [mapError_eq_ok, hvalue] at hencode
  rw [guard_eq_ok] at hfits
  obtain ⟨hfits, hsame⟩ := hfits
  obtain rfl := Except.ok.inj hsame
  have hread := env.codec.reads hloads.decode hencode
  have hreordered := reordered_reorder hdistinct hmovable
  refine ⟨hfile, horigin.trans (congrArg Except.ok hsource), ?_, ⟨value, _, hloads⟩, ?_⟩
  · exact ⟨value, _, inventory.bundles, _, hloads.decode, hread, hlists, hlists.setBundles,
      hdistinct, hreordered, onlyBundles_setBundles⟩
  · refine ⟨_, reorder inventory.bundles package target, Nat.le_of_not_lt hfits, hread, ?_, ?_⟩
    · rw [readBundleList_eq_ok]
      refine ⟨hlists.setBundles, hreordered.perm.nodup_iff.mpr hdistinct, ?_⟩
      exact fun b hb => hvalid b (hreordered.perm.mem_iff.mp hb)
    · rw [readVersions_setBundles]
      exact hloads.versions

end DshNexus.Agent.PluginMoves
