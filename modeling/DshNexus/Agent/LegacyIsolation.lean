import DshNexus.Agent.PluginOrder

/-!
# Legacy isolation files

A profile of an older version lists its disabled plugins in a file of its own.  Three parts of the
agent read that file: `disabled_plugins` and `set_plugin_disabled` of
`crates/nexus-agent/src/compatibility.rs`, and `sourceInfo` of `compatibility.mjs`.  At a launch
`prepare` brings the file in by disabling its first plugin.

1. `sourceInfo`, the JavaScript reader.
2. `importAtLaunch`, the step of `prepare`.
3. `readBundles_spec`: what bringing a file in does to the bundles and the records.
4. `disabledPlugins_spec` and `sourceInfo_spec`: what the two readers report.
5. `legacy_imported_cleanly_iff`: when a launch brings a file in and all readers agree.

The readers part company at a stale name, that is one that is neither a bundle of the profile nor
recorded as disabled: the Rust reader reports it, the JavaScript reader drops it, and as the first
name of the file it makes the import fail.
-/

namespace DshNexus.Agent.Plugins

open Document Snapshot

/-! ## 1. The JavaScript reader -/

/-- A character of `[\w.-]`. -/
def isPackageChar (c : Char) : Bool := c.isAlphanum || c = '_' || c = '.' || c = '-'

/-- `validPackage`: one segment, or a scope and one segment, and none of them a dot path. -/
def validPackage (name : String) : Bool :=
  let plain : List Char → Bool := fun segment => !segment.isEmpty && segment.all isPackageChar
  let segments := name.toList.splitOn '/'
  (match segments with
    | [segment] => plain segment
    | ['@' :: scope, segment] => plain scope && plain segment
    | _ => false) && segments.all fun segment => segment ≠ ['.'] && segment ≠ ['.', '.']

/-- The value of a JSON number as JavaScript compares it with 1. -/
structure JsNumbers where
  isOne : String → Bool
  isOne_toString : ∀ n : Nat, isOne (toString n) = decide (n = 1)

/-- `manifest.dsh?.profile?.nexusIsolationPolicyVersion === 1`. -/
def jsImported (js : JsNumbers) (manifest : JsonValue) : Bool :=
  match profileMember manifest "nexusIsolationPolicyVersion" with
  | some (.scalar (.number literal)) => js.isOne literal
  | _ => false

/-- `[...new Set(names)]`. -/
def distinctNames (names : List String) : List String :=
  names.foldl (fun seen name => if seen.contains name then seen else seen ++ [name]) []

/-- `value ?? []`. -/
def orEmpty (value : Option JsonValue) : JsonValue :=
  match value with
  | none => .sequence []
  | some (.scalar .null) => .sequence []
  | some value => value

def jsBundles (manifest : JsonValue) : Except String (List String) :=
  match ((profileMember manifest "bundles").bind asArray).bind fun items => items.mapM asStr with
  | some names =>
      if names.all validPackage then .ok names else .error "Unsupported profile bundle manifest"
  | none => .error "Unsupported profile bundle manifest"

/-- The choices of a legacy file, or an error. -/
def jsChoices (value : JsonValue) : Except String (List String) :=
  match (asArray value).bind fun items => items.mapM asStr with
  | some names =>
      if names.all fun p => validPackage p && !isOfficial p then .ok names
      else .error "Invalid plugin isolation policy"
  | none => .error "Invalid plugin isolation policy"

/-- The packages of the records, or an error. -/
def jsSaved (manifest : JsonValue) : Except String (List String) :=
  match (asArray (orEmpty (profileMember manifest "nexusDisabledBundles"))).bind
      fun items => items.mapM packageOf with
  | some names =>
      if names.all validPackage then .ok names else .error "Invalid disabled bundle metadata"
  | none => .error "Invalid disabled bundle metadata"

/-- `manualDisabled` of `sourceInfo`. -/
def sourceInfo (js : JsNumbers) (store : PluginStore) : Except String (List String) := do
  let some file := store.package | throw "ENOENT: no such file or directory"
  let bundles ← jsBundles file.value
  let manualDisabled ←
    match store.legacy with
    | some policy =>
        if jsImported js file.value then pure []
        else do
          let choices ← jsChoices policy.value
          pure ((distinctNames choices).filter fun p => bundles.contains p)
    | none => pure []
  let saved ← jsSaved file.value
  pure (distinctNames (manualDisabled ++ saved.filter fun name => !bundles.contains name))

/-! ## 2. The import at a launch -/

/-- The legacy names as `prepare` reads them: none where the manifest says they are in. -/
def pendingLegacy (store : PluginStore) : Except IoError (List String) := do
  let legacy ← readLegacy store.legacy
  match readPlainJson store.package with
  | .ok manifest => pure (if imported manifest then [] else legacy)
  | .error _ => pure legacy

/-- The step of `prepare` that brings the legacy file in, when no file operation fails. -/
def importAtLaunch (encodedLength : JsonValue → Nat) (store : PluginStore) :
    Except IoError PluginStore := do
  let legacy ← pendingLegacy store
  match legacy.head? with
  | none => pure store
  | some package => setPluginDisabled encodedLength store ⟨package, true, .ok (), .ok ()⟩

/-! ## 3. Bringing a file in -/

def recorded (records : List JsonValue) : List String := records.filterMap packageOf

theorem findRecord_isSome {records : List JsonValue} {package : String} :
    (findRecord records package).isSome = true ↔ package ∈ recorded records := by
  unfold findRecord recorded
  rw [List.find?_isSome, List.mem_filterMap]
  simp only [decide_eq_true_eq]

theorem recorded_append (records records' : List JsonValue) :
    recorded (records ++ records') = recorded records ++ recorded records' :=
  List.filterMap_append

@[simp] theorem packageOf_newRecord (package : String) (index : Nat) (following : List JsonValue) :
    packageOf (newRecord package index following) = some package := rfl

/-- Taking one bundle out of a list of names. -/
theorem isolate_names {names : List String} (hdistinct : names.Nodup) (records : List JsonValue)
    (package : String) :
    ∃ records', isolate (names.map text) records package =
        ((names.filter fun x => x ≠ package).map text, records') ∧
      ((∀ r ∈ records, (packageOf r).isSome) → ∀ r ∈ records', (packageOf r).isSome) ∧
      ∀ x, x ∈ recorded records' ↔ x ∈ recorded records ∨ (x = package ∧ x ∈ names) := by
  unfold isolate
  rw [position_map]
  cases hposition : Listing.position names package with
  | none =>
    have hnot : package ∉ names := position_eq_none.mp hposition
    refine ⟨records, ?_, fun h => h, fun x => (or_iff_left ?_).symm⟩
    · rw [List.filter_eq_self.mpr]
      intro x hx
      rw [decide_eq_true_eq]
      rintro rfl
      exact hnot hx
    · rintro ⟨rfl, hmem⟩
      exact hnot hmem
  | some index =>
    rw [Listing.position, List.findIdx?_eq_some_iff_getElem] at hposition
    obtain ⟨hlt, hat, -⟩ := hposition
    rw [decide_eq_true_eq] at hat
    have hmem : package ∈ names := hat ▸ List.getElem_mem hlt
    have herase : (names.map text).eraseIdx index = (names.filter fun x => x ≠ package).map text := by
      rw [List.eraseIdx_map, ← hdistinct.erase_getElem index hlt, hat, hdistinct.erase_eq_filter]
      congr 1
      refine List.filter_congr fun x _ => ?_
      by_cases hx : x = package <;> simp [hx]
    dsimp only
    rw [herase]
    refine ⟨_, rfl, fun h r hr => ?_, fun x => ?_⟩
    · split at hr
      · exact h r hr
      · rcases List.mem_append.mp hr with hr | hr
        · exact h r hr
        · rw [List.mem_singleton.mp hr]
          rfl
    · split
      · next hfound =>
        rw [findRecord_isSome] at hfound
        refine (or_iff_left_of_imp ?_).symm
        rintro ⟨rfl, -⟩
        exact hfound
      · rw [recorded_append, List.mem_append]
        refine or_congr_right ?_
        change x ∈ [package] ↔ _
        rw [List.mem_singleton]
        constructor
        · rintro rfl
          exact ⟨rfl, hmem⟩
        · exact And.left

/-- **Bringing a list of third-party names in**: the bundles that are listed are taken out, and each
of them has a record. -/
theorem importLegacy_names {legacy : List String} (hthird : ∀ p ∈ legacy, isOfficial p = false)
    {names : List String} (hdistinct : names.Nodup) {records : List JsonValue}
    (hrecords : ∀ r ∈ records, (packageOf r).isSome) :
    ∃ records', importLegacy legacy (names.map text) records =
        .ok ((names.filter fun x => x ∉ legacy).map text, records') ∧
      (∀ r ∈ records', (packageOf r).isSome) ∧
      ∀ x, x ∈ recorded records' ↔ x ∈ recorded records ∨ (x ∈ legacy ∧ x ∈ names) := by
  unfold importLegacy
  induction legacy generalizing names records with
  | nil =>
    refine ⟨records, ?_, hrecords, fun x => ?_⟩
    · rw [List.filter_eq_self.mpr fun x _ => by simp]
      rfl
    · simp
  | cons package legacy ih =>
    obtain ⟨records₁, hisolate, hsome, hrecorded⟩ := isolate_names hdistinct records package
    have hitem : importItem (names.map text, records) package =
        .ok ((names.filter fun x => x ≠ package).map text, records₁) := by
      rw [importItem, hthird package List.mem_cons_self]
      exact congrArg Except.ok hisolate
    obtain ⟨records', hrest, hsome', hrecorded'⟩ :=
      ih (fun p hp => hthird p (List.mem_cons_of_mem _ hp)) (hdistinct.filter _)
        (hsome hrecords)
    refine ⟨records', ?_, hsome', fun x => ?_⟩
    · rw [List.foldlM_cons, hitem]
      change legacy.foldlM importItem _ = _
      rw [hrest, List.filter_filter]
      congr 4
      funext x
      by_cases hx : x = package <;> simp [hx]
    · rw [hrecorded', hrecorded, List.mem_cons, List.mem_filter, decide_eq_true_eq]
      by_cases hx : x = package
      · rw [hx]
        simp
      · simp [hx]

/-! ## 4. What the readers report -/

/-- A profile whose bundles are distinct package names, with a legacy file that is a list of
third-party names.  The marker, if it is a number, is a natural one. -/
structure LegacyProfile (store : PluginStore) (file : JsonFile) (names : List String)
    (records : List JsonValue) (legacy : List String) : Prop where
  package : store.package = some file
  bundles : profileMember file.value "bundles" = some (.sequence (names.map text))
  distinct : names.Nodup
  valid : ∀ name ∈ names, validPackage name = true
  records_eq : asArray ((profileMember file.value "nexusDisabledBundles").getD (.sequence [])) =
    some records
  packages : ∀ r ∈ records, ∃ p, packageOf r = some p ∧ validPackage p = true
  policy : ∃ f, store.legacy = some f ∧ f.value = .sequence (legacy.map text) ∧
    f.length ≤ 64 * 1024
  third_party : ∀ p ∈ legacy, validPackage p = true ∧ isOfficial p = false
  marker : ∀ literal, profileMember file.value "nexusIsolationPolicyVersion" =
    some (.scalar (.number literal)) → ∃ n : Nat, literal = toString n

theorem mem_distinctNames {names : List String} {x : String} :
    x ∈ distinctNames names ↔ x ∈ names := by
  unfold distinctNames
  have hfold : ∀ (names seen : List String), x ∈ names.foldl (fun seen name =>
      if seen.contains name then seen else seen ++ [name]) seen ↔ x ∈ seen ∨ x ∈ names := by
    intro names
    induction names with
    | nil => simp
    | cons name names ih =>
      intro seen
      rw [List.foldl_cons, ih, List.mem_cons]
      split
      · next hseen =>
        rw [List.contains_iff_mem] at hseen
        constructor
        · rintro (h | h)
          · exact Or.inl h
          · exact Or.inr (Or.inr h)
        · rintro (h | rfl | h)
          · exact Or.inl h
          · exact Or.inl hseen
          · exact Or.inr h
      · rw [List.mem_append, List.mem_singleton, or_assoc]
  rw [hfold, or_iff_right List.not_mem_nil]

theorem mapM_asStr (names : List String) : (names.map text).mapM asStr = some names := by
  induction names with
  | nil => rfl
  | cons name names ih => simp [List.mapM_cons, ih]

theorem bind_asArray_texts (names : List String) :
    ((asArray (.sequence (names.map text))).bind fun items => items.mapM asStr) = some names :=
  mapM_asStr names

theorem mapM_packageOf {records : List JsonValue} (h : ∀ r ∈ records, (packageOf r).isSome) :
    records.mapM packageOf = some (recorded records) := by
  induction records with
  | nil => rfl
  | cons r records ih =>
    obtain ⟨p, hp⟩ := Option.isSome_iff_exists.mp (h r List.mem_cons_self)
    rw [List.mapM_cons, ih fun r' hr' => h r' (List.mem_cons_of_mem _ hr'), hp, recorded, recorded,
      List.filterMap_cons_some hp]
    rfl

section Readers

variable {js : JsNumbers} {store : PluginStore} {file : JsonFile} {names legacy : List String}
  {records : List JsonValue}

theorem LegacyProfile.packageOf_isSome (h : LegacyProfile store file names records legacy) :
    ∀ r ∈ records, (packageOf r).isSome = true := by
  intro r hr
  obtain ⟨p, hp, -⟩ := h.packages r hr
  rw [hp]
  rfl

theorem LegacyProfile.recorded_valid (h : LegacyProfile store file names records legacy) :
    ∀ p ∈ recorded records, validPackage p = true := by
  intro p hp
  obtain ⟨r, hr, hpr⟩ := List.mem_filterMap.mp hp
  obtain ⟨q, hq, hvalid⟩ := h.packages r hr
  rw [Option.some.inj (hpr.symm.trans hq)]
  exact hvalid

theorem LegacyProfile.readLegacy (h : LegacyProfile store file names records legacy) :
    readLegacy store.legacy = .ok legacy := by
  obtain ⟨f, hf, hvalue, hfits⟩ := h.policy
  have hread : readPlainJson (some f) = .ok (.sequence (legacy.map text)) := by
    rw [readPlainJson, if_neg (Nat.not_lt.mpr hfits), hvalue]
  have hnames : (Except.ok (Tree.sequence (legacy.map text)) : Except IoError JsonValue) =
      pure (Tree.sequence (legacy.map text)) := rfl
  rw [hf, Plugins.readLegacy, hread, hnames, pure_bind, bind_asArray_texts]

theorem LegacyProfile.jsImported_eq (h : LegacyProfile store file names records legacy) :
    jsImported js file.value = imported file.value := by
  unfold jsImported imported
  rcases hmarker : profileMember file.value "nexusIsolationPolicyVersion" with _ | v
  · rfl
  · rcases v with (_ | b | literal | s) | items | members | ⟨tag, v⟩
    · rfl
    · rfl
    · obtain ⟨n, rfl⟩ := h.marker literal hmarker
      change js.isOne (toString n) = decide (asU64 (number n) = some 1)
      rw [js.isOne_toString, decide_eq_decide]
      change _ ↔ parseUsize (toString n) = some 1
      rw [parseUsize_toString]
      split
      · rw [Option.some.injEq]
      · next hlarge => exact iff_of_false (by omega) (by simp)
    · rfl
    · rfl
    · rfl
    · exact tag.elim

theorem foldlM_addDisabled_names
    (hbundles : profileMember file.value "bundles" = some (.sequence (names.map text)))
    (hrecords : ∀ r ∈ records, (packageOf r).isSome) (reported : List String) :
    ∃ disabled, records.foldlM (addDisabled file.value) reported = .ok disabled ∧
      ∀ x, x ∈ disabled ↔ x ∈ reported ∨ (x ∈ recorded records ∧ x ∉ names) := by
  induction records generalizing reported with
  | nil => exact ⟨reported, rfl, fun x => by simp [recorded]⟩
  | cons r records ih =>
    obtain ⟨p, hp⟩ := Option.isSome_iff_exists.mp (hrecords r List.mem_cons_self)
    have henabled : (((profileMember file.value "bundles").bind asArray).any fun bundles =>
        (position bundles p).isSome) = decide (p ∈ names) := by
      rw [hbundles]
      change (position (names.map text) p).isSome = _
      rw [position_map, Bool.eq_iff_iff, position_isSome, decide_eq_true_eq]
    have hadd : addDisabled file.value reported r =
        .ok (if p ∈ names ∨ p ∈ reported then reported else reported ++ [p]) := by
      unfold addDisabled
      rw [hp]
      dsimp only
      rw [henabled]
      by_cases hname : p ∈ names
      · simp [hname]
      · by_cases hreported : p ∈ reported
        · simp [hname, hreported]
        · simp [hname, hreported]
    obtain ⟨disabled, hrest, hdisabled⟩ := ih
      (fun r' hr' => hrecords r' (List.mem_cons_of_mem _ hr'))
      (if p ∈ names ∨ p ∈ reported then reported else reported ++ [p])
    refine ⟨disabled, ?_, fun x => ?_⟩
    · rw [List.foldlM_cons, hadd]
      exact hrest
    · rw [hdisabled, recorded, recorded, List.filterMap_cons_some hp, List.mem_cons]
      split
      · next hskip =>
        by_cases hx : x = p
        · rw [hx]
          tauto
        · tauto
      · next hnew =>
        rw [not_or] at hnew
        rw [List.mem_append, List.mem_singleton]
        by_cases hx : x = p
        · rw [hx]
          tauto
        · tauto

theorem disabledPlugins_spec (h : LegacyProfile store file names records legacy)
    (hfits : file.length ≤ 64 * 1024) :
    ∃ disabled, disabledPlugins store = .ok disabled ∧ ∀ x, x ∈ disabled ↔
      x ∈ (if imported file.value then [] else legacy) ∨ (x ∈ recorded records ∧ x ∉ names) := by
  have hread : readPlainJson (some file) = .ok file.value := by
    rw [readPlainJson, if_neg (Nat.not_lt.mpr hfits)]
  have hrecords : readRecords file.value = .ok records := by
    rw [readRecords, h.records_eq]
  obtain ⟨disabled, hfold, hdisabled⟩ := foldlM_addDisabled_names h.bundles h.packageOf_isSome
    (if imported file.value then [] else legacy)
  refine ⟨disabled, ?_, hdisabled⟩
  unfold disabledPlugins
  rw [h.readLegacy, h.package]
  change (readPlainJson (some file) >>= fun manifest => _) = _
  rw [hread]
  change (readRecords file.value >>= fun records => _) = _
  rw [hrecords]
  exact hfold

/-- What `sourceInfo` reports: the names of the file that are bundles, unless they are in, and the
packages that have a record and are not in the list. -/
theorem sourceInfo_spec (js : JsNumbers) (h : LegacyProfile store file names records legacy) :
    ∃ disabled, sourceInfo js store = .ok disabled ∧ ∀ x, x ∈ disabled ↔
      (x ∈ (if imported file.value then [] else legacy) ∧ x ∈ names) ∨
        (x ∈ recorded records ∧ x ∉ names) := by
  have hbundles : jsBundles file.value = .ok names := by
    unfold jsBundles
    rw [h.bundles, Option.bind_some, bind_asArray_texts]
    exact if_pos (List.all_eq_true.mpr h.valid)
  have hchoices : ∀ f : JsonFile, f.value = .sequence (legacy.map text) →
      jsChoices f.value = .ok legacy := by
    intro f hf
    unfold jsChoices
    rw [hf, bind_asArray_texts]
    refine if_pos (List.all_eq_true.mpr fun p hp => ?_)
    obtain ⟨hvalid, hthird⟩ := h.third_party p hp
    rw [hvalid, hthird]
    rfl
  have hempty : orEmpty (profileMember file.value "nexusDisabledBundles") =
      (profileMember file.value "nexusDisabledBundles").getD (.sequence []) := by
    have hrecords := h.records_eq
    unfold orEmpty
    split
    · next hnone => rw [hnone]; rfl
    · next hnull =>
      rw [hnull] at hrecords
      cases hrecords
    · next v hv => rw [hv]; rfl
  have hsaved : jsSaved file.value = .ok (recorded records) := by
    unfold jsSaved
    rw [hempty, h.records_eq, Option.bind_some, mapM_packageOf h.packageOf_isSome]
    exact if_pos (List.all_eq_true.mpr h.recorded_valid)
  obtain ⟨f, hpolicy, hvalue, -⟩ := h.policy
  have hmanual : ∃ manual : List String, (∀ x, x ∈ manual ↔
      x ∈ (if imported file.value then [] else legacy) ∧ x ∈ names) ∧
      sourceInfo js store = .ok (distinctNames
        (manual ++ (recorded records).filter fun name => !names.contains name)) := by
    unfold sourceInfo
    rw [h.package, hpolicy]
    dsimp only
    rw [hbundles, h.jsImported_eq]
    cases himported : imported file.value with
    | true =>
      refine ⟨[], fun x => by simp, ?_⟩
      change (jsSaved file.value >>= fun saved => _) = _
      rw [hsaved]
      rfl
    | false =>
      refine ⟨(distinctNames legacy).filter fun p => names.contains p, fun x => ?_, ?_⟩
      · rw [List.mem_filter, mem_distinctNames, List.contains_iff_mem]
        simp
      · change (jsChoices f.value >>= fun choices => _) = _
        rw [hchoices f hvalue]
        change (jsSaved file.value >>= fun saved => _) = _
        rw [hsaved]
        rfl
  obtain ⟨manual, hmem, hinfo⟩ := hmanual
  refine ⟨_, hinfo, fun x => ?_⟩
  rw [mem_distinctNames, List.mem_append, hmem, List.mem_filter]
  simp

end Readers

/-! ## 5. A launch -/

/-- `disabled_plugins`, where it can read the manifest, reports the same plugins as `sourceInfo`. -/
def ReadAlike (js : JsNumbers) (store : PluginStore) : Prop :=
  ∃ manual, sourceInfo js store = .ok manual ∧
    ∀ file, store.package = some file → file.length ≤ 64 * 1024 →
      ∃ disabled, disabledPlugins store = .ok disabled ∧ ∀ x, x ∈ disabled ↔ x ∈ manual

/-- The import at the launch succeeds and leaves the old bundles without the listed ones, and before
as well as after it the readers agree. -/
structure ImportedCleanly (js : JsNumbers) (encodedLength : JsonValue → Nat) (store : PluginStore)
    (active : List String) : Prop where
  before : ReadAlike js store
  launch : ∃ store', importAtLaunch encodedLength store = .ok store' ∧ ReadAlike js store' ∧
    ∃ file', store'.package = some file' ∧
      profileMember file'.value "bundles" = some (.sequence (active.map text))

section Launch

variable {js : JsNumbers} {encodedLength : JsonValue → Nat} {store : PluginStore}
  {file : JsonFile} {names legacy : List String} {records : List JsonValue}

def NoneStale (names legacy : List String) (records : List JsonValue) : Prop :=
  ∀ p ∈ legacy, p ∈ names ∨ p ∈ recorded records

/-- **When the readers agree**: once the file is in, and before if no name of it is stale. -/
theorem readAlike_iff (h : LegacyProfile store file names records legacy)
    (hfits : file.length ≤ 64 * 1024) :
    ReadAlike js store ↔ imported file.value = true ∨ NoneStale names legacy records := by
  obtain ⟨disabled, hrust, hdisabled⟩ := disabledPlugins_spec h hfits
  obtain ⟨manual, hjs, hmanual⟩ := sourceInfo_spec js h
  have hiff : ReadAlike js store ↔ ∀ x, x ∈ disabled ↔ x ∈ manual := by
    constructor
    · rintro ⟨manual', hjs', hall⟩ x
      obtain ⟨disabled', hrust', hsame⟩ := hall file h.package hfits
      rw [hjs] at hjs'
      rw [hrust] at hrust'
      rw [Except.ok.inj hjs', Except.ok.inj hrust']
      exact hsame x
    · intro hsame
      exact ⟨manual, hjs, fun _ _ _ => ⟨disabled, hrust, hsame⟩⟩
  rw [hiff]
  cases himported : imported file.value with
  | true =>
    rw [himported] at hdisabled hmanual
    refine iff_of_true (fun x => ?_) (Or.inl rfl)
    rw [hdisabled, hmanual]
    simp
  | false =>
    rw [himported] at hdisabled hmanual
    rw [or_iff_right Bool.false_ne_true]
    constructor
    · intro hsame p hp
      have hmem := (hsame p).mp ((hdisabled p).mpr (Or.inl hp))
      rcases (hmanual p).mp hmem with ⟨-, hname⟩ | ⟨hrecord, -⟩
      · exact Or.inl hname
      · exact Or.inr hrecord
    · intro hnone x
      rw [hdisabled, hmanual]
      constructor
      · rintro (hx | hx)
        · by_cases hname : x ∈ names
          · exact Or.inl ⟨hx, hname⟩
          · exact Or.inr ⟨(hnone x hx).resolve_left hname, hname⟩
        · exact Or.inr hx
      · rintro (⟨hx, -⟩ | hx)
        · exact Or.inl hx
        · exact Or.inr hx

theorem readAlike_of_imported (h : LegacyProfile store file names records legacy)
    (himported : imported file.value = true) : ReadAlike js store := by
  obtain ⟨manual, hjs, -⟩ := sourceInfo_spec js h
  refine ⟨manual, hjs, fun file' hfile' hfits => ?_⟩
  obtain rfl := Option.some.inj (h.package.symm.trans hfile')
  obtain ⟨manual', hjs', hall⟩ := (readAlike_iff h hfits).mpr (Or.inl himported)
  rw [hjs] at hjs'
  rw [Except.ok.inj hjs']
  exact hall file h.package hfits

theorem LegacyProfile.import (h : LegacyProfile store file names records legacy)
    {records' : List JsonValue} (length : Nat) (hsome : ∀ r ∈ records', (packageOf r).isSome)
    (hrecorded : ∀ x, x ∈ recorded records' ↔ x ∈ recorded records ∨ (x ∈ legacy ∧ x ∈ names)) :
    LegacyProfile { store with package := some ⟨withBundles file.value
        ((names.filter fun x => x ∉ legacy).map text) records', length⟩ }
      ⟨withBundles file.value ((names.filter fun x => x ∉ legacy).map text) records', length⟩
      (names.filter fun x => x ∉ legacy) records' legacy where
  package := rfl
  bundles := by
    rw [profileMember_withBundles h.bundles, if_neg (by decide), if_neg (by decide), if_pos rfl]
  distinct := h.distinct.filter _
  valid name hname := h.valid name (List.mem_filter.mp hname).1
  records_eq := by
    rw [profileMember_withBundles h.bundles, if_pos rfl]
    split
    · next hnone => rw [hnone]; rfl
    · rfl
  packages r hr := by
    obtain ⟨p, hp⟩ := Option.isSome_iff_exists.mp (hsome r hr)
    refine ⟨p, hp, ?_⟩
    rcases (hrecorded p).mp (List.mem_filterMap.mpr ⟨r, hr, hp⟩) with hold | ⟨-, hname⟩
    · exact h.recorded_valid p hold
    · exact h.valid p hname
  policy := h.policy
  third_party := h.third_party
  marker literal hliteral := by
    rw [profileMember_withBundles h.bundles, if_neg (by decide), if_pos rfl] at hliteral
    have heq : (toString 1 : String) = literal :=
      Scalar.number.inj (Tree.scalar.inj (Option.some.inj hliteral))
    exact ⟨1, heq.symm⟩

theorem LegacyProfile.pendingLegacy (h : LegacyProfile store file names records legacy)
    (hfits : file.length ≤ 64 * 1024) :
    pendingLegacy store = .ok (if imported file.value then [] else legacy) := by
  have hread : readPlainJson (some file) = .ok file.value := by
    rw [readPlainJson, if_neg (Nat.not_lt.mpr hfits)]
  unfold Plugins.pendingLegacy
  rw [h.readLegacy, h.package, hread]
  rfl

/-- **The import succeeds** if no name of the file is stale. -/
theorem importAtLaunch_of_noneStale (h : LegacyProfile store file names records legacy)
    (hfits : file.length ≤ 64 * 1024) (hpending : imported file.value = false)
    (hnone : NoneStale names legacy records) (hne : legacy ≠ []) :
    ∃ records' length, importAtLaunch encodedLength store = .ok { store with
        package := some ⟨withBundles file.value ((names.filter fun x => x ∉ legacy).map text)
          records', length⟩ } ∧
      (∀ r ∈ records', (packageOf r).isSome) ∧
      ∀ x, x ∈ recorded records' ↔ x ∈ recorded records ∨ (x ∈ legacy ∧ x ∈ names) := by
  obtain ⟨package, rest, rfl⟩ := List.exists_cons_of_ne_nil hne
  obtain ⟨records', himport, hsome, hrecorded⟩ := importLegacy_names
    (fun p hp => (h.third_party p hp).2) h.distinct h.packageOf_isSome
  have hread : readPlainJson store.package = .ok file.value := by
    rw [h.package, readPlainJson, if_neg (Nat.not_lt.mpr hfits)]
  have hbundles : readBundles store file.value =
      .ok ((names.filter fun x => x ∉ package :: rest).map text, records') := by
    unfold readBundles
    rw [h.bundles]
    have hreadRecords : readRecords file.value = .ok records := by
      rw [readRecords, h.records_eq]
    rw [hreadRecords]
    change (if imported file.value = true then _ else _) = _
    rw [if_neg (by rw [hpending]; simp), h.readLegacy]
    exact himport
  have hmem : package ∈ recorded records' := by
    rw [hrecorded]
    rcases hnone package List.mem_cons_self with hname | hrecord
    · exact Or.inr ⟨List.mem_cons_self, hname⟩
    · exact Or.inl hrecord
  have hguard : ¬ (isOfficial package = true ∨
      ((position ((names.filter fun x => x ∉ package :: rest).map text) package).isNone = true ∧
        (findRecord records' package).isNone = true)) := by
    rw [(h.third_party package List.mem_cons_self).2]
    have hfound := findRecord_isSome.mpr hmem
    rw [← Option.not_isNone, Bool.not_eq_true'] at hfound
    rw [hfound]
    simp
  have hisolate : isolate ((names.filter fun x => x ∉ package :: rest).map text) records' package =
      ((names.filter fun x => x ∉ package :: rest).map text, records') := by
    unfold isolate
    rw [position_map, position_eq_none.mpr]
    intro hin
    have hout := (List.mem_filter.mp hin).2
    rw [decide_eq_true_eq] at hout
    exact hout List.mem_cons_self
  refine ⟨records', encodedLength (withBundles file.value
    ((names.filter fun x => x ∉ package :: rest).map text) records'), ?_, hsome, hrecorded⟩
  unfold importAtLaunch
  rw [h.pendingLegacy hfits, hpending]
  change setPluginDisabled encodedLength store ⟨package, true, .ok (), .ok ()⟩ = _
  unfold setPluginDisabled
  rw [hread]
  change (readBundles store file.value >>= fun lists => _) = _
  rw [hbundles]
  change (if isOfficial package = true ∨ _ then _ else _) = _
  rw [if_neg hguard]
  exact congrArg (fun lists : List JsonValue × List JsonValue => Except.ok { store with
    package := some ⟨withBundles file.value lists.1 lists.2,
      encodedLength (withBundles file.value lists.1 lists.2)⟩ }) hisolate

/-- **When a launch brings a legacy file in cleanly**: exactly if it is in already, or no name of
the file is stale. -/
theorem legacy_imported_cleanly_iff (js : JsNumbers) (encodedLength : JsonValue → Nat)
    (h : LegacyProfile store file names records legacy) (hfits : file.length ≤ 64 * 1024) :
    ImportedCleanly js encodedLength store
        (if imported file.value then names else names.filter fun x => x ∉ legacy) ↔
      imported file.value = true ∨ NoneStale names legacy records := by
  constructor
  · intro hclean
    exact (readAlike_iff h hfits).mp hclean.before
  · intro hcondition
    refine ⟨(readAlike_iff h hfits).mpr hcondition, ?_⟩
    cases himported : imported file.value with
    | true =>
      refine ⟨store, ?_, readAlike_of_imported h himported, file, h.package, h.bundles⟩
      unfold importAtLaunch
      rw [h.pendingLegacy hfits, himported]
      rfl
    | false =>
      rw [himported, or_iff_right Bool.false_ne_true] at hcondition
      by_cases hne : legacy = []
      · subst hne
        refine ⟨store, ?_, (readAlike_iff h hfits).mpr (Or.inr hcondition), file, h.package, ?_⟩
        · unfold importAtLaunch
          rw [h.pendingLegacy hfits, himported]
          rfl
        · rw [h.bundles]
          simp
      · obtain ⟨records', length, hlaunch, hsome, hrecorded⟩ :=
          importAtLaunch_of_noneStale h hfits himported hcondition hne
        have hafter := h.import length hsome hrecorded
        exact ⟨_, hlaunch, readAlike_of_imported hafter (imported_withBundles h.bundles _ _), _, rfl,
          hafter.bundles⟩

end Launch

/-! ## Two profiles -/

/-- JavaScript numbers, as far as digits go. -/
def sampleNumbers : JsNumbers where
  isOne literal := parseUsize literal = some 1
  isOne_toString n := by
    rw [decide_eq_decide, parseUsize_toString]
    split
    · rw [Option.some.injEq]
    · next hlarge => exact iff_of_false (by simp) (by omega)

def plainManifest (names : List String) : JsonFile :=
  ⟨.mapping [("dsh", .mapping [("profile", .mapping [("bundles", .sequence (names.map text))])])], 100⟩

/-- A profile with the given bundles and the given legacy file. -/
def legacyStore (names legacy : List String) : PluginStore :=
  ⟨some (plainManifest names), some ⟨.sequence (legacy.map text), 50⟩⟩

theorem legacyProfile_legacyStore {names legacy : List String} (hdistinct : names.Nodup)
    (hvalid : ∀ name ∈ names, validPackage name = true)
    (hthird : ∀ p ∈ legacy, validPackage p = true ∧ isOfficial p = false) :
    LegacyProfile (legacyStore names legacy) (plainManifest names) names [] legacy where
  package := rfl
  bundles := rfl
  distinct := hdistinct
  valid := hvalid
  records_eq := rfl
  packages r hr := absurd hr List.not_mem_nil
  policy := ⟨_, rfl, rfl, Nat.le_of_ble_eq_true rfl⟩
  third_party := hthird
  marker literal hliteral := by cases hliteral

/-- Two of three bundles are listed, one of them twice. -/
theorem legacy_imported_cleanly_of_bundles :
    ImportedCleanly sampleNumbers (fun _ => 100) (legacyStore ["p", "q", "r"] ["r", "p", "r"])
      ["q"] := by
  have h : LegacyProfile (legacyStore ["p", "q", "r"] ["r", "p", "r"])
      (plainManifest ["p", "q", "r"]) ["p", "q", "r"] [] ["r", "p", "r"] :=
    legacyProfile_legacyStore (by decide) (by decide) (by decide)
  have hnone : NoneStale ["p", "q", "r"] ["r", "p", "r"] [] := fun p hp => by
    have hall : ∀ p ∈ ["r", "p", "r"], p ∈ ["p", "q", "r"] := by decide
    exact Or.inl (hall p hp)
  exact (legacy_imported_cleanly_iff sampleNumbers (fun _ => 100) h (by decide)).mpr
    (Or.inr hnone)

/-- **A stale name blocks the launch**, and the two readers disagree about it. -/
theorem stale_name_blocks_launch :
    LegacyProfile (legacyStore ["p"] ["gone"]) (plainManifest ["p"]) ["p"] [] ["gone"] ∧
      importAtLaunch (fun _ => 100) (legacyStore ["p"] ["gone"]) = .error
        ⟨.invalidInput, "Only third-party bundles from the original profile can be isolated"⟩ ∧
      disabledPlugins (legacyStore ["p"] ["gone"]) = .ok ["gone"] ∧
      sourceInfo sampleNumbers (legacyStore ["p"] ["gone"]) = .ok [] ∧
      ¬ ImportedCleanly sampleNumbers (fun _ => 100) (legacyStore ["p"] ["gone"]) ["p"] := by
  have hfails : importAtLaunch (fun _ => 100) (legacyStore ["p"] ["gone"]) = .error
      ⟨.invalidInput, "Only third-party bundles from the original profile can be isolated"⟩ := rfl
  refine ⟨legacyProfile_legacyStore (by decide) (by decide) (by decide), hfails, rfl, rfl,
    fun hclean => ?_⟩
  obtain ⟨store', hlaunch, -⟩ := hclean.launch
  rw [hfails] at hlaunch
  cases hlaunch

end DshNexus.Agent.Plugins
