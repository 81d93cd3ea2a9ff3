import DshNexus.Core.Io
import DshNexus.Core.Integer
import DshNexus.Snapshot.Redaction

/-!
# Disabled plugins of a profile

`crates/nexus-agent/src/compatibility.rs`: a plugin is disabled by taking it out of the bundle list
of the profile's `package.json` and keeping a record of where it stood.  Profiles of an older
version list their disabled plugins in a file of their own; the first change brings that list in.

1. JSON values, and reading a manifest.
2. `set_plugin_disabled` and `disabled_plugins`.
3. `Listing`: the same on names and records, and that the JSON code computes it.
4. `Shows`: a manifest shows a listing; `profileMember_withBundles`, `sameOutside_withBundles`:
   what a change leaves in the manifest, and what it does not touch.
5. `setPluginDisabled_eq_ok` and `disabledPlugins_eq`: the calls on a manifest that shows a listing.
-/

namespace DshNexus.Agent.Plugins

open Document Snapshot

/-! ## 1. Manifests -/

mutual

/-- Equality of JSON values, as `==` of `serde_json::Value`. -/
def sameValue : JsonValue → JsonValue → Bool
  | .scalar s, .scalar s' => s = s'
  | .sequence items, .sequence items' => sameItems items items'
  | .mapping members, .mapping members' => sameMembers members members'
  | _, _ => false

def sameItems : List JsonValue → List JsonValue → Bool
  | [], [] => true
  | v :: vs, v' :: vs' => sameValue v v' && sameItems vs vs'
  | _, _ => false

def sameMembers : List (String × JsonValue) → List (String × JsonValue) → Bool
  | [], [] => true
  | (k, v) :: ms, (k', v') :: ms' => decide (k = k') && sameValue v v' && sameMembers ms ms'
  | _, _ => false

end

/-- `json!(text)`. -/
def text (s : String) : JsonValue := .scalar (.text s)

/-- `json!(n)` for an index. -/
def number (n : Nat) : JsonValue := .scalar (.number (toString n))

def asStr : JsonValue → Option String
  | .scalar (.text s) => some s
  | _ => none

def asU64 : JsonValue → Option Nat
  | .scalar (.number literal) => parseUsize literal
  | _ => none

def asArray : JsonValue → Option (List JsonValue)
  | .sequence items => some items
  | _ => none

def member (value : JsonValue) (key : String) : Option JsonValue := value.child (.key key)

/-- `manifest.pointer("/dsh/profile/<key>")`. -/
def profileMember (manifest : JsonValue) (key : String) : Option JsonValue := do
  let dsh ← member manifest "dsh"
  let profile ← member dsh "profile"
  member profile key

def mapMember (key : String) (f : JsonValue → JsonValue) (value : JsonValue) : JsonValue :=
  match member value key with
  | some v => value.setChild (.key key) (f v)
  | none => value

/-- `Map::remove`. -/
def removeMember (key : String) : JsonValue → JsonValue
  | .mapping members => .mapping (members.filter fun m => m.1 ≠ key)
  | value => value

/-- `value[key] = v` for an object. -/
def setMember (key : String) (v : JsonValue) (value : JsonValue) : JsonValue :=
  value.setMember jsonSyntax.before key v

structure JsonFile where
  value : JsonValue
  length : Nat

def readPlainJson (file : Option JsonFile) : Except IoError JsonValue :=
  match file with
  | none => .error ⟨.notFound, "No such file or directory"⟩
  | some file =>
      if file.length > 64 * 1024 then
        .error ⟨.other, "Invalid compatibility policy or profile manifest"⟩
      else .ok file.value

/-- `nexusIsolationPolicyVersion` is 1. -/
def imported (manifest : JsonValue) : Bool :=
  (profileMember manifest "nexusIsolationPolicyVersion").bind asU64 = some 1

/-- The legacy list: an array of texts, and empty without a file. -/
def readLegacy (file : Option JsonFile) : Except IoError (List String) :=
  match file with
  | none => .ok []
  | some file => do
      let value ← readPlainJson (some file)
      match (asArray value).bind fun items => items.mapM asStr with
      | some names => .ok names
      | none => .error ⟨.other, "invalid type"⟩

/-! ## 2. Disabling and enabling -/

def position (bundles : List JsonValue) (package : String) : Option Nat :=
  bundles.findIdx? fun value => asStr value = some package

def packageOf (record : JsonValue) : Option String := (member record "package").bind asStr

def findRecord (records : List JsonValue) (package : String) : Option JsonValue :=
  records.find? fun record => packageOf record = some package

/-- The record of a bundle that is taken out. -/
def newRecord (package : String) (index : Nat) (following : List JsonValue) : JsonValue :=
  .mapping [("following", .sequence following), ("index", number index), ("package", text package)]

/-- Take a bundle out of the list, with a record unless it has one. -/
def isolate (bundles records : List JsonValue) (package : String) :
    List JsonValue × List JsonValue :=
  match position bundles package with
  | none => (bundles, records)
  | some index =>
      (bundles.eraseIdx index,
        if (findRecord records package).isSome then records
        else records ++ [newRecord package index (bundles.drop (index + 1))])

/-- `starts_with("@deepseek-ai/")`. -/
def isOfficial (package : String) : Bool := "@deepseek-ai/".toList.isPrefixOf package.toList

def importItem (lists : List JsonValue × List JsonValue) (item : String) :
    Except IoError (List JsonValue × List JsonValue) :=
  if isOfficial item then .error ⟨.other, "Invalid legacy isolation policy"⟩
  else .ok (isolate lists.1 lists.2 item)

def importLegacy (names : List String) (bundles records : List JsonValue) :
    Except IoError (List JsonValue × List JsonValue) :=
  names.foldlM importItem (bundles, records)

/-- Where a bundle is put back: before the first of those that followed it that is in the list,
else at its index. -/
def restoreIndex (bundles : List JsonValue) (saved : JsonValue) : Nat :=
  ((((member saved "following").bind asArray).bind fun following =>
      following.findSome? fun next => bundles.findIdx? fun value => sameValue value next).getD
    (min (((member saved "index").bind asU64).getD bundles.length) bundles.length))

/-- Put a bundle back that has a record. -/
def restore (bundles records : List JsonValue) (package : String) :
    List JsonValue × List JsonValue :=
  match findRecord records package with
  | none => (bundles, records)
  | some saved =>
      (if (position bundles package).isSome then bundles
        else bundles.insertIdx (restoreIndex bundles saved) (text package),
        records.filter fun record => packageOf record ≠ some package)

/-- The manifest with another list and other records. -/
def withBundles (manifest : JsonValue) (bundles records : List JsonValue) : JsonValue :=
  mapMember "dsh" (mapMember "profile" fun profile =>
    let profile := setMember "bundles" (.sequence bundles) profile
    let profile := setMember "nexusIsolationPolicyVersion" (number 1) profile
    if records.isEmpty then removeMember "nexusDisabledBundles" profile
    else setMember "nexusDisabledBundles" (.sequence records) profile) manifest

structure PluginStore where
  /-- `package.json` -/
  package : Option JsonFile
  /-- `.nexus-plugin-isolation/<profile>.json` -/
  legacy : Option JsonFile

/-- A call.  `prepare` is what the code checks of the directories before it reads the manifest, and
`write` is the replacement of `package.json`. -/
structure PluginCall where
  package : String
  disabled : Bool
  prepare : Except IoError Unit
  write : Except IoError Unit

/-- The records of a manifest: none, or an array. -/
def readRecords (manifest : JsonValue) : Except IoError (List JsonValue) :=
  match asArray ((profileMember manifest "nexusDisabledBundles").getD (.sequence [])) with
  | some records => .ok records
  | none => .error ⟨.other, "Invalid disabled bundle metadata"⟩

/-- The bundles and the records of a manifest, after the legacy list has been brought in. -/
def readBundles (store : PluginStore) (manifest : JsonValue) :
    Except IoError (List JsonValue × List JsonValue) := do
  let some bundles := (profileMember manifest "bundles").bind asArray
    | throw ⟨.other, "Unsupported profile bundle manifest"⟩
  let records ← readRecords manifest
  if imported manifest then pure (bundles, records)
  else do
    let legacy ← readLegacy store.legacy
    importLegacy legacy bundles records

def setPluginDisabled (encodedLength : JsonValue → Nat) (store : PluginStore) (call : PluginCall) :
    Except IoError PluginStore := do
  call.prepare
  let manifest ← readPlainJson store.package
  let (bundles, records) ← readBundles store manifest
  if isOfficial call.package ∨
      ((position bundles call.package).isNone ∧ (findRecord records call.package).isNone) then
    throw ⟨.invalidInput, "Only third-party bundles from the original profile can be isolated"⟩
  let (bundles, records) :=
    if call.disabled then isolate bundles records call.package
    else restore bundles records call.package
  let value := withBundles manifest bundles records
  call.write
  pure { store with package := some ⟨value, encodedLength value⟩ }

/-- One record of `disabled_plugins`.  A bundle in the list counts as enabled. -/
def addDisabled (manifest : JsonValue) (names : List String) (record : JsonValue) :
    Except IoError (List String) :=
  match packageOf record with
  | none => .error ⟨.other, "Invalid disabled bundle metadata"⟩
  | some package =>
      let enabled := ((profileMember manifest "bundles").bind asArray).any fun bundles =>
        (position bundles package).isSome
      if !enabled && !names.contains package then .ok (names ++ [package]) else .ok names

def disabledPlugins (store : PluginStore) : Except IoError (List String) := do
  let legacy ← readLegacy store.legacy
  let manifest ←
    if store.package.isNone then pure (.mapping []) else readPlainJson store.package
  let records ← readRecords manifest
  records.foldlM (addDisabled manifest) (if imported manifest then [] else legacy)

/-! ## 3. Names and records -/

/-- A record: the bundle, how many bundles stood before it, and those that stood after it. -/
structure DisabledBundle where
  package : String
  index : Nat
  following : List String
  deriving DecidableEq, Repr

/-- The bundle list and the records of a manifest. -/
structure Listing where
  active : List String
  records : List DisabledBundle
  deriving DecidableEq, Repr

def DisabledBundle.toJson (r : DisabledBundle) : JsonValue :=
  newRecord r.package r.index (r.following.map text)

namespace Listing

def position (names : List String) (package : String) : Option Nat :=
  names.findIdx? fun name => name = package

def findRecord (records : List DisabledBundle) (package : String) : Option DisabledBundle :=
  records.find? fun r => r.package = package

def isolate (l : Listing) (package : String) : Listing :=
  match position l.active package with
  | none => l
  | some index =>
      ⟨l.active.eraseIdx index,
        if (findRecord l.records package).isSome then l.records
        else l.records ++ [⟨package, index, l.active.drop (index + 1)⟩]⟩

def importItem (l : Listing) (item : String) : Except IoError Listing :=
  if isOfficial item then .error ⟨.other, "Invalid legacy isolation policy"⟩
  else .ok (l.isolate item)

def importLegacy (names : List String) (l : Listing) : Except IoError Listing :=
  names.foldlM importItem l

def restoreIndex (active : List String) (r : DisabledBundle) : Nat :=
  (r.following.findSome? (position active)).getD (min r.index active.length)

def restore (l : Listing) (package : String) : Listing :=
  match findRecord l.records package with
  | none => l
  | some r =>
      ⟨if (position l.active package).isSome then l.active
        else l.active.insertIdx (restoreIndex l.active r) package,
        l.records.filter fun r => r.package ≠ package⟩

def change (l : Listing) (package : String) (disabled : Bool) : Listing :=
  if disabled then l.isolate package else l.restore package

end Listing

def Listing.toJson (l : Listing) : List JsonValue × List JsonValue :=
  (l.active.map text, l.records.map DisabledBundle.toJson)

@[simp] theorem asStr_text (s : String) : asStr (text s) = some s := rfl

@[simp] theorem packageOf_toJson (r : DisabledBundle) : packageOf r.toJson = some r.package := rfl

theorem asU64_number {n : Nat} (h : n < 2 ^ 64) : asU64 (number n) = some n := by
  change parseUsize (toString n) = some n
  rw [parseUsize_toString, if_pos h]

theorem sameValue_text (s t : String) : sameValue (text s) (text t) = decide (s = t) := by
  simp [sameValue, text]

theorem position_map (names : List String) (package : String) :
    position (names.map text) package = Listing.position names package := by
  rw [position, List.findIdx?_map, Listing.position]
  congr 1
  funext name
  simp

theorem findRecord_map (records : List DisabledBundle) (package : String) :
    findRecord (records.map DisabledBundle.toJson) package =
      (Listing.findRecord records package).map DisabledBundle.toJson := by
  rw [findRecord, List.find?_map, Listing.findRecord]
  congr 2
  funext r
  simp

theorem isolate_toJson (l : Listing) (package : String) :
    isolate l.toJson.1 l.toJson.2 package = (l.isolate package).toJson := by
  unfold isolate Listing.isolate Listing.toJson
  dsimp only
  rw [position_map]
  cases Listing.position l.active package with
  | none => rfl
  | some index =>
    dsimp only
    rw [findRecord_map, Option.isSome_map, List.eraseIdx_map, ← List.map_drop]
    split
    · rfl
    · rw [List.map_append]
      rfl

theorem importItem_toJson (l : Listing) (item : String) :
    importItem l.toJson item = Listing.toJson <$> l.importItem item := by
  unfold importItem Listing.importItem
  split
  · rfl
  · rw [isolate_toJson]
    rfl

theorem importLegacy_toJson (names : List String) (l : Listing) :
    importLegacy names l.toJson.1 l.toJson.2 = Listing.toJson <$> l.importLegacy names := by
  change names.foldlM importItem l.toJson = Listing.toJson <$> names.foldlM Listing.importItem l
  induction names generalizing l with
  | nil => rfl
  | cons item names ih =>
    rw [List.foldlM_cons, List.foldlM_cons, importItem_toJson]
    cases l.importItem item with
    | error e => rfl
    | ok l' => exact ih l'

theorem restoreIndex_toJson (active : List String) {r : DisabledBundle} (h : r.index < 2 ^ 64) :
    restoreIndex (active.map text) r.toJson = Listing.restoreIndex active r := by
  have hindex : (member r.toJson "index").bind asU64 = some r.index := asU64_number h
  have hfollowing : (member r.toJson "following").bind asArray = some (r.following.map text) := rfl
  unfold restoreIndex Listing.restoreIndex
  rw [hindex, hfollowing, Option.bind_some, List.findSome?_map, Option.getD_some, List.length_map]
  congr 2
  funext next
  change (active.map text).findIdx? (fun value => sameValue value (text next)) = _
  rw [List.findIdx?_map, Listing.position]
  congr 1
  funext name
  exact sameValue_text name next

theorem restore_toJson (l : Listing) (package : String) (h : ∀ r ∈ l.records, r.index < 2 ^ 64) :
    restore l.toJson.1 l.toJson.2 package = (l.restore package).toJson := by
  unfold restore Listing.restore Listing.toJson
  dsimp only
  rw [findRecord_map]
  cases hfind : Listing.findRecord l.records package with
  | none => rfl
  | some r =>
    have hr : r ∈ l.records := List.mem_of_find?_eq_some hfind
    dsimp only [Option.map_some]
    rw [position_map, restoreIndex_toJson _ (h r hr), List.filter_map]
    split
    · simp [Function.comp_def]
    · rw [List.map_insertIdx]
      simp [Function.comp_def]

/-! ## 4. The manifest -/

theorem member_mapMember (key : String) (f : JsonValue → JsonValue) (value : JsonValue)
    (k : String) : member (mapMember key f value) k =
      if k = key then (member value key).map f else member value k := by
  unfold mapMember
  split
  · next v hv =>
    change (value.setChild (.key key) (f v)).child (.key k) = _
    rw [Tree.child_setChild hv, hv]
    simp only [Step.key.injEq]
    rfl
  · next hnone =>
    split
    · next hk => rw [hk, hnone]; rfl
    · rfl

theorem lookup_filter_ne (key k : String) (members : List (String × JsonValue)) :
    (members.filter fun m => m.1 ≠ key).lookup k = if k = key then none else members.lookup k := by
  induction members with
  | nil => simp
  | cons m ms ih =>
    obtain ⟨j, v⟩ := m
    by_cases hj : j = key
    · rw [List.filter_cons_of_neg (by simp [hj]), ih, Tree.lookup_cons_tree]
      by_cases hk : k = key
      · rw [if_pos hk, if_pos hk]
      · rw [if_neg hk, if_neg hk, if_neg fun h => hk (h.trans hj)]
    · rw [List.filter_cons_of_pos (by simp [hj]), Tree.lookup_cons_tree, ih, Tree.lookup_cons_tree]
      by_cases hk : k = key
      · rw [if_pos hk, if_pos hk, if_neg fun h => hj (h.symm.trans hk)]
      · rw [if_neg hk, if_neg hk]

theorem member_removeMember (key : String) (value : JsonValue) (k : String) :
    member (removeMember key value) k = if k = key then none else member value k := by
  cases value with
  | mapping members => exact lookup_filter_ne key k members
  | scalar s => exact (ite_self none).symm
  | sequence items => exact (ite_self none).symm
  | tagged tag v => exact tag.elim

theorem member_setMember {key : String} {v value w : JsonValue} {j : String}
    (hvalue : member value j = some w) (k : String) :
    member (setMember key v value) k = if k = key then some v else member value k := by
  have hmapping : value.isMapping = true := by
    cases value with
    | mapping members => rfl
    | scalar s => cases hvalue
    | sequence items => cases hvalue
    | tagged tag v => exact tag.elim
  unfold member setMember
  rw [Tree.child_setMember _ hmapping]
  simp only [Step.key.injEq]

/-- Two manifests agree but for the bundle list and what belongs to it. -/
structure SameOutside (m m' : JsonValue) : Prop where
  top : ∀ k, k ≠ "dsh" → member m' k = member m k
  dsh : ∀ k, k ≠ "profile" → ((member m' "dsh").bind fun v => member v k) =
    (member m "dsh").bind fun v => member v k
  profile : ∀ k, k ≠ "bundles" → k ≠ "nexusDisabledBundles" → k ≠ "nexusIsolationPolicyVersion" →
    profileMember m' k = profileMember m k

theorem SameOutside.refl (m : JsonValue) : SameOutside m m :=
  ⟨fun _ _ => rfl, fun _ _ => rfl, fun _ _ _ _ => rfl⟩

theorem SameOutside.trans {m m' m'' : JsonValue} (h : SameOutside m m')
    (h' : SameOutside m' m'') : SameOutside m m'' where
  top k hk := (h'.top k hk).trans (h.top k hk)
  dsh k hk := (h'.dsh k hk).trans (h.dsh k hk)
  profile k hb hd hv := (h'.profile k hb hd hv).trans (h.profile k hb hd hv)

/-- What stands in the profile of a manifest. -/
def profileOf (manifest : JsonValue) : Option JsonValue :=
  (member manifest "dsh").bind fun dsh => member dsh "profile"

theorem profileMember_eq (manifest : JsonValue) (k : String) :
    profileMember manifest k = (profileOf manifest).bind fun profile => member profile k := by
  unfold profileMember profileOf
  cases member manifest "dsh" with
  | none => rfl
  | some dsh => cases h : member dsh "profile" <;> simp [h]

section WithBundles

variable {manifest : JsonValue} {bundles records : List JsonValue}

/-- The profile that `withBundles` leaves. -/
def changedProfile (bundles records : List JsonValue) (profile : JsonValue) : JsonValue :=
  let profile := setMember "bundles" (.sequence bundles) profile
  let profile := setMember "nexusIsolationPolicyVersion" (number 1) profile
  if records.isEmpty then removeMember "nexusDisabledBundles" profile
  else setMember "nexusDisabledBundles" (.sequence records) profile

theorem profileOf_withBundles : profileOf (withBundles manifest bundles records) =
    (profileOf manifest).map (changedProfile bundles records) := by
  unfold profileOf withBundles
  rw [member_mapMember, if_pos rfl, Option.bind_map]
  cases member manifest "dsh" with
  | none => rfl
  | some dsh =>
    change member (mapMember "profile" _ dsh) "profile" = _
    rw [member_mapMember, if_pos rfl]
    rfl

theorem member_changedProfile {profile w : JsonValue} {j : String}
    (hprofile : member profile j = some w) (k : String) :
    member (changedProfile bundles records profile) k =
      if k = "nexusDisabledBundles" then
        if records = [] then none else some (.sequence records)
      else if k = "nexusIsolationPolicyVersion" then some (number 1)
      else if k = "bundles" then some (.sequence bundles)
      else member profile k := by
  have hbundles : member (setMember "bundles" (.sequence bundles) profile) "bundles" =
      some (.sequence bundles) := by rw [member_setMember hprofile, if_pos rfl]
  have hversion : member (setMember "nexusIsolationPolicyVersion" (number 1)
      (setMember "bundles" (.sequence bundles) profile)) "nexusIsolationPolicyVersion" =
      some (number 1) := by rw [member_setMember hbundles, if_pos rfl]
  unfold changedProfile
  dsimp only
  split
  · next hempty =>
    rw [member_removeMember, member_setMember hbundles, member_setMember hprofile,
      if_pos (List.isEmpty_iff.mp hempty)]
  · next hsome =>
    rw [member_setMember hversion, member_setMember hbundles, member_setMember hprofile,
      if_neg fun h => hsome (List.isEmpty_iff.mpr h)]

/-- **What a change leaves**: the new list, the new records and the version, and all else as it
was. -/
theorem profileMember_withBundles {w : JsonValue} {j : String}
    (hmanifest : profileMember manifest j = some w) (k : String) :
    profileMember (withBundles manifest bundles records) k =
      if k = "nexusDisabledBundles" then
        if records = [] then none else some (.sequence records)
      else if k = "nexusIsolationPolicyVersion" then some (number 1)
      else if k = "bundles" then some (.sequence bundles)
      else profileMember manifest k := by
  rw [profileMember_eq] at hmanifest
  obtain ⟨profile, hprofile, hmember⟩ := Option.bind_eq_some_iff.mp hmanifest
  rw [profileMember_eq, profileMember_eq, profileOf_withBundles, hprofile]
  exact member_changedProfile hmember k

theorem sameOutside_withBundles {w : JsonValue} {j : String}
    (hmanifest : profileMember manifest j = some w) :
    SameOutside manifest (withBundles manifest bundles records) where
  top k hk := by
    unfold withBundles
    rw [member_mapMember, if_neg hk]
  dsh k hk := by
    unfold withBundles
    rw [member_mapMember, if_pos rfl, Option.bind_map]
    refine Option.bind_congr fun dsh _ => ?_
    change member (mapMember "profile" _ dsh) k = _
    rw [member_mapMember, if_neg hk]
  profile k hb hd hv := by
    rw [profileMember_withBundles hmanifest, if_neg hd, if_neg hv, if_neg hb]

end WithBundles

structure Shows (manifest : JsonValue) (l : Listing) : Prop where
  bundles : profileMember manifest "bundles" = some (.sequence (l.active.map text))
  records : asArray ((profileMember manifest "nexusDisabledBundles").getD (.sequence [])) =
    some (l.records.map DisabledBundle.toJson)

theorem Shows.readRecords {manifest : JsonValue} {l : Listing} (h : Shows manifest l) :
    Plugins.readRecords manifest = .ok (l.records.map DisabledBundle.toJson) := by
  rw [Plugins.readRecords, h.records]

theorem imported_withBundles {manifest w : JsonValue} {j : String}
    (hmanifest : profileMember manifest j = some w) (bundles records : List JsonValue) :
    imported (withBundles manifest bundles records) = true := by
  unfold imported
  rw [profileMember_withBundles hmanifest, if_neg (by decide), if_pos rfl, Option.bind_some,
    asU64_number (by decide)]
  exact decide_eq_true rfl

theorem Shows.withBundles {manifest : JsonValue} {l : Listing} (h : Shows manifest l)
    (l' : Listing) :
    Shows (Plugins.withBundles manifest (l'.active.map text)
      (l'.records.map DisabledBundle.toJson)) l' where
  bundles := by
    rw [profileMember_withBundles h.bundles, if_neg (by decide), if_neg (by decide), if_pos rfl]
  records := by
    rw [profileMember_withBundles h.bundles, if_pos rfl]
    split
    · next hnone => rw [hnone]; rfl
    · rfl

/-! ## 5. The calls on a listing -/

/-- The listing of a manifest after the legacy list has been brought in. -/
def Listing.opened (l : Listing) (imported : Bool) (legacy : Except IoError (List String)) :
    Except IoError Listing :=
  if imported then .ok l else legacy >>= fun names => l.importLegacy names

theorem readBundles_eq {store : PluginStore} {manifest : JsonValue} {l : Listing}
    (h : Shows manifest l) : readBundles store manifest =
      Listing.toJson <$> l.opened (imported manifest) (readLegacy store.legacy) := by
  unfold readBundles Listing.opened
  rw [h.bundles, h.readRecords]
  change (if imported manifest = true then _ else _) = _
  split
  · rfl
  · cases readLegacy store.legacy with
    | error e => rfl
    | ok names => exact importLegacy_toJson names l

/-- A call that succeeds changes the listing of the manifest, and nothing else of it. -/
theorem setPluginDisabled_eq_ok {encodedLength : JsonValue → Nat} {store store' : PluginStore}
    {call : PluginCall} (h : setPluginDisabled encodedLength store call = .ok store') :
    ∃ file, store.package = some file ∧ file.length ≤ 64 * 1024 ∧
      ∀ l, Shows file.value l → ∃ l₁,
        l.opened (imported file.value) (readLegacy store.legacy) = .ok l₁ ∧
        isOfficial call.package = false ∧
        ((Listing.position l₁.active call.package).isSome ∨
          (Listing.findRecord l₁.records call.package).isSome) ∧
        ((∀ r ∈ l₁.records, r.index < 2 ^ 64) →
          ∃ length, store' = { store with
            package := some ⟨withBundles file.value (l₁.change call.package call.disabled).toJson.1
              (l₁.change call.package call.disabled).toJson.2, length⟩ }) := by
  obtain ⟨-, -, h⟩ := bind_eq_ok h
  obtain ⟨manifest, hread, h⟩ := bind_eq_ok h
  obtain ⟨lists, hlists, h⟩ := bind_eq_ok h
  rw [guard_eq_ok] at h
  obtain ⟨hguard, h⟩ := h
  obtain ⟨-, -, h⟩ := bind_eq_ok h
  obtain rfl := Except.ok.inj h
  rcases hfile : store.package with _ | file
  · rw [hfile] at hread
    cases hread
  · rw [hfile, readPlainJson] at hread
    split at hread
    · cases hread
    · next hfits =>
      obtain rfl := Except.ok.inj hread
      refine ⟨file, rfl, Nat.le_of_not_lt hfits, fun l hshows => ?_⟩
      rw [readBundles_eq hshows] at hlists
      obtain ⟨l₁, hl₁, rfl⟩ : ∃ l₁, l.opened (imported file.value) (readLegacy store.legacy) =
          .ok l₁ ∧ l₁.toJson = lists := by
        cases hopened : l.opened (imported file.value) (readLegacy store.legacy) with
        | error e =>
          rw [hopened] at hlists
          cases hlists
        | ok l₁ =>
          rw [hopened] at hlists
          exact ⟨l₁, rfl, Except.ok.inj hlists⟩
      rw [not_or, not_and_or] at hguard
      refine ⟨l₁, hl₁, Bool.eq_false_of_not_eq_true hguard.1, ?_, fun hindex => ⟨encodedLength
        (withBundles file.value (l₁.change call.package call.disabled).toJson.1
          (l₁.change call.package call.disabled).toJson.2), ?_⟩⟩
      · rcases hguard.2 with hsome | hsome
        · left
          change ¬ (position (l₁.active.map text) call.package).isNone = true at hsome
          rw [position_map, Option.isNone_iff_eq_none] at hsome
          exact Option.isSome_iff_ne_none.mpr hsome
        · right
          change ¬ (findRecord (l₁.records.map DisabledBundle.toJson) call.package).isNone = true
            at hsome
          rw [findRecord_map, Option.isNone_map, Option.isNone_iff_eq_none] at hsome
          exact Option.isSome_iff_ne_none.mpr hsome
      · have hchange : (if call.disabled = true then isolate l₁.toJson.1 l₁.toJson.2 call.package
            else restore l₁.toJson.1 l₁.toJson.2 call.package) =
            (l₁.change call.package call.disabled).toJson := by
          unfold Listing.change
          split
          · exact isolate_toJson l₁ call.package
          · exact restore_toJson l₁ call.package hindex
        rw [← hchange]
        rfl

theorem prepare_write_of_ok {encodedLength : JsonValue → Nat} {store store' : PluginStore}
    {call : PluginCall} (h : setPluginDisabled encodedLength store call = .ok store') :
    call.prepare = .ok () ∧ call.write = .ok () := by
  obtain ⟨⟨⟩, hprepare, h⟩ := bind_eq_ok h
  obtain ⟨manifest, -, h⟩ := bind_eq_ok h
  obtain ⟨lists, -, h⟩ := bind_eq_ok h
  rw [guard_eq_ok] at h
  obtain ⟨⟨⟩, hwrite, -⟩ := bind_eq_ok h.2
  exact ⟨hprepare, hwrite⟩

theorem foldlM_addDisabled {manifest : JsonValue} {l : Listing} (h : Shows manifest l)
    (records : List DisabledBundle) (names : List String)
    (hdistinct : (records.map DisabledBundle.package).Nodup)
    (hnew : ∀ r ∈ records, r.package ∉ names) (hout : ∀ r ∈ records, r.package ∉ l.active) :
    (records.map DisabledBundle.toJson).foldlM (addDisabled manifest) names =
      .ok (names ++ records.map DisabledBundle.package) := by
  induction records generalizing names with
  | nil =>
    simp only [List.map_nil, List.append_nil]
    rfl
  | cons r records ih =>
    have hadd : addDisabled manifest names r.toJson = .ok (names ++ [r.package]) := by
      have hposition : (position (l.active.map text) r.package).isSome = false := by
        rw [position_map, Option.isSome_eq_false_iff, Option.isNone_iff_eq_none,
          Listing.position, List.findIdx?_eq_none_iff]
        intro name hname
        rw [decide_eq_false_iff_not]
        rintro rfl
        exact hout r List.mem_cons_self hname
      have hfresh : names.contains r.package = false := by
        rw [List.contains_eq_mem, decide_eq_false_iff_not]
        exact hnew r List.mem_cons_self
      unfold addDisabled
      rw [packageOf_toJson]
      dsimp only
      rw [h.bundles, hfresh]
      change (if (!(position (l.active.map text) r.package).isSome && !false) = true then _
        else _) = _
      rw [hposition]
      rfl
    rw [List.map_cons, List.foldlM_cons, hadd]
    change (records.map DisabledBundle.toJson).foldlM (addDisabled manifest) _ = _
    rw [List.map_cons, List.nodup_cons] at hdistinct
    rw [ih (names ++ [r.package]) hdistinct.2]
    · rw [List.map_cons, List.append_assoc, List.singleton_append]
    · intro r' hr' hmem
      rcases List.mem_append.mp hmem with hmem | hmem
      · exact hnew r' (List.mem_cons_of_mem _ hr') hmem
      · rw [← List.mem_singleton.mp hmem] at hdistinct
        exact hdistinct.1 (List.mem_map_of_mem hr')
    · exact fun r' hr' => hout r' (List.mem_cons_of_mem _ hr')

theorem disabledPlugins_eq {store : PluginStore} {file : JsonFile} {l : Listing}
    {legacy : List String} (hfile : store.package = some file) (hfits : file.length ≤ 64 * 1024)
    (hlegacy : readLegacy store.legacy = .ok legacy) (h : Shows file.value l)
    (hdistinct : (l.records.map DisabledBundle.package).Nodup)
    (hnew : ∀ r ∈ l.records, r.package ∉ if imported file.value then [] else legacy)
    (hout : ∀ r ∈ l.records, r.package ∉ l.active) :
    disabledPlugins store =
      .ok ((if imported file.value then [] else legacy) ++
        l.records.map DisabledBundle.package) := by
  have hread : readPlainJson (some file) = .ok file.value := by
    rw [readPlainJson, if_neg (Nat.not_lt.mpr hfits)]
  have hfold := foldlM_addDisabled h l.records _ hdistinct hnew hout
  unfold disabledPlugins
  rw [hlegacy, hfile]
  change (readPlainJson (some file) >>= fun manifest => _) = _
  rw [hread]
  change (readRecords file.value >>= fun records => _) = _
  rw [h.readRecords]
  exact hfold

end DshNexus.Agent.Plugins
