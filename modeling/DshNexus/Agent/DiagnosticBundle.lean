import DshNexus.Core.PrefixCode
import DshNexus.Core.StableSort
import DshNexus.Core.Utf8
import DshNexus.Release.Effective

/-!
# Diagnostic bundles

The records of `DiagnosticsStore` in `crates/nexus-core/src/lib.rs`: a bundle names its files, is
judged by `validate_diagnostics_bundle` when it is made and whenever it is listed, and is listed
only while fewer than 32 bundles come before it.

1. Bundles and the checks on them.
2. `listWithWarnings`: the entries of the directory.
3. `listed_iff`: when a bundle that was just written is listed.
4. `encodeDocument`: the text of a record, which is read back and has a bounded length.
-/

namespace DshNexus.Diagnostics

open Release

def DIAGNOSTICS_SCHEMA_VERSION : Nat := 1

def MAX_DIAGNOSTICS_FILES : Nat := 64

def MAX_DIAGNOSTICS_BUNDLES : Nat := 32

def MAX_DIAGNOSTICS_NOTE_LEN : Nat := 4096

/-! ## 1. Bundles -/

structure DiagnosticsFile where
  name : List Char
  bytes : Nat
  redacted : Bool
  truncated : Bool
  deriving DecidableEq

structure DiagnosticsBundle where
  id : String
  createdAtUnix : Nat
  directory : List Char
  note : Option (List Char)
  files : List DiagnosticsFile
  deriving DecidableEq

structure DiagnosticsDocument where
  schemaVersion : Nat
  bundle : DiagnosticsBundle
  deriving DecidableEq

def validateOptionalDiagnosticsText (value : Option (List Char)) (label : String) :
    Except IoError Unit :=
  match value with
  | none => .ok ()
  | some value =>
      if Utf8.byteLength value > MAX_DIAGNOSTICS_NOTE_LEN ∨ value.any isControl = true then
        .error ⟨.invalidInput, label ++ " is too long or contains a control character"⟩
      else .ok ()

/-- A part of a path that is empty, or leads elsewhere. -/
def unsafeSegment (segment : List Char) : Bool :=
  segment = [] || segment = ".".toList || segment = "..".toList

def unsafeName (name : List Char) : Bool :=
  name = [] || name.head? = some '/' || (name.splitOnP (· = '/')).any unsafeSegment ||
    name.any isControl

/-- The loop over the files, with the name of the file before. -/
def validateFiles : Option (List Char) → List DiagnosticsFile → Except IoError Unit
  | _, [] => .ok ()
  | previous, file :: files =>
      if unsafeName file.name = true then
        .error (invalidData "diagnostics file name is unsafe")
      else if previous.any (fun previous => file.name ≤ previous) = true then
        .error (invalidData "diagnostics files are not sorted")
      else validateFiles (some file.name) files

def validateDiagnosticsBundle (bundle : DiagnosticsBundle) : Except IoError Unit := do
  validateReleaseId bundle.id
  if bundle.directory = [] ∨ bundle.directory.any isControl = true then
    throw (invalidData "diagnostics directory is invalid")
  validateOptionalDiagnosticsText bundle.note "diagnostics note"
  if bundle.files.length > MAX_DIAGNOSTICS_FILES then
    throw (invalidData "diagnostics bundle contains too many files")
  validateFiles none bundle.files

theorem validateOptionalDiagnosticsText_eq_ok {value : Option (List Char)} {label : String} :
    validateOptionalDiagnosticsText value label = .ok () ↔ ∀ text, value = some text →
      Utf8.byteLength text ≤ MAX_DIAGNOSTICS_NOTE_LEN ∧ ∀ c ∈ text, isControl c = false := by
  rcases value with _ | text
  · simp [validateOptionalDiagnosticsText]
  · rw [validateOptionalDiagnosticsText]
    split
    · next h =>
      refine iff_of_false (fun h' => by cases h') fun hall => ?_
      obtain ⟨hshort, hplain⟩ := hall text rfl
      rcases h with h | h
      · omega
      · obtain ⟨c, hc, hcontrol⟩ := List.any_eq_true.mp h
        rw [hplain c hc] at hcontrol
        cases hcontrol
    · next h =>
      rw [not_or] at h
      refine iff_of_true rfl ?_
      rintro _ ⟨⟩
      exact ⟨by omega, fun c hc => by simpa using fun h' => h.2 (List.any_eq_true.mpr ⟨c, hc, h'⟩)⟩

theorem validateFiles_eq_ok {previous : Option (List Char)} {files : List DiagnosticsFile} :
    validateFiles previous files = .ok () ↔ (∀ file ∈ files, unsafeName file.name = false) ∧
      (∀ name ∈ previous, ∀ file ∈ files, name < file.name) ∧
      files.Pairwise fun left right => left.name < right.name := by
  induction files generalizing previous with
  | nil => simp [validateFiles]
  | cons file files ih =>
    rw [validateFiles]
    by_cases hbad : unsafeName file.name = true
    · rw [if_pos hbad]
      refine iff_of_false (fun h => by cases h) fun h => ?_
      rw [h.1 file List.mem_cons_self] at hbad
      cases hbad
    rw [if_neg hbad]
    by_cases horder : previous.any (fun previous => file.name ≤ previous) = true
    · rw [if_pos horder]
      refine iff_of_false (fun h => by cases h) fun h => ?_
      obtain ⟨name, hname, hle⟩ := (Option.any_eq_true _ _).mp horder
      exact absurd (of_decide_eq_true hle) (not_le.mpr (h.2.1 name hname file List.mem_cons_self))
    rw [if_neg horder, ih, List.pairwise_cons]
    have hbefore : ∀ name ∈ previous, name < file.name := fun name hname => by
      refine not_le.mp fun hle => horder ?_
      exact (Option.any_eq_true _ _).mpr ⟨name, hname, decide_eq_true hle⟩
    simp only [List.forall_mem_cons, Bool.not_eq_true] at hbad ⊢
    constructor
    · rintro ⟨hsafe, hfirst, hpairs⟩
      have hrest := hfirst file.name rfl
      exact ⟨⟨hbad, hsafe⟩, fun name hname => ⟨hbefore name hname, fun other hother =>
        (hbefore name hname).trans (hrest other hother)⟩, hrest, hpairs⟩
    · rintro ⟨⟨-, hsafe⟩, -, hrest, hpairs⟩
      refine ⟨hsafe, ?_, hpairs⟩
      rintro _ ⟨⟩
      exact hrest

theorem isIdChar_of_validateReleaseId {id : String} (h : validateReleaseId id = .ok ()) {c : Char}
    (hc : c ∈ id.toList) : (c.isAlphanum || c = '.' || c = '_' || c = '-') = true := by
  unfold validateReleaseId at h
  dsimp only at h
  split at h
  · cases h
  · next hnot =>
    have hall := (not_or.mp (not_or.mp (not_or.mp (not_or.mp hnot).2).2).2).2
    exact List.all_eq_true.mp ((Bool.not_eq_false _).mp hall) c hc

theorem validateDiagnosticsBundle_eq_ok {bundle : DiagnosticsBundle} :
    validateDiagnosticsBundle bundle = .ok () ↔ validateReleaseId bundle.id = .ok () ∧
      (bundle.directory ≠ [] ∧ ∀ c ∈ bundle.directory, isControl c = false) ∧
      validateOptionalDiagnosticsText bundle.note "diagnostics note" = .ok () ∧
      bundle.files.length ≤ MAX_DIAGNOSTICS_FILES ∧ validateFiles none bundle.files = .ok () := by
  have hdirectory : ¬ (bundle.directory = [] ∨ bundle.directory.any isControl = true) ↔
      bundle.directory ≠ [] ∧ ∀ c ∈ bundle.directory, isControl c = false := by
    simp [not_or]
  unfold validateDiagnosticsBundle
  rw [bind_eq_ok_iff, ← hdirectory]
  constructor
  · rintro ⟨⟨⟩, hid, h⟩
    rw [guard_eq_ok, bind_eq_ok_iff] at h
    obtain ⟨hdir, ⟨⟩, hnote, h⟩ := h
    rw [guard_eq_ok] at h
    exact ⟨hid, hdir, hnote, not_lt.mp h.1, h.2⟩
  · rintro ⟨hid, hdir, hnote, hcount, hfiles⟩
    refine ⟨(), hid, ?_⟩
    rw [guard_eq_ok, bind_eq_ok_iff]
    refine ⟨hdir, (), hnote, ?_⟩
    rw [guard_eq_ok]
    exact ⟨not_lt.mpr hcount, hfiles⟩

/-! ## 2. The directory -/

structure DiagnosticsDocument.Fits (document : DiagnosticsDocument) : Prop where
  version : document.schemaVersion < 2 ^ 32
  created : document.bundle.createdAtUnix < 2 ^ 64
  bytes : ∀ file ∈ document.bundle.files, file.bytes < 2 ^ 64

def DiagnosticsBundle.textLength (bundle : DiagnosticsBundle) : Nat :=
  Utf8.byteLength bundle.id.toList + Utf8.byteLength bundle.directory +
    (bundle.note.map Utf8.byteLength).getD 0 +
    (bundle.files.map fun file => Utf8.byteLength file.name).sum

/-- The document of a manifest, and its bytes. -/
structure ManifestCodec where
  encode : DiagnosticsDocument → Bytes
  decode : Bytes → Option DiagnosticsDocument
  decode_encode : ∀ document, document.Fits → decode (encode document) = some document
  /-- A byte of a text takes at most six, and the rest of a record has a fixed form. -/
  encode_length : ∀ document, document.Fits → (encode document).length ≤
    1024 + 6 * document.bundle.textLength + 256 * document.bundle.files.length

/-- What a path leads to, links not followed. -/
inductive DataNode where
  | missing
  | file (content : Bytes)
  | foreign

/-- `read_regular_file_bounded`. -/
def DataNode.readBounded (node : DataNode) (limit : Nat) : Except IoError (Option Bytes) :=
  match node with
  | .missing => .ok none
  | .file content => readRegularFileBounded (some content) limit
  | .foreign => .error (invalidData "Configuration or backup must be an ordinary bounded file")

structure EntryName where
  lossy : String
  isText : Bool
  replaced : isText = false → Utf8.REPLACEMENT_CHARACTER ∈ lossy.toList

def EntryName.toStr (name : EntryName) : Option String :=
  if name.isText then some name.lossy else none

/-- An entry of the diagnostics directory, with the file `diagnostics.json` in it. -/
structure BundleEntry where
  name : EntryName
  isDir : Bool
  manifest : DataNode

section Listing

variable (codec : ManifestCodec) (owned : String → Bool)

def readBundle (entry : BundleEntry) : Except IoError DiagnosticsBundle := do
  let bytes ← entry.manifest.readBounded (4 * 1024 * 1024)
  let bytes ← required (invalidData "diagnostics manifest missing") bytes
  let document ← required (invalidData "diagnostics manifest") (codec.decode bytes)
  if document.schemaVersion ≠ DIAGNOSTICS_SCHEMA_VERSION ∨
      entry.name.toStr ≠ some document.bundle.id then
    throw (invalidData "unsupported diagnostics identity or version")
  validateDiagnosticsBundle document.bundle
  pure document.bundle

/-- Is the entry being removed by a cleanup? -/
def isOwned (entry : BundleEntry) : Bool :=
  entry.name.toStr.any fun name => isValidReleaseId name && owned name

/-- One turn of the loop over the entries: the bundles, and the entries that gave a warning. -/
def listEntry (state : List DiagnosticsBundle × List String) (entry : BundleEntry) :
    List DiagnosticsBundle × List String :=
  if entry.isDir = false then state
  else if isOwned owned entry = true then state
  else match readBundle codec entry with
    | .ok bundle => (state.1 ++ [bundle], state.2)
    | .error _ =>
        if state.2.length < 64 then (state.1, state.2 ++ [entry.name.lossy]) else state

/-- The order of the list: the newest first, then the greater id. -/
def NewestBundle (left right : DiagnosticsBundle) : Prop :=
  right.createdAtUnix < left.createdAtUnix ∨
    (right.createdAtUnix = left.createdAtUnix ∧ right.id ≤ left.id)

instance decidableNewestBundle : DecidableRel NewestBundle := fun left right =>
  inferInstanceAs (Decidable (right.createdAtUnix < left.createdAtUnix ∨
    (right.createdAtUnix = left.createdAtUnix ∧ right.id ≤ left.id)))

/-- `list_with_warnings`, with the entries in the order in which they are read. -/
def listWithWarnings (ordinary : Bool) (entries : List BundleEntry) :
    Except IoError (List DiagnosticsBundle × List String) :=
  if ordinary = false then .error (invalidData "Diagnostic directory is not ordinary")
  else
    let listed := entries.foldl (listEntry codec owned) ([], [])
    .ok ((listed.1.insertionSort NewestBundle).take MAX_DIAGNOSTICS_BUNDLES, listed.2)

/-- The bundle that an entry adds to the list. -/
def bundleOf (entry : BundleEntry) : Option DiagnosticsBundle :=
  if entry.isDir = false ∨ isOwned owned entry = true then none
  else (readBundle codec entry).toOption

end Listing

instance newestBundle_total : Std.Total NewestBundle := ⟨fun left right => by
  unfold NewestBundle
  rcases lt_trichotomy left.createdAtUnix right.createdAtUnix with h | h | h
  · exact Or.inr (Or.inl h)
  · rcases le_total left.id right.id with hid | hid
    · exact Or.inr (Or.inr ⟨h, hid⟩)
    · exact Or.inl (Or.inr ⟨h.symm, hid⟩)
  · exact Or.inl (Or.inl h)⟩

instance newestBundle_trans : IsTrans DiagnosticsBundle NewestBundle := ⟨fun a b c hab hbc => by
  unfold NewestBundle at *
  rcases hab with hab | ⟨hab, hid⟩ <;> rcases hbc with hbc | ⟨hbc, hid'⟩
  · exact Or.inl (by omega)
  · exact Or.inl (by omega)
  · exact Or.inl (by omega)
  · exact Or.inr ⟨by omega, hid'.trans hid⟩⟩

/-! ## 3. The list after a bundle was written -/

section Listed

variable {codec : ManifestCodec} {owned : String → Bool} {entries : List BundleEntry}

/-- The entries that may give a warning. -/
def Warned (codec : ManifestCodec) (owned : String → Bool) (entry : BundleEntry) : Prop :=
  entry.isDir = true ∧ isOwned owned entry = false ∧ bundleOf codec owned entry = none

variable (codec owned) in
theorem listEntry_adds (state : List DiagnosticsBundle × List String) (entry : BundleEntry) :
    (listEntry codec owned state entry).1 = state.1 ++ (bundleOf codec owned entry).toList ∧
      ∀ w ∈ (listEntry codec owned state entry).2, w ∈ state.2 ∨
        (Warned codec owned entry ∧ w = entry.name.lossy) := by
  by_cases hdir : entry.isDir = false
  · have hnone : bundleOf codec owned entry = none := if_pos (Or.inl hdir)
    rw [listEntry, if_pos hdir, hnone]
    simp +contextual
  by_cases howned : isOwned owned entry = true
  · have hnone : bundleOf codec owned entry = none := if_pos (Or.inr howned)
    rw [listEntry, if_neg hdir, if_pos howned, hnone]
    simp +contextual
  have hread : bundleOf codec owned entry = (readBundle codec entry).toOption :=
    if_neg (by simp [hdir, howned])
  rcases h : readBundle codec entry with e | bundle
  · rw [h] at hread
    have hwarned : Warned codec owned entry :=
      ⟨by simpa using hdir, by simpa using howned, hread⟩
    rw [listEntry, if_neg hdir, if_neg howned, hread, h]
    dsimp only [Except.toOption]
    split
    · refine ⟨by simp, fun w hw => ?_⟩
      rcases List.mem_append.mp hw with hw | hw
      · exact Or.inl hw
      · exact Or.inr ⟨hwarned, List.mem_singleton.mp hw⟩
    · simp +contextual
  · rw [listEntry, if_neg hdir, if_neg howned, hread, h]
    simp +contextual [Except.toOption]

theorem foldl_listEntry (state : List DiagnosticsBundle × List String) :
    (entries.foldl (listEntry codec owned) state).1 =
        state.1 ++ entries.filterMap (bundleOf codec owned) ∧
      ∀ w ∈ (entries.foldl (listEntry codec owned) state).2, w ∈ state.2 ∨
        ∃ entry ∈ entries, Warned codec owned entry ∧ w = entry.name.lossy := by
  induction entries generalizing state with
  | nil => simp
  | cons entry entries ih =>
    obtain ⟨hbundles, hwarnings⟩ := ih (listEntry codec owned state entry)
    obtain ⟨hbundle, hwarning⟩ := listEntry_adds codec owned state entry
    rw [List.foldl_cons]
    constructor
    · rw [hbundles, hbundle, List.append_assoc, List.filterMap_cons]
      rcases bundleOf codec owned entry with _ | bundle <;> simp
    · intro w hw
      rcases hwarnings w hw with h | ⟨e, he, h⟩
      · rcases hwarning w h with h | h
        · exact Or.inl h
        · exact Or.inr ⟨entry, List.mem_cons_self, h⟩
      · exact Or.inr ⟨e, List.mem_cons_of_mem _ he, h⟩

theorem bundleOf_eq_some {entry : BundleEntry} {bundle : DiagnosticsBundle}
    (h : bundleOf codec owned entry = some bundle) : entry.name.toStr = some bundle.id := by
  unfold bundleOf at h
  split at h
  · cases h
  · rcases hread : readBundle codec entry with e | b
    · rw [hread] at h
      cases h
    · rw [hread] at h
      cases h
      unfold readBundle at hread
      obtain ⟨bytes, -, hread⟩ := bind_eq_ok hread
      obtain ⟨bytes, -, hread⟩ := bind_eq_ok hread
      obtain ⟨document, -, hread⟩ := bind_eq_ok hread
      rw [guard_eq_ok, not_or, not_not, not_not] at hread
      obtain ⟨⟨-, hname⟩, hread⟩ := hread
      obtain ⟨-, -, hread⟩ := bind_eq_ok hread
      cases hread
      exact hname

variable (owned) in
theorem bundleOf_written {entry : BundleEntry} {bundle : DiagnosticsBundle}
    (hvalid : validateDiagnosticsBundle bundle = .ok ()) (hdir : entry.isDir = true)
    (hname : entry.name.toStr = some bundle.id)
    (hmanifest : entry.manifest = .file (codec.encode ⟨DIAGNOSTICS_SCHEMA_VERSION, bundle⟩))
    (hfits : (DiagnosticsDocument.mk DIAGNOSTICS_SCHEMA_VERSION bundle).Fits)
    (hsize : (codec.encode ⟨DIAGNOSTICS_SCHEMA_VERSION, bundle⟩).length ≤ 4 * 1024 * 1024) :
    isOwned owned entry = owned bundle.id ∧
      bundleOf codec owned entry = if owned bundle.id then none else some bundle := by
  have hid := isValidReleaseId_iff.mpr (validateDiagnosticsBundle_eq_ok.mp hvalid).1
  have howned : isOwned owned entry = owned bundle.id := by simp [isOwned, hname, hid]
  have hread : readBundle codec entry = .ok bundle := by
    unfold readBundle
    rw [hmanifest, DataNode.readBounded, readRegularFileBounded, if_neg (by omega)]
    have hdecode := codec.decode_encode ⟨DIAGNOSTICS_SCHEMA_VERSION, bundle⟩ hfits
    refine bind_eq_ok_iff.mpr ⟨_, rfl, bind_eq_ok_iff.mpr ⟨_, rfl, ?_⟩⟩
    refine bind_eq_ok_iff.mpr ⟨_, required_eq_ok.mpr hdecode, ?_⟩
    rw [guard_eq_ok]
    exact ⟨by simp [hname], bind_eq_ok_iff.mpr ⟨(), hvalid, rfl⟩⟩
  refine ⟨howned, ?_⟩
  unfold bundleOf
  rw [howned, hdir, hread]
  cases owned bundle.id <;> simp [Except.toOption]

/-- The listed bundles that come before a bundle. -/
def ahead (codec : ManifestCodec) (owned : String → Bool) (entries : List BundleEntry)
    (bundle : DiagnosticsBundle) : List DiagnosticsBundle :=
  (entries.filterMap (bundleOf codec owned)).filter fun other => ¬ NewestBundle bundle other

theorem pairwise_bundleOf (hnames : (entries.filterMap fun e => e.name.toStr).Nodup) :
    (entries.filterMap (bundleOf codec owned)).Pairwise fun a b => a.id ≠ b.id := by
  refine List.pairwise_filterMap.mpr ((List.pairwise_filterMap.mp hnames).imp ?_)
  intro e e' hne a ha b hb
  exact hne _ (bundleOf_eq_some ha) _ (bundleOf_eq_some hb)

theorem id_notMem_warnings {listing : List BundleEntry} {bundle : DiagnosticsBundle}
    (hid : validateReleaseId bundle.id = .ok ())
    (hunwarned : ∀ e ∈ listing, e.name.toStr = some bundle.id → ¬ Warned codec owned e) :
    bundle.id ∉ (listing.foldl (listEntry codec owned) ([], [])).2 := by
  intro hmem
  rcases (foldl_listEntry ([], [])).2 _ hmem with h | ⟨e, he, hwarned, hlossy⟩
  · cases h
  · cases htext : e.name.isText with
    | true => exact hunwarned e he (by simp [EntryName.toStr, htext, hlossy]) hwarned
    | false =>
      have hmark := e.name.replaced htext
      rw [← hlossy] at hmark
      have hchar := isIdChar_of_validateReleaseId hid hmark
      revert hchar
      decide

/-- **When a new bundle is listed**, in whatever order the entries are read: the directory is
ordinary, no cleanup owns the bundle, and fewer than 32 bundles come before it. -/
theorem listed_iff {ordinary : Bool} {entry : BundleEntry} {bundle : DiagnosticsBundle}
    (hvalid : validateDiagnosticsBundle bundle = .ok ()) (hdir : entry.isDir = true)
    (hname : entry.name.toStr = some bundle.id)
    (hmanifest : entry.manifest = .file (codec.encode ⟨DIAGNOSTICS_SCHEMA_VERSION, bundle⟩))
    (hfits : (DiagnosticsDocument.mk DIAGNOSTICS_SCHEMA_VERSION bundle).Fits)
    (hsize : (codec.encode ⟨DIAGNOSTICS_SCHEMA_VERSION, bundle⟩).length ≤ 4 * 1024 * 1024)
    (hnames : (entries.filterMap fun e => e.name.toStr).Nodup)
    (hfresh : ∀ e ∈ entries, e.name.toStr ≠ some bundle.id) :
    (∀ listing, listing.Perm (entry :: entries) → ∃ bundles warnings,
      listWithWarnings codec owned ordinary listing = .ok (bundles, warnings) ∧
        bundle ∈ bundles ∧ bundle.id ∉ warnings) ↔
      ordinary = true ∧ owned bundle.id = false ∧
        (ahead codec owned entries bundle).length < MAX_DIAGNOSTICS_BUNDLES := by
  obtain ⟨howned, hbundle⟩ := bundleOf_written owned hvalid hdir hname hmanifest hfits
    hsize
  have hids : ∀ other ∈ entries.filterMap (bundleOf codec owned), other.id ≠ bundle.id := by
    intro other hmem heq
    obtain ⟨e, he, hb⟩ := List.mem_filterMap.mp hmem
    exact hfresh e he (heq ▸ bundleOf_eq_some hb)
  have hlisted : ∀ {listing bundles warnings}, listing.Perm (entry :: entries) →
      listWithWarnings codec owned true listing = .ok (bundles, warnings) →
      bundles = ((listing.filterMap (bundleOf codec owned)).insertionSort NewestBundle).take
          MAX_DIAGNOSTICS_BUNDLES ∧
        warnings = (listing.foldl (listEntry codec owned) ([], [])).2 := by
    intro listing bundles warnings _ h
    have hpair := Except.ok.inj h
    rw [(foldl_listEntry ([], [])).1, List.nil_append] at hpair
    exact ⟨(Prod.mk.inj hpair).1.symm, (Prod.mk.inj hpair).2.symm⟩
  -- with no owner the bundle is among those that are sorted, and no other has its id
  have hplace : ∀ {listing : List BundleEntry}, listing.Perm (entry :: entries) →
      owned bundle.id = false →
      (bundle ∈ ((listing.filterMap (bundleOf codec owned)).insertionSort NewestBundle).take
          MAX_DIAGNOSTICS_BUNDLES ↔
        (ahead codec owned entries bundle).length < MAX_DIAGNOSTICS_BUNDLES) := by
    intro listing hperm hfree
    have hbundles := hperm.filterMap (bundleOf codec owned)
    rw [List.filterMap_cons, hbundle, hfree, if_neg Bool.false_ne_true] at hbundles
    have hnodup : (listing.filterMap (bundleOf codec owned)).Nodup := by
      refine hbundles.nodup_iff.mpr (List.nodup_cons.mpr ⟨fun hmem => hids _ hmem rfl, ?_⟩)
      exact (pairwise_bundleOf hnames).imp fun hne heq => hne (congrArg _ heq)
    rw [mem_take_insertionSort_iff (hbundles.mem_iff.mpr List.mem_cons_self) hnodup,
      (hbundles.filter _).length_eq]
    · rw [List.filter_cons_of_neg (by simp [NewestBundle])]
      rfl
    · intro other hother hleft hright
      rcases List.mem_cons.mp (hbundles.mem_iff.mp hother) with rfl | hother
      · rfl
      · refine absurd (le_antisymm ?_ ?_) (hids other hother)
        · rcases hright with h | ⟨_, h⟩
          · rcases hleft with h' | ⟨h', _⟩ <;> omega
          · exact h
        · rcases hleft with h | ⟨_, h⟩
          · rcases hright with h' | ⟨h', _⟩ <;> omega
          · exact h
  constructor
  · intro h
    obtain ⟨bundles, warnings, hlist, hmem, -⟩ := h _ (List.Perm.refl _)
    have hord : ordinary = true := by
      cases ordinary with
      | true => rfl
      | false => cases hlist
    subst hord
    rw [(hlisted (List.Perm.refl _) hlist).1] at hmem
    have hfree : owned bundle.id = false := by
      cases hfree : owned bundle.id with
      | false => rfl
      | true =>
        have hin := (List.perm_insertionSort _ _).mem_iff.mp (List.mem_of_mem_take hmem)
        rw [List.filterMap_cons, hbundle, hfree, if_pos rfl] at hin
        exact absurd rfl (hids _ hin)
    exact ⟨rfl, hfree, (hplace (List.Perm.refl _) hfree).mp hmem⟩
  · rintro ⟨rfl, hfree, hfew⟩ listing hperm
    obtain ⟨bundles, warnings, hlist⟩ : ∃ bundles warnings,
        listWithWarnings codec owned true listing = .ok (bundles, warnings) := ⟨_, _, rfl⟩
    obtain ⟨hbundles, hwarnings⟩ := hlisted hperm hlist
    refine ⟨bundles, warnings, hlist, ?_, ?_⟩
    · rw [hbundles]
      exact (hplace hperm hfree).mpr hfew
    · rw [hwarnings]
      refine id_notMem_warnings (validateDiagnosticsBundle_eq_ok.mp hvalid).1 fun e he hid hw => ?_
      rcases List.mem_cons.mp (hperm.mem_iff.mp he) with rfl | he
      · rw [Warned, hbundle, hfree] at hw
        cases hw.2.2
      · exact hfresh e he hid

end Listed

/-! ## 4. The text of a record -/

section Manifest

def jsonText (text : List Char) : Bytes := jsonString (Utf8.encode text)

def jsonBool (b : Bool) : Bytes := asciiBytes (if b then "true".toList else "false".toList)

/-- A file as it is printed, without its indentation. -/
def encodeFile (file : DiagnosticsFile) : Bytes :=
  asciiBytes "\x7b\n        \"name\": ".toList ++ (jsonText file.name ++
    (asciiBytes ",\n        \"bytes\": ".toList ++ ((decimal file.bytes ++ [0x2c]) ++
      (asciiBytes "\n        \"redacted\": ".toList ++ (jsonBool file.redacted ++
        (asciiBytes ",\n        \"truncated\": ".toList ++ (jsonBool file.truncated ++
          asciiBytes "\n      \x7d".toList)))))))

def encodeFiles : List DiagnosticsFile → Bytes
  | [] => asciiBytes "[]".toList
  | file :: files =>
      asciiBytes "[\n      ".toList ++ (encodeFile file ++
        ((files.flatMap fun file => asciiBytes ",\n      ".toList ++ encodeFile file) ++ [0x0a]) ++
          asciiBytes "    ]".toList)

def encodeNote : Option (List Char) → Bytes
  | none => asciiBytes ",\n    \"files\": ".toList
  | some note =>
      asciiBytes ",\n    \"note\": ".toList ++ (jsonText note ++
        asciiBytes ",\n    \"files\": ".toList)

/-- `encode_json` of a document. -/
def encodeDocument (document : DiagnosticsDocument) : Bytes :=
  asciiBytes "\x7b\n  \"schema_version\": ".toList ++ ((decimal document.schemaVersion ++ [0x2c]) ++
    (asciiBytes "\n  \"bundle\": \x7b\n    \"id\": ".toList ++ (jsonText document.bundle.id.toList ++
      (asciiBytes ",\n    \"created_at_unix\": ".toList ++
        ((decimal document.bundle.createdAtUnix ++ [0x2c]) ++
          (asciiBytes "\n    \"directory\": ".toList ++ (jsonText document.bundle.directory ++
            (encodeNote document.bundle.note ++ (encodeFiles document.bundle.files ++
              asciiBytes "\n  \x7d\n\x7d".toList)))))))))

theorem prefixCode_jsonText : PrefixCode jsonText :=
  prefixCode_jsonString.comp fun a b h => by
    have hdecode := congrArg Utf8.decode h
    rwa [Utf8.decode_encode, Utf8.decode_encode, Option.some.injEq] at hdecode

theorem prefixCode_jsonBool : PrefixCode jsonBool := by
  refine prefixCode_iff.mpr fun a b h => ?_
  revert h
  cases a <;> cases b <;> decide

theorem field_inj {α : Type} {code : α → Bytes} (h : PrefixCode code) {start r r' : Bytes} {a b : α}
    (heq : start ++ (code a ++ r) = start ++ (code b ++ r')) : a = b ∧ r = r' :=
  h.append_inj (List.append_cancel_left heq)

theorem number_inj {start r r' : Bytes} {m n : Nat}
    (heq : start ++ ((decimal m ++ [0x2c]) ++ r) = start ++ ((decimal n ++ [0x2c]) ++ r')) :
    m = n ∧ r = r' :=
  (prefixCode_decimal (by decide)).append_inj (List.append_cancel_left heq)

theorem prefixCode_encodeFile : PrefixCode encodeFile := by
  rintro ⟨name, bytes, redacted, truncated⟩ ⟨name', bytes', redacted', truncated'⟩ r r' heq
  unfold encodeFile at heq
  rw [List.append_assoc, List.append_assoc, List.append_assoc _ _ r', List.append_assoc _ _ r'] at heq
  obtain ⟨rfl, heq⟩ := field_inj prefixCode_jsonText heq
  rw [List.append_assoc, List.append_assoc, List.append_assoc _ _ r', List.append_assoc _ _ r'] at heq
  obtain ⟨rfl, heq⟩ := number_inj heq
  rw [List.append_assoc, List.append_assoc, List.append_assoc _ _ r', List.append_assoc _ _ r'] at heq
  obtain ⟨rfl, heq⟩ := field_inj prefixCode_jsonBool heq
  rw [List.append_assoc, List.append_assoc, List.append_assoc _ _ r', List.append_assoc _ _ r'] at heq
  obtain ⟨rfl, -⟩ := field_inj prefixCode_jsonBool heq
  rfl

theorem append_ne_of_getElem? {left right : Bytes} {i : Nat} {x y : UInt8} (hx : left[i]? = some x)
    (hy : right[i]? = some y) (hne : x ≠ y) (r r' : Bytes) : left ++ r ≠ right ++ r' := by
  intro heq
  have hi := congrArg (fun bytes : Bytes => bytes[i]?) heq
  rw [List.getElem?_append_left (List.getElem?_eq_some_iff.mp hx).1,
    List.getElem?_append_left (List.getElem?_eq_some_iff.mp hy).1, hx, hy] at hi
  exact hne (Option.some.inj hi)

theorem encodeFiles_nil (r : Bytes) : encodeFiles [] ++ r = asciiBytes "[]".toList ++ r := rfl

theorem encodeFiles_cons (file : DiagnosticsFile) (files : List DiagnosticsFile) (r : Bytes) :
    encodeFiles (file :: files) ++ r = asciiBytes "[\n      ".toList ++ (encodeFile file ++
      (((files.flatMap fun file => asciiBytes ",\n      ".toList ++ encodeFile file) ++ [0x0a]) ++
        (asciiBytes "    ]".toList ++ r))) := by
  simp only [encodeFiles, List.append_assoc]

theorem prefixCode_encodeFiles : PrefixCode encodeFiles := by
  have hrest : PrefixCode fun files : List DiagnosticsFile =>
      (files.flatMap fun file => asciiBytes ",\n      ".toList ++ encodeFile file) ++ [0x0a] := by
    refine (prefixCode_encodeFile.prepend (asciiBytes ",\n      ".toList)).terminated fun a r => ?_
    have hstart : asciiBytes ",\n      ".toList = 0x2c :: asciiBytes "\n      ".toList := by decide +kernel
    rw [hstart]
    exact ⟨List.cons_ne_nil _ _, fun h => absurd (Option.some.inj h) (by decide)⟩
  have hempty : (asciiBytes "[]".toList)[1]? = some 0x5d := by decide +kernel
  have hfilled : (asciiBytes "[\n      ".toList)[1]? = some 0x0a := by decide +kernel
  intro as bs r r' heq
  rcases as with _ | ⟨a, as⟩ <;> rcases bs with _ | ⟨b, bs⟩
  · rfl
  · rw [encodeFiles_nil, encodeFiles_cons] at heq
    exact absurd heq (append_ne_of_getElem? hempty hfilled (by decide) _ _)
  · rw [encodeFiles_nil, encodeFiles_cons] at heq
    exact absurd heq (append_ne_of_getElem? hfilled hempty (by decide) _ _)
  · rw [encodeFiles_cons, encodeFiles_cons] at heq
    obtain ⟨rfl, hlist⟩ := field_inj prefixCode_encodeFile heq
    rw [hrest _ _ _ _ hlist]

theorem encodeNote_none (r : Bytes) :
    encodeNote none ++ r = asciiBytes ",\n    \"files\": ".toList ++ r := rfl

theorem encodeNote_some (note : List Char) (r : Bytes) :
    encodeNote (some note) ++ r = asciiBytes ",\n    \"note\": ".toList ++ (jsonText note ++
      (asciiBytes ",\n    \"files\": ".toList ++ r)) := by
  rw [encodeNote, List.append_assoc, List.append_assoc]

theorem prefixCode_encodeNote : PrefixCode encodeNote := by
  have hnone : (asciiBytes ",\n    \"files\": ".toList)[7]? = some 0x66 := by decide +kernel
  have hsome : (asciiBytes ",\n    \"note\": ".toList)[7]? = some 0x6e := by decide +kernel
  intro a b r r' heq
  rcases a with _ | a <;> rcases b with _ | b
  · rfl
  · rw [encodeNote_none, encodeNote_some] at heq
    exact absurd heq (append_ne_of_getElem? hnone hsome (by decide) _ _)
  · rw [encodeNote_none, encodeNote_some] at heq
    exact absurd heq (append_ne_of_getElem? hsome hnone (by decide) _ _)
  · rw [encodeNote_some, encodeNote_some] at heq
    rw [(field_inj prefixCode_jsonText heq).1]

/-- **A record is read back.** -/
theorem encodeDocument_injective : Function.Injective encodeDocument := by
  rintro ⟨version, id, created, directory, note, files⟩ ⟨version', id', created', directory', note',
    files'⟩ heq
  unfold encodeDocument at heq
  obtain ⟨rfl, heq⟩ := number_inj heq
  obtain ⟨hid, heq⟩ := field_inj prefixCode_jsonText heq
  obtain ⟨rfl, heq⟩ := number_inj heq
  obtain ⟨rfl, heq⟩ := field_inj prefixCode_jsonText heq
  obtain ⟨rfl, heq⟩ := prefixCode_encodeNote.append_inj heq
  obtain ⟨rfl, -⟩ := prefixCode_encodeFiles.append_inj heq
  obtain rfl : id = id' := String.toList_injective hid
  rfl

theorem length_decimal {n : Nat} (h : n < 2 ^ 64) : (decimal n).length ≤ 20 := by
  rw [decimal, asciiBytes, List.length_map]
  exact (Nat.length_toDigits_le_iff (by omega) (by omega)).mpr (lt_trans h (by norm_num))

theorem length_jsonText (text : List Char) :
    (jsonText text).length ≤ 6 * Utf8.byteLength text + 2 := by
  have hbytes : ∀ bytes : Bytes, (bytes.flatMap escapeByte).length ≤ 6 * bytes.length := by
    intro bytes
    induction bytes with
    | nil => exact Nat.zero_le _
    | cons byte bytes ih =>
      have hbyte : (escapeByte byte).length ≤ 6 := by
        unfold escapeByte
        split
        · exact (by decide : 2 ≤ 6)
        · split
          · exact le_rfl
          · exact (by decide : 1 ≤ 6)
      rw [List.flatMap_cons, List.length_append, List.length_cons]
      omega
  have hlength := hbytes (Utf8.encode text)
  rw [Utf8.length_encode] at hlength
  simp only [jsonText, jsonString, List.length_cons, List.length_append, List.length_nil]
  omega

theorem length_jsonBool (b : Bool) : (jsonBool b).length ≤ 5 := by
  cases b <;> decide

theorem length_asciiBytes (text : List Char) : (asciiBytes text).length = text.length :=
  List.length_map _

theorem length_encodeFile {file : DiagnosticsFile} (h : file.bytes < 2 ^ 64) :
    (encodeFile file).length ≤ 6 * Utf8.byteLength file.name + 140 := by
  have hname := length_jsonText file.name
  have hbytes := length_decimal h
  have hredacted := length_jsonBool file.redacted
  have htruncated := length_jsonBool file.truncated
  have hliterals : "\x7b\n        \"name\": ".toList.length = 18 ∧
      ",\n        \"bytes\": ".toList.length = 19 ∧ "\n        \"redacted\": ".toList.length = 21 ∧
      ",\n        \"truncated\": ".toList.length = 23 ∧ "\n      \x7d".toList.length = 8 := by
    decide +kernel
  obtain ⟨h₁, h₂, h₃, h₄, h₅⟩ := hliterals
  simp only [encodeFile, List.length_append, length_asciiBytes, List.length_cons, List.length_nil, h₁,
    h₂, h₃, h₄, h₅]
  omega

theorem length_encodeFiles {files : List DiagnosticsFile} (h : ∀ file ∈ files, file.bytes < 2 ^ 64) :
    (encodeFiles files).length ≤
      6 * (files.map fun file => Utf8.byteLength file.name).sum + 150 * files.length + 20 := by
  have hrest : ∀ files : List DiagnosticsFile, (∀ file ∈ files, file.bytes < 2 ^ 64) →
      (files.flatMap fun file => asciiBytes ",\n      ".toList ++ encodeFile file).length ≤
        6 * (files.map fun file => Utf8.byteLength file.name).sum + 150 * files.length := by
    intro files h
    induction files with
    | nil => exact Nat.zero_le _
    | cons file files ih =>
      have hfile := length_encodeFile (h file List.mem_cons_self)
      have hfiles := ih fun f hf => h f (List.mem_cons_of_mem _ hf)
      have hliteral : ",\n      ".toList.length = 8 := by decide +kernel
      rw [List.flatMap_cons, List.length_append, List.length_append, length_asciiBytes, hliteral,
        List.map_cons, List.sum_cons, List.length_cons]
      omega
  have hliterals : "[]".toList.length = 2 ∧ "[\n      ".toList.length = 8 ∧
      "    ]".toList.length = 5 := by decide +kernel
  obtain ⟨h₁, h₂, h₃⟩ := hliterals
  rcases files with _ | ⟨file, files⟩
  · rw [encodeFiles, length_asciiBytes, h₁]
    omega
  · have hfile := length_encodeFile (h file List.mem_cons_self)
    have hfiles := hrest files fun f hf => h f (List.mem_cons_of_mem _ hf)
    simp only [encodeFiles, List.length_append, length_asciiBytes, h₂, h₃, List.length_cons,
      List.length_nil, List.map_cons, List.sum_cons]
    omega

theorem length_encodeDocument {document : DiagnosticsDocument} (h : document.Fits) :
    (encodeDocument document).length ≤
      1024 + 6 * document.bundle.textLength + 256 * document.bundle.files.length := by
  have hversion := length_decimal (lt_trans h.version (by norm_num))
  have hcreated := length_decimal h.created
  have hid := length_jsonText document.bundle.id.toList
  have hdirectory := length_jsonText document.bundle.directory
  have hfiles := length_encodeFiles h.bytes
  have hliterals : "\x7b\n  \"schema_version\": ".toList.length = 22 ∧
      "\n  \"bundle\": \x7b\n    \"id\": ".toList.length = 25 ∧
      ",\n    \"created_at_unix\": ".toList.length = 25 ∧
      "\n    \"directory\": ".toList.length = 18 ∧ "\n  \x7d\n\x7d".toList.length = 6 ∧
      ",\n    \"files\": ".toList.length = 15 ∧ ",\n    \"note\": ".toList.length = 14 := by
    decide +kernel
  obtain ⟨h₁, h₂, h₃, h₄, h₅, h₆, h₇⟩ := hliterals
  have hnote : (encodeNote document.bundle.note).length ≤
      6 * (document.bundle.note.map Utf8.byteLength).getD 0 + 31 := by
    rcases document.bundle.note with _ | note
    · rw [encodeNote, length_asciiBytes, h₆]
      omega
    · have htext := length_jsonText note
      simp only [encodeNote, List.length_append, length_asciiBytes, h₆, h₇, Option.map_some,
        Option.getD_some]
      omega
  simp only [encodeDocument, List.length_append, length_asciiBytes, List.length_cons, List.length_nil,
    h₁, h₂, h₃, h₄, h₅, DiagnosticsBundle.textLength]
  omega

/-- The records as they are printed, and read where they were printed. -/
noncomputable def manifestCodec : ManifestCodec where
  encode := encodeDocument
  decode := Function.partialInv encodeDocument
  decode_encode document _ := Function.partialInv_left encodeDocument_injective document
  encode_length _ h := length_encodeDocument h

end Manifest
end DshNexus.Diagnostics
