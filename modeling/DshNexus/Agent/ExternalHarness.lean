import DshNexus.Core.Utf8
import DshNexus.Core.Framing
import DshNexus.Core.PrefixCode

/-!
# The fingerprint of an external Harness

`crates/nexus-core/src/external_harness.rs`: a source directory of the user is identified by a
hash of what is in it, without `.git`.  For every entry, the path, the length and the time of its
last change are hashed as JSON; behind them a word for its kind; behind that the target of a link,
or the digest of the file for the three files that the launch depends on.

Nothing marks the end of a link's target.  Wherever the target is, its text may go on as what is
hashed for the entries behind the link.

1. The directory, `inspect`, `verify`.
2. `hashed_of_visit`, `complete_of_visit`: what has been hashed, and that nothing was left out.
3. `ends_in_links`: where two directories that differ are hashed alike.
4. `change_noticed_iff`.
-/

namespace DshNexus.Agent.ExternalHarness

/-! ## 1. The source -/

abbrev Names := List Bytes

def SLASH : UInt8 := 0x2f

/-- `.git`. -/
def DOT_GIT : Bytes := asciiBytes ".git".toList

/-- The files that are hashed with their content. -/
def ENTRY_FILES : List Names :=
  [["package.json"], ["apps", "cli", "package.json"], ["apps", "cli", "lib", "bin.js"]].map
    (·.map fun name => asciiBytes name.toList)

def MAX_TREE_DEPTH : Nat := 512

def ENTRY_LIMIT : Nat := 150000

def invalid (s : String) : IoError := ⟨.other, s⟩

inductive Kind where
  | directory
  | file (content : Bytes)
  /-- with the outcome of `canonicalize` -/
  | link (canonical : Except IoError Names)
  | other

/-- The metadata of an entry, which is not followed where it is a link. -/
structure Entry where
  len : Nat
  /-- the nanoseconds since the epoch; no value before it -/
  modified : Option Nat
  kind : Kind

/-- **A directory**: its entries at all depths, and the order in which they are listed. -/
structure SourceTree where
  node : Names → Option Entry
  entries : Names → List Bytes
  nodup : ∀ path, (entries path).Nodup
  mem_entries : ∀ path name, name ∈ entries path ↔ (node (path ++ [name])).isSome = true
  name : ∀ path name, name ∈ entries path → name ≠ [] ∧ SLASH ∉ name
  parent : ∀ path name, name ∈ entries path →
    path = [] ∨ ∃ entry, node path = some entry ∧ entry.kind = .directory

def pathText (path : Names) : Bytes := [SLASH].intercalate path

/-- `to_string_lossy` of an absolute path. -/
def targetText (target : Names) : Bytes :=
  Utf8.encode (Utf8.decodeLossy (SLASH :: pathText target))

def LINK : Bytes := asciiBytes "link".toList

def DIR : Bytes := asciiBytes "dir".toList

def FILE : Bytes := asciiBytes "file".toList

/-- The JSON of the path, the length and the time. -/
def entryHead (path : Bytes) (len modified : Nat) : Bytes :=
  [0x5b] ++ (jsonString path ++
    ([0x2c] ++ ((decimal len ++ [0x2c]) ++ (decimal modified ++ [0x5d]))))

/-- `serde_json::to_vec` of the three, where the path is text. -/
def entryJson (path : Names) (len modified : Nat) : Except IoError Bytes :=
  if Utf8.decode (pathText path) = none then
    .error ⟨.other, "path contains invalid UTF-8 characters"⟩
  else .ok (entryHead (pathText path) len modified)

/-- What has been hashed, and the number of entries. -/
structure Inspection where
  hashed : Bytes
  count : Nat

def budgetExceeded : IoError := invalid "External Harness inspection budget exceeded"

/-- The names of a directory in their order. -/
def byName (names : List Bytes) : List Bytes := names.insertionSort fun a b => a ≤ b

section Visit

variable (sha256 : Bytes → Bytes) (t : SourceTree) (root : Names)

/-- One turn of the loop over the entries of a directory. -/
def visitEntry (recurse : Names → Inspection → Except IoError Inspection) (path : Names)
    (state : Inspection) (name : Bytes) : Except IoError Inspection :=
  if name = DOT_GIT then .ok state
  else if state.count + 1 > ENTRY_LIMIT then .error budgetExceeded
  else do
    let entry ← required ⟨.notFound, "entry"⟩ (t.node (path ++ [name]))
    let modified ← required ⟨.other, "second time provided was later than self"⟩ entry.modified
    let json ← entryJson (path ++ [name]) entry.len modified
    match entry.kind with
    | .link canonical => do
        let target ← canonical
        if root.isPrefixOf target = false then
          throw (invalid "External Harness dependency link escapes its directory")
        else pure ⟨state.hashed ++ json ++ LINK ++ targetText target, state.count + 1⟩
    | .directory => recurse (path ++ [name]) ⟨state.hashed ++ json ++ DIR, state.count + 1⟩
    | .file content =>
        if path ++ [name] ∈ ENTRY_FILES then do
          let data ← readRegularFileBounded (some content) (16 * 1024 * 1024)
          let data ← required (invalid "External entry disappeared") data
          pure ⟨state.hashed ++ json ++ FILE ++ sha256 data, state.count + 1⟩
        else pure ⟨state.hashed ++ json ++ FILE, state.count + 1⟩
    | .other => throw (invalid "External Harness contains an unsupported file")

/-- `visit` of a directory, with the number of levels that are left. -/
def visit : Nat → Names → Inspection → Except IoError Inspection
  | 0, _, _ =>
      .error (invalid "External Harness directory nesting exceeds the supported depth")
  | levels + 1, path, state =>
      if state.count + (t.entries path).length > ENTRY_LIMIT then .error budgetExceeded
      else (byName (t.entries path)).foldlM (visitEntry sha256 t root (visit levels) path) state

end Visit

/-- What is read of `package.json`: the texts at `name` and `version`. -/
structure Manifest where
  name : Option String
  version : Option String

/-- What a call meets besides the directory itself. -/
structure Setting where
  isAbsolute : Bool
  canonicalize : Except IoError Names
  /-- `paths_overlap_by_identity` with the data of Nexus -/
  overlaps : Except IoError Bool
  /-- `serde_json::from_slice` -/
  fromSlice : Bytes → Except IoError Manifest
  /-- `is_file` of `apps/cli/lib/bin.js` -/
  isBuilt : Bool
  /-- `is_dir` of `node_modules` -/
  hasDependencies : Bool
  /-- `data_root_identity` -/
  identity : Except IoError String
  sha256 : Bytes → Bytes
  sha256_length : ∀ bytes, (sha256 bytes).length = 32

/-- `ExternalHarness`. -/
structure Harness where
  root : Names
  identity : String
  fingerprint : Bytes
  version : String
  deriving DecidableEq

/-- The two digits of a byte, as with `{:x}`. -/
def hexByte (byte : UInt8) : Bytes := [hexDigit (byte.toNat / 16), hexDigit (byte.toNat % 16)]

/-- The content of a file in the directory. -/
def SourceTree.file (t : SourceTree) (path : Names) : Option Bytes :=
  (t.node path).bind fun entry =>
    match entry.kind with
    | .file content => some content
    | .directory => none
    | .link _ => none
    | .other => none

def ensure (holds : Bool) (message : String) : Except IoError Unit :=
  if holds then .ok () else .error (invalid message)

def inspect (s : Setting) (t : SourceTree) : Except IoError Harness := do
  ensure s.isAbsolute "External Harness requires an absolute directory"
  let root ← s.canonicalize
  ensure (!(← s.overlaps)) "External Harness must not overlap Nexus data or cleanup directories"
  let manifest ← readRegularFileBounded (t.file [asciiBytes "package.json".toList]) (1024 * 1024)
  let manifest ← required (invalid "Harness package.json is missing") manifest
  let manifest ← s.fromSlice manifest
  ensure (manifest.name = some "@deepseek-ai/dsh-root") "Not a supported Harness source directory"
  let version := (manifest.version.filter fun v => v ≠ "" && v.utf8ByteSize < 128).getD "unknown"
  ensure (s.isBuilt && s.hasDependencies) ("External Harness must already be built with " ++
    "installed dependencies; Nexus will not build or install it")
  let identity ← s.identity
  let inspection ← visit s.sha256 t root (MAX_TREE_DEPTH + 1) [] ⟨[], 0⟩
  pure ⟨root, identity, (s.sha256 inspection.hashed).flatMap hexByte, version⟩

def verify (s : Setting) (t : SourceTree) (harness : Harness) : Except IoError Unit := do
  let found ← inspect s t
  ensure (found = harness)
    "External Harness contents or directory changed; confirm the source again"

/-! ## 2. What is hashed -/

inductive Found where
  | directory
  /-- with the content of one of the three files -/
  | file (content : Option Bytes)
  | link (target : Names)
  deriving DecidableEq

structure Record where
  path : Names
  len : Nat
  modified : Nat
  found : Found
  deriving DecidableEq

/-- What is known of an entry of the given kind at the given path. -/
def Kind.found (path : Names) : Kind → Option Found
  | .directory => some .directory
  | .file content => some (.file (if path ∈ ENTRY_FILES then some content else none))
  | .link (.ok target) => some (.link target)
  | .link (.error _) => none
  | .other => none

/-- **What an inspection has to notice of a place**: the kind of the entry, its length, the time
of its last change, its target and, of the three files, the content. -/
def SourceTree.shown (t : SourceTree) (path : Names) : Option Record := do
  let entry ← t.node path
  let modified ← entry.modified
  let found ← entry.kind.found path
  some ⟨path, entry.len, modified, found⟩

def SourceTree.entryRecords (t : SourceTree) (below : Names → List Record) (path : Names)
    (name : Bytes) : List Record :=
  if name = DOT_GIT then []
  else match t.shown (path ++ [name]) with
    | none => []
    | some record =>
        record :: if record.found = .directory then below (path ++ [name]) else []

/-- The entries below a path, without those in `.git`. -/
def SourceTree.records (t : SourceTree) : Nat → Names → List Record
  | 0, _ => []
  | levels + 1, path => (byName (t.entries path)).flatMap (t.entryRecords (t.records levels) path)

def SourceTree.inspected (t : SourceTree) : List Record := t.records (MAX_TREE_DEPTH + 1) []

section Hashed

variable (sha256 : Bytes → Bytes)

def Found.code : Found → Bytes
  | .directory => DIR
  | .file none => FILE
  | .file (some content) => FILE ++ sha256 content
  | .link target => LINK ++ targetText target

def Record.code (record : Record) : Bytes :=
  entryHead (pathText record.path) record.len record.modified ++ record.found.code sha256

/-- What is hashed for a list of entries. -/
def hashText (records : List Record) : Bytes := records.flatMap (Record.code sha256)

end Hashed

section Shown

variable {t : SourceTree}

theorem shown_eq_some {path : Names} {record : Record} (h : t.shown path = some record) :
    ∃ entry, t.node path = some entry ∧ record.path = path ∧ entry.len = record.len ∧
      entry.modified = some record.modified ∧ entry.kind.found path = some record.found := by
  obtain ⟨entry, hentry, h⟩ := Option.bind_eq_some_iff.mp h
  obtain ⟨modified, hmodified, h⟩ := Option.bind_eq_some_iff.mp h
  obtain ⟨found, hfound, h⟩ := Option.bind_eq_some_iff.mp h
  obtain rfl := Option.some.inj h
  exact ⟨entry, hentry, rfl, rfl, hmodified, hfound⟩

theorem shown_of {path : Names} {entry : Entry} {modified : Nat} (found : Found)
    (hentry : t.node path = some entry) (hmodified : entry.modified = some modified)
    (hfound : entry.kind.found path = some found) :
    t.shown path = some ⟨path, entry.len, modified, found⟩ := by
  unfold SourceTree.shown
  rw [hentry]
  show (entry.modified.bind _) = _
  rw [hmodified]
  show ((entry.kind.found path).bind _) = _
  rw [hfound]
  rfl

theorem directory_of_isSome {path : Names} (hpath : path ≠ []) :
    ∀ (rest : Names), rest ≠ [] → (t.node (path ++ rest)).isSome = true →
      ∃ entry, t.node path = some entry ∧ entry.kind = .directory := by
  intro rest
  induction rest using List.reverseRecOn with
  | nil => exact fun h => absurd rfl h
  | append_singleton rest name ih =>
    intro _ hsome
    rw [← List.append_assoc] at hsome
    rcases t.parent _ _ ((t.mem_entries _ _).mpr hsome) with hnil | ⟨entry, hentry, hkind⟩
    · exact absurd (List.append_eq_nil_iff.mp hnil).1 hpath
    · by_cases hrest : rest = []
      · subst hrest
        rw [List.append_nil] at hentry
        exact ⟨entry, hentry, hkind⟩
      · exact ih hrest (by rw [hentry, Option.isSome_some])

theorem mem_byName {names : List Bytes} {name : Bytes} : name ∈ byName names ↔ name ∈ names :=
  (List.perm_insertionSort _ names).mem_iff

end Shown

section Visits

variable {sha256 : Bytes → Bytes} {t : SourceTree} {root path : Names} {name : Bytes}
  {state state' : Inspection} {recurse : Names → Inspection → Except IoError Inspection}

/-- **What one turn does**: nothing for `.git`; otherwise it hashes the entry, and a directory is
visited. -/
theorem visitEntry_eq_ok
    (h : visitEntry sha256 t root recurse path state name = .ok state') :
    (name = DOT_GIT ∧ state' = state) ∨
      (name ≠ DOT_GIT ∧ ∃ record, t.shown (path ++ [name]) = some record ∧
        ((record.found = .directory ∧
            recurse (path ++ [name]) ⟨state.hashed ++ record.code sha256, state.count + 1⟩ =
              .ok state') ∨
          (record.found ≠ .directory ∧
            state' = ⟨state.hashed ++ record.code sha256, state.count + 1⟩))) := by
  unfold visitEntry at h
  split at h
  · next hgit => exact .inl ⟨hgit, (Except.ok.inj h).symm⟩
  next hgit =>
  split at h
  · cases h
  obtain ⟨entry, hentry, h⟩ := bind_eq_ok h
  obtain ⟨modified, hmodified, h⟩ := bind_eq_ok h
  obtain ⟨json, hjson, h⟩ := bind_eq_ok h
  rw [required_eq_ok] at hentry hmodified
  obtain rfl : entryHead (pathText (path ++ [name])) entry.len modified = json := by
    unfold entryJson at hjson
    split at hjson
    · cases hjson
    · exact Except.ok.inj hjson
  refine .inr ⟨hgit, ?_⟩
  rcases hkind : entry.kind with _ | content | canonical | _
  · rw [hkind] at h
    refine ⟨_, shown_of .directory hentry hmodified (by rw [hkind]; rfl), .inl ⟨rfl, ?_⟩⟩
    rw [Record.code, ← List.append_assoc]
    exact h
  · rw [hkind] at h
    dsimp only at h
    split at h
    · next hfile =>
      obtain ⟨read, hread, h⟩ := bind_eq_ok h
      obtain ⟨data, hdata, h⟩ := bind_eq_ok h
      obtain rfl := eq_of_readRegularFileBounded hread
      obtain rfl := Option.some.inj (required_eq_ok.mp hdata)
      refine ⟨_, shown_of (.file (some content)) hentry hmodified ?_,
        .inr ⟨by simp, ?_⟩⟩
      · rw [hkind, Kind.found, if_pos hfile]
      · rw [Record.code, ← (Except.ok.inj h)]
        simp only [Found.code, List.append_assoc]
    · next hfile =>
      refine ⟨_, shown_of (.file none) hentry hmodified ?_, .inr ⟨by simp, ?_⟩⟩
      · rw [hkind, Kind.found, if_neg hfile]
      · rw [Record.code, ← (Except.ok.inj h)]
        simp only [Found.code, List.append_assoc]
  · rw [hkind] at h
    obtain ⟨target, htarget, h⟩ := bind_eq_ok h
    split at h
    · cases h
    refine ⟨_, shown_of (.link target) hentry hmodified ?_, .inr ⟨by simp, ?_⟩⟩
    · rw [hkind, htarget]
      rfl
    · rw [Record.code, ← (Except.ok.inj h)]
      simp only [Found.code, List.append_assoc]
  · rw [hkind] at h
    cases h

theorem hashed_of_foldlM {turn : Inspection → Bytes → Except IoError Inspection}
    {recordsAt : Bytes → List Record}
    (hturn : ∀ name state state', turn state name = .ok state' →
      state'.hashed = state.hashed ++ hashText sha256 (recordsAt name)) :
    ∀ {names : List Bytes} {state state' : Inspection}, names.foldlM turn state = .ok state' →
      state'.hashed = state.hashed ++ hashText sha256 (names.flatMap recordsAt) := by
  intro names
  induction names with
  | nil =>
    intro state state' h
    obtain rfl := Except.ok.inj h
    simp [hashText]
  | cons name names ih =>
    intro state state' h
    rw [List.foldlM_cons] at h
    obtain ⟨next, hnext, h⟩ := bind_eq_ok h
    rw [ih h, hturn name state next hnext, List.flatMap_cons, hashText, hashText, hashText,
      List.flatMap_append, List.append_assoc]

/-- **What a visit hashes.** -/
theorem hashed_of_visit : ∀ {levels : Nat} {path : Names} {state state' : Inspection},
    visit sha256 t root levels path state = .ok state' →
      state'.hashed = state.hashed ++ hashText sha256 (t.records levels path) := by
  intro levels
  induction levels with
  | zero =>
    intro path state state' h
    cases h
  | succ levels ih =>
    intro path state state' h
    unfold visit at h
    split at h
    · cases h
    refine hashed_of_foldlM (fun name state state' hturn => ?_) h
    rcases visitEntry_eq_ok hturn with ⟨hgit, rfl⟩ | ⟨hgit, record, hshown, hcase⟩
    · rw [SourceTree.entryRecords, if_pos hgit]
      simp [hashText]
    · rw [SourceTree.entryRecords, if_neg hgit, hshown]
      rcases hcase with ⟨hdirectory, hvisit⟩ | ⟨hother, rfl⟩
      · dsimp only
        rw [if_pos hdirectory, ih hvisit, hashText, hashText, List.flatMap_cons, List.append_assoc]
      · dsimp only
        rw [if_neg hother, hashText, List.flatMap_singleton]

/-- **A visit leaves nothing out** but what is in `.git`. -/
theorem complete_of_visit : ∀ {levels : Nat} {path : Names} {state state' : Inspection},
    visit sha256 t root levels path state = .ok state' →
      ∀ below, below ≠ [] → DOT_GIT ∉ below → (t.node (path ++ below)).isSome = true →
        ∃ record ∈ t.records levels path, t.shown (path ++ below) = some record := by
  intro levels
  induction levels with
  | zero =>
    intro path state state' h
    cases h
  | succ levels ih =>
    intro path state state' h below hbelow hgit hsome
    unfold visit at h
    split at h
    · cases h
    obtain ⟨name, rest, rfl⟩ := List.exists_cons_of_ne_nil hbelow
    rw [List.mem_cons, not_or] at hgit
    have hcons : path ++ name :: rest = (path ++ [name]) ++ rest := by simp
    rw [hcons] at hsome ⊢
    have hname : name ∈ t.entries path := by
      rw [t.mem_entries]
      by_cases hrest : rest = []
      · rw [hrest, List.append_nil] at hsome
        exact hsome
      · obtain ⟨entry, hentry, -⟩ := directory_of_isSome (by simp) rest hrest hsome
        rw [hentry, Option.isSome_some]
    obtain ⟨before, after, hturn⟩ := exists_ok_of_foldlM h name (mem_byName.mpr hname)
    rcases visitEntry_eq_ok hturn with ⟨hname', -⟩ | ⟨hname', record, hshown, hcase⟩
    · exact absurd hname'.symm hgit.1
    have hmem : ∀ r, r ∈ t.entryRecords (t.records levels) path name →
        r ∈ t.records (levels + 1) path := fun r hr =>
      List.mem_flatMap.mpr ⟨name, mem_byName.mpr hname, hr⟩
    by_cases hrest : rest = []
    · rw [hrest, List.append_nil]
      refine ⟨record, hmem record ?_, hshown⟩
      rw [SourceTree.entryRecords, if_neg hname', hshown]
      exact List.mem_cons_self
    · obtain ⟨entry, hentry, hkind⟩ := directory_of_isSome (by simp) rest hrest hsome
      obtain ⟨entry', hentry', -, -, -, hfound⟩ := shown_eq_some hshown
      obtain rfl := Option.some.inj (hentry.symm.trans hentry')
      rw [hkind] at hfound
      have hdirectory : record.found = .directory := (Option.some.inj hfound).symm
      rcases hcase with ⟨-, hvisit⟩ | ⟨hother, -⟩
      · obtain ⟨record', hrecord', hshown'⟩ := ih hvisit rest hrest hgit.2 hsome
        refine ⟨record', hmem record' ?_, hshown'⟩
        rw [SourceTree.entryRecords, if_neg hname', hshown]
        dsimp only
        rw [if_pos hdirectory]
        exact List.mem_cons_of_mem _ hrecord'
      · exact absurd hdirectory hother

end Visits

theorem shown_of_mem_records {t : SourceTree} :
    ∀ {levels : Nat} {path : Names} {record : Record}, record ∈ t.records levels path →
      t.shown record.path = some record ∧
        ∃ below, below ≠ [] ∧ DOT_GIT ∉ below ∧ record.path = path ++ below := by
  intro levels
  induction levels with
  | zero =>
    intro path record h
    cases h
  | succ levels ih =>
    intro path record h
    obtain ⟨name, -, h⟩ := List.mem_flatMap.mp h
    unfold SourceTree.entryRecords at h
    split at h
    · cases h
    next hgit =>
    rcases hshown : t.shown (path ++ [name]) with _ | entry
    · rw [hshown] at h
      cases h
    rw [hshown] at h
    obtain ⟨-, -, hpath, -⟩ := shown_eq_some hshown
    rcases List.mem_cons.mp h with rfl | h
    · refine ⟨by rw [hpath, hshown], [name], List.cons_ne_nil _ _, ?_, hpath⟩
      simpa using Ne.symm hgit
    · split at h
      · obtain ⟨hrecord, below, -, hgit', hbelow⟩ := ih h
        refine ⟨hrecord, name :: below, List.cons_ne_nil _ _, ?_, by rw [hbelow]; simp⟩
        rw [List.mem_cons, not_or]
        exact ⟨Ne.symm hgit, hgit'⟩
      · cases h

theorem slash_of_isSome {t : SourceTree} {path : Names} (h : (t.node path).isSome = true) :
    ∀ name ∈ path, SLASH ∉ name := by
  induction path using List.reverseRecOn with
  | nil => exact fun name hname => absurd hname List.not_mem_nil
  | append_singleton path last ih =>
    have hlast := (t.mem_entries path last).mpr h
    intro name hname
    rcases List.mem_append.mp hname with hname | hname
    · rcases t.parent path last hlast with rfl | ⟨entry, hentry, -⟩
      · exact absurd hname List.not_mem_nil
      · exact ih (by rw [hentry, Option.isSome_some]) name hname
    · rw [List.mem_singleton.mp hname]
      exact (t.name path last hlast).2

/-! ## 3. Two directories -/

section Texts

theorem pathText_cons {name : Bytes} {path : Names} (h : path ≠ []) :
    pathText (name :: path) = name ++ SLASH :: pathText path := by
  obtain ⟨next, rest, rfl⟩ := List.exists_cons_of_ne_nil h
  rw [pathText, List.intercalate_cons_cons]
  simp [pathText]

/-- **A path is read back from its text.** -/
theorem pathText_injective : ∀ {path path' : Names}, path ≠ [] → path' ≠ [] →
    (∀ name ∈ path, SLASH ∉ name) → (∀ name ∈ path', SLASH ∉ name) →
    pathText path = pathText path' → path = path' := by
  intro path
  induction path with
  | nil => exact fun h => absurd rfl h
  | cons name path ih =>
    intro path' _ hpath' hslash hslash' h
    obtain ⟨name', path', rfl⟩ := List.exists_cons_of_ne_nil hpath'
    have hname := hslash name List.mem_cons_self
    have hname' := hslash' name' List.mem_cons_self
    by_cases hrest : path = [] <;> by_cases hrest' : path' = []
    · subst hrest hrest'
      simpa [pathText, List.intercalate_singleton] using h
    · subst hrest
      rw [pathText_cons hrest', pathText, List.intercalate_singleton] at h
      rw [h] at hname
      exact absurd (List.mem_append_right _ List.mem_cons_self) hname
    · subst hrest'
      rw [pathText_cons hrest] at h
      rw [show pathText [name'] = name' from List.intercalate_singleton] at h
      rw [← h] at hname'
      exact absurd (List.mem_append_right _ List.mem_cons_self) hname'
    · rw [pathText_cons hrest, pathText_cons hrest'] at h
      have hsplit := Text.splitOnce_append (pathText path) hname
      rw [h, Text.splitOnce_append (pathText path') hname'] at hsplit
      obtain ⟨rfl, htext⟩ := Prod.mk.inj (Option.some.inj hsplit)
      rw [ih hrest hrest' (fun n hn => hslash n (List.mem_cons_of_mem _ hn))
        (fun n hn => hslash' n (List.mem_cons_of_mem _ hn)) htext.symm]

/-- **The beginning of an entry is read back.** -/
theorem prefixCode_entryHead :
    PrefixCode fun p : Bytes × Nat × Nat => entryHead p.1 p.2.1 p.2.2 := by
  have hcomma : (0x2c : UInt8).toNat < 48 ∨ 57 < (0x2c : UInt8).toNat := by decide
  have hbracket : (0x5d : UInt8).toNat < 48 ∨ 57 < (0x5d : UInt8).toNat := by decide
  have hnumbers := (prefixCode_decimal hcomma).pair (prefixCode_decimal hbracket)
  exact (prefixCode_jsonString.pair (hnumbers.prepend [0x2c])).prepend [0x5b]

theorem hexByte_injective : Function.Injective hexByte := by
  intro a b h
  simp only [hexByte, List.cons.injEq, and_true] at h
  have ha := a.toNat_lt
  have hb := b.toNat_lt
  have hhigh := hexDigit_injective (by omega) (by omega) h.1
  have hlow := hexDigit_injective (by omega) (by omega) h.2
  exact UInt8.toNat_inj.mp (by omega)

theorem flatMap_hexByte_injective : Function.Injective fun bytes : Bytes => bytes.flatMap hexByte :=
  (PrefixCode.of_length hexByte_injective (n := 2) fun _ => rfl).flatMap_injective
    fun _ => List.cons_ne_nil _ _

end Texts

/-- No two of the inputs have one digest. -/
def CollisionFree (sha256 : Bytes → Bytes) (inputs : List Bytes) : Prop :=
  ∀ a ∈ inputs, ∀ b ∈ inputs, sha256 a = sha256 b → a = b

def hashInputs (sha256 : Bytes → Bytes) (t : SourceTree) : List Bytes :=
  hashText sha256 t.inspected :: ENTRY_FILES.filterMap t.file

/-- **The same entries outside `.git`.** -/
def SameEntries (t t' : SourceTree) : Prop :=
  ∀ path, path ≠ [] → DOT_GIT ∉ path →
    (t.node path).isSome = (t'.node path).isSome ∧ t.shown path = t'.shown path

/-- **Two directories that are taken for one.**  Up to a link they show the same; the link leads to
different targets, and both targets' texts go on alike with what is hashed behind them. -/
def Confusable (sha256 : Bytes → Bytes) (t t' : SourceTree) : Prop :=
  ∃ common path len modified target target' rest rest',
    t.inspected = common ++ ⟨path, len, modified, .link target⟩ :: rest ∧
      t'.inspected = common ++ ⟨path, len, modified, .link target'⟩ :: rest' ∧
      target ≠ target' ∧
      targetText target ++ hashText sha256 rest = targetText target' ++ hashText sha256 rest'

/-- No text of a link's target begins with the text of another target of the same link. -/
def TargetsApart (t t' : SourceTree) : Prop :=
  ∀ r r', t.shown r.path = some r → t'.shown r.path = some r' →
    ∀ target target', r.found = .link target → r'.found = .link target' → target ≠ target' →
      ¬ targetText target <+: targetText target' ∧ ¬ targetText target' <+: targetText target

section Pair

variable {sha256 : Bytes → Bytes} {t t' : SourceTree}

/-- The first byte of the word for a kind. -/
def Found.letter : Found → UInt8
  | .directory => 0x64
  | .file _ => 0x66
  | .link _ => 0x6c

theorem head?_foundCode (found : Found) (rest : Bytes) :
    (found.code sha256 ++ rest).head? = some found.letter := by
  rcases found with _ | (_ | content) | target
  · rfl
  · rfl
  · rfl
  · rfl

theorem found_file {path : Names} {kind : Kind} {content : Option Bytes}
    (h : kind.found path = some (.file content)) :
    ∃ bytes, kind = .file bytes ∧ content = if path ∈ ENTRY_FILES then some bytes else none := by
  rcases kind with _ | bytes | (error | target) | _
  · cases h
  · refine ⟨bytes, rfl, ?_⟩
    have hfile := Option.some.inj h
    injection hfile with hcontent
    exact hcontent.symm
  · cases h
  · cases h
  · cases h

theorem mem_hashInputs {record : Record} {bytes : Bytes}
    (h : t.shown record.path = some record) (hfound : record.found = .file (some bytes)) :
    bytes ∈ hashInputs sha256 t := by
  obtain ⟨entry, hentry, -, -, -, hkind⟩ := shown_eq_some h
  rw [hfound] at hkind
  obtain ⟨content, hcontent, hcase⟩ := found_file hkind
  split at hcase
  · next hfile =>
    obtain rfl := Option.some.inj hcase
    refine List.mem_cons_of_mem _ (List.mem_filterMap.mpr ⟨record.path, hfile, ?_⟩)
    rw [SourceTree.file, hentry, Option.bind_some, hcontent]
  · cases hcase

theorem link_of_code (hlength : ∀ bytes, (sha256 bytes).length = 32)
    (hfree : CollisionFree sha256 (hashInputs sha256 t ++ hashInputs sha256 t')) {r r' : Record}
    (hr : t.shown r.path = some r) (hr' : t'.shown r'.path = some r') (hpath : r.path = r'.path)
    (hne : r.found ≠ r'.found) {rest rest' : Bytes}
    (h : r.found.code sha256 ++ rest = r'.found.code sha256 ++ rest') :
    ∃ target target', r.found = .link target ∧ r'.found = .link target' ∧ target ≠ target' ∧
      targetText target ++ rest = targetText target' ++ rest' := by
  have hletter := congrArg List.head? h
  rw [head?_foundCode, head?_foundCode] at hletter
  rcases hfound : r.found with _ | content | target <;>
    rcases hfound' : r'.found with _ | content' | target' <;>
      rw [hfound, hfound'] at hletter hne h
  · exact absurd rfl hne
  · exact absurd hletter (by simp [Found.letter])
  · exact absurd hletter (by simp [Found.letter])
  · exact absurd hletter (by simp [Found.letter])
  · obtain ⟨entry, -, -, -, -, hkind⟩ := shown_eq_some hr
    obtain ⟨entry', -, -, -, -, hkind'⟩ := shown_eq_some hr'
    rw [hfound] at hkind
    rw [hfound', ← hpath] at hkind'
    obtain ⟨bytes, -, rfl⟩ := found_file hkind
    obtain ⟨bytes', -, rfl⟩ := found_file hkind'
    by_cases hfile : r.path ∈ ENTRY_FILES
    · rw [if_pos hfile, if_pos hfile] at h hne
      rw [if_pos hfile] at hfound hfound'
      simp only [Found.code, List.append_assoc] at h
      have hdigests := List.append_inj (List.append_cancel_left h) (by rw [hlength, hlength])
      have hbytes := hfree bytes (List.mem_append_left _ (mem_hashInputs hr hfound)) bytes'
        (List.mem_append_right _ (mem_hashInputs hr' hfound')) hdigests.1
      rw [hbytes] at hne
      exact absurd rfl hne
    · rw [if_neg hfile, if_neg hfile] at hne
      exact absurd rfl hne
  · exact absurd hletter (by simp [Found.letter])
  · exact absurd hletter (by simp [Found.letter])
  · exact absurd hletter (by simp [Found.letter])
  · refine ⟨target, target', rfl, rfl, fun heq => hne (by rw [heq]), ?_⟩
    simp only [Found.code, List.append_assoc] at h
    exact List.append_cancel_left h

theorem path_of_mem_inspected {record : Record} (h : record ∈ t.inspected) :
    t.shown record.path = some record ∧ record.path ≠ [] ∧ DOT_GIT ∉ record.path ∧
      ∀ name ∈ record.path, SLASH ∉ name := by
  obtain ⟨hshown, below, hbelow, hgit, hpath⟩ := shown_of_mem_records h
  obtain ⟨entry, hentry, -⟩ := shown_eq_some hshown
  rw [List.nil_append] at hpath
  rw [← hpath] at hbelow hgit
  exact ⟨hshown, hbelow, hgit, slash_of_isSome (by rw [hentry, Option.isSome_some])⟩

/-- **Two directories that are hashed alike differ first in the target of a link.** -/
theorem ends_in_links (hlength : ∀ bytes, (sha256 bytes).length = 32)
    (hfree : CollisionFree sha256 (hashInputs sha256 t ++ hashInputs sha256 t'))
    (h : hashText sha256 t.inspected = hashText sha256 t'.inspected)
    (hne : t.inspected ≠ t'.inspected) : Confusable sha256 t t' := by
  have hcode : ∀ record : Record, record.code sha256 ≠ [] := fun record =>
    List.append_ne_nil_of_left_ne_nil (List.cons_ne_nil _ _) _
  obtain ⟨common, r, r', rest, rest', hlist, hlist', hdiffer, htexts⟩ :=
    exists_first_difference hcode h hne
  have hr : r ∈ t.inspected := by
    rw [hlist]
    exact List.mem_append_right _ List.mem_cons_self
  have hr' : r' ∈ t'.inspected := by
    rw [hlist']
    exact List.mem_append_right _ List.mem_cons_self
  obtain ⟨hshown, hpath, -, hslash⟩ := path_of_mem_inspected hr
  obtain ⟨hshown', hpath', -, hslash'⟩ := path_of_mem_inspected hr'
  rw [Record.code, Record.code, List.append_assoc, List.append_assoc] at htexts
  obtain ⟨hhead, hfounds⟩ := prefixCode_entryHead.append_inj
    (a := (pathText r.path, r.len, r.modified))
    (b := (pathText r'.path, r'.len, r'.modified)) htexts
  simp only [Prod.mk.injEq] at hhead
  obtain ⟨htext, hlen, hmodified⟩ := hhead
  have hsame := pathText_injective hpath hpath' hslash hslash' htext
  have hfound : r.found ≠ r'.found := by
    intro hfound
    rcases r with ⟨path, len, modified, found⟩
    rcases r' with ⟨path', len', modified', found'⟩
    dsimp only at hsame hlen hmodified hfound
    subst hsame hlen hmodified hfound
    exact hdiffer rfl
  obtain ⟨target, target', htarget, htarget', htargets, hrest⟩ :=
    link_of_code hlength hfree hshown hshown' hsame hfound hfounds
  refine ⟨common, r.path, r.len, r.modified, target, target', rest, rest', ?_, ?_, htargets, hrest⟩
  · rw [hlist, ← htarget]
  · rw [hlist', hsame, hlen, hmodified, ← htarget']

theorem not_confusable_of_targetsApart (h : TargetsApart t t') : ¬ Confusable sha256 t t' := by
  rintro ⟨common, path, len, modified, target, target', rest, rest', hlist, hlist', hne, htexts⟩
  have hr : (⟨path, len, modified, .link target⟩ : Record) ∈ t.inspected := by
    rw [hlist]
    exact List.mem_append_right _ List.mem_cons_self
  have hr' : (⟨path, len, modified, .link target'⟩ : Record) ∈ t'.inspected := by
    rw [hlist']
    exact List.mem_append_right _ List.mem_cons_self
  have hapart := h _ _ (path_of_mem_inspected hr).1 (path_of_mem_inspected hr').1 target target'
    rfl rfl hne
  have hprefix : targetText target <+: targetText target ++ hashText sha256 rest :=
    List.prefix_append _ _
  have hprefix' : targetText target' <+: targetText target ++ hashText sha256 rest := by
    rw [htexts]
    exact List.prefix_append _ _
  rcases List.prefix_or_prefix_of_prefix hprefix hprefix' with hp | hp
  · exact hapart.1 hp
  · exact hapart.2 hp

end Pair

/-! ### The order of a listing -/

section Order

variable {t u : SourceTree}

theorem perm_entries (h : u.node = t.node) (path : Names) :
    (u.entries path).Perm (t.entries path) := by
  rw [List.perm_ext_iff_of_nodup (u.nodup path) (t.nodup path)]
  intro name
  rw [u.mem_entries, t.mem_entries, h]

theorem byName_eq {names names' : List Bytes} (h : names.Perm names') :
    byName names = byName names' := by
  have : Std.Total fun a b : Bytes => a ≤ b := ⟨List.le_total⟩
  have : IsTrans Bytes fun a b => a ≤ b := ⟨fun _ _ _ => List.le_trans⟩
  refine @List.Perm.eq_of_pairwise Bytes (fun a b => a ≤ b) _ _
    (fun a b _ _ hab hba => List.le_antisymm hab hba) (List.pairwise_insertionSort _ names)
    (List.pairwise_insertionSort _ names') ?_
  exact ((List.perm_insertionSort _ names).trans h).trans (List.perm_insertionSort _ names').symm

theorem visit_eq (sha256 : Bytes → Bytes) (root : Names) (h : u.node = t.node) :
    ∀ levels path state, visit sha256 u root levels path state =
      visit sha256 t root levels path state := by
  intro levels
  induction levels with
  | zero => exact fun path state => rfl
  | succ levels ih =>
    intro path state
    have hrecurse : visit sha256 u root levels = visit sha256 t root levels := by
      ext path state : 2
      exact ih path state
    have hturn : visitEntry sha256 u root = visitEntry sha256 t root := by
      ext recurse path state name : 4
      unfold visitEntry
      rw [h]
    unfold visit
    rw [hrecurse, hturn, (perm_entries h path).length_eq, byName_eq (perm_entries h path)]

/-- **An inspection does not depend on the order in which directories list their entries.** -/
theorem inspect_eq (s : Setting) (h : u.node = t.node) : inspect s u = inspect s t := by
  have hfile : u.file = t.file := by
    ext path : 1
    unfold SourceTree.file
    rw [h]
  unfold inspect
  rw [hfile]
  simp only [visit_eq _ _ h]

end Order

/-! ## 4. The fingerprint -/

theorem inspect_eq_ok {s : Setting} {t : SourceTree} {harness : Harness}
    (h : inspect s t = .ok harness) :
    harness.fingerprint = (s.sha256 (hashText s.sha256 t.inspected)).flatMap hexByte ∧
      ∀ path, path ≠ [] → DOT_GIT ∉ path → (t.node path).isSome = true →
        ∃ record ∈ t.inspected, t.shown path = some record := by
  rw [inspect] at h
  obtain ⟨_, -, h⟩ := bind_eq_ok h
  obtain ⟨root, -, h⟩ := bind_eq_ok h
  obtain ⟨overlaps, -, h⟩ := bind_eq_ok h
  obtain ⟨_, -, h⟩ := bind_eq_ok h
  obtain ⟨bytes, -, h⟩ := bind_eq_ok h
  obtain ⟨bytes, -, h⟩ := bind_eq_ok h
  obtain ⟨manifest, -, h⟩ := bind_eq_ok h
  obtain ⟨_, -, h⟩ := bind_eq_ok h
  obtain ⟨_, -, h⟩ := bind_eq_ok h
  obtain ⟨identity, -, h⟩ := bind_eq_ok h
  obtain ⟨inspection, hvisit, h⟩ := bind_eq_ok h
  have hhashed := hashed_of_visit hvisit
  rw [List.nil_append] at hhashed
  refine ⟨?_, fun path hpath hgit hsome => complete_of_visit hvisit path hpath hgit hsome⟩
  rw [← Except.ok.inj h, hhashed]
  rfl

section Pairs

variable {s s' : Setting} {t t' : SourceTree} {harness harness' : Harness}

theorem sameEntries_of_inspected (hok : inspect s t = .ok harness)
    (hok' : inspect s' t' = .ok harness') (h : t.inspected = t'.inspected) :
    SameEntries t t' := by
  have hone : ∀ {t t' : SourceTree}, t.inspected = t'.inspected →
      (∀ path, path ≠ [] → DOT_GIT ∉ path → (t.node path).isSome = true →
        ∃ record ∈ t.inspected, t.shown path = some record) →
      ∀ path, path ≠ [] → DOT_GIT ∉ path → (t.node path).isSome = true →
        (t'.node path).isSome = true ∧ t.shown path = t'.shown path := by
    intro t t' heq hall path hpath hgit hsome
    obtain ⟨record, hrecord, hshown⟩ := hall path hpath hgit hsome
    rw [heq] at hrecord
    have hshown' := (path_of_mem_inspected hrecord).1
    obtain ⟨-, -, hsame, -⟩ := shown_eq_some hshown
    rw [hsame] at hshown'
    obtain ⟨entry, hentry, -⟩ := shown_eq_some hshown'
    exact ⟨by rw [hentry, Option.isSome_some], by rw [hshown, hshown']⟩
  have hforth := hone h (inspect_eq_ok hok).2
  have hback := hone h.symm (inspect_eq_ok hok').2
  intro path hpath hgit
  rcases hnode : t.node path with _ | entry
  · rcases hnode' : t'.node path with _ | entry'
    · refine ⟨rfl, ?_⟩
      unfold SourceTree.shown
      rw [hnode, hnode']
    · have hsome := (hback path hpath hgit (by rw [hnode', Option.isSome_some])).1
      rw [hnode] at hsome
      cases hsome
  · obtain ⟨hsome, hshown⟩ := hforth path hpath hgit (by rw [hnode, Option.isSome_some])
    rw [hsome]
    exact ⟨rfl, hshown⟩

/-- **A changed directory is noticed** exactly where the two directories are not confusable.

The inspections may be any two that succeed, as long as no two of the texts that they hash have one
digest.  That the fingerprints are equal only for the same entries fails for confusable directories
and for no others; directories in which no text of a link's target begins with another text of that
link's target are not confusable; and the order of the listings never matters. -/
theorem change_noticed_iff (hsha : s'.sha256 = s.sha256) (hok : inspect s t = .ok harness)
    (hok' : inspect s' t' = .ok harness')
    (hfree : CollisionFree s.sha256 (hashInputs s.sha256 t ++ hashInputs s.sha256 t')) :
    (((harness.fingerprint = harness'.fingerprint → SameEntries t t') ∧
        ∀ u : SourceTree, u.node = t.node → inspect s u = .ok harness) ↔
      ¬ Confusable s.sha256 t t') ∧
      (TargetsApart t t' → ¬ Confusable s.sha256 t t') := by
  obtain ⟨hfingerprint, -⟩ := inspect_eq_ok hok
  obtain ⟨hfingerprint', -⟩ := inspect_eq_ok hok'
  rw [hsha] at hfingerprint'
  refine ⟨⟨?_, ?_⟩, not_confusable_of_targetsApart⟩
  · rintro ⟨hnoticed, -⟩
      ⟨common, path, len, modified, target, target', rest, rest', hlist, hlist', hne, htexts⟩
    have hequal : harness.fingerprint = harness'.fingerprint := by
      have hhashed : hashText s.sha256 t.inspected = hashText s.sha256 t'.inspected := by
        rw [hlist, hlist', hashText, hashText, List.flatMap_append, List.flatMap_append,
          List.flatMap_cons, List.flatMap_cons]
        simp only [Record.code, Found.code, List.append_assoc]
        exact congrArg _ (congrArg _ (congrArg _ htexts))
      rw [hfingerprint, hfingerprint', hhashed]
    have hr : (⟨path, len, modified, .link target⟩ : Record) ∈ t.inspected := by
      rw [hlist]
      exact List.mem_append_right _ List.mem_cons_self
    have hr' : (⟨path, len, modified, .link target'⟩ : Record) ∈ t'.inspected := by
      rw [hlist']
      exact List.mem_append_right _ List.mem_cons_self
    obtain ⟨hshown, hpath, hgit, -⟩ := path_of_mem_inspected hr
    obtain ⟨hshown', -⟩ := path_of_mem_inspected hr'
    have hsame := (hnoticed hequal path hpath hgit).2
    rw [hshown, hshown'] at hsame
    have hrecord := Option.some.inj hsame
    injection hrecord with _ _ _ hfound
    injection hfound with htarget
    exact hne htarget
  · intro hconfusable
    refine ⟨fun hequal => ?_, fun u hu => by rw [inspect_eq s hu, hok]⟩
    rw [hfingerprint, hfingerprint'] at hequal
    have hdigests := flatMap_hexByte_injective hequal
    have hhashed := hfree _ (List.mem_append_left _ List.mem_cons_self) _
      (List.mem_append_right _ List.mem_cons_self) hdigests
    by_contra hdiffer
    refine hconfusable (ends_in_links s.sha256_length hfree hhashed fun hinspected => hdiffer ?_)
    exact sameEntries_of_inspected hok hok' hinspected

end Pairs

/-! ### Directories given by a list -/

section Listed

def Kind.isDirectory : Kind → Bool
  | .directory => true
  | .file _ => false
  | .link _ => false
  | .other => false

/-- Entries that make a directory: every path once, with its parents. -/
structure Listed (items : List (Names × Entry)) : Prop where
  nodup : (items.map Prod.fst).Nodup
  ordinary : ∀ item ∈ items, item.1 ≠ [] ∧ ∀ name ∈ item.1, name ≠ [] ∧ SLASH ∉ name
  parents : ∀ item ∈ items, item.1.dropLast = [] ∨
    (List.lookup item.1.dropLast items).any (fun parent => parent.kind.isDirectory) = true

def namesBelow (paths : List Names) (path : Names) : List Bytes :=
  paths.filterMap fun p => if p.dropLast = path then p.getLast? else none

theorem mem_namesBelow {paths : List Names} {path : Names} {name : Bytes} :
    name ∈ namesBelow paths path ↔ path ++ [name] ∈ paths := by
  unfold namesBelow
  rw [List.mem_filterMap]
  constructor
  · rintro ⟨p, hp, h⟩
    split at h
    · next hpath =>
      obtain ⟨rest, rfl⟩ := List.getLast?_eq_some_iff.mp h
      rw [List.dropLast_concat] at hpath
      rwa [← hpath]
    · cases h
  · intro h
    exact ⟨path ++ [name], h, by simp⟩

theorem nodup_namesBelow {paths : List Names} (h : paths.Nodup) (path : Names) :
    (namesBelow paths path).Nodup := by
  refine h.filterMap fun p p' name hp hp' => ?_
  rw [Option.mem_def] at hp hp'
  split at hp
  · next hpath =>
    split at hp'
    · next hpath' =>
      obtain ⟨rest, rfl⟩ := List.getLast?_eq_some_iff.mp hp
      obtain ⟨rest', rfl⟩ := List.getLast?_eq_some_iff.mp hp'
      rw [List.dropLast_concat] at hpath hpath'
      rw [hpath, hpath']
    · cases hp'
  · cases hp

/-- The directory with the given entries. -/
def SourceTree.ofList (items : List (Names × Entry)) (h : Listed items) : SourceTree where
  node path := List.lookup path items
  entries := namesBelow (items.map Prod.fst)
  nodup := nodup_namesBelow h.nodup
  mem_entries path name := by
    rw [mem_namesBelow, List.lookup_isSome_iff, List.mem_map]
    constructor
    · rintro ⟨item, hitem, hpath⟩
      exact ⟨item, hitem, by rw [hpath, beq_self_eq_true]⟩
    · rintro ⟨item, hitem, hpath⟩
      exact ⟨item, hitem, (beq_iff_eq.mp hpath).symm⟩
  name path name hname := by
    obtain ⟨item, hitem, hpath⟩ := List.mem_map.mp (mem_namesBelow.mp hname)
    exact (h.ordinary item hitem).2 name (by rw [hpath]; simp)
  parent path name hname := by
    obtain ⟨item, hitem, hpath⟩ := List.mem_map.mp (mem_namesBelow.mp hname)
    have hparent := h.parents item hitem
    rw [hpath, List.dropLast_concat] at hparent
    rcases hparent with hroot | hparent
    · exact .inl hroot
    · rw [Option.any_eq_true] at hparent
      obtain ⟨entry, hentry, hkind⟩ := hparent
      refine .inr ⟨entry, hentry, ?_⟩
      rcases hcase : entry.kind with _ | content | canonical | _
      · rfl
      all_goals
        rw [hcase] at hkind
        cases hkind

end Listed

/-! ### Two directories with one fingerprint -/

def knownDigest (known : List (Bytes × Nat)) (bytes : Bytes) : Bytes :=
  toBeBytes 32 ((List.lookup bytes known).getD 0)

def namesOf (path : String) : Names := path.toList.splitOn '/' |>.map asciiBytes

def manifestBytes : Bytes :=
  asciiBytes ("\x7b\"name\":\"@deepseek-ai/dsh-root\"\x7d").toList

/-- A call for the directory `/r`, which is built. -/
def builtSetting (known : List (Bytes × Nat)) : Setting where
  isAbsolute := true
  canonicalize := .ok (namesOf "r")
  overlaps := .ok false
  fromSlice bytes :=
    if bytes = manifestBytes then .ok ⟨some "@deepseek-ai/dsh-root", none⟩
    else .error ⟨.invalidData, "expected value"⟩
  isBuilt := true
  hasDependencies := true
  identity := .ok "1-2"
  sha256 := knownDigest known
  sha256_length _ := length_toBeBytes _ _

def directoryEntry : Entry := ⟨64, some 3, .directory⟩

def builtEntries (program : String) : List (Names × Entry) :=
  [(namesOf "apps", directoryEntry), (namesOf "apps/cli", directoryEntry),
    (namesOf "apps/cli/lib", directoryEntry),
    (namesOf "apps/cli/lib/bin.js", ⟨5, some 4, .file (asciiBytes program.toList)⟩),
    (namesOf "node_modules", directoryEntry),
    (namesOf "package.json", ⟨32, some 3, .file manifestBytes⟩)]

/-- A link `a` to a file in `.git`, and a file `ab`. -/
def withFile : List (Names × Entry) :=
  (namesOf "a", ⟨20, some 5, .link (.ok (namesOf "r/.git/x"))⟩) ::
    (namesOf "ab", ⟨1, some 2, .file (asciiBytes "z".toList)⟩) :: builtEntries "ready"

/-- The link leads to another file in `.git`, and there is no file `ab`. -/
def withoutFile : List (Names × Entry) :=
  (namesOf "a", ⟨20, some 5, .link (.ok (namesOf "r/.git/x[\"ab\",1,2]file"))⟩) ::
    builtEntries "ready"

theorem listed_withFile : Listed withFile :=
  ⟨by decide +kernel, by decide +kernel, by decide +kernel⟩

theorem listed_withoutFile : Listed withoutFile :=
  ⟨by decide +kernel, by decide +kernel, by decide +kernel⟩

def treeWithFile : SourceTree := .ofList withFile listed_withFile

def treeWithoutFile : SourceTree := .ofList withoutFile listed_withoutFile

def knownContents : List (Bytes × Nat) :=
  [(asciiBytes "ready".toList,
      0xb24d6d33736ecd5604a4b17bc9c6481039fac362bb7df044ef1c10a2bfd21db6),
    (asciiBytes "other".toList,
      0xd9298a10d1b0735837dc4bd85dac641b0f3cef27a47e5d53a54f2f3f5b2fcffa),
    (manifestBytes, 0x56c9129c6dcf35c2166733c870456dcc4172b19ab3e6791919fe03a44fa26d8a)]

/-- A call that knows the digest of what both directories are hashed to. -/
def confusedSetting : Setting :=
  builtSetting ((hashText (knownDigest knownContents) treeWithFile.inspected,
    0x4ab2f9f39c329de7756ad736b42049db2dc5429cf80179fe60bf8a090e1aa4d7) :: knownContents)

def confusedHarness : Harness where
  root := namesOf "r"
  identity := "1-2"
  fingerprint :=
    asciiBytes "4ab2f9f39c329de7756ad736b42049db2dc5429cf80179fe60bf8a090e1aa4d7".toList
  version := "unknown"

theorem inspect_treeWithFile : inspect confusedSetting treeWithFile = .ok confusedHarness := by
  decide +kernel

theorem inspect_treeWithoutFile :
    inspect confusedSetting treeWithoutFile = .ok confusedHarness := by
  decide +kernel

/-- A file may go, and the target of a link may change, without a change of the fingerprint. -/
theorem changed_not_noticed :
    ¬ ∀ (s s' : Setting) (t t' : SourceTree) (harness harness' : Harness), s'.sha256 = s.sha256 →
      inspect s t = .ok harness → inspect s' t' = .ok harness' →
      CollisionFree s.sha256 (hashInputs s.sha256 t ++ hashInputs s.sha256 t') →
      harness.fingerprint = harness'.fingerprint → SameEntries t t' := by
  intro h
  have hfree : CollisionFree confusedSetting.sha256
      (hashInputs confusedSetting.sha256 treeWithFile ++
        hashInputs confusedSetting.sha256 treeWithoutFile) := by
    unfold CollisionFree
    decide +kernel
  have hsame := (h confusedSetting confusedSetting treeWithFile treeWithoutFile confusedHarness
    confusedHarness rfl inspect_treeWithFile inspect_treeWithoutFile hfree rfl (namesOf "ab")
    (by decide +kernel) (by decide +kernel)).1
  revert hsame
  decide +kernel

theorem listed_builtEntries :
    Listed (builtEntries "ready") ∧ Listed (builtEntries "other") :=
  ⟨⟨by decide +kernel, by decide +kernel, by decide +kernel⟩,
    ⟨by decide +kernel, by decide +kernel, by decide +kernel⟩⟩

def readyTree : SourceTree := .ofList (builtEntries "ready") listed_builtEntries.1

def otherTree : SourceTree := .ofList (builtEntries "other") listed_builtEntries.2

/-- A call that knows the digests of what the two directories are hashed to. -/
def plainSetting : Setting :=
  builtSetting ((hashText (knownDigest knownContents) readyTree.inspected,
    0xd5199aa829d78baf8f4b930fda8f82e1c80302d90fee15334b3bbefa096bbcec) ::
    (hashText (knownDigest knownContents) otherTree.inspected,
      0xbf38965296aa59fb5e6cb6612c1a445abcff4e51b8d2f4482350ff60e76dde87) :: knownContents)

def plainHarness (fingerprint : String) : Harness where
  root := namesOf "r"
  identity := "1-2"
  fingerprint := asciiBytes fingerprint.toList
  version := "unknown"

/-- A directory whose program was rewritten is not confusable with what it was. -/
theorem change_noticed_iff_rewritten :
    ¬ Confusable plainSetting.sha256 readyTree otherTree := by
  have hready : inspect plainSetting readyTree = .ok
      (plainHarness "d5199aa829d78baf8f4b930fda8f82e1c80302d90fee15334b3bbefa096bbcec") := by
    decide +kernel
  have hother : inspect plainSetting otherTree = .ok
      (plainHarness "bf38965296aa59fb5e6cb6612c1a445abcff4e51b8d2f4482350ff60e76dde87") := by
    decide +kernel
  have hfree : CollisionFree plainSetting.sha256
      (hashInputs plainSetting.sha256 readyTree ++ hashInputs plainSetting.sha256 otherTree) := by
    unfold CollisionFree
    decide +kernel
  refine (change_noticed_iff rfl hready hother hfree).1.mp ⟨fun hequal => ?_, fun u hu => ?_⟩
  · exact absurd hequal (by decide +kernel)
  · rw [inspect_eq plainSetting hu, hready]

end DshNexus.Agent.ExternalHarness
