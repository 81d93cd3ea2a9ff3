import DshNexus.Agent.PluginIsolation
import DshNexus.Checkpoint.Journal
import DshNexus.Config.Document
import DshNexus.Core.Table
import DshNexus.Durable.Session
import DshNexus.Snapshot.Capture
import Mathlib.Data.List.Sort

/-!
# Repairing the files of a profile

`crates/nexus-agent/src/profile_repair.rs`: the two files of a profile are recorded before every
start and before every change, may be edited, and may be put back as a record has them.  A file may
be edited up to 32 KiB and read up to 256 KiB; its record is read up to eight times as much, because
JSON escapes what it holds.

1. The two files, what is read of them, and `validate`.
2. Records, the length of a record's text, and `encodedLength_le`: a record of a readable file is
   readable.
3. `backup`, and the backups before a start.
4. `inspect`.
5. `control`.
-/

namespace DshNexus.Agent.ProfileRepair

open Document Snapshot Durable Plugins Config

def FILES : List String := ["package.json", "cordis.patch.yml"]

def LIMIT : Nat := 32 * 1024

def RECOVERY_LIMIT : Nat := 256 * 1024

def BACKUP_LIMIT : Nat := RECOVERY_LIMIT * 8

def invalid (message : String) : IoError := ⟨.invalidInput, message⟩

/-! ## 1. The files of a profile -/

/-- A file: UTF-8 text, or bytes that are none. -/
inductive ProfileFile where
  | text (content : String)
  | binary (bytes : Bytes)
  deriving DecidableEq, Repr

def ProfileFile.size : ProfileFile → Nat
  | .text content => content.utf8ByteSize
  | .binary bytes => bytes.length

/-- What `serde_json` writes for a character of a string. -/
def escapedSize (c : Char) : Nat :=
  if [0x22, 0x5c, 0x08, 0x09, 0x0a, 0x0c, 0x0d].contains c.toNat then 2
  else if c.toNat < 0x20 then 6
  else c.utf8Size

/-- The length of the text between the quotes of a JSON string. -/
def escapedLength (text : String) : Nat := (text.toList.map escapedSize).sum

/-- A home directory by its canonical path.  The operating system bounds the path: 4096 bytes, or
32767 UTF-16 units of which none is a control character. -/
structure Home where
  path : String
  short : escapedLength path ≤ 256 * 1024
  deriving DecidableEq

structure Target where
  home : Home
  profile : String
  deriving DecidableEq

structure Backup where
  dataRootId : String
  profile : String
  home : String
  file : String
  content : Option String
  created : UInt64
  deriving DecidableEq

/-- The profiles' directories and files, and `profile-repair-history`. -/
structure RepairDisk where
  /-- what the look for a profile's directory comes to -/
  directory : Target → Except IoError Unit
  /-- the entries of the directory of profiles, as they are listed -/
  entries : Home → Option (List String)
  files : Target → String → Option ProfileFile
  history : Option (AList fun _ : String => Backup)

/-- What is taken from outside: the parsers, the identity of the data root, SHA-256 of a content,
the texts of UTF-8 errors, and the order in which a directory is listed. -/
structure RepairEnv where
  readJson : String → Except String JsonValue
  readYaml : String → Except String YamlValue
  dataRootId : String
  dataRootShort : escapedLength dataRootId ≤ 64
  identity : Option String → String
  utf8Error : Bytes → String
  readDir : List String → List String
  readDir_perm : ∀ names, (readDir names).Perm names

def readFileBounded (env : RepairEnv) (t : Target) (file : String) (limit : Nat) (s : RepairDisk) :
    Except IoError (Option String) :=
  if file ∉ FILES then .error (invalid "Unsupported profile repair file")
  else
    match s.files t file with
    | none => .ok none
    | some content =>
        if content.size > limit then
          .error (invalidData "Configuration or backup must be an ordinary bounded file")
        else
          match content with
          | .text text => .ok (some text)
          | .binary bytes => .error ⟨.other, env.utf8Error bytes⟩

def readFile (env : RepairEnv) (t : Target) (file : String) (s : RepairDisk) :
    Except IoError (Option String) := readFileBounded env t file RECOVERY_LIMIT s

def profileDirectory (t : Target) (s : RepairDisk) : Except IoError Unit := do
  Checkpoint.validateProfileName t.profile
  s.directory t

/-- The bundles of a manifest are names. -/
def validBundles (value : JsonValue) : Bool :=
  ((profileMember value "bundles").bind asArray).any fun items =>
    items.all fun item => (asStr item).any fun name => !name.toList.all isWhitespace

/-- The check of one list of dependencies. -/
def validateDependencies (value : JsonValue) (name : String) : Except IoError PUnit :=
  match member value name with
  | none => .ok ⟨⟩
  | some (.mapping entries) =>
      if entries.all fun entry => (asStr entry.2).isSome then .ok ⟨⟩
      else .error (invalid "Package dependency declarations must map names to strings")
  | some _ => .error (invalid "Package dependency declarations must map names to strings")

/-- `is_sequence` or `is_null`, which look below a tag. -/
def validPatch (value : YamlValue) : Bool :=
  match value.untag with
  | .sequence _ => true
  | .scalar .null => true
  | _ => false

def validate (env : RepairEnv) (file text : String) : Except IoError Unit :=
  if text.utf8ByteSize > LIMIT then .error (invalid "Profile file exceeds repair limit")
  else if file = "package.json" then do
    let value ← (env.readJson text).mapError fun message => ⟨.other, message⟩
    if validBundles value = false then
      throw (invalid "package.json requires dsh.profile.bundles as an array of package names")
    ["dependencies", "devDependencies", "optionalDependencies"].forM (validateDependencies value)
  else if file = "cordis.patch.yml" then do
    let value ← (env.readYaml text).mapError fun message => ⟨.other, message⟩
    if validPatch value = false then throw (invalid "Profile patch must be a YAML sequence")
  else .error (invalid "Unsupported profile repair file")

/-- Both files of a profile can be read. -/
def Readable (t : Target) (s : RepairDisk) : Prop :=
  ∀ file ∈ FILES, ∀ content, s.files t file = some content →
    content.size ≤ RECOVERY_LIMIT ∧ ∃ text, content = .text text

def TextOf (file : Option ProfileFile) (content : Option String) : Prop :=
  file = content.map .text

section Reading

variable {env : RepairEnv} {t : Target} {file : String} {limit : Nat} {s : RepairDisk}
  {content : Option String}

theorem readFileBounded_eq_ok : readFileBounded env t file limit s = .ok content ↔
    file ∈ FILES ∧ TextOf (s.files t file) content ∧
      ∀ text, content = some text → text.utf8ByteSize ≤ limit := by
  unfold readFileBounded TextOf
  by_cases hfile : file ∈ FILES
  · rw [if_neg (not_not.mpr hfile)]
    cases hcontent : s.files t file with
    | none =>
      constructor
      · intro h
        obtain rfl := Except.ok.inj h
        exact ⟨hfile, rfl, by simp⟩
      · rintro ⟨-, h, -⟩
        rw [Option.map_eq_none_iff.mp h.symm]
    | some found =>
      dsimp only
      by_cases hsize : found.size > limit
      · rw [if_pos hsize]
        refine iff_of_false (by simp) ?_
        rintro ⟨-, h, hbound⟩
        obtain ⟨text, rfl, rfl⟩ := Option.map_eq_some_iff.mp h.symm
        exact absurd (hbound text rfl) (Nat.not_le.mpr hsize)
      · rw [if_neg hsize]
        cases found with
        | text text =>
          constructor
          · intro h
            obtain rfl := Except.ok.inj h
            refine ⟨hfile, rfl, ?_⟩
            rintro text' heq
            obtain rfl := Option.some.inj heq
            exact Nat.le_of_not_lt hsize
          · rintro ⟨-, h, -⟩
            obtain ⟨text', rfl, heq⟩ := Option.map_eq_some_iff.mp h.symm
            rw [ProfileFile.text.inj heq]
        | binary bytes =>
          refine iff_of_false (by simp) ?_
          rintro ⟨-, h, -⟩
          obtain ⟨text, -, heq⟩ := Option.map_eq_some_iff.mp h.symm
          cases heq
  · rw [if_pos hfile]
    exact iff_of_false (by simp) fun h => hfile h.1

variable (env) in
theorem Readable.readFile (h : Readable t s) (hfile : file ∈ FILES) :
    ∃ content, ProfileRepair.readFile env t file s = .ok content := by
  cases hcontent : s.files t file with
  | none => exact ⟨none, readFileBounded_eq_ok.mpr ⟨hfile, hcontent, by simp⟩⟩
  | some found =>
    obtain ⟨hsize, text, rfl⟩ := h file hfile found hcontent
    refine ⟨some text, readFileBounded_eq_ok.mpr ⟨hfile, hcontent, ?_⟩⟩
    rintro text' heq
    obtain rfl := Option.some.inj heq
    exact hsize

end Reading

/-! ## 2. Records -/

def stringLength (text : String) : Nat := escapedLength text + 2

/-- The length of a record's text: the names of the fields with the white space between them, and
the values. -/
def encodedLength (r : Backup) : Nat :=
  91 + stringLength r.dataRootId + stringLength r.profile + stringLength r.home +
    stringLength r.file + (r.content.elim 4 stringLength) + (toString r.created.toNat).length

theorem escapedSize_le (c : Char) : escapedSize c ≤ 6 * c.utf8Size := by
  have hpos : 1 ≤ c.utf8Size := Char.utf8Size_pos c
  unfold escapedSize
  split
  · omega
  · split
    · omega
    · omega

theorem escapedLength_le (text : String) : escapedLength text ≤ 6 * text.utf8ByteSize := by
  have hchars : ∀ chars : List Char,
      (chars.map escapedSize).sum ≤ 6 * (String.ofList chars).utf8ByteSize := by
    intro chars
    induction chars with
    | nil => simp
    | cons c chars ih =>
      have hc := escapedSize_le c
      rw [List.map_cons, List.sum_cons, String.ofList_cons, String.utf8ByteSize_append,
        String.utf8ByteSize_singleton]
      omega
  have h := hchars text.toList
  rwa [String.ofList_toList] at h

theorem length_created_le (created : UInt64) : (toString created.toNat).length ≤ 20 := by
  have hlt : created.toNat < 10 ^ 20 := lt_trans created.toNat_lt (by norm_num)
  exact (Nat.length_repr_le_iff (by omega)).mpr hlt

/-- A record of a profile, with a content that can be read back. -/
structure RecordOf (env : RepairEnv) (t : Target) (r : Backup) : Prop where
  dataRoot : r.dataRootId = env.dataRootId
  profile : r.profile = t.profile
  named : Checkpoint.validateProfileName t.profile = .ok ()
  home : r.home = t.home.path
  file : r.file ∈ FILES
  content : ∀ text, r.content = some text → text.utf8ByteSize ≤ RECOVERY_LIMIT

/-- **A record of a file that can be read can be read**: however its content is escaped. -/
theorem encodedLength_le {env : RepairEnv} {t : Target} {r : Backup} (h : RecordOf env t r) :
    encodedLength r ≤ BACKUP_LIMIT := by
  obtain ⟨hroot, hprofile, hnamed, hhome, hfile, hcontent⟩ := h
  have hlimit : RECOVERY_LIMIT = 262144 := rfl
  have hbackup : BACKUP_LIMIT = 2097152 := rfl
  have hshort : t.profile.utf8ByteSize ≤ 64 := by
    unfold Checkpoint.validateProfileName at hnamed
    split at hnamed
    · cases hnamed
    · split at hnamed
      · cases hnamed
      · next hle => exact Nat.le_of_not_lt hle
  have hrootLength := env.dataRootShort
  have hprofileLength := escapedLength_le t.profile
  have hhomeLength := t.home.short
  have hfileLength : escapedLength r.file ≤ 90 := by
    simp only [FILES, List.mem_cons, List.not_mem_nil, or_false] at hfile
    rcases hfile with hfile | hfile
    · rw [hfile]
      decide
    · rw [hfile]
      decide
  have hcontentLength : r.content.elim 4 stringLength ≤ 6 * 262144 + 2 := by
    cases hr : r.content with
    | none => simp
    | some text =>
      have htext := hcontent text hr
      have hescaped := escapedLength_le text
      rw [Option.elim_some, stringLength]
      omega
  have hcreated := length_created_le r.created
  unfold encodedLength stringLength at *
  rw [hroot, hprofile, hhome]
  omega

/-- The digits of `random_hex`. -/
def hexDigit (n : Nat) : Char := if n < 10 then Char.ofNat (0x30 + n) else Char.ofNat (0x57 + n)

/-- `agent_auth::random_hex` of what the operating system gives. -/
def randomHex (bytes : Fin 32 → UInt8) : String :=
  String.ofList ((List.ofFn bytes).flatMap fun b =>
    [hexDigit (b.toNat / 16), hexDigit (b.toNat % 16)])

/-- The random bytes and the time of a record. -/
structure Stamp where
  random : Fin 32 → UInt8
  created : UInt64

def Stamp.id (stamp : Stamp) : String := randomHex stamp.random

/-- `is_ascii_hexdigit`. -/
def isHexDigit (c : Char) : Bool :=
  ('0' ≤ c && c ≤ '9') || ('a' ≤ c && c ≤ 'f') || ('A' ≤ c && c ≤ 'F')

def validBackupId (id : String) : Bool :=
  !id.isEmpty && decide (id.utf8ByteSize ≤ 128) && id.toList.all isHexDigit

theorem hexDigit_spec {n : Nat} (h : n < 16) :
    isHexDigit (hexDigit n) = true ∧ (hexDigit n).utf8Size = 1 := by
  have hall : ∀ n < 16, isHexDigit (hexDigit n) = true ∧ (hexDigit n).utf8Size = 1 := by decide
  exact hall n h

theorem validBackupId_id (stamp : Stamp) : validBackupId stamp.id = true := by
  have hdigits : ∀ b : UInt8, b.toNat / 16 < 16 ∧ b.toNat % 16 < 16 := by
    intro b
    have hb := b.toNat_lt
    omega
  have hsize : ∀ bytes : List UInt8, (String.ofList (bytes.flatMap fun b =>
      [hexDigit (b.toNat / 16), hexDigit (b.toNat % 16)])).utf8ByteSize = 2 * bytes.length := by
    intro bytes
    induction bytes with
    | nil => rfl
    | cons b bytes ih =>
      obtain ⟨hhigh, hlow⟩ := hdigits b
      rw [List.flatMap_cons, List.cons_append, List.cons_append, List.nil_append,
        String.ofList_cons, String.ofList_cons, String.utf8ByteSize_append,
        String.utf8ByteSize_append, String.utf8ByteSize_singleton, String.utf8ByteSize_singleton,
        (hexDigit_spec hhigh).2, (hexDigit_spec hlow).2, ih, List.length_cons]
      omega
  have hlength := hsize (List.ofFn stamp.random)
  rw [List.length_ofFn] at hlength
  have hid : stamp.id.utf8ByteSize = 64 := hlength
  unfold validBackupId
  rw [Bool.and_eq_true, Bool.and_eq_true]
  refine ⟨⟨?_, by rw [hid]; decide⟩, ?_⟩
  · rw [Bool.not_eq_true', String.isEmpty_eq_false_iff]
    intro hempty
    rw [hempty] at hid
    cases hid
  · unfold Stamp.id randomHex
    rw [String.toList_ofList, List.all_eq_true]
    intro c hc
    obtain ⟨b, -, hb⟩ := List.mem_flatMap.mp hc
    obtain ⟨hhigh, hlow⟩ := hdigits b
    simp only [List.mem_cons, List.not_mem_nil, or_false] at hb
    rcases hb with rfl | rfl
    · exact (hexDigit_spec hhigh).1
    · exact (hexDigit_spec hlow).1

/-! ## 3. Backups -/

namespace RepairDisk

def record (s : RepairDisk) (id : String) : Option Backup := s.history.bind fun h => h.lookup id

/-- The names of the directory of records. -/
def recordIds (s : RepairDisk) : List String := (s.history.getD ∅).keys

def makeHistory (s : RepairDisk) : RepairDisk := { s with history := some (s.history.getD ∅) }

def putRecord (id : String) (r : Backup) (s : RepairDisk) : RepairDisk :=
  { s with history := s.history.map fun h => h.insert id r }

def setFile (t : Target) (file : String) (content : Option ProfileFile) (s : RepairDisk) :
    RepairDisk :=
  { s with files := Function.update s.files t (Function.update (s.files t) file content) }

@[simp] theorem files_makeHistory (s : RepairDisk) : s.makeHistory.files = s.files := rfl

@[simp] theorem files_putRecord (id : String) (r : Backup) (s : RepairDisk) :
    (s.putRecord id r).files = s.files := rfl

theorem files_setFile (t : Target) (file : String) (content : Option ProfileFile)
    (s : RepairDisk) : (s.setFile t file content).files =
      Function.update s.files t (Function.update (s.files t) file content) := rfl

@[simp] theorem record_makeHistory (s : RepairDisk) : s.makeHistory.record = s.record := by
  funext id
  unfold record makeHistory
  cases s.history with
  | none => rfl
  | some h => rfl

@[simp] theorem record_setFile (t : Target) (file : String) (content : Option ProfileFile)
    (s : RepairDisk) : (s.setFile t file content).record = s.record := rfl

theorem record_putRecord_makeHistory (id : String) (r : Backup) (s : RepairDisk) (id' : String) :
    (s.makeHistory.putRecord id r).record id' = if id' = id then some r else s.record id' := by
  unfold record makeHistory putRecord
  cases s.history with
  | none => exact Table.lookup_insert id id' r
  | some h => exact Table.lookup_insert id id' r

theorem record_of_mem_recordIds {s : RepairDisk} {id : String} :
    id ∈ s.recordIds ↔ ∃ r, s.record id = some r := by
  unfold recordIds record
  cases s.history with
  | none => simp [AList.keys]
  | some h =>
    rw [Option.getD_some, Option.bind_some, ← AList.mem_keys, ← AList.lookup_isSome,
      Option.isSome_iff_exists]

end RepairDisk

/-- Make the directory of records, unless it is there. -/
def ensureHistory : Program RepairDisk IoError Unit := do
  if (← Program.read).history.isSome then pure ()
  else Program.durable fileOperationFailed RepairDisk.makeHistory

def backup (env : RepairEnv) (t : Target) (file : String) (content : Option String)
    (stamp : Stamp) : Program RepairDisk IoError String := do
  if file ∉ FILES ∨ content.any (fun text => text.utf8ByteSize > RECOVERY_LIMIT) then
    throw (invalid "Profile file exceeds recovery limit")
  else
    ensureHistory
    Program.attempt fileOperationFailed
    Program.durable fileOperationFailed (RepairDisk.putRecord stamp.id
      ⟨env.dataRootId, t.profile, t.home.path, file, content, stamp.created⟩)
    pure stamp.id

def backupConfiguration (env : RepairEnv) (t : Target) (stamps : String → Stamp) :
    Program RepairDisk IoError Unit := do
  Program.inspect (profileDirectory t)
  FILES.forM fun file => do
    let content ← Program.inspect (readFileBounded env t file LIMIT)
    let _ ← backup env t file content (stamps file)

def backupBeforeStartup (env : RepairEnv) (t : Target) (stamps : String → Stamp) :
    Program RepairDisk IoError Unit := do
  let s ← Program.read
  match profileDirectory t s with
  | .error e => if e.kind = .notFound then pure () else throw e
  | .ok () => backupConfiguration env t stamps

/-! ## 4. Inspection -/

structure FileRow where
  file : String
  content : Option String
  contentTruncated : Bool
  fingerprint : String
  error : Option String
  deriving DecidableEq, Repr

structure BackupRow where
  id : String
  file : String
  created : UInt64
  deriving DecidableEq

structure Report where
  profile : String
  files : List FileRow
  backups : List BackupRow
  startupVerified : Bool
  deriving DecidableEq

def fileError (env : RepairEnv) (file : String) : Option String → Option String
  | some text =>
      match validate env file text with
      | .ok () => none
      | .error e => some e.message
  | none => if file = "package.json" then some "package.json is missing" else none

def fileRow (env : RepairEnv) (t : Target) (s : RepairDisk) (file : String) :
    Except IoError FileRow := do
  let content ← readFile env t file s
  let preview := content.map fun text => truncateString text LIMIT
  pure ⟨file, preview,
    content.any fun text => (truncateString text LIMIT).utf8ByteSize ≠ text.utf8ByteSize,
    env.identity content, fileError env file content⟩

/-- `read_regular_file_bounded` of a record, parsed. -/
def readRecord (s : RepairDisk) (id : String) : Except IoError (Option Backup) :=
  match s.record id with
  | none => .ok none
  | some r =>
      if encodedLength r > BACKUP_LIMIT then
        .error (invalidData "Configuration or backup must be an ordinary bounded file")
      else .ok (some r)

/-- A record is shown with its own profile. -/
def backupRow (env : RepairEnv) (t : Target) (id : String) (r : Backup) : Option BackupRow :=
  if r.dataRootId = env.dataRootId ∧ r.profile = t.profile ∧ r.home = t.home.path ∧
      r.file ∈ FILES ∧ validBackupId id = true then some ⟨id, r.file, r.created⟩
  else none

def readBackups (env : RepairEnv) (t : Target) (s : RepairDisk) :
    List String → Except IoError (List BackupRow)
  | [] => .ok []
  | id :: ids => do
      let found ← readRecord s id
      let rows ← readBackups env t s ids
      pure ((found.bind (backupRow env t id)).toList ++ rows)

/-- `inspect`. -/
def inspectProfile (env : RepairEnv) (t : Target) (s : RepairDisk) : Except IoError Report := do
  profileDirectory t s
  let files ← FILES.mapM (fileRow env t s)
  let backups ← readBackups env t s ((env.readDir s.recordIds).take 4096)
  pure ⟨t.profile, files,
    (backups.insertionSort fun a b => b.created ≤ a.created).take 40, false⟩

/-! ## 5. Repair -/

structure Command where
  action : String
  profile : Option String
  file : Option String
  content : Option String
  fingerprint : Option String
  backup : Option String
  deriving DecidableEq, Repr

inductive Answer where
  | profiles (names : List String)
  | report (report : Report) (savedBackup : Option String)
  deriving DecidableEq

def listProfiles (home : Home) (s : RepairDisk) : List String :=
  let names := ((s.entries home).getD []).take 257
  (names.filter fun name => name ≠ "node_modules" ∧ name.toList.head? ≠ some '.' ∧
    (profileDirectory ⟨home, name⟩ s).isOk).insertionSort (· ≤ ·)

/-- A change of one file: what it holds, and what it is to hold. -/
structure Change where
  file : String
  original : Option String
  next : Option String
  deriving DecidableEq, Repr

/-- The content that a command puts into a file. -/
def nextContent (env : RepairEnv) (t : Target) (command : Command) (file : String)
    (s : RepairDisk) : Except IoError (Option String) :=
  if command.action = "restore" then do
    let some id := command.backup | throw (invalid "Choose a recovery point")
    if validBackupId id = false then throw (invalid "Invalid recovery point")
    if s.history.isNone then throw ⟨.notFound, "No such file or directory"⟩
    let some r ← readRecord s id | throw (invalid "Recovery point missing")
    if r.dataRootId ≠ env.dataRootId ∨ r.profile ≠ t.profile ∨ r.home ≠ t.home.path ∨
        r.file ≠ file then
      throw (invalid "Recovery point belongs to another target")
    pure r.content
  else do
    let some text := command.content | throw (invalid "Configuration text missing")
    validate env file text
    pure (some text)

/-- What `control` checks before it changes anything. -/
def planChange (env : RepairEnv) (t : Target) (command : Command) (s : RepairDisk) :
    Except IoError Change := do
  if command.action ≠ "save" ∧ command.action ≠ "restore" then
    throw (invalid "Unknown profile repair operation")
  let some file := command.file | throw (invalid "Choose a configuration file")
  let original ← readFile env t file s
  if command.fingerprint ≠ some (env.identity original) then
    throw (invalid "Configuration changed; inspect again before saving")
  let next ← nextContent env t command file s
  if next.any fun text => text.utf8ByteSize > RECOVERY_LIMIT then
    throw (invalid "Recovery point exceeds recovery limit")
  pure ⟨file, original, next⟩

/-- The file is read again before it is replaced. -/
def checkUnchanged (env : RepairEnv) (t : Target) (change : Change) (s : RepairDisk) :
    Except IoError Unit := do
  if (← readFile env t change.file s) ≠ change.original then
    throw (invalid "Configuration changed during backup; nothing overwritten")

def checkWritten (env : RepairEnv) (t : Target) (change : Change) (s : RepairDisk) :
    Except IoError Unit := do
  if (← readFile env t change.file s) ≠ change.next then
    throw (invalid "Configuration read-back verification failed")

def replaceFile (t : Target) (change : Change) : Program RepairDisk IoError Unit :=
  if change.next = none ∧ change.original = none then pure ()
  else
    Program.durable fileOperationFailed
      (RepairDisk.setFile t change.file (change.next.map .text))

/-- `control`, for a profile. -/
def controlProfile (env : RepairEnv) (t : Target) (command : Command) (stamp : Stamp) :
    Program RepairDisk IoError Answer := do
  Program.attempt fileOperationFailed
  Program.inspect (profileDirectory t)
  if command.action = "inspect" then
    let report ← Program.inspect (inspectProfile env t)
    pure (.report report none)
  else
    let change ← Program.inspect (planChange env t command)
    let saved ← backup env t change.file change.original stamp
    Program.inspect (checkUnchanged env t change)
    replaceFile t change
    Program.attempt fileOperationFailed
    Program.inspect (checkWritten env t change)
    let report ← Program.inspect (inspectProfile env t)
    pure (.report report (some saved))

def control (env : RepairEnv) (home : Home) (command : Command) (stamp : Stamp) :
    Program RepairDisk IoError Answer :=
  if command.action = "list" then do
    return .profiles (listProfiles home (← Program.read))
  else
    match command.profile with
    | none => throw (invalid "Choose a repair target")
    | some profile => controlProfile env ⟨home, profile⟩ command stamp

/-- What happens to the profiles: the backup before a start, a command, and a change of a file or
of a directory by somebody else. -/
inductive RepairCall where
  | startup (t : Target) (stamps : String → Stamp)
  | control (home : Home) (command : Command) (stamp : Stamp)
  | edit (t : Target) (file : String) (content : Option ProfileFile)
  | relocate (directory : Target → Except IoError Unit) (entries : Home → Option (List String))

def repairCall (env : RepairEnv) : RepairCall → Program RepairDisk IoError (Option Answer)
  | .startup t stamps => do
      backupBeforeStartup env t stamps
      pure none
  | .control home command stamp => some <$> control env home command stamp
  | .edit t file content => do
      Program.durable fileOperationFailed (RepairDisk.setFile t file content)
      pure none
  | .relocate directory entries => do
      Program.durable fileOperationFailed fun s => { s with directory, entries }
      pure none

end DshNexus.Agent.ProfileRepair
