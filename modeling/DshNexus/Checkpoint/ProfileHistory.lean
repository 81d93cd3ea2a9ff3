import DshNexus.Checkpoint.Committed
import DshNexus.Checkpoint.Diagnostics
import DshNexus.Core.Table
import DshNexus.Core.Text
import DshNexus.Core.Words
import DshNexus.Durable.Crash

/-!
# The history of the profile catalog

`crates/nexus-core/src/profile_history.rs` keeps the catalogs that the profile store publishes, and
`restore` of `crates/nexus-agent/src/recovery_records.rs` puts one of them back.

A catalog is recorded after it has been published, by the same call or, where that was cut, by the
next one.  A recording lists the directory first, and the listing gives up at 128 entries; a record
is written without a bound and read up to 4 MiB.

1. The records, `list`, `load`, `capture`; the calls of `ProfileStore`; `restore`.
2. `list_of_recorded`: what the newest records make the listing.
3. `crashWp_captureHistory`, `crashWp_publishWithHistory`: what one step keeps.
4. `crashWp_storeCall`, `sound_run`: calls, and runs of calls that may be cut.
5. `crashWp_restore`.
6. `history_kept`.
-/

namespace DshNexus.Checkpoint.ProfileHistory

open Durable Program Release

/-! ## 1. The source -/

def LIMIT : Nat := 4 * 1024 * 1024

def invalid (message : String) : IoError := invalidData message

/-- A record of the history: its time, the digest of its catalog, and the catalog. -/
structure Point where
  nanos : Nat
  sha256 : String
  catalog : ProfileCatalog
  deriving DecidableEq, Repr

namespace Point

def id (p : Point) : String :=
  String.ofList (Nat.toDigits 10 p.nanos ++ '-' :: p.sha256.toList.take 16)

/-- The text of the record's file, as it is laid out by `encode_json`. -/
def encode (p : Point) : String :=
  "\x7b\n  \"catalog\": \x7b\n    \"active_profile\": \"" ++ p.catalog.activeProfile ++
    "\",\n    \"profiles\": " ++
    (if p.catalog.profiles.isEmpty = true then "[]"
      else "[\n      \"" ++ "\",\n      \"".intercalate p.catalog.profiles ++ "\"\n    ]") ++
    ",\n    \"schema_version\": " ++ toString p.catalog.schemaVersion ++
    "\n  \x7d,\n  \"created_at_unix\": " ++ toString (p.nanos / 1000000000) ++
    ",\n  \"created_at_unix_nanos\": " ++ toString p.nanos ++
    ",\n  \"format_version\": 1,\n  \"id\": \"" ++ p.id ++ "\",\n  \"sha256\": \"" ++ p.sha256 ++
    "\"\n\x7d"

end Point

/-- A file of the history: a record that `capture` has written, or any other entry with what
loading it comes to. -/
inductive HistoryFile where
  | point (p : Point)
  | foreign (error : IoError)
  deriving DecidableEq

/-- `profiles.json`: as the store publishes a catalog, as a restore does, or other bytes. -/
inductive ProfilesFile where
  | published (catalog : ProfileCatalog)
  | restored (catalog : ProfileCatalog)
  | foreign (bytes : Bytes)
  deriving DecidableEq

def compactCatalog (catalog : ProfileCatalog) : String :=
  "\x7b\"active_profile\":\"" ++ catalog.activeProfile ++ "\",\"profiles\":[" ++
    (if catalog.profiles.isEmpty = true then "" else
      "\"" ++ "\",\"".intercalate catalog.profiles ++ "\"") ++
    "],\"schema_version\":" ++ toString catalog.schemaVersion ++ "\x7d"

def ProfilesFile.size : ProfilesFile → Nat
  | .published catalog => (encodeCatalog catalog).utf8ByteSize
  | .restored catalog => (compactCatalog catalog).utf8ByteSize
  | .foreign bytes => bytes.length

/-- What is taken from outside: SHA-256 of a catalog's compact text, the parser for bytes that no
call has written, and the revision of a file. -/
structure HistoryEnv where
  sha256 : ProfileCatalog → String
  sha256_hex : ∀ catalog, (sha256 catalog).toList.length = 64 ∧
    ∀ c ∈ (sha256 catalog).toList, c.isDigit = true ∨ ('a' ≤ c ∧ c ≤ 'f')
  decode : Bytes → Except IoError ProfileCatalog
  /-- `validate` of other bytes -/
  validate : Bytes → Except IoError ProfileCatalog
  /-- the bytes are no JSON, or a catalog of the supported format -/
  supported : Bytes → Bool
  revision : ProfilesFile → String

/-- The stores of the profile catalog, and what a process remembers. -/
structure HistoryDisk where
  profiles : Option ProfilesFile
  /-- the directory `profile-history` -/
  history : Option (AList fun _ : String => HistoryFile)
  /-- the files `original.bin` of `recovery-records` -/
  backups : List ProfilesFile
  /-- `history_observed`, which a process begins without -/
  observed : Option ProfileCatalog
  /-- the catalogs that have been published one after the other, the newest first; no call reads
  them -/
  saved : List ProfileCatalog

namespace HistoryDisk

def entries (s : HistoryDisk) : List (Sigma fun _ : String => HistoryFile) :=
  (s.history.getD ∅).entries

def lookup (s : HistoryDisk) (id : String) : Option HistoryFile := (s.history.getD ∅).lookup id

def makeHistory (s : HistoryDisk) : HistoryDisk := { s with history := some (s.history.getD ∅) }

def putFile (name : String) (file : HistoryFile) (s : HistoryDisk) : HistoryDisk :=
  { s with history := some ((s.history.getD ∅).insert name file) }

def removeFile (name : String) (s : HistoryDisk) : HistoryDisk :=
  { s with history := some ((s.history.getD ∅).erase name) }

def moveFile (temporary name : String) (file : HistoryFile) (s : HistoryDisk) : HistoryDisk :=
  (s.removeFile temporary).putFile name file

/-- The catalog is in `profiles.json`. -/
def publish (catalog : ProfileCatalog) (s : HistoryDisk) : HistoryDisk :=
  { s with
    profiles := some (.published catalog)
    saved := if s.saved.head? = some catalog then s.saved else catalog :: s.saved }

def observe (catalog : ProfileCatalog) (s : HistoryDisk) : HistoryDisk :=
  { s with observed := some catalog }

end HistoryDisk

abbrev HistoryProgram := Program HistoryDisk IoError

/-- `validate` of a catalog's text. -/
def validateCatalog (catalog : ProfileCatalog) : Except IoError ProfileCatalog :=
  if catalog.schemaVersion ≠ PROFILE_SCHEMA_VERSION then
    .error (invalid "Unsupported profile history format")
  else do
    let normalized ← ProfileCatalog.new catalog.activeProfile catalog.profiles
    if normalized ≠ catalog then
      throw (invalid "Profile history is not a complete normalized catalog")
    else pure catalog

def isIdChar (c : Char) : Bool := c.isDigit || ('a' ≤ c && c ≤ 'f') || c = '-'

def validId (id : String) : Bool :=
  id ≠ "" && id.utf8ByteSize ≤ 128 && id.toList.all isIdChar

section Calls

variable (env : HistoryEnv)

def load (s : HistoryDisk) (id : String) : Except IoError Point :=
  if validId id = false then .error (invalid "Invalid recovery point")
  else
    match s.lookup id with
    | none => .error (invalid "Recovery point missing")
    | some (.foreign error) => .error error
    | some (.point p) =>
        if p.encode.utf8ByteSize > LIMIT then
          .error (invalidData "Configuration or backup must be an ordinary bounded file")
        else if p.id ≠ id then .error (invalid "Invalid recovery point identity")
        else do
          let _ ← validateCatalog p.catalog
          if p.sha256 ≠ env.sha256 p.catalog then
            throw (invalid "Recovery point integrity check failed")
          else pure p

def list (s : HistoryDisk) : Except IoError (List Point) :=
  if s.entries.length > 128 then
    .error (invalid ("Recovery history listing exceeded its limit; some recovery points were " ++
      "not inspected"))
  else
    .ok (((s.entries.filterMap fun entry => (load env s entry.1).toOption).insertionSort
      fun a b => b.nanos ≤ a.nanos).take 64)

/-- `read_regular_file_bounded` of `profiles.json`. -/
def readProfilesFile (s : HistoryDisk) : Except IoError (Option ProfilesFile) :=
  match s.profiles with
  | none => .ok none
  | some file =>
      if file.size > LIMIT then
        .error (invalidData "Configuration or backup must be an ordinary bounded file")
      else .ok (some file)

/-- `validate` of `profiles.json`. -/
def validateFile : ProfilesFile → Except IoError ProfileCatalog
  | .published catalog => validateCatalog catalog
  | .restored catalog => validateCatalog catalog
  | .foreign bytes => env.validate bytes

def temporaryName (p : Point) : String := "." ++ p.id ++ ".tmp"

/-- The part of `capture` that writes the record and removes what is too old. -/
def recordPoint (p : Point) (history : List Point) : HistoryProgram Unit := do
  Program.durable ⟨.other, "profile-history"⟩ HistoryDisk.makeHistory
  Program.durable ⟨.other, "temporary file"⟩
    (HistoryDisk.putFile (temporaryName p) (.foreign (invalid "Invalid recovery point")))
  Program.durable ⟨.other, "rename"⟩ (HistoryDisk.moveFile (temporaryName p) p.id (.point p))
  (history.drop 63).forM fun old =>
    Program.ignoreError (Program.durable ⟨.other, "remove"⟩ (HistoryDisk.removeFile old.id))

/-- `capture`, at the given time. -/
def capture (now : Nat) (catalog : ProfileCatalog) : HistoryProgram Unit := do
  let s ← Program.read
  let current ← Program.ofExcept (readProfilesFile s)
  let current ← Program.ofExcept
    (required (invalid "No saved profile catalog to back up") current)
  let current ← Program.ofExcept (validateFile env current)
  if current ≠ catalog then throw (invalid "Profile catalog changed before history capture")
  let _ ← Program.ofExcept (validateCatalog catalog)
  let history ← Program.ofExcept (list env s)
  if history.head?.any (fun point => point.sha256 = env.sha256 catalog) = true then pure ()
  else recordPoint ⟨now, env.sha256 catalog, catalog⟩ history

def captureHistory (now : Nat) (catalog : ProfileCatalog) : HistoryProgram Unit := do
  let s ← Program.read
  if s.observed = some catalog then pure ()
  else do
    Program.ignoreError (capture env now catalog)
    Program.step (HistoryDisk.observe catalog) (pure ()) (pure ())

def publishWithHistory (now : Nat) (catalog : ProfileCatalog) : HistoryProgram Unit := do
  Program.durable ⟨.other, "profiles.json"⟩ (HistoryDisk.publish catalog)
  captureHistory env now catalog

/-- `decode_json` of `profiles.json`. -/
def decodeFile : ProfilesFile → Except IoError ProfileCatalog
  | .published catalog => .ok catalog
  | .restored catalog => .ok catalog
  | .foreign bytes => env.decode bytes

def readUnlocked (s : HistoryDisk) : Except IoError (Option ProfileCatalog) := do
  match ← readProfilesFile s with
  | none => pure none
  | some file => do
      let catalog ← decodeFile env file
      if catalog.schemaVersion > PROFILE_SCHEMA_VERSION then
        throw (invalidData "Unsupported profile catalog schema")
      else pure (some catalog)

def loadUnlocked (now : Nat) : HistoryProgram ProfileCatalog := do
  match ← Program.inspect (readUnlocked env) with
  | none => do
      publishWithHistory env now ProfileCatalog.initial
      pure ProfileCatalog.initial
  | some before => do
      let catalog ← Program.ofExcept before.normalize
      if catalog ≠ before then publishWithHistory env now catalog
      else captureHistory env now catalog
      pure catalog

def write (now later : Nat) (catalog : ProfileCatalog) : HistoryProgram Unit := do
  match ← Program.inspect (readUnlocked env) with
  | none => pure ()
  | some previous => captureHistory env now previous
  let catalog ← Program.ofExcept catalog.normalize
  publishWithHistory env later catalog

def select (now later : Nat) (name : String) : HistoryProgram Unit := do
  Program.ofExcept (validateProfileName name)
  let catalog ← loadUnlocked env now
  let catalog ← Program.ofExcept ({ catalog with activeProfile := name } : ProfileCatalog).normalize
  publishWithHistory env later catalog

/-- `create`; what happens to the directories of the profile is given. -/
def create (now later : Nat) (name : String) (directories : Except IoError Unit) :
    HistoryProgram Unit := do
  Program.ofExcept (validateProfileName name)
  let catalog ← loadUnlocked env now
  if catalog.profiles.contains name = true ∨ catalog.activeProfile = name then
    throw ⟨.alreadyExists, "profile already exists"⟩
  Program.ofExcept directories
  let catalog ← Program.ofExcept
    ({ catalog with profiles := catalog.profiles ++ [name] } : ProfileCatalog).normalize
  publishWithHistory env later catalog

/-! ### Restoring -/

/-- `RecoveryRecords::read` of `profiles.json`. -/
def readRecord (s : HistoryDisk) : Except IoError ProfilesFile :=
  match s.profiles with
  | none => .error ⟨.notFound, "profiles.json"⟩
  | some file =>
      if file.size > LIMIT then .error (invalid "Recovery record exceeds limit") else .ok file

/-- The bytes are no JSON, or `format_class` supports them. -/
def supportedFormat : ProfilesFile → Bool
  | .published catalog => catalog.schemaVersion = PROFILE_SCHEMA_VERSION
  | .restored catalog => catalog.schemaVersion = PROFILE_SCHEMA_VERSION
  | .foreign bytes => env.supported bytes

/-- `restore`; the two looks for what else is under way are given. -/
def restore (quiescent quiescentLater : Except IoError Unit) (pointId expected : Option String) :
    HistoryProgram Unit := do
  Program.ofExcept quiescent
  let id ← Program.ofExcept (required (invalid "Choose a recovery time") pointId)
  let point ← Program.inspect fun s => load env s id
  let original ← Program.inspect readRecord
  if expected ≠ some (env.revision original) then
    throw (invalid "Recovery record changed; refresh recovery times")
  if supportedFormat env original = false then
    throw (invalid "Unsupported record format preserved; use a compatible Nexus version")
  Program.attempt ⟨.other, "recovery-records"⟩
  Program.attempt ⟨.other, "directory"⟩
  Program.durable ⟨.other, "original.bin"⟩ fun s => { s with backups := original :: s.backups }
  Program.attempt ⟨.other, "restore.json"⟩
  let again ← Program.inspect readRecord
  if env.revision again ≠ env.revision original then
    throw (invalid "Record changed while backing up; original preserved")
  Program.ofExcept quiescentLater
  Program.durable ⟨.other, "profiles.json"⟩ fun s =>
    { s with profiles := some (.restored point.catalog) }

end Calls

/-! ## 2. The listing -/

section Ids

theorem nanos_of_id {p q : Point} (h : p.id = q.id) : p.nanos = q.nanos := by
  have hread : ∀ p : Point, Text.splitOnce '-' p.id.toList =
      some (Nat.toDigits 10 p.nanos, p.sha256.toList.take 16) := by
    intro p
    unfold Point.id
    rw [String.toList_ofList]
    exact Text.splitOnce_append _ fun hdash => absurd (isDigit_of_mem_toDigits hdash) (by decide)
  have hp := hread p
  rw [h, hread q] at hp
  rw [← digitsValue_toDigits p.nanos, ← (Prod.mk.inj (Option.some.inj hp)).1, digitsValue_toDigits]

theorem head?_id (p : Point) : ∃ c, p.id.toList.head? = some c ∧ c.isDigit = true := by
  rcases hdigits : Nat.toDigits 10 p.nanos with _ | ⟨c, rest⟩
  · exact absurd hdigits Nat.toDigits_ne_nil
  · have hc : c ∈ Nat.toDigits 10 p.nanos := by
      rw [hdigits]
      exact List.mem_cons_self
    refine ⟨c, ?_, isDigit_of_mem_toDigits hc⟩
    unfold Point.id
    rw [String.toList_ofList, hdigits]
    rfl

theorem temporaryName_ne_id (p q : Point) : temporaryName p ≠ q.id := by
  intro h
  obtain ⟨c, hc, hdigit⟩ := head?_id q
  rw [← h, temporaryName, String.toList_append, String.toList_append] at hc
  obtain rfl : '.' = c := Option.some.inj hc
  exact absurd hdigit (by decide)

end Ids

structure Recorded (env : HistoryEnv) (p : Point) : Prop where
  nanos : p.nanos < 2 ^ 64
  digest : p.sha256 = env.sha256 p.catalog
  normal : validateCatalog p.catalog = .ok p.catalog
  small : p.encode.utf8ByteSize ≤ LIMIT

section Loads

variable {env : HistoryEnv} {s : HistoryDisk} {p : Point}

theorem validId_id (h : Recorded env p) : validId p.id = true := by
  obtain ⟨hlength, hhex⟩ := env.sha256_hex p.catalog
  rw [← h.digest] at hlength hhex
  have hall : ∀ c ∈ Nat.toDigits 10 p.nanos ++ '-' :: p.sha256.toList.take 16,
      isIdChar c = true ∧ c.utf8Size = 1 := by
    intro c hc
    have hascii : ∀ {c : Char}, c.toNat ≤ 127 → c.utf8Size = 1 := fun hle =>
      Char.utf8Size_eq_one_iff.mpr hle
    have hdigit : ∀ {c : Char}, c.isDigit = true → isIdChar c = true ∧ c.utf8Size = 1 := by
      intro c hc
      have hhigh : c.toNat ≤ 57 := by
        simp only [Char.isDigit, Bool.and_eq_true, decide_eq_true_eq] at hc
        exact hc.2
      exact ⟨by rw [isIdChar, hc]; rfl, hascii (by omega)⟩
    rcases List.mem_append.mp hc with hc | hc
    · exact hdigit (isDigit_of_mem_toDigits hc)
    · rcases List.mem_cons.mp hc with rfl | hc
      · exact ⟨by decide, by decide⟩
      · rcases hhex c (List.mem_of_mem_take hc) with hc | ⟨hlow, hhigh⟩
        · exact hdigit hc
        · have hnat : c.toNat ≤ 102 := hhigh
          refine ⟨?_, hascii (by omega)⟩
          rw [isIdChar, decide_eq_true hlow, decide_eq_true hhigh]
          simp
  have hdigits : (Nat.toDigits 10 p.nanos).length ≤ 20 := by
    rw [Nat.length_toDigits_le_iff (by omega) (by omega)]
    exact h.nanos.trans (by norm_num)
  have hsize : p.id.utf8ByteSize = p.id.toList.length := by
    unfold Point.id
    rw [utf8ByteSize_eq_sum, String.toList_ofList, List.map_congr_left fun c hc => (hall c hc).2,
      List.map_const', List.sum_replicate, smul_eq_mul, mul_one]
  have hne : p.id ≠ "" := by
    intro hempty
    obtain ⟨c, hc, -⟩ := head?_id p
    rw [hempty] at hc
    cases hc
  unfold validId
  simp only [Bool.and_eq_true, decide_eq_true_eq, ne_eq]
  refine ⟨⟨hne, ?_⟩, ?_⟩
  · rw [hsize]
    unfold Point.id
    rw [String.toList_ofList, List.length_append, List.length_cons, List.length_take, hlength]
    omega
  · unfold Point.id
    rw [String.toList_ofList, List.all_eq_true]
    exact fun c hc => (hall c hc).1

theorem load_of_lookup (h : Recorded env p) (hlookup : s.lookup p.id = some (.point p)) :
    load env s p.id = .ok p := by
  unfold load
  rw [if_neg (by rw [validId_id h]; decide), hlookup]
  dsimp only
  rw [if_neg (not_lt.mpr h.small), if_neg (not_not.mpr rfl), h.normal, h.digest]
  exact if_neg (not_not.mpr rfl)

theorem load_eq_ok {id : String} (h : load env s id = .ok p) :
    s.lookup id = some (.point p) ∧ p.id = id := by
  unfold load at h
  split at h
  · cases h
  rcases hfile : s.lookup id with _ | (q | error)
  · rw [hfile] at h
    cases h
  · rw [hfile] at h
    dsimp only at h
    split at h
    · cases h
    split at h
    · cases h
    · next hid =>
      obtain ⟨_, -, h⟩ := bind_eq_ok h
      split at h
      · cases h
      · obtain rfl := Except.ok.inj h
        exact ⟨rfl, not_not.mp hid⟩
  · rw [hfile] at h
    cases h

end Loads

/-- **The log of a store**, the newest record first: what of it is in the directory. -/
structure Log (env : HistoryEnv) (s : HistoryDisk) (log : List Point) (bound : Nat) : Prop where
  recorded : ∀ p ∈ log, Recorded env p
  sorted : log.Pairwise fun a b => b.nanos < a.nanos
  below : ∀ p ∈ log, p.nanos < bound
  listed : ∀ id p, s.lookup id = some (.point p) → p ∈ log ∧ p.id = id
  newest : ∀ p ∈ log.take 64, s.lookup p.id = some (.point p)

section Listing

variable {env : HistoryEnv} {s s' : HistoryDisk} {log : List Point} {bound : Nat} {p : Point}

instance newestFirst_total : Std.Total fun a b : Point => b.nanos ≤ a.nanos :=
  ⟨fun a b => Nat.le_total b.nanos a.nanos⟩

instance newestFirst_trans : IsTrans Point fun a b => b.nanos ≤ a.nanos :=
  ⟨fun _ _ _ hab hbc => hbc.trans hab⟩

theorem take_filter {log : List Point} {keep : Point → Bool} (n : Nat)
    (h : ∀ p ∈ log.take n, keep p = true) : (log.filter keep).take n = log.take n := by
  have hsplit : log.filter keep = log.take n ++ (log.drop n).filter keep := by
    conv_lhs => rw [← List.take_append_drop n log, List.filter_append, List.filter_eq_self.mpr h]
  rw [hsplit]
  by_cases hlength : n ≤ log.length
  · exact List.take_left' (by rw [List.length_take]; omega)
  · rw [List.drop_of_length_le (by omega), List.filter_nil, List.append_nil, List.take_take,
      Nat.min_self]

def points (env : HistoryEnv) (s : HistoryDisk) : List Point :=
  s.entries.filterMap fun entry => (load env s entry.1).toOption

theorem toOption_eq_some {ε α : Type} {x : Except ε α} {a : α} :
    x.toOption = some a ↔ x = .ok a := by
  rcases x with e | b
  · exact iff_of_false (fun h => by cases h) (fun h => by cases h)
  · exact ⟨fun h => by rw [Option.some.inj h], fun h => by rw [Except.ok.inj h]; rfl⟩

theorem mem_points (h : Log env s log bound) :
    p ∈ points env s ↔ p ∈ log ∧ s.lookup p.id = some (.point p) := by
  unfold points
  rw [List.mem_filterMap]
  constructor
  · rintro ⟨entry, -, hload⟩
    obtain ⟨hlookup, hid⟩ := load_eq_ok (toOption_eq_some.mp hload)
    rw [hid]
    exact ⟨(h.listed _ _ hlookup).1, hlookup⟩
  · rintro ⟨hp, hlookup⟩
    refine ⟨⟨p.id, .point p⟩, AList.mem_lookup_iff.mp hlookup, ?_⟩
    rw [toOption_eq_some]
    exact load_of_lookup (h.recorded p hp) hlookup

theorem nodup_points (env : HistoryEnv) (s : HistoryDisk) : (points env s).Nodup := by
  unfold points
  have hkeys : (s.entries.map Sigma.fst).Nodup := (s.history.getD ∅).nodupKeys
  refine List.pairwise_filterMap.mpr ((List.pairwise_map.mp hkeys).imp ?_)
  intro entry entry' hne p hp q hq hpq
  subst hpq
  rw [← (load_eq_ok (toOption_eq_some.mp hp)).2, ← (load_eq_ok (toOption_eq_some.mp hq)).2] at hne
  exact hne rfl

theorem Log.eq_of_nanos (h : Log env s log bound) {p q : Point} (hp : p ∈ log) (hq : q ∈ log)
    (hnanos : p.nanos = q.nanos) : p = q := by
  have hdistinct : (log.map Point.nanos).Nodup :=
    List.pairwise_map.mpr (h.sorted.imp fun hlt => by omega)
  exact List.inj_on_of_nodup_map hdistinct hp hq hnanos

/-- **The listing of the newest records**, as long as the directory is not too full. -/
theorem list_of_log (h : Log env s log bound) (hfew : s.entries.length ≤ 128) :
    list env s = .ok (log.take 64) := by
  unfold list
  rw [if_neg (not_lt.mpr hfew)]
  congr 1
  have hsorted : ((points env s).insertionSort fun a b => b.nanos ≤ a.nanos) =
      log.filter fun p => p ∈ points env s := by
    have hperm : (points env s).Perm (log.filter fun p => p ∈ points env s) := by
      have hlog : log.Nodup := h.sorted.imp fun {a b} hlt heq => by rw [heq] at hlt; omega
      rw [List.perm_ext_iff_of_nodup (nodup_points env s) (hlog.filter _)]
      intro p
      rw [List.mem_filter, decide_eq_true_eq]
      exact ⟨fun hp => ⟨((mem_points h).mp hp).1, hp⟩, fun hp => hp.2⟩
    refine @List.Perm.eq_of_pairwise Point (fun a b => b.nanos ≤ a.nanos) _ _ ?_
      (List.pairwise_insertionSort _ _) ((h.sorted.imp fun hlt => hlt.le).filter _)
      ((List.perm_insertionSort _ _).trans hperm)
    intro a b ha hb hab hba
    have ha := (List.perm_insertionSort _ _).mem_iff.mp ha
    exact h.eq_of_nanos ((mem_points h).mp ha).1 (List.mem_of_mem_filter hb) (by omega)
  show ((points env s).insertionSort fun a b => b.nanos ≤ a.nanos).take 64 = _
  rw [hsorted]
  refine take_filter 64 fun p hp => ?_
  rw [decide_eq_true_eq, mem_points h]
  exact ⟨List.mem_of_mem_take hp, h.newest p hp⟩

end Listing

/-! ## 3. One step -/

namespace HistoryDisk

variable (s : HistoryDisk)

def forget : HistoryDisk := { s with observed := none }

@[simp] theorem lookup_putFile (name : String) (file : HistoryFile) (id : String) :
    (s.putFile name file).lookup id = if id = name then some file else s.lookup id :=
  Table.lookup_insert _ _ _

@[simp] theorem lookup_removeFile (name id : String) :
    (s.removeFile name).lookup id = if id = name then none else s.lookup id :=
  Table.lookup_erase _ _

@[simp] theorem lookup_makeHistory (id : String) : s.makeHistory.lookup id = s.lookup id := by
  unfold lookup makeHistory
  rcases s.history with _ | history <;> rfl

@[simp] theorem lookup_forget (id : String) : s.forget.lookup id = s.lookup id := rfl

@[simp] theorem entries_forget : s.forget.entries = s.entries := rfl

@[simp] theorem entries_makeHistory : s.makeHistory.entries = s.entries := by
  unfold entries makeHistory
  rcases s.history with _ | history <;> rfl

theorem length_putFile (name : String) (file : HistoryFile) :
    (s.putFile name file).entries.length ≤ s.entries.length + 1 := by
  show (List.length (_ :: List.kerase name s.entries)) ≤ _
  have hle := (List.kerase_sublist name s.entries).length_le
  rw [List.length_cons]
  omega

theorem length_removeFile (name : String) :
    (s.removeFile name).entries.length ≤ s.entries.length :=
  (List.kerase_sublist name s.entries).length_le

theorem length_moveFile (temporary name : String) (file draft : HistoryFile) :
    ((s.putFile temporary draft).moveFile temporary name file).entries.length ≤
      s.entries.length + 1 := by
  refine (length_putFile _ name file).trans (Nat.add_le_add_right ?_ 1)
  show (List.length (List.kerase temporary (⟨temporary, draft⟩ :: List.kerase temporary s.entries)))
    ≤ _
  have hfirst : List.kerase temporary (⟨temporary, draft⟩ :: List.kerase temporary s.entries) =
      List.kerase temporary s.entries := List.kerase_cons_eq rfl
  rw [hfirst]
  exact (List.kerase_sublist temporary s.entries).length_le

end HistoryDisk

section Logs

variable {env : HistoryEnv} {s s' : HistoryDisk} {log : List Point} {bound : Nat} {p : Point}

theorem Log.congr (h : Log env s log bound) (hlookup : ∀ id, s'.lookup id = s.lookup id) :
    Log env s' log bound where
  recorded := h.recorded
  sorted := h.sorted
  below := h.below
  listed id p hp := h.listed id p (by rw [← hlookup, hp])
  newest p hp := by rw [hlookup, h.newest p hp]

theorem Log.later (h : Log env s log bound) {bound' : Nat} (hle : bound ≤ bound') :
    Log env s log bound' :=
  ⟨h.recorded, h.sorted, fun p hp => (h.below p hp).trans_le hle, h.listed, h.newest⟩

theorem Log.foreign (h : Log env s log bound) {name : String} (error : IoError)
    (hname : ∀ p, s.lookup name ≠ some (.point p)) :
    Log env (s.putFile name (.foreign error)) log bound where
  recorded := h.recorded
  sorted := h.sorted
  below := h.below
  listed id p hp := by
    rw [HistoryDisk.lookup_putFile] at hp
    split at hp
    · cases hp
    · exact h.listed id p hp
  newest p hp := by
    have hlookup := h.newest p hp
    rw [HistoryDisk.lookup_putFile, if_neg, hlookup]
    rintro rfl
    exact hname p hlookup

theorem lookup_temporaryName (h : Log env s log bound) (p q : Point) :
    s.lookup (temporaryName p) ≠ some (.point q) := by
  intro hlookup
  exact temporaryName_ne_id p q (h.listed _ _ hlookup).2.symm

/-- **A new record.** -/
theorem Log.moved (h : Log env s log bound) (hp : Recorded env p) (hbound : bound ≤ p.nanos) :
    Log env (s.moveFile (temporaryName p) p.id (.point p)) (p :: log) (p.nanos + 1) where
  recorded q hq := by
    rcases List.mem_cons.mp hq with rfl | hq
    · exact hp
    · exact h.recorded q hq
  sorted := by
    rw [List.pairwise_cons]
    refine ⟨fun q hq => ?_, h.sorted⟩
    have hbelow := h.below q hq
    omega
  below q hq := by
    rcases List.mem_cons.mp hq with rfl | hq
    · omega
    · have hbelow := h.below q hq
      omega
  listed id q hq := by
    unfold HistoryDisk.moveFile at hq
    rw [HistoryDisk.lookup_putFile, HistoryDisk.lookup_removeFile] at hq
    split at hq
    · next hid =>
      injection Option.some.inj hq with hpq
      rw [← hpq]
      exact ⟨List.mem_cons_self, hid.symm⟩
    · split at hq
      · cases hq
      · obtain ⟨hmem, hid⟩ := h.listed id q hq
        exact ⟨List.mem_cons_of_mem _ hmem, hid⟩
  newest q hq := by
    unfold HistoryDisk.moveFile
    rw [HistoryDisk.lookup_putFile, HistoryDisk.lookup_removeFile]
    rcases List.mem_cons.mp (by simpa using hq) with rfl | hq
    · rw [if_pos rfl]
    · have hmem : q ∈ log.take 64 :=
        (List.take_sublist_take_left (by omega : 63 ≤ 64)).subset (by simpa using hq)
      have hbelow := h.below q (List.mem_of_mem_take hmem)
      rw [if_neg, if_neg (temporaryName_ne_id p q).symm, h.newest q hmem]
      intro hid
      have hnanos := nanos_of_id hid
      omega

theorem Log.removed (h : Log env s log bound) {old : Point} (hold : old ∈ log.drop 64) :
    Log env (s.removeFile old.id) log bound where
  recorded := h.recorded
  sorted := h.sorted
  below := h.below
  listed id p hp := by
    rw [HistoryDisk.lookup_removeFile] at hp
    split at hp
    · cases hp
    · exact h.listed id p hp
  newest p hp := by
    rw [HistoryDisk.lookup_removeFile, if_neg, h.newest p hp]
    intro hid
    have hsorted := h.sorted
    rw [← List.take_append_drop 64 log, List.pairwise_append] at hsorted
    have hlt := hsorted.2.2 p hp old hold
    have hnanos := nanos_of_id hid
    omega

end Logs

/-- The catalogs of a run: their texts and records can be read, and no two have one digest. -/
structure Good (env : HistoryEnv) (times : List Nat) (catalogs : List ProfileCatalog) : Prop where
  text : ∀ c ∈ catalogs, (encodeCatalog c).utf8ByteSize ≤ LIMIT
  record : ∀ c ∈ catalogs, ∀ t ∈ times,
    (Point.mk t (env.sha256 c) c).encode.utf8ByteSize ≤ LIMIT
  apart : ∀ c ∈ catalogs, ∀ c' ∈ catalogs, env.sha256 c = env.sha256 c' → c = c'

/-- **The invariant**, with the log of the records. -/
structure Kept (env : HistoryEnv) (catalogs : List ProfileCatalog) (s : HistoryDisk)
    (log : List Point) (bound : Nat) : Prop extends Log env s log bound where
  observed : ∀ c, s.observed = some c → log.head?.map Point.catalog = some c
  chain : s.saved.IsChain (· ≠ ·)
  current : s.profiles = s.saved.head?.map ProfilesFile.published
  saved : ∀ c ∈ s.saved, c ∈ catalogs ∧ c.normalize = .ok c

/-- Every catalog that was published has been recorded. -/
def Complete (s : HistoryDisk) (log : List Point) : Prop := log.map Point.catalog = s.saved

/-- Every catalog but the newest has been recorded. -/
def Behind (s : HistoryDisk) (log : List Point) : Prop :=
  s.saved ≠ [] ∧ log.map Point.catalog = s.saved.tail

section Captures

variable {env : HistoryEnv} {times : List Nat} {catalogs : List ProfileCatalog}
  {s s' : HistoryDisk} {log : List Point} {bound : Nat} {c : ProfileCatalog}

/-- **A normal form is one.** -/
theorem normalize_normalize {c' : ProfileCatalog} (h : c.normalize = .ok c') :
    c'.schemaVersion = PROFILE_SCHEMA_VERSION ∧ c'.normalize = .ok c' := by
  unfold ProfileCatalog.normalize at h
  split at h
  · cases h
  next hschema =>
  obtain ⟨_, hactive, h⟩ := bind_eq_ok h
  obtain ⟨_, hnames, h⟩ := bind_eq_ok h
  obtain ⟨names, hnamesEq⟩ : ∃ names, names =
      if c.profiles.isEmpty = true then [DEFAULT_PROFILE] else c.profiles := ⟨_, rfl⟩
  rw [← hnamesEq] at hnames h
  obtain ⟨all, hall⟩ : ∃ all, all =
      if names.contains c.activeProfile = true then names else names ++ [c.activeProfile] :=
    ⟨_, rfl⟩
  obtain rfl := Except.ok.inj h
  rw [← hall]
  have hvalid : ∀ name ∈ all, validateProfileName name = .ok () := by
    intro name hname
    have hfirst := eq_ok_of_forM hnames
    rw [hall] at hname
    split at hname
    · exact hfirst name hname
    · rcases List.mem_append.mp hname with hname | hname
      · exact hfirst name hname
      · rw [List.mem_singleton.mp hname]
        exact hactive
  have hmem : c.activeProfile ∈ all := by
    rw [hall]
    split
    · next hcontains => exact List.contains_iff_mem.mp hcontains
    · exact List.mem_append_right _ (List.mem_singleton_self _)
  obtain ⟨sorted, hsorted⟩ : ∃ sorted, sorted = (all.insertionSort (· ≤ ·)).dedup := ⟨_, rfl⟩
  rw [← hsorted]
  have hmemSorted : ∀ name, name ∈ sorted ↔ name ∈ all := by
    intro name
    rw [hsorted, List.mem_dedup, List.mem_insertionSort]
  have hfixed : (sorted.insertionSort (· ≤ ·)).dedup = sorted := by
    have hpairwise : sorted.Pairwise (· ≤ ·) := by
      rw [hsorted]
      exact (List.pairwise_insertionSort _ all).sublist (List.dedup_sublist _)
    rw [hpairwise.insertionSort_eq, hsorted]
    exact (List.nodup_dedup _).dedup
  have hversion : (if c.schemaVersion = 0 then PROFILE_SCHEMA_VERSION else c.schemaVersion) =
      PROFILE_SCHEMA_VERSION := by
    unfold PROFILE_SCHEMA_VERSION at hschema ⊢
    split <;> omega
  refine ⟨hversion, ?_⟩
  unfold ProfileCatalog.normalize
  dsimp only
  rw [hversion, if_neg (by omega), hactive]
  show ((if sorted.isEmpty = true then [DEFAULT_PROFILE] else sorted).forM validateProfileName >>=
    _) = _
  have hne : ¬ sorted.isEmpty = true := by
    rw [List.isEmpty_iff]
    intro hnil
    have hactiveMem := (hmemSorted _).mpr hmem
    rw [hnil] at hactiveMem
    cases hactiveMem
  rw [if_neg hne, forM_eq_ok fun name hname => hvalid name ((hmemSorted name).mp hname)]
  show Except.ok _ = _
  rw [if_pos (List.contains_iff_mem.mpr ((hmemSorted _).mpr hmem)), hfixed, if_neg (by decide)]

theorem validateCatalog_of_normal (h : c.normalize = .ok c) : validateCatalog c = .ok c := by
  have hversion := (normalize_normalize h).1
  unfold validateCatalog
  rw [if_neg (not_not.mpr hversion)]
  have hnew : ProfileCatalog.new c.activeProfile c.profiles = .ok c := by
    rw [ProfileCatalog.new, ← hversion]
    exact h
  rw [hnew]
  exact if_neg (not_not.mpr rfl)

theorem Kept.complete (h : Kept env catalogs s log bound) (hstate : Complete s log ∨ Behind s log)
    (hlog : log.head?.map Point.catalog = s.saved.head?) : Complete s log := by
  rcases hstate with hcomplete | ⟨hne, hbehind⟩
  · exact hcomplete
  · have hchain := h.chain
    rcases hsaved : s.saved with _ | ⟨c, rest⟩
    · exact absurd hsaved hne
    · rw [hsaved] at hbehind hlog hchain
      rw [← List.head?_map, hbehind] at hlog
      rcases rest with _ | ⟨c', rest⟩
      · cases hlog
      · rw [List.isChain_cons_cons] at hchain
        exact absurd (Option.some.inj hlog).symm hchain.1

/-- What is left after a step that records nothing but what was published. -/
structure Held (env : HistoryEnv) (catalogs : List ProfileCatalog) (bound : Nat)
    (s s' : HistoryDisk) (log : List Point) : Prop where
  kept : Kept env catalogs s'.forget log bound
  saved : s'.saved = s.saved
  few : s'.entries.length ≤ s.entries.length + 1

theorem Kept.forget (h : Kept env catalogs s log bound) : Kept env catalogs s.forget log bound :=
  ⟨h.toLog.congr fun _ => rfl, fun _ hc => (by cases hc), h.chain, h.current, h.saved⟩

theorem Kept.held (h : Kept env catalogs s log bound) {log' : List Point} {bound' : Nat}
    (hlog : Log env s' log' bound') (hprofiles : s'.profiles = s.profiles)
    (hsaved : s'.saved = s.saved) (hfew : s'.entries.length ≤ s.entries.length + 1) :
    Held env catalogs bound' s s' log' where
  kept := ⟨hlog.congr fun _ => rfl, fun _ hc => (by cases hc), by
      show s'.saved.IsChain (· ≠ ·)
      rw [hsaved]
      exact h.chain, by
      show s'.profiles = s'.saved.head?.map _
      rw [hprofiles, hsaved]
      exact h.current, by
      show ∀ c ∈ s'.saved, _
      rw [hsaved]
      exact h.saved⟩
  saved := hsaved
  few := hfew

theorem Held.removed (h : Held env catalogs bound s s' log) {old : Point}
    (hold : old ∈ log.drop 64) : Held env catalogs bound s (s'.removeFile old.id) log where
  kept := ⟨h.kept.toLog.removed hold, fun _ hc => (by cases hc), h.kept.chain, h.kept.current,
    h.kept.saved⟩
  saved := h.saved
  few := (s'.length_removeFile old.id).trans h.few

theorem crashWp_ofExcept_bind {α β : Type} {x : Except IoError α} {b : α} (hx : x = .ok b)
    {g : α → HistoryProgram β} {Q : β → HistoryDisk → Prop} {E : IoError → HistoryDisk → Prop}
    {C : HistoryDisk → Prop} :
    (Program.ofExcept x >>= g).crashWp Q E C s ↔ (g b).crashWp Q E C s := by
  rw [hx]
  exact Iff.rfl

theorem crashWp_removeOld (olds : List Point) (hheld : Held env catalogs bound s s' log)
    (hcomplete : Complete s log) (holds : ∀ old ∈ olds, old ∈ log.drop 64) :
    (olds.forM fun old => (Program.ignoreError
      (Program.durable ⟨.other, "remove"⟩ (HistoryDisk.removeFile old.id)) :
        HistoryProgram PUnit)).crashWp
      (fun _ t => ∃ log', Held env catalogs bound s t log' ∧ Complete t log')
      (fun _ _ => False)
      (fun t => ∃ log', Held env catalogs bound s t log' ∧ (Complete t log' ∨ Behind t log'))
      s' := by
  have hstill : ∀ t, Held env catalogs bound s t log → Complete t log := by
    intro t ht
    unfold Complete
    rw [ht.saved]
    exact hcomplete
  refine crashWp_imp (fun _ t ht => ⟨log, ht.1, hstill t ht.1⟩) (crashWp_forM
      (I := fun olds t => Held env catalogs bound s t log ∧ ∀ old ∈ olds, old ∈ log.drop 64)
      (fun old olds t ht => ?_) olds s' ⟨hheld, holds⟩)
  rw [crashWp_ignoreError, crashWp_durable]
  have hremoved := ht.1.removed (ht.2 old List.mem_cons_self)
  exact ⟨⟨log, ht.1, .inl (hstill t ht.1)⟩, ⟨log, hremoved, .inl (hstill _ hremoved)⟩, hremoved,
    fun other hother => ht.2 other (List.mem_cons_of_mem _ hother)⟩

/-- **A record is written**, and the oldest one that was listed goes. -/
theorem crashWp_recordPoint {p : Point} (hkept : Kept env catalogs s log bound)
    (hp : Recorded env p) (hpending : s.saved = p.catalog :: log.map Point.catalog)
    (hbound : bound ≤ p.nanos) :
    (recordPoint p (log.take 64)).crashWp
      (fun _ s' => ∃ log', Held env catalogs (p.nanos + 1) s s' log' ∧ Complete s' log')
      (fun _ _ => False)
      (fun s' => ∃ log', Held env catalogs (p.nanos + 1) s s' log' ∧
        (Complete s' log' ∨ Behind s' log')) s := by
  have hbehind : ∀ s', s'.saved = s.saved → Behind s' log := by
    intro s' hsaved
    unfold Behind
    rw [hsaved, hpending]
    exact ⟨List.cons_ne_nil _ _, rfl⟩
  have hlog : Log env s log (p.nanos + 1) := hkept.toLog.later (by omega)
  have hmade : Log env s.makeHistory log (p.nanos + 1) :=
    hlog.congr fun id => s.lookup_makeHistory id
  have hdraft := hmade.foreign (invalid "Invalid recovery point")
    (lookup_temporaryName hmade p)
  have hmoved := ((hkept.toLog.congr fun id => s.lookup_makeHistory id).foreign
    (invalid "Invalid recovery point") (lookup_temporaryName hmade p)).moved hp hbound
  rw [recordPoint, crashWp_bind, crashWp_durable, crashWp_bind,
    crashWp_durable, crashWp_bind, crashWp_durable]
  have hstart : Held env catalogs (p.nanos + 1) s s log :=
    hkept.held hlog rfl rfl (by omega)
  have hfirst : Held env catalogs (p.nanos + 1) s s.makeHistory log :=
    hkept.held hmade rfl rfl (by rw [HistoryDisk.entries_makeHistory]; omega)
  have hsecond : Held env catalogs (p.nanos + 1) s
      (s.makeHistory.putFile (temporaryName p) (.foreign (invalid "Invalid recovery point"))) log :=
    hkept.held hdraft rfl rfl (by
      have hlength := s.makeHistory.length_putFile (temporaryName p)
        (.foreign (invalid "Invalid recovery point"))
      rwa [HistoryDisk.entries_makeHistory] at hlength)
  have hthird : Held env catalogs (p.nanos + 1) s
      ((s.makeHistory.putFile (temporaryName p)
        (.foreign (invalid "Invalid recovery point"))).moveFile (temporaryName p) p.id (.point p))
      (p :: log) :=
    hkept.held hmoved rfl rfl (by
      have hlength := s.makeHistory.length_moveFile (temporaryName p) p.id (.point p)
        (.foreign (invalid "Invalid recovery point"))
      rwa [HistoryDisk.entries_makeHistory] at hlength)
  have hcomplete : ∀ s', s'.saved = s.saved → Complete s' (p :: log) := by
    intro s' hsaved
    unfold Complete
    rw [hsaved, hpending]
    rfl
  refine ⟨⟨log, hstart, .inr (hbehind _ rfl)⟩, ⟨log, hfirst, .inr (hbehind _ rfl)⟩,
    ⟨log, hfirst, .inr (hbehind _ rfl)⟩, ⟨log, hsecond, .inr (hbehind _ rfl)⟩,
    ⟨log, hsecond, .inr (hbehind _ rfl)⟩, ⟨p :: log, hthird, .inl (hcomplete _ rfl)⟩, ?_⟩
  refine crashWp_removeOld _ hthird (hcomplete s rfl) fun old hold => ?_
  rw [List.drop_take] at hold
  exact List.mem_of_mem_take hold

theorem readProfilesFile_eq (hgood : Good env times catalogs)
    (hkept : Kept env catalogs s log bound) (hc : s.saved.head? = some c) :
    readProfilesFile s = .ok (some (.published c)) := by
  unfold readProfilesFile
  rw [hkept.current, hc]
  exact if_neg (not_lt.mpr (hgood.text c (hkept.saved c (List.mem_of_mem_head? hc)).1))

/-- **A capture** of the catalog that was published last. -/
theorem crashWp_capture {now : Nat} (hgood : Good env times catalogs)
    (hkept : Kept env catalogs s log bound) (hstate : Complete s log ∨ Behind s log)
    (hc : s.saved.head? = some c) (hnow : now ∈ times) (hbound : bound ≤ now)
    (hnanos : now < 2 ^ 64) (hfew : s.entries.length ≤ 128) :
    (capture env now c).crashWp
      (fun _ s' => ∃ log', Held env catalogs (now + 1) s s' log' ∧ Complete s' log')
      (fun _ _ => False)
      (fun s' => ∃ log', Held env catalogs (now + 1) s s' log' ∧
        (Complete s' log' ∨ Behind s' log')) s := by
  have hmem : c ∈ s.saved := List.mem_of_mem_head? hc
  obtain ⟨hcatalog, hnormal⟩ := hkept.saved c hmem
  have hvalid := validateCatalog_of_normal hnormal
  have hread := readProfilesFile_eq hgood hkept hc
  have hlist := list_of_log hkept.toLog hfew
  have hhead : (log.take 64).head? = log.head? := by
    rcases log with _ | ⟨p, log⟩
    · rfl
    · rfl
  have hin : ∀ p ∈ log, p.catalog ∈ s.saved := by
    intro p hp
    rcases hstate with hcomplete | ⟨-, hbehind⟩
    · rw [← hcomplete]
      exact List.mem_map_of_mem hp
    · refine List.mem_of_mem_tail ?_
      rw [← hbehind]
      exact List.mem_map_of_mem hp
  have hstill : Held env catalogs (now + 1) s s log :=
    hkept.held (hkept.toLog.later (by omega)) rfl rfl (by omega)
  have hrequired : required (invalid "No saved profile catalog to back up")
      (some (ProfilesFile.published c)) = .ok (.published c) := rfl
  have hfile : validateFile env (.published c) = .ok c := hvalid
  rw [capture, crashWp_bind, crashWp_read, crashWp_ofExcept_bind hread,
    crashWp_ofExcept_bind hrequired, crashWp_ofExcept_bind hfile, if_neg (not_not.mpr rfl),
    crashWp_ofExcept_bind hvalid, crashWp_ofExcept_bind hlist]
  split
  · next hsame =>
    have hcomplete : Complete s log := by
      refine hkept.complete hstate ?_
      rw [Option.any_eq_true] at hsame
      obtain ⟨p, hp, hdigest⟩ := hsame
      rw [hhead] at hp
      have hplog : p ∈ log := List.mem_of_mem_head? hp
      rw [decide_eq_true_eq, (hkept.recorded p hplog).digest] at hdigest
      have heq := hgood.apart p.catalog (hkept.saved _ (hin p hplog)).1 c hcatalog hdigest
      rw [hp, hc, Option.map_some, heq]
    exact ⟨log, hstill, hcomplete⟩
  · next hother =>
    refine crashWp_recordPoint (p := ⟨now, env.sha256 c, c⟩) hkept ?_ ?_ hbound
    · exact ⟨hnanos, rfl, hvalid, hgood.record c hcatalog now hnow⟩
    · rcases hstate with hcomplete | ⟨hne, hbehind⟩
      · exfalso
        apply hother
        rw [hhead]
        unfold Complete at hcomplete
        rw [← hcomplete, List.head?_map, Option.map_eq_some_iff] at hc
        obtain ⟨p, hp, hpc⟩ := hc
        rw [hp, Option.any_some, decide_eq_true_eq,
          (hkept.recorded p (List.mem_of_mem_head? hp)).digest, hpc]
      · rw [hbehind]
        exact (List.cons_head?_tail hc).symm

/-- Every catalog that was published has been recorded, and the directory is not too full. -/
def Done (env : HistoryEnv) (catalogs : List ProfileCatalog) (bound few : Nat) (s : HistoryDisk) :
    Prop :=
  ∃ log, Kept env catalogs s log bound ∧ Complete s log ∧ s.entries.length ≤ few

/-- The newest catalog may wait for its record. -/
def Stays (env : HistoryEnv) (catalogs : List ProfileCatalog) (bound few : Nat) (s : HistoryDisk) :
    Prop :=
  ∃ log, Kept env catalogs s log bound ∧ (Complete s log ∨ Behind s log) ∧ s.entries.length ≤ few

theorem Kept.later (h : Kept env catalogs s log bound) {bound' : Nat} (hle : bound ≤ bound') :
    Kept env catalogs s log bound' :=
  ⟨h.toLog.later hle, h.observed, h.chain, h.current, h.saved⟩

theorem Done.stays {few : Nat} (h : Done env catalogs bound few s) :
    Stays env catalogs bound few s := by
  obtain ⟨log, hkept, hcomplete, hfew⟩ := h
  exact ⟨log, hkept, .inl hcomplete, hfew⟩

theorem Stays.forget {few : Nat} (h : Stays env catalogs bound few s) :
    Stays env catalogs bound few s.forget := by
  obtain ⟨log, hkept, hstate, hfew⟩ := h
  exact ⟨log, hkept.forget, hstate, hfew⟩

theorem Stays.mono {few few' bound' : Nat} (h : Stays env catalogs bound few s)
    (hbound : bound ≤ bound') (hfew : few ≤ few') : Stays env catalogs bound' few' s := by
  obtain ⟨log, hkept, hstate, hlength⟩ := h
  exact ⟨log, hkept.later hbound, hstate, hlength.trans hfew⟩

/-- **`capture_history`** of the catalog that was published last. -/
theorem crashWp_captureHistory {now : Nat} (hgood : Good env times catalogs)
    (hkept : Kept env catalogs s log bound) (hstate : Complete s log ∨ Behind s log)
    (hc : s.saved.head? = some c) (hnow : now ∈ times) (hbound : bound ≤ now)
    (hnanos : now < 2 ^ 64) (hfew : s.entries.length ≤ 128) :
    (captureHistory env now c).crashWp
      (fun _ s' => Done env catalogs (now + 1) (s.entries.length + 1) s' ∧ s'.saved = s.saved)
      (fun _ _ => False)
      (fun s' => Stays env catalogs (now + 1) (s.entries.length + 1) s'.forget) s := by
  rw [captureHistory, crashWp_bind, crashWp_read]
  split
  · next hobserved =>
    have hhead := hkept.observed c hobserved
    have hcomplete := hkept.complete hstate (hhead.trans hc.symm)
    exact ⟨⟨log, hkept.later (by omega), hcomplete, by omega⟩, rfl⟩
  · rw [crashWp_bind, crashWp_ignoreError]
    refine crashWp_mono ?_ (fun _ _ h => h.elim) ?_
      (crashWp_capture hgood hkept hstate hc hnow hbound hnanos hfew)
    · rintro _ s' ⟨log', hheld, hcomplete⟩
      have hobserve : Kept env catalogs (s'.observe c) log' (now + 1) := by
        refine ⟨hheld.kept.toLog.congr fun _ => rfl, fun c' hc' => ?_, hheld.kept.chain,
          hheld.kept.current, hheld.kept.saved⟩
        obtain rfl := Option.some.inj hc'
        unfold Complete at hcomplete
        rw [← List.head?_map, hcomplete, hheld.saved, hc]
      have hstays : Stays env catalogs (now + 1) (s.entries.length + 1) s'.forget :=
        ⟨log', hheld.kept, .inl hcomplete, hheld.few⟩
      exact ⟨hstays, ⟨log', hobserve.forget, .inl hcomplete, hheld.few⟩,
        ⟨log', hobserve, hcomplete, hheld.few⟩, hheld.saved⟩
    · rintro s' ⟨log', hheld, hstate'⟩
      exact ⟨log', hheld.kept, hstate', hheld.few⟩

theorem kept_publish (hkept : Kept env catalogs s log bound) (hcomplete : Complete s log)
    (hc : c ∈ catalogs) (hnormal : c.normalize = .ok c) :
    Kept env catalogs (s.publish c) log bound ∧
      (Complete (s.publish c) log ∨ Behind (s.publish c) log) ∧
      (s.publish c).saved.head? = some c := by
  by_cases hsame : s.saved.head? = some c
  · have hsaved : (s.publish c).saved = s.saved := if_pos hsame
    refine ⟨⟨hkept.toLog.congr fun _ => rfl, hkept.observed, ?_, ?_, ?_⟩, .inl ?_, ?_⟩
    · rw [hsaved]
      exact hkept.chain
    · rw [hsaved, hsame]
      rfl
    · rw [hsaved]
      exact hkept.saved
    · rw [Complete, hsaved]
      exact hcomplete
    · rw [hsaved, hsame]
  · have hsaved : (s.publish c).saved = c :: s.saved := if_neg hsame
    refine ⟨⟨hkept.toLog.congr fun _ => rfl, hkept.observed, ?_, ?_, ?_⟩, .inr ?_, ?_⟩
    · rw [hsaved]
      rcases hrest : s.saved with _ | ⟨c', rest⟩
      · exact List.isChain_singleton c
      · rw [List.isChain_cons_cons]
        have hchain := hkept.chain
        rw [hrest] at hchain hsame
        exact ⟨fun heq => hsame (by rw [heq, List.head?_cons]), hchain⟩
    · rw [hsaved]
      rfl
    · rw [hsaved]
      intro c' hc'
      rcases List.mem_cons.mp hc' with rfl | hc'
      · exact ⟨hc, hnormal⟩
      · exact hkept.saved c' hc'
    · rw [Behind, hsaved]
      exact ⟨List.cons_ne_nil _ _, hcomplete⟩
    · rw [hsaved, List.head?_cons]

/-- **`publish_with_history`**, once what was published before has been recorded. -/
theorem crashWp_publishWithHistory {now few : Nat} (hgood : Good env times catalogs)
    (hdone : Done env catalogs bound few s) (hc : c ∈ catalogs) (hnormal : c.normalize = .ok c)
    (hnow : now ∈ times) (hbound : bound ≤ now) (hnanos : now < 2 ^ 64) (hfew : few ≤ 128) :
    (publishWithHistory env now c).crashWp
      (fun _ s' => Done env catalogs (now + 1) (few + 1) s' ∧ s'.saved.head? = some c)
      (fun _ _ => False)
      (fun s' => Stays env catalogs (now + 1) (few + 1) s'.forget) s := by
  obtain ⟨log, hkept, hcomplete, hlength⟩ := hdone
  obtain ⟨hkept', hstate', hhead⟩ := kept_publish hkept hcomplete hc hnormal
  have hlength' : (s.publish c).entries.length ≤ few := hlength
  rw [publishWithHistory, crashWp_bind, crashWp_durable]
  refine ⟨⟨log, (hkept.later (by omega)).forget, .inl hcomplete, by
      rw [HistoryDisk.entries_forget]; omega⟩,
    ⟨log, (hkept'.later (by omega)).forget, hstate', by
      rw [HistoryDisk.entries_forget]; omega⟩, ?_⟩
  refine crashWp_mono ?_ (fun _ _ h => h) ?_
    (crashWp_captureHistory hgood hkept' hstate' hhead hnow hbound hnanos (by omega))
  · rintro _ s' ⟨⟨log', hkept'', hcomplete', hlength''⟩, hsaved⟩
    exact ⟨⟨log', hkept'', hcomplete', by omega⟩, by rw [hsaved, hhead]⟩
  · intro s' hstays
    exact hstays.mono le_rfl (by omega)

theorem readUnlocked_eq (hgood : Good env times catalogs) (hkept : Kept env catalogs s log bound) :
    readUnlocked env s = .ok s.saved.head? := by
  rcases hhead : s.saved.head? with _ | c
  · unfold readUnlocked readProfilesFile
    rw [hkept.current, hhead]
    rfl
  · obtain ⟨hc, hnormal⟩ := hkept.saved c (List.mem_of_mem_head? hhead)
    unfold readUnlocked
    rw [readProfilesFile_eq hgood hkept hhead]
    show (if c.schemaVersion > PROFILE_SCHEMA_VERSION then _ else _) = _
    rw [if_neg (by rw [(normalize_normalize hnormal).1]; omega)]
    rfl

def currentCatalog (s : HistoryDisk) : ProfileCatalog :=
  match s.profiles with
  | some (.published catalog) => catalog
  | some (.restored catalog) => catalog
  | some (.foreign _) => ProfileCatalog.initial
  | none => ProfileCatalog.initial

theorem normalize_initial :
    ProfileCatalog.initial.normalize = .ok ProfileCatalog.initial := by
  decide +kernel

/-- **`load_unlocked`** gives the catalog, which is recorded then. -/
theorem crashWp_loadUnlocked {now few : Nat} (hgood : Good env times catalogs)
    (hstays : Stays env catalogs bound few s) (hcurrent : currentCatalog s ∈ catalogs)
    (hnow : now ∈ times) (hbound : bound ≤ now) (hnanos : now < 2 ^ 64) (hfew : few ≤ 128) :
    (loadUnlocked env now).crashWp
      (fun c s' => Done env catalogs (now + 1) (few + 1) s' ∧ c = currentCatalog s)
      (fun _ _ => False)
      (fun s' => Stays env catalogs (now + 1) (few + 1) s'.forget) s := by
  obtain ⟨log, hkept, hstate, hlength⟩ := hstays
  have hread := readUnlocked_eq hgood hkept
  rw [loadUnlocked, crashWp_bind, crashWp_inspect]
  refine ⟨fun found hfound => ?_, fun e he => ?_⟩
  · obtain rfl := Except.ok.inj (hread.symm.trans hfound)
    rcases hhead : s.saved.head? with _ | c
    · have hnil : s.saved = [] := List.head?_eq_none_iff.mp hhead
      have hcomplete : Complete s log := by
        rcases hstate with hcomplete | ⟨hne, -⟩
        · exact hcomplete
        · exact absurd hnil hne
      have hinitial : currentCatalog s = ProfileCatalog.initial := by
        unfold currentCatalog
        rw [hkept.current, hhead]
        rfl
      rw [hinitial] at hcurrent ⊢
      dsimp only
      rw [crashWp_bind]
      exact crashWp_imp (fun _ s' h => ⟨h.1, rfl⟩)
        (crashWp_publishWithHistory hgood ⟨log, hkept, hcomplete, hlength⟩ hcurrent
          normalize_initial hnow hbound hnanos hfew)
    · obtain ⟨-, hnormal⟩ := hkept.saved c (List.mem_of_mem_head? hhead)
      have hsame : currentCatalog s = c := by
        unfold currentCatalog
        rw [hkept.current, hhead]
        rfl
      dsimp only
      rw [crashWp_ofExcept_bind hnormal, if_neg (not_not.mpr rfl), crashWp_bind]
      refine crashWp_mono ?_ (fun _ _ h => h) ?_
        (crashWp_captureHistory hgood hkept hstate hhead hnow hbound hnanos (by omega))
      · rintro _ s' ⟨⟨log', hkept', hcomplete', hlength'⟩, -⟩
        exact ⟨⟨log', hkept', hcomplete', by omega⟩, hsame.symm⟩
      · intro s' h
        exact h.mono le_rfl (by omega)
  · rw [hread] at he
    cases he

end Captures

/-! ## 4. Calls and runs -/

inductive StoreCall where
  | load (now : Nat)
  | write (now later : Nat) (catalog : ProfileCatalog)
  | select (now later : Nat) (name : String)
  | create (now later : Nat) (name : String) (directories : Except IoError Unit)

namespace StoreCall

def program (env : HistoryEnv) : StoreCall → HistoryProgram Unit
  | load now => (fun _ => ()) <$> loadUnlocked env now
  | write now later catalog => ProfileHistory.write env now later catalog
  | select now later name => ProfileHistory.select env now later name
  | create now later name directories => ProfileHistory.create env now later name directories

def times : StoreCall → List Nat
  | load now => [now]
  | write now later _ => [now, later]
  | select now later _ => [now, later]
  | create now later _ _ => [now, later]

/-- The catalogs that the call may publish. -/
def published (s : HistoryDisk) : StoreCall → List ProfileCatalog
  | load _ => [currentCatalog s]
  | write _ _ catalog => catalog.normalize.toOption.toList
  | select _ _ name => currentCatalog s ::
      (({ currentCatalog s with activeProfile := name } : ProfileCatalog).normalize).toOption.toList
  | create _ _ name _ => currentCatalog s ::
      (({ currentCatalog s with profiles := (currentCatalog s).profiles ++ [name] } :
        ProfileCatalog).normalize).toOption.toList

theorem exists_time (call : StoreCall) : ∃ t, t ∈ call.times := by
  rcases call with now | ⟨now, later, catalog⟩ | ⟨now, later, name⟩ |
    ⟨now, later, name, directories⟩
  all_goals exact ⟨now, List.mem_cons_self⟩

end StoreCall

section Calls

variable {env : HistoryEnv} {times : List Nat} {catalogs : List ProfileCatalog}
  {s s' : HistoryDisk} {log : List Point} {bound few now later : Nat}

theorem Done.mono {few' bound' : Nat} (h : Done env catalogs bound few s)
    (hbound : bound ≤ bound') (hfew : few ≤ few') : Done env catalogs bound' few' s := by
  obtain ⟨log, hkept, hcomplete, hlength⟩ := h
  exact ⟨log, hkept.later hbound, hcomplete, hlength.trans hfew⟩

theorem mem_toList_of_eq_ok {x : Except IoError ProfileCatalog} {c : ProfileCatalog}
    (h : x = .ok c) : c ∈ x.toOption.toList := by
  rw [h]
  exact List.mem_singleton_self c

theorem crashWp_publishNormal {catalog : ProfileCatalog} (hgood : Good env times catalogs)
    (hdone : Done env catalogs bound few s)
    (hmem : ∀ c, catalog.normalize = .ok c → c ∈ catalogs) (hlater : later ∈ times)
    (hbound : bound ≤ later) (hnanos : later < 2 ^ 64) (hfew : few ≤ 128) :
    (Program.ofExcept catalog.normalize >>= publishWithHistory env later).crashWp
      (fun _ s' => Done env catalogs (later + 1) (few + 1) s')
      (fun _ s' => Done env catalogs (later + 1) (few + 1) s')
      (fun s' => Stays env catalogs (later + 1) (few + 1) s'.forget) s := by
  rw [crashWp_bind, crashWp_ofExcept]
  refine ⟨fun c hc => ?_, fun e _ => hdone.mono (by omega) (by omega)⟩
  exact crashWp_mono (fun _ _ h => h.1) (fun _ _ h => h.elim) (fun _ h => h)
    (crashWp_publishWithHistory hgood hdone (hmem c hc) (normalize_normalize hc).2 hlater hbound
      hnanos hfew)

theorem crashWp_load_bind {α : Type} {last : Nat} {next : ProfileCatalog → HistoryProgram α}
    {Q : α → HistoryDisk → Prop} {E : IoError → HistoryDisk → Prop}
    (hgood : Good env times catalogs) (hstays : Stays env catalogs bound few s)
    (hcurrent : currentCatalog s ∈ catalogs) (hnow : now ∈ times) (hbound : bound ≤ now)
    (hnanos : now < 2 ^ 64) (hfew : few + 2 ≤ 128) (hlast : now ≤ last)
    (hnext : ∀ s', Done env catalogs (now + 1) (few + 1) s' →
      (next (currentCatalog s)).crashWp Q E
        (fun s' => Stays env catalogs (last + 1) (few + 2) s'.forget) s') :
    (loadUnlocked env now >>= next).crashWp Q E
      (fun s' => Stays env catalogs (last + 1) (few + 2) s'.forget) s := by
  rw [crashWp_bind]
  refine crashWp_mono ?_ (fun _ _ h => h.elim)
    (fun s' h => h.mono (by omega) (by omega))
    (crashWp_loadUnlocked hgood hstays hcurrent hnow hbound hnanos (by omega))
  rintro c s' ⟨hdone, rfl⟩
  exact hnext s' hdone

/-- **Every call keeps the history**, and one that returns has recorded everything. -/
theorem crashWp_storeCall (call : StoreCall)
    (hgood : Good env times (call.published s ++ s.saved)) (hstays : Stays env s.saved bound few s)
    (hin : ∀ t ∈ call.times, t ∈ times ∧ bound ≤ t ∧ t < 2 ^ 64)
    (horder : call.times.Pairwise (· < ·)) (hfew : few + 2 ≤ 128) {last : Nat}
    (hlast : ∀ t ∈ call.times, t ≤ last) :
    (call.program env).crashWp
      (fun _ s' => Done env (call.published s ++ s.saved) (last + 1) (few + 2) s')
      (fun _ s' => s' = s ∨ Done env (call.published s ++ s.saved) (last + 1) (few + 2) s')
      (fun s' => Stays env (call.published s ++ s.saved) (last + 1) (few + 2) s'.forget) s := by
  obtain ⟨catalogs, hcatalogs⟩ : ∃ catalogs, catalogs = call.published s ++ s.saved := ⟨_, rfl⟩
  rw [← hcatalogs] at hgood ⊢
  have hstart : Stays env catalogs bound few s := by
    obtain ⟨log, hkept, hstate, hlength⟩ := hstays
    refine ⟨log, ⟨hkept.toLog, hkept.observed, hkept.chain, hkept.current, fun c hc => ?_⟩, hstate,
      hlength⟩
    rw [hcatalogs]
    exact ⟨List.mem_append_right _ hc, (hkept.saved c hc).2⟩
  have hpublished : ∀ c ∈ call.published s, c ∈ catalogs := fun c hc => by
    rw [hcatalogs]
    exact List.mem_append_left _ hc
  rcases call with now | ⟨now, later, catalog⟩ | ⟨now, later, name⟩ |
    ⟨now, later, name, directories⟩
  · obtain ⟨hnow, hbound, hnanos⟩ := hin now List.mem_cons_self
    have hle := hlast now List.mem_cons_self
    rw [StoreCall.program, crashWp_map]
    exact crashWp_mono (fun _ _ h => h.1.mono (by omega) (by omega))
      (fun _ _ h => h.elim) (fun _ h => h.mono (by omega) (by omega))
      (crashWp_loadUnlocked hgood hstart (hpublished _ List.mem_cons_self) hnow hbound hnanos
        (by omega))
  · obtain ⟨hnow, hbound, hnanos⟩ := hin now List.mem_cons_self
    obtain ⟨hlater, -, hnanos'⟩ := hin later (List.mem_cons_of_mem _ List.mem_cons_self)
    have hle := hlast later (List.mem_cons_of_mem _ List.mem_cons_self)
    have hlt : now < later := (List.pairwise_cons.mp horder).1 later List.mem_cons_self
    have hend : ∀ s', Done env catalogs (now + 1) (few + 1) s' →
        (Program.ofExcept catalog.normalize >>= publishWithHistory env later).crashWp
          (fun _ s' => Done env catalogs (last + 1) (few + 2) s')
          (fun _ s' => s' = s ∨ Done env catalogs (last + 1) (few + 2) s')
          (fun s' => Stays env catalogs (last + 1) (few + 2) s'.forget) s' := fun s' hdone =>
      crashWp_mono (fun _ _ h => h.mono (by omega) (by omega))
        (fun _ _ h => .inr (h.mono (by omega) (by omega)))
        (fun _ h => h.mono (by omega) (by omega))
        (crashWp_publishNormal hgood hdone (fun c hc => hpublished c (mem_toList_of_eq_ok hc))
          hlater (by omega) hnanos' (by omega))
    obtain ⟨log, hkept, hstate, hlength⟩ := hstart
    rw [StoreCall.program, ProfileHistory.write, crashWp_bind, crashWp_inspect,
      readUnlocked_eq hgood hkept]
    refine ⟨fun found hfound => ?_, fun e he => by cases he⟩
    obtain rfl := Except.ok.inj hfound
    rcases hhead : s.saved.head? with _ | previous
    · have hcomplete : Complete s log := by
        rcases hstate with hcomplete | ⟨hne, -⟩
        · exact hcomplete
        · exact absurd (List.head?_eq_none_iff.mp hhead) hne
      exact hend s ⟨log, hkept.later (by omega), hcomplete, by omega⟩
    · dsimp only
      rw [crashWp_bind]
      refine crashWp_mono ?_ (fun _ _ h => h.elim)
        (fun s' h => h.mono (by omega) (by omega))
        (crashWp_captureHistory hgood hkept hstate hhead hnow hbound hnanos (by omega))
      rintro _ s' ⟨hdone, -⟩
      exact hend s' (hdone.mono le_rfl (by omega))
  · obtain ⟨hnow, hbound, hnanos⟩ := hin now List.mem_cons_self
    obtain ⟨hlater, -, hnanos'⟩ := hin later (List.mem_cons_of_mem _ List.mem_cons_self)
    have hle := hlast later (List.mem_cons_of_mem _ List.mem_cons_self)
    have hlt : now < later := (List.pairwise_cons.mp horder).1 later List.mem_cons_self
    rw [StoreCall.program, ProfileHistory.select, crashWp_bind, crashWp_ofExcept]
    refine ⟨fun _ _ => ?_, fun e _ => .inl rfl⟩
    refine crashWp_load_bind hgood hstart (hpublished _ List.mem_cons_self) hnow hbound hnanos hfew
      (by omega) fun s' hdone => ?_
    exact crashWp_mono (fun _ _ h => h.mono (by omega) (by omega))
      (fun _ _ h => .inr (h.mono (by omega) (by omega)))
      (fun _ h => h.mono (by omega) (by omega))
      (crashWp_publishNormal hgood hdone
        (fun c hc => hpublished c (List.mem_cons_of_mem _ (mem_toList_of_eq_ok hc)))
        hlater (by omega) hnanos' (by omega))
  · obtain ⟨hnow, hbound, hnanos⟩ := hin now List.mem_cons_self
    obtain ⟨hlater, -, hnanos'⟩ := hin later (List.mem_cons_of_mem _ List.mem_cons_self)
    have hle := hlast later (List.mem_cons_of_mem _ List.mem_cons_self)
    have hlt : now < later := (List.pairwise_cons.mp horder).1 later List.mem_cons_self
    rw [StoreCall.program, ProfileHistory.create, crashWp_bind, crashWp_ofExcept]
    refine ⟨fun _ _ => ?_, fun e _ => .inl rfl⟩
    refine crashWp_load_bind hgood hstart (hpublished _ List.mem_cons_self) hnow hbound hnanos hfew
      (by omega) fun s' hdone => ?_
    have hstopped : s' = s ∨ Done env catalogs (last + 1) (few + 2) s' :=
      .inr (hdone.mono (by omega) (by omega))
    split
    · rw [crashWp_bind, crashWp_throw]
      exact hstopped
    · rw [crashWp_bind, crashWp_ofExcept]
      refine ⟨fun _ _ => ?_, fun e _ => hstopped⟩
      exact crashWp_mono (fun _ _ h => h.mono (by omega) (by omega))
        (fun _ _ h => .inr (h.mono (by omega) (by omega)))
        (fun _ h => h.mono (by omega) (by omega))
        (crashWp_publishNormal hgood hdone
          (fun c hc => hpublished c (List.mem_cons_of_mem _ (mem_toList_of_eq_ok hc)))
          hlater (by omega) hnanos' (by omega))

end Calls

/-- What happens: a call, which may be cut; a new process; an entry that is no record of the
store, left behind or damaged. -/
inductive HistoryEvent where
  | call (call : StoreCall) (faults : List Fault)
  | restart
  | appears (name : String) (error : IoError)

def HistoryEvent.times : HistoryEvent → List Nat
  | .call c _ => c.times
  | .restart => []
  | .appears _ _ => []

/-- The disk, and whether a call was cut and none has returned since. -/
structure HistorySession where
  disk : HistoryDisk
  interrupted : Bool

section Runs

variable (env : HistoryEnv)

def advance (x : HistorySession) : HistoryEvent → HistorySession
  | .call call faults =>
      match (call.program env).run faults x.disk with
      | (.ok _, s) => ⟨s, false⟩
      | (.error _, s) => ⟨s, x.interrupted⟩
      | (.crash, s) => ⟨s.forget, true⟩
  | .restart => ⟨x.disk.forget, x.interrupted⟩
  | .appears name error => ⟨x.disk.putFile name (.foreign error), x.interrupted⟩

/-- Every event meets the condition, on the session that it finds. -/
def Along (P : HistorySession → HistoryEvent → Prop) : HistorySession → List HistoryEvent → Prop
  | _, [] => True
  | x, e :: es => P x e ∧ Along P (advance env x e) es

end Runs

/-- Calls are cut and meet no other fault; the clock fits its type; an entry that appears takes the
place of no record. -/
def Possible (x : HistorySession) : HistoryEvent → Prop
  | .call call faults => CrashOnly faults ∧ ∀ t ∈ call.times, t < 2 ^ 64
  | .restart => True
  | .appears name _ => ∀ p, x.disk.lookup name ≠ some (.point p)

/-- **The condition**: the directory has room for the entries that the event may leave, and the
catalogs are small enough for the reads of their texts and records. -/
def Roomy (env : HistoryEnv) (times : List Nat) (x : HistorySession) : HistoryEvent → Prop
  | .call call _ => x.disk.entries.length + 2 ≤ 128 ∧
      Good env times (call.published x.disk ++ x.disk.saved)
  | .restart => True
  | .appears _ _ => x.disk.entries.length + 1 ≤ 128

structure Sound (env : HistoryEnv) (bound : Nat) (x : HistorySession) : Prop where
  stays : Stays env x.disk.saved bound 128 x.disk
  done : x.interrupted = false → Done env x.disk.saved bound 128 x.disk

section RunLemmas

variable {env : HistoryEnv} {times : List Nat} {catalogs : List ProfileCatalog}
  {x : HistorySession} {s : HistoryDisk} {bound few : Nat}

theorem Stays.rebase (h : Stays env catalogs bound few s) : Stays env s.saved bound few s := by
  obtain ⟨log, hkept, hstate, hlength⟩ := h
  exact ⟨log, ⟨hkept.toLog, hkept.observed, hkept.chain, hkept.current,
    fun c hc => ⟨hc, (hkept.saved c hc).2⟩⟩, hstate, hlength⟩

theorem Done.rebase (h : Done env catalogs bound few s) : Done env s.saved bound few s := by
  obtain ⟨log, hkept, hcomplete, hlength⟩ := h
  exact ⟨log, ⟨hkept.toLog, hkept.observed, hkept.chain, hkept.current,
    fun c hc => ⟨hc, (hkept.saved c hc).2⟩⟩, hcomplete, hlength⟩

theorem sound_appears (h : Sound env bound x) {name : String} (error : IoError)
    (hname : ∀ p, x.disk.lookup name ≠ some (.point p)) (hfew : x.disk.entries.length + 1 ≤ 128) :
    Sound env bound ⟨x.disk.putFile name (.foreign error), x.interrupted⟩ := by
  have hlength : (x.disk.putFile name (.foreign error)).entries.length ≤ 128 :=
    (x.disk.length_putFile name _).trans hfew
  constructor
  · obtain ⟨log, hkept, hstate, -⟩ := h.stays
    exact ⟨log, ⟨hkept.toLog.foreign error hname, hkept.observed, hkept.chain, hkept.current,
      hkept.saved⟩, hstate, hlength⟩
  · intro hreturned
    obtain ⟨log, hkept, hcomplete, -⟩ := h.done hreturned
    exact ⟨log, ⟨hkept.toLog.foreign error hname, hkept.observed, hkept.chain, hkept.current,
      hkept.saved⟩, hcomplete, hlength⟩

/-- **One event** keeps what a run keeps. -/
theorem sound_advance {e : HistoryEvent} (h : Sound env bound x) (hpossible : Possible x e)
    (hroom : Roomy env times x e) (hin : ∀ t ∈ e.times, t ∈ times ∧ bound ≤ t)
    (horder : e.times.Pairwise (· < ·)) {bound' : Nat} (hlast : ∀ t ∈ e.times, t < bound')
    (hbound : bound ≤ bound') : Sound env bound' (advance env x e) := by
  rcases e with ⟨call, faults⟩ | _ | ⟨name, error⟩
  · obtain ⟨hfaults, hnanos⟩ := hpossible
    obtain ⟨hfew, hgood⟩ := hroom
    obtain ⟨last, rfl⟩ : ∃ last, bound' = last + 1 := by
      obtain ⟨t, ht⟩ := call.exists_time
      have hlt := hlast t ht
      exact ⟨bound' - 1, by omega⟩
    have hstays : Stays env x.disk.saved bound x.disk.entries.length x.disk := by
      obtain ⟨log, hkept, hstate, -⟩ := h.stays
      exact ⟨log, hkept, hstate, le_rfl⟩
    have hrun := (crashWp_iff_run _ _ _ _ _).mp
      (crashWp_storeCall call hgood hstays
        (fun t ht => ⟨(hin t ht).1, (hin t ht).2, hnanos t ht⟩) horder hfew
        fun t ht => Nat.lt_succ_iff.mp (hlast t ht)) faults hfaults
    unfold advance
    dsimp only
    rcases hend : (call.program env).run faults x.disk with ⟨_ | _ | _, s⟩ <;> rw [hend] at hrun
    · have hdone : Done env s.saved (last + 1) 128 s := (Done.mono hrun le_rfl hfew).rebase
      exact ⟨hdone.stays, fun _ => hdone⟩
    · rcases hrun with rfl | hdone
      · exact ⟨h.stays.mono hbound le_rfl, fun hr => (h.done hr).mono hbound le_rfl⟩
      · have hdone : Done env s.saved (last + 1) 128 s := (Done.mono hdone le_rfl hfew).rebase
        exact ⟨hdone.stays, fun _ => hdone⟩
    · exact ⟨(Stays.mono hrun le_rfl hfew).rebase, fun hr => by cases hr⟩
  · refine ⟨(h.stays.mono hbound le_rfl).forget, fun hr => ?_⟩
    obtain ⟨log, hkept, hcomplete, hfew⟩ := (h.done hr).mono hbound le_rfl
    exact ⟨log, hkept.forget, hcomplete, hfew⟩
  · have happears := sound_appears h error hpossible hroom
    exact ⟨happears.stays.mono hbound le_rfl, fun hr => (happears.done hr).mono hbound le_rfl⟩

theorem exists_bound (bound : Nat) : ∀ ts : List Nat, ∃ bound', bound ≤ bound' ∧
    (∀ t ∈ ts, t < bound') ∧ ∀ u, bound ≤ u → (∀ t ∈ ts, t < u) → bound' ≤ u := by
  intro ts
  induction ts with
  | nil => exact ⟨bound, le_rfl, by simp, fun u hu _ => hu⟩
  | cons t ts ih =>
    obtain ⟨b, hb, hts, hleast⟩ := ih
    refine ⟨max b (t + 1), by omega, fun u hu => ?_, fun u hu hall => ?_⟩
    · rcases List.mem_cons.mp hu with rfl | hu
      · omega
      · have hlt := hts u hu
        omega
    · have hle := hleast u hu fun t' ht' => hall t' (List.mem_cons_of_mem _ ht')
      have hlt := hall t List.mem_cons_self
      omega

/-- **A run** keeps it. -/
theorem sound_run : ∀ (events : List HistoryEvent) {x : HistorySession} {bound : Nat},
    Sound env bound x → Along env Possible x events → Along env (Roomy env times) x events →
      (∀ e ∈ events, ∀ t ∈ e.times, t ∈ times ∧ bound ≤ t) →
      (events.flatMap HistoryEvent.times).Pairwise (· < ·) →
      ∃ bound', Sound env bound' (events.foldl (advance env) x) := by
  intro events
  induction events with
  | nil => exact fun h _ _ _ _ => ⟨_, h⟩
  | cons e events ih =>
    intro x bound h hpossible hroom hin hclock
    rw [List.flatMap_cons, List.pairwise_append] at hclock
    obtain ⟨horder, hrest, hbetween⟩ := hclock
    obtain ⟨bound', hbound, hlast, hleast⟩ := exists_bound bound e.times
    have hafter : ∀ e' ∈ events, ∀ t ∈ e'.times, bound' ≤ t := fun e' he' t ht =>
      hleast t (hin e' (List.mem_cons_of_mem _ he') t ht).2 fun u hu =>
        hbetween u hu t (List.mem_flatMap.mpr ⟨e', he', ht⟩)
    refine ih (sound_advance h hpossible.1 hroom.1 (hin e List.mem_cons_self) horder hlast hbound)
      hpossible.2 hroom.2 (fun e' he' t ht => ⟨?_, hafter e' he' t ht⟩) hrest
    exact (hin e' (List.mem_cons_of_mem _ he') t ht).1

end RunLemmas

/-! ## 5. Restoring -/

/-- The record is back in `profiles.json`, and what was there is a backup. -/
def IsBack (s : HistoryDisk) (point : Point) (t : HistoryDisk) : Prop :=
  t.profiles = some (.restored point.catalog) ∧
    ∃ original, s.profiles = some original ∧ original ∈ t.backups

/-- **A restore** puts the record back after a backup, or leaves `profiles.json` as it is. -/
theorem crashWp_restore {env : HistoryEnv} {s : HistoryDisk} {point : Point} {id : String}
    (hload : load env s id = .ok point) (quiescent quiescentLater : Except IoError Unit)
    (expected : Option String) :
    (restore env quiescent quiescentLater (some id) expected).crashWp
      (fun _ t => IsBack s point t) (fun _ t => t.profiles = s.profiles)
      (fun t => t.profiles = s.profiles ∨ IsBack s point t) s := by
  rw [restore, crashWp_bind, crashWp_ofExcept]
  refine ⟨fun _ _ => ?_, fun _ _ => rfl⟩
  have hrequired : required (invalid "Choose a recovery time") (some id) = .ok id := rfl
  rw [crashWp_ofExcept_bind hrequired, crashWp_bind, crashWp_inspect]
  refine ⟨fun found hfound => ?_, fun _ _ => rfl⟩
  obtain rfl := Except.ok.inj (hload.symm.trans hfound)
  rw [crashWp_bind, crashWp_inspect]
  refine ⟨fun original horiginal => ?_, fun _ _ => rfl⟩
  have hprofiles : s.profiles = some original := by
    unfold readRecord at horiginal
    rcases hfile : s.profiles with _ | file
    · rw [hfile] at horiginal
      cases horiginal
    · rw [hfile] at horiginal
      dsimp only at horiginal
      split at horiginal
      · cases horiginal
      · rw [Except.ok.inj horiginal]
  dsimp only
  by_cases hexpected : expected = some (env.revision original)
  swap
  · rw [if_pos hexpected, crashWp_bind, crashWp_throw]
  rw [if_neg (not_not.mpr hexpected)]
  by_cases hformat : supportedFormat env original = false
  · rw [if_pos hformat, crashWp_bind, crashWp_throw]
  rw [if_neg hformat, crashWp_bind, Program.attempt, crashWp_durable]
  refine ⟨.inl rfl, .inl rfl, ?_⟩
  rw [crashWp_bind, Program.attempt, crashWp_durable]
  refine ⟨.inl rfl, .inl rfl, ?_⟩
  rw [crashWp_bind, crashWp_durable]
  refine ⟨.inl rfl, .inl rfl, ?_⟩
  rw [crashWp_bind, Program.attempt, crashWp_durable]
  refine ⟨.inl rfl, .inl rfl, ?_⟩
  rw [crashWp_bind, crashWp_inspect]
  refine ⟨fun again _ => ?_, fun _ _ => rfl⟩
  split
  · rw [crashWp_bind, crashWp_throw]
    rfl
  rw [crashWp_bind, crashWp_ofExcept]
  refine ⟨fun _ _ => ?_, fun _ _ => rfl⟩
  rw [crashWp_durable]
  have hback : ∀ t : HistoryDisk, t.profiles = some (.restored point.catalog) →
      original ∈ t.backups → IsBack s point t := fun t ht hbackup =>
    ⟨ht, original, hprofiles, hbackup⟩
  exact ⟨.inl rfl, .inr (hback _ rfl List.mem_cons_self), hback _ rfl List.mem_cons_self⟩

/-! ## 6. The history -/

/-- A new installation, whose history has no records. -/
structure Fresh (s : HistoryDisk) : Prop where
  profiles : s.profiles = none
  observed : s.observed = none
  saved : s.saved = []
  foreign : ∀ id p, s.lookup id ≠ some (.point p)

/-- **The history brings every saved catalog back**, as long as its directory has room and the
catalogs are small enough.

Whatever calls are made and wherever they are cut, the listing works and has the newest 64 catalogs
that were saved, where the newest one may wait for the next call after a cut; every record that is
listed loads as it was made; and a restore of it, with any `profiles.json`, puts exactly its catalog
back after a backup, or leaves the file as it was. -/
theorem history_kept (env : HistoryEnv) {s₀ : HistoryDisk} (hfresh : Fresh s₀)
    (hfew : s₀.entries.length ≤ 128) (events : List HistoryEvent)
    (hpossible : Along env Possible ⟨s₀, false⟩ events)
    (hclock : (events.flatMap HistoryEvent.times).Pairwise (· < ·))
    (hroom : Along env (Roomy env (events.flatMap HistoryEvent.times)) ⟨s₀, false⟩ events) :
    ∃ rows, list env (events.foldl (advance env) ⟨s₀, false⟩).disk = .ok rows ∧
      (rows.map Point.catalog =
          (events.foldl (advance env) ⟨s₀, false⟩).disk.saved.take 64 ∨
        rows.map Point.catalog =
          (events.foldl (advance env) ⟨s₀, false⟩).disk.saved.tail.take 64) ∧
      ((events.foldl (advance env) ⟨s₀, false⟩).interrupted = false →
        rows.map Point.catalog =
          (events.foldl (advance env) ⟨s₀, false⟩).disk.saved.take 64) ∧
      ∀ row ∈ rows,
        load env (events.foldl (advance env) ⟨s₀, false⟩).disk row.id = .ok row ∧
          row.catalog.normalize = .ok row.catalog ∧
          ∀ (s : HistoryDisk) quiescent quiescentLater expected faults,
            s.history = (events.foldl (advance env) ⟨s₀, false⟩).disk.history →
            CrashOnly faults → Program.Meets (fun _ t => IsBack s row t)
              (fun _ t => t.profiles = s.profiles)
              (fun t => t.profiles = s.profiles ∨ IsBack s row t)
              ((restore env quiescent quiescentLater (some row.id) expected).run faults s) := by
  have hstart : Done env s₀.saved 0 128 s₀ := by
    refine ⟨[], ⟨⟨by simp, List.Pairwise.nil, by simp, ?_, by simp⟩, ?_, ?_, ?_, ?_⟩, ?_, hfew⟩
    · exact fun id p hp => absurd hp (hfresh.foreign id p)
    · intro c hc
      rw [hfresh.observed] at hc
      cases hc
    · rw [hfresh.saved]
      exact List.isChain_nil
    · rw [hfresh.profiles, hfresh.saved]
      rfl
    · rw [hfresh.saved]
      simp
    · rw [Complete, hfresh.saved]
      rfl
  have hbegin : Sound env 0 ⟨s₀, false⟩ := ⟨hstart.stays, fun _ => hstart⟩
  obtain ⟨bound, hsound⟩ := sound_run events hbegin hpossible hroom
    (fun e he t ht => ⟨List.mem_flatMap.mpr ⟨e, he, ht⟩, Nat.zero_le t⟩) hclock
  obtain ⟨x, hx⟩ : ∃ x, x = events.foldl (advance env) ⟨s₀, false⟩ := ⟨_, rfl⟩
  rw [← hx] at hsound ⊢
  obtain ⟨log, hkept, hstate, hlength⟩ := hsound.stays
  have hlist := list_of_log hkept.toLog hlength
  refine ⟨log.take 64, hlist, ?_, fun hreturned => ?_, fun row hrow => ?_⟩
  · rw [List.map_take]
    rcases hstate with hcomplete | ⟨-, hbehind⟩
    · exact .inl (by rw [hcomplete])
    · exact .inr (by rw [hbehind])
  · obtain ⟨log', hkept', hcomplete', hlength'⟩ := hsound.done hreturned
    have hsame := hlist.symm.trans (list_of_log hkept'.toLog hlength')
    rw [Except.ok.inj hsame, List.map_take, hcomplete']
  · have hmem := List.mem_of_mem_take hrow
    have hrecorded := hkept.recorded row hmem
    have hload : load env x.disk row.id = .ok row :=
      load_of_lookup hrecorded (hkept.newest row hrow)
    refine ⟨hload, ?_, fun s quiescent quiescentLater expected faults hhistory hfaults => ?_⟩
    · refine (hkept.saved row.catalog ?_).2
      rcases hstate with hcomplete | ⟨-, hbehind⟩
      · rw [← hcomplete]
        exact List.mem_map_of_mem hmem
      · refine List.mem_of_mem_tail ?_
        rw [← hbehind]
        exact List.mem_map_of_mem hmem
    · have hload' : load env s row.id = .ok row := by
        refine load_of_lookup hrecorded ?_
        unfold HistoryDisk.lookup
        rw [hhistory]
        exact hkept.newest row hrow
      exact (crashWp_iff_run _ _ _ _ _).mp
        (crashWp_restore hload' quiescent quiescentLater expected) faults hfaults

/-! ### Two installations -/

def workCatalog : ProfileCatalog := ⟨1, "work", ["web", "work"]⟩

def knownSha256 (catalog : ProfileCatalog) : String :=
  if catalog = ProfileCatalog.initial then
    "b886a918d606db8f0039733752805b9a8a0224406d12da8cea0711fa3e79f9b0"
  else if catalog = workCatalog then
    "5652cd122bb0af539a31ace77eb48145d731bc5f181b95aa83b90fb11fe62ff5"
  else String.ofList (List.replicate 64 '0')

theorem hex_of_all {text : String}
    (h : (text.toList.all fun c => c.isDigit || ('a' ≤ c && c ≤ 'f')) = true) :
    ∀ c ∈ text.toList, c.isDigit = true ∨ ('a' ≤ c ∧ c ≤ 'f') := by
  intro c hc
  have hone := List.all_eq_true.mp h c hc
  simpa only [Bool.or_eq_true, Bool.and_eq_true, decide_eq_true_eq] using hone

def sampleEnv : HistoryEnv where
  sha256 := knownSha256
  sha256_hex catalog := by
    unfold knownSha256
    split
    · exact ⟨by decide +kernel, hex_of_all (by decide +kernel)⟩
    split
    · exact ⟨by decide +kernel, hex_of_all (by decide +kernel)⟩
    · rw [String.toList_ofList]
      refine ⟨List.length_replicate, fun c hc => ?_⟩
      rw [List.eq_of_mem_replicate hc]
      exact .inl (by decide)
  decode _ := .error ⟨.invalidData, "expected value"⟩
  validate _ := .error ⟨.invalidData, "expected value"⟩
  supported _ := true
  revision file := if file.size = 0 then "empty" else "full"

def newDisk (history : Option (AList fun _ : String => HistoryFile)) : HistoryDisk :=
  ⟨none, history, [], none, []⟩

def foreignEntries : Nat → AList fun _ : String => HistoryFile
  | 0 => ∅
  | n + 1 => (foreignEntries n).insert (String.ofList (List.replicate n 'x'))
      (.foreign (invalid "Recovery point missing"))

theorem lookup_foreignEntries (n : Nat) (id : String) (p : Point) :
    (foreignEntries n).lookup id ≠ some (.point p) := by
  induction n with
  | zero => exact fun h => by cases h
  | succ n ih =>
    rw [foreignEntries, Table.lookup_insert]
    split
    · exact fun h => by cases h
    · exact ih

theorem mem_foreignEntries {n : Nat} {name : String} (h : name ∈ foreignEntries n) :
    ∃ i < n, name = String.ofList (List.replicate i 'x') := by
  induction n with
  | zero => exact absurd h (AList.notMem_empty name)
  | succ n ih =>
    rcases (AList.mem_insert _).mp h with rfl | h
    · exact ⟨n, by omega, rfl⟩
    · obtain ⟨i, hi, rfl⟩ := ih h
      exact ⟨i, by omega, rfl⟩

theorem length_foreignEntries (n : Nat) : (foreignEntries n).entries.length = n := by
  induction n with
  | zero => rfl
  | succ n ih =>
    have hnew : String.ofList (List.replicate n 'x') ∉ foreignEntries n := by
      intro hmem
      obtain ⟨i, hi, heq⟩ := mem_foreignEntries hmem
      have hlength := congrArg (fun name : String => name.toList.length) heq
      simp only [String.toList_ofList, List.length_replicate] at hlength
      omega
    rw [foreignEntries, AList.entries_insert_of_notMem hnew, List.length_cons, ih]

theorem fresh_newDisk (n : Nat) : Fresh (newDisk (some (foreignEntries n))) :=
  ⟨rfl, rfl, rfl, lookup_foreignEntries n⟩

/-- A history directory with 129 entries that are no records cannot be listed. -/
theorem crowded_not_listed :
    ¬ ∀ (env : HistoryEnv) (s₀ : HistoryDisk) (events : List HistoryEvent), Fresh s₀ →
      Along env Possible ⟨s₀, false⟩ events →
      (events.flatMap HistoryEvent.times).Pairwise (· < ·) →
      ∃ rows, list env (events.foldl (advance env) ⟨s₀, false⟩).disk = .ok rows := by
  intro h
  obtain ⟨rows, hrows⟩ := h sampleEnv _ [] (fresh_newDisk 129) trivial List.Pairwise.nil
  have hlength : (newDisk (some (foreignEntries 129))).entries.length = 129 :=
    length_foreignEntries 129
  rw [List.foldl_nil, list, if_pos (by rw [hlength]; decide)] at hrows
  cases hrows

/-- The catalog is read for the first time, and then one with a second profile is written. -/
def sampleEvents : List HistoryEvent :=
  [.call (.load 1) [], .call (.write 2 3 workCatalog) []]

/-- In a directory with five foreign entries the two catalogs are recorded. -/
theorem history_kept_two :
    ∃ rows, list sampleEnv
        (sampleEvents.foldl (advance sampleEnv) ⟨newDisk (some (foreignEntries 5)), false⟩).disk =
          .ok rows ∧
      rows.map Point.catalog = [workCatalog, ProfileCatalog.initial] := by
  have hpossible : Along sampleEnv Possible ⟨newDisk (some (foreignEntries 5)), false⟩
      sampleEvents := by
    refine ⟨⟨by simp [CrashOnly], by decide⟩, ⟨by simp [CrashOnly], by decide⟩, trivial⟩
  have hroom : Along sampleEnv (Roomy sampleEnv (sampleEvents.flatMap HistoryEvent.times))
      ⟨newDisk (some (foreignEntries 5)), false⟩ sampleEvents := by
    refine ⟨⟨by decide +kernel, by decide +kernel, by decide +kernel, by decide +kernel⟩,
      ⟨by decide +kernel, by decide +kernel, by decide +kernel, by decide +kernel⟩, trivial⟩
  obtain ⟨rows, hrows, -, hall, -⟩ := history_kept sampleEnv (fresh_newDisk 5)
    (by decide +kernel) sampleEvents hpossible (by decide +kernel) hroom
  refine ⟨rows, hrows, (hall (by decide +kernel)).trans ?_⟩
  decide +kernel

end DshNexus.Checkpoint.ProfileHistory
