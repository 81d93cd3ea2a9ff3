import DshNexus.Checkpoint.Journal
import DshNexus.Core.Table
import DshNexus.Durable.Crash

/-!
# The archive of deleted profiles

`crates/nexus-agent/src/profile_archive.rs`: a profile is deleted by moving its directory into an
archive, restored by moving it back, and purged by unlinking what the archive holds.  Each entry of
the archive is a directory with a journal of one record; recovery looks at where the profile's
directory is and finishes what was begun.

1. Names, records and the disk.
2. The steps: writing a record, moving a directory, removing an entry.
3. `purge`, `recover_if_present`, and `change` for deletions and for restores.
-/

namespace DshNexus.Agent.ProfileArchive

open Durable Checkpoint

/-! ## 1. Records -/

/-- The phases that a record's text may name. -/
inductive Phase where
  | archiving
  | archived
  | restoring
  | restored
  | rolledBack
  | purging
  deriving DecidableEq, Repr

structure Record where
  schemaVersion : Nat
  id : String
  dataRootId : String
  home : String
  profile : String
  createdAtUnix : Nat
  phase : Phase
  deriving DecidableEq, Repr

/-- The entries of a profile's directory, each after what is in it. -/
abbrev Payload := List String

/-- A directory of the archive: its record, the profile's directory, and what was left of records
that were not published. -/
structure Entry where
  record : Option Record
  payload : Option Payload
  temporary : Nat
  deriving DecidableEq, Repr

/-- The profiles' directories by the key of their names, the catalog, and the archive. -/
structure ArchiveDisk where
  profiles : String → Option Payload
  catalog : Option ProfileCatalog
  entries : Option (AList fun _ : String => Entry)

/-- The platform, the identities of the data root and of the home directory, and the order in which
a directory is listed.  The file system compares names as `same_profile` does. -/
structure ArchiveEnv where
  windows : Bool
  dataRootId : String
  home : String
  readDir : List String → List String
  readDir_perm : ∀ names, (readDir names).Perm names

def ArchiveEnv.key (env : ArchiveEnv) (name : String) : String :=
  if env.windows then name.toLower else name

def sameProfile (env : ArchiveEnv) (left right : String) : Bool := env.key left = env.key right

def invalid (message : String) : IoError := ⟨.other, message⟩

def validateArchivableName (name : String) : Except IoError Unit := do
  validateProfileName name
  if name.toLower = "node_modules" ∨ name.toList.head? = some '.' then
    throw (invalid "Shared dependencies and internal directories cannot be deleted")

/-- What `new_instance_id` is made of: the process, and the time in nanoseconds and in seconds. -/
structure Instance where
  pid : Fin (2 ^ 32)
  nanos : Fin (2 ^ 128)
  seconds : Fin (2 ^ 64)
  deriving DecidableEq

def newInstanceId (i : Instance) : String :=
  toString i.pid.val ++ "-" ++ toString i.nanos.val ++ "-" ++ toString i.seconds.val

def validArchiveId (id : String) : Bool :=
  !id.isEmpty && decide (id.utf8ByteSize ≤ 128) && id.toList.all fun c => c.isAlphanum || c = '-'

namespace ArchiveDisk

def entry (s : ArchiveDisk) (id : String) : Option Entry := s.entries.bind fun m => m.lookup id

/-- The names of the archive's directories. -/
def ids (s : ArchiveDisk) : List String := (s.entries.getD ∅).keys

def record (s : ArchiveDisk) (id : String) : Option Record := (s.entry id).bind Entry.record

def makeParent (s : ArchiveDisk) : ArchiveDisk := { s with entries := some (s.entries.getD ∅) }

def putEntry (id : String) (e : Entry) (s : ArchiveDisk) : ArchiveDisk :=
  { s with entries := s.entries.map fun m => m.insert id e }

def removeEntry (id : String) (s : ArchiveDisk) : ArchiveDisk :=
  { s with entries := s.entries.map fun m => m.erase id }

def modifyEntry (id : String) (f : Entry → Entry) (s : ArchiveDisk) : ArchiveDisk :=
  match s.entry id with
  | some e => s.putEntry id (f e)
  | none => s

/-- `fs::rename` of a profile's directory into the archive. -/
def archivePayload (key id : String) (s : ArchiveDisk) : ArchiveDisk :=
  { s.modifyEntry id fun e => { e with payload := s.profiles key } with
    profiles := Function.update s.profiles key none }

/-- `fs::rename` out of the archive. -/
def restorePayload (key id : String) (s : ArchiveDisk) : ArchiveDisk :=
  { s.modifyEntry id fun e => { e with payload := none } with
    profiles := Function.update s.profiles key ((s.entry id).bind Entry.payload) }

theorem entry_putEntry {s : ArchiveDisk} (h : s.entries.isSome = true) (id : String) (e : Entry)
    (id' : String) : (s.putEntry id e).entry id' = if id' = id then some e else s.entry id' := by
  obtain ⟨m, hm⟩ := Option.isSome_iff_exists.mp h
  unfold entry putEntry
  rw [hm]
  exact Table.lookup_insert id id' e

theorem entries_isSome {s : ArchiveDisk} {id : String} {e : Entry} (h : s.entry id = some e) :
    s.entries.isSome = true := by
  obtain ⟨m, hm, -⟩ := Option.bind_eq_some_iff.mp h
  rw [hm]
  rfl

theorem entry_removeEntry (s : ArchiveDisk) (id id' : String) :
    (s.removeEntry id).entry id' = if id' = id then none else s.entry id' := by
  unfold entry removeEntry
  cases s.entries with
  | none => simp
  | some m => exact Table.lookup_erase id id'

theorem entry_modifyEntry (s : ArchiveDisk) (id : String) (f : Entry → Entry) (id' : String) :
    (s.modifyEntry id f).entry id' = if id' = id then (s.entry id).map f else s.entry id' := by
  unfold modifyEntry
  cases h : s.entry id with
  | none =>
    dsimp only
    by_cases hid : id' = id
    · rw [if_pos hid, hid, h]
      rfl
    · rw [if_neg hid]
  | some e => exact entry_putEntry (entries_isSome h) id (f e) id'

@[simp] theorem profiles_modifyEntry (s : ArchiveDisk) (id : String) (f : Entry → Entry) :
    (s.modifyEntry id f).profiles = s.profiles := by
  unfold modifyEntry
  cases s.entry id with
  | none => rfl
  | some e => rfl

@[simp] theorem catalog_modifyEntry (s : ArchiveDisk) (id : String) (f : Entry → Entry) :
    (s.modifyEntry id f).catalog = s.catalog := by
  unfold modifyEntry
  cases s.entry id with
  | none => rfl
  | some e => rfl

theorem mem_ids {s : ArchiveDisk} {id : String} : id ∈ s.ids ↔ ∃ e, s.entry id = some e := by
  unfold ids entry
  cases s.entries with
  | none => simp [AList.keys]
  | some m =>
    rw [Option.getD_some, Option.bind_some, ← AList.mem_keys, ← AList.lookup_isSome,
      Option.isSome_iff_exists]

theorem nodup_ids (s : ArchiveDisk) : s.ids.Nodup := (s.entries.getD ∅).keys_nodup

theorem length_ids_le {s s' : ArchiveDisk}
    (h : ∀ id e', s'.entry id = some e' → ∃ e, s.entry id = some e) :
    s'.ids.length ≤ s.ids.length := by
  refine (s'.nodup_ids.subperm fun id hid => ?_).length_le
  obtain ⟨e', he'⟩ := mem_ids.mp hid
  exact mem_ids.mpr (h id e' he')

end ArchiveDisk

/-- The catalog of the profiles, as a part of the disk. -/
def catalogLens : Lens ArchiveDisk (Option ProfileCatalog) where
  get s := s.catalog
  put c s := { s with catalog := c }
  get_put _ _ := rfl
  put_get _ := rfl
  put_put _ _ _ := rfl

/-- `ProfileStore::load`. -/
def loadCatalog : Program ArchiveDisk IoError ProfileCatalog :=
  Program.zoom catalogLens id loadProfiles

/-- `ProfileStore::write`. -/
def writeCatalog (catalog : ProfileCatalog) : Program ArchiveDisk IoError Unit :=
  Program.zoom catalogLens id (writeProfiles catalog)

/-- `read`. -/
def readRecord (env : ArchiveEnv) (id : String) (s : ArchiveDisk) : Except IoError Record := do
  if validArchiveId id = false then throw (invalid "Invalid deleted profile ID")
  let some e := s.entry id | throw ⟨.notFound, "No such file or directory"⟩
  let some r := e.record | throw (invalid "Deleted profile record is missing")
  if r.schemaVersion ≠ 1 ∨ r.id ≠ id ∨ r.dataRootId ≠ env.dataRootId ∨ r.home ≠ env.home then
    throw (invalid "Deleted profile belongs to another home or Nexus data directory")
  validateArchivableName r.profile
  pure r

/-! ## 2. Steps -/

/-- `save`: the record is written next to the old one and takes its place. -/
def save (id : String) (r : Record) : Program ArchiveDisk IoError Unit := do
  Program.durable fileOperationFailed
    (ArchiveDisk.modifyEntry id fun e => { e with temporary := e.temporary + 1 })
  tryCatch
    (Program.durable fileOperationFailed (ArchiveDisk.modifyEntry id fun e =>
      { e with record := some r, temporary := e.temporary - 1 }))
    fun error => do
      Program.ignoreError (Program.durable fileOperationFailed
        (ArchiveDisk.modifyEntry id fun e => { e with temporary := e.temporary - 1 }))
      throw error

/-- `fs::remove_dir` of an entry, which fails while anything is in it. -/
def removeDirectory (id : String) : Program ArchiveDisk IoError Unit := do
  match (← Program.read).entry id with
  | none => throw ⟨.notFound, "No such file or directory"⟩
  | some e =>
      if e.record = none ∧ e.payload = none ∧ e.temporary = 0 then
        Program.durable fileOperationFailed (ArchiveDisk.removeEntry id)
      else throw ⟨.other, "Directory not empty"⟩

def discardFinished (id : String) : Program ArchiveDisk IoError Unit := do
  match (← Program.read).entry id with
  | none => throw ⟨.notFound, "No such file or directory"⟩
  | some e =>
      if e.payload.isSome then throw (invalid "Archived files must be preserved")
      else if e.record.isNone then throw ⟨.notFound, "No such file or directory"⟩
      else
        Program.durable fileOperationFailed
          (ArchiveDisk.modifyEntry id fun e => { e with record := none })
        removeDirectory id

def removePayload (id : String) : Program ArchiveDisk IoError Unit := do
  match ((← Program.read).entry id).bind Entry.payload with
  | none => pure ()
  | some payload =>
      payload.forM fun _ => Program.durable fileOperationFailed
        (ArchiveDisk.modifyEntry id fun e => { e with payload := e.payload.map List.tail })
      Program.durable fileOperationFailed
        (ArchiveDisk.modifyEntry id fun e => { e with payload := none })

def withoutProfile (env : ArchiveEnv) (name : String) (catalog : ProfileCatalog) :
    ProfileCatalog :=
  { catalog with profiles := catalog.profiles.filter fun other => !sameProfile env other name }

def withProfile (env : ArchiveEnv) (name : String) (catalog : ProfileCatalog) : ProfileCatalog :=
  if catalog.profiles.any fun other => sameProfile env other name then catalog
  else { catalog with profiles := catalog.profiles ++ [name] }

/-! ## 3. Operations -/

/-- `purge`.  `guard` is what the checks of terminals, links and external program files come to. -/
def purge (env : ArchiveEnv) (guard : Except IoError Unit) (id : String) :
    Program ArchiveDisk IoError Unit := do
  Program.ofExcept guard
  let r ← Program.inspect (readRecord env id)
  if r.phase ≠ .archived ∧ r.phase ≠ .purging then
    throw (invalid "Only an archived profile can be permanently deleted")
  else
    save id { r with phase := .purging }
    removePayload id
    discardFinished id

def recoverEntry (env : ArchiveEnv) (id : String) : Program ArchiveDisk IoError PUnit := do
  let s ← Program.read
  match s.entry id with
  | none => throw ⟨.notFound, "No such file or directory"⟩
  | some e =>
      if e.record = none ∧ e.payload = none then
        if e.temporary = 0 then removeDirectory id else pure ()
      else
        let r ← Program.inspect (readRecord env id)
        match r.phase with
        | .restored => discardFinished id
        | .rolledBack => discardFinished id
        | .archived => pure ()
        | .purging => pure ()
        | .archiving => finish s e r
        | .restoring => finish s e r
where
  /-- A move that was begun. -/
  finish (s : ArchiveDisk) (e : Entry) (r : Record) : Program ArchiveDisk IoError PUnit := do
    if (s.profiles (env.key r.profile)).isSome = e.payload.isSome then
      throw (invalid "Deleted profile transaction is ambiguous; both locations are preserved")
    else
      let catalog ← loadCatalog
      if e.payload.isSome then
        if sameProfile env catalog.activeProfile r.profile then
          throw (invalid "Pending deletion conflicts with the current profile")
        else
          writeCatalog (withoutProfile env r.profile catalog)
          save id { r with phase := .archived }
      else
        writeCatalog (withProfile env r.profile catalog)
        save id { r with phase := .restored }
        discardFinished id

def recoverIfPresent (env : ArchiveEnv) (guard : Except IoError Unit) :
    Program ArchiveDisk IoError Unit := do
  Program.ofExcept guard
  let s ← Program.read
  if s.entries.isNone then pure ()
  else
    let names := env.readDir s.ids
    (names.take 256).forM (recoverEntry env)
    if names.length > 256 then throw (invalid "Too many deleted profiles to reconcile")
    else pure ()

/-- What `change` answers. -/
structure ChangeReport where
  profile : String
  archiveId : String
  restored : Bool
  warning : Option String
  deriving DecidableEq, Repr

def movePayload (env : ArchiveEnv) (id : String) (r : Record) (restore : Bool) :
    ArchiveDisk → ArchiveDisk :=
  if restore then ArchiveDisk.restorePayload (env.key r.profile) id
  else ArchiveDisk.archivePayload (env.key r.profile) id

/-- The directory goes back, after the catalog could not be written. -/
def rollBack (env : ArchiveEnv) (id : String) (r : Record) (restore : Bool) (error : IoError) :
    Program ArchiveDisk IoError Unit := do
  match ← Program.toExcept (Program.durable fileOperationFailed
      (movePayload env id r (!restore))) with
  | .error _ => throw (invalid ("Index update failed: " ++ error.message))
  | .ok () =>
      match ← Program.toExcept (save id
          { r with phase := if restore then .archived else .rolledBack }) with
      | .ok () => if restore then pure () else Program.ignoreError (discardFinished id)
      | .error _ => pure ()
      throw error

/-- The second half of `change`: the journal, the move, the catalog and the journal again. -/
def publishChange (env : ArchiveEnv) (id : String) (r : Record) (restore : Bool)
    (catalog : ProfileCatalog) : Program ArchiveDisk IoError ChangeReport := do
  save id { r with phase := if restore then .restoring else .archiving }
  Program.durable fileOperationFailed (movePayload env id r restore)
  match ← Program.toExcept (writeCatalog
      (if restore then withProfile env r.profile catalog
        else withoutProfile env r.profile catalog)) with
  | .error error => do
      rollBack env id r restore error
      throw error
  | .ok () =>
      let finished ← Program.toExcept (do
        save id { r with phase := if restore then .restored else .archived }
        if restore then discardFinished id else pure ())
      pure ⟨r.profile, r.id, restore,
        match finished with
        | .ok () => none
        | .error error => some error.message⟩

def checkDelete (env : ArchiveEnv) (unreferenced : Except IoError Unit) (catalog : ProfileCatalog)
    (name : String) (s : ArchiveDisk) : Except IoError Unit := do
  validateArchivableName name
  if s.ids.length ≥ 256 then
    throw (invalid "Deleted profile storage is full; restore an existing profile before deleting another")
  if sameProfile env catalog.activeProfile name then
    throw (invalid "The current profile cannot be deleted")
  unreferenced
  if (s.profiles (env.key name)).isNone then throw ⟨.notFound, "No such file or directory"⟩

/-- `fs::create_dir` of a new entry. -/
def createEntry (id : String) : Program ArchiveDisk IoError Unit := do
  if ((← Program.read).entry id).isSome then throw ⟨.alreadyExists, "File exists"⟩
  else Program.durable fileOperationFailed (ArchiveDisk.putEntry id ⟨none, none, 0⟩)

/-- `change`, to delete.  `unreferenced` is the result of `ensure_unreferenced`. -/
def deleteProfile (env : ArchiveEnv) (guard unreferenced : Except IoError Unit) (name : String)
    (i : Instance) (now : Nat) : Program ArchiveDisk IoError ChangeReport := do
  Program.ofExcept guard
  let catalog ← loadCatalog
  Program.inspect (checkDelete env unreferenced catalog name)
  Program.durable fileOperationFailed ArchiveDisk.makeParent
  createEntry (newInstanceId i)
  publishChange env (newInstanceId i)
    ⟨1, newInstanceId i, env.dataRootId, env.home, name, now, .archiving⟩ false catalog

def checkRestore (env : ArchiveEnv) (id : String) (s : ArchiveDisk) : Except IoError Record := do
  let r ← readRecord env id s
  if r.phase ≠ .archived then throw (invalid "A partially deleted profile cannot be restored")
  if ((s.entry id).bind Entry.payload).isNone then throw ⟨.notFound, "No such file or directory"⟩
  if (s.profiles (env.key r.profile)).isSome then
    throw (invalid "A profile with this name already exists; nothing was overwritten")
  pure r

/-- `change`, to restore. -/
def restoreProfile (env : ArchiveEnv) (guard : Except IoError Unit) (id : String) :
    Program ArchiveDisk IoError ChangeReport := do
  Program.ofExcept guard
  let catalog ← loadCatalog
  let r ← Program.inspect (checkRestore env id)
  publishChange env id r true catalog

inductive ArchiveCall where
  | delete (guard unreferenced : Except IoError Unit) (name : String) (i : Instance) (now : Nat)
  | restore (guard : Except IoError Unit) (id : String)
  | purge (guard : Except IoError Unit) (id : String)
  | recover (guard : Except IoError Unit)

def archiveCall (env : ArchiveEnv) : ArchiveCall → Program ArchiveDisk IoError Unit
  | .delete guard unreferenced name i now =>
      (fun _ => ()) <$> deleteProfile env guard unreferenced name i now
  | .restore guard id => (fun _ => ()) <$> restoreProfile env guard id
  | .purge guard id => purge env guard id
  | .recover guard => recoverIfPresent env guard

end DshNexus.Agent.ProfileArchive
