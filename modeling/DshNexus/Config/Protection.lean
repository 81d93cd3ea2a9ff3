import Mathlib.Data.List.Infix
import DshNexus.Concurrent.Tasks
import DshNexus.Config.Saves

/-!
# Protection of Harness data

`crates/nexus-core/src/config_protection.rs` and `external_harness.rs`: before a save replaces
`config.json` it records where the Harness data of the old and of the new configuration is, so
that no release and no cleanup removes it.  `protected-harness-homes.json` has the Harness homes
below the data root, `external-harness-locations.json` the external Harness directories.  Several
processes write both; each takes `protection.lock`, reads the record and writes the union.

1. Paths, and the file system as far as the protection asks it.
2. The two records.
3. `protectHarnessHomes` and `protectLocations`, which extend them.
4. `ensureHarnessHomesPreserved`, which refuses to remove what overlaps a protected location.
5. The saves, as tasks of any number of processes.  The mutex of the configuration store serves
   one process only; no mutex is assumed here at all.
-/

namespace DshNexus.Config

open Durable Concurrent

/-! ## 1. Paths -/

/-- A component of a path after its prefix and root directory. -/
inductive Component where
  | normal (name : String)
  | curDir
  | parentDir
  deriving DecidableEq, Repr

/-- `std::path::Path`.  `start` is the prefix with the root directory; a relative path has none. -/
structure Path where
  start : Option String
  components : List Component
  deriving DecidableEq, Repr

namespace Path

def isAbsolute (p : Path) : Bool := p.start.isSome

/-- `Path::ancestors`, from the path itself up. -/
def ancestors (p : Path) : List Path :=
  (p.components.inits.map fun components => { p with components }).reverse

/-- `Path::join` with a relative path. -/
def join (p : Path) (relative : List Component) : Path :=
  { p with components := p.components ++ relative }

/-- `Path::strip_prefix` of an ancestor. -/
def stripPrefix (p ancestor : Path) : List Component :=
  p.components.drop ancestor.components.length

/-- `p` is `q` or contains it, by name. -/
def Contains (p q : Path) : Prop := p ∈ q.ancestors

end Path

/-- `invalid` of `config_protection.rs`. -/
def invalidProtection (message : String) : IoError := invalidData message

/-- `invalid` of `external_harness.rs`, an `io::Error::other`. -/
def otherError (message : String) : IoError := ⟨.other, message⟩

def validatePath (p : Path) : Except IoError Unit :=
  if p.isAbsolute = false ∨ (p.components.any fun c => c == .parentDir || c == .curDir) = true then
    .error (invalidProtection "Harness protection requires an absolute path without traversal")
  else .ok ()

/-- The directories at one time, as far as the protection asks for them. -/
structure FileTree where
  /-- `fs::canonicalize`, which follows every link -/
  canonicalize : Path → Except IoError Path
  /-- the volume and file numbers of a resolved path -/
  metadata : Path → Except IoError String
  /-- `path_is_reparse` of `fs::symlink_metadata` -/
  isReparse : Path → Except IoError Bool
  /-- a resolved path is a directory -/
  isDir : Path → Bool
  /-- a resolved path resolves to itself -/
  canonicalize_resolved : ∀ {p q}, canonicalize p = .ok q → canonicalize q = .ok q
  /-- a path that resolves exists -/
  metadata_resolved : ∀ {p q e}, canonicalize p = .ok q → metadata q = .error e →
    e.kind ≠ .notFound

namespace FileTree

variable (tree : FileTree)

/-- `identity`, the `data_root_identity` of a path. -/
def identity (p : Path) : Except IoError String := tree.canonicalize p >>= tree.metadata

/-- `existing_identity` in `paths_overlap_by_identity`. -/
def existingIdentity (p : Path) : Except IoError (Option String) :=
  match tree.identity p with
  | .ok id => .ok (some id)
  | .error e => if e.kind = .notFound then .ok none else .error e

/-- The loop of `contains`: one of the paths has the identity. -/
def anyIdentity (id : String) : List Path → Except IoError Bool
  | [] => .ok false
  | p :: ps => do
      let found ← tree.existingIdentity p
      if found = some id then pure true else anyIdentity id ps

/-- `contains` in `paths_overlap_by_identity`. -/
def contains (parent child : Path) : Except IoError Bool := do
  match ← tree.existingIdentity parent with
  | none => pure false
  | some parentId => do
      let named ← tree.anyIdentity parentId child.ancestors
      if named = true then pure true
      else
        match tree.canonicalize child with
        | .ok resolved => tree.anyIdentity parentId resolved.ancestors
        | .error _ => pure false

def pathsOverlapByIdentity (left right : Path) : Except IoError Bool := do
  let outside ← tree.contains left right
  if outside = true then pure true else tree.contains right left

/-- The loop over the ancestors of the data root in `protect_harness_homes`. -/
def rejectRootInside (homeId : String) (root : Path) : Except IoError Unit :=
  root.ancestors.forM fun ancestor => do
    let id ← tree.identity ancestor
    if id = homeId then
      throw (invalidProtection "Nexus data root is inside DSH_HOME; data was preserved")

/-- The loop over the ancestors of a home: its name below the data root. -/
def nameBelow (root : Path) (rootId homeId : String) (resolved : Path) :
    List Path → Except IoError (Option Path)
  | [] => .ok none
  | ancestor :: rest => do
      let id ← tree.identity ancestor
      if id = rootId then do
        let name := root.join (resolved.stripPrefix ancestor)
        let localId ← tree.identity name
        if localId ≠ homeId then
          throw (invalidProtection
            "Harness home namespace identity is ambiguous; data was preserved")
        else pure (some name)
      else nameBelow root rootId homeId resolved rest

/-- What `protect_harness_homes` makes of one home: its name below the data root, or nothing when
it does not exist or is elsewhere. -/
def locateHome (root : Path) (rootId : String) (home : Path) : Except IoError (Option Path) := do
  validatePath home
  match tree.canonicalize home with
  | .error e => if e.kind = .notFound then pure none else throw e
  | .ok resolved =>
      if tree.isDir resolved = false then
        throw (invalidProtection "Harness home is not a directory")
      else do
        let homeId ← tree.identity resolved
        tree.rejectRootInside homeId root
        tree.nameBelow root rootId homeId resolved resolved.ancestors

end FileTree

/-! ## 2. The records -/

def LOCATION_BYTES : Nat := 1024 * 1024

structure ProtectedHomes where
  schemaVersion : Nat
  root : Path
  homes : List Path
  deriving DecidableEq, Repr

structure Locations where
  schemaVersion : Nat
  roots : List Path
  deriving DecidableEq, Repr

/-- The files that the protection is about. -/
structure ProtectionDisk where
  config : ConfigDisk
  /-- `protected-harness-homes.json` -/
  homes : Option Bytes
  /-- `external-harness-locations.json` -/
  locations : Option Bytes
  tree : FileTree

/-- The configuration files as a part of the disk. -/
def configLens : Lens ProtectionDisk ConfigDisk where
  get disk := disk.config
  put config disk := { disk with config }
  get_put _ _ := rfl
  put_get _ := rfl
  put_put _ _ _ := rfl

/-- The document codec with what the protection reads, and the environment of the process. -/
structure ProtectionCodec (ρ : Type) where
  document : ConfigCodec ρ
  /-- `harness_preferences.home` of a document -/
  home : ρ → Option String
  /-- `external_harness.root` of a document -/
  externalRoot : ρ → Option Path
  /-- `harness_preferences.home` of the file, read without the document codec -/
  rawHome : Bytes → Except IoError (Option String)
  /-- `external_harness.root` of the file, read without the document codec -/
  rawExternalRoot : Bytes → Except IoError (Option Path)
  /-- a text as a path -/
  path : String → Path
  decodeHomes : Bytes → Except IoError ProtectedHomes
  encodeHomes : ProtectedHomes → Except IoError Bytes
  decodeLocations : Bytes → Except IoError Locations
  encodeLocations : Locations → Except IoError Bytes
  /-- the data root as it was given to the process -/
  root : Path
  /-- `DSH_HOME` -/
  dshHome : Option Path
  /-- `HOME`, or `USERPROFILE` on Windows -/
  userHome : Option Path

def trim (text : String) : String :=
  String.ofList
    ((text.toList.dropWhile isWhitespace).reverse.dropWhile isWhitespace).reverse

namespace ProtectionCodec

variable {ρ : Type} (codec : ProtectionCodec ρ)

/-- A home preference as a path; a blank one names none. -/
def homePath (text : Option String) : Option Path :=
  text.bind fun text => if trim text = "" then none else some (codec.path (trim text))

def namedHome (document : NexusConfigFile ρ) : Option Path :=
  codec.homePath (codec.home document.sections)

/-- The external Harness directory that a document names. -/
def namedRoot (document : NexusConfigFile ρ) : Option Path := codec.externalRoot document.sections

/-- The codec reads back what it writes, and both ways to read a home agree. -/
structure Lawful : Prop where
  document : codec.document.Lawful
  rawHome_eq : ∀ {bytes document}, codec.document.decode bytes = .ok document →
    codec.rawHome bytes = .ok (codec.home document.sections)
  decode_encodeHomes : ∀ {record bytes}, codec.encodeHomes record = .ok bytes →
    codec.decodeHomes bytes = .ok record
  decode_encodeLocations : ∀ {record bytes}, codec.encodeLocations record = .ok bytes →
    codec.decodeLocations bytes = .ok record

def configuredHarnessHome (disk : ProtectionDisk) : Except IoError (Option Path) := do
  match ← readRegularFileBounded disk.config.config LIMIT with
  | none => pure none
  | some bytes => do
      let text ← codec.rawHome bytes
      pure (codec.homePath text)

def readProtectedHarnessHomes (disk : ProtectionDisk) (root : Path) :
    Except IoError (List Path) := do
  validatePath root
  match ← readRegularFileBounded disk.homes (1024 * 1024) with
  | none => pure []
  | some bytes => do
      let saved ← codec.decodeHomes bytes
      validatePath saved.root
      if saved.schemaVersion ≠ 1 ∨ saved.homes.length > 256 then
        throw (invalidProtection "Harness protection record does not match this data root")
      else do
        let savedId ← disk.tree.identity saved.root
        let rootId ← disk.tree.identity root
        if savedId ≠ rootId then
          throw (invalidProtection "Harness protection record does not match this data root")
        else do
          saved.homes.forM validatePath
          pure saved.homes

def protectedLocations (disk : ProtectionDisk) : Except IoError (List Path) := do
  match ← readRegularFileBounded disk.locations LOCATION_BYTES with
  | none => pure []
  | some bytes => do
      let saved ← codec.decodeLocations bytes
      if saved.schemaVersion ≠ 1 ∨ (saved.roots.any fun p => !p.isAbsolute) = true then
        throw (otherError "Invalid external source protection record")
      else pure saved.roots

end ProtectionCodec

/-! ## 3. Recording -/

abbrev ProtectionTask := Task ProtectionDisk IoError

def addLocation (locations : List Path) (location : Path) : List Path :=
  if location ∈ locations then locations else locations ++ [location]

namespace ProtectionStore

variable {ρ : Type} (codec : ProtectionCodec ρ)

/-- A step that may fail but changes nothing, such as taking the handle of the lock file. -/
def attempt : ProtectionTask Unit := Task.durable fileOperationFailed id

def rejectLinkedRoot (disk : ProtectionDisk) (root : Path) : Except IoError Unit :=
  root.ancestors.forM fun ancestor => do
    let reparse ← disk.tree.isReparse ancestor
    if reparse = true then
      throw (invalidProtection "Nexus data path contains a link; data was preserved")

/-- One round of the loop of `protect_harness_homes`. -/
def protectHome (root : Path) (rootId : String) (saved : List Path) (home : Path) :
    ProtectionTask (List Path) := do
  match ← Task.inspect fun disk => disk.tree.locateHome root rootId home with
  | none => pure saved
  | some name => pure (addLocation saved name)

def protectHarnessHomes (candidates : List Path) : ProtectionTask Unit := do
  Task.ofExcept (validatePath codec.root)
  Task.inspect fun disk => rejectLinkedRoot disk codec.root
  let root ← Task.inspect fun disk => disk.tree.canonicalize codec.root
  let rootId ← Task.inspect fun disk => disk.tree.identity root
  attempt
  Task.withLock do
    let homes ← Task.inspect fun disk => codec.readProtectedHarnessHomes disk root
    let saved ← (homes ++ candidates).foldlM (protectHome root rootId) homes
    if saved.length > 256 then
      Task.fail (invalidProtection "Too many protected Harness locations; data was preserved")
    else if saved = [] then pure ()
    else do
      let bytes ← Task.ofExcept (codec.encodeHomes ⟨1, root, saved⟩)
      Task.durable fileOperationFailed fun disk => { disk with homes := some bytes }

/-- `protect_locations` for the directories of the old and of the new document. -/
def protectLocations (old new : Option Path) : ProtectionTask Unit := do
  attempt
  Task.withLock do
    let previous ← Task.inspect codec.protectedLocations
    let roots := (old.toList ++ new.toList).foldl addLocation previous
    if roots = previous then pure ()
    else do
      let bytes ← Task.ofExcept (codec.encodeLocations ⟨1, roots⟩)
      if bytes.length > LOCATION_BYTES then
        Task.fail (otherError ("External source protection history is full (1 MiB). Keep the " ++
          "current source or choose a previously confirmed directory, then save again. Existing " ++
          "directory protection is retained."))
      else Task.durable fileOperationFailed fun disk => { disk with locations := some bytes }

/-! ## 4. Refusing -/

/-- The error of `ensure_harness_homes_preserved`. -/
def overlapsProtected : IoError :=
  ⟨.resourceBusy, "This directory contains or overlaps protected Harness data"⟩

/-- `external_harness.root` in `ensure_harness_homes_preserved`. -/
def configuredExternalRoot (disk : ProtectionDisk) : Except IoError (Option Path) := do
  match ← readRegularFileBounded disk.config.config LIMIT with
  | none => pure none
  | some bytes => codec.rawExternalRoot bytes

/-- `.dsh`, the default Harness home. -/
def dshDirectory : List Component := [.normal ".dsh"]

def ensureHarnessHomesPreserved (disk : ProtectionDisk) (target : Path) : Except IoError Unit := do
  validatePath target
  let saved ← codec.readProtectedHarnessHomes disk codec.root
  let configured ← codec.configuredHarnessHome disk
  let locations ← codec.protectedLocations disk
  let external ← configuredExternalRoot codec disk
  (saved ++ configured.toList ++ locations ++ external.toList ++ codec.dshHome.toList ++
      [codec.root.join dshDirectory] ++
      (codec.userHome.map (·.join dshDirectory)).toList).forM fun home => do
    validatePath home
    let overlaps ← disk.tree.pathsOverlapByIdentity target home
    if overlaps = true then throw overlapsProtected

/-! ## 5. The saves -/

variable [DecidableEq ρ]

/-- A call of the configuration store on the configuration files. -/
def onConfig {α : Type} (p : ConfigProgram α) : ProtectionTask α := Task.lift configLens p

/-- `write_unlocked`.  `ensure_directories` and the access rights of the two files are steps that
may fail; the directories of the store are there already. -/
def writeUnlocked (document : NexusConfigFile ρ) : ProtectionTask Unit := do
  onConfig (ConfigStore.settlePendingUnlocked codec.document.checks)
  let previous ← onConfig (DocumentStore.loadUnlocked codec.document)
  let document := document.savedOver previous
  let undo ← onConfig (readFile ConfigDisk.previous LIMIT)
  onConfig (ConfigStore.validatePrevious codec.document.checks undo)
  attempt
  let oldHome ← Task.inspect codec.configuredHarnessHome
  protectHarnessHomes codec
    (oldHome.toList ++ (codec.namedHome document).toList ++ codec.dshHome.toList)
  protectLocations codec (codec.namedRoot previous) (codec.namedRoot document)
  attempt
  let disk ← onConfig Program.read
  if previous = document ∧ disk.config.isSome = true then pure ()
  else onConfig (DocumentStore.publishConfigUnlocked codec.document document true)

def load : ProtectionTask (NexusConfigFile ρ) := onConfig do
  ConfigStore.settlePendingUnlocked codec.document.checks
  DocumentStore.loadUnlocked codec.document

def writeRecoveryDocument (document : NexusConfigFile ρ) : ProtectionTask Unit := do
  onConfig (DocumentStore.validateConfigDocument codec.document document)
  writeUnlocked codec document

def writeIfCurrent (expected document : NexusConfigFile ρ) : ProtectionTask Bool := do
  onConfig (DocumentStore.validateConfigDocument codec.document document)
  let current ← load codec
  if current ≠ expected then pure false
  else do
    writeUnlocked codec document.revoked
    pure true

def transaction (update : DocumentStore.Edit ρ) : ProtectionTask (NexusConfigFile ρ) := do
  let document ← load codec
  let document ← onConfig (Program.inspect fun disk => update disk document)
  onConfig (DocumentStore.validateConfigDocument codec.document document)
  writeUnlocked codec document
  onConfig (DocumentStore.loadUnlocked codec.document)

def transactionIfRevision (expected : String) (update : DocumentStore.Edit ρ) :
    ProtectionTask (NexusConfigFile ρ) := do
  let document ← load codec
  let disk ← onConfig Program.read
  if DocumentStore.revision codec.document disk.config ≠ expected then
    Task.fail DocumentStore.configRevisionConflict
  else do
    let document ← onConfig (Program.inspect fun disk => update disk document)
    onConfig (DocumentStore.validateConfigDocument codec.document document)
    writeUnlocked codec document
    onConfig (DocumentStore.loadUnlocked codec.document)

def restorePrevious : ProtectionTask (NexusConfigFile ρ) := do
  onConfig (ConfigStore.settlePendingUnlocked codec.document.checks)
  let previous ← onConfig (Program.inspect (DocumentStore.previousDocument codec.document))
  onConfig (DocumentStore.validateConfigDocument codec.document previous)
  writeUnlocked codec previous
  pure previous

end ProtectionStore

/-- The saves of the configuration store, and the load that settles an interrupted one. -/
inductive ConfigSave (ρ : Type) where
  | load
  | write (document : NexusConfigFile ρ)
  | writeRecoveryDocument (document : NexusConfigFile ρ)
  | writeIfCurrent (expected document : NexusConfigFile ρ)
  | transaction (update : DocumentStore.Edit ρ)
  | transactionIfRevision (expected : String) (update : DocumentStore.Edit ρ)
  | restorePrevious
  | restorePreviousIfRevision (expected : String)

def ConfigSave.task {ρ : Type} [DecidableEq ρ] (codec : ProtectionCodec ρ) :
    ConfigSave ρ → ProtectionTask Unit
  | .load => do let _ ← ProtectionStore.load codec
  | .write document => ProtectionStore.writeRecoveryDocument codec document.revoked
  | .writeRecoveryDocument document => ProtectionStore.writeRecoveryDocument codec document
  | .writeIfCurrent expected document => do
      let _ ← ProtectionStore.writeIfCurrent codec expected document
  | .transaction update => do let _ ← ProtectionStore.transaction codec update
  | .transactionIfRevision expected update => do
      let _ ← ProtectionStore.transactionIfRevision codec expected update
  | .restorePrevious => do let _ ← ProtectionStore.restorePrevious codec
  | .restorePreviousIfRevision expected => do
      let _ ← ProtectionStore.transactionIfRevision codec expected fun disk _ =>
        DocumentStore.previousDocument codec.document disk

/-- The saves of any number of processes on one data root, beside others that make, move and
remove directories. -/
def savingProcesses {ρ : Type} [DecidableEq ρ] (codec : ProtectionCodec ρ)
    (start : ProtectionDisk) :
    System (Shared ProtectionDisk IoError) (Turn (ConfigSave ρ) FileTree) :=
  interleaved (ConfigSave.task codec) (fun tree disk => some { disk with tree }) start

end DshNexus.Config
