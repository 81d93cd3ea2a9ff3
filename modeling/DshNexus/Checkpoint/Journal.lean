import DshNexus.Release.Store
import DshNexus.Snapshot.Restore

/-!
# The journal of a checkpoint restore

`crates/nexus-core/src/lib.rs`: the profile catalog, the intent of a checkpoint restore, and
the journal that holds it while the restore is under way.

A checkpoint restore works on four stores: the profile catalog, the release pointers, the
restore store of the profile, and the journal.  `CheckpointDisk` is all four, and the calls of
one store are calls on it through a lens.  The model follows one profile; its restore
environment says which.
-/

namespace DshNexus.Checkpoint

open Durable Release Snapshot

/-! ## Profiles -/

def PROFILE_SCHEMA_VERSION : Nat := 1
def MAX_PROFILE_NAME_LEN : Nat := 64
def MAX_CHECKPOINT_ID_LEN : Nat := 64
def DEFAULT_PROFILE : String := "web"
def CHECKPOINT_RESTORE_SCHEMA_VERSION : Nat := 1

/-- The characters of profile names and checkpoint ids. -/
def safeChars (text : String) : Bool :=
  text.toList.all fun c => c.isAlphanum || c = '.' || c = '_' || c = '-'

def validateProfileName (name : String) : Except IoError Unit :=
  if name.isEmpty = true then .error ⟨.invalidInput, "profile name cannot be empty"⟩
  else if name.utf8ByteSize > MAX_PROFILE_NAME_LEN then
    .error ⟨.invalidInput,
      "profile name exceeds " ++ toString MAX_PROFILE_NAME_LEN ++ " bytes"⟩
  else if name = "." ∨ name = ".." ∨ safeChars name = false then
    .error ⟨.invalidInput,
      "profile name must contain only ASCII letters, digits, '.', '_', or '-'"⟩
  else .ok ()

structure ProfileCatalog where
  schemaVersion : Nat
  activeProfile : String
  profiles : List String
  deriving DecidableEq, Repr

namespace ProfileCatalog

def initial : ProfileCatalog := ⟨PROFILE_SCHEMA_VERSION, DEFAULT_PROFILE, [DEFAULT_PROFILE]⟩

def normalize (catalog : ProfileCatalog) : Except IoError ProfileCatalog :=
  if catalog.schemaVersion > PROFILE_SCHEMA_VERSION then
    .error (invalidData "Unsupported profile catalog schema")
  else do
    validateProfileName catalog.activeProfile
    let profiles := if catalog.profiles.isEmpty then [DEFAULT_PROFILE] else catalog.profiles
    profiles.forM validateProfileName
    let profiles :=
      if profiles.contains catalog.activeProfile then profiles
      else profiles ++ [catalog.activeProfile]
    pure ⟨if catalog.schemaVersion = 0 then PROFILE_SCHEMA_VERSION else catalog.schemaVersion,
      catalog.activeProfile, (profiles.insertionSort (· ≤ ·)).dedup⟩

def new (activeProfile : String) (profiles : List String) : Except IoError ProfileCatalog :=
  normalize ⟨PROFILE_SCHEMA_VERSION, activeProfile, profiles⟩

end ProfileCatalog

/-- `ProfileStore::read_unlocked`. -/
def readProfiles (profiles : Option ProfileCatalog) : Except IoError (Option ProfileCatalog) :=
  match profiles with
  | none => .ok none
  | some catalog =>
      if catalog.schemaVersion > PROFILE_SCHEMA_VERSION then
        .error (invalidData "Unsupported profile catalog schema")
      else .ok (some catalog)

/-- `publish_with_history`; the history is auxiliary and its failures are ignored. -/
def publishProfiles (catalog : ProfileCatalog) : Program (Option ProfileCatalog) IoError Unit :=
  Program.durable fileOperationFailed fun _ => some catalog

/-- `ProfileStore::load`. -/
def loadProfiles : Program (Option ProfileCatalog) IoError ProfileCatalog := do
  match ← Program.inspect readProfiles with
  | none => do
      publishProfiles .initial
      pure .initial
  | some before => do
      let catalog ← Program.ofExcept before.normalize
      if catalog ≠ before then publishProfiles catalog else pure ()
      pure catalog

/-- `ProfileStore::write`. -/
def writeProfiles (catalog : ProfileCatalog) : Program (Option ProfileCatalog) IoError Unit := do
  let _ ← Program.inspect readProfiles
  let catalog ← Program.ofExcept catalog.normalize
  publishProfiles catalog

/-! ## Intents -/

inductive CheckpointRestorePhase where
  | prepared
  | committed
  deriving DecidableEq, Repr

structure BoundSnapshotRestore (δ : Type) where
  ticket : RestoreTicket δ
  dshHome : String
  profileName : String
  deriving DecidableEq, Repr

structure CheckpointRestoreIntent (δ : Type) where
  checkpointId : String
  previousProfiles : ProfileCatalog
  previousCurrentRelease : Option String
  previousLastKnownGood : Option String
  targetProfiles : ProfileCatalog
  targetCurrentRelease : Option String
  targetLastKnownGood : Option String
  snapshot : Option (BoundSnapshotRestore δ)
  deriving DecidableEq, Repr

structure CheckpointRestoreJournal (δ : Type) where
  processOwnerVersion : Nat
  schemaVersion : Nat
  phase : CheckpointRestorePhase
  intent : CheckpointRestoreIntent δ
  error : Option String
  deriving DecidableEq, Repr

structure CheckpointDisk (δ : Type) where
  profiles : Option ProfileCatalog
  releases : ReleaseDisk δ
  restore : RestoreDisk δ
  journal : Option (CheckpointRestoreJournal δ)

/-- What no call of a checkpoint restore changes. -/
structure CheckpointEnvironment (δ : Type) where
  releases : ReleaseEnvironment δ
  restore : RestoreEnvironment δ
  /-- the resolved DSH home -/
  dshHome : String
  /-- whether a DSH home is absolute and free of control characters -/
  isDshHome : String → Bool
  /-- `same_native_path` -/
  sameNativePath : String → String → Bool
  sameNativePath_refl : ∀ path, sameNativePath path path = true
  /-- `snapshot_error` -/
  snapshotError : SnapshotError → IoError

/-- A call on the stores of a checkpoint restore. -/
abbrev CheckpointProgram (δ : Type) := Program (CheckpointDisk δ) IoError

namespace CheckpointDisk

variable {δ : Type}

/-- The profile catalog in the larger store. -/
def profilesLens : Lens (CheckpointDisk δ) (Option ProfileCatalog) where
  get := profiles
  put profiles disk := { disk with profiles }
  get_put _ _ := rfl
  put_get _ := rfl
  put_put _ _ _ := rfl

/-- The release store in the larger store. -/
def releasesLens : Lens (CheckpointDisk δ) (ReleaseDisk δ) where
  get := releases
  put releases disk := { disk with releases }
  get_put _ _ := rfl
  put_get _ := rfl
  put_put _ _ _ := rfl

/-- The restore store in the larger store. -/
def restoreLens : Lens (CheckpointDisk δ) (RestoreDisk δ) where
  get := restore
  put restore disk := { disk with restore }
  get_put _ _ := rfl
  put_get _ := rfl
  put_put _ _ _ := rfl

end CheckpointDisk

section Calls

variable {δ : Type} {α : Type} (env : CheckpointEnvironment δ)

def onProfiles (p : Program (Option ProfileCatalog) IoError α) : CheckpointProgram δ α :=
  p.zoom CheckpointDisk.profilesLens id

def onReleases (p : ReleaseProgram δ α) : CheckpointProgram δ α :=
  p.zoom CheckpointDisk.releasesLens id

def onRestore (p : RestoreProgram δ α) : CheckpointProgram δ α :=
  p.zoom CheckpointDisk.restoreLens env.snapshotError

/-! ## The journal -/

def validateCheckpointId (id : String) : Except IoError Unit :=
  if id.isEmpty = true ∨ id.utf8ByteSize > MAX_CHECKPOINT_ID_LEN ∨ id = "." ∨ id = ".." ∨
      safeChars id = false then
    .error ⟨.invalidInput, "checkpoint id must use a safe ASCII identifier"⟩
  else .ok ()

/-- A catalog of an intent is normalized. -/
def checkNormalized (catalog : ProfileCatalog) (name : String) : Except IoError Unit := do
  let normalized ← catalog.normalize
  if normalized ≠ catalog then
    throw (invalidData (name ++ " checkpoint profile catalog is not normalized"))
  else pure ()

/-- The two pointers of a selection differ. -/
def checkDistinct (current lastKnownGood : Option String) (name : String) : Except IoError Unit :=
  if current.isSome = true ∧ current = lastKnownGood then
    .error (invalidData (name ++ " checkpoint release pointers are equal"))
  else .ok ()

def checkBinding (targetProfile : String) (binding : BoundSnapshotRestore δ) :
    Except IoError Unit :=
  if env.isDshHome binding.dshHome = false then
    .error (invalidData "checkpoint snapshot restore must bind an absolute DSH home")
  else do
    validateProfileName binding.profileName
    if binding.profileName ≠ binding.ticket.profileName ∨ binding.profileName ≠ targetProfile then
      throw (invalidData "checkpoint snapshot restore profile binding is inconsistent")
    else pure ()

def validateCheckpointRestoreIntent (intent : CheckpointRestoreIntent δ) : Except IoError Unit := do
  validateCheckpointId intent.checkpointId
  checkNormalized intent.previousProfiles "previous"
  checkNormalized intent.targetProfiles "target"
  validateOptionalReleaseId intent.previousCurrentRelease
  validateOptionalReleaseId intent.previousLastKnownGood
  validateOptionalReleaseId intent.targetCurrentRelease
  validateOptionalReleaseId intent.targetLastKnownGood
  checkDistinct intent.previousCurrentRelease intent.previousLastKnownGood "previous"
  checkDistinct intent.targetCurrentRelease intent.targetLastKnownGood "target"
  match intent.snapshot with
  | none => pure ()
  | some binding => checkBinding env intent.targetProfiles.activeProfile binding

/-- `load_unlocked` of the journal, on what the file holds. -/
def readJournal (disk : CheckpointDisk δ) : Except IoError (Option (CheckpointRestoreJournal δ)) :=
  match disk.journal with
  | none => .ok none
  | some journal =>
      if journal.schemaVersion ≠ CHECKPOINT_RESTORE_SCHEMA_VERSION then
        .error (invalidData "unsupported checkpoint restore entry schema")
      else do
        validateCheckpointRestoreIntent env journal.intent
        pure (some journal)

/-- `load`. -/
def loadJournal : CheckpointProgram δ (Option (CheckpointRestoreJournal δ)) :=
  Program.inspect (readJournal env)

/-- `write_unlocked`. -/
def writeJournal (journal : Option (CheckpointRestoreJournal δ)) : CheckpointProgram δ Unit :=
  Program.durable fileOperationFailed fun disk => { disk with journal }

/-- `begin`. -/
def beginRestore (intent : CheckpointRestoreIntent δ) : CheckpointProgram δ Unit := do
  Program.ofExcept (validateCheckpointRestoreIntent env intent)
  match ← loadJournal env with
  | some _ =>
      throw ⟨.alreadyExists, "a checkpoint restore transaction is already pending"⟩
  | none =>
      writeJournal (some ⟨1, CHECKPOINT_RESTORE_SCHEMA_VERSION, .prepared, intent, none⟩)

variable [DecidableEq δ]

def markCommitted (intent : CheckpointRestoreIntent δ) : CheckpointProgram δ Unit := do
  match ← loadJournal env with
  | none => throw ⟨.notFound, "checkpoint restore journal is missing"⟩
  | some journal =>
      if journal.phase ≠ .prepared ∨ journal.intent ≠ intent then
        throw (invalidData "checkpoint restore journal changed before commit")
      else writeJournal (some { journal with phase := .committed, error := none })

def recordError (phase : CheckpointRestorePhase) (intent : CheckpointRestoreIntent δ)
    (error : String) : CheckpointProgram δ Unit := do
  match ← loadJournal env with
  | none => throw ⟨.notFound, "checkpoint restore journal is missing"⟩
  | some journal =>
      if journal.phase ≠ phase ∨ journal.intent ≠ intent then
        throw (invalidData "checkpoint restore journal changed before diagnostic update")
      else if error.isEmpty = true ∨ error.utf8ByteSize > 4096 ∨
          error.toList.any isControl = true then
        throw ⟨.invalidInput, "checkpoint restore diagnostic is empty, too long, or contains " ++
          "control characters"⟩
      else writeJournal (some { journal with error := some error })

/-- `clear`. -/
def clearJournal (phase : CheckpointRestorePhase) (intent : CheckpointRestoreIntent δ) :
    CheckpointProgram δ Unit := do
  match ← loadJournal env with
  | none => pure ()
  | some journal =>
      if journal.phase ≠ phase ∨ journal.intent ≠ intent then
        throw (invalidData "checkpoint restore journal changed before clear")
      else writeJournal none

end Calls

end DshNexus.Checkpoint
