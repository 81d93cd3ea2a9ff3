import DshNexus.Core.Io
import DshNexus.Core.StableSort

/-!
# The release store: what is on disk, and how it is read

`crates/nexus-core/src/lib.rs`: the release slots, the pointer document with its health
evidence, and the effective catalog that `load_unlocked` makes of them.  The external
ownership records of `crates/nexus-core/src/maintenance.rs` take a slot out of the catalog
while it is being removed.

A slot is the set of the ordinary files below it.  The manifests are stored as bytes, with
`serde_json` as a parameter; the pointer document and the ownership records hold typed
records, since what the code writes there it reads back.

* `loadUnlocked_eq_ok`: what a catalog that was read says about the disk.
* `verifiedFallback_eq`: the fallback is the release of the newest health record that still
  matches its slot.
-/

namespace DshNexus.Release

/-! ## Manifests -/

def RELEASE_SCHEMA_VERSION : Nat := 1
def MAX_RELEASE_ID_LEN : Nat := 128
def MAX_RELEASE_VERSION_LEN : Nat := 128
def MAX_RELEASE_TEXT_LEN : Nat := 4096

structure ReleaseManifest where
  id : String
  version : String
  installedAtUnix : Nat
  source : Option String
  note : Option String
  deriving DecidableEq, Repr

def validateReleaseId (id : String) : Except IoError Unit :=
  let validChars := id.toList.all fun c => c.isAlphanum || c = '.' || c = '_' || c = '-'
  if id.isEmpty ∨ id.utf8ByteSize > MAX_RELEASE_ID_LEN ∨ id = "." ∨ id = ".." ∨
      validChars = false then
    .error ⟨.invalidInput, "release id must use a safe ASCII identifier"⟩
  else .ok ()

def isValidReleaseId (id : String) : Bool := (validateReleaseId id).isOk

def validateReleaseText (value label : String) : Except IoError Unit :=
  if value.toList.any isControl = true then
    .error ⟨.invalidInput, label ++ " contains a control character"⟩
  else .ok ()

def validateReleaseVersion (version : String) : Except IoError Unit :=
  if version.isEmpty ∨ version.utf8ByteSize > MAX_RELEASE_VERSION_LEN then
    .error ⟨.invalidInput,
      "release version must be 1-" ++ toString MAX_RELEASE_VERSION_LEN ++ " bytes"⟩
  else validateReleaseText version "release version"

def validateOptionalReleaseText (value : Option String) (label : String) : Except IoError Unit :=
  match value with
  | none => .ok ()
  | some value =>
      if value.utf8ByteSize > MAX_RELEASE_TEXT_LEN then
        .error ⟨.invalidInput, label ++ " exceeds " ++ toString MAX_RELEASE_TEXT_LEN ++ " bytes"⟩
      else validateReleaseText value label

def validateReleaseManifest (manifest : ReleaseManifest) : Except IoError Unit := do
  validateReleaseId manifest.id
  validateReleaseVersion manifest.version
  validateOptionalReleaseText manifest.source "release source"
  validateOptionalReleaseText manifest.note "release note"

/-! ## Catalogs -/

structure ReleaseCatalog where
  unavailableSelections : List String
  schemaVersion : Nat
  currentRelease : Option String
  lastKnownGood : Option String
  releases : List ReleaseManifest
  deriving DecidableEq, Repr

namespace ReleaseCatalog

def find (catalog : ReleaseCatalog) (id : String) : Option ReleaseManifest :=
  catalog.releases.find? fun release => release.id = id

/-- The manifests are valid, and their ids differ.  The result is the list of the ids. -/
def checkReleases : List ReleaseManifest → List String → Except IoError (List String)
  | [], ids => .ok ids
  | release :: releases, ids => do
      validateReleaseManifest release
      if ids.contains release.id = true then
        throw (invalidData "release catalog contains duplicate ids")
      else checkReleases releases (release.id :: ids)

def checkPointer (ids : List String) : Option String → Except IoError Unit
  | none => .ok ()
  | some id => do
      validateReleaseId id
      if ids.contains id = true then pure ()
      else throw (invalidData ("release pointer references unknown id: " ++ id))

/-- The order of a normalized catalog: the newest installation first. -/
def NewestFirst (left right : ReleaseManifest) : Prop :=
  right.installedAtUnix < left.installedAtUnix ∨
    (right.installedAtUnix = left.installedAtUnix ∧ right.id ≤ left.id)

instance : DecidableRel NewestFirst := fun left right =>
  inferInstanceAs (Decidable (right.installedAtUnix < left.installedAtUnix ∨
    (right.installedAtUnix = left.installedAtUnix ∧ right.id ≤ left.id)))

def normalize (catalog : ReleaseCatalog) : Except IoError ReleaseCatalog := do
  let ids ← checkReleases catalog.releases []
  checkPointer ids catalog.currentRelease
  checkPointer ids catalog.lastKnownGood
  if catalog.currentRelease.isSome = true ∧ catalog.currentRelease = catalog.lastKnownGood then
    throw (invalidData "current and last-known-good release must differ")
  else
    pure { catalog with
      schemaVersion :=
        if catalog.schemaVersion = 0 then RELEASE_SCHEMA_VERSION else catalog.schemaVersion
      releases := catalog.releases.insertionSort NewestFirst }

end ReleaseCatalog

/-! ## The disk -/

abbrev RelativePath := List String

/-- `std::path::Component`. -/
inductive PathComponent where
  | normal (name : String)
  | parentDir
  | curDir
  | rootDir
  deriving DecidableEq, Repr

def normalPath : List PathComponent → Option RelativePath
  | [] => some []
  | .normal name :: components => (name :: ·) <$> normalPath components
  | _ :: _ => none

structure HealthyReleaseEvidence (δ : Type) where
  releaseId : String
  configRevision : String
  runId : String
  verifiedAtUnix : Nat
  entry : List PathComponent
  fingerprint : δ
  deriving DecidableEq, Repr

structure ReleasePointerDocument (δ : Type) where
  schemaVersion : Nat
  currentRelease : Option String
  lastKnownGood : Option String
  healthy : List (HealthyReleaseEvidence δ)
  deriving DecidableEq, Repr

/-- `EntryIdentity` of a file. -/
structure EntryIdentity (δ : Type) where
  relative : RelativePath
  contentSha256 : δ
  deriving DecidableEq, Repr

/-- `CleanupOwnership`, the record of a removal that has begun. -/
structure CleanupOwnership (δ : Type) where
  manifest : ReleaseManifest
  entries : List (EntryIdentity δ)
  deriving DecidableEq, Repr

abbrev Slot := AList fun _ : RelativePath => Bytes

/-- The slots by name, the ownership records by release, the pointer document, and the
configuration file. -/
structure ReleaseDisk (δ : Type) where
  slots : AList fun _ : String => Slot
  owned : AList fun _ : String => CleanupOwnership δ
  pointers : Option (ReleasePointerDocument δ)
  config : Option Bytes

structure ReleaseEnvironment (δ : Type) where
  maxSlots : Nat
  releasesDir : String
  sha256 : Bytes → δ
  /-- `encode_json` and `decode_json` on a manifest -/
  encodeManifest : ReleaseManifest → Bytes
  decodeManifest : Bytes → Except String ReleaseManifest
  decode_encode : ∀ manifest, decodeManifest (encodeManifest manifest) = .ok manifest
  /-- `encode_json` on the pointer document -/
  encodePointers : ReleasePointerDocument δ → Bytes
  /-- `fingerprint_digest` -/
  fingerprintDigest : List (EntryIdentity δ) → δ
  /-- the configuration with the paths of its launch in these slots made relative -/
  normalizeLaunch : List String → Option Bytes → Option Bytes

def manifestPath : RelativePath := ["manifest.json"]
def markerPath : RelativePath := [".nexus-cleanup.json"]

section Read

variable {δ : Type} [DecidableEq δ] (env : ReleaseEnvironment δ) (disk : ReleaseDisk δ)

/-! ## Health evidence -/

/-- `slot_dir`, as far as it can fail. -/
def slotDir (id : String) : Except IoError (Option Slot) := do
  validateReleaseId id
  pure (disk.slots.lookup id)

def healthFingerprint (id : String) (relativeEntry : List PathComponent) : Except IoError δ :=
  match normalPath relativeEntry with
  | none => .error (invalidData "Invalid release health entry")
  | some entry => do
      match ← slotDir disk id with
      | none => throw ⟨.notFound, "canonicalize"⟩
      | some slot =>
          match slot.lookup entry with
          | none => throw ⟨.notFound, "canonicalize"⟩
          | some content => do
              match ← readRegularFileBounded (slot.lookup manifestPath) 65536 with
              | none => throw (invalidData "Missing release manifest")
              | some manifest => do
                  match ← readRegularFileBounded (some content) (32 * 1024 * 1024) with
                  | none => throw (invalidData "Missing release entry")
                  | some bytes => pure (env.sha256 (manifest ++ bytes))

def healthEvidenceMatches (record : HealthyReleaseEvidence δ) : Except IoError Bool :=
  match healthFingerprint env disk record.releaseId record.entry with
  | .ok fingerprint => .ok (decide (fingerprint = record.fingerprint))
  | .error error =>
      if error.kind = .notFound ∨ error.kind = .invalidData ∨ error.kind = .invalidInput then
        .ok false
      else .error error

def healthRecords : Except IoError (List (HealthyReleaseEvidence δ)) :=
  match disk.pointers with
  | none => .ok []
  | some document =>
      if document.schemaVersion ≠ RELEASE_SCHEMA_VERSION ∨ document.healthy.length > 256 then
        .error (invalidData "Unsupported release health record")
      else .ok document.healthy

/-- The first record of another release that matches its slot. -/
def firstFallback (selected : Option String) :
    List (HealthyReleaseEvidence δ) → Except IoError (Option String)
  | [] => .ok none
  | record :: records =>
      if selected ≠ some record.releaseId then do
        if ← healthEvidenceMatches env disk record then pure (some record.releaseId)
        else firstFallback selected records
      else firstFallback selected records

/-- The order of the health records in `verified_fallback`. -/
def LatestFirst (left right : HealthyReleaseEvidence δ) : Prop :=
  right.verifiedAtUnix ≤ left.verifiedAtUnix

instance : DecidableRel (LatestFirst (δ := δ)) := fun left right =>
  inferInstanceAs (Decidable (right.verifiedAtUnix ≤ left.verifiedAtUnix))

def verifiedFallback (selected : Option String) : Except IoError (Option String) := do
  let records ← healthRecords disk
  firstFallback env disk selected (records.reverse.insertionSort LatestFirst)

/-! ## The effective catalog -/

def pointerDocument : ReleasePointerDocument δ :=
  disk.pointers.getD ⟨RELEASE_SCHEMA_VERSION, none, none, []⟩

/-- The release, if one of its health records matches its slot. -/
def verifiedRelease (id : String) : List (HealthyReleaseEvidence δ) → Except IoError (Option String)
  | [] => .ok none
  | record :: records =>
      if record.releaseId = id then do
        if ← healthEvidenceMatches env disk record then pure (some id)
        else verifiedRelease id records
      else verifiedRelease id records

/-- The stored last-known-good release, if it is verified. -/
def verifiedLkg : Except IoError (Option String) :=
  match (pointerDocument disk).lastKnownGood with
  | none => .ok none
  | some id => verifiedRelease env disk id (pointerDocument disk).healthy

/-- The entry of a slot in the catalog: a slot whose removal has begun has none, and a slot
without manifest is not selectable yet. -/
def catalogEntry (slotId : String) (slot : Slot) : Except IoError (Option ReleaseManifest) :=
  if isValidReleaseId slotId = true ∧ (disk.owned.lookup slotId).isSome = true then .ok none
  else if (slot.lookup markerPath).isSome = true then .ok none
  else
    match slot.lookup manifestPath with
    | none => .ok none
    | some bytes =>
        match env.decodeManifest bytes with
        | .error message =>
            .error (invalidData (env.releasesDir ++ "/" ++ slotId ++ "/manifest.json: " ++ message))
        | .ok manifest => do
            validateReleaseManifest manifest
            if manifest.id ≠ slotId then
              throw (invalidData "release directory does not match manifest id")
            else pure (some manifest)

/-- The entries of the slots, in the order of the directory. -/
def catalogEntries : List (Sigma fun _ : String => Slot) → Except IoError (List ReleaseManifest)
  | [] => .ok []
  | ⟨slotId, slot⟩ :: slots => do
      match ← catalogEntry env disk slotId slot with
      | none => catalogEntries slots
      | some manifest => (manifest :: ·) <$> catalogEntries slots

/-- A selection that is not in the catalog is left out of it, and listed. -/
def resolveSelection (releases : List ReleaseManifest) :
    Option String → Except IoError (Option String × List String)
  | none => .ok (none, [])
  | some id => do
      validateReleaseId id
      if releases.any (fun release => release.id = id) = true then pure (some id, [])
      else pure (none, [id])

def loadUnlocked : Except IoError ReleaseCatalog := do
  let pointers := pointerDocument disk
  if pointers.schemaVersion ≠ RELEASE_SCHEMA_VERSION then
    throw (invalidData "Unsupported release pointer schema")
  let lkg ← verifiedLkg env disk
  let releases ← catalogEntries env disk disk.slots.entries
  let (currentRelease, missingCurrent) ← resolveSelection releases pointers.currentRelease
  let (lastKnownGood, missingLkg) ← resolveSelection releases lkg
  ReleaseCatalog.normalize
    { unavailableSelections := ((missingCurrent ++ missingLkg).insertionSort (· ≤ ·)).dedup
      schemaVersion := RELEASE_SCHEMA_VERSION
      currentRelease
      lastKnownGood
      releases }

/-- `release_root_unlocked`: a release of the catalog, whose slot is there. -/
def releaseRootUnlocked (id : String) (catalog : ReleaseCatalog) : Except IoError Unit :=
  match catalog.find id with
  | none => .error ⟨.notFound, "release " ++ id ++ " was not found"⟩
  | some _ => do
      match ← slotDir disk id with
      | none => throw ⟨.notFound, "canonicalize"⟩
      | some _ => pure ()

def ensureSlotCapacity (catalog : ReleaseCatalog) : Except IoError Unit :=
  if catalog.releases.length ≥ env.maxSlots then
    .error ⟨.resourceBusy, "release slots are full (" ++ toString catalog.releases.length ++ "/" ++
      toString env.maxSlots ++ "); remove a slot first: " ++
      ", ".intercalate (catalog.releases.map (·.id))⟩
  else .ok ()

def pendingCleanup (id : String) : Except IoError (Option ReleaseManifest) := do
  validateReleaseId id
  match disk.owned.lookup id with
  | some ownership => do
      validateReleaseManifest ownership.manifest
      if ownership.manifest.id ≠ id then
        throw (invalidData "Pending release cleanup does not match its slot")
      else pure (some ownership.manifest)
  | none =>
      match (← slotDir disk id).bind fun slot => slot.lookup markerPath with
      | none => pure none
      | some bytes =>
          if bytes.length > 256 * 1024 then
            throw (invalidData "Pending release cleanup record is too large")
          else
            match env.decodeManifest bytes with
            | .error message => throw (invalidData
                (env.releasesDir ++ "/" ++ id ++ "/.nexus-cleanup.json: " ++ message))
            | .ok manifest => do
                validateReleaseManifest manifest
                if manifest.id ≠ id then
                  throw (invalidData "Pending release cleanup does not match its slot")
                else pure (some manifest)

end Read

end DshNexus.Release
