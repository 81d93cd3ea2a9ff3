import DshNexus.Durable.Session
import DshNexus.Release.Catalog

/-!
# The calls of the release store

`crates/nexus-core/src/lib.rs`: registration, promotion, health observation, rollback and
removal of releases, and `crates/nexus-core/src/maintenance.rs`: the deletion of an owned
directory.

Every write, rename and deletion of a file is one durable step; a call reads the slots
between its steps.  What other stores say (whether a release is in use, what the inspection
of a candidate directory finds) is an input of the call.
-/

namespace DshNexus.Release

open Durable

abbrev ReleaseProgram (δ : Type) := Program (ReleaseDisk δ) IoError

/-! ## Changes of the disk -/

namespace ReleaseDisk

variable {δ : Type} (disk : ReleaseDisk δ)

def putSlot (id : String) (slot : Slot) : ReleaseDisk δ :=
  { disk with slots := disk.slots.insert id slot }

def removeSlot (id : String) : ReleaseDisk δ := { disk with slots := disk.slots.erase id }

/-- Change the files of a slot; the slot is created where it is missing. -/
def modifySlot (id : String) (f : Slot → Slot) : ReleaseDisk δ :=
  disk.putSlot id (f ((disk.slots.lookup id).getD ∅))

def putOwned (id : String) (ownership : CleanupOwnership δ) : ReleaseDisk δ :=
  { disk with owned := disk.owned.insert id ownership }

def removeOwned (id : String) : ReleaseDisk δ := { disk with owned := disk.owned.erase id }

end ReleaseDisk

section Calls

variable {δ : Type} [DecidableEq δ] (env : ReleaseEnvironment δ)

/-! ## Pointers -/

def writePointers (catalog : ReleaseCatalog) : ReleaseProgram δ Unit := do
  let healthy ← Program.inspect healthRecords
  Program.durable fileOperationFailed fun disk =>
    { disk with
      pointers := some ⟨RELEASE_SCHEMA_VERSION, catalog.currentRelease, catalog.lastKnownGood,
        healthy⟩ }

/-- `retarget_launch_placeholder`.  The transaction of the configuration file is one step. -/
def retargetLaunchPlaceholder (newCurrent : Option String) : ReleaseProgram δ Unit :=
  match newCurrent with
  | none => pure ()
  | some _ => do
      let catalog ← Program.inspect (loadUnlocked env)
      catalog.releases.forM fun release =>
        Program.inspect fun disk => releaseRootUnlocked disk release.id catalog
      Program.durable fileOperationFailed fun disk =>
        { disk with config := env.normalizeLaunch (catalog.releases.map (·.id)) disk.config }

/-! ## Registration -/

/-- The temporary file of `write_json_atomic`. -/
def temporaryPath : RelativePath := [".manifest.json.tmp"]

/-- `write_json_atomic` of the manifest of a slot. -/
def writeManifest (id : String) (bytes : Bytes) : ReleaseProgram δ Unit := do
  Program.durable fileOperationFailed fun disk =>
    disk.modifySlot id fun slot => slot.insert temporaryPath []
  tryCatch
    (do
      Program.durable fileOperationFailed fun disk =>
        disk.modifySlot id fun slot => slot.insert temporaryPath bytes
      Program.durable fileOperationFailed fun disk =>
        disk.modifySlot id fun slot => (slot.erase temporaryPath).insert manifestPath bytes)
    fun e => do
      Program.ignoreError (Program.durable fileOperationFailed fun disk =>
        disk.modifySlot id fun slot => slot.erase temporaryPath)
      throw e

structure Registration where
  id : String
  version : String
  source : Option String
  note : Option String
  /-- the clock -/
  installedAtUnix : Nat

def Registration.manifest (request : Registration) : ReleaseManifest :=
  ⟨request.id, request.version, request.installedAtUnix, request.source, request.note⟩

/-- The checks that `register` and `register_prepared` begin with. -/
def beginRegistration (request : Registration) : ReleaseProgram δ ReleaseCatalog := do
  Program.ofExcept (validateReleaseId request.id)
  Program.ofExcept (validateReleaseVersion request.version)
  Program.ofExcept (validateOptionalReleaseText request.source "release source")
  Program.ofExcept (validateOptionalReleaseText request.note "release note")
  match ← Program.inspect fun disk => pendingCleanup env disk request.id with
  | some _ =>
      throw ⟨.resourceBusy, "Finish the previous cleanup before reusing this release id"⟩
  | none => do
      let catalog ← Program.inspect (loadUnlocked env)
      if (catalog.find request.id).isSome = true then
        throw ⟨.alreadyExists, "release " ++ request.id ++ " is already registered"⟩
      else pure catalog

def withRelease (catalog : ReleaseCatalog) (manifest : ReleaseManifest) :
    Except IoError ReleaseCatalog :=
  { catalog with releases := catalog.releases ++ [manifest] }.normalize

def register (request : Registration) : ReleaseProgram δ ReleaseCatalog := do
  let catalog ← beginRegistration env request
  Program.ofExcept (ensureSlotCapacity env catalog)
  -- `create_dir_all`: a slot that is there is kept
  Program.durable fileOperationFailed fun disk => disk.modifySlot request.id id
  writeManifest request.id (env.encodeManifest request.manifest)
  Program.ofExcept (withRelease catalog request.manifest)

/-- A candidate directory below `downloads`. -/
structure PreparedCandidate where
  /-- whether it is a directory below `downloads` -/
  inspection : Except IoError Unit
  files : Slot
  /-- its absolute links, or why they cannot be published -/
  links : Except IoError (List RelativePath)

def registerPrepared (candidate : PreparedCandidate) (request : Registration) :
    ReleaseProgram δ ReleaseCatalog := do
  let catalog ← beginRegistration env request
  Program.ofExcept candidate.inspection
  Program.ofExcept (ensureSlotCapacity env catalog)
  let disk ← Program.read
  if (disk.slots.lookup request.id).isSome = true then
    throw ⟨.alreadyExists, "release slot " ++ request.id ++ " already exists"⟩
  else if (candidate.files.lookup manifestPath).isSome = true then
    throw (invalidData "prepared candidate must not supply a release manifest")
  else do
    let links ← Program.ofExcept candidate.links
    if (candidate.files.lookup markerPath).isSome = true then
      throw (invalidData "Prepared candidate supplies a cleanup marker")
    else do
      -- the marker is written into the candidate, which then becomes the slot
      Program.attempt fileOperationFailed
      let marker := env.encodeManifest request.manifest
      Program.durable fileOperationFailed fun disk =>
        disk.putSlot request.id (candidate.files.insert markerPath marker)
      links.forM fun _ => Program.attempt fileOperationFailed
      Program.durable fileOperationFailed fun disk =>
        disk.modifySlot request.id fun slot =>
          (slot.erase markerPath).insert manifestPath marker
      Program.ofExcept (withRelease catalog request.manifest)

/-! ## Selection -/

/-- The eight bytes of `u64::to_le_bytes`. -/
def toLeBytes (n : Nat) : Bytes := (List.range 8).map fun i => UInt8.ofNat (n / 256 ^ i)

/-- `promotion_confirmation_unlocked`: a digest of the target, the pointers, the configuration
and the manifest of the target. -/
def promotionConfirmationUnlocked (disk : ReleaseDisk δ) (id : String) : Except IoError δ := do
  let slot ← slotDir disk id
  let files ← [disk.pointers.map env.encodePointers, disk.config,
    slot.bind fun slot => slot.lookup manifestPath].mapM fun file =>
      readRegularFileBounded file (1024 * 1024)
  pure (env.sha256 (id.toUTF8.toList ++ files.flatMap fun file =>
    toLeBytes (file.getD []).length ++ file.getD []))

def ensureRollbackProtectionUnlocked (disk : ReleaseDisk δ) (id : String) : Except IoError Unit :=
  match disk.pointers with
  | none => .ok ()
  | some document =>
      if document.schemaVersion ≠ RELEASE_SCHEMA_VERSION then
        .error (invalidData "Unsupported release pointer schema")
      else if document.currentRelease = some id ∨
          (document.currentRelease = none ∧ document.lastKnownGood = none) then .ok ()
      else do
        match ← verifiedFallback env disk (some id) with
        | some _ => pure ()
        | none => throw ⟨.wouldBlock, "rollback_health_required: No verified rollback target is " ++
            "available. Start the current Harness and complete its authenticated readiness check " ++
            "before switching versions. Legacy version pointers alone are not health evidence."⟩

/-- The protection that a forward publication needs, or the confirmation to do without. -/
def checkRollbackProtection (disk : ReleaseDisk δ) (id : String) (confirmation : Option δ) :
    Except IoError Unit :=
  match ensureRollbackProtectionUnlocked env disk id with
  | .ok () => .ok ()
  | .error e =>
      if e.kind ≠ .wouldBlock then .error e
      else do
        let token ← promotionConfirmationUnlocked env disk id
        if confirmation = some token then pure () else throw e

def promoteInner (id : String) (requireRollback : Bool) (confirmation : Option δ) :
    ReleaseProgram δ ReleaseCatalog := do
  Program.ofExcept (validateReleaseId id)
  let catalog ← Program.inspect (loadUnlocked env)
  if catalog.find id = none then throw ⟨.notFound, "release " ++ id ++ " was not found"⟩
  else do
    if requireRollback = true then
      Program.inspect fun disk => checkRollbackProtection env disk id confirmation
    else pure ()
    if catalog.currentRelease ≠ some id then do
      let fallback ← Program.inspect fun disk => verifiedFallback env disk (some id)
      let catalog ← Program.ofExcept
        { catalog with currentRelease := some id, lastKnownGood := fallback }.normalize
      retargetLaunchPlaceholder env (some id)
      writePointers catalog
      pure catalog
    else pure catalog

def promote (id : String) : ReleaseProgram δ ReleaseCatalog := promoteInner env id false none

def promoteWithRollback (id : String) : ReleaseProgram δ ReleaseCatalog :=
  promoteInner env id true none

def promoteConfirmed (id : String) (confirmation : Option δ) : ReleaseProgram δ ReleaseCatalog :=
  promoteInner env id true confirmation

def rollback : ReleaseProgram δ ReleaseCatalog := do
  let catalog ← Program.inspect (loadUnlocked env)
  match catalog.lastKnownGood with
  | none => throw ⟨.notFound, "no last-known-good release is available"⟩
  | some lastKnownGood => do
      let fallback ← Program.inspect fun disk => verifiedFallback env disk (some lastKnownGood)
      let catalog :=
        { catalog with currentRelease := some lastKnownGood, lastKnownGood := fallback }
      retargetLaunchPlaceholder env (some lastKnownGood)
      writePointers catalog
      pure catalog

/-- The optional release is in the catalog, and its slot is there. -/
def checkOptionalRoot (disk : ReleaseDisk δ) (catalog : ReleaseCatalog) :
    Option String → Except IoError Unit
  | none => .ok ()
  | some id => releaseRootUnlocked disk id catalog

def applyCheckpointRelease (disk : ReleaseDisk δ) (catalog : ReleaseCatalog)
    (releaseId : Option String) : Except IoError ReleaseCatalog := do
  checkOptionalRoot disk catalog releaseId
  if catalog.currentRelease ≠ releaseId then do
    let fallback ← verifiedFallback env disk releaseId
    { catalog with currentRelease := releaseId, lastKnownGood := fallback }.normalize
  else pure catalog

def validateOptionalReleaseId : Option String → Except IoError Unit
  | none => .ok ()
  | some id => validateReleaseId id

def restoreCheckpointRelease (releaseId : Option String) : ReleaseProgram δ ReleaseCatalog := do
  Program.ofExcept (validateOptionalReleaseId releaseId)
  let catalog ← Program.inspect (loadUnlocked env)
  let catalog ← Program.inspect fun disk => applyCheckpointRelease env disk catalog releaseId
  retargetLaunchPlaceholder env catalog.currentRelease
  writePointers catalog
  pure catalog

def planCheckpointRelease (releaseId : Option String) : ReleaseProgram δ ReleaseCatalog := do
  Program.ofExcept (validateOptionalReleaseId releaseId)
  let catalog ← Program.inspect (loadUnlocked env)
  Program.inspect fun disk => applyCheckpointRelease env disk catalog releaseId

def restoreReleasePointers (currentRelease lastKnownGood : Option String) :
    ReleaseProgram δ ReleaseCatalog := do
  Program.ofExcept (validateOptionalReleaseId currentRelease)
  Program.ofExcept (validateOptionalReleaseId lastKnownGood)
  let catalog ← Program.inspect (loadUnlocked env)
  Program.inspect fun disk => checkOptionalRoot disk catalog currentRelease
  Program.inspect fun disk => checkOptionalRoot disk catalog lastKnownGood
  if catalog.currentRelease ≠ currentRelease ∨ catalog.lastKnownGood ≠ lastKnownGood then do
    let catalog ← Program.ofExcept { catalog with currentRelease, lastKnownGood }.normalize
    writePointers catalog
    Program.inspect (loadUnlocked env)
  else Program.inspect (loadUnlocked env)

def storedReleasePointers : ReleaseProgram δ (Option String × Option String) :=
  Program.inspect fun disk =>
    match disk.pointers with
    | none => .ok (none, none)
    | some document =>
        if document.schemaVersion ≠ RELEASE_SCHEMA_VERSION then
          .error (invalidData "Unsupported release pointer schema")
        else do
          let catalog ← loadUnlocked env disk
          checkOptionalRoot disk catalog document.currentRelease
          checkOptionalRoot disk catalog document.lastKnownGood
          pure (document.currentRelease, document.lastKnownGood)

/-! ## Health -/

/-- The observation is complete, and its release is as it was launched. -/
def checkObservation (evidence : HealthyReleaseEvidence δ) (disk : ReleaseDisk δ) :
    Except IoError Unit :=
  if evidence.runId.isEmpty ∨ evidence.configRevision.isEmpty then
    .error (invalidData "Release changed since the healthy launch")
  else do
    let fingerprint ← healthFingerprint env disk evidence.releaseId evidence.entry
    if evidence.fingerprint ≠ fingerprint then
      throw (invalidData "Release changed since the healthy launch")
    else pure ()

/-- The health records with a new one: releases that are gone lose theirs. -/
def withObservation (catalog : ReleaseCatalog) (evidence : HealthyReleaseEvidence δ) (now : Nat)
    (records : List (HealthyReleaseEvidence δ)) : List (HealthyReleaseEvidence δ) :=
  (records.filter fun item =>
    decide (item.releaseId ≠ evidence.releaseId) && (catalog.find item.releaseId).isSome) ++
      [{ evidence with verifiedAtUnix := now }]

def recordHealthyRelease (evidence : HealthyReleaseEvidence δ) (now : Nat) :
    ReleaseProgram δ Unit := do
  Program.inspect (checkObservation env evidence)
  let catalog ← Program.inspect (loadUnlocked env)
  if catalog.currentRelease ≠ some evidence.releaseId then
    throw (invalidData "Healthy observation belongs to an older selection")
  else do
    let records ← Program.inspect healthRecords
    if (withObservation catalog evidence now records).length > 256 then
      throw (invalidData "Release health record capacity reached")
    else
      Program.durable fileOperationFailed fun disk =>
        { disk with
          pointers := some ⟨RELEASE_SCHEMA_VERSION, catalog.currentRelease,
            catalog.lastKnownGood, withObservation catalog evidence now records⟩ }

/-! ## Removal -/

/-- `fingerprint` of a slot: its files, in the order of their paths. -/
def fingerprint (slot : Slot) : List (EntryIdentity δ) :=
  (slot.entries.map fun file => (⟨file.1, env.sha256 file.2⟩ : EntryIdentity δ)).insertionSort
    fun left right => left.relative ≤ right.relative

/-- A file that is found must be one that the record lists, with the content it lists. -/
def checkRemaining (ownership : CleanupOwnership δ) (entry : EntryIdentity δ) :
    Except IoError Unit :=
  match ownership.entries.find? fun original => original.relative = entry.relative with
  | none => .error (invalidData "New contents appeared in a cleanup target; they were preserved")
  | some original =>
      if entry.contentSha256 ≠ original.contentSha256 then
        .error (invalidData "A cleanup target changed identity or content; it was preserved")
      else .ok ()

def remaining (ownership : CleanupOwnership δ) (id : String) (disk : ReleaseDisk δ) :
    Except IoError (Option (List (EntryIdentity δ))) :=
  match disk.slots.lookup id with
  | none => .ok none
  | some slot => do
      (fingerprint env slot).forM (checkRemaining ownership)
      pure (some (fingerprint env slot))

/-- The files are those that were confirmed, where a confirmation is given. -/
def checkConfirmed (entries : List (EntryIdentity δ)) (expected : Option δ) : Except IoError Unit :=
  match expected with
  | none => .ok ()
  | some expected =>
      if env.fingerprintDigest entries ≠ expected then
        .error (invalidData "Cleanup target changed after confirmation")
      else .ok ()

def beginBound (id : String) (manifest : ReleaseManifest) (expected : Option δ) :
    ReleaseProgram δ (CleanupOwnership δ) := do
  let disk ← Program.read
  match disk.owned.lookup id with
  | some ownership => do
      let entries ← Program.inspect (remaining env ownership id)
      Program.ofExcept (checkConfirmed env (entries.getD []) expected)
      pure ownership
  | none =>
      match disk.slots.lookup id with
      | none => throw ⟨.notFound, "inspect cleanup target"⟩
      | some slot => do
          Program.ofExcept (checkConfirmed env (fingerprint env slot) expected)
          let ownership := ⟨manifest, fingerprint env slot⟩
          Program.durable fileOperationFailed fun disk => disk.putOwned id ownership
          pure ownership

/-- A file that is about to be deleted is still the one that was inspected. -/
def checkUnchanged (id : String) (entry : EntryIdentity δ) (disk : ReleaseDisk δ) :
    Except IoError Unit :=
  match (disk.slots.lookup id).bind fun slot => slot.lookup entry.relative with
  | none => .error ⟨.notFound, "inspect cleanup entry"⟩
  | some bytes =>
      if env.sha256 bytes ≠ entry.contentSha256 then
        .error (invalidData "Cleanup file changed before deletion")
      else .ok ()

/-- `CleanupOwnership::delete`: the deepest files first, then the slot, then the record. -/
def deleteOwned (id : String) (ownership : CleanupOwnership δ) (guard : Except IoError Unit) :
    ReleaseProgram δ Unit := do
  Program.ofExcept guard
  match ← Program.inspect (remaining env ownership id) with
  | none => pure ()
  | some current => do
      (current.insertionSort fun left right =>
        right.relative.length ≤ left.relative.length).forM fun entry => do
          Program.inspect (checkUnchanged env id entry)
          Program.durable fileOperationFailed fun disk =>
            disk.modifySlot id fun slot => slot.erase entry.relative
      Program.durable fileOperationFailed fun disk => disk.removeSlot id
  Program.durable fileOperationFailed fun disk => disk.removeOwned id

/-- `remove_with_digest`.  The guard says whether the release is idle, outside the protected
directories, and not referenced by an unfinished checkpoint restore. -/
def removeWithDigest (id : String) (digest : Option δ) (guard : Except IoError Unit) :
    ReleaseProgram δ ReleaseCatalog := do
  Program.ofExcept (validateReleaseId id)
  let catalog ← Program.inspect (loadUnlocked env)
  let pending ← Program.inspect fun disk => pendingCleanup env disk id
  match pending.or (catalog.find id) with
  | none => throw ⟨.notFound, "release " ++ id ++ " was not found"⟩
  | some manifest =>
      if catalog.currentRelease = some id then
        throw ⟨.resourceBusy,
          "release " ++ id ++ " is the current slot; promote another release first"⟩
      else if catalog.lastKnownGood = some id then
        throw ⟨.resourceBusy,
          "release " ++ id ++ " is the last-known-good slot; promote another release first"⟩
      else do
        Program.ofExcept guard
        let ownership ← beginBound env id manifest digest
        deleteOwned env id ownership guard
        Program.ofExcept
          { catalog with
            releases := catalog.releases.filter fun item => item.id ≠ id }.normalize

def remove (id : String) (guard : Except IoError Unit) : ReleaseProgram δ ReleaseCatalog :=
  removeWithDigest env id none guard

/-! ## Removal in another order -/

/-- An order in which the files of a slot may be deleted. -/
structure DeletionOrder (δ : Type) where
  order : List (EntryIdentity δ) → List (EntryIdentity δ)
  perm : ∀ entries, (order entries).Perm entries

/-- The order of `CleanupOwnership::delete`. -/
def deepestFirst : DeletionOrder δ where
  order entries := entries.insertionSort fun left right =>
    right.relative.length ≤ left.relative.length
  perm entries := List.perm_insertionSort _ entries

/-- `CleanupOwnership::delete` with the files in the given order. -/
def deleteInOrder (files : DeletionOrder δ) (id : String) (ownership : CleanupOwnership δ)
    (guard : Except IoError Unit) : ReleaseProgram δ Unit := do
  Program.ofExcept guard
  match ← Program.inspect (remaining env ownership id) with
  | none => pure ()
  | some current => do
      (files.order current).forM fun entry => do
        Program.inspect (checkUnchanged env id entry)
        Program.durable fileOperationFailed fun disk =>
          disk.modifySlot id fun slot => slot.erase entry.relative
      Program.durable fileOperationFailed fun disk => disk.removeSlot id
  Program.durable fileOperationFailed fun disk => disk.removeOwned id

/-- `remove_with_digest` with the files in the given order. -/
def removeInOrder (files : DeletionOrder δ) (id : String) (digest : Option δ)
    (guard : Except IoError Unit) : ReleaseProgram δ ReleaseCatalog := do
  Program.ofExcept (validateReleaseId id)
  let catalog ← Program.inspect (loadUnlocked env)
  let pending ← Program.inspect fun disk => pendingCleanup env disk id
  match pending.or (catalog.find id) with
  | none => throw ⟨.notFound, "release " ++ id ++ " was not found"⟩
  | some manifest =>
      if catalog.currentRelease = some id then
        throw ⟨.resourceBusy,
          "release " ++ id ++ " is the current slot; promote another release first"⟩
      else if catalog.lastKnownGood = some id then
        throw ⟨.resourceBusy,
          "release " ++ id ++ " is the last-known-good slot; promote another release first"⟩
      else do
        Program.ofExcept guard
        let ownership ← beginBound env id manifest digest
        deleteInOrder env files id ownership guard
        Program.ofExcept
          { catalog with
            releases := catalog.releases.filter fun item => item.id ≠ id }.normalize

theorem removeWithDigest_eq (id : String) (digest : Option δ) (guard : Except IoError Unit) :
    removeWithDigest env id digest guard = removeInOrder env deepestFirst id digest guard := rfl

end Calls

end DshNexus.Release
