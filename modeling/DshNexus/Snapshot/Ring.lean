import DshNexus.Durable.Session
import DshNexus.Snapshot.Validation

/-!
# The healthy snapshot ring

`crates/nexus-snapshots/src/lib.rs`: a healthy capture fills `.next-slot-i`, moves the
snapshot that it replaces to `.old-slot-i` and the new one to `slot-i`, and then deletes the
old one.  `recover_orphaned_healthy_slots` runs before every use of the ring and settles
what an interrupted capture left behind.

Every rename, every file that is created or written, and every entry that a deletion unlinks
is one durable step.  The quarantine of an unreadable candidate keeps the whole directory.
-/

namespace DshNexus.Snapshot

open Durable

/-! ## The disk -/

inductive SlotKind where
  | slot
  | old
  | next
  deriving DecidableEq, Repr

/-- The name of a directory in `healthy`. -/
structure SlotName where
  kind : SlotKind
  index : Nat
  deriving DecidableEq, Repr

def SlotName.fileName (name : SlotName) : String :=
  (match name.kind with
    | .slot => "slot-"
    | .old => ".old-slot-"
    | .next => ".next-slot-") ++ toString name.index

/-- The snapshot directory of a profile: the directories in `healthy`, the entries there and
beside it that no snapshot call creates, and the quarantined candidates. -/
structure RingDisk where
  healthy : AList fun _ : SlotName => SnapshotDirectory
  healthyStrays : List String
  rootStrays : List String
  quarantine : List SnapshotDirectory

namespace RingDisk

def get (disk : RingDisk) (name : SlotName) : Option SnapshotDirectory :=
  disk.healthy.lookup name

def put (disk : RingDisk) (name : SlotName) (directory : SnapshotDirectory) : RingDisk :=
  { disk with healthy := disk.healthy.insert name directory }

def remove (disk : RingDisk) (name : SlotName) : RingDisk :=
  { disk with healthy := disk.healthy.erase name }

def modify (disk : RingDisk) (name : SlotName) (f : SnapshotDirectory → SnapshotDirectory) :
    RingDisk :=
  match disk.get name with
  | some directory => disk.put name (f directory)
  | none => disk

/-- Move a directory that is present to a name that is free. -/
def move (disk : RingDisk) (source destination : SlotName) : RingDisk :=
  match disk.get source with
  | some directory => (disk.remove source).put destination directory
  | none => disk

/-- Move a directory that is present out of the ring. -/
def setAside (disk : RingDisk) (name : SlotName) : RingDisk :=
  match disk.get name with
  | some directory => { disk.remove name with quarantine := disk.quarantine ++ [directory] }
  | none => disk

end RingDisk

abbrev RingProgram := Program RingDisk SnapshotError

variable {δ : Type} [DecidableEq δ] (env : SnapshotEnvironment δ)

def slotIndices : List Nat := List.range' 1 env.healthySlots

/-! ## Directories -/

/-- `rename_durable` of a directory of the ring. -/
def renameSlot (source destination : SlotName) : RingProgram Unit := do
  let disk ← Program.read
  if (disk.get source).isSome = true ∧ disk.get destination = none then
    Program.durable (.io "durably move") fun disk => disk.move source destination
  else throw (.io "durably move")

/-- `remove_directory_all_durable`: unlink the entries, then the directory itself. -/
def removeDirectoryAll (name : SlotName) : RingProgram Unit := do
  let disk ← Program.read
  match disk.get name with
  | none => throw (.io "remove directory")
  | some directory => do
      (env.listing directory).forM fun entry =>
        Program.durable (.io "remove directory") fun disk => disk.modify name (·.unlink entry)
      Program.durable (.io "remove directory") fun disk => disk.remove name

/-! ## Recovery -/

def validateHealthyInventory : RingProgram Unit := do
  let disk ← Program.read
  match disk.healthyStrays with
  | stray :: _ => throw (.unsafePath ("unidentified healthy-slot orphan: " ++ stray))
  | [] => do
      disk.healthy.keys.forM fun name =>
        if 1 ≤ name.index ∧ name.index ≤ env.healthySlots then pure ()
        else throw (.unsafePath ("unidentified healthy-slot orphan: " ++ name.fileName))
      if disk.healthy.keys.length > env.healthySlots * 3 then
        throw (.capacity "healthy-slot inventory exceeds recovery bound")
      else pure ()

/-- A directory, where it is present, must hold a healthy snapshot. -/
def checkCandidate : Option SnapshotDirectory → RingProgram Unit
  | none => pure ()
  | some directory => Program.ofExcept (validateHealthyCandidate env directory)

/-- A candidate that is not a healthy snapshot is moved out of the ring.  The result says
whether a candidate remains. -/
def quarantineCandidate (index : Nat) : RingProgram Bool := do
  let disk ← Program.read
  match disk.get ⟨.next, index⟩ with
  | none => pure false
  | some directory =>
      match validateHealthyCandidate env directory with
      | .ok () => pure true
      | .error _ => do
          Program.durable (.io "durably move") fun disk => disk.setAside ⟨.next, index⟩
          pure false

/-- Delete a directory of the ring where the flag says that it is present. -/
def removeIf (isPresent : Bool) (name : SlotName) : RingProgram Unit :=
  if isPresent = true then removeDirectoryAll env name else pure ()

/-- The end of a round of the recovery, when all candidates have been checked. -/
def settleSlot (index : Nat) (destinationPresent oldPresent nextPresent : Bool) :
    RingProgram Unit :=
  if destinationPresent = true then do
    removeIf env nextPresent ⟨.next, index⟩
    removeIf env oldPresent ⟨.old, index⟩
  else if oldPresent = true then do
    renameSlot ⟨.old, index⟩ ⟨.slot, index⟩
    removeIf env nextPresent ⟨.next, index⟩
  else if nextPresent = true then renameSlot ⟨.next, index⟩ ⟨.slot, index⟩
  else pure ()

/-- One round of the loop of `recover_orphaned_healthy_slots`. -/
def recoverSlot (index : Nat) : RingProgram Unit := do
  let disk ← Program.read
  if disk.get ⟨.old, index⟩ = none ∧ disk.get ⟨.next, index⟩ = none then pure ()
  else do
    checkCandidate env (disk.get ⟨.slot, index⟩)
    checkCandidate env (disk.get ⟨.old, index⟩)
    let nextPresent ← quarantineCandidate env index
    settleSlot env index (disk.get ⟨.slot, index⟩).isSome (disk.get ⟨.old, index⟩).isSome
      nextPresent

def recoverOrphanedHealthySlots : RingProgram Unit := do
  let disk ← Program.read
  match disk.rootStrays with
  | stray :: _ =>
      throw (.unsafePath ("unidentified entry in the snapshot directory: " ++ stray ++
        ". Only the \"healthy\" and \"manual\" slot directories and \".staging-snapshot-*\" " ++
        "staging directories are recognized. If you did not create this entry (for example a " ++
        "stray desktop.ini or a downloaded file), move it out of \"" ++ env.snapshotRoot ++
        "\" yourself, then retry the snapshot operation. Nexus does not delete or rename " ++
        "unrecognized files on its own."))
  | [] => do
      validateHealthyInventory env
      (slotIndices env).forM (recoverSlot env)

/-! ## Capture -/

/-- What a capture receives: the request, the policy files of the moment, and what
`new_identifier` and the clock return. -/
structure CaptureInput where
  dshVersion : String
  sources : FileIndex → Option StoredFile
  snapshotId : String
  createdUnixMs : Nat

def oldestSlot (disk : RingDisk) (oldest : Option (Nat × Nat)) (index : Nat) :
    Option (Nat × Nat) :=
  let created := match (disk.get ⟨.slot, index⟩).map (readManifestBounded env) with
    | some (.ok manifest) => manifest.createdUnixMs
    | _ => 0
  match oldest with
  | some (current, slot) => if created < current then some (created, index) else some (current, slot)
  | none => some (created, index)

/-- `next_healthy_slot`: the first free slot, or the oldest. -/
def nextHealthySlot : RingProgram Nat := do
  Program.attempt (.io "create directory")
  let disk ← Program.read
  match (slotIndices env).find? fun index => (disk.get ⟨.slot, index⟩).isNone with
  | some index => pure index
  | none =>
      match (slotIndices env).foldl (oldestSlot env disk) none with
      | some (_, slot) => pure slot
      | none => throw (.capacity "no healthy snapshot slot available")

structure CapturedFiles (δ : Type) where
  records : FileIndex → SnapshotFileRecord δ
  payloads : List (FileIndex × Bytes)
  totalBytes : Nat
  pluginCount : Nat

def CapturedFiles.empty : CapturedFiles δ :=
  ⟨fun i => ⟨(FILE_POLICY i).manifestPath, (FILE_POLICY i).scope, .missing, 0, 0, none, none, [],
    none⟩, [], 0, 0⟩

/-- The package of a profile must be captured, and be an object. -/
def capturedPluginCount (i : FileIndex) (captured : CapturedAllowedFile δ) (pluginCount : Nat) :
    Except SnapshotError Nat :=
  if i.val ≠ 0 then .ok pluginCount
  else if captured.record.state ≠ .present then
    .error (.invalidManifest
      "profile/package.json must be present and parseable before capture")
  else
    match captured.bytes with
    | none => .error (.invalidManifest "profile/package.json has no restorable content")
    | some bytes => do
        validateProfilePackage env.codecs bytes
        pure (pluginCountFromPackageBytes env.codecs bytes)

def captureFile (sources : FileIndex → Option StoredFile) (files : CapturedFiles δ)
    (i : FileIndex) : Except SnapshotError (CapturedFiles δ) := do
  let captured ← captureAllowedFile env.codecs env.sha256Hex (FILE_POLICY i).manifestPath
    (sources i) (FILE_POLICY i)
  let pluginCount ← capturedPluginCount env i captured files.pluginCount
  let totalBytes := files.totalBytes + captured.storedSize
  if totalBytes > MAX_TOTAL_SNAPSHOT_BYTES then
    .error (.oversized "snapshot total" totalBytes MAX_TOTAL_SNAPSHOT_BYTES)
  else
    pure ⟨Function.update files.records i captured.record,
      files.payloads ++ captured.bytes.toList.map fun bytes => (i, bytes), totalBytes, pluginCount⟩

def captureManifest (input : CaptureInput) (files : CapturedFiles δ) : SnapshotManifest δ where
  schema := SNAPSHOT_SCHEMA_VERSION
  snapshotId := input.snapshotId
  createdUnixMs := input.createdUnixMs
  profileName := env.profileName
  kind := .healthy
  dshVersion := input.dshVersion
  pluginCount := files.pluginCount
  fileCount := (List.finRange 7).countP fun i => decide ((files.records i).state = .present)
  totalBytes := files.totalBytes
  files := files.records

/-- The name of the temporary file of `write_durable`. -/
def temporaryName : String := ".tmp-write"

/-- `write_durable` of a blob. -/
def writeBlob (name : SlotName) (i : FileIndex) (bytes : Bytes) : RingProgram Unit := do
  Program.durable (.io "create temporary file") fun disk =>
    disk.modify name (·.setBlob temporaryName [])
  tryCatch
    (do
      Program.durable (.io "write temporary file") fun disk =>
        disk.modify name (·.setBlob temporaryName bytes)
      Program.durable (.io "durably move") fun disk =>
        disk.modify name fun directory =>
          (directory.unlink (.blob temporaryName)).setBlob (toString i.val) bytes)
    fun e => do
      Program.ignoreError (Program.durable (.io "remove temporary file") fun disk =>
        disk.modify name (·.unlink (.blob temporaryName)))
      throw e

def fillStaging (name : SlotName) (input : CaptureInput) : RingProgram (SnapshotManifest δ) := do
  Program.durable (.io "create directory") fun disk =>
    disk.modify name fun directory => { directory with files := some [] }
  let files ← Program.ofExcept
    ((List.finRange 7).foldlM (captureFile env input.sources) CapturedFiles.empty)
  let manifest := captureManifest env input files
  let encoded ← Program.ofExcept ((env.encodeManifest manifest).mapError fun message =>
    .invalidManifest ("cannot encode new manifest: " ++ message))
  Program.attempt (.io "snapshot target-volume space")
  files.payloads.forM fun payload => writeBlob name payload.1 payload.2
  Program.attempt (.io "write temporary file")
  Program.durable (.io "durably move") fun disk =>
    disk.modify name fun directory => { directory with manifest := some encoded }
  Program.attempt (.io "sync directory")
  pure manifest

/-- The snapshot that a publication replaces must be a healthy one. -/
def checkPrevious : Option SnapshotDirectory → RingProgram Unit
  | none => pure ()
  | some directory => do
      let previous ← Program.ofExcept (loadValidSnapshot env directory)
      if previous.kind ≠ .healthy then
        throw (.integrity "healthy slot contains a non-healthy snapshot")
      else pure ()

/-- `publish_healthy_snapshot`, as far as it only checks. -/
def checkPublication (index : Nat) (snapshotId : String) : RingProgram Unit := do
  let disk ← Program.read
  match disk.get ⟨.next, index⟩ with
  | none => throw (.io "inspect directory")
  | some staging => do
      let candidate ← Program.ofExcept (loadValidSnapshot env staging)
      if candidate.snapshotId ≠ snapshotId ∨ candidate.kind ≠ .healthy then
        throw (.integrity "healthy publication candidate identity changed")
      else if (disk.get ⟨.old, index⟩).isSome = true then
        throw (.invalidState ("unrecovered healthy-slot old directory: " ++
          SlotName.fileName ⟨.old, index⟩))
      else checkPrevious env (disk.get ⟨.slot, index⟩)

/-- The snapshot that is replaced goes to its old name. -/
def moveDestination (index : Nat) : RingProgram Unit := do
  let disk ← Program.read
  if (disk.get ⟨.slot, index⟩).isSome = true then renameSlot ⟨.slot, index⟩ ⟨.old, index⟩
  else pure ()

/-- The candidate takes its place; if that fails, the old snapshot goes back. -/
def moveCandidate (index : Nat) : RingProgram Unit :=
  tryCatch (renameSlot ⟨.next, index⟩ ⟨.slot, index⟩) fun e => do
    let disk ← Program.read
    if (disk.get ⟨.old, index⟩).isSome = true then do
      Program.ignoreError (renameSlot ⟨.old, index⟩ ⟨.slot, index⟩)
      throw e
    else throw e

/-- `publish_healthy_snapshot`, from its first rename. -/
def publishHealthySnapshot (index : Nat) : RingProgram Unit := do
  moveDestination index
  moveCandidate index
  let disk ← Program.read
  removeIf env (disk.get ⟨.old, index⟩).isSome ⟨.old, index⟩

def ensureNewDirectory (name : SlotName) : RingProgram Unit := do
  let disk ← Program.read
  if (disk.get name).isSome = true then
    throw (.invalidState ("new directory already exists: " ++ name.fileName))
  else
    Program.durable (.io "create directory") fun disk => disk.put name ⟨none, none⟩

/-- `capture` of a healthy snapshot. -/
def captureHealthy (input : CaptureInput) : RingProgram (SnapshotManifest δ) := do
  Program.ofExcept (validateMetadataText "DSH version" input.dshVersion MAX_METADATA_TEXT_BYTES)
  Program.attempt (.io "create directory")
  recoverOrphanedHealthySlots env
  let index ← nextHealthySlot env
  ensureNewDirectory ⟨.next, index⟩
  let result ← Program.toExcept do
    let manifest ← fillStaging env ⟨.next, index⟩ input
    checkPublication env index input.snapshotId
    pure manifest
  match result with
  | .ok manifest => do
      publishHealthySnapshot env index
      pure manifest
  | .error e => do
      -- nothing has been published: the staging directory is removed
      Program.ignoreError (removeDirectoryAll env ⟨.next, index⟩)
      throw e

end DshNexus.Snapshot
