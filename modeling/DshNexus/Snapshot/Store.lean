import DshNexus.Snapshot.Filling

/-!
# The snapshot store

`SnapshotStore` of `crates/nexus-snapshots/src/lib.rs`: the healthy ring of a profile and its
manual snapshots, under one pair of limits.  A manual capture stages its snapshot beside the
ring and moves it to `manual/<id>`; `list`, `detail` and `find_snapshot_directory` look at all
snapshots, after the recovery of the ring.

`capture` is split where the publication starts: `stage` is what comes before, and
`capture_eq` puts the two together.
-/

namespace DshNexus.Snapshot

open Durable

/-! ## The store -/

structure SnapshotStoreConfig where
  healthySlots : Nat
  maxManualSnapshots : Nat
  deriving DecidableEq, Repr

/-- The limits that `with_config` accepts. -/
def SnapshotStoreConfig.Valid (config : SnapshotStoreConfig) : Prop :=
  (1 ≤ config.healthySlots ∧ config.healthySlots ≤ 32) ∧
    (1 ≤ config.maxManualSnapshots ∧ config.maxManualSnapshots ≤ 1024)

/-- What a profile's ring is built from, under some limits. -/
def SnapshotEnvironment.configured {δ : Type} (env : SnapshotEnvironment δ)
    (config : SnapshotStoreConfig) : SnapshotEnvironment δ :=
  { env with healthySlots := config.healthySlots }

/-- The snapshots of a profile: the ring, the directories in `manual`, the entries there that
are not directories, and the directories `.staging-<id>`. -/
structure StoreDisk where
  ring : RingDisk
  manual : AList fun _ : String => SnapshotDirectory
  manualStrays : List String
  staging : AList fun _ : String => SnapshotDirectory

def ringLens : Lens StoreDisk RingDisk where
  get disk := disk.ring
  put ring disk := { disk with ring := ring }
  get_put _ _ := rfl
  put_get _ := rfl
  put_put _ _ _ := rfl

abbrev StoreProgram := Program StoreDisk SnapshotError

def onRing {α : Type} (p : RingProgram α) : StoreProgram α := Program.zoom ringLens id p

namespace StoreDisk

/-- Change a staging directory that is present. -/
def modifyStaging (id : String) (f : SnapshotDirectory → SnapshotDirectory) (disk : StoreDisk) :
    StoreDisk :=
  match disk.staging.lookup id with
  | some directory => { disk with staging := disk.staging.insert id (f directory) }
  | none => disk

/-- Move a staging directory that is present to `manual`. -/
def publishStaging (id : String) (disk : StoreDisk) : StoreDisk :=
  match disk.staging.lookup id with
  | some directory =>
      { disk with staging := disk.staging.erase id, manual := disk.manual.insert id directory }
  | none => disk

/-- The directories in `manual`. -/
def manualDirectories (disk : StoreDisk) : List SnapshotDirectory :=
  disk.manual.entries.map fun entry => entry.2

end StoreDisk

/-- `bounded_subdirectories` of `manual`. -/
def boundedSubdirectories (disk : StoreDisk) (bound : Nat) :
    Except SnapshotError (List SnapshotDirectory) :=
  match disk.manualStrays with
  | stray :: _ =>
      .error (.unsafePath ("unexpected non-directory or reparse point in manual: " ++ stray))
  | [] =>
      if disk.manualDirectories.length ≥ bound then
        .error (.capacity ("directory inventory exceeds bound " ++ toString (bound - 1) ++
          ": manual"))
      else .ok disk.manualDirectories

section Store

variable {δ : Type} [DecidableEq δ] (env : SnapshotEnvironment δ) (config : SnapshotStoreConfig)

/-! ## Reading -/

/-- `snapshot_directories`, once the ring has been recovered. -/
def inventory (disk : StoreDisk) : Except SnapshotError (List SnapshotDirectory) := do
  let slots := (slotIndices (env.configured config)).filterMap fun index =>
    disk.ring.get ⟨.slot, index⟩
  let manual ← boundedSubdirectories disk (config.maxManualSnapshots + 1)
  if (slots ++ manual).length > config.healthySlots + config.maxManualSnapshots then
    .error (.capacity "snapshot inventory exceeds configured bounds")
  else .ok (slots ++ manual)

def snapshotDirectories : StoreProgram (List SnapshotDirectory) := do
  onRing (recoverOrphanedHealthySlots (env.configured config))
  Program.inspect (inventory env config)

structure SnapshotSummary where
  snapshotId : String
  createdUnixMs : Nat
  profileName : String
  kind : SnapshotKind
  dshVersion : String
  pluginCount : Nat
  fileCount : Nat
  totalBytes : Nat
  deriving DecidableEq, Repr

/-- `SnapshotSummary::from`. -/
def SnapshotManifest.summary (manifest : SnapshotManifest δ) : SnapshotSummary :=
  ⟨manifest.snapshotId, manifest.createdUnixMs, manifest.profileName, manifest.kind,
    manifest.dshVersion, manifest.pluginCount, manifest.fileCount, manifest.totalBytes⟩

/-- The order of `list`. -/
def NewerFirst (manifest other : SnapshotManifest δ) : Prop :=
  other.createdUnixMs ≤ manifest.createdUnixMs

instance : DecidableRel (@NewerFirst δ) := fun _ _ => Nat.decLe ..

/-- `list`, newest first. -/
def listSnapshots : StoreProgram (List SnapshotSummary) := do
  let directories ← snapshotDirectories env config
  let manifests ← Program.ofExcept (directories.mapM (loadValidSnapshot env))
  pure ((manifests.insertionSort NewerFirst).map SnapshotManifest.summary)

/-- A directory whose manifest can be read and has the identifier. -/
def hasIdentifier (snapshotId : String) (directory : SnapshotDirectory) : Bool :=
  match readManifestBounded env directory with
  | .ok manifest => manifest.snapshotId = snapshotId
  | .error _ => false

def findSnapshotDirectory (snapshotId : String) : StoreProgram SnapshotDirectory := do
  Program.ofExcept (validateIdentifier snapshotId)
  let directories ← snapshotDirectories env config
  match directories.find? (hasIdentifier env snapshotId) with
  | some directory => pure directory
  | none => throw (.notFound snapshotId)

/-- `detail`. -/
def snapshotDetail (snapshotId : String) : StoreProgram (SnapshotManifest δ) := do
  let directory ← findSnapshotDirectory env config snapshotId
  Program.ofExcept (loadValidSnapshot env directory)

/-! ## Manual captures -/

def manualManifest (label : Option String) (input : CaptureInput) (files : CapturedFiles δ) :
    SnapshotManifest δ :=
  { captureManifest env input files with kind := .manual label }

/-- The label of a manual capture, where there is one. -/
def checkLabel : Option String → Except SnapshotError Unit
  | some label => validateMetadataText "manual label" label MAX_METADATA_TEXT_BYTES
  | none => .ok ()

def checkManualCount : StoreProgram Unit := do
  let disk ← Program.read
  let directories ← Program.ofExcept
    (boundedSubdirectories disk (config.maxManualSnapshots + 1))
  if directories.length ≥ config.maxManualSnapshots then
    throw (.capacity ("manual snapshot limit " ++ toString config.maxManualSnapshots ++ " reached"))
  else pure ()

def ensureNewStaging (snapshotId : String) : StoreProgram Unit := do
  let disk ← Program.read
  if (disk.staging.lookup snapshotId).isSome = true then
    throw (.invalidState ("new directory already exists: .staging-" ++ snapshotId))
  else
    Program.durable (.io "create directory") fun disk =>
      { disk with staging := disk.staging.insert snapshotId ⟨none, none⟩ }

/-- `remove_dir_all` of a staging directory. -/
def removeStaging (snapshotId : String) : StoreProgram Unit := do
  let disk ← Program.read
  match disk.staging.lookup snapshotId with
  | none => throw (.io "remove directory")
  | some directory => do
      (env.listing directory).forM fun entry =>
        Program.durable (.io "remove directory") (·.modifyStaging snapshotId (·.unlink entry))
      Program.durable (.io "remove directory") fun disk =>
        { disk with staging := disk.staging.erase snapshotId }

/-- The staged snapshot must be a manual one with the identifier. -/
def checkManualCandidate (snapshotId : String) : StoreProgram Unit := do
  let disk ← Program.read
  match disk.staging.lookup snapshotId with
  | none => throw (.io "inspect directory")
  | some staging => do
      let candidate ← Program.ofExcept (loadValidSnapshot env staging)
      if candidate.snapshotId ≠ snapshotId ∨ candidate.kind = .healthy then
        throw (.integrity "manual publication candidate identity changed")
      else pure ()

/-- A failed capture removes its staging directory. -/
def dropStaging {α : Type} (snapshotId : String) (e : SnapshotError) : StoreProgram α := do
  Program.ignoreError (removeStaging env snapshotId)
  throw e

def stageManual (label : Option String) (input : CaptureInput) :
    StoreProgram (SnapshotManifest δ) := do
  Program.ofExcept (checkLabel label)
  Program.ofExcept (validateMetadataText "DSH version" input.dshVersion MAX_METADATA_TEXT_BYTES)
  Program.attempt (.io "create directory")
  Program.attempt (.io "create directory")
  checkManualCount config
  ensureNewStaging input.snapshotId
  let result ← Program.toExcept do
    let manifest ← fillDirectory (StoreDisk.modifyStaging input.snapshotId) env
      (manualManifest env label input) input.sources
    checkManualCandidate env input.snapshotId
    pure manifest
  match result with
  | .ok manifest => pure manifest
  | .error e => dropStaging env input.snapshotId e

def publishManual (snapshotId : String) : StoreProgram Unit :=
  tryCatch
    (do
      let disk ← Program.read
      if (disk.staging.lookup snapshotId).isSome = true ∧ disk.manual.lookup snapshotId = none then
        Program.durable (.io "durably move") (·.publishStaging snapshotId)
      else throw (.io "durably move"))
    fun e => dropStaging env snapshotId e

/-! ## Captures -/

/-- A healthy capture, up to the first rename of its publication. -/
def stageHealthy (input : CaptureInput) : RingProgram (Nat × SnapshotManifest δ) := do
  Program.ofExcept (validateMetadataText "DSH version" input.dshVersion MAX_METADATA_TEXT_BYTES)
  Program.attempt (.io "create directory")
  recoverOrphanedHealthySlots env
  let index ← nextHealthySlot env
  ensureNewDirectory ⟨.next, index⟩
  let result ← Program.toExcept do
    let manifest ← fillStaging env ⟨.next, index⟩ input
    checkPublication env index input.snapshotId
    pure manifest
  match result with
  | .ok manifest => pure (index, manifest)
  | .error e => do
      Program.ignoreError (removeDirectoryAll env ⟨.next, index⟩)
      throw e

/-- `capture`, up to the start of the publication.  A healthy capture has picked a slot. -/
def stage (kind : SnapshotKind) (input : CaptureInput) :
    StoreProgram (Option Nat × SnapshotManifest δ) :=
  match kind with
  | .healthy => do
      let (index, manifest) ← onRing (stageHealthy (env.configured config) input)
      pure (some index, manifest)
  | .manual label => do
      let manifest ← stageManual env config label input
      pure (none, manifest)

/-- The publication of a staged snapshot. -/
def publish (input : CaptureInput) : Option Nat → StoreProgram Unit
  | some index => onRing (publishHealthySnapshot (env.configured config) index)
  | none => publishManual env input.snapshotId

def capture (kind : SnapshotKind) (input : CaptureInput) : StoreProgram (SnapshotManifest δ) := do
  let (slot, manifest) ← stage env config kind input
  publish env config input slot
  pure manifest

theorem captureHealthy_eq (input : CaptureInput) :
    captureHealthy env input = (do
      let (index, manifest) ← stageHealthy env input
      publishHealthySnapshot env index
      pure manifest) := by
  rw [captureHealthy, stageHealthy]
  simp only [bind_assoc]
  refine bind_congr fun _ => bind_congr fun _ => bind_congr fun _ => bind_congr fun index =>
    bind_congr fun _ => bind_congr fun result => ?_
  rcases result with e | manifest
  · show _ = (Program.ignoreError (removeDirectoryAll env ⟨.next, index⟩) >>= fun _ => throw e) >>= _
    rw [bind_assoc]
    rfl
  · rfl

theorem capture_healthy (input : CaptureInput) :
    capture env config .healthy input = onRing (captureHealthy (env.configured config) input) := by
  rw [captureHealthy_eq, capture, stage]
  simp only [onRing, Program.zoom_bind, bind_assoc, pure_bind]
  rfl

end Store

end DshNexus.Snapshot
