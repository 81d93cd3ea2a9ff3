import DshNexus.Snapshot.Capture

/-!
# What a snapshot directory must contain

`crates/nexus-snapshots/src/validation.rs`: `load_valid_snapshot`, which reads the manifest
of a snapshot directory and compares it with the policy and with the blobs beside it.

The manifest codec is `serde_json` on a fixed type, and a parameter.  A manifest that does
not have exactly one record for each entry of the policy is one that it does not read.  A
digest is a value of an arbitrary type, so its spelling is not checked.
-/

namespace DshNexus.Snapshot

open Document (Tree)

def SNAPSHOT_SCHEMA_VERSION : Nat := 1
def MAX_MANIFEST_BYTES : Nat := 256 * 1024
def MAX_TOTAL_SNAPSHOT_BYTES : Nat := 41 * 1024 * 1024
def MAX_METADATA_TEXT_BYTES : Nat := 128

/-! ## Directories -/

/-- A snapshot directory: `manifest.json`, and the entries of `files` where it is present. -/
structure SnapshotDirectory where
  manifest : Option Bytes
  files : Option (List (String × Bytes))
  deriving DecidableEq, Repr

/-- What a deletion of a snapshot directory unlinks. -/
inductive DirectoryEntry where
  | manifest
  | blob (name : String)
  | filesDirectory
  deriving DecidableEq, Repr

def SnapshotDirectory.unlink (directory : SnapshotDirectory) :
    DirectoryEntry → SnapshotDirectory
  | .manifest => { directory with manifest := none }
  | .blob name =>
      { directory with files := directory.files.map fun files => files.filter (·.1 ≠ name) }
  | .filesDirectory => { directory with files := none }

def SnapshotDirectory.setBlob (directory : SnapshotDirectory) (name : String) (bytes : Bytes) :
    SnapshotDirectory :=
  { directory with
    files := directory.files.map fun files => files.filter (·.1 ≠ name) ++ [(name, bytes)] }

/-! ## The store -/

/-- What the snapshot store of a profile is built from. -/
structure SnapshotEnvironment (δ : Type) where
  codecs : DocumentCodecs
  sha256Hex : Bytes → δ
  profileName : String
  snapshotRoot : String
  healthySlots : Nat
  /-- `serde_json::from_slice` on a manifest -/
  parseManifest : Bytes → Except String (SnapshotManifest δ)
  /-- `serde_json::to_vec_pretty` on a manifest -/
  encodeManifest : SnapshotManifest δ → Except String Bytes
  /-- the order in which `remove_dir_all` unlinks the entries of a directory -/
  listing : SnapshotDirectory → List DirectoryEntry

def validateIdentifier (identifier : String) : Except SnapshotError Unit :=
  if identifier.isEmpty ∨ identifier.utf8ByteSize > 128 ∨
      identifier.toList.all (fun c => c.isAlphanum || c = '-' || c = '_') = false then
    .error (.invalidIdentifier identifier)
  else .ok ()

def validateMetadataText (name value : String) (limit : Nat) : Except SnapshotError Unit :=
  if value.isEmpty ∨ value.utf8ByteSize > limit ∨ value.toList.any isControl = true then
    .error (.invalidManifest (name ++ " must be non-empty, free of control characters, and at most "
      ++ toString limit ++ " bytes"))
  else .ok ()

def validateProfilePackage (codecs : DocumentCodecs) (bytes : Bytes) : Except SnapshotError Unit :=
  match codecs.readJson bytes with
  | .error (.notUtf8 message) =>
      .error (.invalidManifest ("profile/package.json is not valid JSON: " ++ message))
  | .error (.invalid message) =>
      .error (.invalidManifest ("profile/package.json is not valid JSON: " ++ message))
  | .ok (.mapping _) => .ok ()
  | .ok _ => .error (.invalidManifest "profile/package.json must contain a JSON object")

def pluginCountFromPackageBytes (codecs : DocumentCodecs) (bytes : Bytes) : Nat :=
  match codecs.readJson bytes with
  | .ok value =>
      match value.get? [.key "dsh", .key "profile", .key "bundles"] with
      | some (.sequence bundles) => bundles.length
      | _ => 0
  | .error _ => 0

section Load

variable {δ : Type} [DecidableEq δ] (env : SnapshotEnvironment δ)

def readManifestBounded (directory : SnapshotDirectory) :
    Except SnapshotError (SnapshotManifest δ) :=
  match directory.manifest with
  | none => .error (.invalidManifest "missing manifest.json")
  | some bytes =>
      if bytes.length > MAX_MANIFEST_BYTES then
        .error (.oversized "manifest.json" bytes.length MAX_MANIFEST_BYTES)
      else
        match env.parseManifest bytes with
        | .ok manifest => .ok manifest
        | .error message => .error (.invalidManifest ("cannot parse manifest.json: " ++ message))

/-- What `load_valid_snapshot` adds up over the records. -/
structure SnapshotTotals where
  total : Nat
  sourceTotal : Nat
  presentCount : Nat
  pluginCount : Option Nat
  expectedBlobs : List String
  deriving DecidableEq, Repr

def validatePresentRecord (files : List (String × Bytes)) (i : FileIndex)
    (entry : SnapshotFileRecord δ) (totals : SnapshotTotals) :
    Except SnapshotError SnapshotTotals :=
  match entry.sha256 with
  | none => .error (.invalidManifest (entry.path ++ " has no hash"))
  | some expectedHash =>
      if entry.mode = none ∨ entry.omittedReason ≠ none then
        .error (.invalidManifest (entry.path ++ " has inconsistent present metadata"))
      else
        match files.lookup (toString i.val) with
        | none => .error (.integrity ("missing blob for " ++ entry.path))
        | some bytes =>
            if bytes.length > (FILE_POLICY i).maxBytes then
              .error (.oversized ("files/" ++ toString i.val) bytes.length (FILE_POLICY i).maxBytes)
            else if bytes.length ≠ entry.storedSize then
              .error (.integrity ("size mismatch for " ++ entry.path))
            else if env.sha256Hex bytes ≠ expectedHash then
              .error (.integrity ("SHA-256 mismatch for " ++ entry.path))
            else do
              let pluginCount ←
                if i.val = 0 then do
                  validateProfilePackage env.codecs bytes
                  pure (some (pluginCountFromPackageBytes env.codecs bytes))
                else pure totals.pluginCount
              pure ⟨totals.total + entry.storedSize, totals.sourceTotal + entry.sourceSize,
                totals.presentCount + 1, pluginCount, totals.expectedBlobs ++ [toString i.val]⟩

def validateFileRecord (files : List (String × Bytes)) (manifest : SnapshotManifest δ)
    (totals : SnapshotTotals) (i : FileIndex) : Except SnapshotError SnapshotTotals :=
  let entry := manifest.files i
  let policy := FILE_POLICY i
  if entry.path ≠ policy.manifestPath ∨ entry.scope ≠ policy.scope then
    .error (.invalidPath entry.path)
  else if entry.sourceSize > policy.maxBytes ∨ entry.storedSize > policy.maxBytes then
    .error (.oversized entry.path (max entry.sourceSize entry.storedSize) policy.maxBytes)
  else if entry.mode.any (fun mode => decide (mode > 0o777)) = true then
    .error (.invalidManifest ("invalid mode for " ++ entry.path))
  else if entry.redactedPaths.length > MAX_REDACTED_PATHS then
    .error (.invalidManifest ("too many redacted paths for " ++ entry.path))
  else do
    entry.redactedPaths.forM fun pointer => do
      validateRedactedPath pointer
      let _ ← decodePointer pointer
      pure ()
    match entry.state with
    | .present => validatePresentRecord env files i entry totals
    | .missing =>
        if entry.sourceSize ≠ 0 ∨ entry.storedSize ≠ 0 ∨ entry.sha256 ≠ none ∨
            entry.mode ≠ none ∨ entry.redactedPaths ≠ [] ∨ entry.omittedReason ≠ none then
          .error (.invalidManifest (entry.path ++ " has inconsistent missing metadata"))
        else .ok { totals with sourceTotal := totals.sourceTotal + entry.sourceSize }
    | .omitted =>
        if entry.storedSize ≠ 0 ∨ entry.sha256 ≠ none ∨ entry.redactedPaths ≠ [] ∨
            entry.omittedReason.all (fun reason => reason.isEmpty ||
              decide (reason.utf8ByteSize > MAX_OMISSION_REASON_BYTES)) = true then
          .error (.invalidManifest (entry.path ++ " has inconsistent omitted metadata"))
        else .ok { totals with sourceTotal := totals.sourceTotal + entry.sourceSize }

def loadValidSnapshot (directory : SnapshotDirectory) :
    Except SnapshotError (SnapshotManifest δ) := do
  let manifest ← readManifestBounded env directory
  validateIdentifier manifest.snapshotId
  validateMetadataText "DSH version" manifest.dshVersion MAX_METADATA_TEXT_BYTES
  match manifest.kind with
  | .manual (some label) => validateMetadataText "manual label" label MAX_METADATA_TEXT_BYTES
  | _ => pure ()
  if manifest.schema ≠ SNAPSHOT_SCHEMA_VERSION then
    throw (.invalidManifest ("unsupported schema " ++ toString manifest.schema))
  if manifest.profileName ≠ env.profileName then
    throw (.invalidManifest ("profile " ++ manifest.profileName ++ " does not match store " ++
      env.profileName))
  match directory.files with
  | none => throw (.io "inspect directory files")
  | some files => do
      let totals ← (List.finRange 7).foldlM (validateFileRecord env files manifest) ⟨0, 0, 0, none, []⟩
      if totals.total > MAX_TOTAL_SNAPSHOT_BYTES ∨ totals.sourceTotal > MAX_TOTAL_SNAPSHOT_BYTES ∨
          totals.total ≠ manifest.totalBytes ∨ totals.presentCount ≠ manifest.fileCount then
        throw (.integrity "snapshot aggregate counts do not match manifest")
      if (manifest.files 0).state ≠ .present then
        throw (.invalidManifest "profile/package.json must be present in every restorable snapshot")
      if totals.pluginCount ≠ some manifest.pluginCount then
        throw (.integrity "snapshot plugin count does not match profile/package.json")
      if files.length > 7 then throw (.invalidManifest "too many snapshot blobs")
      if (files.all fun file => totals.expectedBlobs.contains file.1) = false ∨
          (totals.expectedBlobs.all fun name => (files.lookup name).isSome) = false then
        throw (.invalidManifest "snapshot contains missing or unexpected blobs")
      pure manifest

def validateHealthyCandidate (directory : SnapshotDirectory) : Except SnapshotError Unit := do
  let manifest ← loadValidSnapshot env directory
  if manifest.kind ≠ .healthy then throw (.integrity "healthy-slot candidate is not healthy")

/-- The directory holds one complete valid healthy snapshot. -/
def IsHealthy (directory : SnapshotDirectory) : Prop :=
  validateHealthyCandidate env directory = .ok ()

instance (directory : SnapshotDirectory) : Decidable (IsHealthy env directory) :=
  match h : validateHealthyCandidate env directory with
  | .ok () => isTrue h
  | .error _ => isFalse fun h' => by
      rw [IsHealthy, h] at h'
      exact nomatch h'

theorem isHealthy_of_loadValidSnapshot {directory : SnapshotDirectory}
    {manifest : SnapshotManifest δ} (h : loadValidSnapshot env directory = .ok manifest)
    (hkind : manifest.kind = .healthy) : IsHealthy env directory := by
  rw [IsHealthy, validateHealthyCandidate, h]
  simp [bind, Except.bind, hkind, pure, Except.pure]

theorem exists_of_isHealthy {directory : SnapshotDirectory} (h : IsHealthy env directory) :
    ∃ manifest, loadValidSnapshot env directory = .ok manifest ∧ manifest.kind = .healthy := by
  obtain ⟨manifest, hload, hcheck⟩ := bind_eq_ok h
  refine ⟨manifest, hload, by_contra fun hkind => ?_⟩
  rw [if_pos hkind] at hcheck
  exact nomatch hcheck

end Load

end DshNexus.Snapshot
