import DshNexus.Durable.Session
import DshNexus.Snapshot.Secrets
import DshNexus.Snapshot.Validation

/-!
# The restore transaction

`crates/nexus-snapshots/src/restore.rs`: a restore replaces the seven policy files under a
durable transaction record.  Applying moves each original into a backup directory and
writes the desired content; rolling back moves the originals back, and moves a file that
was not there before aside; committing deletes the backups.

Every rename, file write, mode change, deletion and record write is one durable step.
A `RestoreEnvironment` holds what no call changes: the snapshots, the codecs of the secret
merge and SHA-256, which is taken to be free of collisions.  Errors name a file by its
manifest path.
-/

namespace DshNexus.Snapshot

open Durable

/-! ## Records -/

def TRANSACTION_SCHEMA_VERSION : Nat := 1
def MAX_TRANSACTION_BYTES : Nat := 256 * 1024
def MAX_TRANSACTION_RECORDS : Nat := 64

inductive RestoreStatus where
  | prepared
  | applying
  | applied
  | committing
  | committed
  | rolledBack
  deriving DecidableEq, Repr

/-- The `Debug` text of a status. -/
def RestoreStatus.debug : RestoreStatus → String
  | .prepared => "Prepared"
  | .applying => "Applying"
  | .applied => "Applied"
  | .committing => "Committing"
  | .committed => "Committed"
  | .rolledBack => "RolledBack"

def RestoreStatus.isTerminal : RestoreStatus → Bool
  | .committed => true
  | .rolledBack => true
  | _ => false

inductive OperationStatus where
  | pending
  | applying
  | backedUp
  | applied
  | rolledBack
  deriving DecidableEq, Repr

inductive RecoverDecision where
  | resumeApply
  | rollback
  | resumeCommit
  deriving DecidableEq, Repr

structure RestoreTicket (δ : Type) where
  schema : Nat
  ticketId : String
  snapshotId : String
  snapshotManifestSha256 : δ
  profileName : String
  createdUnixMs : Nat
  needsMaterialization : Bool
  deriving DecidableEq, Repr

structure RestoreOutcome where
  ticketId : String
  snapshotId : String
  status : RestoreStatus
  needsMaterialization : Bool
  materializationPending : Bool
  deriving DecidableEq, Repr

structure ExpectedFile (δ : Type) where
  present : Bool
  size : Nat
  sha256 : Option δ
  deriving DecidableEq, Repr

/-- `RestoreOperation`.  Its index is its place in the record. -/
structure RestoreOperation (δ : Type) where
  status : OperationStatus
  original : ExpectedFile δ
  desiredState : SnapshotFileState
  desiredSha256 : Option δ
  appliedSha256 : Option δ
  deriving DecidableEq, Repr

/-- `TransactionRecord`, with one operation for each entry of the policy. -/
structure TransactionRecord (δ : Type) where
  schema : Nat
  ticket : RestoreTicket δ
  status : RestoreStatus
  materializationPending : Bool
  operations : FileIndex → RestoreOperation δ

def TransactionRecord.setOperation {δ : Type} (record : TransactionRecord δ) (i : FileIndex)
    (operation : RestoreOperation δ) : TransactionRecord δ :=
  { record with operations := Function.update record.operations i operation }

def outcome {δ : Type} (record : TransactionRecord δ) : RestoreOutcome :=
  ⟨record.ticket.ticketId, record.ticket.snapshotId, record.status,
    record.ticket.needsMaterialization, record.materializationPending⟩

structure DesiredFile where
  bytes : Option Bytes
  mode : Option Nat
  deriving DecidableEq, Repr

/-! ## The disk -/

/-- What a file of a backup directory is kept for. -/
inductive BackupSuffix where
  | original
  | discarded
  deriving DecidableEq, Repr

/-- A name in a backup directory: `<index>.<suffix>` or `<index>.<suffix>.deleted`. -/
structure BackupName where
  index : FileIndex
  suffix : BackupSuffix
  deleted : Bool
  deriving DecidableEq, Repr

abbrev BackupDirectory := BackupName → Option StoredFile

/-- The files that a restore reads and writes: the policy files, the backup directory of
each ticket, and the transaction records in the order in which the directory lists them. -/
structure RestoreDisk (δ : Type) where
  target : FileIndex → Option StoredFile
  backups : String → Option BackupDirectory
  transactions : List (TransactionRecord δ)

variable {δ : Type}

/-- The file at a name of a backup directory. -/
def RestoreDisk.entry (disk : RestoreDisk δ) (id : String) (name : BackupName) :
    Option StoredFile :=
  (disk.backups id).bind (· name)

def RestoreDisk.setTarget (disk : RestoreDisk δ) (i : FileIndex) (file : Option StoredFile) :
    RestoreDisk δ :=
  { disk with target := Function.update disk.target i file }

/-- Change a name of a backup directory that is present. -/
def RestoreDisk.setEntry (disk : RestoreDisk δ) (id : String) (name : BackupName)
    (file : Option StoredFile) : RestoreDisk δ :=
  { disk with
    backups := Function.update disk.backups id
      ((disk.backups id).map fun directory => Function.update directory name file) }

def RestoreDisk.setDirectory (disk : RestoreDisk δ) (id : String)
    (directory : Option BackupDirectory) : RestoreDisk δ :=
  { disk with backups := Function.update disk.backups id directory }

def findRecord (id : String) (records : List (TransactionRecord δ)) :
    Option (TransactionRecord δ) :=
  records.find? fun record => record.ticket.ticketId = id

/-- Replace the record of a ticket, or add it. -/
def putRecord (record : TransactionRecord δ) :
    List (TransactionRecord δ) → List (TransactionRecord δ)
  | [] => [record]
  | other :: records =>
      if other.ticket.ticketId = record.ticket.ticketId then record :: records
      else other :: putRecord record records

def RestoreDisk.writeRecord (disk : RestoreDisk δ) (record : TransactionRecord δ) :
    RestoreDisk δ :=
  { disk with transactions := putRecord record disk.transactions }

def RestoreDisk.removeRecord (disk : RestoreDisk δ) (id : String) : RestoreDisk δ :=
  { disk with
    transactions := disk.transactions.filter fun record => record.ticket.ticketId ≠ id }

/-! ## The environment -/

structure RestoreEnvironment (δ : Type) where
  codecs : DocumentCodecs
  profileName : String
  /-- the validated manifest of a snapshot -/
  loadSnapshot : String → Except SnapshotError (SnapshotManifest δ)
  /-- the bytes of `manifest.json` -/
  manifestBytes : String → Option Bytes
  /-- `read_snapshot_blob` -/
  readSnapshotBlob : String → FileIndex → Except SnapshotError Bytes
  sha256Hex : Bytes → δ
  sha256Hex_injective : Function.Injective sha256Hex

abbrev RestoreProgram (δ : Type) := Program (RestoreDisk δ) SnapshotError

/-- `matches_expected`, on the bytes of a file. -/
def matchesExpected [DecidableEq δ] (sha256Hex : Bytes → δ) (current : Option Bytes)
    (expected : ExpectedFile δ) : Bool :=
  match current, expected.present, expected.sha256 with
  | none, false, none => true
  | some bytes, true, some hash => bytes.length = expected.size && sha256Hex bytes = hash
  | _, _, _ => false

def expectedFile (sha256Hex : Bytes → δ) : Option Bytes → ExpectedFile δ
  | some bytes => ⟨true, bytes.length, some (sha256Hex bytes)⟩
  | none => ⟨false, 0, none⟩

section Store

variable [DecidableEq δ] (env : RestoreEnvironment δ)

def validateTransactionRecord (record : TransactionRecord δ) : Except SnapshotError Unit := do
  if record.schema ≠ TRANSACTION_SCHEMA_VERSION ∨
      record.ticket.schema ≠ TRANSACTION_SCHEMA_VERSION ∨
      record.ticket.profileName ≠ env.profileName then
    .error (.invalidState "restore transaction schema/profile/operation count is invalid")
  else do
    validateIdentifier record.ticket.ticketId
    validateIdentifier record.ticket.snapshotId
    (List.finRange 7).forM fun i =>
      let operation := record.operations i
      let path := (FILE_POLICY i).manifestPath
      if operation.original.present ≠ operation.original.sha256.isSome ∨
          (operation.original.present = false ∧ operation.original.size ≠ 0) ∨
          operation.original.size > (FILE_POLICY i).maxBytes then
        .error (.invalidState ("restore transaction original metadata is invalid for " ++ path))
      else if decide (operation.desiredState = .present) ≠ operation.desiredSha256.isSome then
        .error (.invalidState ("restore transaction desired metadata is invalid for " ++ path))
      else if decide (operation.status = .applied ∧ operation.desiredState = .present) ≠
          operation.appliedSha256.isSome then
        .error (.invalidState ("restore transaction applied metadata is invalid for " ++ path))
      else .ok ()

def detail (snapshotId : String) : Except SnapshotError (SnapshotManifest δ) := do
  validateIdentifier snapshotId
  env.loadSnapshot snapshotId

/-- The digest of the manifest of a snapshot. -/
def manifestSha256 (snapshotId : String) : Except SnapshotError δ :=
  match env.manifestBytes snapshotId with
  | some bytes => .ok (env.sha256Hex bytes)
  | none => .error (.integrity "snapshot manifest disappeared")

def desiredFile (manifest : SnapshotManifest δ) (i : FileIndex) (current : Option Bytes) :
    Except SnapshotError DesiredFile :=
  let entry := manifest.files i
  let policy := FILE_POLICY i
  match entry.state with
  | .present => do
      let snapshot ← env.readSnapshotBlob manifest.snapshotId i
      let bytes ← mergeCurrentSecrets env.codecs policy snapshot entry.redactedPaths current
      if bytes.length > policy.maxBytes then
        .error (.oversized entry.path bytes.length policy.maxBytes)
      else .ok ⟨some bytes, entry.mode⟩
  | .missing => .ok ⟨none, none⟩
  | .omitted => .ok ⟨none, none⟩

/-! ## Reading and writing files -/

def readTarget (i : FileIndex) : RestoreProgram δ (Option StoredFile) := do
  let disk ← Program.read
  Program.ofExcept
    (readRegularBounded (FILE_POLICY i).manifestPath (disk.target i) (FILE_POLICY i).maxBytes)

def readBackup (id : String) (name : BackupName) : RestoreProgram δ (Option StoredFile) := do
  let disk ← Program.read
  Program.ofExcept (readRegularBounded (FILE_POLICY name.index).manifestPath
    (disk.entry id name) (FILE_POLICY name.index).maxBytes)

/-- `validate_directory_tree` of the backup directory. -/
def validateBackupDirectory (id : String) : RestoreProgram δ Unit := do
  let disk ← Program.read
  if (disk.backups id).isSome = true then pure () else throw (.io "inspect directory")

/-- `ensure_directory_tree` of the backup directory. -/
def ensureBackupDirectory (id : String) : RestoreProgram δ Unit := do
  let disk ← Program.read
  if (disk.backups id).isSome = true then pure ()
  else
    Program.durable (.io "create directory") fun disk =>
      disk.setDirectory id (some fun _ => none)

/-- `rename_durable` of a policy file into the backup directory. -/
def renameToBackup (id : String) (i : FileIndex) (suffix : BackupSuffix) :
    RestoreProgram δ Unit := do
  let disk ← Program.read
  if (disk.target i).isSome = true ∧ (disk.backups id).isSome = true then
    Program.durable (.io "durably move") fun disk =>
      (disk.setEntry id ⟨i, suffix, false⟩ (disk.target i)).setTarget i none
  else throw (.io "durably move")

/-- `replace_durable` of a policy file by its backup. -/
def replaceFromBackup (id : String) (i : FileIndex) : RestoreProgram δ Unit := do
  let disk ← Program.read
  if (disk.entry id ⟨i, .original, false⟩).isSome = true then
    Program.durable (.io "durably move") fun disk =>
      (disk.setTarget i (disk.entry id ⟨i, .original, false⟩)).setEntry id
        ⟨i, .original, false⟩ none
  else throw (.io "durably move")

/-- The mode of a file that `create_new_private` creates. -/
def privateMode : Nat := 0o600

/-- `write_durable` of a policy file. -/
def writeTarget (i : FileIndex) (bytes : Bytes) : RestoreProgram δ Unit := do
  Program.attempt (.io "create directory")
  Program.durable (.io "durably move") fun disk =>
    disk.setTarget i (some ⟨bytes, privateMode⟩)

def applyMode (i : FileIndex) : Option Nat → RestoreProgram δ Unit
  | none => pure ()
  | some mode =>
      Program.durable (.io "set mode") fun disk =>
        disk.setTarget i ((disk.target i).map fun file => { file with mode := mode &&& 0o777 })

/-- The end of `remove_sensitive_file_durable`: truncate the tombstone and remove it. -/
def removeTombstone (id : String) (i : FileIndex) (suffix : BackupSuffix) :
    RestoreProgram δ Unit := do
  Program.durable (.io "truncate") fun disk =>
    disk.setEntry id ⟨i, suffix, true⟩
      ((disk.entry id ⟨i, suffix, true⟩).map fun file => { file with bytes := [] })
  Program.durable (.io "remove tombstone") fun disk => disk.setEntry id ⟨i, suffix, true⟩ none

/-- A tombstone that an earlier call left goes first. -/
def clearTombstone (id : String) (i : FileIndex) (suffix : BackupSuffix) :
    RestoreProgram δ Unit := do
  let disk ← Program.read
  if (disk.entry id ⟨i, suffix, true⟩).isSome = true then removeTombstone id i suffix
  else pure ()

/-- The file itself becomes a tombstone and goes. -/
def buryFile (id : String) (i : FileIndex) (suffix : BackupSuffix) :
    RestoreProgram δ Unit := do
  let disk ← Program.read
  if (disk.entry id ⟨i, suffix, false⟩).isSome = true then do
    Program.durable (.io "durably move") fun disk =>
      (disk.setEntry id ⟨i, suffix, true⟩ (disk.entry id ⟨i, suffix, false⟩)).setEntry id
        ⟨i, suffix, false⟩ none
    removeTombstone id i suffix
  else pure ()

/-- `remove_sensitive_file_durable`. -/
def removeSensitiveFile (id : String) (i : FileIndex) (suffix : BackupSuffix) :
    RestoreProgram δ Unit := do
  clearTombstone id i suffix
  buryFile id i suffix

/-- The names that the deletion of a backup directory visits. -/
def backupFiles : List (FileIndex × BackupSuffix) :=
  (List.finRange 7).flatMap fun i => [(i, .original), (i, .discarded)]

/-- `remove_backup_directory`.  Removing the directory of the profile, where it has become
empty, changes nothing that a restore reads. -/
def removeBackupDirectory (id : String) : RestoreProgram δ Unit := do
  let disk ← Program.read
  if (disk.backups id).isSome = true then do
    backupFiles.forM fun file => removeSensitiveFile id file.1 file.2
    let disk ← Program.read
    if backupFiles.any (fun file => (disk.entry id ⟨file.1, file.2, false⟩).isSome ||
        (disk.entry id ⟨file.1, file.2, true⟩).isSome) = true then
      throw (.unsafePath "transaction backup did not become empty")
    else do
      Program.durable (.io "remove directory") fun disk => disk.setDirectory id none
      Program.attempt (.io "remove directory")
  else pure ()

/-! ## Records on disk -/

/-- `write_transaction`.  The encoding of a record, seven operations of fixed shape with
bounded identifiers, stays far below `MAX_TRANSACTION_BYTES`. -/
def writeTransaction (record : TransactionRecord δ) : RestoreProgram δ Unit := do
  Program.ofExcept (validateIdentifier record.ticket.ticketId)
  Program.durable (.io "durably move") fun disk => disk.writeRecord record

def readTransaction (id : String) : RestoreProgram δ (TransactionRecord δ) := do
  Program.ofExcept (validateIdentifier id)
  let disk ← Program.read
  match findRecord id disk.transactions with
  | none => throw (.invalidState ("restore transaction not found: " ++ id))
  | some record => do
      Program.ofExcept (validateTransactionRecord env record)
      pure record

def readMatchingTransaction (ticket : RestoreTicket δ) :
    RestoreProgram δ (TransactionRecord δ) :=
  if ticket.schema ≠ TRANSACTION_SCHEMA_VERSION ∨ ticket.profileName ≠ env.profileName then
    throw (.invalidState "restore ticket does not belong to this store")
  else do
    let record ← readTransaction env ticket.ticketId
    if record.ticket ≠ ticket then
      throw (.invalidState "restore ticket does not match durable transaction")
    else pure record

def transactionRecords : RestoreProgram δ (List (TransactionRecord δ)) := do
  let disk ← Program.read
  disk.transactions.forM fun record => Program.ofExcept (validateTransactionRecord env record)
  if disk.transactions.length > MAX_TRANSACTION_RECORDS then
    throw (.capacity "restore transaction count exceeds 64")
  else pure disk.transactions

def sortByCreation (records : List (TransactionRecord δ)) : List (TransactionRecord δ) :=
  records.insertionSort fun a b => a.ticket.createdUnixMs ≤ b.ticket.createdUnixMs

def pendingTransactions : RestoreProgram δ (List (TransactionRecord δ)) := do
  let records ← transactionRecords env
  pure (sortByCreation (records.filter fun record => !record.status.isTerminal))

def pruneTerminalTransactions : RestoreProgram δ Unit := do
  let records ← transactionRecords env
  if records.length < MAX_TRANSACTION_RECORDS then pure ()
  else
    let removeCount := records.length + 1 - MAX_TRANSACTION_RECORDS
    let removable :=
      ((sortByCreation records).filter fun record => record.status.isTerminal).take removeCount
    if removable.length ≠ removeCount then
      throw (.capacity "restore transaction bound reached with active records")
    else
      removable.forM fun record =>
        Program.durable (.io "remove old transaction") fun disk =>
          disk.removeRecord record.ticket.ticketId

/-! ## Prepare -/

/-- The operation that `prepare_restore` records for a file, and whether the file makes a
materialization necessary. -/
def prepareOperation (manifest : SnapshotManifest δ) (i : FileIndex) :
    RestoreProgram δ (RestoreOperation δ × Bool) := do
  let current ← readTarget i
  let currentBytes := current.map (·.bytes)
  let desired ← Program.ofExcept (desiredFile env manifest i currentBytes)
  let differs := decide (i.val ≤ 2) && decide ((manifest.files i).state ≠ .omitted) &&
    decide (desired.bytes ≠ currentBytes)
  pure (⟨.pending, expectedFile env.sha256Hex currentBytes, (manifest.files i).state,
    desired.bytes.map env.sha256Hex, none⟩, differs)

def prepareOperations (manifest : SnapshotManifest δ) :
    RestoreProgram δ ((FileIndex → RestoreOperation δ) × Bool) := do
  let (o0, b0) ← prepareOperation env manifest 0
  let (o1, b1) ← prepareOperation env manifest 1
  let (o2, b2) ← prepareOperation env manifest 2
  let (o3, b3) ← prepareOperation env manifest 3
  let (o4, b4) ← prepareOperation env manifest 4
  let (o5, b5) ← prepareOperation env manifest 5
  let (o6, b6) ← prepareOperation env manifest 6
  pure (![o0, o1, o2, o3, o4, o5, o6], b0 || b1 || b2 || b3 || b4 || b5 || b6)

/-- `prepare_restore`, with the identifier that `new_identifier` returns and the time. -/
def prepareRestore (snapshotId newIdentifier : String) (unixMillis : Nat) :
    RestoreProgram δ (RestoreTicket δ) := do
  pruneTerminalTransactions env
  match ← pendingTransactions env with
  | active :: _ =>
      throw (.invalidState ("restore " ++ active.ticket.ticketId ++
        " is already active for profile " ++ env.profileName))
  | [] => do
      let manifest ← Program.ofExcept (detail env snapshotId)
      let manifestDigest ← Program.ofExcept (manifestSha256 env snapshotId)
      let (operations, needsMaterialization) ← prepareOperations env manifest
      let ticket : RestoreTicket δ :=
        ⟨TRANSACTION_SCHEMA_VERSION, newIdentifier, snapshotId, manifestDigest, env.profileName,
          unixMillis, needsMaterialization⟩
      writeTransaction ⟨TRANSACTION_SCHEMA_VERSION, ticket, .prepared, needsMaterialization,
        operations⟩
      pure ticket

/-! ## Apply -/

def revalidateTicketSnapshot (ticket : RestoreTicket δ) :
    Except SnapshotError (SnapshotManifest δ) := do
  let manifest ← detail env ticket.snapshotId
  let digest ← manifestSha256 env ticket.snapshotId
  if digest ≠ ticket.snapshotManifestSha256 then
    .error (.integrity "snapshot manifest changed after prepare")
  else .ok manifest

/-- The current content must be the recorded original. -/
def checkOriginal (i : FileIndex) (original : ExpectedFile δ) : RestoreProgram δ Unit := do
  let current ← readTarget i
  if matchesExpected env.sha256Hex (current.map (·.bytes)) original = false then
    throw (.concurrentModification (FILE_POLICY i).manifestPath)
  else pure ()

def preflightOriginals (record : TransactionRecord δ) : RestoreProgram δ Unit :=
  (List.finRange 7).forM fun i => checkOriginal env i (record.operations i).original

def verifyAppliedOperation (i : FileIndex) (operation : RestoreOperation δ) :
    RestoreProgram δ Unit :=
  if operation.desiredState = .omitted then pure ()
  else do
    let current ← readTarget i
    if operation.appliedSha256 = current.map (fun file => env.sha256Hex file.bytes) then pure ()
    else throw (.concurrentModification (FILE_POLICY i).manifestPath)

/-- The first write of an apply: the preflight, the space budget, and the status. -/
def beginApply (manifest : SnapshotManifest δ) (record : TransactionRecord δ) :
    RestoreProgram δ (TransactionRecord δ) :=
  if record.status = .prepared then do
    preflightOriginals env record
    (List.finRange 7).forM fun i => do
      let current ← readTarget i
      let _ ← Program.ofExcept (desiredFile env manifest i (current.map (·.bytes)))
      pure ()
    Program.attempt (.io "restore target-volume space")
    let record := { record with status := .applying }
    writeTransaction record
    pure record
  else pure record

/-- Set the status of one operation and write the record. -/
def writeStatus (record : TransactionRecord δ) (i : FileIndex) (status : OperationStatus) :
    RestoreProgram δ (TransactionRecord δ) := do
  let record := record.setOperation i { record.operations i with status := status }
  writeTransaction record
  pure record

def startOperation (record : TransactionRecord δ) (i : FileIndex) :
    RestoreProgram δ (TransactionRecord δ) :=
  if (record.operations i).status = .pending then do
    checkOriginal env i (record.operations i).original
    writeStatus record i .applying
  else pure record

/-- The original of a started operation moves into the backup directory. -/
def moveOriginal (id : String) (i : FileIndex) (original : ExpectedFile δ) :
    RestoreProgram δ Unit := do
  match ← readBackup id ⟨i, .original, false⟩ with
  | some _ => pure ()
  | none => do
      checkOriginal env i original
      validateBackupDirectory id
      renameToBackup id i .original

/-- The backup of a started operation is complete. -/
def backUpOriginal (record : TransactionRecord δ) (i : FileIndex) :
    RestoreProgram δ (TransactionRecord δ) :=
  let id := record.ticket.ticketId
  let operation := record.operations i
  let path := (FILE_POLICY i).manifestPath
  if operation.status = .applying then
    if operation.original.present = true then do
      moveOriginal env id i operation.original
      validateBackupDirectory id
      match ← readBackup id ⟨i, .original, false⟩ with
      | none => throw (.integrity ("missing transaction backup for " ++ path))
      | some backup =>
          if matchesExpected env.sha256Hex (some backup.bytes) operation.original = false then
            throw (.integrity ("transaction backup changed for " ++ path))
          else writeStatus record i .backedUp
    else do
      match ← readBackup id ⟨i, .original, false⟩ with
      | some _ => throw (.integrity ("unexpected backup for originally missing " ++ path))
      | none => writeStatus record i .backedUp
  else pure record

/-- The current content that the secrets come from: the backup of the original. -/
def backedUpOriginal (id : String) (i : FileIndex) (operation : RestoreOperation δ) :
    RestoreProgram δ (Option Bytes) :=
  if operation.original.present = true then do
    validateBackupDirectory id
    match ← readBackup id ⟨i, .original, false⟩ with
    | none => throw (.integrity "transaction backup disappeared")
    | some backup => pure (some backup.bytes)
  else pure none

def placeDesired (i : FileIndex) (desired : DesiredFile) : RestoreProgram δ Unit := do
  match desired.bytes with
  | some bytes => do
      match ← readTarget i with
      | some existing =>
          if existing.bytes = bytes then pure ()
          else throw (.concurrentModification (FILE_POLICY i).manifestPath)
      | none => do
          writeTarget i bytes
          applyMode i desired.mode
  | none => do
      let disk ← Program.read
      if (disk.target i).isSome = true then
        throw (.concurrentModification (FILE_POLICY i).manifestPath)
      else pure ()

/-- The end of an operation: the desired content is written and recorded. -/
def publishDesired (manifest : SnapshotManifest δ) (record : TransactionRecord δ)
    (i : FileIndex) : RestoreProgram δ (TransactionRecord δ) := do
  let operation := record.operations i
  let current ← backedUpOriginal record.ticket.ticketId i operation
  let desired ← Program.ofExcept (desiredFile env manifest i current)
  if desired.bytes.map env.sha256Hex ≠ operation.desiredSha256 then
    throw (.integrity ("prepared desired content changed for " ++ (FILE_POLICY i).manifestPath))
  else do
    placeDesired i desired
    let record := record.setOperation i
      { operation with status := .applied, appliedSha256 := desired.bytes.map env.sha256Hex }
    writeTransaction record
    pure record

/-- One round of the loop of `apply_restore_inner`. -/
def applyOperation (manifest : SnapshotManifest δ) (record : TransactionRecord δ)
    (i : FileIndex) : RestoreProgram δ (TransactionRecord δ) :=
  if (record.operations i).status = .applied then do
    verifyAppliedOperation env i (record.operations i)
    pure record
  else if (record.operations i).desiredState = .omitted then
    writeStatus record i .applied
  else do
    validateBackupDirectory record.ticket.ticketId
    let record ← startOperation env record i
    let record ← backUpOriginal env record i
    publishDesired env manifest record i

/-- `apply_restore_inner` on a record that is prepared or applying. -/
def applyRecord (record : TransactionRecord δ) : RestoreProgram δ RestoreOutcome := do
  let manifest ← Program.ofExcept (revalidateTicketSnapshot env record.ticket)
  let record ← beginApply env manifest record
  ensureBackupDirectory record.ticket.ticketId
  let record ← (List.finRange 7).foldlM (applyOperation env manifest) record
  let record := { record with status := .applied }
  writeTransaction record
  pure (outcome record)

def applyRestore (ticket : RestoreTicket δ) : RestoreProgram δ RestoreOutcome := do
  let record ← readMatchingTransaction env ticket
  match record.status with
  | .applied => pure (outcome record)
  | .prepared => applyRecord env record
  | .applying => applyRecord env record
  | status =>
      throw (.invalidState ("cannot apply restore while it is " ++ status.debug))

/-! ## Materialization and commit -/

def markMaterialized (ticket : RestoreTicket δ) : RestoreProgram δ RestoreOutcome := do
  let record ← readMatchingTransaction env ticket
  if record.status = .applied then do
    let record := { record with materializationPending := false }
    writeTransaction record
    pure (outcome record)
  else if record.status = .committed ∧ record.materializationPending = false then
    pure (outcome record)
  else
    throw (.invalidState ("cannot mark materialized while restore is " ++ record.status.debug))

/-- The end of `commit_restore_inner`, from the record that is committing. -/
def finishCommit (record : TransactionRecord δ) : RestoreProgram δ RestoreOutcome := do
  removeBackupDirectory record.ticket.ticketId
  let record := { record with status := .committed }
  writeTransaction record
  pure (outcome record)

def commitRestore (ticket : RestoreTicket δ) : RestoreProgram δ RestoreOutcome := do
  let record ← readMatchingTransaction env ticket
  match record.status with
  | .committed => do
      removeBackupDirectory record.ticket.ticketId
      pure (outcome record)
  | .committing => finishCommit record
  | .applied =>
      if record.materializationPending = true then
        throw (.invalidState "dependency materialization is still pending")
      else do
        let record := { record with status := .committing }
        writeTransaction record
        finishCommit record
  | status => throw (.invalidState ("cannot commit restore while it is " ++ status.debug))

/-! ## Rollback -/

/-- `move_rollback_discard`: a file that was not there before moves aside. -/
def moveRollbackDiscard (id : String) (i : FileIndex) (expectedAppliedSha256 : Option δ)
    (confirmedApplied : Bool) : RestoreProgram δ Unit := do
  let path := (FILE_POLICY i).manifestPath
  let discarded ← readBackup id ⟨i, .discarded, false⟩
  let current ← readTarget i
  match current, discarded with
  | some _, some _ =>
      throw (.integrity ("restore target and rollback discard both exist for " ++ path))
  | none, some discard =>
      if expectedAppliedSha256 = some (env.sha256Hex discard.bytes) then pure ()
      else throw (.integrity ("rollback discard changed for " ++ path))
  | none, none =>
      if confirmedApplied = true ∧ expectedAppliedSha256.isSome = true then
        throw (.integrity
          ("applied target and rollback discard are both unavailable for " ++ path))
      else pure ()
  | some file, none =>
      if expectedAppliedSha256 = some (env.sha256Hex file.bytes) then do
        ensureBackupDirectory id
        renameToBackup id i .discarded
      else throw (.concurrentModification path)

/-- The files of one operation go back to what they were. -/
def restoreOriginal (id : String) (i : FileIndex) (operation : RestoreOperation δ) :
    RestoreProgram δ Unit := do
  let path := (FILE_POLICY i).manifestPath
  match ← readBackup id ⟨i, .original, false⟩ with
  | some backup =>
      if matchesExpected env.sha256Hex (some backup.bytes) operation.original = false then
        throw (.integrity ("transaction backup changed for " ++ path))
      else do
        Program.attempt (.io "create directory")
        validateBackupDirectory id
        replaceFromBackup id i
  | none =>
      if operation.original.present = true then do
        let current ← readTarget i
        if matchesExpected env.sha256Hex (current.map (·.bytes)) operation.original = false then
          throw (.integrity ("original file and backup are both unavailable for " ++ path))
        else pure ()
      else
        moveRollbackDiscard env id i
          (if operation.status = .backedUp then operation.desiredSha256
            else operation.appliedSha256)
          (decide (operation.status = .applied))

/-- One round of the loop of `rollback_restore_inner`. -/
def rollbackOperation (record : TransactionRecord δ) (i : FileIndex) :
    RestoreProgram δ (TransactionRecord δ) :=
  let operation := record.operations i
  if operation.status = .pending ∨ operation.status = .rolledBack then pure record
  else do
    restoreOriginal env record.ticket.ticketId i operation
    let record := record.setOperation i
      { operation with status := .rolledBack, appliedSha256 := none }
    writeTransaction record
    pure record

def finishRollback (record : TransactionRecord δ) : RestoreProgram δ RestoreOutcome := do
  let record := { record with status := .rolledBack, materializationPending := false }
  writeTransaction record
  pure (outcome record)

/-- `rollback_restore_inner` on a record that is applying or applied. -/
def rollbackRecord (record : TransactionRecord δ) : RestoreProgram δ RestoreOutcome := do
  let record ← (List.finRange 7).reverse.foldlM (rollbackOperation env) record
  removeBackupDirectory record.ticket.ticketId
  finishRollback record

def rollbackRestore (ticket : RestoreTicket δ) : RestoreProgram δ RestoreOutcome := do
  let record ← readMatchingTransaction env ticket
  match record.status with
  | .rolledBack => do
      removeBackupDirectory record.ticket.ticketId
      pure (outcome record)
  | .committed => throw (.invalidState "committed restore no longer has rollback data")
  | .committing => throw (.invalidState "committed restore no longer has rollback data")
  | .prepared => finishRollback record
  | .applying => rollbackRecord env record
  | .applied => rollbackRecord env record

def recoverRestore (ticket : RestoreTicket δ) : RecoverDecision → RestoreProgram δ RestoreOutcome
  | .resumeApply => applyRestore env ticket
  | .rollback => rollbackRestore env ticket
  | .resumeCommit => commitRestore env ticket

end Store

end DshNexus.Snapshot
