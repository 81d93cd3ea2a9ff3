import DshNexus.Core.Io
import DshNexus.Durable.Session

/-!
# Publication of the configuration pair

`crates/nexus-core/src/config_transaction.rs`: `config.json` and the previous
configuration file are published together through the pending record
`config-write.pending.json`.  A prepared record only rolls back; a committed record
never overwrites external edits.

The record files hold typed records here: what the code writes it reads back.  The
document check (`decode_config_document` and `validate_config_document`), the content of
`cold-publication.json` and the record identity (a SHA-256 of the record's bytes) are
parameters, and nothing below depends on what they are.
-/

namespace DshNexus.Config

open Durable

/-- `LIMIT`: a configuration document has at most 4 MiB. -/
def LIMIT : Nat := 4 * 1024 * 1024

/-- `JOURNAL_LIMIT`: four bounded documents may be encoded as JSON byte arrays. -/
def JOURNAL_LIMIT : Nat := 80 * 1024 * 1024

structure PreviousTarget where
  bytes : Option Bytes
  deriving DecidableEq, Repr

/-- `Pending`, the publication record. -/
structure Pending where
  previousOverride : Option PreviousTarget
  schema : Nat
  committed : Bool
  rotate : Bool
  oldCurrent : Option Bytes
  oldPrevious : Option Bytes
  target : Bytes
  deriving DecidableEq, Repr

def Pending.nextPrevious (p : Pending) : Option Bytes :=
  match p.previousOverride with
  | some target => target.bytes
  | none => if p.rotate then p.oldCurrent else p.oldPrevious

/-- The record after the commit decision. -/
def Pending.commit (p : Pending) : Pending := { p with committed := true }

@[simp] theorem Pending.nextPrevious_commit (p : Pending) :
    p.commit.nextPrevious = p.nextPrevious := rfl

structure PreserveDecision where
  pendingId : String
  currentId : String
  deriving DecidableEq, Repr

/-- The files of the data root that take part. -/
structure ConfigDisk where
  /-- `config.json` -/
  config : Option Bytes
  /-- the previous-config file -/
  previous : Option Bytes
  /-- `config-write.pending.json` -/
  pending : Option Pending
  /-- `config-preserve.pending.json` -/
  preserve : Option PreserveDecision
  /-- `config-preserved-<id>.json`, by id -/
  archives : List (String × Pending)
  /-- `cold-publication.json` -/
  outerPublication : Option Bytes
  deriving DecidableEq, Repr

inductive PairFile where
  | config
  | previous
  deriving DecidableEq, Repr

def ConfigDisk.get (disk : ConfigDisk) : PairFile → Option Bytes
  | .config => disk.config
  | .previous => disk.previous

def ConfigDisk.set (disk : ConfigDisk) (path : PairFile) (bytes : Option Bytes) : ConfigDisk :=
  match path with
  | .config => { disk with config := bytes }
  | .previous => { disk with previous := bytes }

/-- The checks that read content only: the document check, the size of an encoded record,
the identity of a record and of a document, and the decision in the outer record. -/
structure ConfigChecks where
  validateDocument : Bytes → Except IoError Unit
  encodedLength : Pending → Nat
  recordId : Pending → String
  bytesId : Bytes → String
  outerDecision : Bytes → Except IoError Bool

abbrev ConfigProgram := Program ConfigDisk IoError

namespace ConfigStore

variable (checks : ConfigChecks)

def outerPreservesCurrent : ConfigProgram Bool := do
  let disk ← Program.read
  match disk.outerPublication with
  | none => pure false
  | some bytes => Program.ofExcept (checks.outerDecision bytes)

/-- `validate_config_document` on decoded bytes.  Part of the check reads the file system
(overlapping directories), so it may also fail for a reason outside the document. -/
def validateDocument (bytes : Bytes) : ConfigProgram Unit := do
  Program.attempt fileOperationFailed
  Program.ofExcept (checks.validateDocument bytes)

def validatedCurrentBytes : ConfigProgram Bytes := do
  match ← readFile ConfigDisk.config LIMIT with
  | none =>
      throw (invalidData "Current configuration is missing; cannot preserve unknown settings")
  | some bytes =>
      validateDocument checks bytes
      pure bytes

def validatePendingConfigs (p : Pending) : ConfigProgram Unit :=
  if p.schema ≠ 1 then throw (invalidData "Invalid configuration transaction")
  else
    ([some p.target, p.oldCurrent, p.oldPrevious, p.previousOverride.bind (·.bytes)].filterMap
      id).forM fun bytes =>
        if bytes.length > LIMIT then throw (invalidData "Invalid configuration transaction")
        else validateDocument checks bytes

/-- `fs::remove_file` of the pending record. -/
def removePending : ConfigProgram Unit :=
  Program.durable fileOperationFailed fun disk => { disk with pending := none }

/-- `fs::remove_file` of the preserve decision. -/
def removePreserve : ConfigProgram Unit :=
  Program.durable fileOperationFailed fun disk => { disk with preserve := none }

def savePending (p : Pending) : ConfigProgram Unit :=
  if checks.encodedLength p > JOURNAL_LIMIT then
    throw (invalidData "Configuration transaction is too large")
  else Program.durable fileOperationFailed fun disk => { disk with pending := some p }

/-- The archive of a preserved record: an existing archive must be the same record. -/
def archivePending (id : String) (p : Pending) : ConfigProgram Unit := do
  let disk ← Program.read
  match disk.archives.lookup id with
  | some existing =>
      if existing ≠ p then throw (invalidData "Configuration archive differs") else pure ()
  | none =>
      Program.durable fileOperationFailed fun disk =>
        { disk with archives := (id, p) :: disk.archives }

def preservePendingInner : ConfigProgram Unit := do
  let _ ← outerPreservesCurrent checks
  let current ← validatedCurrentBytes checks
  let disk ← Program.read
  match disk.pending with
  | none =>
      match disk.preserve with
      | none => pure ()
      | some decision =>
          if decision.currentId ≠ checks.bytesId current then
            throw (invalidData "Configuration changed during recovery")
          else removePreserve
  | some p =>
      validatePendingConfigs checks p
      let id := checks.recordId p
      let decision ← match disk.preserve with
        | some saved =>
            if saved.pendingId ≠ id ∨ saved.currentId ≠ checks.bytesId current then
              throw (invalidData "Configuration changed during recovery")
            else pure saved
        | none => do
            let saved : PreserveDecision := ⟨id, checks.bytesId current⟩
            Program.durable fileOperationFailed fun disk => { disk with preserve := some saved }
            pure saved
      archivePending decision.pendingId p
      let again ← validatedCurrentBytes checks
      let disk ← Program.read
      if again ≠ current ∨ disk.pending ≠ some p then
        throw (invalidData "Configuration changed during recovery")
      else do
        removePending
        removePreserve

def restoreBytes (path : PairFile) (observed target : Option Bytes) : ConfigProgram Unit :=
  if observed = target then pure ()
  else do
    let now ← readFile (·.get path) LIMIT
    if now ≠ observed then throw (invalidData "Configuration changed during recovery")
    else
      match target with
      | some bytes => Program.durable fileOperationFailed fun disk => disk.set path (some bytes)
      | none => Program.durable fileOperationFailed fun disk => disk.set path none

def settlePendingInner : ConfigProgram Unit := do
  let outerPreserves ← outerPreservesCurrent checks
  let disk ← Program.read
  if disk.preserve.isSome ∨ outerPreserves = true then preservePendingInner checks
  else
    match disk.pending with
    | none => pure ()
    | some p =>
        validatePendingConfigs checks p
        if p.schema ≠ 1 ∨ p.target.length > LIMIT ∨ p.oldCurrent.any (·.length > LIMIT) ∨
            p.oldPrevious.any (·.length > LIMIT) ∨ (p.rotate = true ∧ p.oldCurrent = none) then
          throw (invalidData "Invalid configuration transaction")
        else do
          let current ← readFile ConfigDisk.config LIMIT
          let previous ← readFile ConfigDisk.previous LIMIT
          if p.committed = true then
            if current ≠ some p.target ∨ previous ≠ p.nextPrevious then
              throw (invalidData "Committed configuration was externally changed")
            else removePending
          else if (current ≠ p.oldCurrent ∧ current ≠ some p.target) ∨
              (previous ≠ p.oldPrevious ∧ previous ≠ p.nextPrevious) then
            throw (invalidData "Pending configuration was externally changed")
          else do
            restoreBytes .config current p.oldCurrent
            restoreBytes .previous previous p.oldPrevious
            removePending

/-- The cause kept by `pending_error`. -/
def pendingCause (error : IoError) : String :=
  if error.message ∈ ["Committed configuration was externally changed",
      "Pending configuration was externally changed", "Configuration changed during recovery",
      "Invalid configuration transaction"] then error.message
  else "file operation " ++ reprStr error.kind

def pendingError (error : IoError) : IoError :=
  ⟨.wouldBlock, "Configuration recovery is pending (" ++ pendingCause error ++ "). Close " ++
    "programs locking Nexus configuration files, then retry Settings refresh. If files were " ++
    "externally changed, preserve them and export diagnostics; Nexus will not overwrite them."⟩

def settlePendingUnlocked : ConfigProgram Unit :=
  tryCatch (settlePendingInner checks) fun e => throw (pendingError e)

def acceptCommitted (p : Pending) : ConfigProgram Unit := do
  let current ← tryCatch (readFile ConfigDisk.config LIMIT) fun e => throw (pendingError e)
  let previous ← tryCatch (readFile ConfigDisk.previous LIMIT) fun e => throw (pendingError e)
  if current ≠ some p.target ∨ previous ≠ p.nextPrevious then
    throw (pendingError (invalidData "Committed configuration was externally changed"))
  else Program.ignoreError removePending

/-- The record that `publish_config_pair` prepares from the observed pair. -/
def preparedRecord (target : Bytes) (validCurrent : Bool)
    (previousOverride : Option PreviousTarget) (oldCurrent oldPrevious : Option Bytes) : Pending :=
  { previousOverride, schema := 1, committed := false,
    rotate := validCurrent && oldCurrent.isSome, oldCurrent, oldPrevious, target }

/-- The end of `publish_config_pair` after a failed step: the durable record decides, also
after an ambiguous commit write. -/
def publishFailed (p : Pending) (error : IoError) : ConfigProgram Unit := do
  let disk ← Program.read
  if disk.pending.any (fun record => record.committed && record == p) then acceptCommitted p
  else do
    settlePendingUnlocked checks
    throw error

/-- The steps of `publish_config_pair` from the prepared record on. -/
def publishPrepared (p : Pending) : ConfigProgram Unit := do
  savePending checks p
  let replaced ← Program.toExcept do
    restoreBytes .config p.oldCurrent (some p.target)
    restoreBytes .previous p.oldPrevious p.nextPrevious
  match replaced with
  | .error error => publishFailed checks p error
  | .ok () =>
      match ← Program.toExcept (savePending checks p.commit) with
      | .error error => publishFailed checks p.commit error
      | .ok () => Program.ignoreError removePending

/-- The previous configuration, where there is one, must itself be valid. -/
def validatePrevious : Option Bytes → ConfigProgram Unit
  | some bytes => validateDocument checks bytes
  | none => pure ()

def publishConfigPair (target : Bytes) (validCurrent : Bool)
    (previousOverride : Option PreviousTarget) (expected : Option (Bytes × Option Bytes)) :
    ConfigProgram Unit := do
  let oldCurrent ← readFile ConfigDisk.config LIMIT
  let oldPrevious ← readFile ConfigDisk.previous LIMIT
  if ∃ pair ∈ expected, oldCurrent ≠ some pair.1 ∨ oldPrevious ≠ pair.2 then
    throw ⟨.wouldBlock, "Configuration pair changed before recovery publication; newer files " ++
      "were retained"⟩
  else do
    validatePrevious checks oldPrevious
    if target.length > LIMIT then throw (invalidData "Configuration exceeds 4MiB")
    else do
      let p := preparedRecord target validCurrent previousOverride oldCurrent oldPrevious
      validatePendingConfigs checks p
      publishPrepared checks p

end ConfigStore

end DshNexus.Config
