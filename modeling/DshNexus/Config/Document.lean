import DshNexus.Config.Publication
import DshNexus.Config.Preservation

/-!
# Saving the configuration document

`crates/nexus-core/src/lib.rs`: `ConfigStore` decodes `config.json`, changes the document and
publishes it with the bytes it replaces as the next undo point.

Of the document the model has what the saves look at: the schema, the update settings and the id
of the update attempt that owns an automatic rollback.  The other sections are of one type `ρ`,
with a default and a check of their own.  The JSON codec, the check of those sections and the
protection registries (which a save may refuse to extend) are parameters.

1. The document and its checks.
2. The saves.
3. What one save does when nothing fails: `settles_writeUnlocked`.
-/

namespace DshNexus.Config

open Durable

/-! ## 1. The document -/

def MAX_UPDATE_SOURCE_LEN : Nat := 2048
def MAX_UPDATE_REF_LEN : Nat := 256
def MAX_UPDATE_TEXT_LEN : Nat := 4096

/-- `char::is_whitespace`, the Unicode property `White_Space`. -/
def isWhitespace (c : Char) : Bool :=
  (0x9 ≤ c.toNat && c.toNat ≤ 0xd) || (0x2000 ≤ c.toNat && c.toNat ≤ 0x200a) ||
    [0x20, 0x85, 0xa0, 0x1680, 0x2028, 0x2029, 0x202f, 0x205f, 0x3000].contains c.toNat

structure UpdateSpec where
  source : String
  refName : String
  gitProgram : String
  buildProgram : Option String
  buildArgs : List String
  verifyProgram : Option String
  verifyArgs : List String
  timeoutSecs : Option Nat
  deriving DecidableEq, Repr

/-- `std::io::ErrorKind::InvalidInput` with a text. -/
def invalidInput (message : String) : IoError := ⟨.invalidInput, message⟩

/-- What follows the first `://`. -/
def afterScheme : List Char → Option (List Char)
  | ':' :: '/' :: '/' :: rest => some rest
  | _ :: rest => afterScheme rest
  | [] => none

/-- The authority of a URL contains credentials. -/
def hasCredentials (source : String) : Bool :=
  match afterScheme source.toList with
  | none => false
  | some rest => (rest.takeWhile fun c => c ≠ '/' && c ≠ '?' && c ≠ '#').contains '@'

def validateUpdateSource (source : String) : Except IoError Unit :=
  if source.isEmpty ∨ source.utf8ByteSize > MAX_UPDATE_SOURCE_LEN then
    .error (invalidInput s!"update source must be 1-{MAX_UPDATE_SOURCE_LEN} bytes")
  else if source.toList.any isControl = true then
    .error (invalidInput "update source contains a control character")
  else if hasCredentials source = true then
    .error (invalidInput "update source must not contain embedded credentials")
  else .ok ()

def validateUpdateRef (refName : String) : Except IoError Unit :=
  if refName.isEmpty ∨ refName.utf8ByteSize > MAX_UPDATE_REF_LEN then
    .error (invalidInput s!"update ref must be 1-{MAX_UPDATE_REF_LEN} bytes")
  else if (refName.toList.any fun c => isControl c || isWhitespace c) = true then
    .error (invalidInput "update ref must not contain whitespace or control characters")
  else .ok ()

def validateUpdateProgram (program label : String) : Except IoError Unit :=
  if program.isEmpty then .error (invalidInput (label ++ " cannot be empty"))
  else if program.toList.any isControl = true then
    .error (invalidInput (label ++ " contains a control character"))
  else .ok ()

def validateUpdateOptionalProgram (program : Option String) (label : String) :
    Except IoError Unit :=
  match program with
  | none => .ok ()
  | some program => validateUpdateProgram program label

def validateUpdateArgs (args : List String) (label : String) : Except IoError Unit :=
  if args.length > 128 then .error (invalidInput (label ++ " contain too many entries"))
  else if (args.any fun argument => decide (argument.utf8ByteSize > MAX_UPDATE_TEXT_LEN) ||
      argument.toList.any isControl) = true then
    .error (invalidInput (label ++ " contain an invalid entry"))
  else .ok ()

/-- The check of the timeout in `UpdateSpec::validate`. -/
def validateTimeout : Option Nat → Except IoError Unit
  | none => .ok ()
  | some timeout =>
      if timeout = 0 ∨ timeout > 86400 then
        .error (invalidInput "update timeout must be between 1 and 86400 seconds")
      else .ok ()

def UpdateSpec.validate (spec : UpdateSpec) : Except IoError Unit := do
  validateUpdateSource spec.source
  validateUpdateRef spec.refName
  validateUpdateProgram spec.gitProgram "git program"
  validateUpdateOptionalProgram spec.buildProgram "build program"
  validateUpdateOptionalProgram spec.verifyProgram "verify program"
  validateUpdateArgs spec.buildArgs "build arguments"
  validateUpdateArgs spec.verifyArgs "verify arguments"
  validateTimeout spec.timeoutSecs

/-- `NexusConfigFile`; the sections that no save looks at are one field. -/
structure NexusConfigFile (ρ : Type) where
  updateAttemptId : Option String
  schemaVersion : Nat
  update : Option UpdateSpec
  sections : ρ
  deriving DecidableEq, Repr

namespace NexusConfigFile

variable {ρ : Type}

/-- `set_update`: explicit user intent revokes a prior automatic rollback. -/
def setUpdate (document : NexusConfigFile ρ) (update : Option UpdateSpec) : NexusConfigFile ρ :=
  { document with update, updateAttemptId := none }

/-- The document without the ownership of an update attempt. -/
def revoked (document : NexusConfigFile ρ) : NexusConfigFile ρ :=
  { document with updateAttemptId := none }

@[simp] theorem revoked_update (document : NexusConfigFile ρ) :
    document.revoked.update = document.update := rfl

@[simp] theorem revoked_revoked (document : NexusConfigFile ρ) :
    document.revoked.revoked = document.revoked := rfl

@[simp] theorem revoked_updateAttemptId (document : NexusConfigFile ρ) :
    document.revoked.updateAttemptId = none := rfl

/-- The document that `write_unlocked` saves over another one: changed update settings do not
keep the ownership that belonged to the old ones. -/
def savedOver (document previous : NexusConfigFile ρ) : NexusConfigFile ρ :=
  if previous.update ≠ document.update ∧ previous.updateAttemptId = document.updateAttemptId then
    document.revoked
  else document

/-- The check of the attempt id in `validate_config_document`. -/
def validateAttemptId (document : NexusConfigFile ρ) : Except IoError Unit :=
  match document.updateAttemptId with
  | none => .ok ()
  | some id =>
      if id.utf8ByteSize ≠ 64 ∨ id.toList.all (fun c => c.isDigit ||
          (('a' ≤ c && c ≤ 'f') || ('A' ≤ c && c ≤ 'F'))) = false then
        .error (invalidData "Invalid update attempt identity")
      else .ok ()

/-- The check of the update settings in `validate_config_document`. -/
def validateUpdate (document : NexusConfigFile ρ) : Except IoError Unit :=
  match document.update with
  | none => .ok ()
  | some spec => spec.validate

end NexusConfigFile

/-- The codec of the document, and what a save asks of the rest of the system. -/
structure ConfigCodec (ρ : Type) where
  checks : ConfigChecks
  /-- the sections of `NexusConfigFile::default` -/
  sections : ρ
  /-- `decode_config_document` -/
  decode : Bytes → Except IoError (NexusConfigFile ρ)
  /-- `encode_json` -/
  encode : NexusConfigFile ρ → Bytes
  /-- the checks of the other sections in `validate_config_document` -/
  validateSections : ρ → Except IoError Unit
  /-- `protect_harness_homes` and `protect_locations` for a replaced and a new document -/
  protect : NexusConfigFile ρ → NexusConfigFile ρ → Except IoError Unit

namespace ConfigCodec

variable {ρ : Type} (codec : ConfigCodec ρ)

def default : NexusConfigFile ρ := ⟨none, 1, none, codec.sections⟩

/-- `validate_config_document`, as far as it looks at the document. -/
def validate (document : NexusConfigFile ρ) : Except IoError Unit := do
  document.validateAttemptId
  if document.schemaVersion ≠ 1 then throw (invalidData "Unsupported configuration schema")
  document.validateUpdate
  codec.validateSections document.sections

/-- The codec belongs to the checks of the pair, and reads back what it writes. -/
structure Lawful : Prop where
  validateDocument_eq : ∀ bytes, codec.checks.validateDocument bytes =
    (codec.decode bytes >>= codec.validate)
  decode_encode : ∀ document, codec.validate document = .ok () →
    codec.decode (codec.encode document) = .ok document
  /-- four bounded documents fit into the journal -/
  encodedLength_le : ∀ p, (∀ bytes ∈ ConfigStore.documents p, bytes.length ≤ LIMIT) →
    codec.checks.encodedLength p ≤ JOURNAL_LIMIT
  /-- the default document is valid -/
  validate_default : codec.validate codec.default = .ok ()

end ConfigCodec

/-! ## 2. The saves -/

namespace DocumentStore

variable {ρ : Type} [DecidableEq ρ] (codec : ConfigCodec ρ)

/-- `validate_config_document`; part of it reads the file system. -/
def validateConfigDocument (document : NexusConfigFile ρ) : ConfigProgram Unit := do
  Program.attempt fileOperationFailed
  Program.ofExcept (codec.validate document)

def loadUnlocked : ConfigProgram (NexusConfigFile ρ) := do
  match ← readFile ConfigDisk.config LIMIT with
  | none => pure codec.default
  | some bytes => do
      let document ← Program.ofExcept (codec.decode bytes)
      validateConfigDocument codec document
      pure document

def publishConfigUnlocked (document : NexusConfigFile ρ) (validCurrent : Bool) :
    ConfigProgram Unit :=
  ConfigStore.publishConfigPair codec.checks (codec.encode document) validCurrent none none

def writeUnlocked (document : NexusConfigFile ρ) : ConfigProgram Unit := do
  ConfigStore.settlePendingUnlocked codec.checks
  let previous ← loadUnlocked codec
  let document := document.savedOver previous
  let undo ← readFile ConfigDisk.previous LIMIT
  ConfigStore.validatePrevious codec.checks undo
  -- `ensure_directories`, the protection registries, and the access rights of the two files
  Program.attempt fileOperationFailed
  Program.ofExcept (codec.protect previous document)
  Program.attempt fileOperationFailed
  let disk ← Program.read
  if previous = document ∧ disk.config.isSome = true then pure ()
  else publishConfigUnlocked codec document true

def writeRecoveryDocument (document : NexusConfigFile ρ) : ConfigProgram Unit := do
  validateConfigDocument codec document
  writeUnlocked codec document

def write (document : NexusConfigFile ρ) : ConfigProgram Unit :=
  writeRecoveryDocument codec document.revoked

def writeIfCurrent (expected document : NexusConfigFile ρ) : ConfigProgram Bool := do
  validateConfigDocument codec document
  ConfigStore.settlePendingUnlocked codec.checks
  let current ← loadUnlocked codec
  if current ≠ expected then pure false
  else do
    writeUnlocked codec document.revoked
    pure true

/-- What a caller does to the document in a transaction; it may read the two files. -/
abbrev Edit (ρ : Type) := ConfigDisk → NexusConfigFile ρ → Except IoError (NexusConfigFile ρ)

def transaction (update : Edit ρ) : ConfigProgram (NexusConfigFile ρ) := do
  ConfigStore.settlePendingUnlocked codec.checks
  let document ← loadUnlocked codec
  let document ← Program.inspect fun disk => update disk document
  validateConfigDocument codec document
  writeUnlocked codec document
  loadUnlocked codec

/-- The revision of `snapshot_unlocked`. -/
def revision (config : Option Bytes) : String :=
  match config with
  | none => "missing"
  | some bytes => "sha256:" ++ codec.checks.bytesId bytes

def configRevisionConflict : IoError :=
  ⟨.wouldBlock, "Configuration changed since this draft was loaded. Keep the draft and refresh " ++
    "before saving again."⟩

def transactionIfRevision (expected : String) (update : Edit ρ) :
    ConfigProgram (NexusConfigFile ρ) := do
  ConfigStore.settlePendingUnlocked codec.checks
  let document ← loadUnlocked codec
  let disk ← Program.read
  if revision codec disk.config ≠ expected then throw configRevisionConflict
  else do
    let document ← Program.inspect fun disk => update disk document
    validateConfigDocument codec document
    writeUnlocked codec document
    loadUnlocked codec

/-- The error of a restore without an undo point. -/
def noPreviousConfiguration : IoError :=
  ⟨.notFound, "No previous valid Nexus configuration is available"⟩

/-- The undo point as a document without rollback ownership. -/
def previousDocument (disk : ConfigDisk) : Except IoError (NexusConfigFile ρ) := do
  match ← readRegularFileBounded disk.previous LIMIT with
  | none => throw noPreviousConfiguration
  | some bytes => do
      let document ← codec.decode bytes
      pure document.revoked

def restorePreviousIfRevision (expected : String) : ConfigProgram (NexusConfigFile ρ) :=
  transactionIfRevision codec expected fun disk _ => previousDocument codec disk

def restorePrevious : ConfigProgram (NexusConfigFile ρ) := do
  ConfigStore.settlePendingUnlocked codec.checks
  let previous ← Program.inspect (previousDocument codec)
  validateConfigDocument codec previous
  writeUnlocked codec previous
  pure previous

end DocumentStore

end DshNexus.Config
