import DshNexus.Agent.ColdOperation
import DshNexus.Checkpoint.Journal
import DshNexus.Config.Document
import DshNexus.Config.Preservation
import DshNexus.Release.Pointers

/-!
# Ending a publication by keeping what is there

`crates/nexus-agent/src/cold.rs`: a publication that was interrupted is either replayed or, when the
user asks for it, ended with everything kept as it is.  The decision goes into the journal first;
from then on every recovery archives the journal and removes it.

1. The journal, the stores, and `recoverExplicit` with everything it calls.
2. `Untouched`: what the decision keeps, and `Stage`: how far the journal is.
3. `wp_preservePendingInner_of_steps`: preserving the configuration writes no file of the pair.
4. `wp_recoverExplicit`: no cut of a call leaves the invariant.
5. `returns_recoverExplicit`: an uninterrupted call ends the publication.
6. `preserve_ends_publication`: any run of calls.
7. One publication, and its archive.
-/

namespace DshNexus.Publication

open Durable Program Config Release

/-! ## 1. The calls -/

/-- `ColdOperation`; `rest` are the fields that a recovery only copies. -/
structure ColdOperation (κ : Type) where
  operationId : String
  kind : String
  archivePath : Option String
  phase : Agent.ColdOperationPhase
  releaseId : String
  candidate : String
  progressPercent : Nat
  startedAtUnix : Nat
  updatedAtUnix : Option Nat
  error : Option String
  ownerQuiescent : Bool
  cleanupPending : Bool
  cleanupError : Option String
  rest : κ

inductive UpdateState where
  | idle
  | running
  | prepared
  | succeeded
  | failed
  deriving DecidableEq, Repr

structure UpdateRuntimeInfo where
  state : UpdateState
  releaseId : Option String
  startedAtUnix : Option Nat
  finishedAtUnix : Option Nat
  exitCode : Option Int
  error : Option String
  deriving DecidableEq, Repr

/-- The status of an update that ended at `now`. -/
def UpdateRuntimeInfo.ended (state : UpdateState) (releaseId : Option String)
    (startedAtUnix now : Nat) (exitCode : Option Int) (error : Option String) : UpdateRuntimeInfo :=
  ⟨state, releaseId, some startedAtUnix, some now, exitCode, error⟩

/-- `PublicationIntent`, the journal of a publication. -/
structure PublicationIntent (ρ κ : Type) where
  prepareOnly : Bool
  previousProfiles : Option Checkpoint.ProfileCatalog
  targetProfiles : Option Checkpoint.ProfileCatalog
  committed : Bool
  preserveCurrent : Bool
  ownedRuntime : Option String
  ownedEnvironment : Bool
  preserveRelease : Bool
  operation : ColdOperation κ
  previousConfig : NexusConfigFile ρ
  targetConfig : NexusConfigFile ρ
  previousCurrent : Option String
  previousLkg : Option String
  targetLkg : Option String
  previousUpdate : UpdateRuntimeInfo
  newSlot : Bool

/-- The journal with the decision to keep what is there. -/
def PublicationIntent.decided {ρ κ : Type} (intent : PublicationIntent ρ κ) :
    PublicationIntent ρ κ := { intent with preserveCurrent := true }

/-- What a publication and its recovery read and write. -/
structure PublicationDisk (δ : Type) where
  /-- the configuration and its records; `outerPublication` is the journal -/
  config : ConfigDisk
  slots : AList fun _ : String => Slot
  owned : AList fun _ : String => CleanupOwnership δ
  pointers : Option (ReleasePointerDocument δ)
  profiles : Option Checkpoint.ProfileCatalog
  runtimes : AList fun _ : String => Slot
  environments : AList fun _ : String => Slot
  /-- the candidate directories, by path -/
  candidates : AList fun _ : String => Slot
  /-- the temporary files of exports, by path -/
  exports : AList fun _ : String => Bytes
  /-- the update status -/
  update : Option UpdateRuntimeInfo
  /-- `cold-operation.json` -/
  operationRecord : Option Bytes
  /-- `publication-preserved-<id>.json`, by id -/
  archives : AList fun _ : String => Bytes

/-- The formats of the records, and the stores below. -/
structure PublicationEnvironment (ρ κ δ : Type) where
  config : ConfigCodec ρ
  releases : ReleaseEnvironment δ
  /-- `decode_versioned_record` of the journal -/
  decodeIntent : Bytes → Except IoError (PublicationIntent ρ κ)
  /-- the versioned record of the journal -/
  encodeIntent : PublicationIntent ρ κ → Bytes
  /-- `serde_json::to_vec` of the journal, without a version -/
  plainIntent : PublicationIntent ρ κ → Bytes
  decodeOperation : Bytes → Except IoError (ColdOperation κ)
  encodeOperation : ColdOperation κ → Bytes

def RECORD_LIMIT : Nat := 16 * 1024 * 1024

/-- A call on the stores of a publication. -/
abbrev PublicationProgram (δ : Type) := Program (PublicationDisk δ) IoError

namespace PublicationDisk

variable {δ : Type}

/-- The configuration in the larger store. -/
def configLens : Lens (PublicationDisk δ) ConfigDisk where
  get := config
  put config disk := { disk with config }
  get_put _ _ := rfl
  put_get _ := rfl
  put_put _ _ _ := rfl

/-- The profile catalog in the larger store. -/
def profilesLens : Lens (PublicationDisk δ) (Option Checkpoint.ProfileCatalog) where
  get := profiles
  put profiles disk := { disk with profiles }
  get_put _ _ := rfl
  put_get _ := rfl
  put_put _ _ _ := rfl

/-- The release store in the larger store; its configuration file is `config.json`. -/
def releasesLens : Lens (PublicationDisk δ) (ReleaseDisk δ) where
  get disk := ⟨disk.slots, disk.owned, disk.pointers, disk.config.config⟩
  put releases disk :=
    { disk with
      slots := releases.slots
      owned := releases.owned
      pointers := releases.pointers
      config := { disk.config with config := releases.config } }
  get_put _ _ := rfl
  put_get _ := rfl
  put_put _ _ _ := rfl

def putArchive (disk : PublicationDisk δ) (id : String) (bytes : Bytes) : PublicationDisk δ :=
  { disk with archives := disk.archives.insert id bytes }

end PublicationDisk

def other (message : String) : IoError := ⟨.other, message⟩

/-- The characters of an operation's identity. -/
def identityChars (id : String) : Bool := id.toList.all fun c => c.isAlphanum || c = '-'

/-- The identity check of `finish_preserved_publication`. -/
def validOperationId (id : String) : Bool :=
  !id.isEmpty && decide (id.utf8ByteSize ≤ 160) && identityChars id

section Calls

variable {ρ κ δ : Type} [DecidableEq ρ] [DecidableEq δ] (env : PublicationEnvironment ρ κ δ)

def onConfig {α : Type} (p : ConfigProgram α) : PublicationProgram δ α :=
  p.zoom PublicationDisk.configLens id

def onProfiles {α : Type} (p : Program (Option Checkpoint.ProfileCatalog) IoError α) :
    PublicationProgram δ α :=
  p.zoom PublicationDisk.profilesLens id

def onReleases {α : Type} (p : ReleaseProgram δ α) : PublicationProgram δ α :=
  p.zoom PublicationDisk.releasesLens id

/-- `ConfigStore::load`. -/
def loadConfig : ConfigProgram (NexusConfigFile ρ) := do
  ConfigStore.settlePendingUnlocked env.config.checks
  DocumentStore.loadUnlocked env.config

/-- `ConfigStore::preserve_current_after`; the caller writes its own decision in between. -/
def preserveCurrentAfter (decide : PublicationProgram δ Unit) : PublicationProgram δ Unit := do
  let _ ← onConfig (ConfigStore.outerPreservesCurrent env.config.checks)
  let _ ← onConfig (ConfigStore.validatedCurrentBytes env.config.checks)
  decide
  onConfig (ConfigStore.preservePendingInner env.config.checks)

def readIntent : PublicationProgram δ (PublicationIntent ρ κ) := do
  match ← readFile (fun disk : PublicationDisk δ => disk.config.outerPublication) RECORD_LIMIT with
  | none => throw ⟨.notFound, "No publication recovery is pending"⟩
  | some bytes => Program.ofExcept (env.decodeIntent bytes)

/-- `write_intent`: `write_versioned_record` reads the record that it replaces. -/
def writeIntent (intent : PublicationIntent ρ κ) : PublicationProgram δ Unit := do
  match ← readFile (fun disk : PublicationDisk δ => disk.config.outerPublication) RECORD_LIMIT with
  | none => pure ()
  | some bytes => do
      let _ ← Program.ofExcept (env.decodeIntent bytes)
      pure ()
  Program.durable fileOperationFailed fun disk =>
    { disk with config := { disk.config with
      outerPublication := some (env.encodeIntent intent) } }

/-- `UpdateStateStore::write`. -/
def writeUpdate (info : UpdateRuntimeInfo) : PublicationProgram δ Unit :=
  Program.durable fileOperationFailed fun disk => { disk with update := some info }

/-- `write` of the operation's record. -/
def writeOperation (operation : ColdOperation κ) : PublicationProgram δ Unit := do
  -- `ensure_directories`
  Program.attempt fileOperationFailed
  match ← readFile PublicationDisk.operationRecord RECORD_LIMIT with
  | none => pure ()
  | some bytes => do
      let _ ← Program.ofExcept (env.decodeOperation bytes)
      pure ()
  Program.durable fileOperationFailed fun disk =>
    { disk with operationRecord := some (env.encodeOperation operation) }

def archiveDiffers : IoError := other "Recovery archive differs; all files were preserved"

/-- The archive of the journal.  The temporary file behind the link is left out. -/
def archiveIntent (id : String) (bytes : Bytes) : PublicationProgram δ Unit := do
  match ← readFile (fun disk : PublicationDisk δ => disk.archives.lookup id) RECORD_LIMIT with
  | some existing => if existing ≠ bytes then throw archiveDiffers else pure ()
  | none =>
      Program.durable fileOperationFailed fun disk => disk.putArchive id bytes

def preservedMessage : String :=
  "Publication recovery ended by keeping current configuration and all existing " ++
    "version/candidate files. Retained candidate files are not automatically cleaned."

def ColdOperation.preserved (operation : ColdOperation κ) (now : Nat) : ColdOperation κ :=
  { operation with
    phase := .cancelled, progressPercent := 100, ownerQuiescent := true, cleanupPending := false
    cleanupError := none, error := some preservedMessage, updatedAtUnix := some now }

def ColdOperation.preservedUpdate (operation : ColdOperation κ) (now : Nat) : UpdateRuntimeInfo :=
  .ended .failed none operation.startedAtUnix now none (some preservedMessage)

def finishPreservedPublication (intent : PublicationIntent ρ κ) (now : Nat) :
    PublicationProgram δ (ColdOperation κ) := do
  preserveCurrentAfter env (pure ())
  let id := intent.operation.operationId
  if validOperationId id = false then throw (other "Invalid recovery operation identity")
  else do
    archiveIntent id (env.plainIntent intent)
    writeUpdate (intent.operation.preservedUpdate now)
    pure (intent.operation.preserved now)

def publicationConflict : IoError := ⟨.wouldBlock, "publication configuration conflict"⟩

/-- The profile selection of an imported environment. -/
def replayProfiles (intent : PublicationIntent ρ κ) : PublicationProgram δ Unit :=
  match intent.previousProfiles, intent.targetProfiles with
  | some previous, some target => do
      let current ← onProfiles Checkpoint.loadProfiles
      if current ≠ previous ∧ current ≠ target then
        throw (other "Imported profile selection conflicts with a later change")
      else
        onProfiles
          (Checkpoint.writeProfiles (if intent.committed = true then target else previous))
  | _, _ => pure ()

/-- The configuration and the release selection of a publication that was committed, or was not. -/
def replaySelection (intent : PublicationIntent ρ κ) : PublicationProgram δ Unit :=
  if intent.prepareOnly = true then pure ()
  else if intent.committed = true then do
    onConfig (DocumentStore.writeRecoveryDocument env.config intent.targetConfig)
    let _ ← onReleases (restoreReleasePointers env.releases
      (if intent.preserveRelease = true then intent.previousCurrent
        else some intent.operation.releaseId)
      (if intent.preserveRelease = true then intent.previousLkg else intent.targetLkg))
  else do
    onConfig (DocumentStore.writeRecoveryDocument env.config intent.previousConfig)
    let _ ← onReleases (restoreReleasePointers env.releases intent.previousCurrent
      intent.previousLkg)

/-- The directories that a publication without a commit has made. -/
def removeOwned (intent : PublicationIntent ρ κ) : PublicationProgram δ Unit := do
  if intent.newSlot = true then do
    Program.ofExcept (validateReleaseId intent.operation.releaseId)
    Program.durable fileOperationFailed fun disk =>
      { disk with slots := disk.slots.erase intent.operation.releaseId }
  match intent.ownedRuntime with
  | none => pure ()
  | some runtime =>
      if runtime ≠ "offline-" ++ intent.operation.operationId then
        throw (other "Invalid owned offline runtime identity")
      else
        Program.durable fileOperationFailed fun disk =>
          { disk with runtimes := disk.runtimes.erase runtime }
  if intent.ownedEnvironment = true then
    if !"cold-".toList.isPrefixOf intent.operation.operationId.toList ||
        !identityChars intent.operation.operationId then
      throw (other "Invalid imported environment identity")
    else
      Program.durable fileOperationFailed fun disk =>
        { disk with environments := disk.environments.erase intent.operation.operationId }

/-- `offline::cleanup_candidate`; the path of an export is absolute. -/
def cleanupCandidate (operation : ColdOperation κ) : PublicationProgram δ Unit := do
  if operation.kind = "offline_export" then
    match operation.archivePath with
    | none => throw (other "Offline export path missing")
    | some archive =>
        if identityChars operation.operationId = false then
          throw (other "Invalid offline cleanup identity")
        else
          Program.durable fileOperationFailed fun disk =>
            { disk with exports :=
              disk.exports.erase (archive ++ ".nexus-" ++ operation.operationId ++ ".tmp") }
  Program.durable fileOperationFailed fun disk =>
    { disk with candidates := disk.candidates.erase operation.candidate }

def ColdOperation.replayed (operation : ColdOperation κ) (intent : PublicationIntent ρ κ)
    (now : Nat) : ColdOperation κ :=
  { operation with
    phase :=
      if intent.committed = false then .failed
      else if intent.prepareOnly = true then .prepared else .succeeded
    error :=
      if intent.committed = true then none
      else some "publication interrupted before commit; previous selection restored"
    ownerQuiescent := true, cleanupPending := false, cleanupError := none
    progressPercent := 100, updatedAtUnix := some now }

/-- `reconcile_publication` without the decision: the publication is replayed or taken back. -/
def replayPublication (intent : PublicationIntent ρ κ) (now : Nat) :
    PublicationProgram δ (ColdOperation κ) := do
  let current ← onConfig (loadConfig env)
  if intent.prepareOnly = false ∧ current ≠ intent.previousConfig ∧
      current ≠ intent.targetConfig then throw publicationConflict
  else do
    replayProfiles intent
    replaySelection env intent
    if intent.committed = true then
      writeUpdate (.ended (if intent.prepareOnly = true then .prepared else .succeeded)
        (some intent.operation.releaseId) intent.operation.startedAtUnix now (some 0) none)
    else do
      writeUpdate intent.previousUpdate
      removeOwned intent
    cleanupCandidate intent.operation
    pure (intent.operation.replayed intent now)

/-- `reconcile_publication` of a journal that is there. -/
def reconcileIntent (intent : PublicationIntent ρ κ) (now : Nat) :
    PublicationProgram δ (ColdOperation κ) :=
  if intent.preserveCurrent = true then finishPreservedPublication env intent now
  else replayPublication env intent now

def finishPublication (operation : ColdOperation κ) : PublicationProgram δ Unit := do
  writeOperation env operation
  Program.durable fileOperationFailed fun disk =>
    { disk with config := { disk.config with outerPublication := none } }

def recoverPublication (now : Nat) : PublicationProgram δ Unit := do
  let disk ← Program.read
  if disk.config.outerPublication.isSome = true then do
    let intent ← readIntent env
    let operation ← reconcileIntent env intent now
    finishPublication env operation
  else pure ()

/-- A request to end or to retry a publication. -/
structure RecoverRequest where
  operationId : String
  preserveCurrent : Bool
  /-- the owner of the publication is still at work -/
  ownerActive : Bool
  /-- the clock -/
  now : Nat

def recoverExplicit (request : RecoverRequest) : PublicationProgram δ Unit := do
  if request.ownerActive = true then throw ⟨.resourceBusy, "Publication owner is still active"⟩
  else do
    let intent ← readIntent env
    if intent.operation.operationId ≠ request.operationId then
      throw ⟨.invalidInput, "Stale publication operation ID"⟩
    else do
      if request.preserveCurrent = true ∨ intent.preserveCurrent = true then
        preserveCurrentAfter env
          (if intent.preserveCurrent = true then pure () else writeIntent env intent.decided)
      else do
        let _ ← onConfig (loadConfig env)
      recoverPublication env request.now

end Calls

/-! ## 2. What is kept -/

/-- The configuration, the release pointers and slots, the candidates, the runtimes, the
environments, the exports and the profiles are what they were. -/
structure Untouched {δ : Type} (s s' : PublicationDisk δ) : Prop where
  pair : s'.config.pair = s.config.pair
  slots : s'.slots = s.slots
  owned : s'.owned = s.owned
  pointers : s'.pointers = s.pointers
  profiles : s'.profiles = s.profiles
  runtimes : s'.runtimes = s.runtimes
  environments : s'.environments = s.environments
  candidates : s'.candidates = s.candidates
  exports : s'.exports = s.exports

section Invariant

variable {ρ κ δ : Type} (env : PublicationEnvironment ρ κ δ)

/-- The journal is archived, with the decision. -/
def Archived (intent : PublicationIntent ρ κ) (s : PublicationDisk δ) : Prop :=
  s.archives.lookup intent.operation.operationId = some (env.plainIntent intent.decided)

/-- How far the journal `intent` is, from the store `d` on. -/
inductive Stage (d : PublicationDisk δ) (intent : PublicationIntent ρ κ) (s : PublicationDisk δ) :
    Prop
  | pending (bytes : Bytes) (journal : PublicationIntent ρ κ)
      (hbytes : s.config.outerPublication = some bytes)
      (horigin : d.config.outerPublication = some bytes ∨ bytes = env.encodeIntent intent.decided)
      (hdecode : env.decodeIntent bytes = .ok journal) (hdecided : journal.decided = intent.decided)
      (harchive : s.archives.lookup intent.operation.operationId =
        d.archives.lookup intent.operation.operationId ∨ Archived env intent s)
  | ended (hbytes : s.config.outerPublication = none) (harchive : Archived env intent s)

/-- A journal that is pending holds the decision. -/
def Decided (s : PublicationDisk δ) : Prop :=
  ∀ bytes, s.config.outerPublication = some bytes →
    ∃ journal, env.decodeIntent bytes = .ok journal ∧ journal.preserveCurrent = true

/-- What every call of a preservation keeps; `R` is what it keeps of the configuration. -/
structure Kept (R : ConfigDisk → Prop) (d : PublicationDisk δ) (intent : PublicationIntent ρ κ)
    (s : PublicationDisk δ) : Prop where
  untouched : Untouched d s
  archives : ∀ id, id ≠ intent.operation.operationId → s.archives.lookup id = d.archives.lookup id
  stage : Stage env d intent s
  /-- the update status and the operation's record say how the publication ended -/
  update : s.update = d.update ∨ ∃ now, s.update = some (intent.operation.preservedUpdate now)
  record : s.operationRecord = d.operationRecord ∨
    ∃ now, s.operationRecord = some (env.encodeOperation (intent.operation.preserved now))
  config : R s.config

/-- What may be kept of the configuration: preserving it does not break it, and the journal may
be replaced by the decided one, which is read back, or removed. -/
structure Keeps (R : ConfigDisk → Prop) (intent : PublicationIntent ρ κ) : Prop where
  journal : env.decodeIntent (env.encodeIntent intent.decided) = .ok intent.decided
  inner : ∀ c, R c → (ConfigStore.preservePendingInner env.config.checks).wp (fun _ => R)
    (fun _ => R) R c
  decide : ∀ c, R c → R { c with outerPublication := some (env.encodeIntent intent.decided) }
  remove : ∀ c, R c → R { c with outerPublication := none }

variable {env}

theorem decided_of_preserveCurrent {intent : PublicationIntent ρ κ}
    (h : intent.preserveCurrent = true) : intent.decided = intent := by
  cases intent
  cases h
  rfl

theorem operation_of_decided {intent journal : PublicationIntent ρ κ}
    (h : journal.decided = intent.decided) : journal.operation = intent.operation := by
  have hoperation := congrArg PublicationIntent.operation h
  exact hoperation

end Invariant

/-! ## 3. Preserving the configuration -/

section Config

variable {checks : ConfigChecks}

/-- The pair and the journal are what they were. -/
def SamePair (c c' : ConfigDisk) : Prop :=
  c'.pair = c.pair ∧ c'.outerPublication = c.outerPublication

theorem readOnly_outerPreservesCurrent :
    (ConfigStore.outerPreservesCurrent checks).ReadOnly := by
  refine Program.ReadOnly.bind readOnly_read fun disk => ?_
  cases disk.outerPublication with
  | none => exact readOnly_pure _
  | some bytes => exact readOnly_ofExcept _

theorem readOnly_validateDocument (bytes : Bytes) :
    (ConfigStore.validateDocument checks bytes).ReadOnly :=
  Program.ReadOnly.bind (readOnly_attempt _) fun _ => readOnly_ofExcept _

theorem readOnly_validatePendingConfigs (p : Pending) :
    (ConfigStore.validatePendingConfigs checks p).ReadOnly := by
  unfold ConfigStore.validatePendingConfigs
  split
  · exact readOnly_throw _
  · refine readOnly_forM (fun bytes => ?_) _
    split
    · exact readOnly_throw _
    · exact readOnly_validateDocument bytes

/-- **Preserving the configuration writes its own records only.** -/
theorem stepsIn_preservePendingInner :
    (ConfigStore.preservePendingInner checks).StepsIn (fun f => ∀ c, SamePair c (f c))
      fun _ => True := by
  have hread : ∀ {α : Type} {p : ConfigProgram α}, p.ReadOnly →
      p.StepsIn (fun f => ∀ c, SamePair c (f c)) fun _ => True := fun hp =>
    hp.stepsIn fun f hf c => by rw [hf]; exact ⟨rfl, rfl⟩
  have hdurable : ∀ {f : ConfigDisk → ConfigDisk}, (∀ c, SamePair c (f c)) →
      (Program.durable fileOperationFailed f).StepsIn (fun f => ∀ c, SamePair c (f c))
        fun _ => True := fun hf => ⟨hf, trivial, trivial⟩
  refine Program.StepsIn.bind (hread readOnly_outerPreservesCurrent) fun _ _ => ?_
  refine Program.StepsIn.bind (hread ConfigStore.readOnly_validatedCurrentBytes) fun current _ => ?_
  refine Program.StepsIn.bind (hread readOnly_read) fun disk _ => ?_
  cases disk.pending with
  | none =>
    cases disk.preserve with
    | none => trivial
    | some decision =>
      dsimp only
      split
      · trivial
      · exact hdurable fun _ => ⟨rfl, rfl⟩
  | some p =>
    refine Program.StepsIn.bind (hread (readOnly_validatePendingConfigs p)) fun _ _ => ?_
    have hrest : ∀ decision : PreserveDecision, (do
        ConfigStore.archivePending decision.pendingId p
        let again ← ConfigStore.validatedCurrentBytes checks
        let disk ← Program.read
        if again ≠ current ∨ disk.pending ≠ some p then
          throw (invalidData "Configuration changed during recovery")
        else do
          ConfigStore.removePending
          ConfigStore.removePreserve : ConfigProgram Unit).StepsIn
            (fun f => ∀ c, SamePair c (f c)) fun _ => True := by
      intro decision
      have harchive : (ConfigStore.archivePending decision.pendingId p).StepsIn
          (fun f => ∀ c, SamePair c (f c)) fun _ => True := by
        refine Program.StepsIn.bind (hread readOnly_read) fun disk _ => ?_
        cases disk.archives.lookup decision.pendingId with
        | none => exact hdurable fun _ => ⟨rfl, rfl⟩
        | some existing =>
          dsimp only
          split
          · trivial
          · trivial
      refine Program.StepsIn.bind harchive fun _ _ => ?_
      refine Program.StepsIn.bind (hread ConfigStore.readOnly_validatedCurrentBytes)
        fun again _ => ?_
      refine Program.StepsIn.bind (hread readOnly_read) fun disk _ => ?_
      split
      · trivial
      · exact Program.StepsIn.then (hdurable fun _ => ⟨rfl, rfl⟩) fun _ =>
          hdurable fun _ => ⟨rfl, rfl⟩
    cases disk.preserve with
    | none =>
      refine Program.StepsIn.then (hdurable fun _ => ⟨rfl, rfl⟩) fun _ => ?_
      exact Program.StepsIn.bind (hread (readOnly_pure _)) fun decision _ => hrest decision
    | some saved =>
      dsimp only
      split
      · exact Program.StepsIn.bind (hread (readOnly_throw _)) fun decision _ =>
          hrest decision
      · exact Program.StepsIn.bind (hread (readOnly_pure _)) fun decision _ =>
          hrest decision

theorem wp_preservePendingInner_of_steps (c : ConfigDisk) :
    (ConfigStore.preservePendingInner checks).wp (fun _ => SamePair c) (fun _ => SamePair c)
      (SamePair c) c := by
  have hkinds : (ConfigStore.preservePendingInner checks).StepsIn
      (fun f => ∀ c, SamePair c (f c)) fun _ => True := stepsIn_preservePendingInner
  have hsteps := Program.StepsIn.steps_mono
    (fun f (hf : ∀ c, SamePair c (f c)) => (fun t ht => ⟨(hf t).1.trans ht.1, (hf t).2.trans ht.2⟩ :
      ∀ t, SamePair c t → SamePair c (f t))) hkinds
  exact wp_imp (fun _ _ h => h.2)
    (hsteps.wp ⟨rfl, rfl⟩)

/-- The configuration can be preserved: its document is `current`, the journal can be read, and
what is pending, if anything is, is pending about this document. -/
structure Preservable (checks : ConfigChecks) (current : Bytes) (c : ConfigDisk) : Prop where
  config : c.config = some current
  outer : ConfigStore.OuterReadable checks c
  records : (c.pending = none ∧
      ∀ decision, c.preserve = some decision → decision.currentId = checks.bytesId current) ∨
    ∃ p, c.pending = some p ∧ ConfigStore.ValidRecord checks p ∧
      ConfigStore.ArchiveFree checks p c ∧
      ∀ decision, c.preserve = some decision →
        decision = ⟨checks.recordId p, checks.bytesId current⟩

variable {current : Bytes} {c : ConfigDisk}

theorem wp_removePending {p : Pending} (h : Preservable checks current c)
    (hpreserve : ∀ decision, c.preserve = some decision →
      decision.currentId = checks.bytesId current) :
    (do
      let again ← ConfigStore.validatedCurrentBytes checks
      let disk ← Program.read
      if again ≠ current ∨ disk.pending ≠ some p then
        throw (invalidData "Configuration changed during recovery")
      else do
        ConfigStore.removePending
        ConfigStore.removePreserve : ConfigProgram Unit).wp (fun _ => Preservable checks current)
          (fun _ => Preservable checks current) (Preservable checks current) c := by
  have hgone : Preservable checks current { c with pending := none } :=
    ⟨h.config, h.outer, Or.inl ⟨rfl, hpreserve⟩⟩
  have hdone : Preservable checks current { c with pending := none, preserve := none } :=
    ⟨h.config, h.outer, Or.inl ⟨rfl, fun decision hdecision => by cases hdecision⟩⟩
  rw [wp_bind]
  refine ConfigStore.wp_validatedCurrentBytes (fun again _ => ?_) (fun _ => h) h
  rw [wp_bind, wp_read]
  split
  · exact h
  · rw [wp_bind, ConfigStore.removePending, wp_durable]
    refine ⟨h, hgone, ?_, h, hgone⟩
    rw [ConfigStore.removePreserve, wp_durable]
    exact ⟨hgone, hdone, hdone, hgone, hdone⟩

/-- A cut preservation can be taken up again. -/
theorem Preservable.wp_preservePendingInner (h : Preservable checks current c) :
    (ConfigStore.preservePendingInner checks).wp (fun _ => Preservable checks current)
      (fun _ => Preservable checks current) (Preservable checks current) c := by
  rw [ConfigStore.preservePendingInner, wp_bind]
  refine ConfigStore.wp_outerPreservesCurrent (fun _ _ => ?_) fun _ => h
  rw [wp_bind]
  refine ConfigStore.wp_validatedCurrentBytes (fun bytes hbytes => ?_) (fun _ => h) h
  obtain rfl : current = bytes := Option.some.inj (h.config.symm.trans hbytes)
  rw [wp_bind, wp_read]
  rcases h.records with ⟨hnone, hpreserve⟩ | ⟨p, hpending, hrecord, hfree, hpreserve⟩
  · rw [hnone]
    have hdone : Preservable checks current { c with preserve := none } :=
      ⟨h.config, h.outer, Or.inl ⟨hnone, fun decision hdecision => by cases hdecision⟩⟩
    cases hdecision : c.preserve with
    | none => exact h
    | some decision =>
      dsimp only
      rw [if_neg (not_not.mpr (hpreserve decision hdecision)), ConfigStore.removePreserve,
        wp_durable]
      exact ⟨h, hdone, hdone, h, hdone⟩
  · rw [hpending]
    dsimp only
    rw [wp_bind]
    refine ConfigStore.wp_validatePendingConfigs (fun _ => ?_) (fun _ => h) h
    -- what is left to do once the decision is there
    have hrest : ∀ t, t = { c with preserve := some ⟨checks.recordId p, checks.bytesId current⟩ } →
        (do
          ConfigStore.archivePending (checks.recordId p) p
          let again ← ConfigStore.validatedCurrentBytes checks
          let disk ← Program.read
          if again ≠ current ∨ disk.pending ≠ some p then
            throw (invalidData "Configuration changed during recovery")
          else do
            ConfigStore.removePending
            ConfigStore.removePreserve : ConfigProgram Unit).wp
              (fun _ => Preservable checks current) (fun _ => Preservable checks current)
              (Preservable checks current) t := by
      rintro t rfl
      have hdecision : ∀ decision, some (⟨checks.recordId p, checks.bytesId current⟩ :
          PreserveDecision) = some decision →
          decision = ⟨checks.recordId p, checks.bytesId current⟩ :=
        fun decision heq => (Option.some.inj heq).symm
      have hcurrent : ∀ decision, some (⟨checks.recordId p, checks.bytesId current⟩ :
          PreserveDecision) = some decision → decision.currentId = checks.bytesId current :=
        fun decision heq => by rw [hdecision decision heq]
      have hdecided : Preservable checks current
          { c with preserve := some ⟨checks.recordId p, checks.bytesId current⟩ } :=
        ⟨h.config, h.outer, Or.inr ⟨p, hpending, hrecord, hfree, hdecision⟩⟩
      have hnew : Preservable checks current
          { c with preserve := some ⟨checks.recordId p, checks.bytesId current⟩,
                   archives := (checks.recordId p, p) :: c.archives } := by
        refine ⟨h.config, h.outer, Or.inr ⟨p, hpending, hrecord, fun existing hexisting => ?_,
          hdecision⟩⟩
        simpa using hexisting.symm
      rw [wp_bind]
      exact ConfigStore.wp_archivePending (fun _ => wp_removePending hdecided hcurrent)
        (wp_removePending hnew hcurrent) (fun _ => hdecided) (fun _ => hnew) hdecided hnew
    cases hdecision : c.preserve with
    | some saved =>
      obtain rfl := hpreserve saved hdecision
      dsimp only
      rw [if_neg (by simp), wp_bind, wp_pure]
      exact hrest c (by rw [← hdecision])
    | none =>
      dsimp only
      have hdecided : Preservable checks current
          { c with preserve := some ⟨checks.recordId p, checks.bytesId current⟩ } :=
        ⟨h.config, h.outer, Or.inr ⟨p, hpending, hrecord, hfree,
          fun decision heq => (Option.some.inj heq).symm⟩⟩
      rw [wp_bind, wp_durable]
      refine ⟨h, hdecided, ?_, h, hdecided⟩
      rw [wp_bind, wp_pure]
      exact hrest _ rfl

/-- An uninterrupted preservation of a valid configuration returns. -/
theorem Preservable.returns_preservePendingInner (h : Preservable checks current c)
    (hvalid : ConfigStore.ValidDocument checks current) :
    (ConfigStore.preservePendingInner checks).returns (fun _ _ => True) c := by
  rcases h.records with ⟨hnone, hpreserve⟩ | ⟨p, hpending, hrecord, hfree, hpreserve⟩
  · rw [ConfigStore.preservePendingInner, returns_bind]
    refine ConfigStore.returns_outerPreservesCurrent h.outer fun _ => ?_
    rw [returns_bind]
    refine ConfigStore.returns_validatedCurrentBytes h.config hvalid ?_
    rw [returns_bind, returns_read, hnone]
    cases hdecision : c.preserve with
    | none => trivial
    | some decision =>
      dsimp only
      rw [if_neg (not_not.mpr (hpreserve decision hdecision))]
      trivial
  · have hlast : ∀ t : ConfigDisk, t.config = some current → t.pending = some p → (do
        let again ← ConfigStore.validatedCurrentBytes checks
        let disk ← Program.read
        if again ≠ current ∨ disk.pending ≠ some p then
          throw (invalidData "Configuration changed during recovery")
        else do
          ConfigStore.removePending
          ConfigStore.removePreserve : ConfigProgram Unit).returns (fun _ _ => True) t := by
      intro t hconfig htpending
      rw [returns_bind]
      refine ConfigStore.returns_validatedCurrentBytes hconfig hvalid ?_
      rw [returns_bind, returns_read, if_neg]
      · trivial
      · rw [not_or, not_not, not_not]
        exact ⟨rfl, htpending⟩
    have hrest : ∀ t : ConfigDisk, t.config = some current → t.pending = some p →
        t.archives = c.archives → (do
          ConfigStore.archivePending (checks.recordId p) p
          let again ← ConfigStore.validatedCurrentBytes checks
          let disk ← Program.read
          if again ≠ current ∨ disk.pending ≠ some p then
            throw (invalidData "Configuration changed during recovery")
          else do
            ConfigStore.removePending
            ConfigStore.removePreserve : ConfigProgram Unit).returns (fun _ _ => True) t := by
      intro t hconfig htpending harchives
      rw [returns_bind, ConfigStore.archivePending, returns_bind,
        returns_read, harchives]
      cases hlookup : c.archives.lookup (checks.recordId p) with
      | none => exact hlast _ hconfig htpending
      | some existing =>
        dsimp only
        rw [if_neg (not_not.mpr (hfree existing hlookup))]
        exact hlast t hconfig htpending
    rw [ConfigStore.preservePendingInner, returns_bind]
    refine ConfigStore.returns_outerPreservesCurrent h.outer fun _ => ?_
    rw [returns_bind]
    refine ConfigStore.returns_validatedCurrentBytes h.config hvalid ?_
    rw [returns_bind, returns_read, hpending]
    dsimp only
    rw [returns_bind]
    refine ConfigStore.returns_validatePendingConfigs hrecord ?_
    cases hdecision : c.preserve with
    | some saved =>
      obtain rfl := hpreserve saved hdecision
      dsimp only
      rw [if_neg (by simp), returns_bind, returns_pure]
      exact hrest c h.config hpending rfl
    | none =>
      dsimp only
      rw [returns_bind, returns_durable, returns_bind,
        returns_pure]
      exact hrest _ h.config hpending rfl

end Config

/-! ## 4. One call -/

section Calls

variable {ρ κ δ : Type} {env : PublicationEnvironment ρ κ δ} {R : ConfigDisk → Prop}
  {d s s' : PublicationDisk δ} {intent journal : PublicationIntent ρ κ}

theorem Stage.congr (h : Stage env d intent s) (hc : s'.config.outerPublication =
    s.config.outerPublication) (ha : s'.archives = s.archives) : Stage env d intent s' := by
  cases h with
  | pending bytes journal hbytes horigin hdecode hdecided harchive =>
    refine .pending bytes journal (hc.trans hbytes) horigin hdecode hdecided ?_
    unfold Archived at harchive ⊢
    rw [ha]
    exact harchive
  | ended hbytes harchive =>
    refine .ended (hc.trans hbytes) ?_
    unfold Archived at harchive ⊢
    rw [ha]
    exact harchive

theorem Kept.withConfig {c : ConfigDisk} (h : Kept env R d intent s) (hsame : SamePair s.config c)
    (hc : R c) : Kept env R d intent { s with config := c } := by
  refine ⟨{ h.untouched with pair := hsame.1.trans h.untouched.pair }, h.archives,
    h.stage.congr hsame.2 rfl, h.update, h.record, hc⟩

theorem Kept.withUpdate (h : Kept env R d intent s) (now : Nat) :
    Kept env R d intent { s with update := some (intent.operation.preservedUpdate now) } :=
  ⟨{ h.untouched with pair := h.untouched.pair }, h.archives, h.stage.congr rfl rfl,
    Or.inr ⟨now, rfl⟩, h.record, h.config⟩

theorem Kept.withRecord (h : Kept env R d intent s) (now : Nat) :
    Kept env R d intent { s with
      operationRecord := some (env.encodeOperation (intent.operation.preserved now)) } :=
  ⟨{ h.untouched with pair := h.untouched.pair }, h.archives, h.stage.congr rfl rfl,
    h.update, Or.inr ⟨now, rfl⟩, h.config⟩

theorem decided_congr (h : Decided env s)
    (hsame : s'.config.outerPublication = s.config.outerPublication) : Decided env s' := by
  intro bytes hbytes
  exact h bytes (hsame.symm.trans hbytes)

theorem wp_onConfig_of_readOnly {α : Type} {p : ConfigProgram α} (hp : p.ReadOnly)
    {Q : α → PublicationDisk δ → Prop} {E : IoError → PublicationDisk δ → Prop}
    {C : PublicationDisk δ → Prop} (hQ : ∀ a, Q a s) (hE : ∀ e, E e s) (hC : C s) :
    (onConfig p).wp Q E C s := by
  rw [onConfig, wp_zoom]
  exact hp.wp (fun a => hQ a) (fun e => hE e) hC

theorem wp_readIntent {Q : PublicationIntent ρ κ → PublicationDisk δ → Prop}
    {E : IoError → PublicationDisk δ → Prop} {C : PublicationDisk δ → Prop}
    (hQ : ∀ bytes journal, s.config.outerPublication = some bytes →
      env.decodeIntent bytes = .ok journal → Q journal s)
    (hE : ∀ e, E e s) : (readIntent env).wp Q E C s := by
  rw [readIntent, wp_bind]
  refine wp_readFile ?_ hE
  cases hbytes : s.config.outerPublication with
  | none => exact hE _
  | some bytes =>
    show (Program.ofExcept (env.decodeIntent bytes)).wp Q E C s
    rw [wp_ofExcept]
    exact ⟨fun journal hdecode => hQ bytes journal hbytes hdecode, fun e _ => hE e⟩

theorem wp_preserveInner (hR : Keeps env R intent) (h : Kept env R d intent s) :
    (onConfig (ConfigStore.preservePendingInner env.config.checks)).wp
      (fun _ s' => Kept env R d intent s' ∧
        s'.config.outerPublication = s.config.outerPublication)
      (fun _ s' => Kept env R d intent s' ∧
        s'.config.outerPublication = s.config.outerPublication)
      (fun s' => Kept env R d intent s' ∧
        s'.config.outerPublication = s.config.outerPublication) s := by
  rw [onConfig, wp_zoom]
  have hkeep : ∀ c, R c ∧ SamePair s.config c →
      Kept env R d intent { s with config := c } ∧
        c.outerPublication = s.config.outerPublication :=
    fun c hc => ⟨h.withConfig hc.2 hc.1, hc.2.2⟩
  exact wp_mono (fun _ => hkeep) (fun _ => hkeep) hkeep
    (wp_and (hR.inner _ h.config) (wp_preservePendingInner_of_steps s.config))

theorem wp_preserveCurrentAfter (hR : Keeps env R intent) {decide : PublicationProgram δ Unit}
    {P : PublicationDisk δ → Prop}
    (hP : ∀ t u : PublicationDisk δ, P t →
      u.config.outerPublication = t.config.outerPublication → P u)
    {E : IoError → PublicationDisk δ → Prop} {C : PublicationDisk δ → Prop}
    (hE : ∀ e t, Kept env R d intent t → P t → E e t) (hC : ∀ t, Kept env R d intent t → P t → C t)
    (hs : (∀ e, E e s) ∧ C s)
    (hdecide : decide.wp (fun _ t => Kept env R d intent t ∧ P t) E C s) :
    (preserveCurrentAfter env decide).wp (fun _ t => Kept env R d intent t ∧ P t) E C s := by
  rw [preserveCurrentAfter, wp_bind]
  refine wp_onConfig_of_readOnly readOnly_outerPreservesCurrent (fun _ => ?_) hs.1 hs.2
  rw [wp_bind]
  refine wp_onConfig_of_readOnly ConfigStore.readOnly_validatedCurrentBytes (fun _ => ?_) hs.1 hs.2
  rw [wp_bind]
  refine wp_imp (fun _ t ht => ?_) hdecide
  exact wp_mono (fun _ u hu => ⟨hu.1, hP t u ht.2 hu.2⟩)
    (fun e u hu => hE e u hu.1 (hP t u ht.2 hu.2)) (fun u hu => hC u hu.1 (hP t u ht.2 hu.2))
    (wp_preserveInner hR ht.1)

theorem wp_preserveCurrentAfter_of_decided (hR : Keeps env R intent) (h : Kept env R d intent s)
    (hdecided : Decided env s) :
    (preserveCurrentAfter env (pure ())).wp
      (fun _ t => (Kept env R d intent t ∧ Decided env t) ∧
        t.config.outerPublication = s.config.outerPublication)
      (fun _ t => Kept env R d intent t ∧ Decided env t)
      (fun t => Kept env R d intent t ∧ Decided env t) s := by
  have hall : ∀ t, Kept env R d intent t →
      t.config.outerPublication = s.config.outerPublication →
      Kept env R d intent t ∧ Decided env t := fun t ht hsame => ⟨ht, decided_congr hdecided hsame⟩
  refine wp_imp (fun _ t ht => ⟨hall t ht.1 ht.2, ht.2⟩) (wp_preserveCurrentAfter hR (fun t u ht hu => hu.trans ht)
      (fun _ => hall) hall ⟨fun _ => hall s h rfl, hall s h rfl⟩ ⟨h, rfl⟩)

theorem wp_writeIntent (hR : Keeps env R intent) (h : Kept env R d intent s)
    (hpending : s.config.outerPublication ≠ none) :
    (writeIntent env intent.decided).wp (fun _ t => Kept env R d intent t ∧ Decided env t)
      (fun _ => Kept env R d intent) (Kept env R d intent) s := by
  have hwritten : Kept env R d intent { s with config := { s.config with
      outerPublication := some (env.encodeIntent intent.decided) } } := by
    refine ⟨{ h.untouched with pair := h.untouched.pair }, h.archives, ?_, h.update, h.record,
      hR.decide _ h.config⟩
    cases h.stage with
    | pending bytes journal hbytes horigin hdecode hdecided harchive =>
      exact .pending _ intent.decided rfl (Or.inr rfl) hR.journal rfl harchive
    | ended hbytes _ => exact absurd hbytes hpending
  have hdecided : Decided env { s with config := { s.config with
      outerPublication := some (env.encodeIntent intent.decided) } } := by
    rintro bytes hbytes
    obtain rfl := Option.some.inj hbytes
    exact ⟨intent.decided, hR.journal, rfl⟩
  rw [writeIntent, wp_bind]
  refine wp_readFile ?_ fun _ => h
  have hlast : (Program.durable fileOperationFailed fun disk : PublicationDisk δ =>
      { disk with config := { disk.config with
        outerPublication := some (env.encodeIntent intent.decided) } } :
      PublicationProgram δ Unit).wp (fun _ t => Kept env R d intent t ∧ Decided env t)
      (fun _ => Kept env R d intent) (Kept env R d intent) s :=
    ⟨h, hwritten, ⟨hwritten, hdecided⟩, h, hwritten⟩
  cases hbytes : s.config.outerPublication with
  | none => exact absurd hbytes hpending
  | some bytes =>
    dsimp only
    rw [wp_bind, wp_ofExcept]
    exact ⟨fun _ _ => hlast, fun _ _ => h⟩

theorem wp_archiveIntent (h : Kept env R d intent s) (hdecided : Decided env s)
    (hpending : s.config.outerPublication ≠ none) :
    (archiveIntent intent.operation.operationId (env.plainIntent intent.decided) :
        PublicationProgram δ Unit).wp
      (fun _ t => (Kept env R d intent t ∧ Decided env t) ∧ Archived env intent t)
      (fun _ t => Kept env R d intent t ∧ Decided env t)
      (fun t => Kept env R d intent t ∧ Decided env t) s := by
  rw [archiveIntent, wp_bind]
  refine wp_readFile ?_ fun _ => ⟨h, hdecided⟩
  cases hlookup : s.archives.lookup intent.operation.operationId with
  | some existing =>
    dsimp only
    split
    · exact ⟨h, hdecided⟩
    · next heq =>
      rw [not_not] at heq
      exact ⟨⟨h, hdecided⟩, by rw [Archived, hlookup, heq]⟩
  | none =>
    have harchived : Archived env intent (s.putArchive intent.operation.operationId
        (env.plainIntent intent.decided)) := AList.lookup_insert _
    have hnew : Kept env R d intent (s.putArchive intent.operation.operationId
        (env.plainIntent intent.decided)) := by
      refine ⟨{ h.untouched with pair := h.untouched.pair }, fun id hid => ?_, ?_, h.update,
        h.record, h.config⟩
      · exact (AList.lookup_insert_ne hid).trans (h.archives id hid)
      · cases h.stage with
        | pending bytes journal hbytes horigin hdecode hdec _ =>
          exact .pending bytes journal hbytes horigin hdecode hdec (Or.inr harchived)
        | ended hbytes _ => exact absurd hbytes hpending
    exact ⟨⟨h, hdecided⟩, ⟨hnew, hdecided⟩, ⟨⟨hnew, hdecided⟩, harchived⟩, ⟨h, hdecided⟩,
      ⟨hnew, hdecided⟩⟩

/-- What is known where the decided journal is archived and still there. -/
structure Finishing (env : PublicationEnvironment ρ κ δ) (R : ConfigDisk → Prop)
    (d : PublicationDisk δ) (intent : PublicationIntent ρ κ) (s : PublicationDisk δ) : Prop where
  kept : Kept env R d intent s
  decided : Decided env s
  archived : Archived env intent s

theorem Finishing.withUpdate (h : Finishing env R d intent s) (now : Nat) :
    Finishing env R d intent { s with update := some (intent.operation.preservedUpdate now) } :=
  ⟨h.kept.withUpdate now, decided_congr h.decided rfl, h.archived⟩

theorem Finishing.withRecord (h : Finishing env R d intent s) (now : Nat) :
    Finishing env R d intent { s with
      operationRecord := some (env.encodeOperation (intent.operation.preserved now)) } :=
  ⟨h.kept.withRecord now, decided_congr h.decided rfl, h.archived⟩

theorem wp_finishPreservedPublication (hR : Keeps env R intent) (h : Kept env R d intent s)
    (hdecided : Decided env s) (hpending : s.config.outerPublication ≠ none) (now : Nat) :
    (finishPreservedPublication env intent.decided now).wp
      (fun operation t => operation = intent.operation.preserved now ∧ Finishing env R d intent t)
      (fun _ t => Kept env R d intent t ∧ Decided env t)
      (fun t => Kept env R d intent t ∧ Decided env t) s := by
  have hkeep : ∀ t, Finishing env R d intent t → Kept env R d intent t ∧ Decided env t :=
    fun t ht => ⟨ht.kept, ht.decided⟩
  rw [finishPreservedPublication, wp_bind]
  refine wp_imp (fun _ t ht => ?_)
    (wp_preserveCurrentAfter_of_decided hR h hdecided)
  dsimp only
  split
  · exact ht.1
  · rw [wp_bind]
    refine wp_imp (fun _ u hu => ?_)
      (wp_archiveIntent ht.1.1 ht.1.2 (ht.2 ▸ hpending))
    have hfinishing : Finishing env R d intent u := ⟨hu.1.1, hu.1.2, hu.2⟩
    have hnew := hfinishing.withUpdate now
    rw [wp_bind]
    exact ⟨hkeep _ hfinishing, hkeep _ hnew, ⟨rfl, hnew⟩, hkeep _ hfinishing, hkeep _ hnew⟩

theorem wp_finishPublication (hR : Keeps env R intent) (h : Finishing env R d intent s)
    (now : Nat) :
    (finishPublication env (intent.operation.preserved now)).wp
      (fun _ t => Kept env R d intent t ∧ t.config.outerPublication = none)
      (fun _ => Kept env R d intent) (Kept env R d intent) s := by
  have hlast : ∀ t, Finishing env R d intent t → (Program.durable fileOperationFailed
      fun disk : PublicationDisk δ =>
        { disk with config := { disk.config with outerPublication := none } } :
      PublicationProgram δ Unit).wp
      (fun _ t => Kept env R d intent t ∧ t.config.outerPublication = none)
      (fun _ => Kept env R d intent) (Kept env R d intent) t := by
    intro t ht
    have hended : Kept env R d intent
        { t with config := { t.config with outerPublication := none } } :=
      ⟨{ ht.kept.untouched with pair := ht.kept.untouched.pair }, ht.kept.archives,
        .ended rfl ht.archived, ht.kept.update, ht.kept.record, hR.remove _ ht.kept.config⟩
    exact ⟨ht.kept, hended, ⟨hended, rfl⟩, ht.kept, hended⟩
  rw [finishPublication, wp_bind, writeOperation, wp_bind, wp_attempt]
  refine ⟨h.kept, ?_, h.kept⟩
  have hrecord : (Program.durable fileOperationFailed fun disk : PublicationDisk δ =>
      { disk with
        operationRecord := some (env.encodeOperation (intent.operation.preserved now)) } :
      PublicationProgram δ Unit).wp (fun _ => Finishing env R d intent)
      (fun _ => Kept env R d intent) (Kept env R d intent) s := by
    have hnew := h.withRecord now
    exact ⟨h.kept, hnew.kept, hnew, h.kept, hnew.kept⟩
  rw [wp_bind]
  refine wp_readFile ?_ fun _ => h.kept
  cases s.operationRecord with
  | none => exact wp_imp (fun _ t => hlast t) hrecord
  | some bytes =>
    dsimp only
    rw [wp_bind, wp_ofExcept]
    refine ⟨fun _ _ => ?_, fun _ _ => h.kept⟩
    exact wp_imp (fun _ t => hlast t) hrecord

variable [DecidableEq ρ] [DecidableEq δ]

/-- **A recovery behind the decision** archives the journal and removes it, or leaves it for the
next one. -/
theorem wp_recoverPublication (hR : Keeps env R intent) (h : Kept env R d intent s)
    (hdecided : Decided env s) (now : Nat) :
    (recoverPublication env now).wp
      (fun _ t => Kept env R d intent t ∧ t.config.outerPublication = none)
      (fun _ => Kept env R d intent) (Kept env R d intent) s := by
  rw [recoverPublication, wp_bind, wp_read]
  cases hbytes : s.config.outerPublication with
  | none => exact ⟨h, hbytes⟩
  | some bytes =>
    have hpending : s.config.outerPublication ≠ none := by
      rw [hbytes]
      exact Option.some_ne_none _
    rw [if_pos (Option.isSome_some), wp_bind]
    refine wp_readIntent (fun bytes' journal hbytes' hdecode => ?_) fun _ => h
    -- the journal is the one of the invariant, with the decision
    have hjournal : journal = intent.decided := by
      obtain ⟨journal', hdecode', hpreserve⟩ := hdecided bytes' hbytes'
      rw [hdecode] at hdecode'
      obtain rfl := Except.ok.inj hdecode'
      cases h.stage with
      | ended hnone _ => exact absurd hnone hpending
      | pending bytes'' journal'' hbytes'' _ hdecode'' hdec _ =>
        rw [hbytes'] at hbytes''
        obtain rfl := Option.some.inj hbytes''
        rw [hdecode] at hdecode''
        obtain rfl := Except.ok.inj hdecode''
        rw [← hdec, decided_of_preserveCurrent hpreserve]
    rw [hjournal, wp_bind, reconcileIntent,
      if_pos (show intent.decided.preserveCurrent = true from rfl)]
    exact wp_mono (fun operation t ht => ht.1 ▸ wp_finishPublication hR ht.2 now)
      (fun _ _ ht => ht.1) (fun _ ht => ht.1)
      (wp_finishPreservedPublication hR h hdecided hpending now)

/-- **A request to keep what is there**, and every request behind the decision. -/
theorem wp_recoverExplicit (hR : Keeps env R intent) (h : Kept env R d intent s)
    (request : RecoverRequest) (hallowed : request.preserveCurrent = true ∨ Decided env s) :
    (recoverExplicit env request).wp
      (fun _ t => Kept env R d intent t ∧ t.config.outerPublication = none)
      (fun _ => Kept env R d intent) (Kept env R d intent) s := by
  unfold recoverExplicit
  split
  · exact h
  rw [wp_bind]
  refine wp_readIntent (fun bytes journal hbytes hdecode => ?_) fun _ => h
  split
  · exact h
  have hdec : journal.decided = intent.decided := by
    cases h.stage with
    | ended hnone _ => rw [hnone] at hbytes; cases hbytes
    | pending bytes' journal' hbytes' _ hdecode' hdec _ =>
      rw [hbytes] at hbytes'
      obtain rfl := Option.some.inj hbytes'
      rw [hdecode] at hdecode'
      obtain rfl := Except.ok.inj hdecode'
      exact hdec
  have hpreserve : request.preserveCurrent = true ∨ journal.preserveCurrent = true := by
    rcases hallowed with hrequest | hdecided
    · exact Or.inl hrequest
    · obtain ⟨journal', hdecode', hjournal⟩ := hdecided bytes hbytes
      rw [hdecode] at hdecode'
      obtain rfl := Except.ok.inj hdecode'
      exact Or.inr hjournal
  have hdecide : (if journal.preserveCurrent = true then pure () else
      writeIntent env journal.decided : PublicationProgram δ Unit).wp
      (fun _ t => Kept env R d intent t ∧ Decided env t) (fun _ => Kept env R d intent)
      (Kept env R d intent) s := by
    split
    · next hjournal =>
      refine ⟨h, fun bytes' hbytes' => ?_⟩
      rw [hbytes] at hbytes'
      obtain rfl := Option.some.inj hbytes'
      exact ⟨journal, hdecode, hjournal⟩
    · rw [hdec]
      refine wp_writeIntent hR h ?_
      rw [hbytes]
      exact Option.some_ne_none _
  rw [if_pos hpreserve, wp_bind]
  refine wp_imp (fun _ t ht => wp_recoverPublication hR ht.1 ht.2 request.now)
    (wp_preserveCurrentAfter hR (fun t u ht hu => decided_congr ht hu) (fun _ _ ht _ => ht)
      (fun _ ht _ => ht) ⟨fun _ => h, h⟩ hdecide)

end Calls

/-! ## 5. An uninterrupted call -/

section Progress

variable {ρ κ δ : Type} {env : PublicationEnvironment ρ κ δ} {d s : PublicationDisk δ}
  {intent : PublicationIntent ρ κ} {current : Bytes}

/-- The records that a recovery reads can be read, and the archive is free. -/
structure Recoverable (env : PublicationEnvironment ρ κ δ) (current : Bytes)
    (intent : PublicationIntent ρ κ) (d : PublicationDisk δ) : Prop where
  config : Preservable env.config.checks current d.config
  valid : ConfigStore.ValidDocument env.config.checks current
  journal : env.decodeIntent (env.encodeIntent intent.decided) = .ok intent.decided
  /-- the configuration store reads the journal with the decision -/
  accepted : ∃ preserves,
    env.config.checks.outerDecision (env.encodeIntent intent.decided) = .ok preserves
  identity : validOperationId intent.operation.operationId = true
  archive : ∀ existing, d.archives.lookup intent.operation.operationId = some existing →
    existing = env.plainIntent intent.decided
  record : ∀ bytes, d.operationRecord = some bytes →
    bytes.length ≤ RECORD_LIMIT ∧ ∃ operation, env.decodeOperation bytes = .ok operation
  journal_le : ∀ bytes, d.config.outerPublication = some bytes → bytes.length ≤ RECORD_LIMIT
  decided_le : (env.encodeIntent intent.decided).length ≤ RECORD_LIMIT
  archive_le : (env.plainIntent intent.decided).length ≤ RECORD_LIMIT
  recorded : ∀ now, (env.encodeOperation (intent.operation.preserved now)).length ≤ RECORD_LIMIT ∧
    ∃ operation, env.decodeOperation (env.encodeOperation (intent.operation.preserved now)) =
      .ok operation

theorem Recoverable.keeps (h : Recoverable env current intent d) :
    Keeps env (Preservable env.config.checks current) intent := by
  refine ⟨h.journal, fun c hc => hc.wp_preservePendingInner, fun c hc => ?_, fun c hc => ?_⟩
  · refine ⟨hc.config, fun bytes hbytes => ?_, hc.records⟩
    obtain rfl := Option.some.inj hbytes
    exact h.accepted
  · exact ⟨hc.config, fun bytes hbytes => (by cases hbytes), hc.records⟩

theorem returns_readFile {file : PublicationDisk δ → Option Bytes} {limit : Nat}
    {Q : Option Bytes → PublicationDisk δ → Prop}
    (hlength : ∀ bytes, file s = some bytes → bytes.length ≤ limit) (hQ : Q (file s) s) :
    (readFile file limit).returns Q s := by
  rw [readFile, returns_bind, returns_read, returns_ofExcept]
  refine ⟨file s, ?_, hQ⟩
  cases hfile : file s with
  | none => rfl
  | some bytes =>
    have := hlength bytes hfile
    rw [readRegularFileBounded, if_neg (by omega)]

variable (hd : Recoverable env current intent d)
  (h : Kept env (Preservable env.config.checks current) d intent s)

include hd h

theorem returns_preserveCurrentAfter {decide : PublicationProgram δ Unit}
    {P : PublicationDisk δ → Prop}
    (hP : ∀ t u : PublicationDisk δ, P t →
      u.config.outerPublication = t.config.outerPublication → P u)
    (hdecide : decide.returns (fun _ t =>
      Kept env (Preservable env.config.checks current) d intent t ∧ P t) s) :
    (preserveCurrentAfter env decide).returns (fun _ t =>
      Kept env (Preservable env.config.checks current) d intent t ∧ P t) s := by
  rw [preserveCurrentAfter, returns_bind, onConfig, returns_zoom]
  refine ConfigStore.returns_outerPreservesCurrent h.config.outer fun _ => ?_
  rw [returns_bind, onConfig, returns_zoom]
  refine ConfigStore.returns_validatedCurrentBytes h.config.config hd.valid ?_
  show (decide >>= _).returns _ s
  rw [returns_bind]
  refine returns_mono (fun _ t ht => ?_) hdecide
  have hreturns : (onConfig (ConfigStore.preservePendingInner env.config.checks) :
      PublicationProgram δ Unit).returns (fun _ _ => True) t := by
    rw [onConfig, returns_zoom]
    exact returns_mono (fun _ _ _ => trivial)
      (ht.1.config.returns_preservePendingInner hd.valid)
  exact returns_mono (fun _ u hu => ⟨hu.2.1, hP t u ht.2 hu.2.2⟩)
    (returns_and_of_wp hreturns (wp_preserveInner hd.keeps ht.1))

theorem returns_readIntent (hpending : s.config.outerPublication ≠ none) :
    (readIntent env).returns (fun journal t => t = s ∧ journal.decided = intent.decided ∧
      ∃ bytes, s.config.outerPublication = some bytes ∧
        env.decodeIntent bytes = .ok journal) s := by
  cases h.stage with
  | ended hnone _ => exact absurd hnone hpending
  | pending bytes journal hbytes horigin hdecode hdecided _ =>
    rw [readIntent, returns_bind]
    refine returns_readFile (fun bytes' hbytes' => ?_) ?_
    · obtain rfl := Option.some.inj (hbytes.symm.trans hbytes')
      rcases horigin with horigin | rfl
      · exact hd.journal_le bytes horigin
      · exact hd.decided_le
    · rw [hbytes]
      show (Program.ofExcept (env.decodeIntent bytes)).returns _ s
      rw [returns_ofExcept]
      exact ⟨journal, hdecode, rfl, hdecided, bytes, rfl, hdecode⟩

theorem returns_writeIntent (hpending : s.config.outerPublication ≠ none) :
    (writeIntent env intent.decided).returns (fun _ t =>
      Kept env (Preservable env.config.checks current) d intent t ∧ Decided env t) s := by
  have hreturns : (writeIntent env intent.decided).returns (fun _ _ => True) s := by
    cases h.stage with
    | ended hnone _ => exact absurd hnone hpending
    | pending bytes journal hbytes horigin hdecode _ _ =>
      rw [writeIntent, returns_bind]
      refine returns_readFile (fun bytes' hbytes' => ?_) ?_
      · obtain rfl := Option.some.inj (hbytes.symm.trans hbytes')
        rcases horigin with horigin | rfl
        · exact hd.journal_le bytes horigin
        · exact hd.decided_le
      · rw [hbytes]
        dsimp only
        rw [returns_bind, returns_ofExcept]
        exact ⟨journal, hdecode, trivial⟩
  exact returns_mono (fun _ t ht => ht.2)
    (returns_and_of_wp hreturns (wp_writeIntent hd.keeps h hpending))

theorem returns_finishPreservedPublication (hdecided : Decided env s)
    (hpending : s.config.outerPublication ≠ none) (now : Nat) :
    (finishPreservedPublication env intent.decided now).returns (fun operation t =>
      operation = intent.operation.preserved now ∧
        Finishing env (Preservable env.config.checks current) d intent t) s := by
  have hreturns : (finishPreservedPublication env intent.decided now).returns (fun _ _ => True)
      s := by
    rw [finishPreservedPublication, returns_bind]
    refine returns_mono (fun _ t ht => ?_)
      (returns_preserveCurrentAfter hd h (P := fun _ => True) (fun _ _ _ _ => trivial)
        (show (pure () : PublicationProgram δ Unit).returns _ s from ⟨h, trivial⟩))
    dsimp only
    have hoperation : intent.decided.operation = intent.operation := rfl
    rw [hoperation, if_neg (ne_of_eq_of_ne hd.identity (by decide))]
    have harchived : ∀ existing,
        t.archives.lookup intent.operation.operationId = some existing →
        existing = env.plainIntent intent.decided := by
      intro existing hexisting
      cases ht.1.stage with
      | pending bytes journal hbytes horigin hdecode hdec harchive =>
        rcases harchive with hsame | hnew
        · exact hd.archive existing (hsame ▸ hexisting)
        · exact Option.some.inj (hexisting.symm.trans hnew)
      | ended _ hnew => exact Option.some.inj (hexisting.symm.trans hnew)
    rw [returns_bind, archiveIntent, returns_bind]
    refine returns_readFile (fun bytes hbytes => ?_) ?_
    · rw [harchived bytes hbytes]
      exact hd.archive_le
    · cases hlookup : t.archives.lookup intent.operation.operationId with
      | none => trivial
      | some existing =>
        dsimp only
        rw [if_neg (not_not.mpr (harchived existing hlookup))]
        trivial
  exact returns_mono (fun _ t ht => ht.2)
    (returns_and_of_wp hreturns
      (wp_finishPreservedPublication hd.keeps h hdecided hpending now))

theorem returns_finishPublication (harchived : Archived env intent s) (hdecided : Decided env s)
    (now : Nat) :
    (finishPublication env (intent.operation.preserved now)).returns (fun _ t =>
      Kept env (Preservable env.config.checks current) d intent t ∧
        t.config.outerPublication = none) s := by
  have hreturns : (finishPublication env (intent.operation.preserved now)).returns
      (fun _ _ => True) s := by
    have hrecord : ∀ bytes, s.operationRecord = some bytes →
        bytes.length ≤ RECORD_LIMIT ∧ ∃ operation, env.decodeOperation bytes = .ok operation := by
      intro bytes hbytes
      rcases h.record with hsame | ⟨now', hnew⟩
      · exact hd.record bytes (hsame ▸ hbytes)
      · obtain rfl := Option.some.inj (hnew.symm.trans hbytes)
        exact hd.recorded now'
    rw [finishPublication, returns_bind, writeOperation, returns_bind,
      returns_attempt, returns_bind]
    refine returns_readFile (fun bytes hbytes => (hrecord bytes hbytes).1) ?_
    cases hbytes : s.operationRecord with
    | none => trivial
    | some bytes =>
      dsimp only
      rw [returns_bind, returns_ofExcept]
      obtain ⟨operation, hdecode⟩ := (hrecord bytes hbytes).2
      exact ⟨operation, hdecode, trivial⟩
  exact returns_mono (fun _ t ht => ht.2)
    (returns_and_of_wp hreturns
      (wp_finishPublication hd.keeps ⟨h, hdecided, harchived⟩ now))

variable [DecidableEq ρ] [DecidableEq δ]

theorem returns_recoverPublication (hdecided : Decided env s) (now : Nat) :
    (recoverPublication env now).returns (fun _ t => t.config.outerPublication = none) s := by
  rw [recoverPublication, returns_bind, returns_read]
  by_cases hpending : s.config.outerPublication = none
  · rw [hpending]
    exact hpending
  have hsome : s.config.outerPublication.isSome = true := Option.isSome_iff_ne_none.mpr hpending
  rw [if_pos hsome, returns_bind]
  refine returns_mono ?_ (returns_readIntent hd h hpending)
  rintro journal t ⟨rfl, hdec, bytes, hbytes, hdecode⟩
  have hjournal : journal = intent.decided := by
    obtain ⟨journal', hdecode', hpreserve⟩ := hdecided bytes hbytes
    rw [hdecode] at hdecode'
    obtain rfl := Except.ok.inj hdecode'
    rw [← hdec, decided_of_preserveCurrent hpreserve]
  rw [hjournal, returns_bind, reconcileIntent,
    if_pos (show intent.decided.preserveCurrent = true from rfl)]
  refine returns_mono ?_ (returns_finishPreservedPublication hd h hdecided hpending now)
  rintro _ u ⟨rfl, hu⟩
  exact returns_mono (fun _ _ hv => hv.2)
    (returns_finishPublication hd hu.kept hu.archived hu.decided now)

/-- **An uninterrupted request ends the publication.** -/
theorem returns_recoverExplicit (hpending : s.config.outerPublication ≠ none)
    {request : RecoverRequest} (hinactive : request.ownerActive = false)
    (hid : request.operationId = intent.operation.operationId)
    (hpreserve : request.preserveCurrent = true) :
    (recoverExplicit env request).returns (fun _ t => t.config.outerPublication = none) s := by
  unfold recoverExplicit
  rw [if_neg (by rw [hinactive]; decide), returns_bind]
  refine returns_mono ?_ (returns_readIntent hd h hpending)
  rintro journal t ⟨rfl, hdec, bytes, hbytes, hdecode⟩
  rw [if_neg (by rw [operation_of_decided hdec, hid]; simp), if_pos (Or.inl hpreserve),
    returns_bind]
  have hdecide : (if journal.preserveCurrent = true then pure () else
      writeIntent env journal.decided : PublicationProgram δ Unit).returns
      (fun _ u => Kept env (Preservable env.config.checks current) d intent u ∧ Decided env u)
      t := by
    split
    · next hjournal =>
      refine ⟨h, fun bytes' hbytes' => ?_⟩
      obtain rfl := Option.some.inj (hbytes.symm.trans hbytes')
      exact ⟨journal, hdecode, hjournal⟩
    · rw [hdec]
      exact returns_writeIntent hd h hpending
  refine returns_mono (fun _ u hu => ?_)
    (returns_preserveCurrentAfter hd h (fun _ _ ht hu => decided_congr ht hu) hdecide)
  exact returns_recoverPublication hd hu.1 hu.2 request.now

end Progress

/-! ## 6. Runs -/

/-- A request, or the recovery at the start of the agent. -/
inductive PublicationCall
  | explicit (request : RecoverRequest)
  | startup (now : Nat)

section Runs

variable {ρ κ δ : Type} [DecidableEq ρ] [DecidableEq δ] (env : PublicationEnvironment ρ κ δ)

def PublicationCall.program : PublicationCall → PublicationProgram δ Unit
  | explicit request => recoverExplicit env request
  | startup now => recoverPublication env now

/-- A request to keep what is there; behind the decision, any call. -/
def PublicationCall.Preserves : PublicationCall → PublicationDisk δ → Prop
  | explicit request, s => request.preserveCurrent = true ∨ Decided env s
  | startup _, s => Decided env s

variable {env} {R : ConfigDisk → Prop} {d s : PublicationDisk δ} {intent : PublicationIntent ρ κ}

theorem wp_call (hR : Keeps env R intent) (call : PublicationCall)
    (h : Kept env R d intent s) (hcall : call.Preserves env s) :
    (call.program env).wp
      (fun _ t => Kept env R d intent t ∧ t.config.outerPublication = none)
      (fun _ => Kept env R d intent) (Kept env R d intent) s := by
  cases call with
  | explicit request => exact wp_recoverExplicit hR h request hcall
  | startup now => exact wp_recoverPublication hR h hcall now

theorem kept_of_run (hR : Keeps env R intent) (h : Kept env R d intent s)
    (calls : List (PublicationCall × List Fault))
    (hcalls : Session.Respects (PublicationCall.program env) (PublicationCall.Preserves env) calls
      s) :
    Kept env R d intent (Session.finalState (PublicationCall.program env) calls s) :=
  Session.finalState_invariant (fun call _ ht hcall =>
    wp_imp (fun _ _ hu => hu.1)
      (wp_call hR call ht hcall)) calls s h hcalls

omit [DecidableEq ρ] [DecidableEq δ] in
theorem kept_start {bytes : Bytes} (hbytes : d.config.outerPublication = some bytes)
    (hdecode : env.decodeIntent bytes = .ok intent) (hR : R d.config) : Kept env R d intent d :=
  ⟨⟨rfl, rfl, rfl, rfl, rfl, rfl, rfl, rfl, rfl⟩, fun _ _ => rfl,
    .pending bytes intent hbytes (Or.inl hbytes) hdecode rfl (Or.inl rfl), Or.inl rfl, Or.inl rfl,
    hR⟩

omit [DecidableEq ρ] [DecidableEq δ] in
theorem keeps_true
    (hjournal : env.decodeIntent (env.encodeIntent intent.decided) = .ok intent.decided) :
    Keeps env (fun _ => True) intent :=
  ⟨hjournal, fun c _ => wp_true _ c, fun _ _ => trivial, fun _ _ => trivial⟩

/-- **Preserving a publication touches no store.**  After any run of requests to keep what is
there, cut anywhere: the configuration, the release selection and slots, the candidates, the
runtimes, the environments and the profiles are what they were; the archive of this publication is
what it was or the journal with the decision, and no other archive changes; a publication that is
no longer pending is archived; and the update status and the operation's record are what they were
or say how the publication ended.  A request that returns ends the publication, and where the
records can be read an uninterrupted request does. -/
theorem preserve_ends_publication (env : PublicationEnvironment ρ κ δ)
    (intent : PublicationIntent ρ κ) (d : PublicationDisk δ) (bytes : Bytes)
    (hbytes : d.config.outerPublication = some bytes)
    (hdecode : env.decodeIntent bytes = .ok intent)
    (hjournal : env.decodeIntent (env.encodeIntent intent.decided) = .ok intent.decided)
    (calls : List (PublicationCall × List Fault))
    (hcalls : Session.Respects (PublicationCall.program env) (PublicationCall.Preserves env) calls
      d) :
    let s := Session.finalState (PublicationCall.program env) calls d
    Untouched d s ∧
      (∀ id, id ≠ intent.operation.operationId → s.archives.lookup id = d.archives.lookup id) ∧
      (s.archives.lookup intent.operation.operationId =
          d.archives.lookup intent.operation.operationId ∨ Archived env intent s) ∧
      (s.config.outerPublication = none → Archived env intent s) ∧
      (s.update = d.update ∨ ∃ now, s.update = some (intent.operation.preservedUpdate now)) ∧
      (s.operationRecord = d.operationRecord ∨
        ∃ now, s.operationRecord = some (env.encodeOperation (intent.operation.preserved now))) ∧
      (∀ (call : PublicationCall) fs t, call.Preserves env s →
        (call.program env).run fs s = (.ok (), t) → t.config.outerPublication = none) ∧
      ∀ current, Recoverable env current intent d → s.config.outerPublication ≠ none → ∀ now,
        ∃ t, (recoverExplicit env ⟨intent.operation.operationId, true, false, now⟩).run [] s =
          (.ok (), t) ∧ t.config.outerPublication = none := by
  intro s
  have hs := kept_of_run (keeps_true hjournal) (kept_start hbytes hdecode trivial) calls hcalls
  refine ⟨hs.untouched, hs.archives, ?_, fun hnone => ?_, hs.update, hs.record,
    fun call fs t hcall hrun => ?_, fun current hd hpending now => ?_⟩
  · cases hs.stage with
    | pending _ _ _ _ _ _ harchive => exact harchive
    | ended _ harchive => exact Or.inr harchive
  · cases hs.stage with
    | pending _ _ hsome => exact absurd (hsome.symm.trans hnone) (Option.some_ne_none _)
    | ended _ harchive => exact harchive
  · have hmeets := (wp_iff_run _ _ _ _ _).mp
      (wp_call (keeps_true hjournal) call hs hcall) fs
    rw [hrun] at hmeets
    exact hmeets.2
  · have hkept := kept_of_run hd.keeps (kept_start hbytes hdecode hd.config) calls hcalls
    have hreturns : (recoverExplicit env ⟨intent.operation.operationId, true, false, now⟩).returns
        (fun _ t => t.config.outerPublication = none) s :=
      returns_recoverExplicit hd hkept hpending rfl rfl rfl
    obtain ⟨_, t, hrun, hended⟩ := (returns_iff_run _ _ _).mp hreturns
    exact ⟨t, hrun, hended⟩

end Runs

/-! ## 7. One publication -/

/-- The installation `cold-1`. -/
def sampleOperation : ColdOperation Unit :=
  ⟨"cold-1", "install", none, .verifying, "r2", "c", 90, 5, none, none, true, false, none, ()⟩

/-- Its journal, before a commit and without a decision. -/
def sampleIntent : PublicationIntent Unit Unit :=
  ⟨false, none, none, false, false, none, false, false, sampleOperation, ⟨none, 1, none, ()⟩,
    ⟨none, 1, none, ()⟩, none, none, none, ⟨.idle, none, none, none, none, none⟩, true⟩

/-- Records of one byte, which say whether there is a decision. -/
def samplePublication : PublicationEnvironment Unit Unit Bytes where
  config :=
    { checks := { ConfigStore.acceptingChecks with
        outerDecision := fun bytes => .ok (decide (bytes = [1])) }
      sections := ()
      decode := fun _ => .ok ⟨none, 1, none, ()⟩
      encode := fun _ => []
      validateSections := fun _ => .ok ()
      protect := fun _ _ => .ok () }
  releases := sampleEnvironment
  decodeIntent bytes :=
    if bytes = [0] then .ok sampleIntent
    else if bytes = [1] then .ok sampleIntent.decided else .error (invalidData "journal")
  encodeIntent intent := if intent.preserveCurrent = true then [1] else [0]
  plainIntent intent := if intent.preserveCurrent = true then [1] else [0]
  decodeOperation _ := .ok (sampleOperation.preserved 7)
  encodeOperation _ := [2]

/-- The store with this journal and the configuration `[9]`. -/
def samplePublicationDisk : PublicationDisk Bytes where
  config := { ConfigStore.plainDisk (some [9]) none with outerPublication := some [0] }
  slots := ∅
  owned := ∅
  pointers := none
  profiles := none
  runtimes := ∅
  environments := ∅
  candidates := ∅
  exports := ∅
  update := none
  operationRecord := none
  archives := ∅

theorem samplePublication_recoverable :
    Recoverable samplePublication [9] sampleIntent samplePublicationDisk where
  config :=
    { config := rfl
      outer := fun bytes _ => ⟨decide (bytes = [1]), rfl⟩
      records := Or.inl ⟨rfl, fun decision hdecision => (by cases hdecision)⟩ }
  valid := ⟨by decide, rfl⟩
  journal := rfl
  accepted := ⟨true, rfl⟩
  identity := by decide
  archive existing hexisting := by cases hexisting
  record bytes hbytes := by cases hbytes
  journal_le bytes hbytes := by
    obtain rfl := Option.some.inj hbytes
    decide
  decided_le := by decide
  archive_le := by decide
  recorded now := ⟨by show 1 ≤ RECORD_LIMIT; decide, _, rfl⟩

/-- A request that is cut behind its decision: nothing else has changed, and the next request ends
the publication. -/
theorem preserve_ends_publication_small :
    let request : RecoverRequest := ⟨"cold-1", true, false, 7⟩
    let s := Session.finalState (PublicationCall.program samplePublication)
      [(.explicit request, [.none, .crashAfter])] samplePublicationDisk
    Untouched samplePublicationDisk s ∧ s.config.outerPublication = some [1] ∧
      ∃ t, (recoverExplicit samplePublication request).run [] s = (.ok (), t) ∧
        t.config.outerPublication = none := by
  intro request s
  have hpending : s.config.outerPublication = some [1] := by decide
  have hmain := preserve_ends_publication samplePublication sampleIntent samplePublicationDisk [0]
    rfl rfl rfl [(.explicit request, [.none, .crashAfter])] ⟨Or.inl rfl, trivial⟩
  obtain ⟨huntouched, -, -, -, -, -, -, hends⟩ := hmain
  refine ⟨huntouched, hpending, hends [9] samplePublication_recoverable ?_ 7⟩
  rw [hpending]
  exact Option.some_ne_none _

/-- **The archive is not the journal that was pending**: it holds the decision as well. -/
theorem archive_holds_decision :
    ¬ ∀ (env : PublicationEnvironment Unit Unit Bytes) (intent : PublicationIntent Unit Unit)
      (d : PublicationDisk Bytes) (bytes : Bytes), d.config.outerPublication = some bytes →
      env.decodeIntent bytes = .ok intent →
      env.decodeIntent (env.encodeIntent intent.decided) = .ok intent.decided →
      ∀ (calls : List (PublicationCall × List Fault)),
        Session.Respects (PublicationCall.program env) (PublicationCall.Preserves env) calls d →
        let s := Session.finalState (PublicationCall.program env) calls d
        s.config.outerPublication = none →
          s.archives.lookup intent.operation.operationId = some (env.plainIntent intent) := by
  intro hall
  have harchive := hall samplePublication sampleIntent samplePublicationDisk [0] rfl rfl rfl
    [(.explicit ⟨"cold-1", true, false, 7⟩, [])] ⟨Or.inl rfl, trivial⟩ (by decide)
  exact absurd harchive (by decide)

end DshNexus.Publication
