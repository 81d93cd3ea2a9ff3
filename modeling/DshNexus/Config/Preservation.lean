import DshNexus.Config.Recovery

/-!
# Preserving the current configuration

`crates/nexus-core/src/config_transaction.rs`: instead of settling a pending record the user may
keep the configuration as it is.  A decision is written first, then the record is archived, then
the record goes, and then the decision.  Every later reader finds the decision and carries on.

1. The calls: `load`, `retry_configuration`, `preserve_current_configuration` and the status that
   names the pending operation.
2. `Preserving`: from the first write on, the record is there with a decision about it, or it is
   archived and gone.
3. `wp_preservePendingInner`: no cut leaves this invariant, and none touches the pair.
4. `returns_preserveCurrentConfiguration`: with a valid configuration an uninterrupted call ends
   the preservation.
-/

namespace DshNexus.Config

open Durable Program

namespace ConfigStore

variable (checks : ConfigChecks)

/-! ## 1. The calls -/

/-- `load_unlocked`, as far as the bytes of the document. -/
def loadUnlocked : ConfigProgram (Option Bytes) := do
  let bytes ← readFile ConfigDisk.config LIMIT
  validatePrevious checks bytes
  pure bytes

def load : ConfigProgram (Option Bytes) := do
  settlePendingUnlocked checks
  loadUnlocked checks

/-- The id of the pending operation: that of the record or, when it is gone, the one in the
decision. -/
def pendingOperation (disk : ConfigDisk) : Option String :=
  match disk.pending with
  | some p => some (checks.recordId p)
  | none => disk.preserve.map (·.pendingId)

/-- `pending_configuration_status`: the operation, and whether it can be preserved. -/
def pendingConfigurationStatus : ConfigProgram (Option (String × Bool)) := do
  let disk ← Program.read
  match pendingOperation checks disk with
  | none => pure none
  | some id => do
      let current ← Program.toExcept (validatedCurrentBytes checks)
      pure (some (id, current.isOk))

def verifyPendingIdentity (operationId : String) : ConfigProgram Unit := do
  let disk ← Program.read
  match pendingOperation checks disk with
  | none => throw (invalidData "No pending configuration operation")
  | some id =>
      if id ≠ operationId then throw (invalidData "Stale configuration operation ID") else pure ()

def retryConfiguration (operationId : String) : ConfigProgram Unit := do
  verifyPendingIdentity checks operationId
  settlePendingUnlocked checks

/-- A decision that is there is renewed for the configuration that is current now. -/
def renewDecision (current : Bytes) : ConfigProgram Unit := do
  let disk ← Program.read
  match disk.preserve with
  | none => pure ()
  | some decision =>
      Program.durable fileOperationFailed fun disk =>
        { disk with preserve := some { decision with currentId := checks.bytesId current } }

def preserveCurrentConfiguration (operationId : String) : ConfigProgram Unit := do
  let _ ← outerPreservesCurrent checks
  verifyPendingIdentity checks operationId
  let current ← validatedCurrentBytes checks
  renewDecision checks current
  preservePendingInner checks

/-! ## 2. The invariant -/

def documents (p : Pending) : List Bytes :=
  [some p.target, p.oldCurrent, p.oldPrevious, p.previousOverride.bind (·.bytes)].filterMap id

def ValidDocument (bytes : Bytes) : Prop :=
  bytes.length ≤ LIMIT ∧ checks.validateDocument bytes = .ok ()

structure ValidRecord (p : Pending) : Prop where
  schema : p.schema = 1
  documents : ∀ bytes ∈ documents p, ValidDocument checks bytes

/-- The outer publication record, where there is one, can be read. -/
def OuterReadable (disk : ConfigDisk) : Prop :=
  ∀ bytes, disk.outerPublication = some bytes →
    ∃ preserves, checks.outerDecision bytes = .ok preserves

/-- No other record is archived under the id of this one. -/
def ArchiveFree (p : Pending) (disk : ConfigDisk) : Prop :=
  ∀ existing, disk.archives.lookup (checks.recordId p) = some existing → existing = p

inductive PreserveStage (p : Pending) (disk : ConfigDisk) : Prop
  | decided (decision : PreserveDecision) (hpending : disk.pending = some p)
      (hpreserve : disk.preserve = some decision)
      (hid : decision.pendingId = checks.recordId p)
  | archived (hpending : disk.pending = none)
      (harchive : disk.archives.lookup (checks.recordId p) = some p)

/-- The preservation of a record is under way, or has ended. -/
structure Preserving (p : Pending) (disk : ConfigDisk) : Prop where
  stage : PreserveStage checks p disk
  record : ValidRecord checks p
  outer : OuterReadable checks disk
  free : ArchiveFree checks p disk

variable {checks} {p : Pending} {s s' : ConfigDisk}

theorem PreserveStage.kept (h : PreserveStage checks p s) :
    s.pending = some p ∨ s.pending = none ∧ s.archives.lookup (checks.recordId p) = some p := by
  cases h with
  | decided decision hpending _ _ => exact Or.inl hpending
  | archived hpending harchive => exact Or.inr ⟨hpending, harchive⟩

theorem wp_outerPreservesCurrent {Q : Bool → ConfigDisk → Prop} {E : IoError → ConfigDisk → Prop}
    {C : ConfigDisk → Prop} (hQ : ∀ preserves, OuterReadable checks s → Q preserves s)
    (hE : ∀ e, E e s) : (outerPreservesCurrent checks).wp Q E C s := by
  rw [outerPreservesCurrent, wp_bind, wp_read]
  cases houter : s.outerPublication with
  | none =>
    refine hQ false fun bytes hbytes => ?_
    rw [houter] at hbytes
    cases hbytes
  | some bytes =>
    rw [wp_ofExcept]
    refine ⟨fun preserves hok => hQ preserves fun bytes' hbytes => ?_, fun e _ => hE e⟩
    rw [houter] at hbytes
    rw [← Option.some.inj hbytes]
    exact ⟨preserves, hok⟩

theorem wp_validateDocument {bytes : Bytes} {Q : Unit → ConfigDisk → Prop}
    {E : IoError → ConfigDisk → Prop} {C : ConfigDisk → Prop}
    (hQ : checks.validateDocument bytes = .ok () → Q () s) (hE : ∀ e, E e s) (hC : C s) :
    (validateDocument checks bytes).wp Q E C s := by
  rw [validateDocument, wp_bind, wp_attempt]
  refine ⟨hC, ?_, hE _⟩
  rw [wp_ofExcept]
  exact ⟨fun _ hok => hQ hok, fun e _ => hE e⟩

theorem wp_validatedCurrentBytes {Q : Bytes → ConfigDisk → Prop} {E : IoError → ConfigDisk → Prop}
    {C : ConfigDisk → Prop} (hQ : ∀ bytes, s.config = some bytes → Q bytes s)
    (hE : ∀ e, E e s) (hC : C s) : (validatedCurrentBytes checks).wp Q E C s := by
  rw [validatedCurrentBytes, wp_bind]
  refine wp_readFile ?_ hE
  cases hconfig : s.config with
  | none => exact hE _
  | some bytes =>
    show (validateDocument checks bytes >>= _).wp Q E C s
    rw [wp_bind]
    exact wp_validateDocument (fun _ => hQ bytes hconfig) hE hC

theorem wp_validatePendingConfigs {Q : Unit → ConfigDisk → Prop} {E : IoError → ConfigDisk → Prop}
    {C : ConfigDisk → Prop} (hQ : ValidRecord checks p → Q () s) (hE : ∀ e, E e s) (hC : C s) :
    (validatePendingConfigs checks p).wp Q E C s := by
  unfold validatePendingConfigs
  split
  · exact hE _
  next hschema =>
  rw [not_not] at hschema
  refine wp_mono ?_ ?_ ?_ (wp_checks (P := ValidDocument checks) (t := s)
    (fun bytes => ?_) (documents p))
  · rintro _ t ⟨rfl, hdocuments⟩
    exact hQ ⟨hschema, hdocuments⟩
  · rintro e t rfl
    exact hE e
  · rintro t rfl
    exact hC
  · split
    · rfl
    next hlength =>
    exact wp_validateDocument (fun hok => ⟨rfl, by omega, hok⟩) (fun _ => rfl) rfl

/-! ## 3. One preservation -/

/-- What a cut of a preservation leaves: the pair is untouched. -/
def Preserved (checks : ConfigChecks) (p : Pending) (s s' : ConfigDisk) : Prop :=
  s'.pair = s.pair ∧ Preserving checks p s'

theorem wp_archivePending {Q : Unit → ConfigDisk → Prop} {E : IoError → ConfigDisk → Prop}
    {C : ConfigDisk → Prop} {id : String}
    (hQ : s.archives.lookup id = some p → Q () s)
    (hnew : Q () { s with archives := (id, p) :: s.archives })
    (hE : ∀ e, E e s) (hEnew : ∀ e, E e { s with archives := (id, p) :: s.archives })
    (hC : C s) (hCnew : C { s with archives := (id, p) :: s.archives }) :
    (archivePending id p).wp Q E C s := by
  rw [archivePending, wp_bind, wp_read]
  cases hlookup : s.archives.lookup id with
  | none =>
    show (Program.durable _ _).wp Q E C s
    rw [wp_durable]
    exact ⟨hC, hCnew, hnew, hE _, hEnew _⟩
  | some existing =>
    show (if existing ≠ p then _ else _ : ConfigProgram Unit).wp Q E C s
    split
    · exact hE _
    next heq =>
    rw [not_not] at heq
    exact hQ (by rw [hlookup, heq])

theorem wp_removeRecord {current : Bytes} (h : Preserving checks p s)
    (harchive : s.archives.lookup (checks.recordId p) = some p) :
    (do
      let again ← validatedCurrentBytes checks
      let disk ← Program.read
      if again ≠ current ∨ disk.pending ≠ some p then
        throw (invalidData "Configuration changed during recovery")
      else do
        removePending
        removePreserve : ConfigProgram Unit).wp (fun _ => Preserved checks p s)
          (fun _ => Preserved checks p s) (Preserved checks p s) s := by
  have hsame : Preserved checks p s s := ⟨rfl, h⟩
  have hgone : Preserved checks p s { s with pending := none } :=
    ⟨rfl, .archived rfl harchive, h.record, h.outer, h.free⟩
  have hdone : Preserved checks p s { s with pending := none, preserve := none } :=
    ⟨rfl, .archived rfl harchive, h.record, h.outer, h.free⟩
  rw [wp_bind]
  refine wp_validatedCurrentBytes (fun again _ => ?_) (fun _ => hsame) hsame
  rw [wp_bind, wp_read]
  split
  · exact hsame
  · rw [wp_bind, removePending, wp_durable]
    refine ⟨hsame, hgone, ?_, hsame, hgone⟩
    rw [removePreserve, wp_durable]
    exact ⟨hgone, hdone, hdone, hgone, hdone⟩

/-- **What one preservation can do**: before its first write it changes nothing, and from then on
it keeps the invariant. -/
theorem wp_preservePendingInner (hpending : s.pending = some p) (hfree : ArchiveFree checks p s) :
    (preservePendingInner checks).wp (fun _ => Preserved checks p s)
      (fun _ s' => s' = s ∨ Preserved checks p s s') (fun s' => s' = s ∨ Preserved checks p s s')
      s := by
  have hstay : ∀ _ : IoError, s = s ∨ Preserved checks p s s := fun _ => Or.inl rfl
  rw [preservePendingInner, wp_bind]
  refine wp_outerPreservesCurrent (fun _ houter => ?_) hstay
  rw [wp_bind]
  refine wp_validatedCurrentBytes (fun current _ => ?_) hstay (Or.inl rfl)
  rw [wp_bind, wp_read, hpending]
  dsimp only
  rw [wp_bind]
  refine wp_validatePendingConfigs (fun hrecord => ?_) hstay (Or.inl rfl)
  -- what is left to do once the decision is there
  have hrest : ∀ decision : PreserveDecision, decision.pendingId = checks.recordId p → ∀ t,
      t = { s with preserve := some decision } →
      (do
        archivePending decision.pendingId p
        let again ← validatedCurrentBytes checks
        let disk ← Program.read
        if again ≠ current ∨ disk.pending ≠ some p then
          throw (invalidData "Configuration changed during recovery")
        else do
          removePending
          removePreserve : ConfigProgram Unit).wp (fun _ => Preserved checks p s)
            (fun _ => Preserved checks p s) (Preserved checks p s) t := by
    rintro decision hid t rfl
    have hdecided : Preserving checks p { s with preserve := some decision } :=
      ⟨.decided decision hpending rfl hid, hrecord, houter, hfree⟩
    have hnew : Preserving checks p
        { s with preserve := some decision, archives := (decision.pendingId, p) :: s.archives } := by
      refine ⟨.decided decision hpending rfl hid, hrecord, houter, fun existing hexisting => ?_⟩
      rw [hid] at hexisting
      simpa using hexisting.symm
    rw [wp_bind]
    refine wp_archivePending (fun harchive => ?_) ?_ (fun _ => ⟨rfl, hdecided⟩)
      (fun _ => ⟨rfl, hnew⟩) ⟨rfl, hdecided⟩ ⟨rfl, hnew⟩
    · exact wp_removeRecord hdecided (by rw [← hid]; exact harchive)
    · refine wp_removeRecord hnew ?_
      rw [hid]
      simp
  have hweaken : ∀ t, Preserved checks p s t → t = s ∨ Preserved checks p s t := fun _ => Or.inr
  cases hpreserve : s.preserve with
  | some saved =>
    dsimp only
    split
    · exact Or.inl rfl
    · next hmatches =>
      rw [not_or, not_not, not_not] at hmatches
      rw [wp_bind, wp_pure]
      exact wp_mono (fun _ _ h => h) (fun _ => hweaken) hweaken
        (hrest saved hmatches.1 s (by rw [← hpreserve]))
  | none =>
    dsimp only
    rw [wp_bind, wp_durable]
    have hdecided : Preserved checks p s
        { s with preserve := some ⟨checks.recordId p, checks.bytesId current⟩ } :=
      ⟨rfl, .decided _ hpending rfl rfl, hrecord, houter, hfree⟩
    refine ⟨Or.inl rfl, Or.inr hdecided, ?_, Or.inl rfl, Or.inr hdecided⟩
    rw [wp_bind, wp_pure]
    exact wp_mono (fun _ _ h => h) (fun _ => hweaken) hweaken (hrest _ rfl _ rfl)

theorem Preserving.wp_preservePendingInner (h : Preserving checks p s) :
    (preservePendingInner checks).wp (fun _ => Preserved checks p s)
      (fun _ => Preserved checks p s) (Preserved checks p s) s := by
  have hsame : Preserved checks p s s := ⟨rfl, h⟩
  cases h.stage with
  | decided decision hpending _ _ =>
    have hcut : ∀ t, t = s ∨ Preserved checks p s t → Preserved checks p s t := by
      rintro t (rfl | ht)
      · exact hsame
      · exact ht
    exact wp_mono (fun _ _ ht => ht) (fun _ => hcut) hcut
      (ConfigStore.wp_preservePendingInner hpending h.free)
  | archived hpending harchive =>
    rw [preservePendingInner, wp_bind]
    refine wp_outerPreservesCurrent (fun _ _ => ?_) fun _ => hsame
    rw [wp_bind]
    refine wp_validatedCurrentBytes (fun current _ => ?_) (fun _ => hsame) hsame
    rw [wp_bind, wp_read, hpending]
    dsimp only
    split
    · exact hsame
    · split
      · exact hsame
      · have hdone : Preserved checks p s { s with preserve := none } :=
          ⟨rfl, .archived hpending harchive, h.record, h.outer, h.free⟩
        rw [removePreserve, wp_durable]
        exact ⟨hsame, hdone, hdone, hsame, hdone⟩

theorem Preserving.wp_settlePendingInner (h : Preserving checks p s) :
    (settlePendingInner checks).wp (fun _ => Preserved checks p s)
      (fun _ => Preserved checks p s) (Preserved checks p s) s := by
  have hsame : Preserved checks p s s := ⟨rfl, h⟩
  rw [settlePendingInner, wp_bind]
  refine wp_outerPreservesCurrent (fun outerPreserves _ => ?_) fun _ => hsame
  rw [wp_bind, wp_read]
  split
  · exact h.wp_preservePendingInner
  next hnone =>
  rw [not_or] at hnone
  cases h.stage with
  | decided decision _ hpreserve _ =>
    rw [hpreserve] at hnone
    exact absurd rfl hnone.1
  | archived hpending _ =>
    rw [hpending]
    exact hsame

theorem Preserving.wp_settlePendingUnlocked (h : Preserving checks p s) :
    (settlePendingUnlocked checks).wp (fun _ => Preserved checks p s)
      (fun _ => Preserved checks p s) (Preserved checks p s) s := by
  rw [settlePendingUnlocked, wp_tryCatch]
  exact h.wp_settlePendingInner

theorem Preserved.trans {s'' : ConfigDisk} (h : Preserved checks p s s')
    (h' : Preserved checks p s' s'') : Preserved checks p s s'' := ⟨h'.1.trans h.1, h'.2⟩

theorem readOnly_validatedCurrentBytes : (validatedCurrentBytes checks).ReadOnly := by
  refine (readOnly_readFile _ _).bind fun bytes => ?_
  rcases bytes with _ | bytes
  · exact readOnly_throw _
  · exact (readOnly_validateDocument checks bytes).bind fun _ => readOnly_pure _

theorem readOnly_loadUnlocked : (loadUnlocked checks).ReadOnly :=
  (readOnly_readFile _ _).bind fun bytes =>
    (readOnly_validatePrevious checks bytes).bind fun _ => readOnly_pure _

theorem readOnly_verifyPendingIdentity (operationId : String) :
    (verifyPendingIdentity checks operationId).ReadOnly := by
  refine readOnly_read.bind fun disk => ?_
  split
  · exact readOnly_throw _
  · split
    · exact readOnly_throw _
    · exact readOnly_pure _

theorem Preserving.wp_load (h : Preserving checks p s) :
    (load checks).wp (fun _ => Preserved checks p s) (fun _ => Preserved checks p s)
      (Preserved checks p s) s := by
  rw [load, wp_bind]
  refine wp_imp (fun _ t ht => ?_)
    h.wp_settlePendingUnlocked
  exact readOnly_loadUnlocked.wp (fun _ => ht) (fun _ => ht) ht

theorem Preserving.wp_retryConfiguration (operationId : String) (h : Preserving checks p s) :
    (retryConfiguration checks operationId).wp (fun _ => Preserved checks p s)
      (fun _ => Preserved checks p s) (Preserved checks p s) s := by
  have hsame : Preserved checks p s s := ⟨rfl, h⟩
  rw [retryConfiguration, wp_bind]
  exact (readOnly_verifyPendingIdentity operationId).wp (fun _ => h.wp_settlePendingUnlocked)
    (fun _ => hsame) hsame

theorem Preserving.wp_renewDecision (current : Bytes) (h : Preserving checks p s) :
    (renewDecision checks current).wp (fun _ => Preserved checks p s)
      (fun _ => Preserved checks p s) (Preserved checks p s) s := by
  have hsame : Preserved checks p s s := ⟨rfl, h⟩
  rw [renewDecision, wp_bind, wp_read]
  split
  · exact hsame
  next decision hpreserve =>
  have hrenewed : Preserved checks p s
      { s with preserve := some { decision with currentId := checks.bytesId current } } := by
    refine ⟨rfl, ?_, h.record, h.outer, h.free⟩
    cases h.stage with
    | decided decision' hpending hpreserve' hid =>
      rw [hpreserve] at hpreserve'
      rw [← Option.some.inj hpreserve'] at hid
      exact .decided _ hpending rfl hid
    | archived hpending harchive => exact .archived hpending harchive
  rw [wp_durable]
  exact ⟨hsame, hrenewed, hrenewed, hsame, hrenewed⟩

theorem Preserving.wp_preserveCurrentConfiguration (operationId : String)
    (h : Preserving checks p s) :
    (preserveCurrentConfiguration checks operationId).wp (fun _ => Preserved checks p s)
      (fun _ => Preserved checks p s) (Preserved checks p s) s := by
  have hsame : Preserved checks p s s := ⟨rfl, h⟩
  rw [preserveCurrentConfiguration, wp_bind]
  refine wp_outerPreservesCurrent (fun _ _ => ?_) fun _ => hsame
  rw [wp_bind]
  refine (readOnly_verifyPendingIdentity operationId).wp (fun _ => ?_) (fun _ => hsame) hsame
  rw [wp_bind]
  refine wp_validatedCurrentBytes (fun current _ => ?_) (fun _ => hsame) hsame
  rw [wp_bind]
  refine wp_imp (fun _ t ht => ?_)
    (h.wp_renewDecision current)
  exact wp_mono (fun _ _ => ht.trans) (fun _ _ => ht.trans) (fun _ => ht.trans)
    ht.2.wp_preservePendingInner

/-! ## 4. Progress -/

theorem returns_validateDocument {bytes : Bytes} {Q : Unit → ConfigDisk → Prop}
    (hvalid : checks.validateDocument bytes = .ok ()) (hQ : Q () s) :
    (validateDocument checks bytes).returns Q s := by
  rw [validateDocument, returns_bind, returns_attempt, returns_ofExcept]
  exact ⟨(), hvalid, hQ⟩

theorem returns_readFile {file : ConfigDisk → Option Bytes} {bytes : Bytes}
    {Q : Option Bytes → ConfigDisk → Prop} (hfile : file s = some bytes)
    (hlength : bytes.length ≤ LIMIT) (hQ : Q (some bytes) s) :
    (readFile file LIMIT).returns Q s := by
  rw [readFile, returns_bind, returns_read, returns_ofExcept, hfile,
    readRegularFileBounded, if_neg (by omega)]
  exact ⟨_, rfl, hQ⟩

theorem returns_validatedCurrentBytes {current : Bytes} {Q : Bytes → ConfigDisk → Prop}
    (hconfig : s.config = some current) (hvalid : ValidDocument checks current)
    (hQ : Q current s) : (validatedCurrentBytes checks).returns Q s := by
  rw [validatedCurrentBytes, returns_bind]
  refine returns_readFile hconfig hvalid.1 ?_
  show (validateDocument checks current >>= _).returns Q s
  rw [returns_bind]
  exact returns_validateDocument hvalid.2 hQ

theorem returns_outerPreservesCurrent {Q : Bool → ConfigDisk → Prop}
    (houter : OuterReadable checks s) (hQ : ∀ preserves, Q preserves s) :
    (outerPreservesCurrent checks).returns Q s := by
  rw [outerPreservesCurrent, returns_bind, returns_read]
  cases hbytes : s.outerPublication with
  | none => exact hQ false
  | some bytes =>
    obtain ⟨preserves, hok⟩ := houter bytes hbytes
    rw [returns_ofExcept]
    exact ⟨preserves, hok, hQ preserves⟩

theorem returns_validatePendingConfigs {Q : Unit → ConfigDisk → Prop}
    (hrecord : ValidRecord checks p) (hQ : Q () s) :
    (validatePendingConfigs checks p).returns Q s := by
  rw [validatePendingConfigs, if_neg (not_not.mpr hrecord.schema)]
  refine returns_mono ?_ (returns_checks (t := s) fun bytes hbytes => ?_)
  · rintro _ t rfl
    exact hQ
  · obtain ⟨hlength, hvalid⟩ := hrecord.documents bytes hbytes
    rw [if_neg (by omega)]
    exact returns_validateDocument hvalid rfl

/-- The preservation is over: neither a record nor a decision is left. -/
def PreservationEnded (disk : ConfigDisk) : Prop := disk.pending = none ∧ disk.preserve = none

theorem Preserving.returns_preservePendingInner {current : Bytes} {decision : PreserveDecision}
    (h : Preserving checks p s) (hconfig : s.config = some current)
    (hvalid : ValidDocument checks current) (hpreserve : s.preserve = some decision)
    (hcurrent : decision.currentId = checks.bytesId current) :
    (preservePendingInner checks).returns (fun _ s' => PreservationEnded s') s := by
  rw [preservePendingInner, returns_bind]
  refine returns_outerPreservesCurrent h.outer fun _ => ?_
  rw [returns_bind]
  refine returns_validatedCurrentBytes hconfig hvalid ?_
  rw [returns_bind, returns_read]
  cases h.stage with
  | archived hpending harchive =>
    rw [hpending, hpreserve]
    dsimp only
    rw [if_neg (not_not.mpr hcurrent)]
    exact ⟨hpending, rfl⟩
  | decided decision' hpending hpreserve' hid =>
    rw [hpreserve] at hpreserve'
    rw [← Option.some.inj hpreserve'] at hid
    -- the two removals, in a state whose pair is the one that was read
    have hlast : ∀ archives, (do
        let again ← validatedCurrentBytes checks
        let disk ← Program.read
        if again ≠ current ∨ disk.pending ≠ some p then
          throw (invalidData "Configuration changed during recovery")
        else do
          removePending
          removePreserve : ConfigProgram Unit).returns (fun _ s' => PreservationEnded s')
            { s with archives := archives } := by
      intro archives
      rw [returns_bind]
      refine returns_validatedCurrentBytes hconfig hvalid ?_
      rw [returns_bind, returns_read, if_neg]
      · exact ⟨rfl, rfl⟩
      · rw [not_or, not_not, not_not]
        exact ⟨rfl, hpending⟩
    rw [hpending, hpreserve]
    dsimp only
    rw [returns_bind]
    refine returns_validatePendingConfigs h.record ?_
    rw [if_neg (by rw [not_or, not_not, not_not]; exact ⟨hid, hcurrent⟩), returns_bind,
      returns_pure, returns_bind, archivePending, returns_bind,
      returns_read, hid]
    cases hlookup : s.archives.lookup (checks.recordId p) with
    | none => exact hlast _
    | some existing =>
      dsimp only
      rw [if_neg (not_not.mpr (h.free existing hlookup))]
      exact hlast s.archives

/-- **Progress**: while the configuration is valid, the call with the id of the pending operation
ends the preservation. -/
theorem Preserving.returns_preserveCurrentConfiguration {current : Bytes} {operationId : String}
    (h : Preserving checks p s) (hconfig : s.config = some current)
    (hvalid : ValidDocument checks current)
    (hoperation : pendingOperation checks s = some operationId) :
    (preserveCurrentConfiguration checks operationId).returns (fun _ s' => PreservationEnded s')
      s := by
  rw [preserveCurrentConfiguration, returns_bind]
  refine returns_outerPreservesCurrent h.outer fun _ => ?_
  rw [returns_bind, verifyPendingIdentity, returns_bind, returns_read,
    hoperation]
  dsimp only
  rw [if_neg (not_not.mpr rfl), returns_pure, returns_bind]
  refine returns_validatedCurrentBytes hconfig hvalid ?_
  have hdecision : ∃ decision, s.preserve = some decision := by
    cases h.stage with
    | decided decision _ hpreserve _ => exact ⟨decision, hpreserve⟩
    | archived hpending _ =>
      rw [pendingOperation, hpending] at hoperation
      cases hpreserve : s.preserve with
      | none => rw [hpreserve] at hoperation; cases hoperation
      | some decision => exact ⟨decision, rfl⟩
  obtain ⟨decision, hpreserve⟩ := hdecision
  have hrenew : (renewDecision checks current).returns (fun _ t => t = { s with
      preserve := some { decision with currentId := checks.bytesId current } }) s := by
    rw [renewDecision, returns_bind, returns_read, hpreserve]
    exact rfl
  rw [returns_bind]
  refine returns_mono ?_ (returns_and_of_wp hrenew (h.wp_renewDecision current))
  rintro _ t ⟨rfl, -, ht⟩
  exact ht.returns_preservePendingInner hconfig hvalid rfl rfl

theorem run_pendingConfigurationStatus {current : Bytes} (hconfig : s.config = some current)
    (hvalid : ValidDocument checks current) :
    (pendingConfigurationStatus checks).run [] s =
      (.ok ((pendingOperation checks s).map fun id => (id, true)), s) := by
  have hreturns : (pendingConfigurationStatus checks).returns (fun status t =>
      status = (pendingOperation checks s).map (fun id => (id, true)) ∧ t = s) s := by
    rw [pendingConfigurationStatus, returns_bind, returns_read]
    cases pendingOperation checks s with
    | none => exact ⟨rfl, rfl⟩
    | some id =>
      dsimp only
      rw [returns_bind, Program.toExcept]
      refine returns_tryCatch ?_
      rw [returns_map]
      exact returns_validatedCurrentBytes hconfig hvalid ⟨rfl, rfl⟩
  obtain ⟨status, t, hrun, rfl, rfl⟩ := (returns_iff_run _ _ _).mp hreturns
  exact hrun

/-! ## Runs -/

/-- What may happen after a preservation was cut. -/
inductive PreserveCall
  | load
  | retryConfiguration (operationId : String)
  | preserveCurrentConfiguration (operationId : String)
  /-- an edit of `config.json` from outside -/
  | editConfig (bytes : Option Bytes)
  deriving DecidableEq

def PreserveCall.program (checks : ConfigChecks) : PreserveCall → ConfigProgram Unit
  | load => (fun _ => ()) <$> ConfigStore.load checks
  | retryConfiguration operationId => ConfigStore.retryConfiguration checks operationId
  | preserveCurrentConfiguration operationId =>
      ConfigStore.preserveCurrentConfiguration checks operationId
  | editConfig bytes =>
      Program.durable fileOperationFailed fun disk => { disk with config := bytes }

theorem Preserving.editConfig (h : Preserving checks p s) (bytes : Option Bytes) :
    Preserving checks p { s with config := bytes } := by
  refine ⟨?_, h.record, h.outer, h.free⟩
  cases h.stage with
  | decided decision hpending hpreserve hid => exact .decided decision hpending hpreserve hid
  | archived hpending harchive => exact .archived hpending harchive

theorem Preserving.wp_call (call : PreserveCall) (h : Preserving checks p s) :
    (call.program checks).wp (fun _ => Preserving checks p) (fun _ => Preserving checks p)
      (Preserving checks p) s := by
  have hkeep : ∀ t, Preserved checks p s t → Preserving checks p t := fun _ ht => ht.2
  cases call with
  | load =>
    exact (wp_map _ _).mpr
      (wp_mono (fun _ => hkeep) (fun _ => hkeep) hkeep h.wp_load)
  | retryConfiguration operationId =>
    exact wp_mono (fun _ => hkeep) (fun _ => hkeep) hkeep
      (h.wp_retryConfiguration operationId)
  | preserveCurrentConfiguration operationId =>
    exact wp_mono (fun _ => hkeep) (fun _ => hkeep) hkeep
      (h.wp_preserveCurrentConfiguration operationId)
  | editConfig bytes =>
    have hedited := h.editConfig bytes
    exact ⟨h, hedited, hedited, h, hedited⟩

theorem Preserving.pair_after (call : PreserveCall) (fs : List Fault)
    (h : Preserving checks p s) (hcall : ∀ bytes, call ≠ .editConfig bytes) :
    (Session.after (call.program checks) fs s).pair = s.pair := by
  have hkeep : ∀ t : ConfigDisk, Preserved checks p s t → t.pair = s.pair := fun _ ht => ht.1
  refine Session.after_of_wp (I := fun t : ConfigDisk => t.pair = s.pair) fs ?_
  cases call with
  | load =>
    exact (wp_map _ _).mpr
      (wp_mono (fun _ => hkeep) (fun _ => hkeep) hkeep h.wp_load)
  | retryConfiguration operationId =>
    exact wp_mono (fun _ => hkeep) (fun _ => hkeep) hkeep
      (h.wp_retryConfiguration operationId)
  | preserveCurrentConfiguration operationId =>
    exact wp_mono (fun _ => hkeep) (fun _ => hkeep) hkeep
      (h.wp_preserveCurrentConfiguration operationId)
  | editConfig bytes => exact absurd rfl (hcall bytes)

/-- **Preserving a pending configuration loses nothing.**  After a preservation that was cut
behind its first write, and after every sequence of calls and outside edits of `config.json`, no
call changes the pair, the record is there or is archived, and a call with the id that the status
reports ends the preservation while the configuration is valid. -/
theorem preserve_loses_nothing (checks : ConfigChecks) (p : Pending) (disk : ConfigDisk)
    (hpending : disk.pending = some p)
    (hfree : ∀ existing, disk.archives.lookup (checks.recordId p) = some existing → existing = p)
    (fs : List Fault) (hwritten : Session.after (preservePendingInner checks) fs disk ≠ disk)
    (calls : List (PreserveCall × List Fault)) :
    let start := Session.after (preservePendingInner checks) fs disk
    let s := Session.finalState (PreserveCall.program checks) calls start
    start.pair = disk.pair ∧
    (∀ (call : PreserveCall) cfs, (∀ bytes, call ≠ .editConfig bytes) →
      (Session.after (call.program checks) cfs s).pair = s.pair) ∧
    (∀ bytes cfs, (Session.after (PreserveCall.program checks (.editConfig bytes)) cfs s).previous =
      s.previous) ∧
    (s.pending = some p ∨
      s.pending = none ∧ s.archives.lookup (checks.recordId p) = some p) ∧
    ∀ current, s.config = some current → current.length ≤ LIMIT →
      checks.validateDocument current = .ok () →
      ((pendingConfigurationStatus checks).run [] s = (.ok none, s) ∧
          s.pending = none ∧ s.preserve = none) ∨
        ∃ operationId s', (pendingConfigurationStatus checks).run [] s =
            (.ok (some (operationId, true)), s) ∧
          (preserveCurrentConfiguration checks operationId).run [] s = (.ok (), s') ∧
          s'.pending = none ∧ s'.preserve = none := by
  intro start s
  have hstart : Preserved checks p disk start := by
    have hcut := Session.after_of_wp (I := fun t => t = disk ∨ Preserved checks p disk t) fs
      (wp_imp (fun _ _ h => Or.inr h)
        (wp_preservePendingInner hpending hfree))
    exact hcut.resolve_left hwritten
  have hs : Preserving checks p s :=
    Session.finalState_preserves (fun call t ht => Preserving.wp_call call ht) calls start hstart.2
  refine ⟨hstart.1, fun call cfs hcall => hs.pair_after call cfs hcall, fun bytes cfs => ?_,
    hs.stage.kept, fun current hconfig hlength hvalid => ?_⟩
  · exact Session.after_of_wp (I := fun t : ConfigDisk => t.previous = s.previous) cfs
      ⟨rfl, rfl, rfl, rfl, rfl⟩
  · have hstatus := run_pendingConfigurationStatus hconfig ⟨hlength, hvalid⟩
    cases hoperation : pendingOperation checks s with
    | none =>
      rw [hoperation] at hstatus
      refine Or.inl ⟨hstatus, ?_⟩
      rw [pendingOperation] at hoperation
      split at hoperation
      · cases hoperation
      · next hnone => exact ⟨hnone, Option.map_eq_none_iff.mp hoperation⟩
    | some operationId =>
      rw [hoperation] at hstatus
      obtain ⟨_, s', hrun, hended⟩ := (returns_iff_run _ _ _).mp
        (hs.returns_preserveCurrentConfiguration hconfig ⟨hlength, hvalid⟩ hoperation)
      exact Or.inr ⟨operationId, s', hstatus, hrun, hended⟩

/-- The size of a document as its identity. -/
def sizeChecks : ConfigChecks := { acceptingChecks with bytesId := fun bytes => toString bytes.length }

/-- A preservation that stops behind its decision, and an outside edit after it: the next load
fails, and the call with the reported id ends the preservation. -/
theorem preserve_loses_nothing_after_edit :
    let disk : ConfigDisk := { plainDisk (some [9]) (some [1]) with
      pending := some (preparedRecord [2] true none (some [1]) none) }
    let start := Session.after (preservePendingInner sizeChecks)
      [.none, .none, .none, .none, .crashBefore] disk
    let s := Session.finalState (PreserveCall.program sizeChecks)
      [(.editConfig (some [7, 7]), []), (.load, [])] start
    s.pair = (some [7, 7], some [1]) ∧ s.pending.isSome = true ∧
      ∃ operationId s', (preserveCurrentConfiguration sizeChecks operationId).run [] s =
        (.ok (), s') ∧ s'.pending = none ∧ s'.preserve = none := by
  intro disk start s
  have hmain := preserve_loses_nothing sizeChecks
    (preparedRecord [2] true none (some [1]) none) disk rfl
    (fun existing hexisting => by cases hexisting)
    [.none, .none, .none, .none, .crashBefore] (by decide +kernel)
    [(.editConfig (some [7, 7]), []), (.load, [])]
  refine ⟨by decide +kernel, by decide +kernel, ?_⟩
  rcases hmain.2.2.2.2 [7, 7] (by decide +kernel) (by decide) rfl with ⟨-, hnone, -⟩ | hcall
  · exact absurd hnone (by decide +kernel)
  · obtain ⟨operationId, s', -, hrun⟩ := hcall
    exact ⟨operationId, s', hrun⟩

end ConfigStore

end DshNexus.Config
