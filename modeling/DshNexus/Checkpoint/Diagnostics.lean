import DshNexus.Checkpoint.Session

/-!
# The diagnostic of a pending checkpoint restore

`bounded_checkpoint_diagnostic` and `pending_content_restore` of
`crates/nexus-agent/src/checkpoint_api.rs`, `recover_checkpoint_restore_startup` of
`crates/nexus-agent/src/lib.rs`, and `record_error` of `crates/nexus-core/src/lib.rs`.  A restore
that stays pending writes down why.  The journal takes a text of at most 4096 bytes without
control characters; a restore cuts its text at 4096 characters, and the recovery at the start of
the Agent hands it over as it is.

* `IsRecordable`: what the journal takes.
* `isRecordable_boundedCheckpointDiagnostic_iff`, `isRecordable_startupDiagnostic_iff`: which
  errors the two calls turn into such a text.
* `error_recorded_iff`: the two calls record an error exactly then.
-/

namespace DshNexus.Checkpoint

open Durable Program Release Snapshot

/-! ## Texts -/

/-- The check of `record_error`. -/
def IsRecordable (diagnostic : String) : Prop :=
  ¬(diagnostic.isEmpty = true ∨ diagnostic.utf8ByteSize > 4096 ∨
    diagnostic.toList.any isControl = true)

/-- What stands in front of an error of the recovery at the start. -/
def startupPrefix : String := "startup checkpoint restore recovery remains pending: "

/-- The diagnostic of `recover_checkpoint_restore_startup`. -/
def startupDiagnostic (error : IoError) : String := startupPrefix ++ error.message

/-- The size of a text whose control characters are blanks. -/
def blankedSize (text : List Char) : Nat :=
  (text.map fun c => if isControl c then 1 else c.utf8Size).sum

section Texts

theorem utf8ByteSize_eq_sum (text : List Char) :
    (String.ofList text).utf8ByteSize = (text.map Char.utf8Size).sum := by
  rw [String.utf8ByteSize_ofList]
  induction text with
  | nil => rfl
  | cons c text ih =>
    rw [String.utf8Len, ih, List.map_cons, List.sum_cons]
    omega

theorem not_any_isControl_blanked (text : List Char) :
    (text.map fun c => if isControl c then ' ' else c).any isControl = false := by
  rw [List.any_eq_false]
  intro c hc
  obtain ⟨c', -, rfl⟩ := List.mem_map.mp hc
  by_cases hcontrol : isControl c' = true
  · rw [if_pos hcontrol]
    decide
  · rwa [if_neg hcontrol]

theorem utf8ByteSize_blanked (text : List Char) :
    (String.ofList (text.map fun c => if isControl c then ' ' else c)).utf8ByteSize =
      blankedSize text := by
  rw [utf8ByteSize_eq_sum, List.map_map, blankedSize]
  congr 1
  refine List.map_congr_left fun c _ => ?_
  show (if isControl c = true then ' ' else c).utf8Size = _
  split <;> rfl

/-- **A bounded diagnostic is recordable** if and only if its at most 4096 characters are at most
4096 bytes. -/
theorem isRecordable_boundedCheckpointDiagnostic_iff (error : IoError) :
    IsRecordable (boundedCheckpointDiagnostic error) ↔
      blankedSize (error.message.toList.take 4096) ≤ 4096 := by
  have hcontrol := not_any_isControl_blanked (error.message.toList.take 4096)
  have hsize := utf8ByteSize_blanked (error.message.toList.take 4096)
  rw [List.map_take] at hcontrol hsize
  unfold boundedCheckpointDiagnostic
  dsimp only
  split
  · next hempty =>
    rw [String.isEmpty_iff] at hempty
    rw [hempty] at hsize
    have hzero : blankedSize (error.message.toList.take 4096) = 0 := by
      rw [← hsize]
      rfl
    constructor
    · intro _
      omega
    · intro _
      unfold IsRecordable
      decide +kernel
  · next hempty =>
    unfold IsRecordable
    rw [hsize, String.toList_ofList, hcontrol]
    simp only [hempty, false_or, or_false, Bool.false_eq_true, not_lt, gt_iff_lt]

/-- **The diagnostic of the start is recordable** if and only if the error has no control
character and is short enough. -/
theorem isRecordable_startupDiagnostic_iff (error : IoError) :
    IsRecordable (startupDiagnostic error) ↔
      error.message.utf8ByteSize ≤ 4043 ∧ error.message.toList.any isControl = false := by
  have hsize : (startupDiagnostic error).utf8ByteSize = 53 + error.message.utf8ByteSize := by
    have hprefix : startupPrefix.utf8ByteSize = 53 := by decide +kernel
    rw [startupDiagnostic, String.utf8ByteSize_append, hprefix]
  have hcontrol : (startupDiagnostic error).toList.any isControl =
      error.message.toList.any isControl := by
    have hprefix : startupPrefix.toList.any isControl = false := by decide +kernel
    rw [startupDiagnostic, String.toList_append, List.any_append, hprefix, Bool.false_or]
  have hne : (startupDiagnostic error).isEmpty = false := by
    rw [Bool.eq_false_iff, ne_eq, String.isEmpty_iff]
    intro hempty
    rw [hempty, String.utf8ByteSize_empty] at hsize
    omega
  unfold IsRecordable
  rw [hne, hsize, hcontrol]
  simp only [Bool.false_eq_true, false_or, not_or, Bool.not_eq_true, gt_iff_lt, not_lt]
  constructor
  · rintro ⟨hle, hfree⟩
    exact ⟨by omega, hfree⟩
  · rintro ⟨hle, hfree⟩
    exact ⟨by omega, hfree⟩

end Texts

/-! ## Recording -/

section Recording

variable {δ : Type} (env : CheckpointEnvironment δ)

section Startup

variable [DecidableEq δ]

/-- What `recover_checkpoint_restore_startup` does with the error of the recovery. -/
def recordStartupError (journal : CheckpointRestoreJournal δ) (error : IoError) :
    CheckpointProgram δ Unit :=
  Program.ignoreError (recordError env journal.phase journal.intent (startupDiagnostic error))

end Startup

/-- The diagnostic is in the journal: it is one that the journal takes, the journal loads with it
and is as before otherwise, and the pending restore shows it with its choices. -/
structure Recorded (journal : CheckpointRestoreJournal δ) (diagnostic : String)
    (disk : CheckpointDisk δ) : Prop where
  recordable : IsRecordable diagnostic
  loads : readJournal env disk = .ok (some { journal with error := some diagnostic })
  visible : ∀ binding ∈ journal.intent.snapshot, ∀ outcome, ∃ status,
    restoreStatus { journal with error := some diagnostic } outcome = some status ∧
      status.error = some diagnostic ∧ status.retryable = true ∧
      (status.abortable = true ↔ journal.phase = .prepared)

variable {env} {disk : CheckpointDisk δ} {journal : CheckpointRestoreJournal δ}

theorem readJournal_setError (hload : readJournal env disk = .ok (some journal))
    (diagnostic : String) :
    readJournal env { disk with journal := some { journal with error := some diagnostic } } =
      .ok (some { journal with error := some diagnostic }) := by
  unfold readJournal at hload ⊢
  split at hload
  · cases hload
  · next entry hentry =>
    split at hload
    · cases hload
    · next hschema =>
      obtain ⟨_, hvalid, hjournal⟩ := bind_eq_ok hload
      obtain rfl := Option.some.inj (Except.ok.inj hjournal)
      dsimp only
      rw [if_neg hschema, hvalid]
      rfl

/-- The disk with another diagnostic in its journal. -/
def withDiagnostic (disk : CheckpointDisk δ) (journal : CheckpointRestoreJournal δ)
    (diagnostic : String) : CheckpointDisk δ :=
  { disk with journal := some { journal with error := some diagnostic } }

theorem recorded_withDiagnostic (hload : readJournal env disk = .ok (some journal))
    {diagnostic : String} (hdiagnostic : IsRecordable diagnostic) :
    Recorded env journal diagnostic (withDiagnostic disk journal diagnostic) where
  recordable := hdiagnostic
  loads := readJournal_setError hload diagnostic
  visible := by
    intro binding hbinding outcome
    rw [restoreStatus, Option.mem_def.mp hbinding]
    exact ⟨_, rfl, rfl, rfl, by simp⟩

variable [DecidableEq δ]

theorem returns_recordError (hload : readJournal env disk = .ok (some journal))
    {diagnostic : String} (hdiagnostic : IsRecordable diagnostic) :
    (recordError env journal.phase journal.intent diagnostic).returns
      (fun _ after => after = withDiagnostic disk journal diagnostic) disk := by
  rw [recordError, returns_bind, loadJournal, returns_inspect]
  refine ⟨some journal, hload, ?_⟩
  dsimp only
  rw [if_neg (by simp), if_neg hdiagnostic]
  rfl

theorem settles_recordError (hload : readJournal env disk = .ok (some journal))
    {diagnostic : String} (hdiagnostic : ¬IsRecordable diagnostic) :
    (recordError env journal.phase journal.intent diagnostic).settles
      (fun _ _ => False) (fun _ after => after = disk) disk := by
  rw [recordError, settles_bind, loadJournal]
  show Program.settles (Program.ofExcept (readJournal env disk)) _ _ _
  rw [settles_ofExcept, hload]
  refine ⟨fun read hread => ?_, fun _ herror => by cases herror⟩
  rw [← Except.ok.inj hread]
  dsimp only
  rw [if_neg (by simp), if_pos (not_not.mp hdiagnostic)]
  rfl

theorem settles_pendingContentRestore (hload : readJournal env disk = .ok (some journal))
    {error : IoError} (hdiagnostic : ¬IsRecordable (boundedCheckpointDiagnostic error))
    (outcome : Option RestoreOutcome) :
    (pendingContentRestore env journal.intent error outcome).settles
      (fun _ _ => False) (fun _ after => after = disk) disk := by
  rw [pendingContentRestore, settles_bind, loadJournal]
  show Program.settles (Program.ofExcept (readJournal env disk)) _ _ _
  rw [settles_ofExcept, hload]
  refine ⟨fun read hread => ?_, fun _ herror => by cases herror⟩
  rw [← Except.ok.inj hread]
  dsimp only
  rw [settles_bind]
  exact settles_imp (fun _ _ h => h.elim)
    (settles_recordError hload hdiagnostic)

theorem returns_recordStartupError (hload : readJournal env disk = .ok (some journal))
    {error : IoError} (hdiagnostic : ¬IsRecordable (startupDiagnostic error)) :
    (recordStartupError env journal error).returns (fun _ after => after = disk) disk := by
  rw [recordStartupError, returns_ignoreError]
  exact settles_imp (fun _ _ h => h.elim)
    (settles_recordError hload hdiagnostic)

/-- **A pending restore records its error**, and shows itself with it, if and only if the
diagnostic is recordable. -/
theorem returns_pendingContentRestore_iff (hload : readJournal env disk = .ok (some journal))
    (error : IoError) (outcome : Option RestoreOutcome) :
    (pendingContentRestore env journal.intent error outcome).returns (fun status after =>
        Recorded env journal (boundedCheckpointDiagnostic error) after ∧
        status = restoreStatus
          { journal with error := some (boundedCheckpointDiagnostic error) } outcome) disk ↔
      IsRecordable (boundedCheckpointDiagnostic error) := by
  constructor
  · intro h
    obtain ⟨_, _, _, hrecorded, _⟩ := (returns_iff_run _ _ _).mp h
    exact hrecorded.recordable
  · intro hdiagnostic
    have hrecorded := recorded_withDiagnostic hload hdiagnostic
    rw [pendingContentRestore, returns_bind, loadJournal, returns_inspect]
    refine ⟨some journal, hload, ?_⟩
    dsimp only
    rw [returns_bind]
    refine returns_mono ?_ (returns_recordError hload hdiagnostic)
    rintro _ _ rfl
    rw [returns_bind, returns_inspect]
    exact ⟨_, hrecorded.loads, hrecorded, rfl⟩

/-- **The recovery at the start records its error** if and only if the diagnostic is
recordable. -/
theorem returns_recordStartupError_iff (hload : readJournal env disk = .ok (some journal))
    (error : IoError) :
    (recordStartupError env journal error).returns
        (fun _ after => Recorded env journal (startupDiagnostic error) after) disk ↔
      IsRecordable (startupDiagnostic error) := by
  constructor
  · intro h
    obtain ⟨_, _, _, hrecorded⟩ := (returns_iff_run _ _ _).mp h
    exact hrecorded.recordable
  · intro hdiagnostic
    refine returns_tryCatch (returns_mono ?_
      (returns_recordError hload hdiagnostic))
    rintro _ _ rfl
    exact recorded_withDiagnostic hload hdiagnostic

/-- **Which errors are recorded.**  An error of a restore is recorded, and the restore shows
itself with it, if and only if its first 4096 characters, the control characters as blanks, are at
most 4096 bytes; an error of the recovery at the start, if and only if it has at most 4043 bytes
and no control character. -/
theorem error_recorded_iff (env : CheckpointEnvironment δ) (disk : CheckpointDisk δ)
    (journal : CheckpointRestoreJournal δ) (error : IoError) (outcome : Option RestoreOutcome)
    (hload : readJournal env disk = .ok (some journal)) :
    ((pendingContentRestore env journal.intent error outcome).returns (fun status after =>
        Recorded env journal (boundedCheckpointDiagnostic error) after ∧
        status = restoreStatus
          { journal with error := some (boundedCheckpointDiagnostic error) } outcome) disk ↔
      blankedSize (error.message.toList.take 4096) ≤ 4096) ∧
    ((recordStartupError env journal error).returns
        (fun _ after => Recorded env journal (startupDiagnostic error) after) disk ↔
      error.message.utf8ByteSize ≤ 4043 ∧ error.message.toList.any isControl = false) := by
  rw [returns_pendingContentRestore_iff hload, returns_recordStartupError_iff hload,
    isRecordable_boundedCheckpointDiagnostic_iff, isRecordable_startupDiagnostic_iff]
  exact ⟨Iff.rfl, Iff.rfl⟩

end Recording

/-! ## A restore of two files that stays pending -/

def pendingJournal : CheckpointRestoreJournal Bytes :=
  ⟨1, 1, .prepared,
    { twoFilesIntent with
      snapshot := some (bindingFor twoFilesInstallation
        ⟨1, "restore-1", "manual-1", [], "default", 0, false⟩) }, none⟩

def pendingDisk : CheckpointDisk Bytes := { firstInstallation with journal := some pendingJournal }

theorem readJournal_pendingDisk :
    readJournal twoFilesInstallation pendingDisk = .ok (some pendingJournal) := by
  decide +kernel

theorem error_recorded_short :
    (recordStartupError twoFilesInstallation pendingJournal
        ⟨.other, "unsafe filesystem path"⟩).returns
      (fun _ after => Recorded twoFilesInstallation pendingJournal
        (startupDiagnostic ⟨.other, "unsafe filesystem path"⟩) after) pendingDisk :=
  (error_recorded_iff twoFilesInstallation pendingDisk pendingJournal
    ⟨.other, "unsafe filesystem path"⟩ none readJournal_pendingDisk).2.mpr (by decide +kernel)

theorem not_isRecordable_replicate {n : Nat} {c : Char} (hn : n ≤ 4096)
    (hcontrol : isControl c = false) (hsize : 4096 < n * c.utf8Size) :
    ¬IsRecordable (boundedCheckpointDiagnostic ⟨.other, String.ofList (List.replicate n c)⟩) := by
  rw [isRecordable_boundedCheckpointDiagnostic_iff, String.toList_ofList,
    List.take_of_length_le (by rwa [List.length_replicate]), blankedSize, List.map_replicate,
    List.sum_replicate, smul_eq_mul, hcontrol]
  exact not_le.mpr hsize

theorem not_isRecordable_long :
    ¬IsRecordable (boundedCheckpointDiagnostic
      ⟨.other, String.ofList (List.replicate 2049 'é')⟩) :=
  not_isRecordable_replicate (by omega) (by decide) (by decide +kernel)

theorem not_isRecordable_lines :
    ¬IsRecordable (startupDiagnostic ⟨.other, "first\nsecond"⟩) := by
  rw [isRecordable_startupDiagnostic_iff]
  decide +kernel

/-- **Two errors that are not recorded**: one of 4098 bytes, with which the restore itself fails,
and one with a line break at the start of the Agent, which leaves no trace. -/
theorem errors_not_recorded :
    (pendingContentRestore twoFilesInstallation pendingJournal.intent
        ⟨.other, String.ofList (List.replicate 2049 'é')⟩ none).settles
      (fun _ _ => False) (fun _ after => after = pendingDisk) pendingDisk ∧
    (recordStartupError twoFilesInstallation pendingJournal ⟨.other, "first\nsecond"⟩).returns
      (fun _ after => after = pendingDisk) pendingDisk := by
  refine ⟨?_, ?_⟩
  · exact @settles_pendingContentRestore Bytes twoFilesInstallation pendingDisk pendingJournal _
      readJournal_pendingDisk _ not_isRecordable_long none
  · apply returns_recordStartupError
    · exact readJournal_pendingDisk
    · exact not_isRecordable_lines

end DshNexus.Checkpoint
