import DshNexus.Agent.ProfileRepair

/-!
# What profile repair keeps

A session is a list of starts and commands, each with the faults it meets, and of changes of the
profiles by somebody else.

1. `wp_backup`: a backup adds one record and nothing else.
2. `Since`: what a call may do to the records (`since_repairCall`).
3. `wp_controlProfile`: a command leaves the files alone, or has recorded what it replaces.
4. `Sound` disks: `readBackups_eq_ok`, `exists_inspectProfile`, and `newest_of_inspectProfile`.
5. `returns_controlProfile`: a planned change of a readable profile succeeds.
6. `profile_repair_keeps_versions`.
-/

namespace DshNexus.Agent.ProfileRepair

open Document Snapshot Durable Program Plugins Config

/-! ## 1. A backup -/

def madeRecord (env : RepairEnv) (t : Target) (file : String) (content : Option String)
    (stamp : Stamp) : Backup :=
  ⟨env.dataRootId, t.profile, t.home.path, file, content, stamp.created⟩

/-- The same files, directories and records. -/
structure Quiet (s s' : RepairDisk) : Prop where
  files : s'.files = s.files
  directory : s'.directory = s.directory
  record : s'.record = s.record

theorem Quiet.refl (s : RepairDisk) : Quiet s s := ⟨rfl, rfl, rfl⟩

/-- The same files and directories, and one record more. -/
structure Recorded (env : RepairEnv) (t : Target) (file : String) (content : Option String)
    (stamp : Stamp) (s s' : RepairDisk) : Prop where
  files : s'.files = s.files
  directory : s'.directory = s.directory
  record : s'.record =
    Function.update s.record stamp.id (some (madeRecord env t file content stamp))
  valid : RecordOf env t (madeRecord env t file content stamp)

section Backup

variable {env : RepairEnv} {t : Target} {file : String} {content : Option String} {stamp : Stamp}
  {s : RepairDisk}

theorem quiet_makeHistory (s : RepairDisk) : Quiet s s.makeHistory :=
  ⟨rfl, rfl, s.record_makeHistory⟩

theorem makeHistory_of_isSome (h : s.history.isSome = true) : s.makeHistory = s := by
  obtain ⟨history, hhistory⟩ := Option.isSome_iff_exists.mp h
  unfold RepairDisk.makeHistory
  rw [hhistory, Option.getD_some, ← hhistory]

variable (env stamp s) in
theorem recorded_putRecord (hnamed : Checkpoint.validateProfileName t.profile = .ok ())
    (hfile : file ∈ FILES)
    (hcontent : ∀ text, content = some text → text.utf8ByteSize ≤ RECOVERY_LIMIT) :
    Recorded env t file content stamp s
      (s.makeHistory.putRecord stamp.id (madeRecord env t file content stamp)) where
  files := rfl
  directory := rfl
  record := by
    funext id
    rw [RepairDisk.record_putRecord_makeHistory, Function.update_apply]
  valid := ⟨rfl, rfl, hnamed, rfl, hfile, hcontent⟩

theorem backup_allowed : ¬ (file ∉ FILES ∨
    content.any (fun text => text.utf8ByteSize > RECOVERY_LIMIT) = true) ↔
      file ∈ FILES ∧ ∀ text, content = some text → text.utf8ByteSize ≤ RECOVERY_LIMIT := by
  rw [not_or, not_not, Bool.not_eq_true]
  refine and_congr_right fun _ => ?_
  cases content with
  | none => simp
  | some text => simp

/-- **A backup, wherever it is cut**, adds one record and nothing else. -/
theorem wp_backup (hnamed : Checkpoint.validateProfileName t.profile = .ok ()) :
    (backup env t file content stamp).wp
      (fun id s' => id = stamp.id ∧ Recorded env t file content stamp s s')
      (fun _ s' => Quiet s s' ∨ Recorded env t file content stamp s s')
      (fun s' => Quiet s s' ∨ Recorded env t file content stamp s s') s := by
  have hsame : Quiet s s ∨ Recorded env t file content stamp s s := Or.inl (Quiet.refl s)
  have hmade : Quiet s s.makeHistory ∨ Recorded env t file content stamp s s.makeHistory :=
    Or.inl (quiet_makeHistory s)
  unfold backup
  split
  · exact hsame
  · next hallowed =>
    obtain ⟨hfile, hcontent⟩ := backup_allowed.mp hallowed
    have hput := recorded_putRecord env stamp s hnamed hfile hcontent
    have hrest : (do
        Program.attempt fileOperationFailed
        Program.durable fileOperationFailed (RepairDisk.putRecord stamp.id
          ⟨env.dataRootId, t.profile, t.home.path, file, content, stamp.created⟩)
        pure stamp.id : Program RepairDisk IoError String).wp
        (fun id s' => id = stamp.id ∧ Recorded env t file content stamp s s')
        (fun _ s' => Quiet s s' ∨ Recorded env t file content stamp s s')
        (fun s' => Quiet s s' ∨ Recorded env t file content stamp s s') s.makeHistory := by
      rw [wp_bind, wp_attempt]
      refine ⟨hmade, ?_, hmade⟩
      rw [wp_bind, wp_durable]
      exact ⟨hmade, Or.inr hput, ⟨rfl, hput⟩, hmade, Or.inr hput⟩
    unfold ensureHistory
    rw [wp_bind, wp_bind, wp_read]
    split
    · next hhistory =>
      rw [makeHistory_of_isSome hhistory] at hrest
      exact hrest
    · rw [wp_durable]
      exact ⟨hsame, hmade, hrest, hsame, hmade⟩

theorem returns_backup (hnamed : Checkpoint.validateProfileName t.profile = .ok ())
    (hfile : file ∈ FILES)
    (hcontent : ∀ text, content = some text → text.utf8ByteSize ≤ RECOVERY_LIMIT) :
    (backup env t file content stamp).returns
      (fun _ s' => Recorded env t file content stamp s s') s := by
  have hput := recorded_putRecord env stamp s hnamed hfile hcontent
  unfold backup
  rw [if_neg (backup_allowed.mpr ⟨hfile, hcontent⟩)]
  unfold ensureHistory
  rw [returns_bind, returns_bind, returns_read]
  split
  · next hhistory =>
    rw [makeHistory_of_isSome hhistory] at hput
    exact hput
  · exact hput

end Backup

/-! ## 2. What a call does to the records -/

def RepairCall.ids : RepairCall → List String
  | .startup _ stamps => FILES.map fun file => (stamps file).id
  | .control _ _ stamp => [stamp.id]
  | .edit _ _ _ => []
  | .relocate _ _ => []

/-- **What has become of the records** since a disk whose files were read: they were there, or are
records of its files, and those with other ids stay. -/
structure Since (env : RepairEnv) (ids : List String) (s s' : RepairDisk) : Prop where
  origin : ∀ id r, s'.record id = some r → s.record id = some r ∨
    (id ∈ ids ∧ ∃ t, RecordOf env t r ∧ TextOf (s.files t r.file) r.content)
  kept : ∀ id r, s.record id = some r → id ∉ ids → s'.record id = some r

section Since

variable {env : RepairEnv} {ids : List String} {t : Target} {file : String}
  {content : Option String} {stamp : Stamp} {s s' s'' : RepairDisk}

theorem since_of_record (h : s'.record = s.record) : Since env ids s s' where
  origin id r hr := Or.inl (by rwa [h] at hr)
  kept id r hr _ := by rwa [h]

theorem Since.quiet (h : Since env ids s s') (hquiet : Quiet s' s'') : Since env ids s s'' where
  origin id r hr := h.origin id r (by rwa [hquiet.record] at hr)
  kept id r hr hid := by
    rw [hquiet.record]
    exact h.kept id r hr hid

theorem Since.recorded (h : Since env ids s s') (hnew : Recorded env t file content stamp s' s'')
    (hid : stamp.id ∈ ids) (htext : TextOf (s.files t file) content) : Since env ids s s'' where
  origin id r hr := by
    rw [hnew.record, Function.update_apply] at hr
    split at hr
    · next heq =>
      rw [← Option.some.inj hr]
      exact Or.inr ⟨heq ▸ hid, t, hnew.valid, htext⟩
    · exact h.origin id r hr
  kept id r hr hmem := by
    rw [hnew.record, Function.update_apply, if_neg]
    · exact h.kept id r hr hmem
    · rintro rfl
      exact hmem hid

theorem Since.setFile (h : Since env ids s s') (t : Target) (file : String)
    (content : Option ProfileFile) : Since env ids s (s'.setFile t file content) where
  origin := h.origin
  kept := h.kept

theorem of_profileDirectory (h : profileDirectory t s = .ok ()) :
    Checkpoint.validateProfileName t.profile = .ok () ∧ s.directory t = .ok () := by
  obtain ⟨⟨⟩, hnamed, hdirectory⟩ := bind_eq_ok h
  exact ⟨hnamed, hdirectory⟩

/-- **A backup before a start**, wherever it is cut. -/
theorem wp_backupBeforeStartup (stamps : String → Stamp) :
    (backupBeforeStartup env t stamps).wp
      (fun _ s' => s'.files = s.files ∧ Since env (RepairCall.startup t stamps).ids s s')
      (fun _ s' => s'.files = s.files ∧ Since env (RepairCall.startup t stamps).ids s s')
      (fun s' => s'.files = s.files ∧ Since env (RepairCall.startup t stamps).ids s s') s := by
  have hsame : s.files = s.files ∧ Since env (RepairCall.startup t stamps).ids s s :=
    ⟨rfl, since_of_record rfl⟩
  unfold backupBeforeStartup
  rw [wp_bind, wp_read]
  split
  · split
    · exact hsame
    · exact hsame
  · next hdirectory =>
    obtain ⟨hnamed, -⟩ := of_profileDirectory hdirectory
    unfold backupConfiguration
    rw [wp_bind, wp_inspect]
    refine ⟨fun _ _ => ?_, fun _ _ => hsame⟩
    refine wp_forM
      (I := fun _ s' => s'.files = s.files ∧ Since env (RepairCall.startup t stamps).ids s s')
      ?_ FILES s hsame
    rintro file - s' ⟨hfiles, hsince⟩
    rw [wp_bind, wp_inspect]
    refine ⟨fun content hcontent => ?_, fun _ _ => ⟨hfiles, hsince⟩⟩
    obtain ⟨hfile, htext, -⟩ := readFileBounded_eq_ok.mp hcontent
    rw [hfiles] at htext
    have hid : (stamps file).id ∈ (RepairCall.startup t stamps).ids :=
      List.mem_map_of_mem hfile
    have hends : ∀ s'', Quiet s' s'' ∨ Recorded env t file content (stamps file) s' s'' →
        s''.files = s.files ∧ Since env (RepairCall.startup t stamps).ids s s'' := by
      rintro s'' (hquiet | hnew)
      · exact ⟨hquiet.files.trans hfiles, hsince.quiet hquiet⟩
      · exact ⟨hnew.files.trans hfiles, hsince.recorded hnew hid htext⟩
    rw [wp_bind]
    refine wp_mono ?_ (fun _ s'' h => hends s'' h) hends (wp_backup hnamed)
    rintro _ s'' ⟨-, hnew⟩
    exact hends s'' (Or.inr hnew)

end Since

/-! ## 3. A command -/

/-- A file has been replaced whose content is recorded. -/
structure Overwritten (env : RepairEnv) (t : Target) (change : Change) (stamp : Stamp)
    (s s' : RepairDisk) : Prop where
  read : TextOf (s.files t change.file) change.original
  files : s'.files = (s.setFile t change.file (change.next.map .text)).files
  record : s'.record stamp.id = some (madeRecord env t change.file change.original stamp)
  valid : RecordOf env t (madeRecord env t change.file change.original stamp)

section Control

variable {env : RepairEnv} {t : Target} {command : Command} {change : Change} {stamp : Stamp}
  {s s' : RepairDisk}

theorem of_planChange (h : planChange env t command s = .ok change) :
    (command.action = "save" ∨ command.action = "restore") ∧
      readFile env t change.file s = .ok change.original ∧
      ∀ text, change.next = some text → text.utf8ByteSize ≤ RECOVERY_LIMIT := by
  unfold planChange at h
  rw [guard_eq_ok] at h
  obtain ⟨haction, h⟩ := h
  cases hfile : command.file with
  | none =>
    rw [hfile] at h
    cases h
  | some file =>
    rw [hfile] at h
    obtain ⟨original, horiginal, h⟩ := bind_eq_ok h
    rw [guard_eq_ok] at h
    obtain ⟨-, h⟩ := h
    obtain ⟨next, -, h⟩ := bind_eq_ok h
    rw [guard_eq_ok] at h
    obtain ⟨hbound, h⟩ := h
    obtain rfl := Except.ok.inj h
    refine ⟨?_, horiginal, ?_⟩
    · by_cases hsave : command.action = "save"
      · exact Or.inl hsave
      · exact Or.inr (by_contra fun hrestore => haction ⟨hsave, hrestore⟩)
    · intro text htext
      have hnext : next = some text := htext
      rw [hnext] at hbound
      simpa using hbound

theorem action_ne_inspect (h : planChange env t command s = .ok change) :
    command.action ≠ "inspect" := by
  obtain ⟨haction, -⟩ := of_planChange h
  rcases haction with haction | haction
  · rw [haction]
    decide
  · rw [haction]
    decide

def Controlled (env : RepairEnv) (t : Target) (command : Command) (stamp : Stamp)
    (s s' : RepairDisk) : Prop :=
  Since env [stamp.id] s s' ∧ (s'.files = s.files ∨
    ∃ change, planChange env t command s = .ok change ∧ Overwritten env t change stamp s s')

theorem controlled_of_recorded (hplan : planChange env t command s = .ok change)
    (hrecorded : Recorded env t change.file change.original stamp s s') :
    Controlled env t command stamp s s' ∧
      Controlled env t command stamp s (s'.setFile t change.file (change.next.map .text)) := by
  obtain ⟨-, hread, -⟩ := of_planChange hplan
  obtain ⟨-, htext, -⟩ := readFileBounded_eq_ok.mp hread
  have hsince : Since env [stamp.id] s s' :=
    (since_of_record rfl).recorded hrecorded (List.mem_singleton_self _) htext
  refine ⟨⟨hsince, Or.inl hrecorded.files⟩, hsince.setFile _ _ _, Or.inr ⟨change, hplan, ?_⟩⟩
  refine ⟨htext, ?_, ?_, hrecorded.valid⟩
  · rw [RepairDisk.files_setFile, RepairDisk.files_setFile, hrecorded.files]
  · rw [RepairDisk.record_setFile, hrecorded.record, Function.update_self]

/-- **A command, wherever it is cut**, leaves the files alone or has recorded what it replaces. -/
theorem wp_controlProfile :
    (controlProfile env t command stamp).wp (fun _ => Controlled env t command stamp s)
      (fun _ => Controlled env t command stamp s) (Controlled env t command stamp s) s := by
  have hsame : Controlled env t command stamp s s := ⟨since_of_record rfl, Or.inl rfl⟩
  unfold controlProfile
  rw [wp_bind, wp_attempt]
  refine ⟨hsame, ?_, hsame⟩
  rw [wp_bind, wp_inspect]
  refine ⟨fun _ hdirectory => ?_, fun _ _ => hsame⟩
  split
  · rw [wp_bind, wp_inspect]
    exact ⟨fun _ _ => hsame, fun _ _ => hsame⟩
  · rw [wp_bind, wp_inspect]
    refine ⟨fun change hplan => ?_, fun _ _ => hsame⟩
    have hcut : ∀ s', Quiet s s' ∨ Recorded env t change.file change.original stamp s s' →
        Controlled env t command stamp s s' := by
      rintro s' (hquiet | hrecorded)
      · exact ⟨since_of_record hquiet.record, Or.inl hquiet.files⟩
      · exact (controlled_of_recorded hplan hrecorded).1
    rw [wp_bind]
    refine wp_mono ?_ (fun _ s' h => hcut s' h) hcut
      (wp_backup (of_profileDirectory hdirectory).1)
    rintro saved s' ⟨-, hrecorded⟩
    obtain ⟨hkept, hset⟩ := controlled_of_recorded hplan hrecorded
    -- whatever is read after the replacement, the disk stays as it is
    have hrest : ∀ s'', Controlled env t command stamp s s'' → (do
        Program.attempt fileOperationFailed
        Program.inspect (checkWritten env t change)
        let report ← Program.inspect (inspectProfile env t)
        pure (.report report (some saved)) : Program RepairDisk IoError Answer).wp
        (fun _ => Controlled env t command stamp s) (fun _ => Controlled env t command stamp s)
        (Controlled env t command stamp s) s'' := by
      intro s'' h
      rw [wp_bind, wp_attempt]
      refine ⟨h, ?_, h⟩
      rw [wp_bind, wp_inspect]
      refine ⟨fun _ _ => ?_, fun _ _ => h⟩
      rw [wp_bind, wp_inspect]
      exact ⟨fun _ _ => h, fun _ _ => h⟩
    rw [wp_bind, wp_inspect]
    refine ⟨fun _ _ => ?_, fun _ _ => hkept⟩
    rw [wp_bind]
    unfold replaceFile
    split
    · exact hrest s' hkept
    · rw [wp_durable]
      exact ⟨hkept, hset, hrest _ hset, hkept, hset⟩

variable (env command stamp s) in
theorem wp_control (home : Home) : (control env home command stamp).wp
    (fun _ s' => s' = s ∨ ∃ profile, command.profile = some profile ∧
      Controlled env ⟨home, profile⟩ command stamp s s')
    (fun _ s' => s' = s ∨ ∃ profile, command.profile = some profile ∧
      Controlled env ⟨home, profile⟩ command stamp s s')
    (fun s' => s' = s ∨ ∃ profile, command.profile = some profile ∧
      Controlled env ⟨home, profile⟩ command stamp s s') s := by
  unfold control
  split
  · exact Or.inl rfl
  · split
    · exact Or.inl rfl
    · next profile hprofile =>
      exact wp_mono (fun _ _ h => Or.inr ⟨profile, hprofile, h⟩)
        (fun _ _ h => Or.inr ⟨profile, hprofile, h⟩) (fun _ h => Or.inr ⟨profile, hprofile, h⟩)
        wp_controlProfile

end Control

/-- **What every call does to the records**, wherever it is cut. -/
theorem since_repairCall (env : RepairEnv) (call : RepairCall) (s : RepairDisk) :
    (repairCall env call).wp (fun _ => Since env call.ids s) (fun _ => Since env call.ids s)
      (Since env call.ids s) s := by
  cases call with
  | startup t stamps =>
    rw [repairCall, wp_bind]
    exact wp_mono (fun _ _ h => h.2) (fun _ _ h => h.2) (fun _ h => h.2)
      (wp_backupBeforeStartup stamps)
  | control home command stamp =>
    have hends : ∀ s', (s' = s ∨ ∃ profile, command.profile = some profile ∧
        Controlled env ⟨home, profile⟩ command stamp s s') → Since env [stamp.id] s s' := by
      rintro s' (rfl | ⟨profile, -, hsince, -⟩)
      · exact since_of_record rfl
      · exact hsince
    rw [repairCall, wp_map]
    exact wp_mono (fun _ s' h => hends s' h) (fun _ s' h => hends s' h) hends
      (wp_control env command stamp s home)
  | edit t file content =>
    have hsame : ∀ s' : RepairDisk, s'.record = s.record →
        Since env (RepairCall.edit t file content).ids s s' := fun _ h => since_of_record h
    rw [repairCall, wp_bind, wp_durable]
    exact ⟨hsame _ rfl, hsame _ rfl, hsame _ rfl, hsame _ rfl, hsame _ rfl⟩
  | relocate directory entries =>
    have hsame : ∀ s' : RepairDisk, s'.record = s.record →
        Since env (RepairCall.relocate directory entries).ids s s' := fun _ h => since_of_record h
    rw [repairCall, wp_bind, wp_durable]
    exact ⟨hsame _ rfl, hsame _ rfl, hsame _ rfl, hsame _ rfl, hsame _ rfl⟩

/-! ## 4. Inspection -/

/-- Every record can be read, under a name that is accepted. -/
def Sound (env : RepairEnv) (s : RepairDisk) : Prop :=
  ∀ id r, s.record id = some r → validBackupId id = true ∧ ∃ t, RecordOf env t r

theorem valid_of_mem_ids {call : RepairCall} {id : String} (h : id ∈ call.ids) :
    validBackupId id = true := by
  cases call with
  | startup t stamps =>
    obtain ⟨file, -, rfl⟩ := List.mem_map.mp h
    exact validBackupId_id (stamps file)
  | control home command stamp =>
    rw [List.mem_singleton.mp h]
    exact validBackupId_id stamp
  | edit t file content => cases h
  | relocate directory entries => cases h

section Inspect

variable {env : RepairEnv} {t : Target} {s s' : RepairDisk}

theorem Sound.since (call : RepairCall) (h : Sound env s) (hsince : Since env call.ids s s') :
    Sound env s' := by
  intro id r hr
  rcases hsince.origin id r hr with hold | ⟨hid, t, hrecord, -⟩
  · exact h id r hold
  · exact ⟨valid_of_mem_ids hid, t, hrecord⟩

theorem sound_finalState (h : Sound env s) (cs : List (RepairCall × List Fault)) :
    Sound env (Session.finalState (repairCall env) cs s) := by
  refine Session.finalState_preserves ?_ cs s h
  intro call s hs
  exact wp_mono (fun _ _ hsince => hs.since call hsince)
    (fun _ _ hsince => hs.since call hsince) (fun _ hsince => hs.since call hsince)
    (since_repairCall env call s)

theorem Sound.readRecord (h : Sound env s) (id : String) :
    ProfileRepair.readRecord s id = .ok (s.record id) := by
  unfold ProfileRepair.readRecord
  cases hr : s.record id with
  | none => rfl
  | some r =>
    obtain ⟨-, t, hrecord⟩ := h id r hr
    exact if_neg (Nat.not_lt.mpr (encodedLength_le hrecord))

def rowOf (env : RepairEnv) (t : Target) (s : RepairDisk) (id : String) : Option BackupRow :=
  (s.record id).bind (backupRow env t id)

theorem readBackups_eq_ok (h : Sound env s) (ids : List String) :
    readBackups env t s ids = .ok (ids.filterMap (rowOf env t s)) := by
  induction ids with
  | nil => rfl
  | cons id ids ih =>
    rw [readBackups, h.readRecord, ih]
    show Except.ok ((rowOf env t s id).toList ++ ids.filterMap (rowOf env t s)) = _
    rw [List.filterMap_cons]
    cases rowOf env t s id with
    | none => rfl
    | some row => rfl

theorem rowOf_eq_some (h : Sound env s) {id : String} {row : BackupRow} :
    rowOf env t s id = some row ↔
      ∃ r, s.record id = some r ∧ RecordOf env t r ∧ row = ⟨id, r.file, r.created⟩ := by
  unfold rowOf backupRow
  rw [Option.bind_eq_some_iff]
  constructor
  · rintro ⟨r, hr, hrow⟩
    split at hrow
    · next hshown =>
      obtain ⟨hroot, hprofile, hhome, hfile, -⟩ := hshown
      obtain ⟨-, t', hrecord⟩ := h id r hr
      refine ⟨r, hr, ⟨hroot, hprofile, ?_, hhome, hfile, hrecord.content⟩, ?_⟩
      · rw [← hprofile, hrecord.profile]
        exact hrecord.named
      · exact (Option.some.inj hrow).symm
    · cases hrow
  · rintro ⟨r, hr, hrecord, rfl⟩
    refine ⟨r, hr, if_pos ?_⟩
    exact ⟨hrecord.dataRoot, hrecord.profile, hrecord.home, hrecord.file, (h id r hr).1⟩

theorem exists_inspectProfile (hsound : Sound env s) (hreadable : Readable t s)
    (hdirectory : profileDirectory t s = .ok ()) :
    ∃ report, inspectProfile env t s = .ok report := by
  have hrow : ∀ file ∈ FILES, ∃ row, fileRow env t s file = .ok row := by
    intro file hfile
    obtain ⟨content, hcontent⟩ := hreadable.readFile env hfile
    unfold fileRow
    rw [hcontent]
    exact ⟨_, rfl⟩
  obtain ⟨first, hfirst⟩ := hrow "package.json" (by decide)
  obtain ⟨second, hsecond⟩ := hrow "cordis.patch.yml" (by decide)
  unfold inspectProfile
  rw [hdirectory, readBackups_eq_ok hsound]
  unfold FILES
  rw [List.mapM_cons, List.mapM_cons, List.mapM_nil, hfirst, hsecond]
  exact ⟨_, rfl⟩

theorem of_inspectProfile (hsound : Sound env s) {report : Report}
    (h : inspectProfile env t s = .ok report) :
    profileDirectory t s = .ok () ∧ Readable t s ∧
      (∀ file ∈ FILES, ∃ row ∈ report.files, row.file = file ∧ ∃ content,
        readFile env t file s = .ok content ∧ row.fingerprint = env.identity content) ∧
      report.backups = ((((env.readDir s.recordIds).take 4096).filterMap
        (rowOf env t s)).insertionSort fun a b => b.created ≤ a.created).take 40 := by
  obtain ⟨⟨⟩, hdirectory, h⟩ := bind_eq_ok h
  obtain ⟨files, hfiles, h⟩ := bind_eq_ok h
  obtain ⟨rows, hrows, h⟩ := bind_eq_ok h
  rw [readBackups_eq_ok hsound] at hrows
  obtain rfl := Except.ok.inj hrows
  obtain rfl := Except.ok.inj h
  unfold FILES at hfiles
  rw [List.mapM_cons, List.mapM_cons, List.mapM_nil] at hfiles
  obtain ⟨first, hfirst, hfiles⟩ := bind_eq_ok hfiles
  obtain ⟨others, hothers, hfiles⟩ := bind_eq_ok hfiles
  obtain ⟨second, hsecond, hothers⟩ := bind_eq_ok hothers
  obtain rfl := Except.ok.inj hothers
  obtain rfl := Except.ok.inj hfiles
  have hrow : ∀ {file row}, fileRow env t s file = .ok row → row.file = file ∧ ∃ content,
      readFile env t file s = .ok content ∧ row.fingerprint = env.identity content := by
    intro file row hread
    obtain ⟨content, hcontent, hread⟩ := bind_eq_ok hread
    obtain rfl := Except.ok.inj hread
    exact ⟨rfl, content, hcontent, rfl⟩
  have hshown : ∀ file ∈ FILES, ∃ row ∈ [first, second], row.file = file ∧ ∃ content,
      readFile env t file s = .ok content ∧ row.fingerprint = env.identity content := by
    intro file hfile
    simp only [FILES, List.mem_cons, List.not_mem_nil, or_false] at hfile
    rcases hfile with rfl | rfl
    · exact ⟨first, by simp, hrow hfirst⟩
    · exact ⟨second, by simp, hrow hsecond⟩
  refine ⟨hdirectory, ?_, hshown, rfl⟩
  intro file hfile found hfound
  obtain ⟨-, -, -, content, hcontent, -⟩ := hshown file hfile
  obtain ⟨-, htext, hbound⟩ := readFileBounded_eq_ok.mp hcontent
  rw [TextOf, hfound] at htext
  obtain ⟨text, rfl, rfl⟩ := Option.map_eq_some_iff.mp htext.symm
  exact ⟨hbound text rfl, text, rfl⟩

/-- **The newest records of a profile**: forty at most, the newest first, each with its data, and
none that is left out is newer. -/
structure Newest (env : RepairEnv) (t : Target) (s : RepairDisk) (rows : List BackupRow) :
    Prop where
  few : rows.length ≤ 40
  sorted : rows.Pairwise fun a b => b.created ≤ a.created
  distinct : (rows.map BackupRow.id).Nodup
  shown : ∀ row ∈ rows, ∃ r, s.record row.id = some r ∧ RecordOf env t r ∧
    row = ⟨row.id, r.file, r.created⟩
  newest : ∀ id r, s.record id = some r → RecordOf env t r →
    ⟨id, r.file, r.created⟩ ∈ rows ∨ rows.length = 40 ∧ ∀ row ∈ rows, r.created ≤ row.created

theorem nodup_recordIds (s : RepairDisk) : s.recordIds.Nodup := (s.history.getD ∅).keys_nodup

theorem map_id_filterMap_sublist (h : Sound env s) (ids : List String) :
    ((ids.filterMap (rowOf env t s)).map BackupRow.id).Sublist ids := by
  induction ids with
  | nil => exact List.Sublist.slnil
  | cons id ids ih =>
    rw [List.filterMap_cons]
    cases hrow : rowOf env t s id with
    | none => exact ih.cons id
    | some row =>
      obtain ⟨r, -, -, rfl⟩ := (rowOf_eq_some h).mp hrow
      exact ih.cons_cons id

instance newestFirst_total :
    Std.Total fun a b : BackupRow => b.created ≤ a.created :=
  ⟨fun a b => UInt64.le_total b.created a.created⟩

instance newestFirst_trans :
    IsTrans BackupRow fun a b => b.created ≤ a.created :=
  ⟨fun _ _ _ hab hbc => UInt64.le_trans hbc hab⟩

/-- **As long as the directory can be listed in one go, an inspection lists the newest records.** -/
theorem newest_of_inspectProfile (hsound : Sound env s) (hlisted : s.recordIds.length ≤ 4096)
    {report : Report} (h : inspectProfile env t s = .ok report) :
    Newest env t s report.backups := by
  obtain ⟨-, -, -, hbackups⟩ := of_inspectProfile hsound h
  have hperm := env.readDir_perm s.recordIds
  have hall : (env.readDir s.recordIds).take 4096 = env.readDir s.recordIds :=
    List.take_of_length_le (hperm.length_eq.le.trans hlisted)
  rw [hall] at hbackups
  obtain ⟨rows, hrows⟩ : ∃ rows, rows = (env.readDir s.recordIds).filterMap (rowOf env t s) :=
    ⟨_, rfl⟩
  obtain ⟨sorted, hsorted⟩ : ∃ sorted,
      sorted = rows.insertionSort fun a b => b.created ≤ a.created := ⟨_, rfl⟩
  rw [← hrows, ← hsorted] at hbackups
  have hordered : sorted.Pairwise fun a b => b.created ≤ a.created := by
    rw [hsorted]
    exact List.pairwise_insertionSort _ rows
  have hsame : sorted.Perm rows := hsorted ▸ List.perm_insertionSort _ rows
  have hmem : ∀ row, row ∈ sorted ↔ ∃ r, s.record row.id = some r ∧ RecordOf env t r ∧
      row = ⟨row.id, r.file, r.created⟩ := by
    intro row
    rw [hsame.mem_iff, hrows, List.mem_filterMap]
    constructor
    · rintro ⟨id, -, hrow⟩
      obtain ⟨r, hr, hrecord, rfl⟩ := (rowOf_eq_some hsound).mp hrow
      exact ⟨r, hr, hrecord, rfl⟩
    · rintro ⟨r, hr, hrecord, hrow⟩
      refine ⟨row.id, ?_, (rowOf_eq_some hsound).mpr ⟨r, hr, hrecord, hrow⟩⟩
      rw [hperm.mem_iff, RepairDisk.record_of_mem_recordIds]
      exact ⟨r, hr⟩
  have hdistinct : (sorted.map BackupRow.id).Nodup := by
    rw [(hsame.map BackupRow.id).nodup_iff, hrows]
    exact (map_id_filterMap_sublist hsound _).nodup (hperm.nodup_iff.mpr (nodup_recordIds s))
  rw [hbackups]
  refine ⟨List.length_take_le 40 sorted, hordered.sublist (List.take_sublist 40 sorted),
    hdistinct.sublist ((List.take_sublist 40 sorted).map _), ?_, ?_⟩
  · intro row hrow
    exact (hmem row).mp (List.mem_of_mem_take hrow)
  · intro id r hr hrecord
    have hin : (⟨id, r.file, r.created⟩ : BackupRow) ∈ sorted := (hmem _).mpr ⟨r, hr, hrecord, rfl⟩
    rw [← List.take_append_drop 40 sorted, List.mem_append] at hin
    rcases hin with hin | hin
    · exact Or.inl hin
    · right
      have hlong : 40 < sorted.length := by
        by_contra hshort
        rw [List.drop_of_length_le (Nat.le_of_not_lt hshort)] at hin
        cases hin
      rw [← List.take_append_drop 40 sorted, List.pairwise_append] at hordered
      refine ⟨by rw [List.length_take]; omega, fun row hrow => ?_⟩
      exact hordered.2.2 row hrow _ hin

end Inspect

/-! ## 5. A change without faults -/

section Change

variable {env : RepairEnv} {t : Target} {command : Command} {change : Change} {stamp : Stamp}
  {s s' : RepairDisk}

theorem readFile_congr (h : s'.files = s.files) (file : String) :
    readFile env t file s' = readFile env t file s := by
  unfold readFile readFileBounded
  rw [h]

theorem file_setFile (t : Target) (file : String) (content : Option ProfileFile)
    (s : RepairDisk) : (s.setFile t file content).files t file = content := by
  rw [RepairDisk.files_setFile, Function.update_self, Function.update_self]

theorem Readable.setFile (h : Readable t s) (file : String) {content : Option String}
    (hcontent : ∀ text, content = some text → text.utf8ByteSize ≤ RECOVERY_LIMIT) :
    Readable t (s.setFile t file (content.map .text)) := by
  intro other hother found hfound
  rw [RepairDisk.files_setFile, Function.update_self, Function.update_apply] at hfound
  split at hfound
  · obtain ⟨text, rfl, rfl⟩ := Option.map_eq_some_iff.mp hfound
    exact ⟨hcontent text rfl, text, rfl⟩
  · exact h other hother found hfound

theorem Readable.congr (h : Readable t s) (hfiles : s'.files = s.files) : Readable t s' := by
  intro file hfile content hcontent
  rw [hfiles] at hcontent
  exact h file hfile content hcontent

theorem returns_checkWritten {s₂ : RepairDisk} (hsound : Sound env s₂) (hreadable : Readable t s₂)
    (hdirectory : profileDirectory t s₂ = .ok ()) (saved : String)
    (hwritten : readFile env t change.file s₂ = .ok change.next) :
    (do
      Program.attempt fileOperationFailed
      Program.inspect (checkWritten env t change)
      let report ← Program.inspect (inspectProfile env t)
      pure (.report report (some saved)) : Program RepairDisk IoError Answer).returns
      (fun _ s' => s' = s₂) s₂ := by
  have hchecked : checkWritten env t change s₂ = .ok () := by
    unfold checkWritten
    rw [hwritten]
    exact if_neg (by simp)
  obtain ⟨report, hreport⟩ := exists_inspectProfile hsound hreadable hdirectory
  rw [returns_bind, returns_attempt, returns_bind,
    returns_inspect]
  refine ⟨(), hchecked, ?_⟩
  rw [returns_bind, returns_inspect]
  exact ⟨report, hreport, rfl⟩

/-- **A planned change of a readable profile succeeds**, and the file is what was planned. -/
theorem returns_controlProfile (hsound : Sound env s) (hreadable : Readable t s)
    (hdirectory : profileDirectory t s = .ok ())
    (hplan : planChange env t command s = .ok change) :
    (controlProfile env t command stamp).returns
      (fun _ s' => s'.files = (s.setFile t change.file (change.next.map .text)).files) s := by
  obtain ⟨-, hread, hbound⟩ := of_planChange hplan
  obtain ⟨hfile, htext, hsmall⟩ := readFileBounded_eq_ok.mp hread
  unfold controlProfile
  rw [returns_bind, returns_attempt, returns_bind,
    returns_inspect]
  refine ⟨(), hdirectory, ?_⟩
  rw [if_neg (action_ne_inspect hplan), returns_bind, returns_inspect]
  refine ⟨change, hplan, ?_⟩
  rw [returns_bind]
  refine returns_mono ?_
    (returns_backup (of_profileDirectory hdirectory).1 hfile hsmall)
  intro saved s₁ hrecorded
  have hsound₁ : Sound env s₁ :=
    hsound.since (.control t.home command stamp)
      ((since_of_record rfl).recorded hrecorded (List.mem_singleton_self _) htext)
  have hdirectory₁ : profileDirectory t s₁ = .ok () := by
    unfold profileDirectory at hdirectory ⊢
    rwa [hrecorded.directory]
  have hreadable₁ := hreadable.congr hrecorded.files
  have hsame : checkUnchanged env t change s₁ = .ok () := by
    unfold checkUnchanged
    rw [readFile_congr hrecorded.files, hread]
    exact if_neg (by simp)
  rw [returns_bind, returns_inspect]
  refine ⟨(), hsame, ?_⟩
  rw [returns_bind]
  unfold replaceFile
  split
  · next hnone =>
    -- there was no file and there is to be none
    obtain ⟨hnext, horiginal⟩ := hnone
    rw [horiginal] at htext hread
    have hfiles : (s.setFile t change.file (change.next.map .text)).files = s.files := by
      have habsent : s.files t change.file = none := htext
      rw [RepairDisk.files_setFile, hnext, Option.map_none, ← habsent, Function.update_eq_self,
        Function.update_eq_self]
    rw [returns_pure, hfiles, ← hrecorded.files]
    have hwritten : readFile env t change.file s₁ = .ok change.next := by
      rw [readFile_congr hrecorded.files, hread, hnext]
    refine returns_mono ?_
      (returns_checkWritten hsound₁ hreadable₁ hdirectory₁ saved hwritten)
    rintro _ s' rfl
    rfl
  · rw [returns_durable]
    have hfiles : (s.setFile t change.file (change.next.map .text)).files =
        (s₁.setFile t change.file (change.next.map .text)).files := by
      rw [RepairDisk.files_setFile, RepairDisk.files_setFile, hrecorded.files]
    have hwritten : readFile env t change.file
        (s₁.setFile t change.file (change.next.map .text)) = .ok change.next :=
      readFileBounded_eq_ok.mpr ⟨hfile, file_setFile .., hbound⟩
    -- neither the records nor the directories have changed
    have hsound₂ : Sound env (s₁.setFile t change.file (change.next.map .text)) := hsound₁
    have hdirectory₂ : profileDirectory t (s₁.setFile t change.file (change.next.map .text)) =
        .ok () := hdirectory₁
    rw [hfiles]
    refine returns_mono ?_
      (returns_checkWritten hsound₂ (hreadable₁.setFile _ hbound) hdirectory₂ saved hwritten)
    rintro _ s' rfl
    rfl

/-- **An error of a readable profile leaves the files alone**, when no fault is met. -/
theorem settles_controlProfile (hsound : Sound env s) (hreadable : Readable t s) :
    (controlProfile env t command stamp).settles (fun _ _ => True)
      (fun _ s' => s'.files = s.files) s := by
  by_cases hplanned : profileDirectory t s = .ok () ∧
      ∃ change, planChange env t command s = .ok change
  · obtain ⟨hdirectory, change, hplan⟩ := hplanned
    exact settles_imp (fun _ _ _ => trivial)
      (settles_of_returns (E := fun _ s' => s'.files = s.files)
        (returns_controlProfile hsound hreadable hdirectory hplan))
  · unfold controlProfile
    rw [settles_bind, settles_attempt, settles_bind]
    refine (settles_ofExcept _).mpr ⟨fun _ hdirectory => ?_, fun _ _ => rfl⟩
    split
    · rw [settles_bind]
      exact (settles_ofExcept _).mpr ⟨fun _ _ => trivial, fun _ _ => rfl⟩
    · rw [settles_bind]
      refine (settles_ofExcept _).mpr ⟨fun change hplan => ?_, fun _ _ => rfl⟩
      exact absurd ⟨hdirectory, change, hplan⟩ hplanned

theorem planChange_restore (hsound : Sound env s) {id : String} {r : Backup}
    {original : Option String} (hrecord : s.record id = some r) (hof : RecordOf env t r)
    (hread : readFile env t r.file s = .ok original) :
    planChange env t ⟨"restore", some t.profile, some r.file, none,
      some (env.identity original), some id⟩ s = .ok ⟨r.file, original, r.content⟩ := by
  have hhistory : s.history.isNone = false := by
    unfold RepairDisk.record at hrecord
    cases hs : s.history with
    | none =>
      rw [hs] at hrecord
      cases hrecord
    | some history => rfl
  have hnext : nextContent env t ⟨"restore", some t.profile, some r.file, none,
      some (env.identity original), some id⟩ r.file s = .ok r.content := by
    unfold nextContent
    rw [if_pos rfl]
    dsimp only
    rw [(hsound id r hrecord).1, hhistory, hsound.readRecord, hrecord]
    rw [guard_eq_ok, guard_eq_ok]
    refine ⟨by simp, by simp, ?_⟩
    exact if_neg (by simp [hof.dataRoot, hof.profile, hof.home])
  unfold planChange
  rw [guard_eq_ok]
  refine ⟨by simp, bind_eq_ok_iff.mpr ⟨original, hread, ?_⟩⟩
  rw [guard_eq_ok]
  refine ⟨by simp, bind_eq_ok_iff.mpr ⟨r.content, hnext, ?_⟩⟩
  rw [guard_eq_ok]
  refine ⟨?_, rfl⟩
  cases hcontent : r.content with
  | none => simp
  | some text => simpa using hof.content text hcontent

end Change

/-! ## 6. Sessions -/

section Sessions

variable {env : RepairEnv}

theorem target_of_recordOf {t t' : Target} {r : Backup} (h : RecordOf env t r)
    (h' : RecordOf env t' r) : t' = t := by
  obtain ⟨⟨path, hshort⟩, profile⟩ := t
  obtain ⟨⟨path', hshort'⟩, profile'⟩ := t'
  have hhome : path' = path := h'.home.symm.trans h.home
  have hprofile : profile' = profile := h'.profile.symm.trans h.profile
  subst hhome hprofile
  rfl

/-- **A record holds what the file was when the record was made.** -/
theorem made_of_finalState {s₀ : RepairDisk} (hempty : ∀ id, s₀.record id = none)
    {cs : List (RepairCall × List Fault)} {t : Target} {id : String} {r : Backup}
    (hrecord : (Session.finalState (repairCall env) cs s₀).record id = some r)
    (hof : RecordOf env t r) :
    ∃ earlier call fs later, cs = earlier ++ (call, fs) :: later ∧ id ∈ call.ids ∧
      (Session.finalState (repairCall env) earlier s₀).files t r.file = r.content.map .text := by
  have hstart : ¬ s₀.record id = some r := by
    rw [hempty]
    simp
  obtain ⟨earlier, call, fs, later, rfl, hbefore, hafter⟩ :=
    Session.exists_call_of_finalState (P := fun s : RepairDisk => s.record id = some r) hrecord
      hstart
  have hsince : Since env call.ids (Session.finalState (repairCall env) earlier s₀)
      (Session.after (repairCall env call) fs
        (Session.finalState (repairCall env) earlier s₀)) :=
    Session.after_of_wp fs (since_repairCall env call _)
  obtain ⟨hid, t', hof', htext⟩ := (hsince.origin id r hafter).resolve_left hbefore
  rw [target_of_recordOf hof hof'] at htext
  exact ⟨earlier, call, fs, later, rfl, hid, htext⟩

/-- The ids that a call is given are new. -/
def Fresh (call : RepairCall) (s : RepairDisk) : Prop :=
  ∀ id ∈ call.ids, s.record id = none

theorem record_of_fresh {s : RepairDisk} {id : String} {r : Backup} (h : s.record id = some r)
    (cs : List (RepairCall × List Fault)) (hfresh : Session.Respects (repairCall env) Fresh cs s) :
    (Session.finalState (repairCall env) cs s).record id = some r := by
  refine Session.finalState_invariant (I := fun s => s.record id = some r) ?_ cs s h hfresh
  intro call s hr hnew
  have hkept : ∀ s', Since env call.ids s s' → s'.record id = some r := by
    intro s' hsince
    refine hsince.kept id r hr fun hmem => ?_
    rw [hnew id hmem] at hr
    cases hr
  exact wp_mono (fun _ s' hs' => hkept s' hs') (fun _ s' hs' => hkept s' hs') hkept
    (since_repairCall env call s)

/-- **Profile repair loses no version.**  From a disk without records, after every session:

1. a command, wherever it is cut, leaves the files as they are, or has recorded what the file that
   it replaces has held;
2. a command that meets no fault and ends in an error leaves the files as they are, if both files of
   the profile can be read;
3. an inspection lists the newest records of the profile, if there are not more than 4096 records;
   a record that it lists holds what the file was when the record was made, and is put back by a
   command with its id;
4. a record stays in the history through every session that is given new ids. -/
theorem profile_repair_keeps_versions (env : RepairEnv) (s₀ : RepairDisk)
    (hempty : ∀ id, s₀.record id = none) (cs : List (RepairCall × List Fault)) (s : RepairDisk)
    (hs : s = Session.finalState (repairCall env) cs s₀) :
    (∀ home command stamp fs, let s' := Session.after (control env home command stamp) fs s
      s'.files = s.files ∨ ∃ profile change r, command.profile = some profile ∧
        planChange env ⟨home, profile⟩ command s = .ok change ∧
        s'.files = (s.setFile ⟨home, profile⟩ change.file (change.next.map .text)).files ∧
        s'.record stamp.id = some r ∧ RecordOf env ⟨home, profile⟩ r ∧ r.file = change.file ∧
        s.files ⟨home, profile⟩ change.file = r.content.map .text) ∧
    (∀ home command stamp e s',
      (∀ profile, command.profile = some profile → Readable ⟨home, profile⟩ s) →
      (control env home command stamp).run [] s = (.error e, s') → s'.files = s.files) ∧
    (∀ t report, inspectProfile env t s = .ok report →
      (s.recordIds.length ≤ 4096 → Newest env t s report.backups) ∧
      ∀ row ∈ report.backups, ∃ r, s.record row.id = some r ∧
        (∃ earlier call fs later, cs = earlier ++ (call, fs) :: later ∧ row.id ∈ call.ids ∧
          (Session.finalState (repairCall env) earlier s₀).files t row.file =
            r.content.map .text) ∧
        ∃ shown ∈ report.files, shown.file = row.file ∧ ∀ stamp,
          (control env t.home ⟨"restore", some t.profile, some row.file, none,
            some shown.fingerprint, some row.id⟩ stamp).returns
            (fun _ s' => s'.files = (s.setFile t row.file (r.content.map .text)).files) s) ∧
    (∀ id r, s.record id = some r → ∀ ds, Session.Respects (repairCall env) Fresh ds s →
      (Session.finalState (repairCall env) ds s).record id = some r) := by
  have hsound : Sound env s := by
    rw [hs]
    refine sound_finalState (fun id r hr => ?_) cs
    rw [hempty] at hr
    cases hr
  refine ⟨?_, ?_, ?_, fun id r hr ds hfresh => record_of_fresh hr ds hfresh⟩
  · intro home command stamp fs
    rcases Session.after_of_wp fs (wp_control env command stamp s home) with
      hsame | ⟨profile, hprofile, -, hfiles | ⟨change, hplan, hover⟩⟩
    · exact Or.inl (congrArg RepairDisk.files hsame)
    · exact Or.inl hfiles
    · exact Or.inr ⟨profile, change, _, hprofile, hplan, hover.files, hover.record, hover.valid,
        rfl, hover.read⟩
  · intro home command stamp e s' hreadable hrun
    have hend : (control env home command stamp).settles (fun _ _ => True)
        (fun _ s' => s'.files = s.files) s := by
      unfold control
      split
      · trivial
      · split
        · rfl
        · next profile hprofile => exact settles_controlProfile hsound (hreadable profile hprofile)
    rw [settles_iff_run, hrun] at hend
    exact hend
  · intro t report hreport
    refine ⟨fun hlisted => newest_of_inspectProfile hsound hlisted hreport, fun row hrow => ?_⟩
    obtain ⟨hdirectory, hreadable, hfiles, hbackups⟩ := of_inspectProfile hsound hreport
    rw [hbackups] at hrow
    have hfound := (List.mem_insertionSort _).mp (List.mem_of_mem_take hrow)
    obtain ⟨id, -, hrowOf⟩ := List.mem_filterMap.mp hfound
    obtain ⟨r, hr, hof, rfl⟩ := (rowOf_eq_some hsound).mp hrowOf
    obtain ⟨shown, hshown, hname, original, hread, hprint⟩ := hfiles r.file hof.file
    refine ⟨r, hr, ?_, shown, hshown, hname, fun stamp => ?_⟩
    · rw [hs] at hr
      exact made_of_finalState hempty hr hof
    · have hplan := planChange_restore hsound hr hof hread
      rw [← hprint] at hplan
      exact returns_controlProfile hsound hreadable hdirectory hplan

end Sessions

/-! ### A profile with one plugin -/

def manifestText (bundle : String) : String :=
  "\x7b\"dsh\":\x7b\"profile\":\x7b\"bundles\":[\"" ++ bundle ++ "\"]\x7d\x7d\x7d"

def manifestTree (bundle : String) : JsonValue :=
  .mapping [("dsh", .mapping [("profile", .mapping [("bundles", .sequence [text bundle])])])]

/-- What the parser and SHA-256 do on two manifests. -/
def sampleEnv : RepairEnv where
  readJson content :=
    if content = manifestText "a" then .ok (manifestTree "a")
    else if content = manifestText "b" then .ok (manifestTree "b")
    else .error "expected value at line 1 column 1"
  readYaml _ := .ok (.sequence [])
  dataRootId := "unix:1:2"
  dataRootShort := by decide
  identity content :=
    if content = some (manifestText "a") then
      "968c4244eea95d8382eb6dcfcc536f5bbf4c90b5cf0a099153e658203590e8cf"
    else if content = some (manifestText "b") then
      "4e9bbe6e6cc5b3b9862d25b4b381c724e8d9e451646934ded0f6ff1e790fd11f"
    else "74234e98afe7498fb5daf1f36ac2d78acc339464f950703b8c019892f982b90b"
  utf8Error _ := "invalid utf-8 sequence of 1 bytes from index 0"
  readDir names := names
  readDir_perm _ := List.Perm.refl _

def sampleTarget : Target := ⟨⟨"/home/dsh", by decide⟩, "web"⟩

def sampleStamp : Stamp := ⟨fun _ => 0, 7⟩

/-- A profile with a manifest and another file. -/
def sampleDisk (patch : Option ProfileFile) : RepairDisk where
  directory _ := .ok ()
  entries _ := some ["web"]
  files _ file := if file = "package.json" then some (.text (manifestText "a")) else patch
  history := none

def saveCommand : Command :=
  ⟨"save", some "web", some "package.json", some (manifestText "b"),
    some "968c4244eea95d8382eb6dcfcc536f5bbf4c90b5cf0a099153e658203590e8cf", none⟩

/-- The profile after the manifest has been saved. -/
def savedDisk : RepairDisk :=
  Session.finalState (repairCall sampleEnv)
    [(.control sampleTarget.home saveCommand sampleStamp, [])] (sampleDisk none)

/-- A manifest is saved, and the one before it is put back. -/
theorem profile_repair_keeps_versions_saved : ∃ report,
    inspectProfile sampleEnv sampleTarget savedDisk = .ok report ∧ ∃ row ∈ report.backups,
      ∃ shown ∈ report.files, (control sampleEnv sampleTarget.home ⟨"restore", some "web",
        some row.file, none, some shown.fingerprint, some row.id⟩ sampleStamp).returns
        (fun _ s' => s'.files = (savedDisk.setFile sampleTarget row.file
          (some (.text (manifestText "a")))).files) savedDisk := by
  obtain ⟨report, hreport, hrow⟩ : ∃ report,
      inspectProfile sampleEnv sampleTarget savedDisk = .ok report ∧
        report.backups = [⟨sampleStamp.id, "package.json", 7⟩] := ⟨_, rfl, rfl⟩
  obtain ⟨-, -, hlisted, -⟩ := profile_repair_keeps_versions sampleEnv (sampleDisk none)
    (fun _ => rfl) [(.control sampleTarget.home saveCommand sampleStamp, [])] savedDisk rfl
  have hmem : (⟨sampleStamp.id, "package.json", 7⟩ : BackupRow) ∈ report.backups := by
    rw [hrow]
    exact List.mem_singleton_self _
  obtain ⟨r, hr, -, shown, hshown, -, hreturns⟩ := (hlisted sampleTarget report hreport).2 _ hmem
  have hrecord : savedDisk.record sampleStamp.id = some (madeRecord sampleEnv sampleTarget
      "package.json" (some (manifestText "a")) sampleStamp) := rfl
  obtain rfl := Option.some.inj (hrecord.symm.trans hr)
  exact ⟨report, hreport, _, hmem, shown, hshown, hreturns sampleStamp⟩

/-- The other file is not UTF-8: the manifest is saved, and the command fails. -/
theorem failed_save_changes_file : ∃ e s',
    (control sampleEnv sampleTarget.home saveCommand sampleStamp).run []
      (sampleDisk (some (.binary [0xff]))) = (.error e, s') ∧
    s'.files sampleTarget "package.json" ≠
      (sampleDisk (some (.binary [0xff]))).files sampleTarget "package.json" :=
  ⟨_, _, rfl, by decide⟩

end DshNexus.Agent.ProfileRepair
