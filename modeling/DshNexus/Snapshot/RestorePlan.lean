import DshNexus.Snapshot.Restore

/-!
# What a restore in progress owns

A restore decides once, when it is prepared, what every policy file goes back to and what
it goes on to.  That decision is a `RestorePlan`.  Between the two ends a file is in one of
a few states, which the status of its operation limits; `FileState` lists them.

* `FileCell`: the contents of a policy file and of its two backups.
* `RestorePlan.Describes`: the record carries the metadata of the plan.
* `Holding`: the durable record describes the plan and every file is in a state that its
  operation allows.
* `Sound`: what the durable record says about the files, for each of its six statuses.

`FileState` has one state that a restore should not reach: `doubled`, where a withdrawn
file has been written again.  The parameter `clash` says whether it is admitted.
-/

namespace DshNexus.Snapshot

open Durable

variable {δ : Type}

/-! ## Cells -/

/-- The contents of a policy file and of its two backups. -/
structure FileCell where
  target : Option Bytes
  original : Option Bytes
  discarded : Option Bytes
  deriving DecidableEq, Repr

/-- The cell of a file, with the backups of a ticket. -/
def RestoreDisk.cell (disk : RestoreDisk δ) (id : String) (i : FileIndex) : FileCell :=
  ⟨(disk.target i).map (·.bytes), (disk.entry id ⟨i, .original, false⟩).map (·.bytes),
    (disk.entry id ⟨i, .discarded, false⟩).map (·.bytes)⟩

@[simp] theorem entry_setTarget (disk : RestoreDisk δ) (i : FileIndex) (file : Option StoredFile)
    (id : String) (name : BackupName) :
    (disk.setTarget i file).entry id name = disk.entry id name := rfl

@[simp] theorem target_setTarget_self (disk : RestoreDisk δ) (i : FileIndex)
    (file : Option StoredFile) : (disk.setTarget i file).target i = file :=
  Function.update_self ..

@[simp] theorem target_setEntry (disk : RestoreDisk δ) (id : String) (name : BackupName)
    (file : Option StoredFile) : (disk.setEntry id name file).target = disk.target := rfl

@[simp] theorem transactions_setTarget (disk : RestoreDisk δ) (i : FileIndex)
    (file : Option StoredFile) : (disk.setTarget i file).transactions = disk.transactions := rfl

@[simp] theorem transactions_setEntry (disk : RestoreDisk δ) (id : String) (name : BackupName)
    (file : Option StoredFile) :
    (disk.setEntry id name file).transactions = disk.transactions := rfl

theorem entry_setEntry_self {disk : RestoreDisk δ} {id : String} (name : BackupName)
    (file : Option StoredFile) (hdir : (disk.backups id).isSome = true) :
    (disk.setEntry id name file).entry id name = file := by
  obtain ⟨directory, hd⟩ := Option.isSome_iff_exists.mp hdir
  simp [RestoreDisk.entry, RestoreDisk.setEntry, hd]

theorem entry_setEntry_none (disk : RestoreDisk δ) (id : String) (name : BackupName) :
    (disk.setEntry id name none).entry id name = none := by
  rcases hd : disk.backups id with _ | directory
  · simp [RestoreDisk.entry, RestoreDisk.setEntry, hd]
  · exact entry_setEntry_self name none (by rw [hd]; rfl)

theorem entry_setEntry_of_ne (disk : RestoreDisk δ) (id : String) {name other : BackupName}
    (file : Option StoredFile) (hne : other ≠ name) :
    (disk.setEntry id name file).entry id other = disk.entry id other := by
  rcases hd : disk.backups id with _ | directory
  · simp [RestoreDisk.entry, RestoreDisk.setEntry, hd]
  · simp [RestoreDisk.entry, RestoreDisk.setEntry, hd, Function.update_of_ne hne]

theorem backups_setEntry_isSome (disk : RestoreDisk δ) (id : String) (name : BackupName)
    (file : Option StoredFile) :
    ((disk.setEntry id name file).backups id).isSome = (disk.backups id).isSome := by
  simp [RestoreDisk.setEntry]

theorem backups_isSome_of_entry {disk : RestoreDisk δ} {id : String} {name : BackupName}
    (h : (disk.entry id name).isSome = true) : (disk.backups id).isSome = true := by
  rcases hd : disk.backups id with _ | directory
  · simp [RestoreDisk.entry, hd] at h
  · rfl

theorem entry_createDirectory {disk : RestoreDisk δ} {id : String}
    (hdir : (disk.backups id).isSome = false) (name : BackupName) :
    (disk.setDirectory id (some fun _ => none)).entry id name = disk.entry id name := by
  rw [Option.isSome_eq_false_iff, Option.isNone_iff_eq_none] at hdir
  simp [RestoreDisk.entry, RestoreDisk.setDirectory, hdir]

theorem cell_createDirectory {disk : RestoreDisk δ} {id : String}
    (hdir : (disk.backups id).isSome = false) (i : FileIndex) :
    (disk.setDirectory id (some fun _ => none)).cell id i = disk.cell id i := by
  rw [RestoreDisk.cell, RestoreDisk.cell, entry_createDirectory hdir, entry_createDirectory hdir]
  rfl

@[simp] theorem cell_setTarget_self (disk : RestoreDisk δ) (id : String) (i : FileIndex)
    (file : Option StoredFile) : (disk.setTarget i file).cell id i =
      { disk.cell id i with target := file.map (·.bytes) } := by
  simp [RestoreDisk.cell]

theorem cell_setTarget_of_ne (disk : RestoreDisk δ) (id : String) {i j : FileIndex}
    (file : Option StoredFile) (hne : j ≠ i) :
    (disk.setTarget i file).cell id j = disk.cell id j := by
  have htarget : (disk.setTarget i file).target j = disk.target j := Function.update_of_ne hne ..
  rw [RestoreDisk.cell, RestoreDisk.cell, htarget, entry_setTarget, entry_setTarget]

theorem cell_setEntry_of_ne (disk : RestoreDisk δ) (id : String) {i j : FileIndex}
    (suffix : BackupSuffix) (deleted : Bool) (file : Option StoredFile) (hne : j ≠ i) :
    (disk.setEntry id ⟨i, suffix, deleted⟩ file).cell id j = disk.cell id j := by
  have hname : ∀ s : BackupSuffix, (⟨j, s, false⟩ : BackupName) ≠ ⟨i, suffix, deleted⟩ :=
    fun s h => hne (congrArg BackupName.index h)
  simp [RestoreDisk.cell, entry_setEntry_of_ne _ _ _ (hname _)]

theorem cell_setEntry_original {disk : RestoreDisk δ} {id : String} (i : FileIndex)
    (file : Option StoredFile) (hdir : (disk.backups id).isSome = true) :
    (disk.setEntry id ⟨i, .original, false⟩ file).cell id i =
      { disk.cell id i with original := file.map (·.bytes) } := by
  have hne : (⟨i, .discarded, false⟩ : BackupName) ≠ ⟨i, .original, false⟩ := by simp
  simp [RestoreDisk.cell, entry_setEntry_self _ _ hdir, entry_setEntry_of_ne disk id file hne]

theorem cell_setEntry_discarded {disk : RestoreDisk δ} {id : String} (i : FileIndex)
    (file : Option StoredFile) (hdir : (disk.backups id).isSome = true) :
    (disk.setEntry id ⟨i, .discarded, false⟩ file).cell id i =
      { disk.cell id i with discarded := file.map (·.bytes) } := by
  have hne : (⟨i, .original, false⟩ : BackupName) ≠ ⟨i, .discarded, false⟩ := by simp
  simp [RestoreDisk.cell, entry_setEntry_self _ _ hdir, entry_setEntry_of_ne disk id file hne]

@[simp] theorem cell_setEntry_deleted (disk : RestoreDisk δ) (id : String) (i j : FileIndex)
    (suffix : BackupSuffix) (file : Option StoredFile) :
    (disk.setEntry id ⟨i, suffix, true⟩ file).cell id j = disk.cell id j := by
  have hname : ∀ s : BackupSuffix, (⟨j, s, false⟩ : BackupName) ≠ ⟨i, suffix, true⟩ :=
    fun s h => Bool.false_ne_true (congrArg BackupName.deleted h)
  simp [RestoreDisk.cell, entry_setEntry_of_ne _ _ _ (hname _)]

@[simp] theorem cell_writeRecord (disk : RestoreDisk δ) (record : TransactionRecord δ)
    (id : String) (i : FileIndex) : (disk.writeRecord record).cell id i = disk.cell id i := rfl

/-! ## Records -/

theorem findRecord_putRecord_self (record : TransactionRecord δ)
    (records : List (TransactionRecord δ)) :
    findRecord record.ticket.ticketId (putRecord record records) = some record := by
  induction records with
  | nil => simp [putRecord, findRecord]
  | cons other records ih =>
    rw [putRecord]
    split
    · simp [findRecord]
    · next hne =>
      rw [findRecord, List.find?_cons_of_neg (by simpa using hne)]
      exact ih

theorem findRecord_writeRecord {id : String} (record : TransactionRecord δ)
    (hid : record.ticket.ticketId = id) (s : RestoreDisk δ) :
    findRecord id (s.writeRecord record).transactions = some record := by
  rw [← hid]
  exact findRecord_putRecord_self record _

theorem findRecord_putRecord_of_ne {id : String} {record : TransactionRecord δ}
    (hne : record.ticket.ticketId ≠ id) (records : List (TransactionRecord δ)) :
    findRecord id (putRecord record records) = findRecord id records := by
  induction records with
  | nil => simp [putRecord, findRecord, hne]
  | cons other records ih =>
    rw [putRecord]
    split
    · next h => rw [findRecord, findRecord, List.find?_cons_of_neg (by simpa using hne),
        List.find?_cons_of_neg (by simpa [h] using hne)]
    · by_cases ho : other.ticket.ticketId = id
      · rw [findRecord, findRecord, List.find?_cons_of_pos (by simpa using ho),
          List.find?_cons_of_pos (by simpa using ho)]
      · rw [findRecord, findRecord, List.find?_cons_of_neg (by simpa using ho),
          List.find?_cons_of_neg (by simpa using ho)]
        exact ih

theorem ticketId_of_findRecord {id : String} {records : List (TransactionRecord δ)}
    {record : TransactionRecord δ} (h : findRecord id records = some record) :
    record.ticket.ticketId = id := by
  simpa using List.find?_some h

@[simp] theorem operations_setOperation_self (record : TransactionRecord δ) (i : FileIndex)
    (operation : RestoreOperation δ) :
    (record.setOperation i operation).operations i = operation := Function.update_self ..

theorem operations_setOperation_of_ne (record : TransactionRecord δ) {i j : FileIndex}
    (operation : RestoreOperation δ) (hne : j ≠ i) :
    (record.setOperation i operation).operations j = record.operations j :=
  Function.update_of_ne hne ..

/-! ## Plans -/

/-- What a restore takes every file from and to. -/
structure RestorePlan where
  orig : FileIndex → Option Bytes
  want : FileIndex → Option Bytes
  state : FileIndex → SnapshotFileState
  want_isSome : ∀ i, (want i).isSome = true ↔ state i = .present
  orig_bounded : ∀ i, ∀ bytes ∈ orig i, bytes.length ≤ (FILE_POLICY i).maxBytes
  want_bounded : ∀ i, ∀ bytes ∈ want i, bytes.length ≤ (FILE_POLICY i).maxBytes

theorem RestorePlan.want_eq_none {plan : RestorePlan} {i : FileIndex}
    (h : plan.state i ≠ .present) : plan.want i = none := by
  rw [← Option.not_isSome_iff_eq_none, plan.want_isSome i]
  exact h

theorem matchesExpected_expectedFile [DecidableEq δ] {sha256Hex : Bytes → δ}
    (hinj : Function.Injective sha256Hex) (current original : Option Bytes) :
    matchesExpected sha256Hex current (expectedFile sha256Hex original) = true ↔
      current = original := by
  rcases current with _ | current <;> rcases original with _ | original
  · simp [matchesExpected, expectedFile]
  · simp [matchesExpected, expectedFile]
  · simp [matchesExpected, expectedFile]
  · simp only [matchesExpected, expectedFile, Bool.and_eq_true, decide_eq_true_eq,
      hinj.eq_iff, Option.some.injEq]
    exact ⟨fun h => h.2, fun h => ⟨by rw [h]; exact decide_eq_true rfl, h⟩⟩

@[simp] theorem expectedFile_present (sha256Hex : Bytes → δ) (content : Option Bytes) :
    (expectedFile sha256Hex content).present = content.isSome := by
  cases content <;> rfl

@[simp] theorem expectedFile_sha256 (sha256Hex : Bytes → δ) (content : Option Bytes) :
    (expectedFile sha256Hex content).sha256 = content.map sha256Hex := by
  cases content <;> rfl

section Describes

variable (env : RestoreEnvironment δ)

structure RestorePlan.DescribesOperation (plan : RestorePlan) (i : FileIndex)
    (operation : RestoreOperation δ) : Prop where
  original : operation.original = expectedFile env.sha256Hex (plan.orig i)
  desiredState : operation.desiredState = plan.state i
  desiredSha256 : operation.desiredSha256 = (plan.want i).map env.sha256Hex
  appliedSha256 : operation.appliedSha256 =
    if operation.status = .applied then (plan.want i).map env.sha256Hex else none

/-- A record carries the metadata of the plan. -/
structure RestorePlan.Describes (plan : RestorePlan) (record : TransactionRecord δ) : Prop where
  schema : record.schema = TRANSACTION_SCHEMA_VERSION
  ticketSchema : record.ticket.schema = TRANSACTION_SCHEMA_VERSION
  profileName : record.ticket.profileName = env.profileName
  ticketId : validateIdentifier record.ticket.ticketId = .ok ()
  snapshotId : validateIdentifier record.ticket.snapshotId = .ok ()
  operations : ∀ i, plan.DescribesOperation env i (record.operations i)

variable {env} {plan : RestorePlan} {record : TransactionRecord δ}

theorem RestorePlan.DescribesOperation.original_present {i : FileIndex}
    {operation : RestoreOperation δ} (h : plan.DescribesOperation env i operation) :
    operation.original.present = (plan.orig i).isSome := by
  rw [h.original, expectedFile_present]

theorem RestorePlan.DescribesOperation.rollbackSha256 {i : FileIndex}
    {operation : RestoreOperation δ} (h : plan.DescribesOperation env i operation)
    (hstatus : operation.status = .backedUp ∨ operation.status = .applied) :
    (if operation.status = .backedUp then operation.desiredSha256 else operation.appliedSha256) =
      (plan.want i).map env.sha256Hex := by
  rcases hstatus with hs | hs
  · rw [if_pos hs, h.desiredSha256]
  · rw [if_neg (by rw [hs]; decide), h.appliedSha256, if_pos hs]

theorem RestorePlan.Describes.validate (h : plan.Describes env record) :
    validateTransactionRecord env record = .ok () := by
  rw [validateTransactionRecord, if_neg (by simp [h.schema, h.ticketSchema, h.profileName]),
    h.ticketId, h.snapshotId]
  refine forM_eq_ok fun i _ => ?_
  have hop := h.operations i
  have hwant := plan.want_isSome i
  have horiginal : ¬ ((record.operations i).original.present ≠
        (record.operations i).original.sha256.isSome ∨
      ((record.operations i).original.present = false ∧
        (record.operations i).original.size ≠ 0) ∨
      (record.operations i).original.size > (FILE_POLICY i).maxBytes) := by
    rw [hop.original]
    rcases ho : plan.orig i with _ | bytes
    · simp [expectedFile]
    · simpa [expectedFile] using plan.orig_bounded i bytes ho
  have hdesired : decide ((record.operations i).desiredState = .present) =
      (record.operations i).desiredSha256.isSome := by
    rw [hop.desiredState, hop.desiredSha256, Option.isSome_map, Bool.eq_iff_iff, hwant,
      decide_eq_true_eq]
  have happlied : decide ((record.operations i).status = .applied ∧
      (record.operations i).desiredState = .present) =
        (record.operations i).appliedSha256.isSome := by
    rw [hop.appliedSha256, hop.desiredState, Bool.eq_iff_iff, decide_eq_true_eq]
    by_cases hs : (record.operations i).status = .applied
    · simp [hs, hwant]
    · simp [hs]
  simp only [horiginal, if_false, hdesired, happlied, ne_eq, not_true_eq_false]

theorem RestorePlan.Describes.setOperation (h : plan.Describes env record) {i : FileIndex}
    {operation : RestoreOperation δ} (hop : plan.DescribesOperation env i operation) :
    plan.Describes env (record.setOperation i operation) where
  schema := h.schema
  ticketSchema := h.ticketSchema
  profileName := h.profileName
  ticketId := h.ticketId
  snapshotId := h.snapshotId
  operations j := by
    by_cases hj : j = i
    · rw [hj, operations_setOperation_self]; exact hop
    · rw [operations_setOperation_of_ne _ _ hj]; exact h.operations j

theorem RestorePlan.Describes.withStatus (h : plan.Describes env record)
    (status : RestoreStatus) (pending : Bool) :
    plan.Describes env { record with status := status, materializationPending := pending } :=
  ⟨h.schema, h.ticketSchema, h.profileName, h.ticketId, h.snapshotId, h.operations⟩

end Describes

/-! ## The states of a file -/

/-- The states of a file that goes from `orig` to `want`, and the statuses of its operation
under which each may be found. -/
inductive FileState (orig want : Option Bytes) (omitted clash : Prop)
    (status : OperationStatus) (cell : FileCell) : Prop where
  /-- where it was before the restore -/
  | home (hcell : cell = ⟨orig, none, none⟩)
      (hstatus : status = .applied → orig.isSome = true ∨ omitted)
  /-- moved into the backup directory -/
  | away (hcell : cell = ⟨none, orig, none⟩) (hstatus : status = .applying ∨ status = .backedUp)
      (hkept : ¬ omitted) (horig : orig.isSome = true)
  /-- replaced by the desired content -/
  | placed (hcell : cell = ⟨want, orig, none⟩) (hstatus : status = .backedUp ∨ status = .applied)
      (hkept : ¬ omitted)
  /-- written by the restore and set aside by a rollback -/
  | withdrawn (hcell : cell = ⟨none, none, want⟩)
      (hstatus : status = .backedUp ∨ status = .applied ∨ status = .rolledBack)
      (hkept : ¬ omitted) (horig : orig = none) (hwant : want.isSome = true)
  /-- set aside, and written again by a resumed apply -/
  | doubled (hcell : cell = ⟨want, none, want⟩)
      (hstatus : status = .backedUp ∨ status = .applied)
      (hkept : ¬ omitted) (horig : orig = none) (hwant : want.isSome = true) (hclash : clash)

section FileState

variable {orig want : Option Bytes} {omitted clash : Prop} {status : OperationStatus}
  {cell : FileCell}

theorem FileState.eq_home_of_pending (h : FileState orig want omitted clash .pending cell) :
    cell = ⟨orig, none, none⟩ := by
  cases h with
  | home hcell => exact hcell
  | away _ hstatus => simp at hstatus
  | placed _ hstatus => simp at hstatus
  | withdrawn _ hstatus => simp at hstatus
  | doubled _ hstatus => simp at hstatus

theorem FileState.eq_home_of_omitted (h : FileState orig want omitted clash status cell)
    (homitted : omitted) : cell = ⟨orig, none, none⟩ := by
  cases h with
  | home hcell => exact hcell
  | away _ _ hkept => exact absurd homitted hkept
  | placed _ _ hkept => exact absurd homitted hkept
  | withdrawn _ _ hkept => exact absurd homitted hkept
  | doubled _ _ hkept => exact absurd homitted hkept

theorem FileState.applied_of_target (h : FileState orig want omitted clash status cell)
    (hkept : ¬ omitted) (htarget : cell.target = want)
    (hbackup : orig.isSome = true → cell.original.isSome = true) :
    FileState orig want omitted clash .applied cell := by
  cases h with
  | home hcell =>
    subst hcell
    have horig : orig = none := by
      rw [← Option.not_isSome_iff_eq_none]; exact fun h => absurd (hbackup h) (by simp)
    subst horig
    exact .placed (by rw [← htarget]) (Or.inr rfl) hkept
  | away hcell =>
    subst hcell
    exact .placed (by rw [← htarget]) (Or.inr rfl) hkept
  | placed hcell => exact .placed hcell (Or.inr rfl) hkept
  | withdrawn hcell _ _ _ hwant =>
    subst hcell
    rw [← htarget] at hwant
    exact absurd hwant (by simp)
  | doubled hcell _ _ horig hwant hclash => exact .doubled hcell (Or.inr rfl) hkept horig hwant hclash

theorem FileState.rolledBack_of_target (h : FileState orig want omitted clash status cell)
    (htarget : cell.target = orig) (hbackup : cell.original = none) :
    FileState orig want omitted clash .rolledBack cell := by
  cases h with
  | home hcell => exact .home hcell (by simp)
  | away hcell _ _ horig =>
    subst hcell
    rw [← htarget] at horig
    exact absurd horig (by simp)
  | placed hcell =>
    subst hcell
    simp only at htarget hbackup
    subst htarget hbackup
    exact .home rfl (by simp)
  | withdrawn hcell _ hkept horig hwant =>
    exact .withdrawn hcell (Or.inr (Or.inr rfl)) hkept horig hwant
  | doubled hcell _ _ horig hwant =>
    subst hcell
    simp only at htarget
    rw [htarget, horig] at hwant
    exact absurd hwant (by simp)

theorem FileState.settled (h : FileState orig want omitted clash status cell)
    (hstatus : status = .pending ∨ status = .rolledBack) :
    cell.target = orig ∧ ∀ cell' : FileCell, cell'.target = cell.target →
      (cell'.original = cell.original ∨ cell'.original = none) →
      (cell'.discarded = cell.discarded ∨ cell'.discarded = none) →
        FileState orig want omitted clash status cell' := by
  have happlied : status ≠ .applied := by rcases hstatus with h | h <;> rw [h] <;> decide
  cases h with
  | home hcell =>
    subst hcell
    refine ⟨rfl, fun cell' ht ho hd => .home ?_ fun h => absurd h happlied⟩
    obtain ⟨t, o, d⟩ := cell'
    simp only [or_self] at ht ho hd
    rw [ht, ho, hd]
  | away _ h => rcases hstatus with rfl | rfl <;> simp at h
  | placed _ h => rcases hstatus with rfl | rfl <;> simp at h
  | withdrawn hcell hst hkept horig hwant =>
    subst hcell
    refine ⟨horig.symm, fun cell' ht ho hd => ?_⟩
    obtain ⟨t, o, d⟩ := cell'
    simp only [or_self] at ht ho hd
    subst ht ho
    rcases hd with rfl | rfl
    · exact .withdrawn rfl hst hkept horig hwant
    · exact .home (by rw [horig]) fun h => absurd h happlied
  | doubled _ h => rcases hstatus with rfl | rfl <;> simp at h

end FileState

/-! ## The record and the files -/

section Holding

variable (env : RestoreEnvironment δ) (plan : RestorePlan) (clash : Prop)

/-- The durable record of a ticket describes the plan, and every file is in a state that its
operation allows. -/
structure Holding (id : String) (record : TransactionRecord δ) (disk : RestoreDisk δ) :
    Prop where
  stored : findRecord id disk.transactions = some record
  describes : plan.Describes env record
  files : ∀ i, FileState (plan.orig i) (plan.want i) (plan.state i = .omitted) clash
    (record.operations i).status (disk.cell id i)

/-- What the status of the durable record says about the files. -/
def StatusInvariant (id : String) (record : TransactionRecord δ) (disk : RestoreDisk δ) : Prop :=
  match record.status with
  | .prepared => Holding env plan clash id record disk ∧
      ∀ i, (record.operations i).status = .pending
  | .applying => Holding env plan clash id record disk
  | .applied => Holding env plan clash id record disk ∧
      ∀ i, (record.operations i).status = .applied ∨ (record.operations i).status = .rolledBack
  | .committing => ∀ i, plan.state i ≠ .omitted → (disk.cell id i).target = plan.want i
  | .committed => ∀ i, plan.state i ≠ .omitted → (disk.cell id i).target = plan.want i
  | .rolledBack => ∀ i, (disk.cell id i).target = plan.orig i

/-- The ticket has a durable record, it describes the plan, and the files are as its status
says. -/
def Sound (id : String) (disk : RestoreDisk δ) : Prop :=
  ∃ record, findRecord id disk.transactions = some record ∧ plan.Describes env record ∧
    StatusInvariant env plan clash id record disk

/-- The record is at work: every cut leaves it sound. -/
def InProgress (record : TransactionRecord δ) : Prop :=
  record.status = .applying ∨ record.status = .applied ∧
    ∀ i, (record.operations i).status = .applied ∨ (record.operations i).status = .rolledBack

variable {env plan clash} {id : String} {record record' : TransactionRecord δ}
  {disk disk' : RestoreDisk δ} {i : FileIndex}

theorem Holding.sound (h : Holding env plan clash id record disk) (hwork : InProgress record) :
    Sound env plan clash id disk := by
  refine ⟨record, h.stored, h.describes, ?_⟩
  rcases hwork with hs | ⟨hs, hops⟩
  · rw [StatusInvariant, hs]; exact h
  · rw [StatusInvariant, hs]; exact ⟨h, hops⟩

theorem Holding.change (h : Holding env plan clash id record disk)
    (htrans : disk'.transactions = disk.transactions)
    (hothers : ∀ j, j ≠ i → disk'.cell id j = disk.cell id j)
    (hfile : FileState (plan.orig i) (plan.want i) (plan.state i = .omitted) clash
      (record.operations i).status (disk'.cell id i)) :
    Holding env plan clash id record disk' where
  stored := by rw [htrans]; exact h.stored
  describes := h.describes
  files j := by
    by_cases hj : j = i
    · rw [hj]; exact hfile
    · rw [hothers j hj]; exact h.files j

theorem Holding.writeOperation (h : Holding env plan clash id record disk)
    {operation : RestoreOperation δ} (hop : plan.DescribesOperation env i operation)
    (hfile : FileState (plan.orig i) (plan.want i) (plan.state i = .omitted) clash
      operation.status (disk.cell id i)) :
    Holding env plan clash id (record.setOperation i operation)
      (disk.writeRecord (record.setOperation i operation)) where
  stored := by
    rw [← ticketId_of_findRecord h.stored]
    exact findRecord_putRecord_self (record.setOperation i operation) _
  describes := h.describes.setOperation hop
  files j := by
    rw [cell_writeRecord]
    by_cases hj : j = i
    · rw [hj, operations_setOperation_self]; exact hfile
    · rw [operations_setOperation_of_ne _ _ hj]; exact h.files j

theorem Holding.writeStatus (h : Holding env plan clash id record disk) (status : RestoreStatus)
    (pending : Bool) :
    Holding env plan clash id { record with status := status, materializationPending := pending }
      (disk.writeRecord { record with status := status, materializationPending := pending }) where
  stored := by
    rw [← ticketId_of_findRecord h.stored]
    exact findRecord_putRecord_self
      { record with status := status, materializationPending := pending } _
  describes := h.describes.withStatus status pending
  files := h.files

/-! ## Work on one file -/

/-- The work on file `i` has taken the record and the disk from the first pair to the
second: the plan still holds, and nothing else has changed. -/
structure Worked (id : String) (i : FileIndex) (record : TransactionRecord δ)
    (disk : RestoreDisk δ) (record' : TransactionRecord δ) (disk' : RestoreDisk δ) : Prop where
  status : record'.status = record.status
  others : ∀ j, j ≠ i → record'.operations j = record.operations j ∧
    disk'.cell id j = disk.cell id j

theorem Worked.refl (id : String) (i : FileIndex) (record : TransactionRecord δ)
    (disk : RestoreDisk δ) : Worked id i record disk record disk :=
  ⟨rfl, fun _ _ => ⟨rfl, rfl⟩⟩

theorem Worked.trans {record'' : TransactionRecord δ} {disk'' : RestoreDisk δ}
    (h : Worked id i record disk record' disk') (h' : Worked id i record' disk' record'' disk'') :
    Worked id i record disk record'' disk'' :=
  ⟨h'.status.trans h.status, fun j hj => ⟨(h'.others j hj).1.trans (h.others j hj).1,
    (h'.others j hj).2.trans (h.others j hj).2⟩⟩

theorem Worked.of_disk (record : TransactionRecord δ)
    (hothers : ∀ j, j ≠ i → disk'.cell id j = disk.cell id j) :
    Worked id i record disk record disk' :=
  ⟨rfl, fun j hj => ⟨rfl, hothers j hj⟩⟩

theorem Worked.of_operation (record : TransactionRecord δ) (disk : RestoreDisk δ)
    (operation : RestoreOperation δ) :
    Worked id i record disk (record.setOperation i operation)
      (disk.writeRecord (record.setOperation i operation)) :=
  ⟨rfl, fun _ hj => ⟨operations_setOperation_of_ne _ _ hj, rfl⟩⟩

end Holding

end DshNexus.Snapshot
