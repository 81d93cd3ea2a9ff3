import DshNexus.Durable.Interference
import DshNexus.Snapshot.RestoreResume

/-!
# Omitted files

A snapshot may omit a policy file; a restore of it leaves that file as it is.  Others may
therefore change an omitted file while the restore is at work.  Almost no read and no step of
a restore notices: `Unseen` says so of every part of an apply, of a commit, and of the rollback
of the other files.  The exception is the rollback of an omitted file that is recorded as
applied, which compares the file with the recorded original.

* `SameKept`: two disks that differ in omitted files only.
* `OutsideEdit`: a change of omitted files by others, after the apply has started.
* `unseen_applyOperation`, `unseen_restoreOriginal`, `unseen_removeBackupDirectory`.
-/

namespace DshNexus.Snapshot

open Durable Program

variable {δ : Type}

/-- The snapshot of the restore omits the file. -/
def TransactionRecord.Omits (record : TransactionRecord δ) (i : FileIndex) : Prop :=
  (record.operations i).desiredState = .omitted

/-! ## Disks that differ in omitted files -/

/-- The two disks differ in omitted files only. -/
structure SameKept (start : TransactionRecord δ) (s t : RestoreDisk δ) : Prop where
  transactions : s.transactions = t.transactions
  backups : s.backups = t.backups
  target : ∀ i, ¬ start.Omits i → s.target i = t.target i

def KeepsOmitted (start : TransactionRecord δ) (s s' : RestoreDisk δ) : Prop :=
  ∀ i, start.Omits i → s'.target i = s.target i

/-- The record belongs to the ticket, omits what the first record omits, and its operations on
the omitted files and its status are as the parameters say. -/
structure Fits (start : TransactionRecord δ) (id : String)
    (kept : FileIndex → RestoreOperation δ → Prop) (S : RestoreStatus → Prop)
    (record : TransactionRecord δ) : Prop where
  ticketId : record.ticket.ticketId = id
  desiredState : ∀ i, (record.operations i).desiredState = (start.operations i).desiredState
  kept : ∀ i, start.Omits i → kept i (record.operations i)
  status : S record.status

/-- The durable record fits, and of the omitted files nothing has been moved or changed. -/
structure Keeping (start : TransactionRecord δ) (disk : RestoreDisk δ) (id : String)
    (kept : FileIndex → RestoreOperation δ → Prop) (S : RestoreStatus → Prop)
    (t : RestoreDisk δ) : Prop where
  stored : ∃ record, findRecord id t.transactions = some record ∧ Fits start id kept S record
  entries : ∀ i suffix, start.Omits i → t.entry id ⟨i, suffix, false⟩ = none
  targets : ∀ i, start.Omits i → t.target i = disk.target i

section Unseen

variable {start record : TransactionRecord δ} {disk : RestoreDisk δ} {id : String}
  {kept : FileIndex → RestoreOperation δ → Prop} {S : RestoreStatus → Prop} {i : FileIndex}

theorem SameKept.refl (s : RestoreDisk δ) : SameKept start s s := ⟨rfl, rfl, fun _ _ => rfl⟩

theorem SameKept.writeRecord {s t : RestoreDisk δ} (h : SameKept start s t)
    (record : TransactionRecord δ) :
    SameKept start (s.writeRecord record) (t.writeRecord record) := by
  refine ⟨?_, h.backups, h.target⟩
  show putRecord record s.transactions = putRecord record t.transactions
  rw [h.transactions]

theorem SameKept.entry {s t : RestoreDisk δ} (h : SameKept start s t) (name : BackupName) :
    s.entry id name = t.entry id name := by
  rw [RestoreDisk.entry, RestoreDisk.entry, h.backups]

/-- No read and no step of the call notices an omitted file. -/
abbrev Unseen (start : TransactionRecord δ) (disk : RestoreDisk δ) (id : String)
    (kept : FileIndex → RestoreOperation δ → Prop) (S : RestoreStatus → Prop) {α : Type}
    (P : α → Prop) (p : RestoreProgram δ α) : Prop :=
  p.Blind (SameKept start) (KeepsOmitted start) (Keeping start disk id kept S) P

/-! ### Reads -/

theorem unseen_readTarget (hkept : ¬ start.Omits i) :
    Unseen start disk id kept S (fun _ => True) (readTarget i) :=
  blind_read (fun _ => blind_ofExcept fun _ _ => trivial)
    fun s t h => by rw [h.target i hkept]

theorem unseen_readBackup (other : String) (name : BackupName) :
    Unseen start disk id kept S (fun _ => True) (readBackup other name) :=
  blind_read (fun _ => blind_ofExcept fun _ _ => trivial)
    fun s t h => by rw [h.entry name]

theorem unseen_validateBackupDirectory (other : String) :
    Unseen start disk id kept S (fun _ => True) (validateBackupDirectory other) := by
  refine blind_read (fun s => ?_) fun s t h => by rw [h.backups]
  split
  · trivial
  · trivial

/-! ### Steps -/

theorem unseen_backups {e : SnapshotError} {f : RestoreDisk δ → RestoreDisk δ}
    (htransactions : ∀ s, (f s).transactions = s.transactions)
    (htarget : ∀ s, (f s).target = s.target)
    (hentry : ∀ s i suffix, start.Omits i → s.entry id ⟨i, suffix, false⟩ = none →
      (f s).entry id ⟨i, suffix, false⟩ = none)
    (hbackups : ∀ s t, SameKept start s t → (f s).backups = (f t).backups) :
    Unseen start disk id kept S (fun _ => True) (Program.durable e f) := by
  refine blind_durable (fun s hs => ⟨?_, fun i suffix hi => ?_, fun i hi => ?_⟩)
    (fun s i _ => ?_) (fun s t h => ⟨?_, hbackups s t h, fun i hi => ?_⟩) trivial
  · rw [htransactions]; exact hs.stored
  · exact hentry s i suffix hi (hs.entries i suffix hi)
  · rw [htarget]; exact hs.targets i hi
  · rw [htarget]
  · rw [htransactions, htransactions]; exact h.transactions
  · rw [htarget, htarget]; exact h.target i hi

theorem unseen_setTarget {e : SnapshotError} (hkept : ¬ start.Omits i)
    {g : RestoreDisk δ → Option StoredFile} (hg : ∀ s t, SameKept start s t → g s = g t) :
    Unseen start disk id kept S (fun _ => True)
      (Program.durable e fun s => s.setTarget i (g s)) := by
  have hne : ∀ j, start.Omits j → ∀ (s : RestoreDisk δ) file,
      (s.setTarget i file).target j = s.target j := by
    intro j hj s file
    have hji : j ≠ i := fun h => hkept (h ▸ hj)
    exact Function.update_of_ne hji ..
  refine blind_durable (fun s hs => ⟨hs.stored, hs.entries, fun j hj => ?_⟩)
    (fun s j hj => hne j hj s _) (fun s t h => ⟨h.transactions, h.backups, fun j hj => ?_⟩) trivial
  · rw [hne j hj]; exact hs.targets j hj
  · show Function.update s.target i (g s) j = Function.update t.target i (g t) j
    by_cases hji : j = i
    · rw [hji, Function.update_self, Function.update_self, hg s t h]
    · rw [Function.update_of_ne hji, Function.update_of_ne hji, h.target j hj]

theorem unseen_writeTransaction (h : Fits start id kept S record) :
    Unseen start disk id kept S (fun _ => True) (writeTransaction record) := by
  refine Program.Blind.bind (P := fun _ => True) (blind_ofExcept fun _ _ => trivial)
    fun _ _ => blind_durable (fun s hs => ⟨⟨record, ?_, h⟩, hs.entries, hs.targets⟩)
      (fun _ _ _ => rfl) (fun s t hst => hst.writeRecord record) trivial
  exact findRecord_writeRecord record h.ticketId s

theorem unseen_ensureBackupDirectory :
    Unseen start disk id kept S (fun _ => True) (ensureBackupDirectory id) := by
  refine blind_read (fun s => ?_) fun s t h => by rw [h.backups]
  split
  · trivial
  · refine unseen_backups (fun _ => rfl) (fun _ => rfl) (fun s j suffix _ _ => ?_)
      fun s t h => ?_
    · simp [RestoreDisk.entry, RestoreDisk.setDirectory]
    · simp only [RestoreDisk.setDirectory, h.backups]

theorem unseen_renameToBackup (hkept : ¬ start.Omits i) (suffix : BackupSuffix) :
    Unseen start disk id kept S (fun _ => True) (renameToBackup id i suffix) := by
  have hne : ∀ j, start.Omits j → j ≠ i := fun j hj h => hkept (h ▸ hj)
  refine blind_read (fun s => ?_) fun s t h => by rw [h.backups, h.target i hkept]
  split
  · refine blind_durable (fun s hs => ⟨hs.stored, fun j other hj => ?_, fun j hj => ?_⟩)
      (fun s j hj => ?_) (fun s t h => ⟨h.transactions, ?_, fun j hj => ?_⟩) trivial
    · rw [entry_setTarget, entry_setEntry_of_ne _ _ _ fun h =>
        hne j hj (congrArg BackupName.index h)]
      exact hs.entries j other hj
    · show Function.update s.target i none j = _
      rw [Function.update_of_ne (hne j hj)]
      exact hs.targets j hj
    · exact Function.update_of_ne (hne j hj) ..
    · show Function.update s.backups id _ = Function.update t.backups id _
      rw [h.backups, h.target i hkept]
    · show Function.update s.target i none j = Function.update t.target i none j
      by_cases hji : j = i
      · rw [hji, Function.update_self, Function.update_self]
      · rw [Function.update_of_ne hji, Function.update_of_ne hji, h.target j hj]
  · trivial

theorem unseen_replaceFromBackup (hkept : ¬ start.Omits i) :
    Unseen start disk id kept S (fun _ => True) (replaceFromBackup id i) := by
  have hne : ∀ j, start.Omits j → j ≠ i := fun j hj h => hkept (h ▸ hj)
  refine blind_read (fun s => ?_) fun s t h => by rw [h.entry]
  split
  · refine blind_durable (fun s hs => ⟨hs.stored, fun j other hj => ?_, fun j hj => ?_⟩)
      (fun s j hj => ?_) (fun s t h => ⟨h.transactions, ?_, fun j hj => ?_⟩) trivial
    · rw [entry_setEntry_of_ne _ _ _ fun h => hne j hj (congrArg BackupName.index h)]
      exact hs.entries j other hj
    · show Function.update s.target i _ j = _
      rw [Function.update_of_ne (hne j hj)]
      exact hs.targets j hj
    · exact Function.update_of_ne (hne j hj) ..
    · show Function.update s.backups id ((s.backups id).map _) =
        Function.update t.backups id ((t.backups id).map _)
      rw [h.backups]
    · show Function.update s.target i (s.entry id _) j = Function.update t.target i (t.entry id _) j
      by_cases hji : j = i
      · rw [hji, Function.update_self, Function.update_self, h.entry]
      · rw [Function.update_of_ne hji, Function.update_of_ne hji, h.target j hj]
  · trivial

/-! ### Deleting the backups -/

theorem unseen_setEntry {e : SnapshotError} (name : BackupName)
    {g : RestoreDisk δ → Option StoredFile} (hg : ∀ s t, SameKept start s t → g s = g t)
    (hnone : name.deleted = true ∨ ∀ s, g s = none) :
    Unseen start disk id kept S (fun _ => True)
      (Program.durable e fun s => s.setEntry id name (g s)) := by
  refine unseen_backups (fun _ => rfl) (fun _ => rfl) (fun s j suffix _ hj => ?_) fun s t h => ?_
  · by_cases hname : (⟨j, suffix, false⟩ : BackupName) = name
    · rcases hnone with hdeleted | hnone
      · rw [← hname] at hdeleted
        exact nomatch hdeleted
      · rw [hname, hnone, entry_setEntry_none]
    · rw [entry_setEntry_of_ne _ _ _ hname]
      exact hj
  · show Function.update s.backups id _ = Function.update t.backups id _
    rw [h.backups, hg s t h]

theorem unseen_removeTombstone (j : FileIndex) (suffix : BackupSuffix) :
    Unseen start disk id kept S (fun _ => True) (removeTombstone id j suffix) :=
  Program.Blind.bind (unseen_setEntry _ (fun s t h => by rw [h.entry]) (Or.inl rfl)) fun _ _ =>
    unseen_setEntry _ (fun _ _ _ => rfl) (Or.inl rfl)

theorem unseen_removeSensitiveFile (j : FileIndex) (suffix : BackupSuffix) :
    Unseen start disk id kept S (fun _ => True) (removeSensitiveFile id j suffix) := by
  refine Program.Blind.bind (P := fun _ => True) ?_ fun _ _ => ?_
  · refine blind_read (fun s => ?_) fun s t h => by rw [h.entry]
    split
    · exact unseen_removeTombstone j suffix
    · trivial
  · refine blind_read (fun s => ?_) fun s t h => by rw [h.entry]
    split
    · refine Program.Blind.bind (P := fun _ => True) ?_ fun _ _ => unseen_removeTombstone j suffix
      refine unseen_backups (fun _ => rfl) (fun _ => rfl) (fun s l other _ hl => ?_)
        fun s t h => ?_
      · by_cases hname : (⟨l, other, false⟩ : BackupName) = ⟨j, suffix, false⟩
        · rw [hname, entry_setEntry_none]
        · rw [entry_setEntry_of_ne _ _ _ hname, entry_setEntry_of_ne _ _ _ fun h =>
            Bool.false_ne_true (congrArg BackupName.deleted h)]
          exact hl
      · simp only [RestoreDisk.setEntry, h.backups, h.entry]
    · trivial

theorem unseen_removeBackupDirectory :
    Unseen start disk id kept S (fun _ => True) (removeBackupDirectory id) := by
  refine blind_read (fun s => ?_) fun s t h => by rw [h.backups]
  split
  · refine Program.Blind.bind (P := fun _ => True) (blind_forM _ fun file _ =>
      unseen_removeSensitiveFile file.1 file.2) fun _ _ => ?_
    refine blind_read (fun s => ?_) fun s t h => by simp only [h.entry]
    split
    · trivial
    · refine Program.Blind.bind (P := fun _ => True) ?_ fun _ _ =>
        blind_attempt (fun _ _ _ => rfl) trivial
      refine unseen_backups (fun _ => rfl) (fun _ => rfl) (fun s j suffix _ _ => ?_)
        fun s t h => ?_
      · simp [RestoreDisk.entry, RestoreDisk.setDirectory]
      · simp only [RestoreDisk.setDirectory, h.backups]
  · trivial

end Unseen

/-! ## One operation -/

section Operation

variable [DecidableEq δ] {env : RestoreEnvironment δ} {start record : TransactionRecord δ}
  {disk : RestoreDisk δ} {id : String} {kept : FileIndex → RestoreOperation δ → Prop}
  {S : RestoreStatus → Prop} {i : FileIndex}

omit [DecidableEq δ] in
theorem Fits.setOperation (h : Fits start id kept S record) (operation : RestoreOperation δ)
    (hstate : operation.desiredState = (start.operations i).desiredState)
    (hkept : start.Omits i → kept i operation) :
    Fits start id kept S (record.setOperation i operation) := by
  refine ⟨h.ticketId, fun j => ?_, fun j hj => ?_, h.status⟩
  · by_cases hji : j = i
    · rw [hji, operations_setOperation_self]; exact hstate
    · rw [operations_setOperation_of_ne _ _ hji]; exact h.desiredState j
  · by_cases hji : j = i
    · rw [hji] at hj ⊢
      rw [operations_setOperation_self]
      exact hkept hj
    · rw [operations_setOperation_of_ne _ _ hji]; exact h.kept j hj

theorem unseen_checkOriginal (hkept : ¬ start.Omits i) (original : ExpectedFile δ) :
    Unseen start disk id kept S (fun _ => True) (checkOriginal env i original) := by
  refine Program.Blind.bind (unseen_readTarget hkept) fun current _ => ?_
  split
  · trivial
  · trivial

omit [DecidableEq δ] in
theorem unseen_writeStatus (h : Fits start id kept S record) (status : OperationStatus)
    (hkept : start.Omits i → kept i { record.operations i with status := status }) :
    Unseen start disk id kept S (Fits start id kept S) (writeStatus record i status) := by
  have hnext := h.setOperation { record.operations i with status := status }
    (h.desiredState i) hkept
  exact Program.Blind.bind (unseen_writeTransaction hnext) fun _ _ => hnext

theorem unseen_startOperation (h : Fits start id kept S record) (hkept : ¬ start.Omits i) :
    Unseen start disk id kept S (Fits start id kept S) (startOperation env record i) := by
  rw [startOperation]
  split
  · exact Program.Blind.bind (unseen_checkOriginal hkept _) fun _ _ =>
      unseen_writeStatus h _ fun hi => absurd hi hkept
  · exact h

theorem unseen_moveOriginal (hkept : ¬ start.Omits i) (original : ExpectedFile δ) :
    Unseen start disk id kept S (fun _ => True) (moveOriginal env id i original) := by
  refine Program.Blind.bind (unseen_readBackup _ _) fun backup _ => ?_
  split
  · trivial
  · exact Program.Blind.bind (unseen_checkOriginal hkept _) fun _ _ =>
      Program.Blind.bind (unseen_validateBackupDirectory _) fun _ _ =>
        unseen_renameToBackup hkept _

theorem unseen_backUpOriginal (h : Fits start id kept S record) (hkept : ¬ start.Omits i) :
    Unseen start disk id kept S (Fits start id kept S) (backUpOriginal env record i) := by
  have hwrite : Unseen start disk id kept S (Fits start id kept S)
      (writeStatus record i .backedUp) := unseen_writeStatus h _ fun hi => absurd hi hkept
  rw [backUpOriginal, h.ticketId]
  split
  · split
    · refine Program.Blind.bind (unseen_moveOriginal hkept _) fun _ _ =>
        Program.Blind.bind (unseen_validateBackupDirectory _) fun _ _ =>
          Program.Blind.bind (unseen_readBackup _ _) fun backup _ => ?_
      split
      · trivial
      · split
        · trivial
        · exact hwrite
    · refine Program.Blind.bind (unseen_readBackup _ _) fun backup _ => ?_
      split
      · trivial
      · exact hwrite
  · exact h

omit [DecidableEq δ] in
theorem unseen_backedUpOriginal (operation : RestoreOperation δ) :
    Unseen start disk id kept S (fun _ => True) (backedUpOriginal id i operation) := by
  rw [backedUpOriginal]
  split
  · refine Program.Blind.bind (unseen_validateBackupDirectory _) fun _ _ =>
      Program.Blind.bind (unseen_readBackup _ _) fun backup _ => ?_
    split
    · trivial
    · trivial
  · trivial

omit [DecidableEq δ] in
theorem unseen_placeDesired (hkept : ¬ start.Omits i) (desired : DesiredFile) :
    Unseen start disk id kept S (fun _ => True) (placeDesired i desired) := by
  rw [placeDesired]
  split
  · refine Program.Blind.bind (unseen_readTarget hkept) fun current _ => ?_
    split
    · split
      · trivial
      · trivial
    · refine Program.Blind.bind (P := fun _ => True) ?_ fun _ _ => ?_
      · exact Program.Blind.bind (P := fun _ => True)
          (blind_attempt (fun _ _ _ => rfl) trivial) fun _ _ =>
            unseen_setTarget hkept fun _ _ _ => rfl
      · rcases desired.mode with _ | mode
        · trivial
        · exact unseen_setTarget hkept fun s t h => by rw [h.target _ hkept]
  · refine blind_read (fun s => ?_) fun s t h => by rw [h.target _ hkept]
    split
    · trivial
    · trivial

theorem unseen_publishDesired {manifest : SnapshotManifest δ} (h : Fits start id kept S record)
    (hkept : ¬ start.Omits i) :
    Unseen start disk id kept S (Fits start id kept S) (publishDesired env manifest record i) := by
  rw [publishDesired, h.ticketId]
  refine Program.Blind.bind (unseen_backedUpOriginal _) fun current _ =>
    Program.Blind.bind (P := fun _ => True) (blind_ofExcept fun _ _ => trivial)
      fun desired _ => ?_
  split
  · trivial
  · have hnext := h.setOperation (i := i) { record.operations i with
      status := .applied, appliedSha256 := desired.bytes.map env.sha256Hex } (h.desiredState i)
      fun hi => absurd hi hkept
    exact Program.Blind.bind (unseen_placeDesired hkept _) fun _ _ =>
      Program.Blind.bind (unseen_writeTransaction hnext) fun _ _ => hnext

/-- **One operation of an apply sees no omitted file.** -/
theorem unseen_applyOperation {manifest : SnapshotManifest δ}
    (happlied : ∀ i operation, kept i operation → kept i { operation with status := .applied })
    (h : Fits start id kept S record) (i : FileIndex) :
    Unseen start disk id kept S (Fits start id kept S) (applyOperation env manifest record i) := by
  have hstate := h.desiredState i
  rw [applyOperation]
  split
  · refine Program.Blind.bind (P := fun _ => True) ?_ fun _ _ => h
    rw [verifyAppliedOperation]
    split
    · trivial
    · next hnot =>
      rw [hstate] at hnot
      refine Program.Blind.bind (unseen_readTarget hnot) fun current _ => ?_
      split
      · trivial
      · trivial
  · split
    · exact unseen_writeStatus h _ fun hi => happlied i _ (h.kept i hi)
    · next hnot =>
      rw [hstate] at hnot
      exact Program.Blind.bind (unseen_validateBackupDirectory _) fun _ _ =>
        Program.Blind.bind (unseen_startOperation h hnot) fun record₁ h₁ =>
          Program.Blind.bind (unseen_backUpOriginal h₁ hnot) fun record₂ h₂ =>
            unseen_publishDesired h₂ hnot

theorem unseen_moveRollbackDiscard (hkept : ¬ start.Omits i) (expected : Option δ)
    (confirmed : Bool) :
    Unseen start disk id kept S (fun _ => True)
      (moveRollbackDiscard env id i expected confirmed) := by
  refine Program.Blind.bind (unseen_readBackup _ _) fun discarded _ =>
    Program.Blind.bind (unseen_readTarget hkept) fun current _ => ?_
  split
  · trivial
  · split
    · trivial
    · trivial
  · split
    · trivial
    · trivial
  · split
    · exact Program.Blind.bind unseen_ensureBackupDirectory fun _ _ =>
        unseen_renameToBackup hkept _
    · trivial

theorem unseen_restoreOriginal (hkept : ¬ start.Omits i) (operation : RestoreOperation δ) :
    Unseen start disk id kept S (fun _ => True) (restoreOriginal env id i operation) := by
  refine Program.Blind.bind (unseen_readBackup _ _) fun backup _ => ?_
  split
  · split
    · trivial
    · exact Program.Blind.bind (P := fun _ => True)
        (blind_attempt (fun _ _ _ => rfl) trivial) fun _ _ =>
          Program.Blind.bind (unseen_validateBackupDirectory _) fun _ _ =>
            unseen_replaceFromBackup hkept
  · split
    · refine Program.Blind.bind (unseen_readTarget hkept) fun current _ => ?_
      split
      · trivial
      · trivial
    · exact unseen_moveRollbackDiscard hkept _ _

end Operation

end DshNexus.Snapshot
