import DshNexus.Snapshot.RestoreFrames
import DshNexus.Snapshot.OmittedSession

/-!
# Rolling back beside an outside edit

Somebody else has written a policy file while a restore was applying or applied: the file is
neither the recorded original nor what the restore wrote.  A rollback takes the operations
back one by one, in reverse order, and this module follows that one file.

* `spares_rollbackOperation`: to take another operation back does not touch the file.
* `refuses_restoreOriginal`: to take its own operation back fails, where no backup of the
  original replaces the file.
* `rollback_leaves_outside_edit`: the loop keeps the file, and where its operation has been
  started without a backup, the rollback ends with an error.

The operation of a file that is pending, or that an earlier rollback has taken back, is passed
over, so there the edit stays and nobody is told.
-/

namespace DshNexus.Snapshot

open Durable Program

variable {δ : Type}

/-! ## What the other operations do to the file -/

/-- The apply has begun this operation and no rollback has taken it back. -/
def OperationStatus.Started (status : OperationStatus) : Prop :=
  status ≠ .pending ∧ status ≠ .rolledBack

/-- The file `i` is there with this content, and where `kept` holds it has no backup. -/
def Edited (id : String) (i : FileIndex) (file : StoredFile) (kept : Prop)
    (s : RestoreDisk δ) : Prop :=
  s.target i = some file ∧ (kept → s.entry id ⟨i, .original, false⟩ = none)

section Spares

variable {id : String} {i j : FileIndex} {file : StoredFile} {kept : Prop}
  {record : TransactionRecord δ} {s : RestoreDisk δ}

/-- A step that leaves the edited file as it is. -/
def Spares (id : String) (i : FileIndex) (file : StoredFile) (kept : Prop)
    (f : RestoreDisk δ → RestoreDisk δ) : Prop :=
  ∀ s, Edited id i file kept s → Edited id i file kept (f s)

theorem spares_of_readOnly {α : Type} {p : RestoreProgram δ α} (hp : p.ReadOnly) :
    p.StepsIn (Spares id i file kept) fun _ => True :=
  hp.stepsIn fun f hf s hs => by rw [hf s]; exact hs

theorem spares_renameToBackup (hne : j ≠ i) (suffix : BackupSuffix) :
    (renameToBackup id j suffix : RestoreProgram δ Unit).StepsIn (Spares id i file kept)
      fun _ => True := by
  refine (spares_of_readOnly readOnly_read).then fun disk => ?_
  split
  · refine stepsIn_durable fun s hs => ⟨?_, fun hk => ?_⟩
    · exact (Function.update_of_ne hne.symm ..).trans hs.1
    · have hname : (⟨i, .original, false⟩ : BackupName) ≠ ⟨j, suffix, false⟩ := fun h =>
        hne (congrArg BackupName.index h).symm
      show (s.setEntry id ⟨j, suffix, false⟩ (s.target j)).entry id ⟨i, .original, false⟩ = none
      rw [entry_setEntry_of_ne _ _ _ hname]
      exact hs.2 hk
  · exact spares_of_readOnly (readOnly_throw _)

theorem spares_replaceFromBackup (hne : j ≠ i) :
    (replaceFromBackup id j : RestoreProgram δ Unit).StepsIn (Spares id i file kept)
      fun _ => True := by
  refine (spares_of_readOnly readOnly_read).then fun disk => ?_
  split
  · refine stepsIn_durable fun s hs => ⟨?_, fun hk => ?_⟩
    · exact (Function.update_of_ne hne.symm ..).trans hs.1
    · have hname : (⟨i, .original, false⟩ : BackupName) ≠ ⟨j, .original, false⟩ := fun h =>
        hne (congrArg BackupName.index h).symm
      rw [entry_setEntry_of_ne _ _ _ hname]
      exact hs.2 hk
  · exact spares_of_readOnly (readOnly_throw _)

theorem spares_ensureBackupDirectory :
    (ensureBackupDirectory id : RestoreProgram δ Unit).StepsIn (Spares id i file kept)
      fun _ => True := by
  refine (spares_of_readOnly readOnly_read).then fun disk => ?_
  split
  · exact spares_of_readOnly (readOnly_pure _)
  · refine stepsIn_durable fun s hs => ⟨hs.1, fun _ => ?_⟩
    simp [RestoreDisk.entry, RestoreDisk.setDirectory]

theorem spares_writeTransaction (record : TransactionRecord δ) :
    (writeTransaction record).StepsIn (Spares id i file kept) fun _ => True :=
  (spares_of_readOnly (readOnly_ofExcept _)).then fun _ =>
    stepsIn_durable fun _ hs => hs

variable [DecidableEq δ] {env : RestoreEnvironment δ}

theorem spares_moveRollbackDiscard (hne : j ≠ i) (expectedAppliedSha256 : Option δ)
    (confirmedApplied : Bool) :
    (moveRollbackDiscard env id j expectedAppliedSha256 confirmedApplied).StepsIn
      (Spares id i file kept) fun _ => True := by
  refine (spares_of_readOnly (readOnly_readBackup _ _)).then fun discarded => ?_
  refine (spares_of_readOnly (readOnly_readTarget _)).then fun current => ?_
  split
  · trivial
  · split <;> trivial
  · split <;> trivial
  · split
    · exact spares_ensureBackupDirectory.then fun _ => spares_renameToBackup hne _
    · trivial

theorem spares_restoreOriginal (hne : j ≠ i) (operation : RestoreOperation δ) :
    (restoreOriginal env id j operation).StepsIn (Spares id i file kept) fun _ => True := by
  refine (spares_of_readOnly (readOnly_readBackup _ _)).then fun backup => ?_
  split
  · split
    · trivial
    · refine (spares_of_readOnly (readOnly_attempt _)).then fun _ => ?_
      exact (spares_of_readOnly (readOnly_validateBackupDirectory _)).then fun _ =>
        spares_replaceFromBackup hne
  · split
    · refine (spares_of_readOnly (readOnly_readTarget _)).then fun current => ?_
      split <;> trivial
    · exact spares_moveRollbackDiscard hne _ _

theorem spares_rollbackOperation (hid : record.ticket.ticketId = id) (hne : j ≠ i) :
    (rollbackOperation env record j).StepsIn (Spares id i file kept) fun record' =>
      record'.ticket.ticketId = id ∧ record'.operations i = record.operations i := by
  rw [rollbackOperation]
  split
  · exact ⟨hid, rfl⟩
  · rw [hid]
    refine (spares_restoreOriginal hne _).then fun _ => ?_
    refine Program.StepsIn.then (spares_writeTransaction _) fun _ => ⟨hid, ?_⟩
    exact operations_setOperation_of_ne record _ hne.symm

end Spares

/-! ## What its own operation does to the file -/

section Refuses

variable [DecidableEq δ] {env : RestoreEnvironment δ} {id : String} {i : FileIndex}
  {file : StoredFile} {operation : RestoreOperation δ} {s : RestoreDisk δ}

/-- The file is neither the original of the operation nor what the operation wrote. -/
structure Foreign (env : RestoreEnvironment δ) (operation : RestoreOperation δ)
    (file : StoredFile) : Prop where
  original : matchesExpected env.sha256Hex (some file.bytes) operation.original = false
  desired : operation.desiredSha256 ≠ some (env.sha256Hex file.bytes)
  applied : operation.appliedSha256 ≠ some (env.sha256Hex file.bytes)

/-- **The comparison that precedes every change**: without a backup, a foreign file is found
and the operation is not taken back. -/
theorem refuses_restoreOriginal (hforeign : Foreign env operation file)
    (hedited : Edited id i file True s) :
    (restoreOriginal env id i operation).wp (fun _ _ => False) (fun _ => Edited id i file True)
      (Edited id i file True) s := by
  rw [restoreOriginal, wp_bind]
  refine wp_readBackup ?_ fun _ => hedited
  rw [hedited.2 trivial]
  show (if operation.original.present = true then _ else _ : RestoreProgram δ Unit).wp _ _ _ s
  split
  · -- the original was there: the file must be it
    rw [wp_bind]
    refine wp_readTarget ?_ fun _ => hedited
    rw [hedited.1, Option.map_some, if_pos hforeign.original]
    exact hedited
  · -- it was not there: the file must be what the restore wrote
    have hexpected : (if operation.status = .backedUp then operation.desiredSha256
        else operation.appliedSha256) ≠ some (env.sha256Hex file.bytes) := by
      split
      · exact hforeign.desired
      · exact hforeign.applied
    rw [moveRollbackDiscard, wp_bind]
    refine wp_readBackup ?_ fun _ => hedited
    rw [wp_bind]
    refine wp_readTarget ?_ fun _ => hedited
    rw [hedited.1]
    rcases hdiscard : s.entry id ⟨i, .discarded, false⟩ with _ | discard
    · show (if _ then _ else _ : RestoreProgram δ Unit).wp _ _ _ s
      rw [if_neg hexpected]
      exact hedited
    · exact hedited

end Refuses

/-! ## The loop and the call -/

section Rollback

variable [DecidableEq δ] {env : RestoreEnvironment δ} {ticket : RestoreTicket δ} {id : String}
  {i : FileIndex} {file : StoredFile} {record : TransactionRecord δ} {s : RestoreDisk δ}

/-- The state of the loop: the operation of the file is as it was, the file too, and an
operation that has been started is still to come. -/
structure Sparing (id : String) (i : FileIndex) (file : StoredFile)
    (operation : RestoreOperation δ) (xs : List FileIndex) (record : TransactionRecord δ)
    (s : RestoreDisk δ) : Prop where
  ticketId : record.ticket.ticketId = id
  untaken : record.operations i = operation
  edited : Edited id i file operation.status.Started s
  ahead : operation.status.Started → i ∈ xs

theorem wp_rollbackOperation_sparing {operation : RestoreOperation δ} {x : FileIndex}
    {xs : List FileIndex} (hforeign : Foreign env operation file)
    (h : Sparing id i file operation (x :: xs) record s) :
    (rollbackOperation env record x).wp (fun record' s' => Sparing id i file operation xs record' s')
      (fun _ => Edited id i file operation.status.Started)
      (Edited id i file operation.status.Started) s := by
  by_cases hx : x = i
  · subst hx
    rw [rollbackOperation, h.untaken, h.ticketId]
    split
    · next hstatus =>
      have hnot : ¬ operation.status.Started := fun hs => hstatus.elim hs.1 hs.2
      exact ⟨h.ticketId, h.untaken, h.edited, fun hs => absurd hs hnot⟩
    · next hstatus =>
      have hs : operation.status.Started := not_or.mp hstatus
      have hedited : Edited id x file True s := ⟨h.edited.1, fun _ => h.edited.2 hs⟩
      have hweaken : ∀ s' : RestoreDisk δ, Edited id x file True s' →
          Edited id x file operation.status.Started s' := fun s' hs' =>
        ⟨hs'.1, fun _ => hs'.2 trivial⟩
      rw [wp_bind]
      exact wp_mono (fun _ _ hfalse => hfalse.elim) (fun _ => hweaken) hweaken
        (refuses_restoreOriginal hforeign hedited)
  · have hsteps : (rollbackOperation env record x).StepsIn
        (Spares id i file operation.status.Started) fun record' =>
          record'.ticket.ticketId = id ∧ record'.operations i = record.operations i :=
      spares_rollbackOperation h.ticketId hx
    refine wp_imp ?_ (hsteps.wp h.edited)
    rintro record' s' ⟨⟨hid, hop⟩, hedited⟩
    refine ⟨hid, hop.trans h.untaken, hedited, fun hs => ?_⟩
    exact (List.mem_cons.mp (h.ahead hs)).resolve_left (Ne.symm hx)

theorem wp_rollbackRecord_sparing (hid : record.ticket.ticketId = id)
    (hforeign : Foreign env (record.operations i) file)
    (hedited : Edited id i file (record.operations i).status.Started s) :
    (rollbackRecord env record).wp
      (fun _ s' => s'.target i = some file ∧ ¬ (record.operations i).status.Started)
      (fun _ s' => s'.target i = some file) (fun s' => s'.target i = some file) s := by
  have hloop := wp_foldlM (g := rollbackOperation env)
    (I := Sparing id i file (record.operations i))
    (fun x xs _ _ h => wp_rollbackOperation_sparing hforeign h)
    (List.finRange 7).reverse record s
    ⟨hid, rfl, hedited, fun _ => List.mem_reverse.mpr (List.mem_finRange i)⟩
  have hrest : ∀ record₁ : TransactionRecord δ,
      (do removeBackupDirectory record₁.ticket.ticketId; finishRollback record₁ :
        RestoreProgram δ RestoreOutcome).Within SameTargets := fun record₁ =>
    sameTargets_bind (within_removeBackups _) fun _ =>
      sameTargets_bind (within_writeTransaction _) fun _ =>
        sameTargets_of_readOnly (readOnly_pure _)
  rw [rollbackRecord, wp_bind]
  refine wp_mono (fun record₁ s₁ h₁ => ?_) (fun _ _ h => h.1) (fun _ h => h.1) hloop
  have hnot : ¬ (record.operations i).status.Started := fun hs =>
    absurd (h₁.ahead hs) List.not_mem_nil
  have hkept : ∀ s', SameTargets s₁ s' → s'.target i = some file := fun s' hs' => by
    rw [hs']; exact h₁.edited.1
  exact wp_mono (fun _ s' hs' => ⟨hkept s' hs', hnot⟩) (fun _ => hkept) hkept
    (hrest record₁ s₁)

end Rollback

/-! ## Edits of a restored profile -/

def writeOutside (i : FileIndex) (s : RestoreDisk Bytes) : RestoreDisk Bytes :=
  s.setTarget i (some ⟨ascii "mine", 0o644⟩)

/-- A restore that stopped while it wrote file 3, and an edit of a file by somebody else. -/
def stoppedAndEdited (i : FileIndex) : RestoreDisk Bytes :=
  writeOutside i (twoFilesSession [(.apply, stopsAtThirdFile)])

/-- A profile with file 5, which the snapshot does not have: the restore has set it aside, and
somebody has written it again. -/
def restoredAndEdited : RestoreDisk Bytes :=
  writeOutside 5 (restoreSession twoFilesEnvironment twoFilesTicket "manual-1" 0 [] [(.apply, [])]
    (emptyProfile.setTarget 5 (some ⟨ascii "old", 0o644⟩)))

end DshNexus.Snapshot
