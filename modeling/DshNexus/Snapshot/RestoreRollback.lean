import DshNexus.Snapshot.RestoreApply

/-!
# Rolling a restore back, and committing it

The step lemma of a rollback, `wp_rollbackOperation`, takes one operation back; the run
lemma, `wp_rollbackRestore`, is the loop over the operations in reverse order, the deletion
of the backups and the last record.  `returns_rollbackRestore` adds that without faults the
rollback does end, as long as no file has both been set aside and been written again.

A commit asks the files nothing: `wp_commitRestore` needs every desired content to be in
place.
-/

namespace DshNexus.Snapshot

open Durable Program

variable {δ : Type} {env : RestoreEnvironment δ} {plan : RestorePlan}
  {clash : Prop} {id : String} {i : FileIndex} {record : TransactionRecord δ}
  {s : RestoreDisk δ}

/-! ## Deleting the backups -/

/-- The backups of a ticket have been deleted in part: nothing else has changed. -/
structure Shrinks (id : String) (s s' : RestoreDisk δ) : Prop where
  transactions : s'.transactions = s.transactions
  target : s'.target = s.target
  original : ∀ i, (s'.cell id i).original = (s.cell id i).original ∨
    (s'.cell id i).original = none
  discarded : ∀ i, (s'.cell id i).discarded = (s.cell id i).discarded ∨
    (s'.cell id i).discarded = none

theorem Shrinks.refl (id : String) (s : RestoreDisk δ) : Shrinks id s s :=
  ⟨rfl, rfl, fun _ => Or.inl rfl, fun _ => Or.inl rfl⟩

theorem Shrinks.trans {s' s'' : RestoreDisk δ} (h : Shrinks id s s') (h' : Shrinks id s' s'') :
    Shrinks id s s'' where
  transactions := h'.transactions.trans h.transactions
  target := h'.target.trans h.target
  original i := by
    rcases h'.original i with h₁ | h₁
    · rw [h₁]; exact h.original i
    · exact Or.inr h₁
  discarded i := by
    rcases h'.discarded i with h₁ | h₁
    · rw [h₁]; exact h.discarded i
    · exact Or.inr h₁

theorem Shrinks.of_cell {s' : RestoreDisk δ} (htrans : s'.transactions = s.transactions)
    (htarget : s'.target = s.target) (hcell : ∀ i, s'.cell id i = s.cell id i) :
    Shrinks id s s' :=
  ⟨htrans, htarget, fun i => Or.inl (by rw [hcell i]), fun i => Or.inl (by rw [hcell i])⟩

theorem Shrinks.setEntry_none (s : RestoreDisk δ) (name : BackupName) :
    Shrinks id s (s.setEntry id name none) where
  transactions := rfl
  target := rfl
  original i := by
    by_cases h : (⟨i, .original, false⟩ : BackupName) = name
    · right; simp [RestoreDisk.cell, h, entry_setEntry_none]
    · left; simp [RestoreDisk.cell, entry_setEntry_of_ne _ _ _ h]
  discarded i := by
    by_cases h : (⟨i, .discarded, false⟩ : BackupName) = name
    · right; simp [RestoreDisk.cell, h, entry_setEntry_none]
    · left; simp [RestoreDisk.cell, entry_setEntry_of_ne _ _ _ h]

theorem Shrinks.setDirectory_none (s : RestoreDisk δ) : Shrinks id s (s.setDirectory id none) where
  transactions := rfl
  target := rfl
  original i := Or.inr (by simp [RestoreDisk.cell, RestoreDisk.entry, RestoreDisk.setDirectory])
  discarded i := Or.inr (by simp [RestoreDisk.cell, RestoreDisk.entry, RestoreDisk.setDirectory])

theorem within_removeTombstone (suffix : BackupSuffix) :
    (removeTombstone id i suffix : RestoreProgram δ Unit).Within (Shrinks id) := by
  refine Program.Within.bind (R := Shrinks id) Shrinks.trans
    (within_durable (R := Shrinks id) (.refl id) fun s => ?_)
    fun _ => within_durable (R := Shrinks id) (.refl id) fun s => ?_
  · exact .of_cell rfl rfl fun j => cell_setEntry_deleted ..
  · exact .setEntry_none s _

theorem within_removeSensitiveFile (suffix : BackupSuffix) :
    (removeSensitiveFile id i suffix : RestoreProgram δ Unit).Within (Shrinks id) := by
  refine Program.Within.bind (R := Shrinks id) Shrinks.trans (fun s => ?_) fun _ s => ?_
  · rw [clearTombstone, wp_bind, wp_read]
    split
    · exact within_removeTombstone suffix s
    · exact .refl id s
  · rw [buryFile, wp_bind, wp_read]
    split
    · refine Program.Within.bind (R := Shrinks id) Shrinks.trans
        (within_durable (R := Shrinks id) (.refl id) fun s => ?_) (fun _ => within_removeTombstone suffix) s
      have htomb : Shrinks id s
          (s.setEntry id ⟨i, suffix, true⟩ (s.entry id ⟨i, suffix, false⟩)) :=
        .of_cell rfl rfl fun j => cell_setEntry_deleted ..
      exact htomb.trans (.setEntry_none _ _)
    · exact .refl id s

theorem within_removeBackupDirectory (id : String) :
    (removeBackupDirectory id : RestoreProgram δ Unit).Within (Shrinks id) := by
  intro s
  rw [removeBackupDirectory, wp_bind, wp_read]
  split
  · refine Program.Within.bind (R := Shrinks id) Shrinks.trans
      (within_forM (R := Shrinks id) (.refl id) Shrinks.trans
        (fun file : FileIndex × BackupSuffix => within_removeSensitiveFile file.2) _)
      (fun _ s₁ => ?_) s
    rw [wp_bind, wp_read]
    split
    · exact .refl id s₁
    · have hgone : Shrinks id s₁ (s₁.setDirectory id none) := .setDirectory_none s₁
      rw [wp_bind, wp_durable, wp_attempt]
      exact ⟨.refl id s₁, hgone, ⟨hgone, hgone, hgone⟩, .refl id s₁, hgone⟩
  · exact .refl id s

theorem Holding.shrink {s' : RestoreDisk δ} (h : Holding env plan clash id record s)
    (hsettled : ∀ i, (record.operations i).status = .pending ∨
      (record.operations i).status = .rolledBack) (hs : Shrinks id s s') :
    Holding env plan clash id record s' where
  stored := by rw [hs.transactions]; exact h.stored
  describes := h.describes
  files i := ((h.files i).settled (hsettled i)).2 (s'.cell id i)
    (by simp only [RestoreDisk.cell, hs.target]) (hs.original i) (hs.discarded i)

/-! ### Without faults the directory goes -/

/-- No file of the backup directory is left at a name or at its tombstone. -/
def Cleared (id : String) (file : FileIndex × BackupSuffix) (s : RestoreDisk δ) : Prop :=
  ∀ deleted, s.entry id ⟨file.1, file.2, deleted⟩ = none

theorem returns_removeTombstone {Q : Unit → RestoreDisk δ → Prop} {suffix : BackupSuffix}
    (hQ : ∀ s', s'.entry id ⟨i, suffix, true⟩ = none →
      (∀ name, name ≠ ⟨i, suffix, true⟩ → s'.entry id name = s.entry id name) → Q () s') :
    (removeTombstone id i suffix).returns Q s := by
  rw [removeTombstone, returns_bind, returns_durable, returns_durable]
  refine hQ _ (entry_setEntry_none ..) fun name hne => ?_
  rw [entry_setEntry_of_ne _ _ _ hne, entry_setEntry_of_ne _ _ _ hne]

theorem returns_removeSensitiveFile (file : FileIndex × BackupSuffix) (s : RestoreDisk δ) :
    (removeSensitiveFile id file.1 file.2).returns (fun _ s' => Cleared id file s' ∧
      ∀ other, other ≠ file → Cleared id other s → Cleared id other s') s := by
  have hbury : ∀ s₁ : RestoreDisk δ, s₁.entry id ⟨file.1, file.2, true⟩ = none →
      (buryFile id file.1 file.2).returns (fun _ s' => Cleared id file s' ∧
        ∀ other, other ≠ file → Cleared id other s₁ → Cleared id other s') s₁ := by
    intro s₁ htomb
    rw [buryFile, returns_bind, returns_read]
    split
    · next hfile =>
      rw [returns_bind, returns_durable]
      refine returns_removeTombstone fun s' hgone hrest => ⟨?_, fun other hne hother deleted => ?_⟩
      · rintro (_ | _)
        · rw [hrest _ (by simp)]
          exact entry_setEntry_none ..
        · exact hgone
      · have hname : ∀ d, (⟨other.1, other.2, deleted⟩ : BackupName) ≠ ⟨file.1, file.2, d⟩ :=
          fun d h => hne (Prod.ext (congrArg BackupName.index h) (congrArg BackupName.suffix h))
        rw [hrest _ (hname true), entry_setEntry_of_ne _ _ _ (hname false),
          entry_setEntry_of_ne _ _ _ (hname true)]
        exact hother deleted
    · next hfile =>
      refine ⟨?_, fun other _ hother => hother⟩
      rintro (_ | _)
      · simpa using hfile
      · exact htomb
  rw [removeSensitiveFile, returns_bind, clearTombstone, returns_bind,
    returns_read]
  split
  · next htomb =>
    refine returns_removeTombstone fun s₁ hgone hrest => returns_mono ?_ (hbury s₁ hgone)
    rintro _ s' ⟨hfile, hothers⟩
    refine ⟨hfile, fun other hne hother => hothers other hne fun deleted => ?_⟩
    have hname : (⟨other.1, other.2, deleted⟩ : BackupName) ≠ ⟨file.1, file.2, true⟩ :=
      fun h => hne (Prod.ext (congrArg BackupName.index h) (congrArg BackupName.suffix h))
    rw [hrest _ hname]
    exact hother deleted
  · next htomb => exact hbury s (by simpa using htomb)

theorem mem_backupFiles (file : FileIndex × BackupSuffix) : file ∈ backupFiles := by
  obtain ⟨i, suffix⟩ := file
  rw [backupFiles, List.mem_flatMap]
  exact ⟨i, List.mem_finRange i, by cases suffix <;> simp⟩

theorem returns_removeBackupDirectory (id : String) (s : RestoreDisk δ) :
    (removeBackupDirectory id).returns (fun _ _ => True) s := by
  rw [removeBackupDirectory, returns_bind, returns_read]
  split
  · have hloop := returns_forM
      (g := fun file : FileIndex × BackupSuffix =>
        (removeSensitiveFile id file.1 file.2 : RestoreProgram δ Unit))
      (I := fun xs s' => ∀ file, file ∉ xs → Cleared id file s')
      (fun x xs s₁ h₁ => returns_mono (by
        rintro _ s' ⟨hfile, hothers⟩ file hmem
        by_cases hx : file = x
        · rw [hx]; exact hfile
        · exact hothers file hx (h₁ file (by simp [hx, hmem])))
        (returns_removeSensitiveFile x s₁))
      backupFiles s fun file hmem => absurd (mem_backupFiles file) hmem
    rw [returns_bind]
    refine returns_mono (fun _ s₁ h₁ => ?_) hloop
    have hempty : backupFiles.any (fun file => (s₁.entry id ⟨file.1, file.2, false⟩).isSome ||
        (s₁.entry id ⟨file.1, file.2, true⟩).isSome) = false := by
      rw [List.any_eq_false]
      intro file _
      rw [h₁ file List.not_mem_nil, h₁ file List.not_mem_nil]
      decide
    rw [returns_bind, returns_read, hempty]
    trivial
  · trivial

/-! ## Taking one operation back -/

variable [DecidableEq δ]

/-- A file that was not there before moves aside, once. -/
theorem wp_moveRollbackDiscard {Q : Unit → RestoreDisk δ → Prop}
    {expectedAppliedSha256 : Option δ} {confirmedApplied : Bool}
    (h : Holding env plan clash id record s) (hwork : InProgress record)
    (horig : plan.orig i = none) (horiginal : (s.cell id i).original = none)
    (hQ : ∀ s', Holding env plan clash id record s' → Worked id i record s record s' →
      (s'.cell id i).target = plan.orig i → (s'.cell id i).original = none → Q () s') :
    (moveRollbackDiscard env id i expectedAppliedSha256 confirmedApplied).wp Q
      (fun _ => Sound env plan clash id) (Sound env plan clash id) s := by
  have hsound := h.sound hwork
  have hfile := h.files i
  rw [moveRollbackDiscard, wp_bind]
  refine wp_readBackup ?_ fun _ => hsound
  rw [wp_bind]
  refine wp_readTarget ?_ fun _ => hsound
  split
  · exact hsound
  · next ht _ =>
    split
    · exact hQ s h (Worked.refl ..) (by simp [RestoreDisk.cell, ht, horig]) horiginal
    · exact hsound
  · next ht _ =>
    split
    · exact hsound
    · exact hQ s h (Worked.refl ..) (by simp [RestoreDisk.cell, ht, horig]) horiginal
  · next file ht hd =>
    split
    · next hsha =>
      have htarget : (s.cell id i).target = some file.bytes := by simp [RestoreDisk.cell, ht]
      have hplaced : s.cell id i = ⟨plan.want i, plan.orig i, none⟩ ∧
          ((record.operations i).status = .backedUp ∨
            (record.operations i).status = .applied) ∧ plan.state i ≠ .omitted := by
        cases hfile with
        | home hcell => rw [hcell, horig] at htarget; exact absurd htarget (by simp)
        | away hcell => rw [hcell] at htarget; exact absurd htarget (by simp)
        | placed hcell hst hkept => exact ⟨hcell, hst, hkept⟩
        | withdrawn hcell => rw [hcell] at htarget; exact absurd htarget (by simp)
        | doubled hcell _ _ _ hwant =>
          have hnone : (s.cell id i).discarded = none := by simp [RestoreDisk.cell, hd]
          rw [hcell] at hnone
          simp only at hnone
          rw [hnone] at hwant
          exact absurd hwant (by simp)
      have hwant : plan.want i = some file.bytes := by rw [← htarget, hplaced.1]
      have hmove : ∀ s₁ : RestoreDisk δ, s₁.transactions = s.transactions →
          s₁.target = s.target → (∀ j, s₁.cell id j = s.cell id j) →
          (s₁.backups id).isSome = true → Sound env plan clash id s₁ →
          (renameToBackup id i .discarded).wp Q (fun _ => Sound env plan clash id)
            (Sound env plan clash id) s₁ := by
        intro s₁ htrans₁ htarget₁ hcell₁ hdir hsound₁
        have hcell : ((s₁.setEntry id ⟨i, .discarded, false⟩ (s₁.target i)).setTarget i
            none).cell id i = ⟨none, none, plan.want i⟩ := by
          rw [cell_setTarget_self, cell_setEntry_discarded _ _ hdir, hcell₁, hplaced.1,
            htarget₁, ht, horig, hwant]
          rfl
        have hothers : ∀ j, j ≠ i → ((s₁.setEntry id ⟨i, .discarded, false⟩
            (s₁.target i)).setTarget i none).cell id j = s.cell id j := fun j hj => by
          rw [cell_setTarget_of_ne _ _ _ hj, cell_setEntry_of_ne _ _ _ _ _ hj, hcell₁]
        have hnext : Holding env plan clash id record ((s₁.setEntry id ⟨i, .discarded, false⟩
            (s₁.target i)).setTarget i none) :=
          h.change htrans₁ hothers (.withdrawn hcell (hplaced.2.1.imp_right Or.inl)
            hplaced.2.2 horig (by rw [hwant]; rfl))
        rw [renameToBackup, wp_bind, wp_read]
        split
        · rw [wp_durable]
          exact ⟨hsound₁, hnext.sound hwork, hQ _ hnext (Worked.of_disk record hothers)
            (by rw [hcell, horig]) (by rw [hcell]), hsound₁, hnext.sound hwork⟩
        · exact hsound₁
      rw [wp_bind, ensureBackupDirectory, wp_bind, wp_read]
      split
      · next hdir => exact hmove s rfl rfl (fun _ => rfl) hdir hsound
      · next hdir =>
        have hcell : ∀ j, (s.setDirectory id (some fun _ => none)).cell id j = s.cell id j :=
          cell_createDirectory (by simpa using hdir)
        have hholding₁ : Holding env plan clash id record
            (s.setDirectory id (some fun _ => none)) :=
          h.change rfl (fun j _ => hcell j) (by rw [hcell i]; exact hfile)
        have hsound₁ := hholding₁.sound hwork
        rw [wp_durable]
        exact ⟨hsound, hsound₁, hmove _ rfl rfl hcell (by simp [RestoreDisk.setDirectory])
          hsound₁, hsound, hsound₁⟩
    · exact hsound

/-- The files of one operation are as they were before it. -/
theorem wp_restoreOriginal {Q : Unit → RestoreDisk δ → Prop}
    (h : Holding env plan clash id record s) (hwork : InProgress record)
    (hQ : ∀ s', Holding env plan clash id record s' → Worked id i record s record s' →
      (s'.cell id i).target = plan.orig i → (s'.cell id i).original = none → Q () s') :
    (restoreOriginal env id i (record.operations i)).wp Q (fun _ => Sound env plan clash id)
      (Sound env plan clash id) s := by
  have hsound := h.sound hwork
  have hop := h.describes.operations i
  have hfile := h.files i
  rw [restoreOriginal, wp_bind]
  refine wp_readBackup ?_ fun _ => hsound
  split
  · next backup hb =>
    have horiginal : (s.cell id i).original = some backup.bytes := by simp [RestoreDisk.cell, hb]
    split
    · exact hsound
    · next hmatch =>
      have hbytes : some backup.bytes = plan.orig i := by
        rw [Bool.not_eq_false, hop.original,
          matchesExpected_expectedFile env.sha256Hex_injective] at hmatch
        exact hmatch
      have hpresent : (s.entry id ⟨i, .original, false⟩).isSome = true := by rw [hb]; rfl
      have hdir : (s.backups id).isSome = true := backups_isSome_of_entry hpresent
      have hdiscarded : (s.cell id i).discarded = none := by
        cases hfile with
        | home hcell => rw [hcell]
        | away hcell => rw [hcell]
        | placed hcell => rw [hcell]
        | withdrawn hcell => rw [hcell] at horiginal; exact absurd horiginal (by simp)
        | doubled hcell => rw [hcell] at horiginal; exact absurd horiginal (by simp)
      have hcell : ((s.setTarget i (s.entry id ⟨i, .original, false⟩)).setEntry id
          ⟨i, .original, false⟩ none).cell id i = ⟨plan.orig i, none, none⟩ := by
        have hdir' : ((s.setTarget i (s.entry id ⟨i, .original, false⟩)).backups id).isSome =
          true := hdir
        rw [cell_setEntry_original _ _ hdir', cell_setTarget_self, hb, ← hbytes]
        exact congrArg (FileCell.mk _ _) hdiscarded
      have hothers : ∀ j, j ≠ i → ((s.setTarget i (s.entry id ⟨i, .original, false⟩)).setEntry id
          ⟨i, .original, false⟩ none).cell id j = s.cell id j := fun j hj => by
        rw [cell_setEntry_of_ne _ _ _ _ _ hj, cell_setTarget_of_ne _ _ _ hj]
      have hnext : Holding env plan clash id record ((s.setTarget i
          (s.entry id ⟨i, .original, false⟩)).setEntry id ⟨i, .original, false⟩ none) :=
        h.change rfl hothers (.home hcell fun _ => Or.inl (by rw [← hbytes]; rfl))
      rw [wp_bind, wp_attempt]
      refine ⟨hsound, ?_, hsound⟩
      rw [wp_bind]
      refine (readOnly_validateBackupDirectory _).wp (fun _ => ?_) (fun _ => hsound) hsound
      rw [replaceFromBackup, wp_bind, wp_read, if_pos hpresent, wp_durable]
      exact ⟨hsound, hnext.sound hwork, hQ _ hnext (Worked.of_disk record hothers)
        (by rw [hcell]) (by rw [hcell]), hsound, hnext.sound hwork⟩
  · next hb =>
    have horiginal : (s.cell id i).original = none := by simp [RestoreDisk.cell, hb]
    split
    · next hpresent =>
      rw [wp_bind]
      refine wp_readTarget ?_ fun _ => hsound
      split
      · exact hsound
      · next hmatch =>
        rw [Bool.not_eq_false, hop.original,
          matchesExpected_expectedFile env.sha256Hex_injective] at hmatch
        exact hQ s h (Worked.refl ..) hmatch horiginal
    · next hpresent =>
      have horig : plan.orig i = none := by
        rw [hop.original_present] at hpresent
        simpa using hpresent
      exact wp_moveRollbackDiscard h hwork horig horiginal hQ

/-- **One operation of a rollback.**  The operation ends as pending or rolled back, and
every cut of it is sound. -/
theorem wp_rollbackOperation (h : Holding env plan clash id record s)
    (hwork : InProgress record) :
    (rollbackOperation env record i).wp
      (fun record' s' => Holding env plan clash id record' s' ∧ InProgress record' ∧
        Worked id i record s record' s' ∧ ((record'.operations i).status = .pending ∨
          (record'.operations i).status = .rolledBack))
      (fun _ => Sound env plan clash id) (Sound env plan clash id) s := by
  have hop := h.describes.operations i
  rw [rollbackOperation]
  split
  · next hsettled => exact ⟨h, hwork, Worked.refl .., hsettled⟩
  · next hsettled =>
    rw [wp_bind, ticketId_of_findRecord h.stored]
    refine wp_restoreOriginal h hwork fun s' hrestored hworked htarget horiginal => ?_
    rw [wp_bind]
    refine wp_writeOperation hrestored hwork
      ⟨hop.original, hop.desiredState, hop.desiredSha256, (if_neg (fun h => nomatch h)).symm⟩
      ((hrestored.files i).rolledBack_of_target htarget horiginal)
      (Or.inr (Or.inr rfl)) fun hnext hworked' => ?_
    rw [wp_pure]
    exact ⟨hnext, hwork.setOperation (Or.inr (Or.inr rfl)), hworked.trans hworked',
      Or.inr (by rw [operations_setOperation_self])⟩

def RollingBack (env : RestoreEnvironment δ) (plan : RestorePlan) (clash : Prop) (id : String)
    (todo : List FileIndex) (record : TransactionRecord δ) (s : RestoreDisk δ) : Prop :=
  Holding env plan clash id record s ∧ InProgress record ∧
    ∀ j, j ∉ todo → (record.operations j).status = .pending ∨
      (record.operations j).status = .rolledBack

theorem wp_rollbackOperation_rollingBack {x : FileIndex} {xs : List FileIndex}
    (h : RollingBack env plan clash id (x :: xs) record s) :
    (rollbackOperation env record x).wp (RollingBack env plan clash id xs)
      (fun _ => Sound env plan clash id) (Sound env plan clash id) s := by
  obtain ⟨hholding, hwork, hdone⟩ := h
  refine wp_imp ?_ (wp_rollbackOperation hholding hwork)
  rintro record' s' ⟨hnext, hwork', hworked, hx⟩
  refine ⟨hnext, hwork', fun j hj => ?_⟩
  by_cases hjx : j = x
  · rw [hjx]; exact hx
  · rw [(hworked.others j hjx).1]
    exact hdone j (by simp [hjx, hj])

theorem wp_rollbackOperations (h : Holding env plan clash id record s)
    (hwork : InProgress record) :
    ((List.finRange 7).reverse.foldlM (rollbackOperation env) record).wp
      (RollingBack env plan clash id []) (fun _ => Sound env plan clash id)
      (Sound env plan clash id) s :=
  wp_foldlM (I := RollingBack env plan clash id)
    (fun _ _ _ _ h => wp_rollbackOperation_rollingBack h) _ record s
    ⟨h, hwork, fun j hj => absurd (List.mem_reverse.mpr (List.mem_finRange j)) hj⟩

omit [DecidableEq δ] in
theorem wp_finishRollback (h : Holding env plan clash id record s)
    (hsettled : ∀ i, (record.operations i).status = .pending ∨
      (record.operations i).status = .rolledBack)
    (hsound : Sound env plan clash id s) :
    (finishRollback record).wp
      (fun result s' => Sound env plan clash id s' ∧ Reports id .rolledBack result s')
      (fun _ => Sound env plan clash id) (Sound env plan clash id) s := by
  have hnext := h.writeStatus .rolledBack false
  have hlast : Sound env plan clash id
      (s.writeRecord { record with status := .rolledBack, materializationPending := false }) :=
    ⟨_, hnext.stored, hnext.describes, fun i => ((h.files i).settled (hsettled i)).1⟩
  rw [finishRollback, wp_bind]
  exact wp_writeTransaction ⟨hlast, _, hnext.stored, rfl, rfl⟩ (fun _ => ⟨hsound, hlast⟩)
    ⟨hsound, hlast⟩

theorem wp_rollbackRecord (h : Holding env plan clash id record s) (hwork : InProgress record) :
    (rollbackRecord env record).wp
      (fun result s' => Sound env plan clash id s' ∧ Reports id .rolledBack result s')
      (fun _ => Sound env plan clash id) (Sound env plan clash id) s := by
  rw [rollbackRecord, wp_bind]
  refine wp_imp ?_ (wp_rollbackOperations h hwork)
  rintro record₁ s₁ ⟨h₁, hwork₁, hdone⟩
  have hsettled := fun i => hdone i List.not_mem_nil
  have hshrunk : ∀ s₂, Shrinks id s₁ s₂ → Sound env plan clash id s₂ := fun s₂ hs =>
    (h₁.shrink hsettled hs).sound hwork₁
  rw [wp_bind, ticketId_of_findRecord h₁.stored]
  exact wp_mono
    (fun _ s₂ hs => wp_finishRollback (h₁.shrink hsettled hs) hsettled (hshrunk s₂ hs))
    (fun _ => hshrunk) hshrunk (within_removeBackupDirectory id s₁)

omit [DecidableEq δ] in
theorem Sound.shrink {s' : RestoreDisk δ} (hfind : findRecord id s.transactions = some record)
    (hdescribes : plan.Describes env record)
    (hinv : ∀ s', (∀ i, (s'.cell id i).target = (s.cell id i).target) →
      StatusInvariant env plan clash id record s')
    (hs : Shrinks id s s') : Sound env plan clash id s' := by
  refine ⟨record, by rw [hs.transactions]; exact hfind, hdescribes, hinv s' fun i => ?_⟩
  simp only [RestoreDisk.cell, hs.target]

/-- **Every cut of a rollback is sound.** -/
theorem wp_rollbackRestore {ticket : RestoreTicket δ}
    (h : Sound env plan clash ticket.ticketId s) :
    (rollbackRestore env ticket).wp
      (fun result s' => Sound env plan clash ticket.ticketId s' ∧
        Reports ticket.ticketId .rolledBack result s')
      (fun _ => Sound env plan clash ticket.ticketId) (Sound env plan clash ticket.ticketId) s := by
  rw [rollbackRestore, wp_bind]
  refine wp_readMatchingTransaction (fun record hfind _ => ?_) (fun _ => h)
  obtain ⟨hdescribes, hinv⟩ := h.of_stored hfind
  rcases hs : record.status with _ | _ | _ | _ | _ | _ <;> rw [StatusInvariant, hs] at hinv
  · exact wp_finishRollback hinv.1 (fun i => Or.inl (hinv.2 i)) h
  · exact wp_rollbackRecord hinv (Or.inl hs)
  · exact wp_rollbackRecord hinv.1 (Or.inr ⟨hs, hinv.2⟩)
  · exact h
  · exact h
  · have hshrunk : ∀ s', Shrinks ticket.ticketId s s' →
        Sound env plan clash ticket.ticketId s' := fun s' => Sound.shrink hfind hdescribes
      fun s'' ht => by rw [StatusInvariant, hs]; exact fun i => (ht i).trans (hinv i)
    rw [wp_bind, ticketId_of_findRecord hfind]
    refine wp_mono (fun _ s₁ h₁ => ⟨hshrunk s₁ h₁, record, ?_, hs, rfl⟩)
      (fun _ => hshrunk) hshrunk (within_removeBackupDirectory _ s)
    rw [h₁.transactions]
    exact hfind

/-! ### Without faults the rollback ends -/

omit [DecidableEq δ] in
theorem Holding.bounded (h : Holding env plan clash id record s) (i : FileIndex) :
    (∀ file ∈ s.target i, file.bytes.length ≤ (FILE_POLICY i).maxBytes) ∧
      (∀ file ∈ s.entry id ⟨i, .original, false⟩, file.bytes.length ≤ (FILE_POLICY i).maxBytes) ∧
      ∀ file ∈ s.entry id ⟨i, .discarded, false⟩, file.bytes.length ≤ (FILE_POLICY i).maxBytes := by
  have horig := plan.orig_bounded i
  have hwant := plan.want_bounded i
  have hcell : ∀ bytes, bytes ∈ (s.cell id i).target ∨ bytes ∈ (s.cell id i).original ∨
      bytes ∈ (s.cell id i).discarded → bytes.length ≤ (FILE_POLICY i).maxBytes := by
    intro bytes hmem
    cases h.files i with
    | home hcell => rw [hcell] at hmem; exact horig bytes (by simpa using hmem)
    | away hcell => rw [hcell] at hmem; exact horig bytes (by simpa using hmem)
    | placed hcell =>
      rw [hcell] at hmem
      rcases hmem with hmem | hmem | hmem
      · exact hwant bytes hmem
      · exact horig bytes hmem
      · exact absurd hmem (by simp)
    | withdrawn hcell => rw [hcell] at hmem; exact hwant bytes (by simpa using hmem)
    | doubled hcell => rw [hcell] at hmem; exact hwant bytes (by simpa using hmem)
  refine ⟨fun file hf => hcell _ (Or.inl ?_), fun file hf => hcell _ (Or.inr (Or.inl ?_)),
    fun file hf => hcell _ (Or.inr (Or.inr ?_))⟩
  · exact Option.mem_map_of_mem _ hf
  · exact Option.mem_map_of_mem _ hf
  · exact Option.mem_map_of_mem _ hf

omit [DecidableEq δ] in
theorem returns_readTarget {Q : Option StoredFile → RestoreDisk δ → Prop}
    (hsize : ∀ file ∈ s.target i, file.bytes.length ≤ (FILE_POLICY i).maxBytes)
    (hQ : Q (s.target i) s) : (readTarget i).returns Q s := by
  rw [readTarget, returns_bind, returns_read, returns_ofExcept]
  exact ⟨s.target i, readRegularBounded_eq_ok.mpr ⟨rfl, hsize⟩, hQ⟩

omit [DecidableEq δ] in
theorem returns_readBackup {Q : Option StoredFile → RestoreDisk δ → Prop} {name : BackupName}
    (hsize : ∀ file ∈ s.entry id name, file.bytes.length ≤ (FILE_POLICY name.index).maxBytes)
    (hQ : Q (s.entry id name) s) : (readBackup id name).returns Q s := by
  rw [readBackup, returns_bind, returns_read, returns_ofExcept]
  exact ⟨s.entry id name, readRegularBounded_eq_ok.mpr ⟨rfl, hsize⟩, hQ⟩

omit [DecidableEq δ] in
theorem returns_validateBackupDirectory {Q : Unit → RestoreDisk δ → Prop}
    (hdir : (s.backups id).isSome = true) (hQ : Q () s) :
    (validateBackupDirectory id).returns Q s := by
  rw [validateBackupDirectory, returns_bind, returns_read, if_pos hdir]
  exact hQ

omit [DecidableEq δ] in
theorem returns_writeTransaction {Q : Unit → RestoreDisk δ → Prop}
    (hid : validateIdentifier record.ticket.ticketId = .ok ())
    (hQ : Q () (s.writeRecord record)) : (writeTransaction record).returns Q s := by
  rw [writeTransaction, returns_bind, returns_ofExcept]
  exact ⟨(), hid, hQ⟩

/-- The discard of a file is always possible, unless the file is there twice. -/
theorem returns_moveRollbackDiscard (h : Holding env plan False id record s)
    (horig : plan.orig i = none)
    (hstatus : (record.operations i).status ≠ .pending ∧
      (record.operations i).status ≠ .rolledBack) :
    (moveRollbackDiscard env id i
      (if (record.operations i).status = .backedUp then (record.operations i).desiredSha256
        else (record.operations i).appliedSha256)
      (decide ((record.operations i).status = .applied))).returns (fun _ _ => True) s := by
  have hop := h.describes.operations i
  have hbounded := h.bounded i
  have hfile := h.files i
  -- what the file and its discard say about the state of the operation
  have htarget : (s.cell id i).target = (s.target i).map (·.bytes) := rfl
  have hdiscarded : (s.cell id i).discarded =
    (s.entry id ⟨i, .discarded, false⟩).map (·.bytes) := rfl
  rw [moveRollbackDiscard, returns_bind]
  refine returns_readBackup hbounded.2.2 ?_
  rw [returns_bind]
  refine returns_readTarget hbounded.1 ?_
  rcases ht : s.target i with _ | file <;>
    rcases hd : s.entry id ⟨i, .discarded, false⟩ with _ | discard <;>
    rw [ht] at htarget <;> rw [hd] at hdiscarded <;>
    simp only [Option.map_none, Option.map_some] at htarget hdiscarded
  · -- neither: nothing was ever written
    have hnone : ¬ (decide ((record.operations i).status = .applied) = true ∧
        (if (record.operations i).status = .backedUp then (record.operations i).desiredSha256
          else (record.operations i).appliedSha256).isSome = true) := by
      rintro ⟨happlied, hsome⟩
      rw [decide_eq_true_eq] at happlied
      rw [hop.rollbackSha256 (Or.inr happlied), Option.isSome_map] at hsome
      cases hfile with
      | home hcell hst =>
        rcases hst happlied with hpresent | homitted
        · rw [horig] at hpresent; exact absurd hpresent (by simp)
        · rw [plan.want_eq_none (by rw [homitted]; decide)] at hsome
          exact absurd hsome (by simp)
      | away _ _ _ hpresent => rw [horig] at hpresent; exact absurd hpresent (by simp)
      | placed hcell =>
        rw [hcell] at htarget
        simp only at htarget
        rw [htarget] at hsome
        exact absurd hsome (by simp)
      | withdrawn hcell =>
        rw [hcell] at hdiscarded
        simp only at hdiscarded
        rw [hdiscarded] at hsome
        exact absurd hsome (by simp)
      | doubled _ _ _ _ _ hclash => exact hclash.elim
    show ((if _ then _ else _ : RestoreProgram δ Unit)).returns _ _
    rw [if_neg hnone]
    trivial
  · -- a discard: it is what the restore wrote
    have hwithdrawn : ((record.operations i).status = .backedUp ∨
        (record.operations i).status = .applied) ∧ plan.want i = some discard.bytes := by
      cases hfile with
      | home hcell => rw [hcell] at hdiscarded; exact absurd hdiscarded (by simp)
      | away hcell => rw [hcell] at hdiscarded; exact absurd hdiscarded (by simp)
      | placed hcell => rw [hcell] at hdiscarded; exact absurd hdiscarded (by simp)
      | withdrawn hcell hst =>
        rw [hcell] at hdiscarded
        refine ⟨?_, hdiscarded⟩
        rcases hst with hs | hs | hs
        · exact Or.inl hs
        · exact Or.inr hs
        · exact absurd hs hstatus.2
      | doubled _ _ _ _ _ hclash => exact hclash.elim
    show ((if _ then _ else _ : RestoreProgram δ Unit)).returns _ _
    rw [if_pos (by rw [hop.rollbackSha256 hwithdrawn.1, hwithdrawn.2]; rfl)]
    trivial
  · -- the file alone: the restore wrote it
    have hplaced : ((record.operations i).status = .backedUp ∨
        (record.operations i).status = .applied) ∧ plan.want i = some file.bytes := by
      cases hfile with
      | home hcell => rw [hcell, horig] at htarget; exact absurd htarget (by simp)
      | away hcell => rw [hcell] at htarget; exact absurd htarget (by simp)
      | placed hcell hst => rw [hcell] at htarget; exact ⟨hst, htarget⟩
      | withdrawn hcell => rw [hcell] at htarget; exact absurd htarget (by simp)
      | doubled _ _ _ _ _ hclash => exact hclash.elim
    show ((if _ then _ else _ : RestoreProgram δ Unit)).returns _ _
    rw [if_pos (by rw [hop.rollbackSha256 hplaced.1, hplaced.2]; rfl), returns_bind,
      ensureBackupDirectory, returns_bind, returns_read]
    split
    · next hdir =>
      rw [returns_pure, renameToBackup, returns_bind, returns_read,
        if_pos ⟨by rw [ht]; rfl, hdir⟩]
      trivial
    · next hdir =>
      rw [returns_durable, renameToBackup, returns_bind, returns_read,
        if_pos ⟨by rw [RestoreDisk.setDirectory, ht]; rfl, by simp [RestoreDisk.setDirectory]⟩]
      trivial
  · -- both: excluded
    cases hfile with
    | home hcell => rw [hcell] at hdiscarded; exact absurd hdiscarded (by simp)
    | away hcell => rw [hcell] at hdiscarded; exact absurd hdiscarded (by simp)
    | placed hcell => rw [hcell] at hdiscarded; exact absurd hdiscarded (by simp)
    | withdrawn hcell => rw [hcell] at htarget; exact absurd htarget (by simp)
    | doubled _ _ _ _ _ hclash => exact hclash.elim

theorem returns_restoreOriginal (h : Holding env plan False id record s)
    (hstatus : (record.operations i).status ≠ .pending ∧
      (record.operations i).status ≠ .rolledBack) :
    (restoreOriginal env id i (record.operations i)).returns (fun _ _ => True) s := by
  have hop := h.describes.operations i
  have hbounded := h.bounded i
  have hfile := h.files i
  have htarget : (s.cell id i).target = (s.target i).map (·.bytes) := rfl
  have horiginal : (s.cell id i).original =
    (s.entry id ⟨i, .original, false⟩).map (·.bytes) := rfl
  rw [restoreOriginal, returns_bind]
  refine returns_readBackup hbounded.2.1 ?_
  rcases hb : s.entry id ⟨i, .original, false⟩ with _ | backup <;> rw [hb] at horiginal <;>
    simp only [Option.map_none, Option.map_some] at horiginal ⊢
  · split
    · next hpresent =>
      rw [hop.original_present] at hpresent
      have hhome : (s.cell id i).target = plan.orig i := by
        cases hfile with
        | home hcell => rw [hcell]
        | away hcell =>
          rw [hcell] at horiginal
          simp only at horiginal
          rw [horiginal] at hpresent
          exact absurd hpresent (by simp)
        | placed hcell =>
          rw [hcell] at horiginal
          simp only at horiginal
          rw [horiginal] at hpresent
          exact absurd hpresent (by simp)
        | withdrawn _ _ _ horig => rw [horig] at hpresent; exact absurd hpresent (by simp)
        | doubled _ _ _ horig => rw [horig] at hpresent; exact absurd hpresent (by simp)
      have hmatch : matchesExpected env.sha256Hex ((s.target i).map (·.bytes))
          (record.operations i).original = true := by
        rw [hop.original, matchesExpected_expectedFile env.sha256Hex_injective]
        exact hhome
      rw [returns_bind]
      refine returns_readTarget hbounded.1 ?_
      rw [if_neg (by rw [hmatch]; decide)]
      trivial
    · next hpresent =>
      rw [hop.original_present] at hpresent
      exact returns_moveRollbackDiscard h (by simpa using hpresent) hstatus
  · have horig : plan.orig i = some backup.bytes := by
      cases hfile with
      | home hcell => rw [hcell] at horiginal; exact absurd horiginal (by simp)
      | away hcell => rw [hcell] at horiginal; exact horiginal
      | placed hcell => rw [hcell] at horiginal; exact horiginal
      | withdrawn hcell => rw [hcell] at horiginal; exact absurd horiginal (by simp)
      | doubled hcell => rw [hcell] at horiginal; exact absurd horiginal (by simp)
    have hmatch : matchesExpected env.sha256Hex (some backup.bytes)
        (record.operations i).original = true := by
      rw [hop.original, matchesExpected_expectedFile env.sha256Hex_injective, horig]
    have hpresent : (s.entry id ⟨i, .original, false⟩).isSome = true := by rw [hb]; rfl
    rw [if_neg (by rw [hmatch]; decide), returns_bind, returns_attempt,
      returns_bind]
    refine returns_validateBackupDirectory (backups_isSome_of_entry hpresent) ?_
    rw [replaceFromBackup, returns_bind, returns_read, if_pos hpresent]
    trivial

theorem returns_rollbackOperation (h : Holding env plan False id record s) :
    (rollbackOperation env record i).returns (fun _ _ => True) s := by
  rw [rollbackOperation]
  split
  · trivial
  · next hstatus =>
    rw [returns_bind, ticketId_of_findRecord h.stored]
    refine returns_mono (fun _ s' _ => ?_) (returns_restoreOriginal h (not_or.mp hstatus))
    rw [returns_bind]
    exact returns_writeTransaction h.describes.ticketId trivial

theorem returns_rollbackRecord (h : Holding env plan False id record s)
    (hwork : InProgress record) : (rollbackRecord env record).returns (fun _ _ => True) s := by
  have hloop := returns_foldlM (g := rollbackOperation env)
    (I := RollingBack env plan False id)
    (fun x xs record' s' h' => returns_mono (fun _ _ h => h.2)
      (returns_and_of_wp (returns_rollbackOperation h'.1)
        (wp_rollbackOperation_rollingBack h')))
    (List.finRange 7).reverse record s
    ⟨h, hwork, fun j hj => absurd (List.mem_reverse.mpr (List.mem_finRange j)) hj⟩
  rw [rollbackRecord, returns_bind]
  refine returns_mono (fun record₁ s₁ h₁ => ?_) hloop
  rw [returns_bind]
  refine returns_mono (fun _ s₂ _ => ?_) (returns_removeBackupDirectory _ s₁)
  rw [finishRollback, returns_bind]
  exact returns_writeTransaction h₁.1.describes.ticketId trivial

theorem returns_readMatchingTransaction {Q : TransactionRecord δ → RestoreDisk δ → Prop}
    (hdescribes : plan.Describes env record)
    (hfind : findRecord record.ticket.ticketId s.transactions = some record) (hQ : Q record s) :
    (readMatchingTransaction env record.ticket).returns Q s := by
  rw [readMatchingTransaction, if_neg (by simp [hdescribes.ticketSchema, hdescribes.profileName]),
    returns_bind, readTransaction, returns_bind, returns_ofExcept]
  refine ⟨(), hdescribes.ticketId, ?_⟩
  rw [returns_bind, returns_read, hfind]
  show (Program.ofExcept _ >>= _ : RestoreProgram δ _).returns _ _
  rw [returns_bind, returns_ofExcept]
  refine ⟨(), hdescribes.validate, ?_⟩
  rw [returns_pure, if_neg (by simp)]
  exact hQ

/-- **An uninterrupted rollback ends.**  Whatever an earlier call left behind, a restore that
is prepared, applying or applied is rolled back, and every file is as it was. -/
theorem returns_rollbackRestore (h : Sound env plan False id s)
    (hfind : findRecord id s.transactions = some record)
    (hstatus : record.status = .prepared ∨ record.status = .applying ∨
      record.status = .applied) :
    (rollbackRestore env record.ticket).returns (fun result s' =>
      Reports id .rolledBack result s' ∧ ∀ i, (s'.target i).map (·.bytes) = plan.orig i) s := by
  obtain ⟨hdescribes, hinv⟩ := h.of_stored hfind
  have hid := ticketId_of_findRecord hfind
  have hends : (rollbackRestore env record.ticket).returns (fun _ _ => True) s := by
    rw [rollbackRestore, returns_bind]
    refine returns_readMatchingTransaction hdescribes (by rw [hid]; exact hfind) ?_
    rcases hstatus with hs | hs | hs <;> rw [hs] <;> rw [StatusInvariant, hs] at hinv
    · show (finishRollback _).returns _ _
      rw [finishRollback, returns_bind]
      exact returns_writeTransaction hdescribes.ticketId trivial
    · exact returns_rollbackRecord hinv (Or.inl hs)
    · exact returns_rollbackRecord hinv.1 (Or.inr ⟨hs, hinv.2⟩)
  rw [← hid] at h
  refine returns_mono ?_ (returns_and_of_wp hends (wp_rollbackRestore h))
  rintro result s' ⟨-, hsound, record', hfind', hs', hresult⟩
  have hinv' := (hsound.of_stored hfind').2
  rw [StatusInvariant, hs'] at hinv'
  rw [hid] at hfind'
  exact ⟨⟨record', hfind', hs', hresult⟩, fun i => hinv' i⟩

/-! ## Materialization and commit -/

theorem wp_markMaterialized {ticket : RestoreTicket δ}
    (h : Sound env plan clash ticket.ticketId s) :
    (markMaterialized env ticket).wp (fun _ => Sound env plan clash ticket.ticketId)
      (fun _ => Sound env plan clash ticket.ticketId) (Sound env plan clash ticket.ticketId) s := by
  rw [markMaterialized, wp_bind]
  refine wp_readMatchingTransaction (fun record hfind _ => ?_) (fun _ => h)
  obtain ⟨hdescribes, hinv⟩ := h.of_stored hfind
  split
  · next hs =>
    rw [StatusInvariant, hs] at hinv
    have hnext := hinv.1.writeStatus record.status false
    have hlast := hnext.sound (Or.inr ⟨hs, hinv.2⟩)
    rw [wp_bind]
    exact wp_writeTransaction hlast (fun _ => ⟨h, hlast⟩) ⟨h, hlast⟩
  · split
    · exact h
    · exact h

omit [DecidableEq δ] in
theorem wp_finishCommit (hfind : findRecord id s.transactions = some record)
    (hdescribes : plan.Describes env record) (hs : record.status = .committing)
    (htargets : ∀ i, plan.state i ≠ .omitted → (s.cell id i).target = plan.want i) :
    (finishCommit record).wp
      (fun result s' => Sound env plan clash id s' ∧ Reports id .committed result s')
      (fun _ => Sound env plan clash id) (Sound env plan clash id) s := by
  have hshrunk : ∀ s', Shrinks id s s' → Sound env plan clash id s' := fun s' =>
    Sound.shrink hfind hdescribes fun s'' ht => by
      rw [StatusInvariant, hs]; exact fun i hkept => (ht i).trans (htargets i hkept)
  rw [finishCommit, wp_bind, ticketId_of_findRecord hfind]
  refine wp_mono (fun _ s₁ h₁ => ?_) (fun _ => hshrunk) hshrunk
    (within_removeBackupDirectory id s)
  have hstored : findRecord id (s₁.writeRecord { record with status := .committed }).transactions =
      some { record with status := .committed } := by
    rw [← ticketId_of_findRecord hfind]
    exact findRecord_putRecord_self { record with status := .committed } _
  have hlast : Sound env plan clash id (s₁.writeRecord { record with status := .committed }) := by
    refine ⟨_, hstored, hdescribes.withStatus .committed record.materializationPending,
      fun i hkept => ?_⟩
    rw [← htargets i hkept, cell_writeRecord]
    simp only [RestoreDisk.cell, h₁.target]
  rw [wp_bind]
  exact wp_writeTransaction ⟨hlast, _, hstored, rfl, rfl⟩
    (fun _ => ⟨hshrunk s₁ h₁, hlast⟩) ⟨hshrunk s₁ h₁, hlast⟩

/-- **Every cut of a commit is sound**, provided that every desired content is in place when
an applied record is committed. -/
theorem wp_commitRestore {ticket : RestoreTicket δ}
    (h : Sound env plan clash ticket.ticketId s)
    (hplaced : ∀ record, findRecord ticket.ticketId s.transactions = some record →
      record.status = .applied → record.materializationPending = false →
      ∀ i, plan.state i ≠ .omitted → (s.cell ticket.ticketId i).target = plan.want i) :
    (commitRestore env ticket).wp
      (fun result s' => Sound env plan clash ticket.ticketId s' ∧
        Reports ticket.ticketId .committed result s')
      (fun _ => Sound env plan clash ticket.ticketId) (Sound env plan clash ticket.ticketId) s := by
  rw [commitRestore, wp_bind]
  refine wp_readMatchingTransaction (fun record hfind _ => ?_) (fun _ => h)
  obtain ⟨hdescribes, hinv⟩ := h.of_stored hfind
  rcases hs : record.status with _ | _ | _ | _ | _ | _ <;> rw [StatusInvariant, hs] at hinv
  · exact h
  · exact h
  · show ((if _ then _ else _ : RestoreProgram δ RestoreOutcome)).wp _ _ _ _
    split
    · exact h
    · next hpending =>
      have htargets := hplaced record hfind hs (by simpa using hpending)
      have hstored : findRecord ticket.ticketId
          (s.writeRecord { record with status := .committing }).transactions =
            some { record with status := .committing } := by
        rw [← ticketId_of_findRecord hfind]
        exact findRecord_putRecord_self { record with status := .committing } _
      have hnext := hdescribes.withStatus .committing record.materializationPending
      have hlast : Sound env plan clash ticket.ticketId
          (s.writeRecord { record with status := .committing }) := ⟨_, hstored, hnext, htargets⟩
      rw [wp_bind]
      exact wp_writeTransaction (wp_finishCommit hstored hnext rfl htargets)
        (fun _ => ⟨h, hlast⟩) ⟨h, hlast⟩
  · exact wp_finishCommit hfind hdescribes hs hinv
  · have hshrunk : ∀ s', Shrinks ticket.ticketId s s' →
        Sound env plan clash ticket.ticketId s' := fun s' => Sound.shrink hfind hdescribes
      fun s'' ht => by
        rw [StatusInvariant, hs]; exact fun i hkept => (ht i).trans (hinv i hkept)
    rw [wp_bind, ticketId_of_findRecord hfind]
    refine wp_mono (fun _ s₁ h₁ => ⟨hshrunk s₁ h₁, record, ?_, hs, rfl⟩)
      (fun _ => hshrunk) hshrunk (within_removeBackupDirectory _ s)
    rw [h₁.transactions]
    exact hfind
  · exact h

end DshNexus.Snapshot
