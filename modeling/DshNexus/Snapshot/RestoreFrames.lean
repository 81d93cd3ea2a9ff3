import DshNexus.Snapshot.RestoreRollback

/-!
# What a restore call leaves alone

Only a commit makes a record committing or committed, and a commit and the end of a
materialization leave the policy files alone.

* `Writes`: a call that writes only records with a given property.
* `KeepsOpen`: a step that commits no record.
* `opens_applyRestore`, `opens_markMaterialized`, `opens_rollbackRestore`: a restore that is not
  being committed is not being committed after any cut of these calls.
* `within_commitRestore`, `within_markMaterialized`: the policy files are as they were.
-/

namespace DshNexus.Snapshot

open Durable Program

variable {δ : Type}

/-- The restore is being committed, or has been. -/
def RestoreStatus.Commits (status : RestoreStatus) : Prop :=
  status = .committing ∨ status = .committed

/-- The record is the ticket's, and it is not being committed and has not been. -/
def TransactionRecord.IsOpen (ticket : RestoreTicket δ) (record : TransactionRecord δ) : Prop :=
  record.ticket = ticket ∧ ¬ record.status.Commits

/-- The store has one record of the identifier, it has the property, and every other record is
terminal. -/
def Alone (id : String) (P : TransactionRecord δ → Prop) (s : RestoreDisk δ) : Prop :=
  ∃ before record after, s.transactions = before ++ record :: after ∧
    record.ticket.ticketId = id ∧ P record ∧
    ∀ other ∈ before ++ after, other.ticket.ticketId ≠ id ∧ other.status.isTerminal = true

section Alone

variable {id : String} {P P' : TransactionRecord δ → Prop} {s s' : RestoreDisk δ}
  {record : TransactionRecord δ}

theorem Alone.mono (h : Alone id P s) (hP : ∀ record, P record → P' record) : Alone id P' s := by
  obtain ⟨before, record, after, hs, hid, hrecord, hothers⟩ := h
  exact ⟨before, record, after, hs, hid, hP record hrecord, hothers⟩

theorem Alone.of_transactions (h : Alone id P s) (hs : s'.transactions = s.transactions) :
    Alone id P s' := by
  rw [Alone, hs]
  exact h

theorem Alone.find (h : Alone id P s) :
    ∃ record, findRecord id s.transactions = some record ∧ P record := by
  obtain ⟨before, record, after, hs, hid, hrecord, hothers⟩ := h
  refine ⟨record, ?_, hrecord⟩
  have hbefore : before.find? (fun other => decide (other.ticket.ticketId = id)) = none := by
    rw [List.find?_eq_none]
    intro other hother
    simpa using (hothers other (List.mem_append_left _ hother)).1
  rw [hs, findRecord, List.find?_append, hbefore, Option.none_or,
    List.find?_cons_of_pos (by simpa using hid)]

theorem Alone.of_find (h : Alone id P s) (hfind : findRecord id s.transactions = some record)
    (hP : P' record) : Alone id P' s := by
  obtain ⟨before, found, after, hs, hid, -, hothers⟩ := h
  have hfound : Alone id (· = found) s := ⟨before, found, after, hs, hid, rfl, hothers⟩
  obtain ⟨other, hother, rfl⟩ := hfound.find
  rw [hfind] at hother
  obtain rfl := Option.some.inj hother
  exact ⟨before, record, after, hs, hid, hP, hothers⟩

theorem Alone.writeRecord (h : Alone id P s) (hid : record.ticket.ticketId = id)
    (hP : P' record) : Alone id P' (s.writeRecord record) := by
  obtain ⟨before, old, after, hs, hold, -, hothers⟩ := h
  have hput : ∀ before : List (TransactionRecord δ),
      (∀ other ∈ before, other.ticket.ticketId ≠ id) →
      putRecord record (before ++ old :: after) = before ++ record :: after := by
    intro before hbefore
    induction before with
    | nil => rw [List.nil_append, putRecord, if_pos (by rw [hold, hid])]; rfl
    | cons other before ih =>
      have hne := hbefore other (List.mem_cons_self ..)
      rw [List.cons_append, putRecord, if_neg (by rw [hid]; exact hne),
        ih fun x hx => hbefore x (List.mem_cons_of_mem _ hx)]
      rfl
  refine ⟨before, record, after, ?_, hid, hP, hothers⟩
  rw [RestoreDisk.writeRecord, hs]
  exact hput before fun other hother => (hothers other (List.mem_append_left _ hother)).1

end Alone

/-! ## Which records a call writes -/

/-- A step that leaves the records as they are, or writes one that has the property. -/
def WritesOnly (P : TransactionRecord δ → Prop) (f : RestoreDisk δ → RestoreDisk δ) : Prop :=
  (∀ s, (f s).transactions = s.transactions) ∨ ∃ record, P record ∧ ∀ s, f s = s.writeRecord record

/-- A call that writes only records that have the property. -/
abbrev Writes (P : TransactionRecord δ → Prop) {α : Type} (p : RestoreProgram δ α) : Prop :=
  p.StepsIn (WritesOnly P) fun _ => True

/-- A property of records that the work on the files keeps. -/
structure KeptByWork (P : TransactionRecord δ → Prop) : Prop where
  operation : ∀ {record} i operation, P record → P (record.setOperation i operation)
  applying : ∀ {record}, P record → P { record with status := .applying }
  applied : ∀ {record}, P record → P { record with status := .applied }

section Steps

variable {P Q : TransactionRecord δ → Prop} {ticket : RestoreTicket δ} {other : String}
  {record : TransactionRecord δ} {i : FileIndex}

theorem WritesOnly.mono {f : RestoreDisk δ → RestoreDisk δ} (hPQ : ∀ record, P record → Q record)
    (hf : WritesOnly P f) : WritesOnly Q f := by
  rcases hf with hf | ⟨record, hrecord, hf⟩
  · exact Or.inl hf
  · exact Or.inr ⟨record, hPQ record hrecord, hf⟩

theorem writes_of_readOnly {α : Type} {p : RestoreProgram δ α} (hp : p.ReadOnly) : Writes P p :=
  hp.stepsIn fun f hf => Or.inl fun s => by rw [hf]

theorem writes_durable {e : SnapshotError} {f : RestoreDisk δ → RestoreDisk δ}
    (hf : ∀ s, (f s).transactions = s.transactions) :
    Writes P (Program.durable e f : RestoreProgram δ Unit) :=
  stepsIn_durable (Or.inl hf)

theorem writes_writeTransaction (h : P record) : Writes P (writeTransaction record) :=
  (writes_of_readOnly (readOnly_ofExcept _)).then fun _ =>
    stepsIn_durable (Or.inr ⟨record, h, fun _ => rfl⟩)

theorem writes_writeStatus (hP : KeptByWork P) (h : P record) (status : OperationStatus) :
    (writeStatus record i status).StepsIn (WritesOnly P) P :=
  Program.StepsIn.then (writes_writeTransaction (hP.operation _ _ h)) fun _ => hP.operation _ _ h

theorem writes_renameToBackup (suffix : BackupSuffix) :
    Writes P (renameToBackup other i suffix : RestoreProgram δ Unit) := by
  refine (writes_of_readOnly readOnly_read).then fun disk => ?_
  split
  · exact writes_durable fun _ => rfl
  · exact writes_of_readOnly (readOnly_throw _)

theorem writes_replaceFromBackup : Writes P (replaceFromBackup other i : RestoreProgram δ Unit) := by
  refine (writes_of_readOnly readOnly_read).then fun disk => ?_
  split
  · exact writes_durable fun _ => rfl
  · exact writes_of_readOnly (readOnly_throw _)

theorem writes_ensureBackupDirectory :
    Writes P (ensureBackupDirectory other : RestoreProgram δ Unit) := by
  refine (writes_of_readOnly readOnly_read).then fun disk => ?_
  split
  · exact writes_of_readOnly (readOnly_pure _)
  · exact writes_durable fun _ => rfl

theorem writes_removeTombstone (suffix : BackupSuffix) :
    Writes P (removeTombstone other i suffix : RestoreProgram δ Unit) := by
  refine Program.StepsIn.then (writes_durable ?_) fun _ => writes_durable ?_
  · exact fun _ => rfl
  · exact fun _ => rfl

theorem writes_removeSensitiveFile (suffix : BackupSuffix) :
    Writes P (removeSensitiveFile other i suffix : RestoreProgram δ Unit) := by
  have hclear : Writes P (clearTombstone other i suffix : RestoreProgram δ Unit) := by
    refine (writes_of_readOnly readOnly_read).then fun disk => ?_
    split
    · exact writes_removeTombstone suffix
    · exact writes_of_readOnly (readOnly_pure _)
  have hbury : Writes P (buryFile other i suffix : RestoreProgram δ Unit) := by
    refine (writes_of_readOnly readOnly_read).then fun disk => ?_
    split
    · refine Program.StepsIn.then (writes_durable ?_) fun _ => writes_removeTombstone suffix
      exact fun _ => rfl
    · exact writes_of_readOnly (readOnly_pure _)
  exact hclear.then fun _ => hbury

theorem writes_removeBackupDirectory :
    Writes P (removeBackupDirectory other : RestoreProgram δ Unit) := by
  refine (writes_of_readOnly readOnly_read).then fun disk => ?_
  split
  · refine (stepsIn_forM
      (fun file : FileIndex × BackupSuffix => writes_removeSensitiveFile file.2) _).then fun _ => ?_
    refine (writes_of_readOnly readOnly_read).then fun disk => ?_
    split
    · exact writes_of_readOnly (readOnly_throw _)
    · refine Program.StepsIn.then (writes_durable ?_) fun _ => writes_durable ?_
      · exact fun _ => rfl
      · exact fun _ => rfl
  · exact writes_of_readOnly (readOnly_pure _)

theorem readOnly_readTransaction [DecidableEq δ] (env : RestoreEnvironment δ) (id : String) :
    (readTransaction env id).ReadOnly := by
  refine (readOnly_ofExcept _).bind fun _ => readOnly_read.bind fun disk => ?_
  split
  · exact readOnly_throw _
  · exact (readOnly_ofExcept _).bind fun _ => readOnly_pure _

theorem readOnly_readMatchingTransaction [DecidableEq δ] (env : RestoreEnvironment δ)
    (ticket : RestoreTicket δ) : (readMatchingTransaction env ticket).ReadOnly := by
  rw [readMatchingTransaction]
  split
  · exact readOnly_throw _
  · refine (readOnly_readTransaction env _).bind fun record => ?_
    split
    · exact readOnly_throw _
    · exact readOnly_pure _

theorem writes_readMatchingTransaction [DecidableEq δ] (env : RestoreEnvironment δ)
    (ticket : RestoreTicket δ) :
    (readMatchingTransaction env ticket).StepsIn (WritesOnly P) fun record =>
      record.ticket = ticket := by
  rw [readMatchingTransaction]
  split
  · trivial
  · refine (writes_of_readOnly (readOnly_readTransaction env _)).then fun record => ?_
    split
    · trivial
    · next hsame => exact not_not.mp hsame

end Steps

/-! ## Applying -/

section Apply

variable [DecidableEq δ] {env : RestoreEnvironment δ} {P : TransactionRecord δ → Prop}
  {other : String} {record : TransactionRecord δ} {i : FileIndex}

theorem writes_startOperation (hP : KeptByWork P) (h : P record) :
    (startOperation env record i).StepsIn (WritesOnly P) P := by
  rw [startOperation]
  split
  · exact (writes_of_readOnly (readOnly_checkOriginal _ _)).then fun _ => writes_writeStatus hP h _
  · exact h

theorem writes_moveOriginal (original : ExpectedFile δ) :
    Writes P (moveOriginal env other i original) := by
  refine (writes_of_readOnly (readOnly_readBackup _ _)).then fun backup => ?_
  split
  · exact writes_of_readOnly (readOnly_pure _)
  · refine (writes_of_readOnly (readOnly_checkOriginal _ _)).then fun _ => ?_
    exact (writes_of_readOnly (readOnly_validateBackupDirectory _)).then fun _ =>
      writes_renameToBackup _

theorem writes_backUpOriginal (hP : KeptByWork P) (h : P record) :
    (backUpOriginal env record i).StepsIn (WritesOnly P) P := by
  have hthrow : ∀ e, (throw e : RestoreProgram δ (TransactionRecord δ)).StepsIn (WritesOnly P) P := fun _ => trivial
  rw [backUpOriginal]
  split
  · split
    · refine (writes_moveOriginal _).then fun _ => ?_
      refine (writes_of_readOnly (readOnly_validateBackupDirectory _)).then fun _ => ?_
      refine (writes_of_readOnly (readOnly_readBackup _ _)).then fun backup => ?_
      split
      · exact hthrow _
      · split
        · exact hthrow _
        · exact writes_writeStatus hP h _
    · refine (writes_of_readOnly (readOnly_readBackup _ _)).then fun backup => ?_
      split
      · exact hthrow _
      · exact writes_writeStatus hP h _
  · exact h

omit [DecidableEq δ] in
theorem writes_placeDesired (desired : DesiredFile) :
    Writes P (placeDesired i desired : RestoreProgram δ Unit) := by
  rw [placeDesired]
  split
  · refine (writes_of_readOnly (readOnly_readTarget _)).then fun existing => ?_
    split
    · split
      · exact writes_of_readOnly (readOnly_pure _)
      · exact writes_of_readOnly (readOnly_throw _)
    · have hwrite : ∀ bytes, Writes P (writeTarget i bytes : RestoreProgram δ Unit) := fun _ =>
        (writes_durable fun _ => rfl).then fun _ => writes_durable fun _ => rfl
      refine (hwrite _).then fun _ => ?_
      cases desired.mode with
      | none => exact writes_of_readOnly (readOnly_pure _)
      | some mode => exact writes_durable fun _ => rfl
  · refine (writes_of_readOnly readOnly_read).then fun disk => ?_
    split
    · exact writes_of_readOnly (readOnly_throw _)
    · exact writes_of_readOnly (readOnly_pure _)

theorem writes_publishDesired (manifest : SnapshotManifest δ) (hP : KeptByWork P) (h : P record) :
    (publishDesired env manifest record i).StepsIn (WritesOnly P) P := by
  have hcurrent : Writes P (backedUpOriginal record.ticket.ticketId i (record.operations i)) := by
    rw [backedUpOriginal]
    split
    · refine (writes_of_readOnly (readOnly_validateBackupDirectory _)).then fun _ => ?_
      refine (writes_of_readOnly (readOnly_readBackup _ _)).then fun backup => ?_
      split
      · exact writes_of_readOnly (readOnly_throw _)
      · exact writes_of_readOnly (readOnly_pure _)
    · exact writes_of_readOnly (readOnly_pure _)
  rw [publishDesired]
  refine hcurrent.then fun current => ?_
  refine (writes_of_readOnly (readOnly_ofExcept _)).then fun desired => ?_
  split
  · trivial
  · have hnext := hP.operation i { record.operations i with
      status := .applied, appliedSha256 := desired.bytes.map env.sha256Hex } h
    exact (writes_placeDesired _).then fun _ => Program.StepsIn.then (writes_writeTransaction hnext)
      fun _ => hnext

theorem writes_applyOperation (manifest : SnapshotManifest δ) (hP : KeptByWork P) (h : P record) :
    (applyOperation env manifest record i).StepsIn (WritesOnly P) P := by
  rw [applyOperation]
  split
  · have hverify : (verifyAppliedOperation env i (record.operations i)).ReadOnly :=
      readOnly_verifyAppliedOperation _ _
    exact (writes_of_readOnly hverify).then fun _ => h
  · split
    · exact writes_writeStatus hP h _
    · refine (writes_of_readOnly (readOnly_validateBackupDirectory _)).then fun _ => ?_
      refine (writes_startOperation hP h).bind fun record₁ h₁ => ?_
      refine (writes_backUpOriginal hP h₁).bind fun record₂ h₂ => ?_
      exact writes_publishDesired manifest hP h₂

theorem writes_beginApply (manifest : SnapshotManifest δ) (hP : KeptByWork P) (h : P record) :
    (beginApply env manifest record).StepsIn (WritesOnly P) P := by
  rw [beginApply]
  split
  · have hpreflight : (preflightOriginals env record).ReadOnly :=
      readOnly_forM (fun i => readOnly_checkOriginal i _) _
    refine (writes_of_readOnly hpreflight).then fun _ => ?_
    have hbudget : ((List.finRange 7).forM fun i => do
        let current ← readTarget i
        let _ ← Program.ofExcept (desiredFile env manifest i (current.map (·.bytes)))
        pure () : RestoreProgram δ PUnit).ReadOnly :=
      readOnly_forM (fun i => (readOnly_readTarget i).bind fun current =>
        (readOnly_ofExcept _).bind fun _ => readOnly_pure _) _
    refine (writes_of_readOnly hbudget).then fun _ => ?_
    refine (writes_of_readOnly (readOnly_attempt _)).then fun _ => ?_
    exact Program.StepsIn.then (writes_writeTransaction (hP.applying h)) fun _ => hP.applying h
  · exact h

theorem writes_applyRecord (hP : KeptByWork P) (h : P record) :
    Writes P (applyRecord env record) := by
  refine (writes_of_readOnly (readOnly_ofExcept _)).then fun manifest => ?_
  refine (writes_beginApply manifest hP h).bind fun record₁ h₁ => ?_
  refine writes_ensureBackupDirectory.then fun _ => ?_
  refine (stepsIn_foldlM (fun record i hr => writes_applyOperation manifest hP hr) _ _
    h₁).bind fun record₂ h₂ => ?_
  exact Program.StepsIn.then (writes_writeTransaction (hP.applied h₂)) fun _ => trivial

end Apply

/-! ## Rolling back -/

section Rollback

variable [DecidableEq δ] {env : RestoreEnvironment δ} {P Q : TransactionRecord δ → Prop}
  {other : String} {record : TransactionRecord δ} {i : FileIndex}

theorem writes_moveRollbackDiscard (expectedAppliedSha256 : Option δ) (confirmedApplied : Bool) :
    Writes P (moveRollbackDiscard env other i expectedAppliedSha256 confirmedApplied) := by
  refine (writes_of_readOnly (readOnly_readBackup _ _)).then fun discarded => ?_
  refine (writes_of_readOnly (readOnly_readTarget _)).then fun current => ?_
  split
  · trivial
  · split <;> trivial
  · split <;> trivial
  · split
    · exact writes_ensureBackupDirectory.then fun _ => writes_renameToBackup _
    · trivial

theorem writes_restoreOriginal (operation : RestoreOperation δ) :
    Writes P (restoreOriginal env other i operation) := by
  refine (writes_of_readOnly (readOnly_readBackup _ _)).then fun backup => ?_
  split
  · split
    · trivial
    · refine (writes_of_readOnly (readOnly_attempt _)).then fun _ => ?_
      exact (writes_of_readOnly (readOnly_validateBackupDirectory _)).then fun _ =>
        writes_replaceFromBackup
  · split
    · refine (writes_of_readOnly (readOnly_readTarget _)).then fun current => ?_
      split <;> trivial
    · exact writes_moveRollbackDiscard _ _

theorem writes_rollbackOperation (hP : KeptByWork P) (h : P record) :
    (rollbackOperation env record i).StepsIn (WritesOnly P) P := by
  rw [rollbackOperation]
  split
  · exact h
  · have hnext := hP.operation i
      { record.operations i with status := .rolledBack, appliedSha256 := none } h
    refine (writes_restoreOriginal _).then fun _ => ?_
    exact Program.StepsIn.then (writes_writeTransaction hnext) fun _ => hnext

omit [DecidableEq δ] in
theorem writes_finishRollback
    (h : Q { record with status := .rolledBack, materializationPending := false }) :
    Writes Q (finishRollback record) :=
  (writes_writeTransaction h).then fun _ => trivial

theorem writes_rollbackRecord (hP : KeptByWork P) (h : P record) (hPQ : ∀ record, P record → Q record)
    (hback : ∀ record, P record →
      Q { record with status := .rolledBack, materializationPending := false }) :
    Writes Q (rollbackRecord env record) := by
  have hwork : ((List.finRange 7).reverse.foldlM (rollbackOperation env) record).StepsIn
      (WritesOnly P) P := stepsIn_foldlM (fun _ _ hr => writes_rollbackOperation hP hr) _ _ h
  refine (hwork.steps_mono fun _ => WritesOnly.mono hPQ).bind fun record₁ h₁ => ?_
  exact writes_removeBackupDirectory.then fun _ => writes_finishRollback (hback record₁ h₁)

end Rollback

/-! ## Records that stay open -/

/-- A step that commits no record and keeps the ticket of the record. -/
def KeepsOpen (ticket : RestoreTicket δ) (f : RestoreDisk δ → RestoreDisk δ) : Prop :=
  ∀ s, Alone ticket.ticketId (·.IsOpen ticket) s → Alone ticket.ticketId (·.IsOpen ticket) (f s)

abbrev Opens (ticket : RestoreTicket δ) {α : Type} (p : RestoreProgram δ α) : Prop :=
  p.StepsIn (KeepsOpen ticket) fun _ => True

section Open

variable {ticket : RestoreTicket δ} {record : TransactionRecord δ}

theorem opens_of_writes {α : Type} {p : RestoreProgram δ α} (hp : Writes (·.IsOpen ticket) p) :
    Opens ticket p :=
  hp.steps_mono fun f hf s hs => by
    rcases hf with hf | ⟨record, hrecord, hf⟩
    · exact hs.of_transactions (hf s)
    · rw [hf s]
      exact hs.writeRecord (by rw [hrecord.1]) hrecord

theorem not_commits_applying : ¬ RestoreStatus.applying.Commits := by
  rintro (h | h) <;> exact nomatch h

theorem not_commits_applied : ¬ RestoreStatus.applied.Commits := by
  rintro (h | h) <;> exact nomatch h

theorem not_commits_rolledBack : ¬ RestoreStatus.rolledBack.Commits := by
  rintro (h | h) <;> exact nomatch h

theorem not_commits_prepared : ¬ RestoreStatus.prepared.Commits := by
  rintro (h | h) <;> exact nomatch h

theorem keptByWork_isOpen : KeptByWork (·.IsOpen ticket) where
  operation _ _ h := h
  applying h := ⟨h.1, not_commits_applying⟩
  applied h := ⟨h.1, not_commits_applied⟩

variable [DecidableEq δ] {env : RestoreEnvironment δ}

/-- **An apply commits nothing.** -/
theorem opens_applyRestore (ticket : RestoreTicket δ) : Opens ticket (applyRestore env ticket) := by
  refine opens_of_writes ((writes_readMatchingTransaction env ticket).bind fun record hticket => ?_)
  split
  · trivial
  · next hs =>
    exact writes_applyRecord keptByWork_isOpen ⟨hticket, by rw [hs]; exact not_commits_prepared⟩
  · next hs =>
    exact writes_applyRecord keptByWork_isOpen ⟨hticket, by rw [hs]; exact not_commits_applying⟩
  · trivial

theorem opens_markMaterialized (ticket : RestoreTicket δ) :
    Opens ticket (markMaterialized env ticket) := by
  refine opens_of_writes ((writes_readMatchingTransaction env ticket).bind fun record hticket => ?_)
  split
  · next hs =>
    have hopen : ({ record with materializationPending := false } : TransactionRecord δ).IsOpen
        ticket := ⟨hticket, by rw [hs]; exact not_commits_applied⟩
    exact (writes_writeTransaction hopen).then fun _ => trivial
  · split <;> trivial

/-- **A rollback commits nothing.** -/
theorem opens_rollbackRestore (ticket : RestoreTicket δ) :
    Opens ticket (rollbackRestore env ticket) := by
  have hback : ∀ record : TransactionRecord δ, record.ticket = ticket →
      ({ record with status := .rolledBack, materializationPending := false } :
        TransactionRecord δ).IsOpen ticket := fun _ hticket => ⟨hticket, not_commits_rolledBack⟩
  have hrecord : ∀ record : TransactionRecord δ, record.IsOpen ticket →
      Writes (·.IsOpen ticket) (rollbackRecord env record) := fun record h =>
    writes_rollbackRecord keptByWork_isOpen h (fun _ h₁ => h₁) fun record₁ h₁ => hback record₁ h₁.1
  refine opens_of_writes ((writes_readMatchingTransaction env ticket).bind fun record hticket => ?_)
  split
  · exact writes_removeBackupDirectory.then fun _ => trivial
  · trivial
  · trivial
  · exact writes_finishRollback (hback record hticket)
  · next hs => exact hrecord record ⟨hticket, by rw [hs]; exact not_commits_applying⟩
  · next hs => exact hrecord record ⟨hticket, by rw [hs]; exact not_commits_applied⟩

end Open

/-! ## Policy files -/

section Targets

def SameTargets (s s' : RestoreDisk δ) : Prop := s'.target = s.target

theorem sameTargets_bind {α β : Type} {p : RestoreProgram δ α} {g : α → RestoreProgram δ β}
    (hp : p.Within SameTargets) (hg : ∀ a, (g a).Within SameTargets) :
    (p >>= g).Within SameTargets :=
  Program.Within.bind (R := SameTargets) (fun h h' => Eq.trans h' h) hp hg

theorem sameTargets_of_readOnly {α : Type} {p : RestoreProgram δ α} (hp : p.ReadOnly) :
    p.Within SameTargets := Program.ReadOnly.within (R := SameTargets) (fun _ => rfl) hp

theorem within_writeTransaction (record : TransactionRecord δ) :
    (writeTransaction record).Within SameTargets :=
  sameTargets_bind (sameTargets_of_readOnly (readOnly_ofExcept _))
    fun _ => within_durable (R := SameTargets) (fun _ => rfl) fun _ => rfl

theorem within_removeBackups (id : String) :
    (removeBackupDirectory id : RestoreProgram δ Unit).Within SameTargets := fun s =>
  wp_mono (fun _ _ h => h.target) (fun _ _ h => h.target) (fun _ h => h.target)
    (within_removeBackupDirectory id s)

theorem within_commitRestore [DecidableEq δ] (env : RestoreEnvironment δ) (ticket : RestoreTicket δ) :
    (commitRestore env ticket).Within SameTargets := by
  have hpure : ∀ result : RestoreOutcome,
      (pure result : RestoreProgram δ RestoreOutcome).Within SameTargets := fun _ =>
    sameTargets_of_readOnly (readOnly_pure _)
  have hthrow : ∀ e, (throw e : RestoreProgram δ RestoreOutcome).Within SameTargets := fun _ =>
    sameTargets_of_readOnly (readOnly_throw _)
  have hfinish : ∀ record : TransactionRecord δ, (finishCommit record).Within SameTargets :=
    fun record => sameTargets_bind (within_removeBackups _) fun _ =>
      sameTargets_bind (within_writeTransaction _) fun _ => hpure _
  refine sameTargets_bind
    (sameTargets_of_readOnly (readOnly_readMatchingTransaction env ticket)) fun record => ?_
  split
  · exact sameTargets_bind (within_removeBackups _) fun _ => hpure _
  · exact hfinish record
  · split
    · exact hthrow _
    · exact sameTargets_bind (within_writeTransaction _) fun _ => hfinish _
  · exact hthrow _

theorem within_markMaterialized [DecidableEq δ] (env : RestoreEnvironment δ) (ticket : RestoreTicket δ) :
    (markMaterialized env ticket).Within SameTargets := by
  refine sameTargets_bind
    (sameTargets_of_readOnly (readOnly_readMatchingTransaction env ticket)) fun record => ?_
  split
  · exact sameTargets_bind (within_writeTransaction _) fun _ =>
      sameTargets_of_readOnly (readOnly_pure _)
  · split
    · exact sameTargets_of_readOnly (readOnly_pure _)
    · exact sameTargets_of_readOnly (readOnly_throw _)

end Targets

end DshNexus.Snapshot
