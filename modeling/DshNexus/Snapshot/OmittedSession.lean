import DshNexus.Snapshot.RestoreFrames
import DshNexus.Snapshot.RestoreOmitted
import DshNexus.Snapshot.ResumeSession

/-!
# Sessions beside changes of omitted files

Applies, rollbacks and recoveries follow each other, with faults at any step; beside them,
before any read and any step, others create, edit and delete omitted files, once the apply has
started.  The session is compared with the one in which nobody does.

* `Undisturbed`: what relates the two disks.
* `alike_applyRestore`, `alike_commitRestore`: an apply and a commit do the same on both.
* `alike_rollbackRestore`: so does a rollback, as long as the omitted files that are recorded
  as applied have their original content.
* `omitted_files_take_no_part`: the session ends, call by call, as if nobody had changed them.
-/

namespace DshNexus.Snapshot

open Durable Program

variable {δ : Type}

/-! ## The changes and the calls -/

/-- Others have changed omitted files, after the apply has started. -/
structure OutsideEdit (start : TransactionRecord δ) (id : String) (s s' : RestoreDisk δ) :
    Prop where
  transactions : s'.transactions = s.transactions
  backups : s'.backups = s.backups
  omits : ∀ i, s'.target i ≠ s.target i → start.Omits i
  started : ∀ record, findRecord id s.transactions = some record → record.status = .prepared →
    s'.target = s.target

/-- Every omitted file that a record at work counts as applied has its original content. -/
def Unedited [DecidableEq δ] (env : RestoreEnvironment δ) (id : String) (s : RestoreDisk δ) :
    Prop :=
  ∀ record, findRecord id s.transactions = some record →
    record.status = .applying ∨ record.status = .applied →
    ∀ i, record.Omits i → (record.operations i).status = .applied →
      matchesExpected env.sha256Hex ((s.target i).map (·.bytes)) (record.operations i).original =
        true

inductive RecoveryCall where
  | apply
  | rollback
  | recover (decision : RecoverDecision)
  deriving DecidableEq, Repr

def RecoveryCall.rollsBack : RecoveryCall → Bool
  | .rollback => true
  | .recover .rollback => true
  | _ => false

def RecoveryCall.program [DecidableEq δ] (env : RestoreEnvironment δ) (ticket : RestoreTicket δ) :
    RecoveryCall → RestoreProgram δ RestoreOutcome
  | .apply => applyRestore env ticket
  | .rollback => rollbackRestore env ticket
  | .recover decision => recoverRestore env ticket decision

/-- The changes by others during a call that leave it undisturbed. -/
def RecoveryCall.Allows [DecidableEq δ] (env : RestoreEnvironment δ)
    (start : TransactionRecord δ) (id : String) (call : RecoveryCall) (s s' : RestoreDisk δ) :
    Prop :=
  OutsideEdit start id s s' ∧ (call.rollsBack = true → Unedited env id s')

section Undisturbed

variable [DecidableEq δ] (env : RestoreEnvironment δ) (start : TransactionRecord δ)
  (disk : RestoreDisk δ) (id : String)

/-- An operation on an omitted file is not started like the others. -/
def OmittedOperation (i : FileIndex) (operation : RestoreOperation δ) : Prop :=
  operation.original = (start.operations i).original ∧
    (operation.status = .pending ∨ operation.status = .applied ∨ operation.status = .rolledBack)

/-- The omitted files are the recorded originals. -/
def OriginalsMatch : Prop :=
  ∀ i, start.Omits i → matchesExpected env.sha256Hex ((disk.target i).map (·.bytes))
    (start.operations i).original = true

/-- The disk beside which others change omitted files, and the one that nobody changes. -/
structure Undisturbed (s t : RestoreDisk δ) : Prop where
  same : SameKept start s t
  keeping : Keeping start disk id (OmittedOperation start) (fun _ => True) t
  unstarted : ∀ record, findRecord id t.transactions = some record →
    record.status = .prepared → s = t
  originals : ∀ record, findRecord id t.transactions = some record →
    record.status = .applying ∨ record.status = .applied → OriginalsMatch env start disk

variable {env start disk id} {s s' t : RestoreDisk δ} {record : TransactionRecord δ}

omit [DecidableEq δ] in
theorem OutsideEdit.sameKept (h : OutsideEdit start id s s') (hs : SameKept start s t) :
    SameKept start s' t := by
  refine ⟨h.transactions.trans hs.transactions, h.backups.trans hs.backups, fun i hi => ?_⟩
  rw [← hs.target i hi]
  by_contra hne
  exact hi (h.omits i hne)

omit [DecidableEq δ] in
theorem OutsideEdit.eq_of_prepared (h : OutsideEdit start id s s')
    (hfind : findRecord id s.transactions = some record) (hprepared : record.status = .prepared) :
    s' = s := by
  have htarget := h.started record hfind hprepared
  have htransactions := h.transactions
  have hbackups := h.backups
  obtain ⟨target, backups, transactions⟩ := s
  obtain ⟨target', backups', transactions'⟩ := s'
  simp only at htarget htransactions hbackups
  rw [htarget, htransactions, hbackups]

theorem Undisturbed.edit (hs : Undisturbed env start disk id s t)
    (h : OutsideEdit start id s s') : Undisturbed env start disk id s' t := by
  refine ⟨h.sameKept hs.same, hs.keeping, fun record hfind hprepared => ?_, hs.originals⟩
  have heq := hs.unstarted record hfind hprepared
  rw [← heq] at hfind
  rw [h.eq_of_prepared hfind hprepared, heq]

omit [DecidableEq δ] in
theorem Keeping.mono {kept kept' : FileIndex → RestoreOperation δ → Prop}
    {S S' : RestoreStatus → Prop} (h : Keeping start disk id kept S t)
    (hkept : ∀ i operation, start.Omits i → kept i operation → kept' i operation)
    (hS : ∀ status, S status → S' status) : Keeping start disk id kept' S' t := by
  obtain ⟨record, hfind, hfits⟩ := h.stored
  exact ⟨⟨record, hfind, hfits.ticketId, hfits.desiredState,
    fun i hi => hkept i _ hi (hfits.kept i hi), hS _ hfits.status⟩, h.entries, h.targets⟩

theorem undisturbed_of_keeping {kept : FileIndex → RestoreOperation δ → Prop}
    {S : RestoreStatus → Prop} (hs : SameKept start s t) (ht : Keeping start disk id kept S t)
    (hkept : ∀ i operation, start.Omits i → kept i operation → OmittedOperation start i operation)
    (hS : ∀ status, S status → status ≠ .prepared ∧
      (status = .applying ∨ status = .applied → OriginalsMatch env start disk)) :
    Undisturbed env start disk id s t := by
  obtain ⟨stored, hstored, hfits⟩ := ht.stored
  have hstatus := hS _ hfits.status
  refine ⟨hs, ht.mono hkept fun _ _ => trivial, fun record hfind hprepared => ?_,
    fun record hfind hwork => ?_⟩
  · rw [hstored] at hfind
    rw [← Option.some.inj hfind] at hprepared
    exact absurd hprepared hstatus.1
  · rw [hstored] at hfind
    rw [← Option.some.inj hfind] at hwork
    exact hstatus.2 hwork

theorem alike_unseen {G : RestoreDisk δ → RestoreDisk δ → Prop}
    (hG : ∀ s s', G s s' → OutsideEdit start id s s') {α : Type} {P : α → Prop}
    {p : RestoreProgram δ α} {kept : FileIndex → RestoreOperation δ → Prop}
    {S : RestoreStatus → Prop} {Q : α → RestoreDisk δ → RestoreDisk δ → Prop}
    (hp : Unseen start disk id kept S P p) (hs : SameKept start s t)
    (ht : Keeping start disk id kept S t)
    (hkept : ∀ i operation, start.Omits i → kept i operation → OmittedOperation start i operation)
    (hS : ∀ status, S status → status ≠ .prepared ∧
      (status = .applying ∨ status = .applied → OriginalsMatch env start disk))
    (hQ : ∀ a s t, P a → SameKept start s t → Keeping start disk id kept S t → Q a s t) :
    Program.Alike G (KeepsOmitted start) (Undisturbed env start disk id) p Q s t :=
  (Program.Blind.alike hp (fun s s' _ hst hss' => (hG s s' hss').sameKept hst) hs ht).mono
    (fun a s t h => hQ a s t h.1 h.2.1 h.2.2)
    (fun _ _ h => undisturbed_of_keeping h.1 h.2 hkept hS)

theorem alike_matching {ticket : RestoreTicket δ} {G : RestoreDisk δ → RestoreDisk δ → Prop}
    (hG : ∀ s s', G s s' → OutsideEdit start ticket.ticketId s s')
    {Q : TransactionRecord δ → RestoreDisk δ → RestoreDisk δ → Prop}
    (hs : Undisturbed env start disk ticket.ticketId s t)
    (hQ : ∀ record s', findRecord ticket.ticketId t.transactions = some record →
      Matching env ticket record → Undisturbed env start disk ticket.ticketId s' t →
      Q record s' t) :
    Program.Alike G (KeepsOmitted start) (Undisturbed env start disk ticket.ticketId)
      (readMatchingTransaction env ticket) Q s t := by
  rw [readMatchingTransaction]
  split
  · exact hs
  · next hticket =>
    obtain ⟨hschema, hprofile⟩ := not_or.mp hticket
    refine Program.Alike.bind ?_
    rw [readTransaction]
    refine Program.Alike.bind (alike_ofExcept (fun _ hid => ?_) hs)
    refine alike_read fun s' hs' => ⟨?_, ?_⟩
    · rw [(hG s s' hs').transactions, hs.same.transactions]
    · have hnext := hs.edit (hG s s' hs')
      split
      · exact hnext
      · next record hfind =>
        refine Program.Alike.bind (alike_ofExcept (fun _ hvalid => ?_) hnext)
        show Program.Alike _ _ _ (if record.ticket ≠ ticket then _ else _) _ _ _
        split
        · exact hnext
        · next hsame =>
          exact hQ record s' hfind ⟨not_not.mp hschema, not_not.mp hprofile, hid, hvalid,
            not_not.mp hsame⟩ hnext

omit [DecidableEq δ] in
theorem Keeping.fits {kept : FileIndex → RestoreOperation δ → Prop} {S : RestoreStatus → Prop}
    (h : Keeping start disk id kept S t) (hfind : findRecord id t.transactions = some record) :
    Fits start id kept S record := by
  obtain ⟨stored, hstored, hfits⟩ := h.stored
  rw [hfind] at hstored
  rw [Option.some.inj hstored]
  exact hfits

omit [DecidableEq δ] in
theorem Keeping.of_find {kept kept' : FileIndex → RestoreOperation δ → Prop}
    {S S' : RestoreStatus → Prop} (h : Keeping start disk id kept S t)
    (hfind : findRecord id t.transactions = some record) (hfits : Fits start id kept' S' record) :
    Keeping start disk id kept' S' t := ⟨⟨record, hfind, hfits⟩, h.entries, h.targets⟩

end Undisturbed

/-! ## Apply and commit -/

section Apply

variable [DecidableEq δ] {env : RestoreEnvironment δ} {start record : TransactionRecord δ}
  {disk : RestoreDisk δ} {ticket : RestoreTicket δ} {s t : RestoreDisk δ}
  {G : RestoreDisk δ → RestoreDisk δ → Prop}

/-- The statuses of a record that an apply or a rollback works on. -/
def AtWork (status : RestoreStatus) : Prop := status = .applying ∨ status = .applied

theorem AtWork.ne_prepared {status : RestoreStatus} (h : AtWork status) : status ≠ .prepared := by
  rcases h with rfl | rfl <;> decide

theorem unseen_continueApply {id : String} {manifest : SnapshotManifest δ}
    (h : Fits start id (OmittedOperation start) AtWork record) :
    Unseen start disk id (OmittedOperation start) AtWork (fun _ => True)
      (do
        ensureBackupDirectory record.ticket.ticketId
        let record ← (List.finRange 7).foldlM (applyOperation env manifest) record
        let record := { record with status := .applied }
        writeTransaction record
        pure (outcome record) : RestoreProgram δ RestoreOutcome) := by
  have hloop : Unseen start disk id (OmittedOperation start) AtWork
      (Fits start id (OmittedOperation start) AtWork)
      ((List.finRange 7).foldlM (applyOperation env manifest) record) :=
    blind_foldlM (fun record i hrecord => unseen_applyOperation
      (fun _ _ hkept => ⟨hkept.1, Or.inr (Or.inl rfl)⟩) hrecord i) _ h
  rw [h.ticketId]
  refine Program.Blind.bind unseen_ensureBackupDirectory fun _ _ =>
    Program.Blind.bind hloop fun record₁ h₁ => ?_
  have hlast : Fits start id (OmittedOperation start) AtWork { record₁ with status := .applied } :=
    ⟨h₁.ticketId, h₁.desiredState, h₁.kept, Or.inr rfl⟩
  exact Program.Blind.bind (unseen_writeTransaction hlast) fun _ _ => trivial

/-- The first write of an apply, before which nobody changes anything. -/
theorem alike_beginApply {manifest : SnapshotManifest δ}
    {Q : TransactionRecord δ → RestoreDisk δ → RestoreDisk δ → Prop}
    (hG : ∀ s s', G s s' → OutsideEdit start ticket.ticketId s s')
    (ht : Undisturbed env start disk ticket.ticketId t t)
    (hfind : findRecord ticket.ticketId t.transactions = some record)
    (hprepared : record.status = .prepared)
    (hQ : ∀ record' s' t', OriginalsMatch env start disk →
      Fits start ticket.ticketId (OmittedOperation start) AtWork record' →
      SameKept start s' t' →
      Keeping start disk ticket.ticketId (OmittedOperation start) AtWork t' → Q record' s' t') :
    Program.Alike G (KeepsOmitted start) (Undisturbed env start disk ticket.ticketId)
      (beginApply env manifest record) Q t t := by
  have hstill : ∀ s', G t s' → s' = t := fun s' hs' =>
    (hG t s' hs').eq_of_prepared hfind hprepared
  have hfits := ht.keeping.fits hfind
  rw [beginApply, if_pos hprepared]
  refine Program.Alike.bind (Program.ReadOnly.alike
    (readOnly_forM (fun i => readOnly_checkOriginal i _) _) hstill (fun _ _ => rfl) ht ?_)
  -- the preflight has compared every file
  refine wp_mono ?_ (fun _ _ _ => trivial) (fun _ _ => trivial) (wp_checks
    (P := fun i => matchesExpected env.sha256Hex ((t.target i).map (·.bytes))
      (record.operations i).original = true) (fun i => ?_) (List.finRange 7))
  swap
  · rw [checkOriginal, wp_bind]
    refine wp_readTarget ?_ fun _ => rfl
    split
    · rfl
    · next hmatches => exact ⟨rfl, by simpa using hmatches⟩
  rintro _ _ ⟨-, hmatches⟩
  have horiginals : OriginalsMatch env start disk := by
    intro i hi
    rw [← ht.keeping.targets i hi, ← (hfits.kept i hi).1]
    exact hmatches i (List.mem_finRange i)
  refine Program.Alike.bind (Program.ReadOnly.alike (readOnly_forM (fun i =>
    (readOnly_readTarget i).bind fun current => (readOnly_ofExcept _).bind fun _ =>
      readOnly_pure _) _) hstill (fun _ _ => rfl) ht ?_)
  refine wp_mono ?_ (fun _ _ _ => trivial) (fun _ _ => trivial) (wp_true _ t)
  intro _ _ _
  have hnext : Fits start ticket.ticketId (OmittedOperation start) AtWork
      { record with status := .applying } :=
    ⟨hfits.ticketId, hfits.desiredState, hfits.kept, Or.inl rfl⟩
  have hkeeping : Keeping start disk ticket.ticketId (OmittedOperation start) AtWork
      (t.writeRecord { record with status := .applying }) := by
    exact ⟨⟨_, findRecord_writeRecord { record with status := .applying } hfits.ticketId _, hnext⟩,
      ht.keeping.entries, ht.keeping.targets⟩
  refine Program.Alike.bind (alike_durable fun s' hs' => ?_)
  obtain rfl := hstill s' hs'
  refine ⟨ht, fun _ _ => rfl, ht, ?_⟩
  refine Program.Alike.bind (Program.Alike.bind (alike_ofExcept (fun _ _ => ?_) ht))
  refine alike_durable fun s₁ hs₁ => ?_
  obtain rfl := hstill s₁ hs₁
  refine ⟨ht, fun _ _ => rfl, ?_, hQ _ _ _ horiginals hnext (SameKept.refl _) hkeeping⟩
  exact undisturbed_of_keeping (SameKept.refl _) hkeeping (fun _ _ _ h => h)
    fun status hstatus => ⟨hstatus.ne_prepared, fun _ => horiginals⟩

/-- **An apply does the same**, whatever others do to omitted files once it has started. -/
theorem alike_applyRestore (hG : ∀ s s', G s s' → OutsideEdit start ticket.ticketId s s')
    (hs : Undisturbed env start disk ticket.ticketId s t) :
    Program.Alike G (KeepsOmitted start) (Undisturbed env start disk ticket.ticketId)
      (applyRestore env ticket) (fun _ => Undisturbed env start disk ticket.ticketId) s t := by
  have hgo : ∀ (manifest : SnapshotManifest δ) (record : TransactionRecord δ) s t,
      OriginalsMatch env start disk →
      Fits start ticket.ticketId (OmittedOperation start) AtWork record → SameKept start s t →
      Keeping start disk ticket.ticketId (OmittedOperation start) AtWork t →
      Program.Alike G (KeepsOmitted start) (Undisturbed env start disk ticket.ticketId)
        (do
          ensureBackupDirectory record.ticket.ticketId
          let record ← (List.finRange 7).foldlM (applyOperation env manifest) record
          let record := { record with status := .applied }
          writeTransaction record
          pure (outcome record) : RestoreProgram δ RestoreOutcome)
        (fun _ => Undisturbed env start disk ticket.ticketId) s t := by
    intro manifest record s t horiginals hfits hsame hkeeping
    have hwork : ∀ status, AtWork status → status ≠ .prepared ∧
        (status = .applying ∨ status = .applied → OriginalsMatch env start disk) :=
      fun status hstatus => ⟨hstatus.ne_prepared, fun _ => horiginals⟩
    exact alike_unseen hG (unseen_continueApply hfits) hsame hkeeping (fun _ _ _ h => h) hwork
      fun _ _ _ _ h ht => undisturbed_of_keeping h ht (fun _ _ _ h => h) hwork
  rw [applyRestore]
  refine Program.Alike.bind (alike_matching hG hs fun record s' hfind hmatching hs' => ?_)
  have hticket := hmatching.ticket
  have hfits := hs'.keeping.fits hfind
  rcases hstatus : record.status with _ | _ | _ | _ | _ | _
  · -- nobody has changed anything yet
    obtain rfl := hs'.unstarted record hfind hstatus
    show Program.Alike _ _ _ (applyRecord env record) _ _ _
    rw [applyRecord, hticket]
    refine Program.Alike.bind (alike_ofExcept (fun manifest _ => ?_) hs')
    exact Program.Alike.bind (alike_beginApply hG hs' hfind hstatus
      fun record₁ s₁ t₁ horiginals hfits₁ hsame hkeeping =>
        hgo manifest record₁ s₁ t₁ horiginals hfits₁ hsame hkeeping)
  · show Program.Alike _ _ _ (applyRecord env record) _ _ _
    rw [applyRecord, hticket]
    refine Program.Alike.bind (alike_ofExcept (fun manifest _ => ?_) hs')
    rw [beginApply, if_neg (by rw [hstatus]; decide), pure_bind]
    have hwork : Fits start ticket.ticketId (OmittedOperation start) AtWork record :=
      ⟨hfits.ticketId, hfits.desiredState, hfits.kept, Or.inl hstatus⟩
    exact hgo manifest record s' t (hs'.originals record hfind (Or.inl hstatus)) hwork
      hs'.same (hs'.keeping.of_find hfind hwork)
  · exact hs'
  · exact hs'
  · exact hs'
  · exact hs'

/-- **A commit does the same.** -/
theorem alike_commitRestore (hG : ∀ s s', G s s' → OutsideEdit start ticket.ticketId s s')
    (hs : Undisturbed env start disk ticket.ticketId s t) :
    Program.Alike G (KeepsOmitted start) (Undisturbed env start disk ticket.ticketId)
      (commitRestore env ticket) (fun _ => Undisturbed env start disk ticket.ticketId) s t := by
  rw [commitRestore]
  refine Program.Alike.bind (alike_matching hG hs fun record s' hfind _ hs' => ?_)
  have hfits := hs'.keeping.fits hfind
  -- past its preparation a record is committed without a look at the omitted files
  have hcommit : ∀ {p : RestoreProgram δ RestoreOutcome}, record.status ≠ .prepared →
      Unseen start disk ticket.ticketId (OmittedOperation start)
        (fun status => status = record.status ∨ status.Commits) (fun _ => True) p →
      Program.Alike G (KeepsOmitted start) (Undisturbed env start disk ticket.ticketId) p
        (fun _ => Undisturbed env start disk ticket.ticketId) s' t := by
    intro p hnot hp
    have hstatuses : ∀ status, status = record.status ∨ status.Commits → status ≠ .prepared ∧
        (status = .applying ∨ status = .applied → OriginalsMatch env start disk) := by
      rintro status (rfl | rfl | rfl)
      · exact ⟨hnot, hs'.originals record hfind⟩
      · exact ⟨by decide, fun h => absurd h (by decide)⟩
      · exact ⟨by decide, fun h => absurd h (by decide)⟩
    exact alike_unseen hG hp hs'.same (hs'.keeping.of_find hfind
      ⟨hfits.ticketId, hfits.desiredState, hfits.kept, Or.inl rfl⟩) (fun _ _ _ h => h) hstatuses
      fun _ _ _ _ h ht => undisturbed_of_keeping h ht (fun _ _ _ h => h) hstatuses
  have hwrite : ∀ status : RestoreStatus, status.Commits →
      Fits start ticket.ticketId (OmittedOperation start)
        (fun status => status = record.status ∨ status.Commits)
        { record with status := status } := fun status hcommits =>
    ⟨hfits.ticketId, hfits.desiredState, hfits.kept, Or.inr hcommits⟩
  have hfinish : ∀ status : RestoreStatus,
      Unseen start disk ticket.ticketId (OmittedOperation start)
        (fun status => status = record.status ∨ status.Commits) (fun _ => True)
        (finishCommit { record with status := status }) := by
    intro status
    rw [finishCommit, hfits.ticketId]
    exact Program.Blind.bind unseen_removeBackupDirectory fun _ _ =>
      Program.Blind.bind (unseen_writeTransaction (hwrite .committed (Or.inr rfl)))
        fun _ _ => trivial
  rcases hstatus : record.status with _ | _ | _ | _ | _ | _
  · exact hs'
  · exact hs'
  · refine hcommit (by rw [hstatus]; decide) ?_
    dsimp only
    split
    · trivial
    · exact Program.Blind.bind (unseen_writeTransaction (hwrite .committing (Or.inl rfl)))
        fun _ _ => hfinish .committing
  · exact hcommit (by rw [hstatus]; decide) (hfinish record.status)
  · refine hcommit (by rw [hstatus]; decide) ?_
    dsimp only
    rw [hfits.ticketId]
    exact Program.Blind.bind unseen_removeBackupDirectory fun _ _ => trivial
  · exact hs'

end Apply

/-! ## Rollback -/

section Rollback

variable [DecidableEq δ] {env : RestoreEnvironment δ} {start record : TransactionRecord δ}
  {disk : RestoreDisk δ} {id : String} {s t : RestoreDisk δ} {i : FileIndex}
  {G : RestoreDisk δ → RestoreDisk δ → Prop}

omit [DecidableEq δ] in
theorem valid_operation (h : validateTransactionRecord env record = .ok ())
    (i : FileIndex) : (record.operations i).original.size ≤ (FILE_POLICY i).maxBytes ∧
      ((record.operations i).desiredState = .omitted →
        (record.operations i).appliedSha256 = none) := by
  rw [validateTransactionRecord] at h
  split at h
  · cases h
  · obtain ⟨-, -, h⟩ := bind_eq_ok h
    obtain ⟨-, -, h⟩ := bind_eq_ok h
    have hop := eq_ok_of_forM h i (List.mem_finRange i)
    dsimp only at hop
    split at hop
    · cases hop
    · next horiginal =>
      split at hop
      · cases hop
      · split at hop
        · cases hop
        · next happlied =>
          refine ⟨by omega, fun homitted => ?_⟩
          rw [not_not, homitted] at happlied
          simpa using happlied.symm

theorem check_of_matches {path : String} {file : Option StoredFile} {limit : Nat}
    {original : ExpectedFile δ} {e : SnapshotError} {g : Option StoredFile → RestoreProgram δ Unit}
    (hg : ∀ current, g current = if matchesExpected env.sha256Hex (current.map (·.bytes)) original =
      false then throw e else pure ())
    (h : matchesExpected env.sha256Hex (file.map (·.bytes)) original = true)
    (hsize : original.size ≤ limit) :
    (Program.ofExcept (readRegularBounded path file limit) >>= g : RestoreProgram δ Unit) =
      pure () := by
  have hread : readRegularBounded path file limit = .ok file := by
    refine readRegularBounded_eq_ok.mpr ⟨rfl, fun stored hstored => ?_⟩
    rw [Option.mem_def] at hstored
    rw [hstored] at h
    obtain ⟨present, size, sha256⟩ := original
    rcases present with _ | _ <;> rcases sha256 with _ | sha256 <;>
      simp [matchesExpected] at h
    rw [h.1]
    exact hsize
  rw [hread]
  show g file = pure ()
  rw [hg, if_neg (by rw [h]; decide)]

/-- The state of the loop of a rollback: the record that it has come to is the durable one, as
far as the omitted files go, and these can pass the comparison with their originals. -/
structure RollingOmitted (env : RestoreEnvironment δ) (start : TransactionRecord δ)
    (disk : RestoreDisk δ) (id : String) (record : TransactionRecord δ)
    (s t : RestoreDisk δ) : Prop where
  same : SameKept start s t
  keeping : Keeping start disk id (fun i operation => operation = record.operations i)
    (fun status => status = record.status) t
  atWork : AtWork record.status
  fits : Fits start id (OmittedOperation start) AtWork record
  bounded : ∀ i, (record.operations i).original.size ≤ (FILE_POLICY i).maxBytes
  noApplied : ∀ i, start.Omits i → (record.operations i).appliedSha256 = none

theorem RollingOmitted.undisturbed (h : RollingOmitted env start disk id record s t)
    (horiginals : OriginalsMatch env start disk) : Undisturbed env start disk id s t := by
  refine undisturbed_of_keeping h.same h.keeping (fun i operation hi hoperation => ?_)
    fun status hstatus => ⟨?_, fun _ => horiginals⟩
  · rw [hoperation]
    exact h.fits.kept i hi
  · rw [hstatus]
    exact h.atWork.ne_prepared

omit [DecidableEq δ] in
theorem RollingOmitted.edit {s' : RestoreDisk δ}
    (h : RollingOmitted env start disk id record s t) (hs' : OutsideEdit start id s s') :
    RollingOmitted env start disk id record s' t :=
  ⟨hs'.sameKept h.same, h.keeping, h.atWork, h.fits, h.bounded, h.noApplied⟩

omit [DecidableEq δ] in
theorem RollingOmitted.rolledBack (h : RollingOmitted env start disk id record s t)
    {operation : RestoreOperation δ}
    (hoperation : operation = { record.operations i with
      status := .rolledBack, appliedSha256 := none })
    {s' t' : RestoreDisk δ} (hsame : SameKept start s' t')
    (hkeeping : Keeping start disk id
      (fun j other => other = (record.setOperation i operation).operations j)
      (fun status => status = record.status) t') :
    RollingOmitted env start disk id (record.setOperation i operation) s' t' := by
  subst hoperation
  refine ⟨hsame, hkeeping, h.atWork, h.fits.setOperation _ (h.fits.desiredState i) fun hi =>
    ⟨(h.fits.kept i hi).1, Or.inr (Or.inr rfl)⟩, fun j => ?_, fun j hj => ?_⟩
  · by_cases hji : j = i
    · rw [hji, operations_setOperation_self]; exact h.bounded i
    · rw [operations_setOperation_of_ne _ _ hji]; exact h.bounded j
  · by_cases hji : j = i
    · rw [hji, operations_setOperation_self]
    · rw [operations_setOperation_of_ne _ _ hji]; exact h.noApplied j hj

/-- The rollback of an omitted file that is recorded as applied compares the file with the
recorded original, and does nothing. -/
theorem alike_restoreOmitted (hG : ∀ s s', G s s' → OutsideEdit start id s s' ∧ Unedited env id s')
    (horiginals : OriginalsMatch env start disk)
    (h : RollingOmitted env start disk id record s t) (hi : start.Omits i)
    (happlied : (record.operations i).status = .applied) :
    Program.Alike G (KeepsOmitted start) (Undisturbed env start disk id)
      (restoreOriginal env id i (record.operations i))
      (fun _ => RollingOmitted env start disk id record) s t := by
  have hentry : ∀ suffix, t.entry id ⟨i, suffix, false⟩ = none := fun suffix =>
    h.keeping.entries i suffix hi
  -- a backup is not there on either disk
  have hbackup : ∀ {α : Type} (suffix : BackupSuffix) (g : Option StoredFile → RestoreProgram δ α)
      (Q : α → RestoreDisk δ → RestoreDisk δ → Prop) s,
      RollingOmitted env start disk id record s t →
      (∀ s', RollingOmitted env start disk id record s' t →
        Program.Alike G (KeepsOmitted start) (Undisturbed env start disk id) (g none) Q s' t) →
      Program.Alike G (KeepsOmitted start) (Undisturbed env start disk id)
        (readBackup id ⟨i, suffix, false⟩ >>= g) Q s t := by
    intro α suffix g Q s hs hg
    rw [readBackup, bind_assoc]
    refine alike_read fun s' hs' => ?_
    have hnext := hs.edit (hG s s' hs').1
    rw [hnext.same.entry, hentry]
    exact ⟨rfl, hg s' hnext⟩
  -- the file is the recorded original on both disks
  have hmatches : ∀ s s', RollingOmitted env start disk id record s t → G s s' →
      matchesExpected env.sha256Hex ((s'.target i).map (·.bytes))
        (record.operations i).original = true := by
    intro s s' hs hs'
    have hnext := hs.edit (hG s s' hs').1
    obtain ⟨stored, hstored, hfits⟩ := hnext.keeping.stored
    have hoperation := hfits.kept i hi
    have hunedited := (hG s s' hs').2 stored (by rw [hnext.same.transactions]; exact hstored)
      (by rw [hfits.status]; exact hnext.atWork) i
      (by rw [TransactionRecord.Omits, hfits.desiredState]; exact hi)
      (by rw [hoperation]; exact happlied)
    rw [hoperation] at hunedited
    exact hunedited
  have hmatches_t : matchesExpected env.sha256Hex ((t.target i).map (·.bytes))
      (record.operations i).original = true := by
    rw [h.keeping.targets i hi, (h.fits.kept i hi).1]
    exact horiginals i hi
  rw [restoreOriginal]
  refine hbackup _ _ _ s h fun s₁ h₁ => ?_
  dsimp only
  split
  · rw [readTarget, bind_assoc]
    refine alike_read fun s' hs' => ?_
    have hnext := h₁.edit (hG s₁ s' hs').1
    rw [check_of_matches (fun _ => rfl) hmatches_t (h.bounded i),
      check_of_matches (fun _ => rfl) (hmatches s₁ s' h₁ hs') (h.bounded i)]
    exact ⟨rfl, hnext⟩
  · next habsent =>
    have hnone : ∀ file : Option StoredFile, matchesExpected env.sha256Hex
        (file.map (·.bytes)) (record.operations i).original = true → file = none := by
      intro file hfile
      rw [present_of_matchesExpected hfile] at habsent
      simpa using habsent
    rw [moveRollbackDiscard]
    refine hbackup _ _ _ s₁ h₁ fun s₂ h₂ => ?_
    rw [readTarget, bind_assoc]
    refine alike_read fun s' hs' => ?_
    have hnext := h₂.edit (hG s₂ s' hs').1
    rw [hnone _ hmatches_t, hnone _ (hmatches s₂ s' h₂ hs'), happlied, h.noApplied i hi]
    exact ⟨rfl, hnext⟩

/-- **One operation of a rollback does the same.** -/
theorem alike_rollbackOperation
    (hG : ∀ s s', G s s' → OutsideEdit start id s s' ∧ Unedited env id s')
    (horiginals : OriginalsMatch env start disk)
    (h : RollingOmitted env start disk id record s t) (i : FileIndex) :
    Program.Alike G (KeepsOmitted start) (Undisturbed env start disk id)
      (rollbackOperation env record i)
      (fun record' => RollingOmitted env start disk id record') s t := by
  have hedit : ∀ s s', G s s' → OutsideEdit start id s s' := fun s s' hs' => (hG s s' hs').1
  have hstatuses : ∀ status, status = record.status → status ≠ .prepared ∧
      (status = .applying ∨ status = .applied → OriginalsMatch env start disk) := by
    rintro status rfl
    exact ⟨h.atWork.ne_prepared, fun _ => horiginals⟩
  have hshape : ∀ j operation, start.Omits j → operation = record.operations j →
      OmittedOperation start j operation := by
    rintro j operation hj rfl
    exact h.fits.kept j hj
  have hfits : Fits start id (fun j operation => operation = record.operations j)
      (fun status => status = record.status) record :=
    ⟨h.fits.ticketId, h.fits.desiredState, fun _ _ => rfl, rfl⟩
  rw [rollbackOperation]
  dsimp only
  split
  · exact h
  · next hnot =>
    rw [h.fits.ticketId]
    by_cases hi : start.Omits i
    · have happlied : (record.operations i).status = .applied := by
        rcases (h.fits.kept i hi).2 with hs | hs | hs
        · exact absurd (Or.inl hs) hnot
        · exact hs
        · exact absurd (Or.inr hs) hnot
      refine Program.Alike.bind ((alike_restoreOmitted hG horiginals h hi happlied).mono
        (fun _ s₁ t₁ h₁ => ?_) fun _ _ h => h)
      -- the write of the record, which is what the next step finds
      have hnext : Fits start id
          (fun j other => other = (record.setOperation i { record.operations i with
            status := .rolledBack, appliedSha256 := none }).operations j)
          (fun status => status = record.status)
          (record.setOperation i { record.operations i with
            status := .rolledBack, appliedSha256 := none }) :=
        ⟨h.fits.ticketId, (h.fits.setOperation { record.operations i with
          status := .rolledBack, appliedSha256 := none } (h.fits.desiredState i) fun hi =>
            ⟨(h.fits.kept i hi).1, Or.inr (Or.inr rfl)⟩).desiredState, fun _ _ => rfl, rfl⟩
      refine Program.Alike.bind (Program.Alike.bind (alike_ofExcept (fun _ _ => ?_)
        (h₁.undisturbed horiginals)))
      refine alike_durable fun s' hs' => ?_
      have hcurrent := h₁.edit (hedit s₁ s' hs')
      have hwritten : RollingOmitted env start disk id _ (s'.writeRecord _) (t₁.writeRecord _) :=
        h₁.rolledBack rfl
          (hcurrent.same.writeRecord (record.setOperation i
            { record.operations i with status := .rolledBack, appliedSha256 := none }))
          ⟨⟨_, findRecord_writeRecord _ hnext.ticketId _, hnext⟩, h₁.keeping.entries,
            h₁.keeping.targets⟩
      exact ⟨hcurrent.undisturbed horiginals, fun _ _ => rfl, hwritten.undisturbed horiginals,
        hwritten⟩
    · refine Program.Alike.bind (alike_unseen hedit (unseen_restoreOriginal hi _) h.same h.keeping
        hshape hstatuses fun _ s₁ t₁ _ hs₁ ht₁ => ?_)
      have hother : ∀ j, start.Omits j → j ≠ i := fun j hj hji => hi (hji ▸ hj)
      have hnext := hfits.setOperation { record.operations i with
        status := .rolledBack, appliedSha256 := none } (h.fits.desiredState i)
        fun hi' => absurd hi' hi
      refine Program.Alike.bind (alike_unseen hedit (unseen_writeTransaction hnext) hs₁ ht₁ hshape
        hstatuses fun _ s₂ t₂ _ hs₂ ht₂ => ?_)
      refine h.rolledBack rfl hs₂ (ht₂.mono (fun j operation hj hoperation => ?_) fun _ h => h)
      rw [hoperation, operations_setOperation_of_ne _ _ (hother j hj)]

/-- **A rollback does the same**, as long as the omitted files that are recorded as applied
have their original content. -/
theorem alike_rollbackRestore {ticket : RestoreTicket δ}
    (hG : ∀ s s', G s s' → OutsideEdit start ticket.ticketId s s' ∧
      Unedited env ticket.ticketId s')
    (hs : Undisturbed env start disk ticket.ticketId s t) :
    Program.Alike G (KeepsOmitted start) (Undisturbed env start disk ticket.ticketId)
      (rollbackRestore env ticket) (fun _ => Undisturbed env start disk ticket.ticketId) s t := by
  have hedit : ∀ s s', G s s' → OutsideEdit start ticket.ticketId s s' :=
    fun s s' hs' => (hG s s' hs').1
  rw [rollbackRestore]
  refine Program.Alike.bind (alike_matching hedit hs fun record s' hfind hmatching hs' => ?_)
  have hfits := hs'.keeping.fits hfind
  -- the end of a rollback
  have hrolledBack : ∀ status, status = RestoreStatus.rolledBack → status ≠ .prepared ∧
      (status = .applying ∨ status = .applied → OriginalsMatch env start disk) := by
    rintro status rfl
    exact ⟨by decide, fun h => absurd h (by decide)⟩
  have hremove : ∀ (record : TransactionRecord δ) (rest : RestoreProgram δ RestoreOutcome) s t,
      Undisturbed env start disk ticket.ticketId s t →
      findRecord ticket.ticketId t.transactions = some record → record.status ≠ .prepared →
      (∀ s t, Undisturbed env start disk ticket.ticketId s t →
        Program.Alike G (KeepsOmitted start) (Undisturbed env start disk ticket.ticketId) rest
          (fun _ => Undisturbed env start disk ticket.ticketId) s t) →
      Program.Alike G (KeepsOmitted start) (Undisturbed env start disk ticket.ticketId)
        (removeBackupDirectory ticket.ticketId >>= fun _ => rest)
        (fun _ => Undisturbed env start disk ticket.ticketId) s t := by
    intro record rest s t hst hfind hnot hrest
    have hstatuses : ∀ status, status = record.status → status ≠ .prepared ∧
        (status = .applying ∨ status = .applied → OriginalsMatch env start disk) := by
      rintro status rfl
      exact ⟨hnot, hst.originals record hfind⟩
    have hfits := hst.keeping.fits hfind
    have hkeeping : Keeping start disk ticket.ticketId (OmittedOperation start)
        (fun status => status = record.status) t :=
      hst.keeping.of_find hfind ⟨hfits.ticketId, hfits.desiredState, hfits.kept, rfl⟩
    exact Program.Alike.bind (alike_unseen hedit unseen_removeBackupDirectory hst.same hkeeping
      (fun _ _ _ h => h) hstatuses fun _ s₁ t₁ _ hs₁ ht₁ =>
        hrest s₁ t₁ (undisturbed_of_keeping hs₁ ht₁ (fun _ _ _ h => h) hstatuses))
  have hfinish : ∀ (record : TransactionRecord δ) s t,
      Fits start ticket.ticketId (OmittedOperation start) (fun _ => True) record →
      Undisturbed env start disk ticket.ticketId s t →
      Program.Alike G (KeepsOmitted start) (Undisturbed env start disk ticket.ticketId)
        (finishRollback record) (fun _ => Undisturbed env start disk ticket.ticketId) s t := by
    intro record s t hrecord hst
    rw [finishRollback]
    refine Program.Alike.bind (Program.Alike.bind (alike_ofExcept (fun _ _ => ?_) hst))
    refine alike_durable fun s₁ hs₁ => ?_
    have hcurrent := hst.edit (hedit s s₁ hs₁)
    have hlast : Undisturbed env start disk ticket.ticketId
        (s₁.writeRecord { record with status := .rolledBack, materializationPending := false })
        (t.writeRecord { record with status := .rolledBack, materializationPending := false }) := by
      have hkeeping : Keeping start disk ticket.ticketId (OmittedOperation start)
          (fun status => status = .rolledBack)
          (t.writeRecord { record with status := .rolledBack, materializationPending := false }) :=
        ⟨⟨_, findRecord_writeRecord
          { record with status := .rolledBack, materializationPending := false }
          hrecord.ticketId _, hrecord.ticketId, hrecord.desiredState,
          hrecord.kept, rfl⟩, hcurrent.keeping.entries, hcurrent.keeping.targets⟩
      exact undisturbed_of_keeping (hcurrent.same.writeRecord _) hkeeping (fun _ _ _ h => h)
        hrolledBack
    exact ⟨hcurrent, fun _ _ => rfl, hlast, hlast⟩
  -- the loop of a rollback
  have hroll : AtWork record.status →
      Program.Alike G (KeepsOmitted start) (Undisturbed env start disk ticket.ticketId)
        (rollbackRecord env record) (fun _ => Undisturbed env start disk ticket.ticketId) s' t := by
    intro hwork
    have horiginals := hs'.originals record hfind hwork
    have hbegin : RollingOmitted env start disk ticket.ticketId record s' t :=
      ⟨hs'.same, hs'.keeping.of_find hfind ⟨hfits.ticketId, hfits.desiredState, fun _ _ => rfl,
        rfl⟩, hwork, ⟨hfits.ticketId, hfits.desiredState, hfits.kept, hwork⟩,
        fun i => (valid_operation hmatching.valid i).1, fun i hi =>
          (valid_operation hmatching.valid i).2 (by rw [hfits.desiredState]; exact hi)⟩
    rw [rollbackRecord]
    refine Program.Alike.bind ((alike_foldlM
      (I := fun _ record s t => RollingOmitted env start disk ticket.ticketId record s t)
      (fun i _ record s t h => alike_rollbackOperation hG horiginals h i) _ record s' t
      hbegin).mono (fun record₁ s₁ t₁ h₁ => ?_) fun _ _ h => h)
    obtain ⟨stored, hstored, hstoredFits⟩ := h₁.keeping.stored
    rw [h₁.fits.ticketId]
    refine hremove stored _ s₁ t₁ (h₁.undisturbed horiginals) hstored
      (by rw [hstoredFits.status]; exact h₁.atWork.ne_prepared) fun s₂ t₂ h₂ => ?_
    exact hfinish record₁ s₂ t₂
      ⟨h₁.fits.ticketId, h₁.fits.desiredState, h₁.fits.kept, trivial⟩ h₂
  rcases hstatus : record.status with _ | _ | _ | _ | _ | _
  · exact hfinish record s' t hfits hs'
  · exact hroll (Or.inl hstatus)
  · exact hroll (Or.inr hstatus)
  · exact hs'
  · exact hs'
  · show Program.Alike _ _ _ (removeBackupDirectory record.ticket.ticketId >>= _) _ _ _
    rw [hfits.ticketId]
    exact hremove record _ s' t hs' hfind (by rw [hstatus]; decide) fun s₁ t₁ h₁ => h₁

end Rollback

/-! ## Sessions -/

section Sessions

variable [DecidableEq δ]

theorem undisturbed_of_unstarted (env : RestoreEnvironment δ) {start : TransactionRecord δ}
    {disk : RestoreDisk δ} {id : String} (hunstarted : Unstarted id disk)
    (hfind : findRecord id disk.transactions = some start) :
    Undisturbed env start disk id disk disk := by
  obtain ⟨record, hrecord, hprepared, hpending, hbackups⟩ := hunstarted
  rw [hfind] at hrecord
  obtain rfl := Option.some.inj hrecord
  refine ⟨SameKept.refl disk, ⟨⟨start, hfind, ticketId_of_findRecord hfind, fun _ => rfl,
    fun i _ => ⟨rfl, Or.inl (hpending i)⟩, trivial⟩, fun i suffix _ => ?_, fun _ _ => rfl⟩,
    fun _ _ _ => rfl, fun record hrecord hwork => ?_⟩
  · rw [RestoreDisk.entry, hbackups]
    rfl
  · rw [hfind] at hrecord
    rw [← Option.some.inj hrecord, hprepared] at hwork
    exact absurd hwork (by decide)

end Sessions

/-! ## A snapshot that omits a file -/

/-- The snapshot of two files, which omits file 5. -/
def omittingFiles : SnapshotManifest Bytes :=
  { twoFiles with files := fun i =>
      if i = 5 then { twoFiles.files i with state := .omitted } else twoFiles.files i }

def omittingEnvironment : RestoreEnvironment Bytes :=
  { twoFilesEnvironment with loadSnapshot := fun _ => .ok omittingFiles }

/-- The disk on which the restore has been prepared. -/
def omittingPrepared : RestoreDisk Bytes :=
  Session.after (prepareRestore omittingEnvironment "manual-1" "restore-1" 0) [] emptyProfile

theorem omittingPrepared_unstarted : Unstarted twoFilesTicket.ticketId omittingPrepared := by
  have hok : ((prepareRestore omittingEnvironment "manual-1" "restore-1" 0).run []
      emptyProfile).1 = .ok twoFilesTicket := by decide +kernel
  exact unstarted_of_prepareRestore (show emptyProfile.backups _ = none from rfl) (Prod.ext hok rfl)

def createOmitted (s : RestoreDisk Bytes) : RestoreDisk Bytes :=
  s.setTarget 5 (some ⟨ascii "mine", 0o644⟩)

theorem OutsideEdit.refl (start : TransactionRecord δ) (id : String) (s : RestoreDisk δ) :
    OutsideEdit start id s s := ⟨rfl, rfl, fun _ h => absurd rfl h, fun _ _ _ => rfl⟩

theorem outsideEdit_createOmitted {start : TransactionRecord Bytes} {s : RestoreDisk Bytes}
    (homits : start.Omits 5)
    (hstarted : (findRecord "restore-1" s.transactions).map (·.status) ≠ some .prepared) :
    OutsideEdit start "restore-1" s (createOmitted s) := by
  refine ⟨rfl, rfl, fun i hi => ?_, fun record hfind hprepared => ?_⟩
  · by_cases h5 : i = 5
    · rw [h5]; exact homits
    · exact absurd (Function.update_of_ne h5 ..) hi
  · rw [hfind, Option.map_some, hprepared] at hstarted
    exact absurd rfl hstarted

theorem exists_omittingStart : ∃ start,
    findRecord "restore-1" omittingPrepared.transactions = some start ∧ start.Omits 5 := by
  have homits : (findRecord "restore-1" omittingPrepared.transactions).map
      (fun record => (record.operations 5).desiredState) = some .omitted := by decide +kernel
  exact Option.map_eq_some_iff.mp homits

/-- An apply that stops, the creation of the omitted file, and an apply that resumes. -/
def createsBeforeResume : List (Session.Visit RecoveryCall (RestoreDisk Bytes)) :=
  [⟨.apply, [], stopsAtThirdFile⟩, ⟨.recover .resumeApply, [createOmitted], []⟩]

/-- An apply, the creation of the omitted file, and a rollback. -/
def createsBeforeRollback : List (Session.Visit RecoveryCall (RestoreDisk Bytes)) :=
  [⟨.apply, [], []⟩, ⟨.rollback, [createOmitted], []⟩]

end DshNexus.Snapshot
