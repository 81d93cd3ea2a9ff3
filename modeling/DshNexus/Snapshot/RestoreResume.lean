import DshNexus.Snapshot.RestoreSession

/-!
# Resuming an apply

An apply that is cut by an error or a crash is resumed by the next one, from the status that
the record has for each file.  Nothing else touches the files in between.  A resumed apply then
does what one uninterrupted apply does from the beginning, provided that no apply starts
between the write of a file and the change of its mode: a file that is already there is taken
as it is, with the mode of a private file.

* `Started`: what the first write of an apply has checked.
* `FileProgress`: how far an apply has come with a file.  A file that has been written but has
  not received its mode is a state of its own, which the parameter `cut` admits.
* `Resumable`: the durable record belongs to the plan and says how far each file has come.
* `wp_applyOperation_resumable`: every cut of an operation, resumed or not, can be resumed.
-/

namespace DshNexus.Snapshot

open Durable Program

variable {δ : Type}

/-! ## What an apply leaves -/

/-- The mode of a file that an apply has placed. -/
def finalMode : Option Nat → Nat
  | none => privateMode
  | some mode => mode &&& 0o777

def DesiredFile.placed (desired : DesiredFile) : Option StoredFile :=
  desired.bytes.map fun bytes => ⟨bytes, finalMode desired.mode⟩

/-- The same file before the change of its mode. -/
def DesiredFile.written (desired : DesiredFile) : Option StoredFile :=
  desired.bytes.map fun bytes => ⟨bytes, privateMode⟩

/-- The transaction has been prepared and nothing of it has been applied. -/
def Unstarted (id : String) (s : RestoreDisk δ) : Prop :=
  ∃ record, findRecord id s.transactions = some record ∧ record.status = .prepared ∧
    (∀ i, (record.operations i).status = .pending) ∧ s.backups id = none

/-- No file has been written without its mode: a file of a backed up operation that is there
has the mode that the snapshot gives it. -/
def ModesSettled (env : RestoreEnvironment δ) (ticket : RestoreTicket δ) (s : RestoreDisk δ) :
    Prop :=
  ∀ record manifest, findRecord ticket.ticketId s.transactions = some record →
    env.loadSnapshot ticket.snapshotId = .ok manifest →
    ∀ i file, (record.operations i).status = .backedUp → s.target i = some file →
      file.mode = finalMode (manifest.files i).mode

/-- A transaction and the files that it begins with, with what the apply makes of them. -/
structure ApplyPlan (δ : Type) where
  start : TransactionRecord δ
  orig : FileIndex → Option StoredFile
  manifest : SnapshotManifest δ
  desired : FileIndex → DesiredFile

/-- What an apply leaves at the place of a file. -/
def ApplyPlan.final (plan : ApplyPlan δ) (i : FileIndex) : Option StoredFile :=
  if (plan.start.operations i).desiredState = .omitted then plan.orig i
  else (plan.desired i).placed

/-- The desired content of a file is the recorded one. -/
def ApplyPlan.Settled (env : RestoreEnvironment δ) (plan : ApplyPlan δ) (i : FileIndex) : Prop :=
  (plan.desired i).bytes.map env.sha256Hex = (plan.start.operations i).desiredSha256

section Matching

variable [DecidableEq δ] {env : RestoreEnvironment δ} {ticket : RestoreTicket δ}
  {record : TransactionRecord δ} {s : RestoreDisk δ}

/-- The record can be read with the ticket. -/
structure Matching (env : RestoreEnvironment δ) (ticket : RestoreTicket δ)
    (record : TransactionRecord δ) : Prop where
  schema : ticket.schema = TRANSACTION_SCHEMA_VERSION
  profileName : ticket.profileName = env.profileName
  identifier : validateIdentifier ticket.ticketId = .ok ()
  valid : validateTransactionRecord env record = .ok ()
  ticket : record.ticket = ticket

theorem wp_matching {Q : TransactionRecord δ → RestoreDisk δ → Prop}
    {E : SnapshotError → RestoreDisk δ → Prop} {C : RestoreDisk δ → Prop}
    (hQ : ∀ record, findRecord ticket.ticketId s.transactions = some record →
      Matching env ticket record → Q record s) (hE : ∀ e, E e s) :
    (readMatchingTransaction env ticket).wp Q E C s := by
  rw [readMatchingTransaction]
  split
  · exact hE _
  · next hticket =>
    obtain ⟨hschema, hprofile⟩ := not_or.mp hticket
    rw [wp_bind, readTransaction, wp_bind, wp_ofExcept]
    refine ⟨fun _ hid => ?_, fun e _ => hE e⟩
    rw [wp_bind, wp_read]
    split
    · exact hE _
    · next record hfind =>
      rw [wp_bind, wp_ofExcept]
      refine ⟨fun _ hvalid => ?_, fun e _ => hE e⟩
      rw [wp_pure]
      split
      · exact hE _
      · next hsame =>
        exact hQ record hfind ⟨not_not.mp hschema, not_not.mp hprofile, hid, hvalid,
          not_not.mp hsame⟩

theorem Matching.returns {Q : TransactionRecord δ → RestoreDisk δ → Prop}
    (h : Matching env ticket record)
    (hfind : findRecord ticket.ticketId s.transactions = some record) (hQ : Q record s) :
    (readMatchingTransaction env ticket).returns Q s := by
  rw [readMatchingTransaction, if_neg (by simp [h.schema, h.profileName]),
    returns_bind, readTransaction, returns_bind, returns_ofExcept]
  refine ⟨(), h.identifier, ?_⟩
  rw [returns_bind, returns_read, hfind]
  show (Program.ofExcept _ >>= _ : RestoreProgram δ _).returns _ _
  rw [returns_bind, returns_ofExcept]
  refine ⟨(), h.valid, ?_⟩
  rw [returns_pure, if_neg (not_not.mpr h.ticket)]
  exact hQ

theorem present_of_matchesExpected {current : Option Bytes} {expected : ExpectedFile δ}
    (h : matchesExpected env.sha256Hex current expected = true) :
    expected.present = current.isSome := by
  rcases current with _ | current <;> rcases expected with ⟨_ | _, size, _ | sha256⟩ <;>
    simp_all [matchesExpected]

/-- What the first write of an apply has checked. -/
structure Started (env : RestoreEnvironment δ) (ticket : RestoreTicket δ) (plan : ApplyPlan δ) :
    Prop where
  matching : Matching env ticket plan.start
  revalidated : revalidateTicketSnapshot env ticket = .ok plan.manifest
  original : ∀ i, matchesExpected env.sha256Hex ((plan.orig i).map (·.bytes))
    (plan.start.operations i).original = true
  bounded : ∀ i, ∀ file ∈ plan.orig i, file.bytes.length ≤ (FILE_POLICY i).maxBytes
  desired : ∀ i, desiredFile env plan.manifest i ((plan.orig i).map (·.bytes)) =
    .ok (plan.desired i)

variable {plan : ApplyPlan δ}

theorem Started.present (h : Started env ticket plan) (i : FileIndex) :
    (plan.start.operations i).original.present = (plan.orig i).isSome := by
  rw [present_of_matchesExpected (h.original i), Option.isSome_map]

theorem Started.loadSnapshot (h : Started env ticket plan) :
    env.loadSnapshot ticket.snapshotId = .ok plan.manifest := by
  obtain ⟨manifest, hdetail, hrest⟩ := bind_eq_ok h.revalidated
  obtain ⟨digest, -, hdigest⟩ := bind_eq_ok hrest
  obtain ⟨-, -, hload⟩ := bind_eq_ok hdetail
  split at hdigest
  · exact nomatch hdigest
  · rw [← Except.ok.inj hdigest]
    exact hload

omit [DecidableEq δ] in
theorem mode_of_desiredFile {manifest : SnapshotManifest δ} {i : FileIndex}
    {current : Option Bytes} {desired : DesiredFile}
    (h : desiredFile env manifest i current = .ok desired) (hthere : desired.bytes.isSome = true) :
    desired.mode = (manifest.files i).mode := by
  have hstate := (desiredFile_eq_ok h).1.mp hthere
  rw [desiredFile, hstate] at h
  obtain ⟨snapshot, -, h⟩ := bind_eq_ok h
  obtain ⟨bytes, -, h⟩ := bind_eq_ok h
  split at h
  · exact nomatch h
  · rw [← Except.ok.inj h]

end Matching

/-! ## How far an apply has come with a file -/

/-- The states of a file between two steps of an apply, with the statuses of its operation
under which each may be found.  Its backup is the file that the original moves to. -/
inductive FileProgress (env : RestoreEnvironment δ) (plan : ApplyPlan δ) (cut : Prop)
    (i : FileIndex) (status : OperationStatus) (target backup : Option StoredFile) : Prop where
  /-- where it was before the apply -/
  | home (htarget : target = plan.orig i) (hbackup : backup = none)
      (hstatus : status = .pending ∨ status = .applying ∨
        status = .backedUp ∧ plan.orig i = none)
  /-- counted as applied, because the snapshot does not have it -/
  | omitted (htarget : target = plan.orig i)
      (homitted : (plan.start.operations i).desiredState = .omitted) (hstatus : status = .applied)
  /-- moved into the backup directory -/
  | away (htarget : target = none) (hbackup : backup = plan.orig i)
      (horig : (plan.orig i).isSome = true)
      (hkept : (plan.start.operations i).desiredState ≠ .omitted)
      (hstatus : status = .applying ∨ status = .backedUp)
  /-- written, without its mode -/
  | written (hcut : cut) (htarget : target = (plan.desired i).written)
      (hthere : (plan.desired i).bytes.isSome = true) (hbackup : backup = plan.orig i)
      (hsettled : plan.Settled env i)
      (hkept : (plan.start.operations i).desiredState ≠ .omitted) (hstatus : status = .backedUp)
  /-- as the apply leaves it -/
  | placed (htarget : target = (plan.desired i).placed) (hbackup : backup = plan.orig i)
      (hsettled : plan.Settled env i)
      (hkept : (plan.start.operations i).desiredState ≠ .omitted)
      (hstatus : status = .backedUp ∨ status = .applied)

section FileProgress

variable {env : RestoreEnvironment δ} {plan : ApplyPlan δ} {cut : Prop} {i : FileIndex}
  {status : OperationStatus} {target backup : Option StoredFile}

theorem FileProgress.mono {cut' : Prop} (hcut : cut → cut')
    (h : FileProgress env plan cut i status target backup) :
    FileProgress env plan cut' i status target backup := by
  cases h with
  | home htarget hbackup hstatus => exact .home htarget hbackup hstatus
  | omitted htarget homitted hstatus => exact .omitted htarget homitted hstatus
  | away htarget hbackup horig hkept hstatus => exact .away htarget hbackup horig hkept hstatus
  | written h htarget hthere hbackup hsettled hkept hstatus =>
    exact .written (hcut h) htarget hthere hbackup hsettled hkept hstatus
  | placed htarget hbackup hsettled hkept hstatus =>
    exact .placed htarget hbackup hsettled hkept hstatus

theorem FileProgress.of_pending (h : FileProgress env plan cut i .pending target backup) :
    target = plan.orig i ∧ backup = none := by
  cases h with
  | home htarget hbackup => exact ⟨htarget, hbackup⟩
  | omitted _ _ hstatus => exact nomatch hstatus
  | away _ _ _ _ hstatus => simp at hstatus
  | written _ _ _ _ _ _ hstatus => exact nomatch hstatus
  | placed _ _ _ _ hstatus => simp at hstatus

theorem FileProgress.of_applying (h : FileProgress env plan cut i .applying target backup) :
    target = plan.orig i ∧ backup = none ∨
      target = none ∧ backup = plan.orig i ∧ (plan.orig i).isSome = true := by
  cases h with
  | home htarget hbackup => exact Or.inl ⟨htarget, hbackup⟩
  | omitted _ _ hstatus => exact nomatch hstatus
  | away htarget hbackup horig => exact Or.inr ⟨htarget, hbackup, horig⟩
  | written _ _ _ _ _ _ hstatus => exact nomatch hstatus
  | placed _ _ _ _ hstatus => simp at hstatus

theorem FileProgress.of_backedUp (h : FileProgress env plan False i .backedUp target backup) :
    backup = plan.orig i ∧ (target = none ∨ target = (plan.desired i).placed) := by
  cases h with
  | home htarget hbackup hstatus =>
    have horig : plan.orig i = none := by simpa using hstatus
    exact ⟨by rw [hbackup, horig], Or.inl (by rw [htarget, horig])⟩
  | omitted _ _ hstatus => exact nomatch hstatus
  | away htarget hbackup => exact ⟨hbackup, Or.inl htarget⟩
  | written hcut => exact hcut.elim
  | placed htarget hbackup => exact ⟨hbackup, Or.inr htarget⟩

theorem FileProgress.of_applied (h : FileProgress env plan cut i .applied target backup) :
    target = plan.final i ∧
      ((plan.start.operations i).desiredState ≠ .omitted → plan.Settled env i) := by
  cases h with
  | home _ _ hstatus => simp at hstatus
  | omitted htarget homitted =>
    exact ⟨by rw [ApplyPlan.final, if_pos homitted]; exact htarget, fun h => absurd homitted h⟩
  | away _ _ _ _ hstatus => simp at hstatus
  | written _ _ _ _ _ _ hstatus => exact nomatch hstatus
  | placed htarget _ hsettled hkept =>
    exact ⟨by rw [ApplyPlan.final, if_neg hkept]; exact htarget, fun _ => hsettled⟩

end FileProgress

/-! ## A transaction that can be resumed -/

section Resumable

variable (env : RestoreEnvironment δ) (ticket : RestoreTicket δ) (plan : ApplyPlan δ)

/-- The durable record belongs to the plan, and its statuses say how far each file has come. -/
structure Resumable (cut : Prop) (record : TransactionRecord δ) (s : RestoreDisk δ) : Prop where
  stored : findRecord ticket.ticketId s.transactions = some record
  belongs : record.ticket = ticket
  original : ∀ i, (record.operations i).original = (plan.start.operations i).original
  desiredState : ∀ i, (record.operations i).desiredState = (plan.start.operations i).desiredState
  desiredSha256 : ∀ i,
    (record.operations i).desiredSha256 = (plan.start.operations i).desiredSha256
  files : ∀ i, FileProgress env plan cut i (record.operations i).status (s.target i)
    (s.entry ticket.ticketId ⟨i, .original, false⟩)

def Cut (s : RestoreDisk δ) : Prop :=
  ∃ record, Resumable env ticket plan True record s ∧ record.status = .applying

variable {env ticket plan} {cut : Prop} {record : TransactionRecord δ} {s : RestoreDisk δ}
  {i : FileIndex}

theorem Resumable.mono {cut' : Prop} (hcut : cut → cut')
    (h : Resumable env ticket plan cut record s) : Resumable env ticket plan cut' record s :=
  ⟨h.stored, h.belongs, h.original, h.desiredState, h.desiredSha256,
    fun i => (h.files i).mono hcut⟩

theorem Resumable.atCut (h : Resumable env ticket plan cut record s)
    (happlying : record.status = .applying) : Cut env ticket plan s :=
  ⟨record, h.mono fun _ => trivial, happlying⟩

theorem Resumable.change (s' : RestoreDisk δ) (h : Resumable env ticket plan cut record s)
    (htransactions : s'.transactions = s.transactions)
    (hothers : ∀ j, j ≠ i → s'.target j = s.target j ∧
      s'.entry ticket.ticketId ⟨j, .original, false⟩ =
        s.entry ticket.ticketId ⟨j, .original, false⟩) {cut' : Prop} (hcut : cut → cut')
    (hfile : FileProgress env plan cut' i (record.operations i).status (s'.target i)
      (s'.entry ticket.ticketId ⟨i, .original, false⟩)) :
    Resumable env ticket plan cut' record s' where
  stored := by rw [htransactions]; exact h.stored
  belongs := h.belongs
  original := h.original
  desiredState := h.desiredState
  desiredSha256 := h.desiredSha256
  files j := by
    by_cases hj : j = i
    · rw [hj]; exact hfile
    · rw [(hothers j hj).1, (hothers j hj).2]; exact (h.files j).mono hcut

theorem Resumable.setTarget (h : Resumable env ticket plan cut record s)
    {file : Option StoredFile} {cut' : Prop} (hcut : cut → cut')
    (hfile : FileProgress env plan cut' i (record.operations i).status file
      (s.entry ticket.ticketId ⟨i, .original, false⟩)) :
    Resumable env ticket plan cut' record (s.setTarget i file) := by
  refine h.change (i := i) (s.setTarget i file) rfl (fun j hj => ⟨?_, rfl⟩) hcut ?_
  · show Function.update s.target i file j = s.target j
    exact Function.update_of_ne hj ..
  · rw [target_setTarget_self]
    exact hfile

theorem Resumable.backedUp (h : Resumable env ticket plan cut record s)
    (hdirectory : (s.backups ticket.ticketId).isSome = true)
    (happlying : (record.operations i).status = .applying) (htarget : s.target i = plan.orig i)
    (horig : (plan.orig i).isSome = true)
    (hkept : (plan.start.operations i).desiredState ≠ .omitted) :
    Resumable env ticket plan cut record
      ((s.setEntry ticket.ticketId ⟨i, .original, false⟩ (s.target i)).setTarget i none) := by
  refine h.change (i := i)
    ((s.setEntry ticket.ticketId ⟨i, .original, false⟩ (s.target i)).setTarget i none) rfl
    (fun j hj => ⟨?_, ?_⟩) id ?_
  · show Function.update s.target i none j = s.target j
    exact Function.update_of_ne hj ..
  · rw [entry_setTarget]
    exact entry_setEntry_of_ne _ _ _ fun hname => hj (congrArg BackupName.index hname)
  · rw [target_setTarget_self, entry_setTarget, entry_setEntry_self _ _ hdirectory, htarget]
    exact .away rfl rfl horig hkept (Or.inl happlying)

theorem Resumable.writeOperation (h : Resumable env ticket plan cut record s)
    {operation : RestoreOperation δ}
    (horiginal : operation.original = (plan.start.operations i).original)
    (hstate : operation.desiredState = (plan.start.operations i).desiredState)
    (hsha : operation.desiredSha256 = (plan.start.operations i).desiredSha256)
    (hfile : FileProgress env plan cut i operation.status (s.target i)
      (s.entry ticket.ticketId ⟨i, .original, false⟩)) :
    Resumable env ticket plan cut (record.setOperation i operation)
      (s.writeRecord (record.setOperation i operation)) := by
  have hoperation : ∀ j, (record.setOperation i operation).operations j =
      if j = i then operation else record.operations j := by
    intro j
    by_cases hj : j = i
    · rw [hj, operations_setOperation_self, if_pos rfl]
    · rw [operations_setOperation_of_ne _ _ hj, if_neg hj]
  refine ⟨?_, h.belongs, fun j => ?_, fun j => ?_, fun j => ?_, fun j => ?_⟩
  · have hid := congrArg RestoreTicket.ticketId h.belongs
    rw [← hid]
    exact findRecord_putRecord_self (record.setOperation i operation) _
  · rw [hoperation]
    split
    · next hj => rw [hj]; exact horiginal
    · exact h.original j
  · rw [hoperation]
    split
    · next hj => rw [hj]; exact hstate
    · exact h.desiredState j
  · rw [hoperation]
    split
    · next hj => rw [hj]; exact hsha
    · exact h.desiredSha256 j
  · rw [hoperation]
    show FileProgress env plan cut j _ (s.target j) (s.entry ticket.ticketId ⟨j, .original, false⟩)
    split
    · next hj => rw [hj]; exact hfile
    · exact h.files j

theorem Resumable.writeStatus (h : Resumable env ticket plan cut record s)
    (status : RestoreStatus) :
    Resumable env ticket plan cut { record with status := status }
      (s.writeRecord { record with status := status }) where
  stored := by
    have hid := congrArg RestoreTicket.ticketId h.belongs
    rw [← hid]
    exact findRecord_putRecord_self { record with status := status } _
  belongs := h.belongs
  original := h.original
  desiredState := h.desiredState
  desiredSha256 := h.desiredSha256
  files := h.files

end Resumable

/-! ## One operation, resumed -/

section Operation

variable [DecidableEq δ] {env : RestoreEnvironment δ} {ticket : RestoreTicket δ}
  {plan : ApplyPlan δ} {record : TransactionRecord δ} {s : RestoreDisk δ} {i : FileIndex}

omit [DecidableEq δ] in
theorem wp_writeOperation_resumable {Q : Unit → RestoreDisk δ → Prop}
    {operation : RestoreOperation δ} (h : Resumable env ticket plan False record s)
    (happlying : record.status = .applying)
    (horiginal : operation.original = (plan.start.operations i).original)
    (hstate : operation.desiredState = (plan.start.operations i).desiredState)
    (hsha : operation.desiredSha256 = (plan.start.operations i).desiredSha256)
    (hfile : FileProgress env plan False i operation.status (s.target i)
      (s.entry ticket.ticketId ⟨i, .original, false⟩))
    (hQ : Resumable env ticket plan False (record.setOperation i operation)
      (s.writeRecord (record.setOperation i operation)) →
        Q () (s.writeRecord (record.setOperation i operation))) :
    (writeTransaction (record.setOperation i operation)).wp Q
      (fun _ => Cut env ticket plan) (Cut env ticket plan) s := by
  have hnext := h.writeOperation horiginal hstate hsha hfile
  have hcut := hnext.atCut happlying
  exact wp_writeTransaction (hQ hnext) (fun _ => ⟨h.atCut happlying, hcut⟩)
    ⟨h.atCut happlying, hcut⟩

/-- Between two steps of operation `i`: the record that the operation began with, and the
record that it has now, differ in this operation alone. -/
structure During (env : RestoreEnvironment δ) (ticket : RestoreTicket δ) (plan : ApplyPlan δ)
    (i : FileIndex) (first record : TransactionRecord δ) (s : RestoreDisk δ) : Prop where
  resumable : Resumable env ticket plan False record s
  applying : record.status = .applying
  others : ∀ j, j ≠ i → record.operations j = first.operations j

omit [DecidableEq δ] in
theorem During.atCut {first : TransactionRecord δ} (h : During env ticket plan i first record s) :
    Cut env ticket plan s := h.resumable.atCut h.applying

variable {first : TransactionRecord δ}

omit [DecidableEq δ] in
theorem wp_writeStatus_during {Q : TransactionRecord δ → RestoreDisk δ → Prop}
    {status : OperationStatus} (h : During env ticket plan i first record s)
    (hfile : FileProgress env plan False i status (s.target i)
      (s.entry ticket.ticketId ⟨i, .original, false⟩))
    (hQ : ∀ record' s', During env ticket plan i first record' s' →
      (record'.operations i).status = status → Q record' s') :
    (writeStatus record i status).wp Q (fun _ => Cut env ticket plan) (Cut env ticket plan) s := by
  rw [writeStatus, wp_bind]
  refine wp_writeOperation_resumable h.resumable h.applying (h.resumable.original i)
    (h.resumable.desiredState i) (h.resumable.desiredSha256 i) hfile fun hnext => ?_
  rw [wp_pure]
  refine hQ _ _ ⟨hnext, h.applying, fun j hj => ?_⟩ ?_
  · rw [operations_setOperation_of_ne _ _ hj]; exact h.others j hj
  · rw [operations_setOperation_self]

theorem wp_startOperation_during {Q : TransactionRecord δ → RestoreDisk δ → Prop}
    (h : During env ticket plan i first record s)
    (hnot : (record.operations i).status ≠ .applied)
    (hQ : ∀ record' s', During env ticket plan i first record' s' →
      ((record'.operations i).status = .applying ∨ (record'.operations i).status = .backedUp) →
      Q record' s') :
    (startOperation env record i).wp Q (fun _ => Cut env ticket plan) (Cut env ticket plan) s := by
  have hfile := h.resumable.files i
  rw [startOperation]
  split
  · next hpending =>
    rw [hpending] at hfile
    obtain ⟨htarget, hbackup⟩ := hfile.of_pending
    rw [wp_bind]
    refine (readOnly_checkOriginal _ _).wp (fun _ => ?_) (fun _ => h.atCut) h.atCut
    exact wp_writeStatus_during h (.home htarget hbackup (Or.inr (Or.inl rfl)))
      fun record' s' hnext hstatus => hQ record' s' hnext (Or.inl hstatus)
  · next hpending =>
    refine hQ record s h ?_
    cases hfile with
    | home _ _ hstatus =>
      rcases hstatus with hs | hs | hs
      · exact absurd hs hpending
      · exact Or.inl hs
      · exact Or.inr hs.1
    | omitted _ _ hstatus => exact absurd hstatus hnot
    | away _ _ _ _ hstatus => exact hstatus
    | written hcut => exact hcut.elim
    | placed _ _ _ _ hstatus => exact Or.inr (hstatus.resolve_right hnot)

theorem wp_moveOriginal_during {Q : Unit → RestoreDisk δ → Prop}
    (h : During env ticket plan i first record s)
    (happlying : (record.operations i).status = .applying)
    (horig : (plan.orig i).isSome = true)
    (hkept : (plan.start.operations i).desiredState ≠ .omitted)
    (hQ : ∀ s', During env ticket plan i first record s' → s'.target i = none →
      s'.entry ticket.ticketId ⟨i, .original, false⟩ = plan.orig i → Q () s') :
    (moveOriginal env ticket.ticketId i (record.operations i).original).wp Q
      (fun _ => Cut env ticket plan) (Cut env ticket plan) s := by
  have hfile := h.resumable.files i
  rw [happlying] at hfile
  rw [moveOriginal, wp_bind]
  refine wp_readBackup ?_ fun _ => h.atCut
  split
  · next backup hb =>
    rcases hfile.of_applying with ⟨-, hnone⟩ | ⟨htarget, hbackup, -⟩
    · rw [hb] at hnone
      cases hnone
    · exact hQ s h htarget hbackup
  · next hb =>
    have htarget : s.target i = plan.orig i := by
      rcases hfile.of_applying with ⟨htarget, -⟩ | ⟨-, hbackup, -⟩
      · exact htarget
      · rw [← hbackup, hb] at horig
        cases horig
    rw [wp_bind]
    refine (readOnly_checkOriginal _ _).wp (fun _ => ?_) (fun _ => h.atCut) h.atCut
    rw [wp_bind]
    refine (readOnly_validateBackupDirectory _).wp (fun _ => ?_) (fun _ => h.atCut) h.atCut
    rw [renameToBackup, wp_bind, wp_read]
    split
    · next hboth =>
      have hnext : During env ticket plan i first record
          ((s.setEntry ticket.ticketId ⟨i, .original, false⟩ (s.target i)).setTarget i none) :=
        ⟨h.resumable.backedUp hboth.2 happlying htarget horig hkept, h.applying, h.others⟩
      have hentry : ((s.setEntry ticket.ticketId ⟨i, .original, false⟩
          (s.target i)).setTarget i none).entry ticket.ticketId ⟨i, .original, false⟩ =
            plan.orig i := by
        rw [entry_setTarget, entry_setEntry_self _ _ hboth.2, htarget]
      rw [wp_durable]
      exact ⟨h.atCut, hnext.atCut, hQ _ hnext (target_setTarget_self ..) hentry, h.atCut,
        hnext.atCut⟩
    · exact h.atCut

theorem wp_backUpOriginal_during {Q : TransactionRecord δ → RestoreDisk δ → Prop}
    (hstarted : Started env ticket plan) (h : During env ticket plan i first record s)
    (hstatus : (record.operations i).status = .applying ∨
      (record.operations i).status = .backedUp)
    (hkept : (plan.start.operations i).desiredState ≠ .omitted)
    (hQ : ∀ record' s', During env ticket plan i first record' s' →
      (record'.operations i).status = .backedUp → Q record' s') :
    (backUpOriginal env record i).wp Q (fun _ => Cut env ticket plan) (Cut env ticket plan) s := by
  have hid := congrArg RestoreTicket.ticketId h.resumable.belongs
  have hpresent : (record.operations i).original.present = (plan.orig i).isSome := by
    rw [h.resumable.original i]
    exact hstarted.present i
  rw [backUpOriginal, hid]
  split
  · next happlying =>
    have hfile := h.resumable.files i
    rw [happlying] at hfile
    split
    · next horig =>
      rw [hpresent] at horig
      rw [wp_bind]
      refine wp_moveOriginal_during h happlying horig hkept fun s' hmoved htarget hbackup => ?_
      rw [wp_bind]
      refine (readOnly_validateBackupDirectory _).wp (fun _ => ?_) (fun _ => hmoved.atCut)
        hmoved.atCut
      rw [wp_bind]
      refine wp_readBackup ?_ fun _ => hmoved.atCut
      split
      · exact hmoved.atCut
      · split
        · exact hmoved.atCut
        · exact wp_writeStatus_during hmoved (.away htarget hbackup horig hkept (Or.inr rfl)) hQ
    · next horig =>
      rw [hpresent, Bool.not_eq_true, Option.isSome_eq_false_iff, Option.isNone_iff_eq_none] at horig
      have hhome : s.target i = plan.orig i ∧
          s.entry ticket.ticketId ⟨i, .original, false⟩ = none := by
        rcases hfile.of_applying with hhome | ⟨-, -, hsome⟩
        · exact hhome
        · rw [horig] at hsome
          cases hsome
      rw [wp_bind]
      refine wp_readBackup ?_ fun _ => h.atCut
      split
      · exact h.atCut
      · exact wp_writeStatus_during h (.home hhome.1 hhome.2 (Or.inr (Or.inr ⟨rfl, horig⟩))) hQ
  · next happlying => exact hQ record s h (hstatus.resolve_left happlying)

omit [DecidableEq δ] in
theorem wp_backedUpOriginal_during {Q : Option Bytes → RestoreDisk δ → Prop}
    {operation : RestoreOperation δ} {E : SnapshotError → RestoreDisk δ → Prop}
    {C : RestoreDisk δ → Prop}
    (hbackup : s.entry ticket.ticketId ⟨i, .original, false⟩ = plan.orig i)
    (hpresent : operation.original.present = (plan.orig i).isSome)
    (hQ : Q ((plan.orig i).map (·.bytes)) s) (hE : ∀ e, E e s) (hC : C s) :
    (backedUpOriginal ticket.ticketId i operation).wp Q E C s := by
  rw [backedUpOriginal]
  split
  · rw [wp_bind]
    refine (readOnly_validateBackupDirectory _).wp (fun _ => ?_) hE hC
    rw [wp_bind]
    refine wp_readBackup ?_ hE
    rw [hbackup]
    split
    · exact hE _
    · next backup hb =>
      rw [hb] at hQ
      exact hQ
  · next habsent =>
    rw [hpresent, Bool.not_eq_true, Option.isSome_eq_false_iff, Option.isNone_iff_eq_none]
      at habsent
    rw [habsent] at hQ
    exact hQ

omit [DecidableEq δ] in
/-- After a write the mode follows; a file that is there has it already. -/
theorem wp_placeDesired_during {Q : Unit → RestoreDisk δ → Prop}
    (h : During env ticket plan i first record s)
    (hstatus : (record.operations i).status = .backedUp) (hsettled : plan.Settled env i)
    (hkept : (plan.start.operations i).desiredState ≠ .omitted)
    (hQ : ∀ s', During env ticket plan i first record s' →
      s'.target i = (plan.desired i).placed →
      s'.entry ticket.ticketId ⟨i, .original, false⟩ = plan.orig i → Q () s') :
    (placeDesired i (plan.desired i)).wp Q (fun _ => Cut env ticket plan)
      (Cut env ticket plan) s := by
  have hfile := h.resumable.files i
  rw [hstatus] at hfile
  obtain ⟨hbackup, htarget⟩ := hfile.of_backedUp
  rw [placeDesired]
  split
  · next bytes hbytes =>
    have hplaced : (plan.desired i).placed = some ⟨bytes, finalMode (plan.desired i).mode⟩ := by
      rw [DesiredFile.placed, hbytes, Option.map_some]
    have hwritten : (plan.desired i).written = some ⟨bytes, privateMode⟩ := by
      rw [DesiredFile.written, hbytes, Option.map_some]
    rw [wp_bind]
    refine wp_readTarget ?_ fun _ => h.atCut
    split
    · next existing ht =>
      split
      · refine hQ s h (htarget.resolve_left fun hnone => ?_) hbackup
        rw [ht] at hnone
        cases hnone
      · exact h.atCut
    · have hput : ∀ file cut, FileProgress env plan cut i .backedUp file (plan.orig i) →
          Resumable env ticket plan cut record (s.setTarget i file) := fun file cut hfile =>
        h.resumable.setTarget False.elim (by rw [hstatus, hbackup]; exact hfile)
      have hfirst : Cut env ticket plan (s.setTarget i (some ⟨bytes, privateMode⟩)) :=
        (hput _ True (.written trivial hwritten.symm (by rw [hbytes]; rfl) rfl hsettled hkept
          rfl)).atCut
          h.applying
      have hlast : During env ticket plan i first record
          (s.setTarget i (some ⟨bytes, finalMode (plan.desired i).mode⟩)) :=
        ⟨hput _ False (.placed hplaced.symm rfl hsettled hkept (Or.inl rfl)), h.applying, h.others⟩
      have hdone := hQ _ hlast (by rw [target_setTarget_self, hplaced]) hbackup
      rw [writeTarget, wp_bind, wp_bind, wp_attempt]
      refine ⟨h.atCut, ?_, h.atCut⟩
      rw [wp_durable]
      refine ⟨h.atCut, hfirst, ?_, h.atCut, hfirst⟩
      rcases hmode : (plan.desired i).mode with _ | mode <;> rw [hmode] at hdone hlast
      · exact hdone
      · have htwice : (s.setTarget i (some ⟨bytes, privateMode⟩)).setTarget i
            (((s.setTarget i (some ⟨bytes, privateMode⟩)).target i).map fun file =>
              { file with mode := mode &&& 0o777 }) =
            s.setTarget i (some ⟨bytes, mode &&& 0o777⟩) := by
          rw [target_setTarget_self]
          simp [RestoreDisk.setTarget]
        rw [applyMode, wp_durable, htwice]
        exact ⟨hfirst, hlast.atCut, hdone, hfirst, hlast.atCut⟩
  · next hbytes =>
    have hplaced : (plan.desired i).placed = none := by
      rw [DesiredFile.placed, hbytes, Option.map_none]
    rw [wp_bind, wp_read]
    split
    · exact h.atCut
    · refine hQ s h ?_ hbackup
      rw [hplaced] at htarget ⊢
      exact htarget.elim id id

theorem wp_publishDesired_during {Q : TransactionRecord δ → RestoreDisk δ → Prop}
    (hstarted : Started env ticket plan) (h : During env ticket plan i first record s)
    (hstatus : (record.operations i).status = .backedUp)
    (hkept : (plan.start.operations i).desiredState ≠ .omitted)
    (hQ : ∀ record' s', During env ticket plan i first record' s' →
      (record'.operations i).status = .applied → Q record' s') :
    (publishDesired env plan.manifest record i).wp Q (fun _ => Cut env ticket plan)
      (Cut env ticket plan) s := by
  have hid := congrArg RestoreTicket.ticketId h.resumable.belongs
  have hfile := h.resumable.files i
  rw [hstatus] at hfile
  have hpresent : (record.operations i).original.present = (plan.orig i).isSome := by
    rw [h.resumable.original i]
    exact hstarted.present i
  rw [publishDesired, hid, wp_bind]
  refine wp_backedUpOriginal_during hfile.of_backedUp.1 hpresent ?_ (fun _ => h.atCut) h.atCut
  rw [hstarted.desired i, wp_bind, wp_ofExcept]
  refine ⟨fun desired hdesired => ?_, fun e _ => h.atCut⟩
  obtain rfl := Except.ok.inj hdesired
  split
  · exact h.atCut
  · next hsha =>
    rw [not_not, h.resumable.desiredSha256 i] at hsha
    rw [wp_bind]
    refine wp_placeDesired_during h hstatus hsha hkept fun s' hplaced htarget hbackup => ?_
    rw [wp_bind]
    refine wp_writeOperation_resumable hplaced.resumable hplaced.applying
      (h.resumable.original i) (h.resumable.desiredState i) (h.resumable.desiredSha256 i)
      (.placed htarget hbackup hsha hkept (Or.inr rfl)) fun hnext => ?_
    rw [wp_pure]
    refine hQ _ _ ⟨hnext, h.applying, fun j hj => ?_⟩ ?_
    · rw [operations_setOperation_of_ne _ _ hj]; exact h.others j hj
    · rw [operations_setOperation_self]

/-- **One operation of an apply, resumed.**  Wherever an earlier call stopped, the operation
ends as applied, and every cut of it can be resumed. -/
theorem wp_applyOperation_resumable (hstarted : Started env ticket plan)
    (h : Resumable env ticket plan False record s) (happlying : record.status = .applying)
    (i : FileIndex) :
    (applyOperation env plan.manifest record i).wp
      (fun record' s' => During env ticket plan i record record' s' ∧
        (record'.operations i).status = .applied)
      (fun _ => Cut env ticket plan) (Cut env ticket plan) s := by
  have hbegin : During env ticket plan i record record s := ⟨h, happlying, fun _ _ => rfl⟩
  rw [applyOperation]
  split
  · next happlied =>
    rw [wp_bind]
    exact (readOnly_verifyAppliedOperation _ _).wp (fun _ => ⟨hbegin, happlied⟩)
      (fun _ => hbegin.atCut) hbegin.atCut
  · next hnot =>
    split
    · next homitted =>
      have hhome : s.target i = plan.orig i := by
        rw [h.desiredState i] at homitted
        cases h.files i with
        | home htarget => exact htarget
        | omitted htarget => exact htarget
        | away _ _ _ hkept => exact absurd homitted hkept
        | written hcut => exact hcut.elim
        | placed _ _ _ hkept => exact absurd homitted hkept
      rw [h.desiredState i] at homitted
      exact wp_writeStatus_during hbegin (.omitted hhome homitted rfl)
        fun record' s' hnext hstatus => ⟨hnext, hstatus⟩
    · next hkept =>
      rw [h.desiredState i] at hkept
      rw [wp_bind]
      refine (readOnly_validateBackupDirectory _).wp (fun _ => ?_) (fun _ => hbegin.atCut)
        hbegin.atCut
      rw [wp_bind]
      refine wp_startOperation_during hbegin hnot fun record₁ s₁ h₁ hstatus₁ => ?_
      rw [wp_bind]
      refine wp_backUpOriginal_during hstarted h₁ hstatus₁ hkept fun record₂ s₂ h₂ hstatus₂ => ?_
      exact wp_publishDesired_during hstarted h₂ hstatus₂ hkept
        fun record₃ s₃ h₃ happlied => ⟨h₃, happlied⟩

end Operation

end DshNexus.Snapshot
