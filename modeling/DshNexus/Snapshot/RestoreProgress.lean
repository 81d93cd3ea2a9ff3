import DshNexus.Snapshot.RestoreFrames
import DshNexus.Snapshot.RestoreSession

/-!
# What a restore needs to be finished

A restore store that has been prepared once has one record of the ticket, and every other record
is terminal.  As long as that record is not terminal, no restore can be prepared; a record that
may be committed can be committed, and one that is committed or rolled back is out of the way.

* `wp_prepareRestore_alone`: the record of a restore that has been prepared.
* `wp_prepareRestore_refused`: a record that is not terminal stands in the way.
* `wp_commitRestore_alone`, `returns_commitRestore`: a commit keeps a record that may be
  committed, and an uninterrupted one makes it terminal.
-/

namespace DshNexus.Snapshot

open Durable Program

variable {δ : Type} {env : RestoreEnvironment δ} {id : String} {s : RestoreDisk δ}
  {P : TransactionRecord δ → Prop}

/-- Every record is terminal: nothing stands in the way of the next restore. -/
def AllTerminal (s : RestoreDisk δ) : Prop :=
  ∀ record ∈ s.transactions, record.status.isTerminal = true

def Unused (id : String) (s : RestoreDisk δ) : Prop :=
  ∀ record ∈ s.transactions, record.ticket.ticketId ≠ id

theorem Alone.allTerminal_iff (h : Alone id (fun _ => True) s) :
    AllTerminal s ↔ Alone id (fun record => record.status.isTerminal = true) s := by
  obtain ⟨before, record, after, hs, hid, -, hothers⟩ := h
  constructor
  · intro hall
    refine ⟨before, record, after, hs, hid, hall record ?_, hothers⟩
    rw [hs]
    exact List.mem_append_right _ (List.mem_cons_self ..)
  · rintro ⟨before', record', after', hs', -, hterminal, hothers'⟩ other hother
    rw [hs', List.mem_append, List.mem_cons] at hother
    rcases hother with hother | rfl | hother
    · exact (hothers' other (List.mem_append_left _ hother)).2
    · exact hterminal
    · exact (hothers' other (List.mem_append_right _ hother)).2

theorem Alone.not_allTerminal
    (h : Alone id (fun record => record.status.isTerminal = false) s) : ¬ AllTerminal s := by
  obtain ⟨before, record, after, hs, -, hrecord, -⟩ := h
  intro hall
  have hmem : record ∈ s.transactions := by
    rw [hs]
    exact List.mem_append_right _ (List.mem_cons_self ..)
  rw [hall record hmem] at hrecord
  exact nomatch hrecord

theorem Alone.of_not_allTerminal (h : Alone id (fun _ => True) s) (hnot : ¬ AllTerminal s) :
    Alone id (fun record => record.status.isTerminal = false) s := by
  obtain ⟨before, record, after, hs, hid, -, hothers⟩ := h
  refine ⟨before, record, after, hs, hid, ?_, hothers⟩
  by_contra hterminal
  rw [Bool.not_eq_false] at hterminal
  exact hnot (Alone.allTerminal_iff ⟨before, record, after, hs, hid, trivial, hothers⟩ |>.mpr
    ⟨before, record, after, hs, hid, hterminal, hothers⟩)

/-! ## Preparing -/

section Prepare

variable {E : SnapshotError → RestoreDisk δ → Prop} {C : RestoreDisk δ → Prop}

theorem wp_transactionRecords {Q : List (TransactionRecord δ) → RestoreDisk δ → Prop}
    (hQ : Q s.transactions s) (hE : ∀ e, E e s) (hC : C s) :
    (transactionRecords env).wp Q E C s := by
  rw [transactionRecords, wp_bind, wp_read, wp_bind]
  refine (readOnly_forM (fun _ => readOnly_ofExcept _) _).wp (fun _ => ?_) hE hC
  split
  · exact hE _
  · exact hQ

theorem wp_pendingTransactions {Q : List (TransactionRecord δ) → RestoreDisk δ → Prop}
    (hQ : ∀ pending, (pending = [] ↔ AllTerminal s) → Q pending s) (hE : ∀ e, E e s) (hC : C s) :
    (pendingTransactions env).wp Q E C s := by
  rw [pendingTransactions, wp_bind]
  refine wp_transactionRecords (hQ _ ?_) hE hC
  rw [sortByCreation, ← List.length_eq_zero_iff, List.length_insertionSort,
    List.length_eq_zero_iff, List.filter_eq_nil_iff]
  constructor
  · intro h record hrecord
    simpa using h record hrecord
  · intro h record hrecord
    simpa using h record hrecord

theorem wp_pruneTerminal {I : RestoreDisk δ → Prop} (hs : I s)
    (hremove : ∀ record ∈ s.transactions, record.status.isTerminal = true →
      ∀ s', I s' → I (s'.removeRecord record.ticket.ticketId)) :
    (pruneTerminalTransactions env).wp (fun _ => I) (fun _ => I) I s := by
  rw [pruneTerminalTransactions, wp_bind]
  refine wp_transactionRecords ?_ (fun _ => hs) hs
  split
  · exact hs
  · dsimp only
    split
    · exact hs
    · have hloop := wp_forM
        (g := fun record : TransactionRecord δ =>
          (Program.durable (.io "remove old transaction") fun disk =>
            disk.removeRecord record.ticket.ticketId : RestoreProgram δ Unit))
        (I := fun xs s' => (∀ record ∈ xs, record ∈ s.transactions ∧
          record.status.isTerminal = true) ∧ I s')
        (E := fun _ => I) (C := I) (fun record xs s' hs' => ?_)
      · refine wp_imp (fun _ _ h => h.2)
          (hloop _ s ⟨fun record hrecord => ?_, hs⟩)
        have hmem := List.mem_filter.mp (List.mem_of_mem_take hrecord)
        refine ⟨?_, hmem.2⟩
        rw [sortByCreation, List.mem_insertionSort] at hmem
        exact hmem.1
      · obtain ⟨hmem, hterminal⟩ := hs'.1 record (List.mem_cons_self ..)
        have hnext := hremove record hmem hterminal s' hs'.2
        rw [wp_durable]
        exact ⟨hs'.2, hnext, ⟨fun other hother => hs'.1 other (List.mem_cons_of_mem _ hother),
          hnext⟩, hs'.2, hnext⟩

theorem Unused.removeRecord (h : Unused id s) (other : String) :
    Unused id (s.removeRecord other) := fun record hrecord =>
  h record (List.mem_filter.mp hrecord).1

theorem Alone.removeRecord (h : Alone id P s) {other : String} (hne : other ≠ id) :
    Alone id P (s.removeRecord other) := by
  obtain ⟨before, record, after, hs, hid, hrecord, hothers⟩ := h
  have hkept : record.ticket.ticketId ≠ other := by rw [hid]; exact hne.symm
  refine ⟨before.filter fun record => record.ticket.ticketId ≠ other, record,
    after.filter fun record => record.ticket.ticketId ≠ other, ?_, hid, hrecord, ?_⟩
  · rw [RestoreDisk.removeRecord, hs, List.filter_append,
      List.filter_cons_of_pos (by simpa using hkept)]
  · intro x hx
    rw [← List.filter_append] at hx
    exact hothers x (List.mem_filter.mp hx).1

theorem putRecord_of_unused {record : TransactionRecord δ} {records : List (TransactionRecord δ)}
    (h : ∀ other ∈ records, other.ticket.ticketId ≠ record.ticket.ticketId) :
    putRecord record records = records ++ [record] := by
  induction records with
  | nil => rfl
  | cons first records ih =>
    rw [putRecord, if_neg (h first (List.mem_cons_self ..)),
      ih fun other hother => h other (List.mem_cons_of_mem _ hother), List.cons_append]

theorem Unused.writeRecord {record : TransactionRecord δ} (h : Unused id s)
    (hall : AllTerminal s) (hid : record.ticket.ticketId = id) (hP : P record) :
    Alone id P (s.writeRecord record) := by
  refine ⟨s.transactions, record, [], putRecord_of_unused (hid ▸ h), hid, hP, fun other hother => ?_⟩
  rw [List.append_nil] at hother
  exact ⟨h other hother, hall other hother⟩

/-- **A restore that has been prepared** is the only one that is not terminal. -/
theorem wp_prepareRestore_alone {snapshotId newIdentifier : String} {unixMillis : Nat}
    (hunused : Unused newIdentifier s) :
    (prepareRestore env snapshotId newIdentifier unixMillis).wp
      (fun ticket => Alone newIdentifier (·.IsOpen ticket))
      (fun _ s' => Unused newIdentifier s' ∨ ∃ ticket, Alone newIdentifier (·.IsOpen ticket) s')
      (fun s' => Unused newIdentifier s' ∨ ∃ ticket, Alone newIdentifier (·.IsOpen ticket) s') s := by
  rw [prepareRestore, wp_bind]
  refine wp_mono (fun _ s₁ h₁ => ?_) (fun _ _ h₁ => Or.inl h₁) (fun _ h₁ => Or.inl h₁)
    (wp_pruneTerminal hunused fun record _ _ s' hs' => hs'.removeRecord _)
  rw [wp_bind]
  refine wp_pendingTransactions (fun pending hpending => ?_) (fun _ => Or.inl h₁) (Or.inl h₁)
  rcases pending with _ | ⟨active, pending⟩
  · have hall := hpending.mp rfl
    dsimp only
    rw [wp_bind, wp_ofExcept]
    refine ⟨fun manifest _ => ?_, fun _ _ => Or.inl h₁⟩
    rw [wp_bind, wp_ofExcept]
    refine ⟨fun digest _ => ?_, fun _ _ => Or.inl h₁⟩
    rw [wp_bind]
    refine wp_prepareOperations (fun operations differs _ => ?_) fun _ => Or.inl h₁
    dsimp only
    rw [wp_bind, writeTransaction, wp_bind, wp_ofExcept]
    refine ⟨fun _ _ => ?_, fun _ _ => Or.inl h₁⟩
    rw [wp_durable]
    have hwritten : ∀ record : TransactionRecord δ, record.ticket.ticketId = newIdentifier →
        record.status = .prepared →
        Alone newIdentifier (·.IsOpen record.ticket) (s₁.writeRecord record) :=
      fun record hid hstatus => h₁.writeRecord hall hid
        ⟨rfl, by rw [hstatus]; exact not_commits_prepared⟩
    exact ⟨Or.inl h₁, Or.inr ⟨_, hwritten _ rfl rfl⟩, hwritten _ rfl rfl, Or.inl h₁,
      Or.inr ⟨_, hwritten _ rfl rfl⟩⟩
  · exact Or.inl h₁

/-- **A record that is not terminal stands in the way**: no restore is prepared. -/
theorem wp_prepareRestore_refused {snapshotId newIdentifier : String} {unixMillis : Nat}
    (h : Alone id (fun record => record.status.isTerminal = false) s) :
    (prepareRestore env snapshotId newIdentifier unixMillis).wp (fun _ _ => False)
      (fun _ => Alone id fun record => record.status.isTerminal = false)
      (Alone id fun record => record.status.isTerminal = false) s := by
  rw [prepareRestore, wp_bind]
  refine wp_imp (fun _ s₁ h₁ => ?_)
    (wp_pruneTerminal h fun record hrecord hterminal s' hs' => hs'.removeRecord ?_)
  · rw [wp_bind]
    refine wp_pendingTransactions (fun pending hpending => ?_) (fun _ => h₁) h₁
    rcases pending with _ | ⟨active, pending⟩
    · exact absurd (hpending.mp rfl) h₁.not_allTerminal
    · exact h₁
  · -- a terminal record is not the one that stands in the way
    obtain ⟨before, open', after, hs, hid, hopen, hothers⟩ := h
    rw [hs, List.mem_append, List.mem_cons] at hrecord
    rcases hrecord with hmem | rfl | hmem
    · exact (hothers record (List.mem_append_left _ hmem)).1
    · rw [hopen] at hterminal
      cases hterminal
    · exact (hothers record (List.mem_append_right _ hmem)).1

end Prepare

/-! ## Going on -/

section Going

variable [DecidableEq δ] {plan : RestorePlan} {clash : Prop} {ticket : RestoreTicket δ}

omit [DecidableEq δ] in
theorem wp_of_opens {α : Type} {p : RestoreProgram δ α} (hp : Opens ticket p)
    (h : Alone ticket.ticketId (·.IsOpen ticket) s) :
    p.wp (fun _ => Alone ticket.ticketId (·.IsOpen ticket))
      (fun _ => Alone ticket.ticketId (·.IsOpen ticket))
      (Alone ticket.ticketId (·.IsOpen ticket)) s :=
  wp_imp (fun _ _ h => h.2) (hp.wp h)

structure TransactionRecord.CanCommit (env : RestoreEnvironment δ) (plan : RestorePlan)
    (ticket : RestoreTicket δ) (record : TransactionRecord δ) : Prop where
  ticket : record.ticket = ticket
  describes : plan.Describes env record
  status : record.status = .applied ∧ record.materializationPending = false ∨
    record.status = .committing ∨ record.status = .committed

omit [DecidableEq δ] in
theorem canCommit_of_applied (hs : Alone ticket.ticketId (·.IsOpen ticket) s)
    (hsound : Sound env plan clash ticket.ticketId s)
    (hstatus : ∀ record, findRecord ticket.ticketId s.transactions = some record →
      record.status = .applied ∧ record.materializationPending = false) :
    Alone ticket.ticketId (·.CanCommit env plan ticket) s := by
  obtain ⟨record, hfind, hopen⟩ := hs.find
  exact hs.of_find hfind
    ⟨hopen.1, (hsound.of_stored hfind).1, Or.inl (hstatus record hfind)⟩

theorem wp_markMaterialized_applied (h : Alone ticket.ticketId (·.IsOpen ticket) s) :
    (markMaterialized env ticket).wp
      (fun _ s' => ∀ record, findRecord ticket.ticketId s'.transactions = some record →
        record.status = .applied ∧ record.materializationPending = false)
      (fun _ _ => True) (fun _ => True) s := by
  obtain ⟨stored, hstored, hopen⟩ := h.find
  rw [markMaterialized, wp_bind]
  refine wp_readMatchingTransaction (fun record hfind _ => ?_) (fun _ => trivial)
  rw [hstored] at hfind
  obtain rfl := Option.some.inj hfind
  split
  · next hstatus =>
    rw [wp_bind]
    refine wp_writeTransaction (fun other hother => ?_) (fun _ => ⟨trivial, trivial⟩)
      ⟨trivial, trivial⟩
    have hself : findRecord ticket.ticketId
        (s.writeRecord { stored with materializationPending := false }).transactions =
          some { stored with materializationPending := false } := by
      rw [← ticketId_of_findRecord hstored]
      exact findRecord_putRecord_self { stored with materializationPending := false } _
    rw [hself] at hother
    rw [← Option.some.inj hother]
    exact ⟨hstatus, rfl⟩
  · split
    · next hcommitted => exact absurd (Or.inr hcommitted.1) hopen.2
    · trivial

/-- **A commit keeps a record that can be committed.** -/
theorem wp_commitRestore_alone (h : Alone ticket.ticketId (·.CanCommit env plan ticket) s) :
    (commitRestore env ticket).wp
      (fun _ => Alone ticket.ticketId (·.CanCommit env plan ticket))
      (fun _ => Alone ticket.ticketId (·.CanCommit env plan ticket))
      (Alone ticket.ticketId (·.CanCommit env plan ticket)) s := by
  obtain ⟨stored, hstored, hcan⟩ := h.find
  obtain rfl := hcan.ticket
  have hremove : ∀ s, Alone stored.ticket.ticketId (·.CanCommit env plan stored.ticket) s →
      (removeBackupDirectory stored.ticket.ticketId : RestoreProgram δ Unit).wp
        (fun _ => Alone stored.ticket.ticketId (·.CanCommit env plan stored.ticket))
        (fun _ => Alone stored.ticket.ticketId (·.CanCommit env plan stored.ticket))
        (Alone stored.ticket.ticketId (·.CanCommit env plan stored.ticket)) s := fun s hs =>
    wp_mono (fun _ _ hs' => hs.of_transactions hs'.transactions)
      (fun _ _ hs' => hs.of_transactions hs'.transactions)
      (fun _ hs' => hs.of_transactions hs'.transactions)
      (within_removeBackupDirectory stored.ticket.ticketId s)
  -- a commit writes the record with a later status
  have hwrite : ∀ s, Alone stored.ticket.ticketId (·.CanCommit env plan stored.ticket) s →
      ∀ status, status = .committing ∨ status = .committed →
      Alone stored.ticket.ticketId (·.CanCommit env plan stored.ticket)
        (s.writeRecord { stored with status := status }) :=
    fun s hs status hstatus => hs.writeRecord rfl
      ⟨rfl, hcan.describes.withStatus status stored.materializationPending, Or.inr hstatus⟩
  have hfinish : ∀ (s : RestoreDisk δ) (status : RestoreStatus),
      Alone stored.ticket.ticketId (·.CanCommit env plan stored.ticket) s →
      (finishCommit { stored with status := status }).wp
        (fun _ => Alone stored.ticket.ticketId (·.CanCommit env plan stored.ticket))
        (fun _ => Alone stored.ticket.ticketId (·.CanCommit env plan stored.ticket))
        (Alone stored.ticket.ticketId (·.CanCommit env plan stored.ticket)) s := by
    intro s status hs
    rw [finishCommit, wp_bind]
    refine wp_imp (fun _ s₁ h₁ => ?_) (hremove s hs)
    have hlast := hwrite s₁ h₁ .committed (Or.inr rfl)
    rw [wp_bind]
    exact wp_writeTransaction hlast (fun _ => ⟨h₁, hlast⟩) ⟨h₁, hlast⟩
  rw [commitRestore, wp_bind]
  refine wp_readMatchingTransaction (fun record hfind _ => ?_) (fun _ => h)
  rw [hstored] at hfind
  obtain rfl := Option.some.inj hfind
  split
  · rw [wp_bind]
    exact wp_imp (fun _ _ h₁ => h₁) (hremove s h)
  · exact hfinish s stored.status h
  · split
    · exact h
    · have hnext := hwrite s h .committing (Or.inl rfl)
      rw [wp_bind]
      exact wp_writeTransaction (hfinish _ .committing hnext) (fun _ => ⟨h, hnext⟩) ⟨h, hnext⟩
  · exact h

/-- **An uninterrupted commit ends**, with a record that is committed. -/
theorem returns_commitRestore (h : Alone ticket.ticketId (·.CanCommit env plan ticket) s) :
    (commitRestore env ticket).returns (fun _ => AllTerminal) s := by
  obtain ⟨stored, hstored, hcan⟩ := h.find
  obtain rfl := hcan.ticket
  have halone : Alone stored.ticket.ticketId (fun _ => True) s := h.mono fun _ _ => trivial
  -- what the removal of the backups leaves
  have hremove : ∀ s : RestoreDisk δ, (removeBackupDirectory stored.ticket.ticketId).returns
      (fun _ s' => s'.transactions = s.transactions) s := fun s =>
    returns_mono (fun _ _ h => h.2.transactions) (returns_and_of_wp
      (returns_removeBackupDirectory stored.ticket.ticketId s)
      (within_removeBackupDirectory stored.ticket.ticketId s))
  have hfinish : ∀ (s : RestoreDisk δ) (status : RestoreStatus),
      Alone stored.ticket.ticketId (fun _ => True) s →
      (finishCommit { stored with status := status }).returns (fun _ => AllTerminal) s := by
    intro s status hs
    rw [finishCommit, returns_bind]
    refine returns_mono (fun _ s₁ h₁ => ?_) (hremove s)
    rw [returns_bind]
    refine returns_writeTransaction hcan.describes.ticketId ?_
    have hlast : Alone stored.ticket.ticketId (fun record => record.status.isTerminal = true)
        (s₁.writeRecord { stored with status := .committed }) :=
      (hs.of_transactions h₁).writeRecord rfl rfl
    exact (hlast.mono fun _ _ => trivial).allTerminal_iff.mpr hlast
  rw [commitRestore, returns_bind]
  refine returns_readMatchingTransaction hcan.describes hstored ?_
  rcases hcan.status with ⟨hstatus, hpending⟩ | hstatus | hstatus
  · rw [hstatus]
    dsimp only
    rw [if_neg (by rw [hpending]; exact Bool.false_ne_true), returns_bind]
    refine returns_writeTransaction hcan.describes.ticketId (hfinish _ .committing ?_)
    exact halone.writeRecord rfl trivial
  · rw [hstatus]
    exact hfinish s stored.status halone
  · rw [hstatus]
    dsimp only
    rw [returns_bind]
    refine returns_mono (fun _ s₁ h₁ => ?_) (hremove s)
    have hterminal : stored.status.isTerminal = true := by rw [hstatus]; rfl
    rw [returns_pure, AllTerminal, h₁]
    exact halone.allTerminal_iff.mpr (halone.of_find hstored hterminal)

end Going

end DshNexus.Snapshot
