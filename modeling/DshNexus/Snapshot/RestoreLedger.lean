import DshNexus.Snapshot.RestoreProgress

/-!
# The ledger of restores

The transaction records of one profile, over sessions of prepares, applies,
materializations, commits and rollbacks of any tickets, each of which may fail or crash at
any step.

* `Ledger`: no two records share an identifier, at most one is not terminal, there are at
  most 64, and the flag of every record is earned.
* `Ledger.rewrite`, `Ledger.removeRecord`, `Ledger.addRecord`: what one write of a record, one
  pruned record and one new record preserve.
* `wp_ledgerCall`: every cut of a call preserves the ledger and removes terminal records only.
* `restore_ledger`: the ledger over whole sessions.
-/

namespace DshNexus.Snapshot

open Durable Program

variable {δ : Type}

/-! ## 1. The ledger -/

/-- The flag of a record is earned: what is being committed has no materialization pending, and
a ticket that needs one has it pending, has been rolled back, or has been materialized. -/
structure TransactionRecord.FlagEarned (materialized : RestoreTicket δ → Prop)
    (record : TransactionRecord δ) : Prop where
  commits : record.status.Commits → record.materializationPending = false
  needs : record.ticket.needsMaterialization = true → record.materializationPending = true ∨
    record.status = .rolledBack ∨ materialized record.ticket

structure Ledger (materialized : RestoreTicket δ → Prop) (records : List (TransactionRecord δ)) :
    Prop where
  ids : (records.map (·.ticket.ticketId)).Nodup
  single : ∀ record ∈ records, ∀ other ∈ records, record.status.isTerminal = false →
    other.status.isTerminal = false → record = other
  bounded : records.length ≤ MAX_TRANSACTION_RECORDS
  flags : ∀ record ∈ records, record.FlagEarned materialized

def RemovesTerminal (s s' : RestoreDisk δ) : Prop :=
  ∀ record ∈ s.transactions, record.status.isTerminal = true ∨
    ∃ other ∈ s'.transactions, other.ticket.ticketId = record.ticket.ticketId

section Records

variable {M M' : RestoreTicket δ → Prop} {records : List (TransactionRecord δ)}
  {record : TransactionRecord δ} {s s' : RestoreDisk δ}

theorem TransactionRecord.FlagEarned.mono (h : record.FlagEarned M) (hM : ∀ ticket, M ticket → M' ticket) :
    record.FlagEarned M' where
  commits := h.commits
  needs hneeds := (h.needs hneeds).imp_right (Or.imp_right (hM _))

theorem Ledger.mono (h : Ledger M records) (hM : ∀ ticket, M ticket → M' ticket) :
    Ledger M' records where
  ids := h.ids
  single := h.single
  bounded := h.bounded
  flags r hr := (h.flags r hr).mono hM

theorem ledger_nil : Ledger M [] where
  ids := List.nodup_nil
  single _ h := absurd h List.not_mem_nil
  bounded := by rw [List.length_nil]; exact Nat.zero_le _
  flags _ h := absurd h List.not_mem_nil

theorem mem_of_findRecord {id : String} (h : findRecord id records = some record) :
    record ∈ records := List.mem_of_find?_eq_some h

theorem mem_putRecord {other : TransactionRecord δ} (h : other ∈ putRecord record records)
    (hids : (records.map (·.ticket.ticketId)).Nodup) :
    other = record ∨ other ∈ records ∧ other.ticket.ticketId ≠ record.ticket.ticketId := by
  induction records with
  | nil => exact Or.inl (List.mem_singleton.mp h)
  | cons first records ih =>
    rw [List.map_cons, List.nodup_cons] at hids
    rw [putRecord] at h
    by_cases hfirst : first.ticket.ticketId = record.ticket.ticketId
    · rw [if_pos hfirst, List.mem_cons] at h
      refine h.imp_right fun hmem => ⟨List.mem_cons_of_mem _ hmem, fun hid => hids.1 ?_⟩
      rw [hfirst, ← hid]
      exact List.mem_map_of_mem hmem
    · rw [if_neg hfirst, List.mem_cons] at h
      rcases h with rfl | hmem
      · exact Or.inr ⟨List.mem_cons_self .., hfirst⟩
      · exact (ih hmem hids.2).imp_right fun hold => ⟨List.mem_cons_of_mem _ hold.1, hold.2⟩

theorem ids_putRecord (h : ∃ other ∈ records, other.ticket.ticketId = record.ticket.ticketId) :
    (putRecord record records).map (·.ticket.ticketId) = records.map (·.ticket.ticketId) := by
  induction records with
  | nil =>
    obtain ⟨other, hmem, -⟩ := h
    exact absurd hmem List.not_mem_nil
  | cons first records ih =>
    rw [putRecord]
    by_cases hfirst : first.ticket.ticketId = record.ticket.ticketId
    · rw [if_pos hfirst, List.map_cons, List.map_cons, hfirst]
    · obtain ⟨other, hmem, hid⟩ := h
      rcases List.mem_cons.mp hmem with rfl | hmem
      · exact absurd hid hfirst
      · rw [if_neg hfirst, List.map_cons, List.map_cons, ih ⟨other, hmem, hid⟩]

theorem mem_putRecord_of_ne {other : TransactionRecord δ} (h : other ∈ records)
    (hne : other.ticket.ticketId ≠ record.ticket.ticketId) : other ∈ putRecord record records := by
  induction records with
  | nil => exact absurd h List.not_mem_nil
  | cons first records ih =>
    rw [putRecord]
    by_cases hfirst : first.ticket.ticketId = record.ticket.ticketId
    · rw [if_pos hfirst]
      rcases List.mem_cons.mp h with rfl | hmem
      · exact absurd hfirst hne
      · exact List.mem_cons_of_mem _ hmem
    · rw [if_neg hfirst]
      rcases List.mem_cons.mp h with rfl | hmem
      · exact List.mem_cons_self ..
      · exact List.mem_cons_of_mem _ (ih hmem)

/-- **One write**: a record whose flag is earned takes the place of the one record that may be
open. -/
theorem Ledger.rewrite (h : Ledger M records)
    (hstored : ∃ other ∈ records, other.ticket.ticketId = record.ticket.ticketId)
    (hothers : ∀ other ∈ records, other.ticket.ticketId ≠ record.ticket.ticketId →
      other.status.isTerminal = true)
    (hrecord : record.FlagEarned M') (hM : ∀ ticket, M ticket → M' ticket) :
    Ledger M' (putRecord record records) where
  ids := by rw [ids_putRecord hstored]; exact h.ids
  single r hr other ho hropen hoopen := by
    have hcase : ∀ x ∈ putRecord record records, x.status.isTerminal = false → x = record :=
      fun x hx hopen => by
        rcases mem_putRecord hx h.ids with rfl | ⟨hmem, hne⟩
        · rfl
        · rw [hothers x hmem hne] at hopen
          exact nomatch hopen
    rw [hcase r hr hropen, hcase other ho hoopen]
  bounded := by
    have hlength := congrArg List.length (ids_putRecord hstored)
    rw [List.length_map, List.length_map] at hlength
    rw [hlength]
    exact h.bounded
  flags r hr := by
    rcases mem_putRecord hr h.ids with rfl | ⟨hmem, -⟩
    · exact hrecord
    · exact (h.flags r hmem).mono hM

/-- **One new record**, where no record is open and there is room. -/
theorem Ledger.addRecord (h : Ledger M records)
    (hterminal : ∀ other ∈ records, other.status.isTerminal = true)
    (hroom : records.length < MAX_TRANSACTION_RECORDS) (hrecord : record.FlagEarned M) :
    Ledger M (putRecord record records) := by
  by_cases hstored : ∃ other ∈ records, other.ticket.ticketId = record.ticket.ticketId
  · exact h.rewrite hstored (fun other ho _ => hterminal other ho) hrecord fun _ ht => ht
  · have hunused : ∀ other ∈ records, other.ticket.ticketId ≠ record.ticket.ticketId :=
      fun other ho hid => hstored ⟨other, ho, hid⟩
    rw [putRecord_of_unused hunused]
    have hopen : ∀ x ∈ records ++ [record], x.status.isTerminal = false → x = record :=
      fun x hx hopen => by
        rcases List.mem_append.mp hx with hmem | hmem
        · rw [hterminal x hmem] at hopen
          exact nomatch hopen
        · exact List.mem_singleton.mp hmem
    refine ⟨?_, fun r hr other ho hro hoo => (hopen r hr hro).trans (hopen other ho hoo).symm, ?_,
      fun r hr => ?_⟩
    · rw [List.map_append, List.map_singleton, List.nodup_append]
      refine ⟨h.ids, List.nodup_singleton _, fun a ha b hb => ?_⟩
      obtain ⟨other, ho, rfl⟩ := List.mem_map.mp ha
      rw [List.mem_singleton.mp hb]
      exact hunused other ho
    · rw [List.length_append, List.length_singleton]
      omega
    · rcases List.mem_append.mp hr with hmem | hmem
      · exact h.flags r hmem
      · rw [List.mem_singleton.mp hmem]
        exact hrecord

/-- **One record pruned.** -/
theorem Ledger.removeRecord (h : Ledger M s.transactions) (id : String) :
    Ledger M (s.removeRecord id).transactions where
  ids := h.ids.sublist (List.filter_sublist.map _)
  single r hr other ho := h.single r (List.mem_filter.mp hr).1 other (List.mem_filter.mp ho).1
  bounded := Nat.le_trans (List.length_filter_le _ _) h.bounded
  flags r hr := h.flags r (List.mem_filter.mp hr).1

theorem length_removeRecord_lt (h : record ∈ s.transactions) :
    (s.removeRecord record.ticket.ticketId).transactions.length < s.transactions.length := by
  refine List.length_filter_lt_length_iff_exists.mpr ⟨record, h, ?_⟩
  simp

theorem RemovesTerminal.of_transactions (h : s'.transactions = s.transactions) :
    RemovesTerminal s s' := fun record hrecord => Or.inr ⟨record, h ▸ hrecord, rfl⟩

theorem RemovesTerminal.writeRecord (h : RemovesTerminal s s') :
    RemovesTerminal s (s'.writeRecord record) := fun old hold => by
  refine (h old hold).imp_right fun hkept => ?_
  obtain ⟨other, hmem, hid⟩ := hkept
  by_cases hsame : other.ticket.ticketId = record.ticket.ticketId
  · exact ⟨record, mem_of_findRecord (findRecord_putRecord_self record _), hsame.symm.trans hid⟩
  · exact ⟨other, mem_putRecord_of_ne hmem hsame, hid⟩

end Records

/-! ## 2. Calls on a ticket -/

def TransactionRecord.AtWork (record found : TransactionRecord δ) : Prop :=
  record.ticket = found.ticket ∧ record.materializationPending = found.materializationPending ∧
    ¬ record.status.Commits

theorem keptByWork_atWork (found : TransactionRecord δ) :
    KeptByWork (fun record => record.AtWork found) where
  operation _ _ h := h
  applying h := ⟨h.1, h.2.1, not_commits_applying⟩
  applied h := ⟨h.1, h.2.1, not_commits_applied⟩

section Calls

variable {M M' : RestoreTicket δ → Prop} {s : RestoreDisk δ} {found record : TransactionRecord δ}
  {ticket : RestoreTicket δ} {α : Type}

theorem TransactionRecord.AtWork.flagEarned (h : record.AtWork found) (hfound : found.FlagEarned M)
    (hopen : found.status.isTerminal = false) : record.FlagEarned M where
  commits hcommits := absurd hcommits h.2.2
  needs hneeds := by
    rw [h.1] at hneeds ⊢
    rw [h.2.1]
    rcases hfound.needs hneeds with hpending | hback | hmade
    · exact Or.inl hpending
    · rw [hback] at hopen
      exact nomatch hopen
    · exact Or.inr (Or.inr hmade)

theorem flagEarned_rolledBack :
    ({ record with status := .rolledBack, materializationPending := false } :
      TransactionRecord δ).FlagEarned M where
  commits hcommits := absurd hcommits not_commits_rolledBack
  needs _ := Or.inr (Or.inl rfl)

/-- **A call on the open record** preserves the ledger at every cut, if every record that it
writes has the ticket of the record and has earned its flag. -/
theorem Ledger.wp_of_writes {P : TransactionRecord δ → Prop} {p : RestoreProgram δ α}
    (h : Ledger M s.transactions) (hfound : found ∈ s.transactions)
    (hopen : found.status.isTerminal = false) (hp : Writes P p)
    (hP : ∀ record, P record → record.ticket = found.ticket ∧ record.FlagEarned M')
    (hM : ∀ ticket, M ticket → M' ticket) :
    p.wp (fun _ s' => Ledger M' s'.transactions ∧ RemovesTerminal s s')
      (fun _ s' => Ledger M' s'.transactions ∧ RemovesTerminal s s')
      (fun s' => Ledger M' s'.transactions ∧ RemovesTerminal s s') s := by
  let I : RestoreDisk δ → Prop := fun s' => (Ledger M' s'.transactions ∧ RemovesTerminal s s') ∧
    (∃ other ∈ s'.transactions, other.ticket.ticketId = found.ticket.ticketId) ∧
    ∀ other ∈ s'.transactions, other.ticket.ticketId ≠ found.ticket.ticketId →
      other.status.isTerminal = true
  have hstart : I s := by
    refine ⟨⟨h.mono hM, .of_transactions rfl⟩, ⟨found, hfound, rfl⟩, fun other ho hne => ?_⟩
    by_contra hnot
    rw [Bool.not_eq_true] at hnot
    exact hne (by rw [h.single other ho found hfound hnot hopen])
  have hsteps : p.StepsIn (fun f => ∀ s', I s' → I (f s')) fun _ => True :=
    hp.steps_mono fun f hf s' hs' => by
      obtain ⟨⟨hledger, hremoves⟩, hstored, hothers⟩ := hs'
      rcases hf with hf | ⟨record, hrecord, hf⟩
      · show (Ledger M' (f s').transactions ∧ _) ∧ _
        rw [hf s']
        refine ⟨⟨hledger, fun old hold => ?_⟩, hstored, hothers⟩
        rw [hf s']
        exact hremoves old hold
      · obtain ⟨hticket, hflag⟩ := hP record hrecord
        rw [hf s']
        have hid : record.ticket.ticketId = found.ticket.ticketId := by rw [hticket]
        refine ⟨⟨hledger.rewrite (by rw [hid]; exact hstored) (by rw [hid]; exact hothers) hflag
          fun _ ht => ht, hremoves.writeRecord⟩, ⟨record, mem_of_findRecord
            (findRecord_putRecord_self record _), hid⟩, fun other ho hne => ?_⟩
        rcases mem_putRecord ho hledger.ids with rfl | ⟨hmem, -⟩
        · exact absurd hid hne
        · exact hothers other hmem hne
  exact wp_mono (fun _ _ hs => hs.2.1) (fun _ _ hs => hs.1) (fun _ hs => hs.1)
    (hsteps.wp hstart)

theorem Ledger.wp_of_writesNothing {p : RestoreProgram δ α} (h : Ledger M s.transactions)
    (hp : Writes (fun _ => False) p) :
    p.wp (fun _ s' => Ledger M s'.transactions ∧ RemovesTerminal s s')
      (fun _ s' => Ledger M s'.transactions ∧ RemovesTerminal s s')
      (fun s' => Ledger M s'.transactions ∧ RemovesTerminal s s') s := by
  have hsteps : p.StepsIn (fun f => ∀ s', s'.transactions = s.transactions →
      (f s').transactions = s.transactions) fun _ => True :=
    hp.steps_mono fun f hf s' hs' => by
      rcases hf with hf | ⟨record, hrecord, -⟩
      · rw [hf s', hs']
      · exact hrecord.elim
  have hsame : ∀ s' : RestoreDisk δ, s'.transactions = s.transactions →
      Ledger M s'.transactions ∧ RemovesTerminal s s' := fun s' hs' =>
    ⟨by rw [hs']; exact h, .of_transactions hs'⟩
  exact wp_mono (fun _ s' hs => hsame s' hs.2) (fun _ => hsame) hsame (hsteps.wp rfl)

variable [DecidableEq δ] {env : RestoreEnvironment δ}

theorem Ledger.wp_applyRestore (h : Ledger M s.transactions) :
    (applyRestore env ticket).wp (fun _ s' => Ledger M s'.transactions ∧ RemovesTerminal s s')
      (fun _ s' => Ledger M s'.transactions ∧ RemovesTerminal s s')
      (fun s' => Ledger M s'.transactions ∧ RemovesTerminal s s') s := by
  have hstay : Ledger M s.transactions ∧ RemovesTerminal s s := ⟨h, .of_transactions rfl⟩
  have hwork : ∀ record, findRecord ticket.ticketId s.transactions = some record →
      ¬ record.status.Commits → record.status.isTerminal = false →
      (applyRecord env record).wp (fun _ s' => Ledger M s'.transactions ∧ RemovesTerminal s s')
        (fun _ s' => Ledger M s'.transactions ∧ RemovesTerminal s s')
        (fun s' => Ledger M s'.transactions ∧ RemovesTerminal s s') s :=
    fun record hfind hcommits hopen => by
      have hmem := mem_of_findRecord hfind
      exact h.wp_of_writes hmem hopen
        (writes_applyRecord (keptByWork_atWork record) ⟨rfl, rfl, hcommits⟩)
        (fun _ hat => ⟨hat.1, hat.flagEarned (h.flags record hmem) hopen⟩) fun _ ht => ht
  rw [applyRestore, wp_bind]
  refine wp_readMatchingTransaction (fun record hfind _ => ?_) fun _ => hstay
  split
  · exact hstay
  · next hs => exact hwork record hfind (by rw [hs]; exact not_commits_prepared) (by rw [hs]; rfl)
  · next hs => exact hwork record hfind (by rw [hs]; exact not_commits_applying) (by rw [hs]; rfl)
  · exact hstay

theorem Ledger.wp_rollbackRestore (h : Ledger M s.transactions) :
    (rollbackRestore env ticket).wp (fun _ s' => Ledger M s'.transactions ∧ RemovesTerminal s s')
      (fun _ s' => Ledger M s'.transactions ∧ RemovesTerminal s s')
      (fun s' => Ledger M s'.transactions ∧ RemovesTerminal s s') s := by
  have hstay : Ledger M s.transactions ∧ RemovesTerminal s s := ⟨h, .of_transactions rfl⟩
  have hwork : ∀ record, findRecord ticket.ticketId s.transactions = some record →
      ¬ record.status.Commits → record.status.isTerminal = false →
      ∀ p : RestoreProgram δ RestoreOutcome,
        Writes (fun r => r.AtWork record ∨ r.ticket = record.ticket ∧ r.FlagEarned M) p →
      p.wp (fun _ s' => Ledger M s'.transactions ∧ RemovesTerminal s s')
        (fun _ s' => Ledger M s'.transactions ∧ RemovesTerminal s s')
        (fun s' => Ledger M s'.transactions ∧ RemovesTerminal s s') s :=
    fun record hfind _ hopen p hp => by
      have hmem := mem_of_findRecord hfind
      refine h.wp_of_writes hmem hopen hp (fun r hr => ?_) fun _ ht => ht
      rcases hr with hat | hback
      · exact ⟨hat.1, hat.flagEarned (h.flags record hmem) hopen⟩
      · exact hback
  have hrecord : ∀ record : TransactionRecord δ, ¬ record.status.Commits →
      Writes (fun r => r.AtWork record ∨ r.ticket = record.ticket ∧ r.FlagEarned M)
        (rollbackRecord env record) := fun record hcommits =>
    writes_rollbackRecord (keptByWork_atWork record) ⟨rfl, rfl, hcommits⟩
      (fun _ hat => Or.inl hat) fun _ hat => Or.inr ⟨hat.1, flagEarned_rolledBack⟩
  rw [rollbackRestore, wp_bind]
  refine wp_readMatchingTransaction (fun record hfind _ => ?_) fun _ => hstay
  split
  · exact h.wp_of_writesNothing (writes_removeBackupDirectory.then fun _ => trivial)
  · exact hstay
  · exact hstay
  · next hs =>
    exact hwork record hfind (by rw [hs]; exact not_commits_prepared) (by rw [hs]; rfl) _
      (writes_finishRollback (Or.inr ⟨rfl, flagEarned_rolledBack⟩))
  · next hs =>
    have hcommits : ¬ record.status.Commits := by rw [hs]; exact not_commits_applying
    exact hwork record hfind hcommits (by rw [hs]; rfl) _ (hrecord record hcommits)
  · next hs =>
    have hcommits : ¬ record.status.Commits := by rw [hs]; exact not_commits_applied
    exact hwork record hfind hcommits (by rw [hs]; rfl) _ (hrecord record hcommits)

theorem Ledger.wp_commitRestore (h : Ledger M s.transactions) :
    (commitRestore env ticket).wp (fun _ s' => Ledger M s'.transactions ∧ RemovesTerminal s s')
      (fun _ s' => Ledger M s'.transactions ∧ RemovesTerminal s s')
      (fun s' => Ledger M s'.transactions ∧ RemovesTerminal s s') s := by
  have hstay : Ledger M s.transactions ∧ RemovesTerminal s s := ⟨h, .of_transactions rfl⟩
  -- committing and committed keep the flag, which is off
  have hwork : ∀ record, findRecord ticket.ticketId s.transactions = some record →
      record.status.isTerminal = false → record.materializationPending = false →
      ∀ p : RestoreProgram δ RestoreOutcome,
        Writes (fun r => r.ticket = record.ticket ∧ r.materializationPending = false) p →
      p.wp (fun _ s' => Ledger M s'.transactions ∧ RemovesTerminal s s')
        (fun _ s' => Ledger M s'.transactions ∧ RemovesTerminal s s')
        (fun s' => Ledger M s'.transactions ∧ RemovesTerminal s s') s :=
    fun record hfind hopen hpending p hp => by
      have hmem := mem_of_findRecord hfind
      refine h.wp_of_writes hmem hopen hp (fun r hr => ⟨hr.1, fun _ => hr.2, fun hneeds => ?_⟩)
        fun _ ht => ht
      rw [hr.1] at hneeds ⊢
      rcases (h.flags record hmem).needs hneeds with hon | hback | hmade
      · rw [hpending] at hon
        exact nomatch hon
      · rw [hback] at hopen
        exact nomatch hopen
      · exact Or.inr (Or.inr hmade)
  have hfinish : ∀ {ticket : RestoreTicket δ} (record : TransactionRecord δ),
      record.ticket = ticket → record.materializationPending = false →
      Writes (fun r => r.ticket = ticket ∧ r.materializationPending = false)
        (finishCommit record) := fun record hticket hpending =>
    writes_removeBackupDirectory.then fun _ =>
      Program.StepsIn.then (writes_writeTransaction ⟨hticket, hpending⟩) fun _ => trivial
  rw [commitRestore, wp_bind]
  refine wp_readMatchingTransaction (fun record hfind _ => ?_) fun _ => hstay
  split
  · exact h.wp_of_writesNothing (writes_removeBackupDirectory.then fun _ => trivial)
  · next hs =>
    have hpending := (h.flags record (mem_of_findRecord hfind)).commits (Or.inl hs)
    exact hwork record hfind (by rw [hs]; rfl) hpending _ (hfinish record rfl hpending)
  · next hs =>
    split
    · exact hstay
    · next hpending =>
      rw [Bool.not_eq_true] at hpending
      refine hwork record hfind (by rw [hs]; rfl) hpending _ ?_
      exact Program.StepsIn.then (writes_writeTransaction ⟨rfl, hpending⟩) fun _ =>
        hfinish _ rfl hpending
  · exact hstay

/-! ## 3. Prepares -/

omit [DecidableEq δ] in
/-- **Pruning** removes one terminal record where the store is full, and leaves room. -/
theorem Ledger.wp_pruneTerminalTransactions (h : Ledger M s.transactions) :
    (pruneTerminalTransactions env).wp
      (fun _ s' => (Ledger M s'.transactions ∧ RemovesTerminal s s') ∧
        s'.transactions.length < MAX_TRANSACTION_RECORDS)
      (fun _ s' => Ledger M s'.transactions ∧ RemovesTerminal s s')
      (fun s' => Ledger M s'.transactions ∧ RemovesTerminal s s') s := by
  have hstay : Ledger M s.transactions ∧ RemovesTerminal s s := ⟨h, .of_transactions rfl⟩
  rw [pruneTerminalTransactions, wp_bind]
  refine wp_transactionRecords ?_ (fun _ => hstay) hstay
  split
  · next hroom => exact ⟨hstay, hroom⟩
  · next hfull =>
    have hcount : s.transactions.length + 1 - MAX_TRANSACTION_RECORDS = 1 := by
      have hbounded := h.bounded
      omega
    dsimp only
    rw [hcount]
    split
    · exact hstay
    · next hlength =>
      obtain ⟨old, hold⟩ := List.length_eq_one_iff.mp (not_not.mp hlength)
      have hmem : old ∈ (sortByCreation s.transactions).filter
          fun record => record.status.isTerminal := by
        refine List.mem_of_mem_take (i := 1) ?_
        rw [hold]
        exact List.mem_singleton_self old
      obtain ⟨hsorted, hterminal⟩ := List.mem_filter.mp hmem
      rw [sortByCreation, List.mem_insertionSort] at hsorted
      have hpruned : Ledger M (s.removeRecord old.ticket.ticketId).transactions ∧
          RemovesTerminal s (s.removeRecord old.ticket.ticketId) := by
        refine ⟨h.removeRecord _, fun record hrecord => ?_⟩
        by_cases hid : record.ticket.ticketId = old.ticket.ticketId
        · rw [show record = old from List.inj_on_of_nodup_map h.ids hrecord hsorted hid]
          exact Or.inl hterminal
        · exact Or.inr ⟨record, List.mem_filter.mpr ⟨hrecord, by simpa using hid⟩, rfl⟩
      have hroom : (s.removeRecord old.ticket.ticketId).transactions.length <
          MAX_TRANSACTION_RECORDS := Nat.lt_of_lt_of_le (length_removeRecord_lt hsorted) h.bounded
      rw [hold]
      show (Program.durable _ _ >>= _ : RestoreProgram δ Unit).wp _ _ _ s
      rw [wp_bind, wp_durable]
      exact ⟨hstay, hpruned, ⟨hpruned, hroom⟩, hstay, hpruned⟩

omit [DecidableEq δ] in
/-- **A prepare** adds the one record that is open. -/
theorem Ledger.wp_prepareRestore (h : Ledger M s.transactions) (snapshotId newIdentifier : String)
    (unixMillis : Nat) :
    (prepareRestore env snapshotId newIdentifier unixMillis).wp
      (fun _ s' => Ledger M s'.transactions ∧ RemovesTerminal s s')
      (fun _ s' => Ledger M s'.transactions ∧ RemovesTerminal s s')
      (fun s' => Ledger M s'.transactions ∧ RemovesTerminal s s') s := by
  rw [prepareRestore, wp_bind]
  refine wp_imp ?_ h.wp_pruneTerminalTransactions
  rintro _ s₁ ⟨h₁, hroom⟩
  rw [wp_bind]
  refine wp_pendingTransactions (fun pending hpending => ?_) (fun _ => h₁) h₁
  rcases pending with _ | ⟨active, pending⟩
  · dsimp only
    rw [wp_bind, wp_ofExcept]
    refine ⟨fun manifest _ => ?_, fun _ _ => h₁⟩
    rw [wp_bind, wp_ofExcept]
    refine ⟨fun digest _ => ?_, fun _ _ => h₁⟩
    rw [wp_bind]
    refine wp_prepareOperations (fun operations differs _ => ?_) fun _ => h₁
    dsimp only
    rw [wp_bind, writeTransaction, wp_bind, wp_ofExcept]
    refine ⟨fun _ _ => ?_, fun _ _ => h₁⟩
    have hwritten : ∀ record : TransactionRecord δ, record.status = .prepared →
        record.materializationPending = record.ticket.needsMaterialization →
        Ledger M (s₁.writeRecord record).transactions ∧
          RemovesTerminal s (s₁.writeRecord record) := fun record hstatus hflag =>
      ⟨h₁.1.addRecord (hpending.mp rfl) hroom
        ⟨fun hcommits => absurd (hstatus ▸ hcommits) not_commits_prepared,
          fun hneeds => Or.inl (hflag.trans hneeds)⟩, h₁.2.writeRecord⟩
    rw [wp_durable]
    exact ⟨h₁, hwritten _ rfl rfl, hwritten _ rfl rfl, h₁, hwritten _ rfl rfl⟩
  · exact h₁

/-! ## 4. Materializations -/

variable (env) in
/-- A materialization takes effect: it finds the applied record with the flag on, and it
writes the record with the flag off, whether it returns or not. -/
def Materializes (ticket : RestoreTicket δ) (fs : List Fault) (s : RestoreDisk δ) : Prop :=
  ∃ record record', findRecord ticket.ticketId s.transactions = some record ∧
    record.ticket = ticket ∧ record.status = .applied ∧ record.materializationPending = true ∧
    findRecord ticket.ticketId (Session.after (markMaterialized env ticket) fs s).transactions =
      some record' ∧ record'.ticket = ticket ∧ record'.materializationPending = false

/-- The store with the flag of the applied record off. -/
def MarksApplied (ticket : RestoreTicket δ) (s s' : RestoreDisk δ) : Prop :=
  ∃ record, findRecord ticket.ticketId s.transactions = some record ∧ record.ticket = ticket ∧
    record.status = .applied ∧ s' = s.writeRecord { record with materializationPending := false }

theorem wp_markMaterialized_cases (env : RestoreEnvironment δ) (ticket : RestoreTicket δ)
    (s : RestoreDisk δ) :
    (markMaterialized env ticket).wp
      (fun _ s' => MarksApplied ticket s s' ∨ s' = s ∧ ∃ record,
        findRecord ticket.ticketId s.transactions = some record ∧ record.status = .committed)
      (fun _ s' => MarksApplied ticket s s' ∨ s' = s)
      (fun s' => MarksApplied ticket s s' ∨ s' = s) s := by
  rw [markMaterialized, wp_bind]
  refine wp_readMatchingTransaction (fun record hfind hticket => ?_) fun _ => Or.inr rfl
  split
  · next happlied =>
    have hwritten : MarksApplied ticket s
        (s.writeRecord { record with materializationPending := false }) :=
      ⟨record, hfind, hticket, happlied, rfl⟩
    rw [wp_bind, writeTransaction, wp_bind, wp_ofExcept]
    refine ⟨fun _ _ => ?_, fun _ _ => Or.inr rfl⟩
    rw [wp_durable]
    exact ⟨Or.inr rfl, Or.inl hwritten, Or.inl hwritten, Or.inr rfl, Or.inl hwritten⟩
  · split
    · next hcommitted => exact Or.inr ⟨rfl, record, hfind, hcommitted.1⟩
    · exact Or.inr rfl

theorem MarksApplied.materializes {fs : List Fault}
    (h : MarksApplied ticket s (Session.after (markMaterialized env ticket) fs s))
    (hpending : ∀ record, findRecord ticket.ticketId s.transactions = some record →
      record.materializationPending = true) : Materializes env ticket fs s := by
  obtain ⟨record, hfind, hticket, happlied, hwritten⟩ := h
  refine ⟨record, { record with materializationPending := false }, hfind, hticket, happlied,
    hpending record hfind, ?_, hticket, rfl⟩
  rw [hwritten]
  exact findRecord_writeRecord _ (by rw [← hticket]) s

/-- **A materialization** earns the flag of its ticket, if it takes effect. -/
theorem Ledger.markMaterialized (h : Ledger M s.transactions) (env : RestoreEnvironment δ)
    (ticket : RestoreTicket δ) (fs : List Fault) :
    Ledger (fun other => M other ∨ other = ticket ∧ Materializes env ticket fs s)
        (Session.after (Snapshot.markMaterialized env ticket) fs s).transactions ∧
      RemovesTerminal s (Session.after (Snapshot.markMaterialized env ticket) fs s) := by
  have hM : ∀ other, M other → M other ∨ other = ticket ∧ Materializes env ticket fs s :=
    fun _ hother => Or.inl hother
  have hcases : MarksApplied ticket s (Session.after (Snapshot.markMaterialized env ticket) fs s) ∨
      Session.after (Snapshot.markMaterialized env ticket) fs s = s :=
    Session.after_of_wp fs (wp_imp (fun _ _ hs => hs.imp_right And.left) (wp_markMaterialized_cases env ticket s))
  rcases hcases with hmarks | hsame
  · obtain ⟨record, hfind, hticket, happlied, hwritten⟩ := id hmarks
    have hmem := mem_of_findRecord hfind
    have hopen : record.status.isTerminal = false := by rw [happlied]; rfl
    have hneeds : record.ticket.needsMaterialization = true →
        M record.ticket ∨ record.ticket = ticket ∧ Materializes env ticket fs s := fun hneeds => by
      rcases (h.flags record hmem).needs hneeds with hpending | hback | hold
      · refine Or.inr ⟨hticket, hmarks.materializes fun other hother => ?_⟩
        rw [hfind] at hother
        rw [← Option.some.inj hother]
        exact hpending
      · rw [happlied] at hback
        exact nomatch hback
      · exact Or.inl hold
    rw [hwritten]
    refine ⟨h.rewrite ⟨record, hmem, rfl⟩ (fun other ho hne => ?_)
      ⟨fun _ => rfl, fun hn => Or.inr (Or.inr (hneeds hn))⟩ hM,
      (RemovesTerminal.of_transactions rfl).writeRecord⟩
    by_contra hnot
    rw [Bool.not_eq_true] at hnot
    exact hne (by rw [h.single other ho record hmem hnot hopen])
  · rw [hsame]
    exact ⟨h.mono hM, .of_transactions rfl⟩

end Calls

/-! ## 5. Sessions -/

/-- A call on the restore store of one profile. -/
inductive LedgerCall (δ : Type) where
  | prepare (snapshotId newIdentifier : String) (unixMillis : Nat)
  | apply (ticket : RestoreTicket δ)
  | markMaterialized (ticket : RestoreTicket δ)
  | commit (ticket : RestoreTicket δ)
  | rollback (ticket : RestoreTicket δ)
  deriving DecidableEq, Repr

section Sessions

variable [DecidableEq δ] (env : RestoreEnvironment δ)

def LedgerCall.program : LedgerCall δ → RestoreProgram δ Unit
  | .prepare snapshotId newIdentifier unixMillis =>
      (fun _ => ()) <$> prepareRestore env snapshotId newIdentifier unixMillis
  | .apply ticket => (fun _ => ()) <$> applyRestore env ticket
  | .markMaterialized ticket => (fun _ => ()) <$> Snapshot.markMaterialized env ticket
  | .commit ticket => (fun _ => ()) <$> commitRestore env ticket
  | .rollback ticket => (fun _ => ()) <$> rollbackRestore env ticket

def ledgerSession (cs : List (LedgerCall δ × List Fault)) (s : RestoreDisk δ) : RestoreDisk δ :=
  Session.finalState (LedgerCall.program env) cs s

/-- A materialization of the ticket has taken effect in the session. -/
def Materialized (cs : List (LedgerCall δ × List Fault)) (s : RestoreDisk δ)
    (ticket : RestoreTicket δ) : Prop :=
  ∃ before fs after, cs = before ++ (.markMaterialized ticket, fs) :: after ∧
    Materializes env ticket fs (ledgerSession env before s)

/-- No call of the session has made a record disappear that was not committed or rolled back. -/
def PrunesFinished (cs : List (LedgerCall δ × List Fault)) (s : RestoreDisk δ) : Prop :=
  ∀ before call fs after, cs = before ++ (call, fs) :: after →
    ∀ record ∈ (ledgerSession env before s).transactions,
      (record.status = .committed ∨ record.status = .rolledBack) ∨
        ∃ other ∈ (ledgerSession env (before ++ [(call, fs)]) s).transactions,
          other.ticket.ticketId = record.ticket.ticketId

variable {env} {M : RestoreTicket δ → Prop} {s : RestoreDisk δ}

/-- **One call.**  Every cut of it preserves the ledger, in which a materialization that takes
effect counts, and removes terminal records only. -/
theorem Ledger.call (h : Ledger M s.transactions) (call : LedgerCall δ) (fs : List Fault) :
    Ledger (fun ticket => M ticket ∨ call = .markMaterialized ticket ∧ Materializes env ticket fs s)
        (Session.after (call.program env) fs s).transactions ∧
      RemovesTerminal s (Session.after (call.program env) fs s) := by
  have hforget : ∀ {α : Type} (p : RestoreProgram δ α), p.wp
      (fun _ s' => Ledger M s'.transactions ∧ RemovesTerminal s s')
      (fun _ s' => Ledger M s'.transactions ∧ RemovesTerminal s s')
      (fun s' => Ledger M s'.transactions ∧ RemovesTerminal s s') s →
      Ledger (fun ticket => M ticket ∨ call = .markMaterialized ticket ∧
          Materializes env ticket fs s)
          (Session.after ((fun _ => ()) <$> p) fs s).transactions ∧
        RemovesTerminal s (Session.after ((fun _ => ()) <$> p) fs s) := fun p hp => by
    rw [Session.after_map]
    have hafter := Session.after_of_wp fs hp
    exact ⟨hafter.1.mono fun _ ht => Or.inl ht, hafter.2⟩
  cases call with
  | prepare snapshotId newIdentifier unixMillis =>
    exact hforget _ (h.wp_prepareRestore snapshotId newIdentifier unixMillis)
  | apply ticket => exact hforget _ h.wp_applyRestore
  | markMaterialized ticket =>
    rw [LedgerCall.program, Session.after_map]
    obtain ⟨hledger, hremoves⟩ := h.markMaterialized env ticket fs
    refine ⟨hledger.mono fun other hother => ?_, hremoves⟩
    rcases hother with hold | ⟨rfl, hmade⟩
    · exact Or.inl hold
    · exact Or.inr ⟨rfl, hmade⟩
  | commit ticket => exact hforget _ h.wp_commitRestore
  | rollback ticket => exact hforget _ h.wp_rollbackRestore

theorem Materialized.append {cs : List (LedgerCall δ × List Fault)} {ticket : RestoreTicket δ}
    (h : Materialized env cs s ticket) (c : LedgerCall δ × List Fault) :
    Materialized env (cs ++ [c]) s ticket := by
  obtain ⟨before, fs, after, rfl, hmade⟩ := h
  exact ⟨before, fs, after ++ [c], by rw [List.append_assoc, List.cons_append], hmade⟩

theorem ledgerSession_append (cs : List (LedgerCall δ × List Fault)) (call : LedgerCall δ)
    (fs : List Fault) (s : RestoreDisk δ) :
    ledgerSession env (cs ++ [(call, fs)]) s =
      Session.after (call.program env) fs (ledgerSession env cs s) := by
  rw [ledgerSession, Session.finalState_append]
  rfl

theorem ledger_ledgerSession (env : RestoreEnvironment δ) (h : Ledger M s.transactions)
    (cs : List (LedgerCall δ × List Fault)) :
    Ledger (fun ticket => M ticket ∨ Materialized env cs s ticket)
      (ledgerSession env cs s).transactions := by
  induction cs using List.reverseRecOn with
  | nil => exact h.mono fun _ ht => Or.inl ht
  | append_singleton cs c ih =>
    obtain ⟨call, fs⟩ := c
    rw [ledgerSession_append]
    refine (ih.call call fs).1.mono fun ticket hticket => ?_
    rcases hticket with (hold | hmade) | ⟨rfl, hmade⟩
    · exact Or.inl hold
    · exact Or.inr (hmade.append _)
    · exact Or.inr ⟨cs, fs, [], rfl, hmade⟩

theorem prunesFinished_of_ledger (env : RestoreEnvironment δ) (h : Ledger M s.transactions)
    (cs : List (LedgerCall δ × List Fault)) : PrunesFinished env cs s := by
  rintro before call fs after - record hrecord
  rw [ledgerSession_append]
  refine (((ledger_ledgerSession env h before).call call fs).2 record hrecord).imp_left fun hterminal => ?_
  rcases hstatus : record.status with _ | _ | _ | _ | _ | _
  case committed => exact Or.inl rfl
  case rolledBack => exact Or.inr rfl
  all_goals
    rw [hstatus] at hterminal
    exact nomatch hterminal

omit [DecidableEq δ] in
theorem Ledger.length_open_le {records : List (TransactionRecord δ)} (h : Ledger M records) :
    (records.filter fun record => !record.status.isTerminal).length ≤ 1 := by
  have hnodup : (records.filter fun record => !record.status.isTerminal).Nodup :=
    (List.Nodup.of_map _ h.ids).filter _
  rcases hopen : records.filter fun record => !record.status.isTerminal with _ | ⟨a, _ | ⟨b, rest⟩⟩
  · rw [hopen]
    exact Nat.zero_le 1
  · rw [hopen]
    exact Nat.le_refl 1
  · exfalso
    have hmem : ∀ x ∈ a :: b :: rest, x ∈ records ∧ x.status.isTerminal = false := fun x hx => by
      rw [← hopen] at hx
      simpa using List.mem_filter.mp hx
    obtain ⟨ha, haopen⟩ := hmem a (by simp)
    obtain ⟨hb, hbopen⟩ := hmem b (by simp)
    have hne := (List.nodup_cons.mp (hopen ▸ hnodup)).1
    rw [h.single a ha b hb haopen hbopen] at hne
    exact hne (List.mem_cons_self ..)

end Sessions

/-! ## 6. A materialization that stops after its write -/

/-- A profile whose first file the snapshot does not have. -/
def packageProfile : RestoreDisk Bytes :=
  ⟨fun i => if i = 0 then some ⟨ascii "mine", 0o644⟩ else none, fun _ => none, []⟩

def packageTicket : RestoreTicket Bytes :=
  ⟨TRANSACTION_SCHEMA_VERSION, "restore-1", "manual-1", [], "default", 0, true⟩

/-- The process stops right after the write of the materialization, and the next one commits. -/
def stoppedMaterialization : List (LedgerCall Bytes × List Fault) :=
  [(.prepare "manual-1" "restore-1" 0, []), (.apply packageTicket, []),
    (.markMaterialized packageTicket, [.crashAfter]), (.commit packageTicket, [])]

end DshNexus.Snapshot
