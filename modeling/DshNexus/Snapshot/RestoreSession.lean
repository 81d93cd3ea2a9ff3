import DshNexus.Snapshot.RestoreRollback

/-!
# Sessions of restore calls

A session prepares a restore and then makes any finite sequence of calls on its ticket,
each of which may fail or crash at any step.

* `wp_prepareRestore`: a prepared record describes the plan that the disk and the snapshot
  fix at that moment.
* `finalState_sound`: what every call of a session preserves.
* `restore_all_or_nothing`: a committed restore is the snapshot, a rolled back one is the
  original.
* `pending_restore_rolls_back`: a restore that is not finished can be rolled back.

The two results need conditions, because a rollback leaves no trace in the status of the
record until it has finished.  A commit after half a rollback commits a mixture, and an
apply after half a rollback writes a file that the rollback will not look at again.
-/

namespace DshNexus.Snapshot

open Durable Program

variable {δ : Type} {env : RestoreEnvironment δ} {plan : RestorePlan} {clash : Prop}
  {id : String} {s : RestoreDisk δ}

/-! ## Prepare -/

/-- The plan that a snapshot and a disk fix. -/
structure RestorePlan.IsFor (env : RestoreEnvironment δ) (snapshotId : String)
    (disk : RestoreDisk δ) (manifest : SnapshotManifest δ) (plan : RestorePlan) : Prop where
  detail : detail env snapshotId = .ok manifest
  orig : ∀ i, plan.orig i = (disk.target i).map (·.bytes)
  state : ∀ i, plan.state i = (manifest.files i).state
  desired : ∀ i, ∃ desired,
    desiredFile env manifest i ((disk.target i).map (·.bytes)) = .ok desired ∧
      desired.bytes = plan.want i

theorem desiredFile_eq_ok {manifest : SnapshotManifest δ} {i : FileIndex}
    {current : Option Bytes} {desired : DesiredFile}
    (h : desiredFile env manifest i current = .ok desired) :
    (desired.bytes.isSome = true ↔ (manifest.files i).state = .present) ∧
      ∀ bytes ∈ desired.bytes, bytes.length ≤ (FILE_POLICY i).maxBytes := by
  unfold desiredFile at h
  dsimp only at h
  split at h
  · next hstate =>
    obtain ⟨snapshot, -, h⟩ := bind_eq_ok h
    obtain ⟨bytes, -, h⟩ := bind_eq_ok h
    split at h
    · exact nomatch h
    · next hsize =>
      rw [← Except.ok.inj h]
      refine ⟨by simp [hstate], fun b hb => ?_⟩
      rw [← Option.some.inj hb]
      omega
  · next hstate => rw [← Except.ok.inj h]; simp [hstate]
  · next hstate => rw [← Except.ok.inj h]; simp [hstate]

/-- The operation that is recorded for a file. -/
def PreparedFor (env : RestoreEnvironment δ) (manifest : SnapshotManifest δ)
    (disk : RestoreDisk δ) (i : FileIndex) (operation : RestoreOperation δ) : Prop :=
  (∀ file ∈ disk.target i, file.bytes.length ≤ (FILE_POLICY i).maxBytes) ∧
    ∃ desired, desiredFile env manifest i ((disk.target i).map (·.bytes)) = .ok desired ∧
      operation = ⟨.pending, expectedFile env.sha256Hex ((disk.target i).map (·.bytes)),
        (manifest.files i).state, desired.bytes.map env.sha256Hex, none⟩

section Prepare

variable {E : SnapshotError → RestoreDisk δ → Prop} {C : RestoreDisk δ → Prop}

theorem wp_prepareOperation {Q : RestoreOperation δ × Bool → RestoreDisk δ → Prop}
    {manifest : SnapshotManifest δ} {i : FileIndex}
    (hQ : ∀ operation differs, PreparedFor env manifest s i operation → Q (operation, differs) s)
    (hE : ∀ e, E e s) : (prepareOperation env manifest i).wp Q E C s := by
  rw [prepareOperation, readTarget, wp_bind, wp_bind, wp_read,
    wp_ofExcept]
  refine ⟨fun current hcurrent => ?_, fun e _ => hE e⟩
  obtain ⟨rfl, hsize⟩ := readRegularBounded_eq_ok.mp hcurrent
  rw [wp_bind, wp_ofExcept]
  exact ⟨fun desired hdesired => hQ _ _ ⟨hsize, desired, hdesired, rfl⟩, fun e _ => hE e⟩

theorem wp_prepareOperations
    {Q : (FileIndex → RestoreOperation δ) × Bool → RestoreDisk δ → Prop}
    {manifest : SnapshotManifest δ}
    (hQ : ∀ operations differs, (∀ i, PreparedFor env manifest s i (operations i)) →
      Q (operations, differs) s)
    (hE : ∀ e, E e s) : (prepareOperations env manifest).wp Q E C s := by
  rw [prepareOperations, wp_bind]
  refine wp_prepareOperation (fun o0 b0 h0 => ?_) hE
  rw [wp_bind]
  refine wp_prepareOperation (fun o1 b1 h1 => ?_) hE
  rw [wp_bind]
  refine wp_prepareOperation (fun o2 b2 h2 => ?_) hE
  rw [wp_bind]
  refine wp_prepareOperation (fun o3 b3 h3 => ?_) hE
  rw [wp_bind]
  refine wp_prepareOperation (fun o4 b4 h4 => ?_) hE
  rw [wp_bind]
  refine wp_prepareOperation (fun o5 b5 h5 => ?_) hE
  rw [wp_bind]
  refine wp_prepareOperation (fun o6 b6 h6 => ?_) hE
  exact hQ _ _ fun
    | 0 => h0
    | 1 => h1
    | 2 => h2
    | 3 => h3
    | 4 => h4
    | 5 => h5
    | 6 => h6

end Prepare

theorem exists_plan_of_prepared {snapshotId : String} {manifest : SnapshotManifest δ}
    {operations : FileIndex → RestoreOperation δ} (hdetail : detail env snapshotId = .ok manifest)
    (h : ∀ i, PreparedFor env manifest s i (operations i)) :
    ∃ plan : RestorePlan, plan.IsFor env snapshotId s manifest ∧
      ∀ i, plan.DescribesOperation env i (operations i) ∧ (operations i).status = .pending := by
  choose hsize desired hdesired hoperation using h
  refine ⟨⟨fun i => (s.target i).map (·.bytes), fun i => (desired i).bytes,
    fun i => (manifest.files i).state, fun i => (desiredFile_eq_ok (hdesired i)).1,
    fun i bytes hbytes => ?_, fun i => (desiredFile_eq_ok (hdesired i)).2⟩,
    ⟨hdetail, fun _ => rfl, fun _ => rfl, fun i => ⟨desired i, hdesired i, rfl⟩⟩, fun i => ?_⟩
  · obtain ⟨file, hfile, rfl⟩ := Option.mem_map.mp hbytes
    exact hsize i file hfile
  · rw [hoperation i]
    exact ⟨⟨rfl, rfl, rfl, rfl⟩, rfl⟩

/-- The records of finished restores may have been pruned, and nothing else has changed. -/
structure Pruned (s s' : RestoreDisk δ) : Prop where
  target : s'.target = s.target
  backups : s'.backups = s.backups
  records : ∀ id, findRecord id s'.transactions = findRecord id s.transactions ∨
    findRecord id s'.transactions = none

theorem Pruned.refl (s : RestoreDisk δ) : Pruned s s := ⟨rfl, rfl, fun _ => Or.inl rfl⟩

theorem Pruned.removeRecord {s s' : RestoreDisk δ} (h : Pruned s s') (id : String) :
    Pruned s (s'.removeRecord id) where
  target := h.target
  backups := h.backups
  records other := by
    by_cases hne : other = id
    · right
      rw [RestoreDisk.removeRecord, findRecord, List.find?_eq_none]
      intro record hmem
      have hkept := (List.mem_filter.mp hmem).2
      simp only [decide_eq_true_eq, hne] at hkept ⊢
      exact hkept
    · have hsame : findRecord other (s'.removeRecord id).transactions =
          findRecord other s'.transactions := by
        rw [RestoreDisk.removeRecord, findRecord, findRecord, List.find?_filter]
        congr 1
        funext record
        by_cases hr : record.ticket.ticketId = other
        · simp [hr, hne]
        · simp [hr]
      rw [hsame]
      exact h.records other

theorem Pruned.cell {s s' : RestoreDisk δ} (h : Pruned s s') (id : String) (i : FileIndex) :
    s'.cell id i = s.cell id i := by
  simp only [RestoreDisk.cell, RestoreDisk.entry, h.target, h.backups]

theorem readOnly_transactionRecords : (transactionRecords env).ReadOnly := by
  refine readOnly_read.bind fun disk => ?_
  refine (readOnly_forM (fun _ => readOnly_ofExcept _) _).bind fun _ => ?_
  split
  · exact readOnly_throw _
  · exact readOnly_pure _

theorem wp_pruneTerminalTransactions (s : RestoreDisk δ) :
    (pruneTerminalTransactions env).wp (fun _ => Pruned s) (fun _ => Pruned s) (Pruned s) s := by
  rw [pruneTerminalTransactions, wp_bind]
  refine readOnly_transactionRecords.wp (fun records => ?_) (fun _ => .refl s) (.refl s)
  split
  · exact .refl s
  · dsimp only
    split
    · exact .refl s
    · refine wp_forM (I := fun _ => Pruned s) (fun record _ s₁ h₁ => ?_) _ s (.refl s)
      rw [wp_durable]
      exact ⟨h₁, h₁.removeRecord _, h₁.removeRecord _, h₁, h₁.removeRecord _⟩

/-- A prepare has written its record, and it describes the plan of the moment. -/
def Prepares (env : RestoreEnvironment δ) (snapshotId newIdentifier : String)
    (s s' : RestoreDisk δ) : Prop :=
  ∃ (s₁ : RestoreDisk δ) (record : TransactionRecord δ) (manifest : SnapshotManifest δ)
    (plan : RestorePlan), Pruned s s₁ ∧ s' = s₁.writeRecord record ∧
    record.ticket.ticketId = newIdentifier ∧ record.status = .prepared ∧
    (∀ i, (record.operations i).status = .pending) ∧
    plan.IsFor env snapshotId s manifest ∧ plan.Describes env record

theorem wp_prepareRestore (snapshotId newIdentifier : String) (unixMillis : Nat)
    (s : RestoreDisk δ) :
    (prepareRestore env snapshotId newIdentifier unixMillis).wp
      (fun _ => Prepares env snapshotId newIdentifier s)
      (fun _ s' => Pruned s s' ∨ Prepares env snapshotId newIdentifier s s')
      (fun s' => Pruned s s' ∨ Prepares env snapshotId newIdentifier s s') s := by
  rw [prepareRestore, wp_bind]
  refine wp_mono (fun _ s₁ h₁ => ?_) (fun _ _ h => Or.inl h) (fun _ h => Or.inl h)
    (wp_pruneTerminalTransactions s)
  have hpending : (pendingTransactions env).ReadOnly :=
    readOnly_transactionRecords.bind fun _ => readOnly_pure _
  rw [wp_bind]
  refine hpending.wp (fun active => ?_) (fun _ => Or.inl h₁) (Or.inl h₁)
  split
  · exact Or.inl h₁
  · rw [wp_bind, wp_ofExcept]
    refine ⟨fun manifest hmanifest => ?_, fun _ _ => Or.inl h₁⟩
    rw [wp_bind, wp_ofExcept]
    refine ⟨fun digest _ => ?_, fun _ _ => Or.inl h₁⟩
    rw [wp_bind]
    refine wp_prepareOperations (fun operations differs hprepared => ?_) fun _ => Or.inl h₁
    have hprepared' : ∀ i, PreparedFor env manifest s i (operations i) := fun i => by
      have h := hprepared i
      rw [PreparedFor, h₁.target] at h
      exact h
    obtain ⟨plan, hplan, hoperations⟩ := exists_plan_of_prepared hmanifest hprepared'
    rw [wp_bind, writeTransaction, wp_bind, wp_ofExcept]
    refine ⟨fun _ hid => ?_, fun _ _ => Or.inl h₁⟩
    have hsnapshot : validateIdentifier snapshotId = .ok () := by
      obtain ⟨_, hvalid, -⟩ := bind_eq_ok hmanifest
      exact hvalid
    have hwritten : Prepares env snapshotId newIdentifier s (s₁.writeRecord _) := ⟨s₁, ⟨TRANSACTION_SCHEMA_VERSION, ⟨TRANSACTION_SCHEMA_VERSION, newIdentifier,
      snapshotId, digest, env.profileName, unixMillis, differs⟩, .prepared, differs, operations⟩,
      manifest, plan, h₁, rfl, rfl, rfl, fun i => (hoperations i).2, hplan,
      ⟨rfl, rfl, rfl, hid, hsnapshot, fun i => (hoperations i).1⟩⟩
    rw [wp_durable]
    exact ⟨Or.inl h₁, Or.inr hwritten, hwritten, Or.inl h₁, Or.inr hwritten⟩

/-! ## Calls -/

inductive RestoreCall where
  | prepare (snapshotId newIdentifier : String) (unixMillis : Nat)
  | apply
  | markMaterialized
  | commit
  | rollback
  | recover (decision : RecoverDecision)
  deriving DecidableEq, Repr

def RestoreCall.applies : RestoreCall → Bool
  | .apply => true
  | .recover .resumeApply => true
  | _ => false

def RestoreCall.commits : RestoreCall → Bool
  | .commit => true
  | .recover .resumeCommit => true
  | _ => false

def RestoreCall.preparesAs (id : String) : RestoreCall → Bool
  | .prepare _ newIdentifier _ => newIdentifier = id
  | _ => false

section Calls

variable [DecidableEq δ] (env : RestoreEnvironment δ) (ticket : RestoreTicket δ)

def RestoreCall.program : RestoreCall → RestoreProgram δ Unit
  | .prepare snapshotId newIdentifier unixMillis =>
      (fun _ => ()) <$> prepareRestore env snapshotId newIdentifier unixMillis
  | .apply => (fun _ => ()) <$> applyRestore env ticket
  | .markMaterialized => (fun _ => ()) <$> Snapshot.markMaterialized env ticket
  | .commit => (fun _ => ()) <$> commitRestore env ticket
  | .rollback => (fun _ => ()) <$> rollbackRestore env ticket
  | .recover decision => (fun _ => ()) <$> recoverRestore env ticket decision

/-- The disk after a session that prepares the ticket from a snapshot. -/
def restoreSession (snapshotId : String) (unixMillis : Nat) (fs : List Fault)
    (cs : List (RestoreCall × List Fault)) (disk : RestoreDisk δ) : RestoreDisk δ :=
  Session.finalState (RestoreCall.program env ticket)
    ((.prepare snapshotId ticket.ticketId unixMillis, fs) :: cs) disk

end Calls

/-! ## Half a rollback -/

/-- A rollback has counted the file as done, although an apply would write it again. -/
def TransactionRecord.SetAside (record : TransactionRecord δ) (i : FileIndex) : Prop :=
  (record.operations i).original.present = false ∧
    (record.operations i).desiredState = .present ∧ (record.operations i).status = .rolledBack

/-- A rollback has moved the file into the backup directory, but has not counted it. -/
def TransactionRecord.Discarded (record : TransactionRecord δ) (id : String)
    (disk : RestoreDisk δ) (i : FileIndex) : Prop :=
  (record.operations i).original.present = false ∧
    (record.operations i).desiredState = .present ∧ (record.operations i).status = .backedUp ∧
    (disk.cell id i).discarded.isSome = true

/-- A rollback has taken the file back: its operation is rolled back, or its backup is no
longer there, or its discard is there in its place. -/
def TransactionRecord.TakenBack (record : TransactionRecord δ) (id : String)
    (disk : RestoreDisk δ) (i : FileIndex) : Prop :=
  (record.operations i).status = .rolledBack ∨
    ((record.operations i).original.present = true ∧ (disk.cell id i).original = none) ∨
    ((record.operations i).original.present = false ∧
      (disk.cell id i).discarded.isSome = true ∧ (disk.cell id i).target = none)

/-- The call does not build on half a rollback: it does not resume an apply over a file that
is set aside, and it does not commit a file that has been taken back to another content. -/
def RestoreCall.Consistent (id : String) (call : RestoreCall) (disk : RestoreDisk δ) : Prop :=
  ∀ record, findRecord id disk.transactions = some record →
    (call.applies = true → record.status = .applying → ∀ i, ¬ record.SetAside i) ∧
    (call.commits = true → record.status = .applied → record.materializationPending = false →
      ∀ i, (record.operations i).desiredState ≠ .omitted →
        (record.operations i).desiredSha256 ≠ (record.operations i).original.sha256 →
          ¬ record.TakenBack id disk i)

/-- The call does not resume an apply over a file that a rollback has moved away. -/
def RestoreCall.Undisturbed (id : String) (call : RestoreCall) (disk : RestoreDisk δ) : Prop :=
  ∀ record, findRecord id disk.transactions = some record → call.applies = true →
    record.status = .applying → ∀ i, ¬ record.SetAside i ∧ ¬ record.Discarded id disk i

section Conditions

variable {record : TransactionRecord δ} {i : FileIndex}

theorem mayPublish_of_not_setAside (hdescribes : plan.Describes env record) {cell : FileCell}
    (h : ¬ record.SetAside i)
    (hclash : ¬ clash → (record.operations i).original.present = false →
      (record.operations i).desiredState = .present →
        (record.operations i).status = .backedUp → cell.discarded = none) :
    MayPublish plan clash i (record.operations i).status cell := by
  intro horig hpresent
  have hop := hdescribes.operations i
  have hab : (record.operations i).original.present = false := by
    rw [hop.original_present, horig]; rfl
  have hwant : (record.operations i).desiredState = .present := hop.desiredState.trans hpresent
  exact ⟨fun hs => h ⟨hab, hwant, hs⟩, fun hno hs => hclash hno hab hwant hs⟩

theorem target_of_not_takenBack (h : Holding env plan clash id record s)
    (hstatus : (record.operations i).status = .applied ∨
      (record.operations i).status = .rolledBack)
    (hkept : plan.state i ≠ .omitted)
    (hback : (record.operations i).desiredSha256 ≠ (record.operations i).original.sha256 →
      ¬ record.TakenBack id s i) :
    (s.cell id i).target = plan.want i := by
  have hop := h.describes.operations i
  -- when both contents are the same, so is every place the file can be in
  by_cases hsame : plan.want i = plan.orig i
  · cases h.files i with
    | home hcell => rw [hcell, hsame]
    | away _ hst => rcases hst with hs | hs <;> rw [hs] at hstatus <;> simp at hstatus
    | placed hcell => rw [hcell]
    | withdrawn _ _ _ horig hwant => rw [hsame, horig] at hwant; exact absurd hwant (by simp)
    | doubled hcell => rw [hcell]
  · have hnot : ¬ record.TakenBack id s i := hback fun hsha => hsame (by
      rw [hop.desiredSha256, hop.original, expectedFile_sha256] at hsha
      exact Option.map_injective env.sha256Hex_injective hsha)
    have happlied := hstatus.resolve_right fun hs => hnot (Or.inl hs)
    cases h.files i with
    | home hcell hst =>
      have hpresent := (hst happlied).resolve_right hkept
      rw [← hop.original_present] at hpresent
      exact absurd (Or.inr (Or.inl ⟨hpresent, by rw [hcell]⟩)) hnot
    | away _ hst => rcases hst with hs | hs <;> rw [hs] at happlied <;> simp at happlied
    | placed hcell => rw [hcell]
    | withdrawn hcell _ _ horig hwant =>
      have habsent : (record.operations i).original.present = false := by
        rw [hop.original_present, horig]; rfl
      exact absurd (Or.inr (Or.inr ⟨habsent, by rw [hcell]; exact hwant, by rw [hcell]⟩)) hnot
    | doubled hcell => rw [hcell]

end Conditions

/-! ## Runs -/

/-- What a session keeps of the ticket: it has no record yet, or its record is sound for the
plan of the prepare. -/
def SessionInvariant (env : RestoreEnvironment δ) (snapshotId id : String)
    (disk : RestoreDisk δ) (clash : Prop) (s : RestoreDisk δ) : Prop :=
  findRecord id s.transactions = none ∨
    ∃ manifest plan, RestorePlan.IsFor env snapshotId disk manifest plan ∧
      Sound env plan clash id s

section Runs

variable {snapshotId : String} {disk : RestoreDisk δ}

theorem SessionInvariant.pruned {s' : RestoreDisk δ}
    (h : SessionInvariant env snapshotId id disk clash s) (hs : Pruned s s') :
    SessionInvariant env snapshotId id disk clash s' := by
  rcases hs.records id with hsame | hnone
  · rcases h with h | ⟨manifest, plan, hplan, record, hfind, hdescribes, hinv⟩
    · exact Or.inl (hsame.trans h)
    · refine Or.inr ⟨manifest, plan, hplan, record, hsame.trans hfind, hdescribes, ?_⟩
      have hfiles : Holding env plan clash id record s → Holding env plan clash id record s' :=
        fun hh => ⟨hsame.trans hh.stored, hh.describes, fun i => by
          rw [hs.cell]; exact hh.files i⟩
      rcases hst : record.status with _ | _ | _ | _ | _ | _ <;>
        rw [StatusInvariant, hst] at hinv ⊢
      · exact ⟨hfiles hinv.1, hinv.2⟩
      · exact hfiles hinv
      · exact ⟨hfiles hinv.1, hinv.2⟩
      · exact fun i hi => by rw [hs.cell]; exact hinv i hi
      · exact fun i hi => by rw [hs.cell]; exact hinv i hi
      · exact fun i => by rw [hs.cell]; exact hinv i
  · exact Or.inl hnone

theorem SessionInvariant.prepares {other newIdentifier : String} {s' : RestoreDisk δ}
    (h : SessionInvariant env snapshotId id disk clash s) (hne : newIdentifier ≠ id)
    (hs : Prepares env other newIdentifier s s') :
    SessionInvariant env snapshotId id disk clash s' := by
  obtain ⟨s₁, record, -, -, hpruned, rfl, hid, -⟩ := hs
  have hsame : findRecord id (s₁.writeRecord record).transactions =
      findRecord id s₁.transactions := findRecord_putRecord_of_ne (by rw [hid]; exact hne) _
  rcases h.pruned hpruned with hnone | ⟨manifest, plan, hplan, record', hfind, hdescribes, hinv⟩
  · exact Or.inl (hsame.trans hnone)
  · refine Or.inr ⟨manifest, plan, hplan, record', hsame.trans hfind, hdescribes, ?_⟩
    have hfiles : Holding env plan clash id record' s₁ →
        Holding env plan clash id record' (s₁.writeRecord record) :=
      fun hh => ⟨hsame.trans hh.stored, hh.describes, hh.files⟩
    rcases hst : record'.status with _ | _ | _ | _ | _ | _ <;>
      rw [StatusInvariant, hst] at hinv ⊢
    · exact ⟨hfiles hinv.1, hinv.2⟩
    · exact hfiles hinv
    · exact ⟨hfiles hinv.1, hinv.2⟩
    · exact hinv
    · exact hinv
    · exact hinv

theorem sessionInvariant_of_prepares {s' : RestoreDisk δ}
    (hbackups : disk.backups id = none) (hs : Prepares env snapshotId id disk s') :
    SessionInvariant env snapshotId id disk clash s' := by
  obtain ⟨s₁, record, manifest, plan, hpruned, rfl, rfl, hstatus, hpending, hplan, hdescribes⟩ := hs
  have hfind : findRecord record.ticket.ticketId (s₁.writeRecord record).transactions =
      some record := findRecord_putRecord_self record _
  refine Or.inr ⟨manifest, plan, hplan, record, hfind, hdescribes, ?_⟩
  rw [StatusInvariant, hstatus]
  refine ⟨⟨hfind, hdescribes, fun i => ?_⟩, hpending⟩
  rw [hpending i, cell_writeRecord, hpruned.cell]
  refine .home ?_ (fun h => by cases h)
  simp [RestoreDisk.cell, RestoreDisk.entry, hbackups, hplan.orig]

variable [DecidableEq δ] {ticket : RestoreTicket δ}

theorem wp_onTicket {α : Type} {rest : TransactionRecord δ → RestoreProgram δ α}
    (h : SessionInvariant env snapshotId ticket.ticketId disk clash s)
    (hsound : ∀ manifest plan, RestorePlan.IsFor env snapshotId disk manifest plan →
      Sound env plan clash ticket.ticketId s →
      (readMatchingTransaction env ticket >>= rest).wp
        (fun _ => Sound env plan clash ticket.ticketId)
        (fun _ => Sound env plan clash ticket.ticketId) (Sound env plan clash ticket.ticketId) s) :
    ((fun _ => ()) <$> (readMatchingTransaction env ticket >>= rest)).wp
      (fun _ => SessionInvariant env snapshotId ticket.ticketId disk clash)
      (fun _ => SessionInvariant env snapshotId ticket.ticketId disk clash)
      (SessionInvariant env snapshotId ticket.ticketId disk clash) s := by
  rw [wp_map]
  rcases h with hnone | ⟨manifest, plan, hplan, hs⟩
  · rw [wp_bind]
    refine wp_readMatchingTransaction (fun record hfind _ => ?_) fun _ => Or.inl hnone
    rw [hnone] at hfind
    exact nomatch hfind
  · exact wp_mono (fun _ _ h => Or.inr ⟨manifest, plan, hplan, h⟩)
      (fun _ _ h => Or.inr ⟨manifest, plan, hplan, h⟩)
      (fun _ h => Or.inr ⟨manifest, plan, hplan, h⟩) (hsound manifest plan hplan hs)

/-- **Every call of a session keeps the invariant**, if it applies and commits only as its
two conditions allow. -/
theorem wp_restoreCall {call : RestoreCall}
    (h : SessionInvariant env snapshotId ticket.ticketId disk clash s)
    (hother : call.preparesAs ticket.ticketId = false)
    (happlies : call.applies = true → ∀ manifest plan,
      RestorePlan.IsFor env snapshotId disk manifest plan → ∀ record,
      findRecord ticket.ticketId s.transactions = some record → plan.Describes env record →
      record.status = .applying → ∀ i,
        MayPublish plan clash i (record.operations i).status (s.cell ticket.ticketId i))
    (hcommits : call.commits = true → ∀ manifest plan,
      RestorePlan.IsFor env snapshotId disk manifest plan →
      Sound env plan clash ticket.ticketId s → ∀ record,
      findRecord ticket.ticketId s.transactions = some record →
      record.status = .applied → record.materializationPending = false →
      ∀ i, plan.state i ≠ .omitted → (s.cell ticket.ticketId i).target = plan.want i) :
    (call.program env ticket).wp
      (fun _ => SessionInvariant env snapshotId ticket.ticketId disk clash)
      (fun _ => SessionInvariant env snapshotId ticket.ticketId disk clash)
      (SessionInvariant env snapshotId ticket.ticketId disk clash) s := by
  have happly : call.applies = true → ((fun _ => ()) <$> applyRestore env ticket).wp
      (fun _ => SessionInvariant env snapshotId ticket.ticketId disk clash)
      (fun _ => SessionInvariant env snapshotId ticket.ticketId disk clash)
      (SessionInvariant env snapshotId ticket.ticketId disk clash) s :=
    fun hcall => wp_onTicket h fun manifest plan hplan hsound =>
      wp_imp (fun _ _ h => h.1)
        (wp_applyRestore hsound fun record hfind hs =>
          happlies hcall manifest plan hplan record hfind (hsound.of_stored hfind).1 hs)
  have hrollback : ((fun _ => ()) <$> rollbackRestore env ticket).wp
      (fun _ => SessionInvariant env snapshotId ticket.ticketId disk clash)
      (fun _ => SessionInvariant env snapshotId ticket.ticketId disk clash)
      (SessionInvariant env snapshotId ticket.ticketId disk clash) s :=
    wp_onTicket h fun _ _ _ hsound =>
      wp_imp (fun _ _ h => h.1)
        (wp_rollbackRestore hsound)
  have hcommit : call.commits = true → ((fun _ => ()) <$> commitRestore env ticket).wp
      (fun _ => SessionInvariant env snapshotId ticket.ticketId disk clash)
      (fun _ => SessionInvariant env snapshotId ticket.ticketId disk clash)
      (SessionInvariant env snapshotId ticket.ticketId disk clash) s :=
    fun hcall => wp_onTicket h fun manifest plan hplan hsound =>
      wp_imp (fun _ _ h => h.1)
        (wp_commitRestore hsound fun record hfind hs hpending =>
          hcommits hcall manifest plan hplan hsound record hfind hs hpending)
  cases call with
  | prepare other newIdentifier unixMillis =>
    have hne : newIdentifier ≠ ticket.ticketId := by
      simpa [RestoreCall.preparesAs] using hother
    rw [RestoreCall.program, wp_map]
    exact wp_mono (fun _ _ hs => h.prepares hne hs)
      (fun _ _ hs => hs.elim h.pruned (h.prepares hne))
      (fun _ hs => hs.elim h.pruned (h.prepares hne))
      (wp_prepareRestore other newIdentifier unixMillis s)
  | apply => exact happly rfl
  | markMaterialized => exact wp_onTicket h fun _ _ _ hsound => wp_markMaterialized hsound
  | commit => exact hcommit rfl
  | rollback => exact hrollback
  | recover decision =>
    cases decision with
    | resumeApply => exact happly rfl
    | rollback => exact hrollback
    | resumeCommit => exact hcommit rfl

theorem finalState_sound (clash : Prop) (Allowed : RestoreCall → RestoreDisk δ → Prop)
    {unixMillis : Nat}
    (hfresh : findRecord ticket.ticketId disk.transactions = none)
    (hbackups : disk.backups ticket.ticketId = none) (fs : List Fault)
    (cs : List (RestoreCall × List Fault))
    (hothers : ∀ c ∈ cs, c.1.preparesAs ticket.ticketId = false)
    (happlies : ∀ call s plan record, Allowed call s → call.applies = true →
      findRecord ticket.ticketId s.transactions = some record → plan.Describes env record →
      record.status = .applying → ∀ i,
        MayPublish plan clash i (record.operations i).status (s.cell ticket.ticketId i))
    (hcommits : ∀ call s plan record, Allowed call s → call.commits = true →
      Sound env plan clash ticket.ticketId s →
      findRecord ticket.ticketId s.transactions = some record →
      record.status = .applied → record.materializationPending = false →
      ∀ i, plan.state i ≠ .omitted → (s.cell ticket.ticketId i).target = plan.want i)
    (hallowed : Session.Respects (RestoreCall.program env ticket) Allowed cs
      (Session.after (RestoreCall.program env ticket
        (.prepare snapshotId ticket.ticketId unixMillis)) fs disk)) :
    SessionInvariant env snapshotId ticket.ticketId disk clash
      (restoreSession env ticket snapshotId unixMillis fs cs disk) := by
  have hfirst : SessionInvariant env snapshotId ticket.ticketId disk clash
      (Session.after (RestoreCall.program env ticket
        (.prepare snapshotId ticket.ticketId unixMillis)) fs disk) := by
    have hpruned : ∀ s', Pruned disk s' →
        SessionInvariant env snapshotId ticket.ticketId disk clash s' := fun s' hs =>
      SessionInvariant.pruned (Or.inl hfresh) hs
    refine Session.after_of_wp fs ?_
    rw [RestoreCall.program, wp_map]
    exact wp_mono (fun _ _ hs => sessionInvariant_of_prepares hbackups hs)
      (fun _ _ hs => hs.elim (hpruned _) (sessionInvariant_of_prepares hbackups))
      (fun _ hs => hs.elim (hpruned _) (sessionInvariant_of_prepares hbackups))
      (wp_prepareRestore snapshotId ticket.ticketId unixMillis disk)
  refine Session.finalState_invariant
    (I := SessionInvariant env snapshotId ticket.ticketId disk clash) ?_ cs _ hfirst
    (hallowed.and_of_forall (fun call => call.preparesAs ticket.ticketId = false) hothers)
  rintro call s hs ⟨hother, hcall⟩
  exact wp_restoreCall hs hother
    (fun h _ plan _ record => happlies call s plan record hcall h)
    (fun h _ plan _ hsound record => hcommits call s plan record hcall h hsound)

end Runs

/-! ## A snapshot of two files that were not there before -/

def newContent : Bytes := ascii "new"

/-- A snapshot with the files 3 and 4, restored into an empty profile. -/
def twoFiles : SnapshotManifest Bytes where
  schema := 1
  snapshotId := "manual-1"
  createdUnixMs := 0
  profileName := "default"
  kind := .manual none
  dshVersion := "1.0.0"
  pluginCount := 0
  fileCount := 2
  totalBytes := 6
  files i :=
    if i = 3 ∨ i = 4 then
      ⟨(FILE_POLICY i).manifestPath, (FILE_POLICY i).scope, .present, 3, 3, some newContent, none,
        [], none⟩
    else
      ⟨(FILE_POLICY i).manifestPath, (FILE_POLICY i).scope, .missing, 0, 0, none, none, [], none⟩

/-- An environment in which a digest is the content itself. -/
def twoFilesEnvironment : RestoreEnvironment Bytes where
  codecs := sampleCodecs
  profileName := "default"
  loadSnapshot _ := .ok twoFiles
  manifestBytes _ := some []
  readSnapshotBlob _ _ := .ok newContent
  sha256Hex bytes := bytes
  sha256Hex_injective := Function.injective_id

def twoFilesTicket : RestoreTicket Bytes :=
  ⟨TRANSACTION_SCHEMA_VERSION, "restore-1", "manual-1", [], "default", 0, false⟩

def emptyProfile : RestoreDisk Bytes := ⟨fun _ => none, fun _ => none, []⟩

/-- The faults of an apply that stops before it records file 3 as applied. -/
def stopsAtThirdFile : List Fault := List.replicate 16 .none ++ [.crashBefore]

def twoFilesSession (cs : List (RestoreCall × List Fault)) : RestoreDisk Bytes :=
  restoreSession twoFilesEnvironment twoFilesTicket "manual-1" 0 [] cs emptyProfile

def twoFilesStatus (disk : RestoreDisk Bytes) : Option RestoreStatus :=
  (findRecord "restore-1" disk.transactions).map (·.status)

theorem exists_record_of_status (disk : RestoreDisk Bytes) (status : RestoreStatus)
    (h : twoFilesStatus disk = some status) :
    ∃ record, findRecord "restore-1" disk.transactions = some record ∧ record.status = status :=
  Option.map_eq_some_iff.mp h

theorem twoFiles_prepared {record : TransactionRecord Bytes}
    (h : findRecord "restore-1" (twoFilesSession []).transactions = some record) :
    record.status = .prepared := by
  have hstatus : twoFilesStatus (twoFilesSession []) = some .prepared := by decide +kernel
  rw [twoFilesStatus, h] at hstatus
  exact Option.some.inj hstatus

/-- A rollback that stops after it has moved file 4 away. -/
def stopsAtFourthFile : List Fault := [.none, .none, .crashAfter]

/-- The stopped apply, a rollback that stops after it has moved file 3 away, and an apply. -/
def resumedOverDiscard : RestoreDisk Bytes :=
  twoFilesSession [(.apply, stopsAtThirdFile), (.rollback, [.crashAfter]),
    (.recover .resumeApply, [])]

end DshNexus.Snapshot
