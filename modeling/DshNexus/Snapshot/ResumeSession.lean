import DshNexus.Snapshot.RestoreResume

/-!
# A resumed apply equals an uninterrupted one

Applies of one ticket follow each other, each cut by an error or a crash, and nothing else
touches the files.  As soon as one of them returns, every policy file is what one
uninterrupted apply makes of it, provided that no apply begins where a file has been written
without its mode.

* `wp_applyRestore_resumable`: every cut of an apply can be resumed.
* `returns_applyRestore`: the uninterrupted apply ends.
* `resumed_apply_eq_uninterrupted`: the two leave the same files.
-/

namespace DshNexus.Snapshot

open Durable Program

variable {δ : Type}

/-! ## The apply, resumed -/

section Apply

variable [DecidableEq δ] {env : RestoreEnvironment δ} {ticket : RestoreTicket δ}
  {plan : ApplyPlan δ} {record : TransactionRecord δ} {s : RestoreDisk δ}

theorem Resumable.settle (h : Resumable env ticket plan True record s)
    (hstarted : Started env ticket plan) (hmodes : ModesSettled env ticket s) :
    Resumable env ticket plan False record s := by
  refine ⟨h.stored, h.belongs, h.original, h.desiredState, h.desiredSha256, fun i => ?_⟩
  have hmode := fun file => hmodes record plan.manifest h.stored hstarted.loadSnapshot i file
  have hfile := h.files i
  cases hfile with
  | home htarget hbackup hstatus => exact .home htarget hbackup hstatus
  | omitted htarget homitted hstatus => exact .omitted htarget homitted hstatus
  | away htarget hbackup horig hkept hstatus => exact .away htarget hbackup horig hkept hstatus
  | written _ htarget hthere hbackup hsettled hkept hstatus =>
    obtain ⟨bytes, hbytes⟩ := Option.isSome_iff_exists.mp hthere
    have hwritten : s.target i = some ⟨bytes, privateMode⟩ := by
      rw [htarget, DesiredFile.written, hbytes, Option.map_some]
    have hfinal := hmode _ hstatus hwritten
    rw [← mode_of_desiredFile (hstarted.desired i) hthere] at hfinal
    refine .placed ?_ hbackup hsettled hkept (Or.inl hstatus)
    rw [hwritten, DesiredFile.placed, hbytes, Option.map_some, ← hfinal]
  | placed htarget hbackup hsettled hkept hstatus =>
    exact .placed htarget hbackup hsettled hkept hstatus

/-- The record of the plan is applied, and so is every operation. -/
def Finished (env : RestoreEnvironment δ) (ticket : RestoreTicket δ) (plan : ApplyPlan δ)
    (s : RestoreDisk δ) : Prop :=
  ∃ record, Resumable env ticket plan False record s ∧ record.status = .applied ∧
    ∀ i, (record.operations i).status = .applied

/-- The plan of the transaction that `s₀` holds. -/
structure PlanOf (env : RestoreEnvironment δ) (ticket : RestoreTicket δ) (s₀ : RestoreDisk δ)
    (plan : ApplyPlan δ) : Prop where
  stored : findRecord ticket.ticketId s₀.transactions = some plan.start
  orig : plan.orig = s₀.target
  started : Started env ticket plan

/-- What every cut of every apply leaves of the disk that the first one has begun with. -/
def ApplyInvariant (env : RestoreEnvironment δ) (ticket : RestoreTicket δ)
    (s₀ s : RestoreDisk δ) : Prop :=
  s = s₀ ∨ ∃ plan, PlanOf env ticket s₀ plan ∧
    (Cut env ticket plan s ∨ Finished env ticket plan s)

theorem wp_applyOperations_resumable (hstarted : Started env ticket plan)
    (h : Resumable env ticket plan False record s) (happlying : record.status = .applying) :
    ((List.finRange 7).foldlM (applyOperation env plan.manifest) record).wp
      (fun record' s' => Resumable env ticket plan False record' s' ∧
        record'.status = .applying ∧ ∀ i, (record'.operations i).status = .applied)
      (fun _ => Cut env ticket plan) (Cut env ticket plan) s := by
  have hloop := wp_foldlM (g := applyOperation env plan.manifest)
    (E := fun _ => Cut env ticket plan) (C := Cut env ticket plan)
    (I := fun xs record' s' => Resumable env ticket plan False record' s' ∧
      record'.status = .applying ∧ ∀ j, j ∉ xs → (record'.operations j).status = .applied)
    (fun x xs record' s' => by
      rintro ⟨hnext, hstatus, hdone⟩
      refine wp_imp ?_
        (wp_applyOperation_resumable hstarted hnext hstatus x)
      rintro record'' s'' ⟨hduring, happlied⟩
      refine ⟨hduring.resumable, hduring.applying, fun j hj => ?_⟩
      by_cases hjx : j = x
      · rw [hjx]; exact happlied
      · rw [hduring.others j hjx]
        exact hdone j (by simp [hjx, hj]))
    (List.finRange 7) record s
    ⟨h, happlying, fun j hj => absurd (List.mem_finRange j) hj⟩
  refine wp_imp ?_ hloop
  rintro record' s' ⟨hnext, hstatus, hdone⟩
  exact ⟨hnext, hstatus, fun i => hdone i List.not_mem_nil⟩

theorem wp_continueApply (hstarted : Started env ticket plan)
    (h : Resumable env ticket plan False record s) (happlying : record.status = .applying)
    {E : SnapshotError → RestoreDisk δ → Prop} {C : RestoreDisk δ → Prop}
    (hC : ∀ s', Cut env ticket plan s' ∨ Finished env ticket plan s' → C s' ∧ ∀ e, E e s') :
    (do
      ensureBackupDirectory record.ticket.ticketId
      let record ← (List.finRange 7).foldlM (applyOperation env plan.manifest) record
      let record := { record with status := .applied }
      writeTransaction record
      pure (outcome record) : RestoreProgram δ RestoreOutcome).wp
      (fun _ => Finished env ticket plan) E C s := by
  have hcut : ∀ s', Cut env ticket plan s' → C s' ∧ ∀ e, E e s' := fun s' h => hC s' (Or.inl h)
  have hloop : ∀ s', Resumable env ticket plan False record s' →
      ((List.finRange 7).foldlM (applyOperation env plan.manifest) record >>= fun record => do
          writeTransaction { record with status := .applied }
          pure (outcome { record with status := .applied })).wp
        (fun _ => Finished env ticket plan) E C s' := by
    intro s' h'
    rw [wp_bind]
    refine wp_mono ?_ (fun e s h => (hcut s h).2 e) (fun s h => (hcut s h).1)
      (wp_applyOperations_resumable hstarted h' happlying)
    rintro record₁ s₁ ⟨h₁, happlying₁, hdone⟩
    have hfinished : Finished env ticket plan
        (s₁.writeRecord { record₁ with status := .applied }) :=
      ⟨_, h₁.writeStatus .applied, rfl, hdone⟩
    have hlast := hC _ (Or.inr hfinished)
    have hbefore := hcut _ (h₁.atCut happlying₁)
    rw [wp_bind]
    exact wp_writeTransaction hfinished (fun e => ⟨hbefore.2 e, hlast.2 e⟩)
      ⟨hbefore.1, hlast.1⟩
  have hbefore := hcut s (h.atCut happlying)
  rw [wp_bind, ensureBackupDirectory, wp_bind, wp_read]
  have hid := congrArg RestoreTicket.ticketId h.belongs
  split
  · exact hloop s h
  · next hdirectory =>
    rw [hid, Bool.not_eq_true] at hdirectory
    have hnext : Resumable env ticket plan False record
        (s.setDirectory ticket.ticketId (some fun _ => none)) := by
      refine h.change (i := 0) (s.setDirectory ticket.ticketId (some fun _ => none)) rfl
        (fun j _ => ⟨rfl, entry_createDirectory hdirectory _⟩) id ?_
      rw [entry_createDirectory hdirectory]
      exact h.files 0
    have hafter := hcut _ (hnext.atCut happlying)
    rw [wp_durable, hid]
    exact ⟨hbefore.1, hafter.1, hloop _ hnext, hbefore.2 _, hafter.2 _⟩

/-- The first write of an apply, with what it has checked. -/
theorem wp_beginApply_unstarted {manifest : SnapshotManifest δ}
    (hfind : findRecord ticket.ticketId s.transactions = some record)
    (hmatching : Matching env ticket record)
    (hmanifest : revalidateTicketSnapshot env ticket = .ok manifest)
    (hprepared : record.status = .prepared)
    (hpending : ∀ i, (record.operations i).status = .pending)
    (hbackups : s.backups ticket.ticketId = none) :
    (beginApply env manifest record).wp
      (fun record' s' => ∃ plan, PlanOf env ticket s plan ∧ plan.manifest = manifest ∧
        Resumable env ticket plan False record' s' ∧ record'.status = .applying)
      (fun _ => ApplyInvariant env ticket s) (ApplyInvariant env ticket s) s := by
  have hsame : ∀ s', s' = s → ApplyInvariant env ticket s s' := fun s' h => Or.inl h
  rw [beginApply, if_pos hprepared, wp_bind]
  -- the preflight has read every file
  refine wp_mono ?_ (fun _ => hsame) hsame (wp_checks
    (P := fun i => matchesExpected env.sha256Hex ((s.target i).map (·.bytes))
      (record.operations i).original = true ∧
        ∀ file ∈ s.target i, file.bytes.length ≤ (FILE_POLICY i).maxBytes) (fun i => ?_)
    (List.finRange 7))
  swap
  · rw [checkOriginal, wp_bind, readTarget, wp_bind, wp_read,
      wp_ofExcept]
    refine ⟨fun current hcurrent => ?_, fun _ _ => rfl⟩
    obtain ⟨rfl, hbounded⟩ := readRegularBounded_eq_ok.mp hcurrent
    split
    · rfl
    · next hmatches => exact ⟨rfl, by simpa using hmatches, hbounded⟩
  rintro _ s₁ ⟨rfl, horiginal⟩
  rw [wp_bind]
  refine wp_mono ?_ (fun _ => hsame) hsame (wp_checks
    (P := fun i => ∃ desired, desiredFile env manifest i ((s₁.target i).map (·.bytes)) =
      .ok desired) (fun i => ?_) (List.finRange 7))
  swap
  · rw [wp_bind]
    refine wp_readTarget ?_ fun _ => rfl
    rw [wp_bind, wp_ofExcept]
    exact ⟨fun desired hdesired => ⟨rfl, desired, hdesired⟩, fun _ _ => rfl⟩
  rintro _ s ⟨rfl, hdesired⟩
  choose desired hdesired using fun i => hdesired i (List.mem_finRange i)
  have hplan : PlanOf env ticket s ⟨record, s.target, manifest, desired⟩ :=
    ⟨hfind, rfl, hmatching, hmanifest, fun i => (horiginal i (List.mem_finRange i)).1,
      fun i => (horiginal i (List.mem_finRange i)).2, hdesired⟩
  have hnone : ∀ i, s.entry ticket.ticketId ⟨i, .original, false⟩ = none := by
    intro i
    rw [RestoreDisk.entry, hbackups]
    rfl
  have hfirst : Resumable env ticket ⟨record, s.target, manifest, desired⟩ False record s :=
    ⟨hfind, hmatching.ticket, fun _ => rfl, fun _ => rfl, fun _ => rfl,
      fun i => .home rfl (hnone i) (Or.inl (hpending i))⟩
  have hnext := hfirst.writeStatus .applying
  have hafter : ApplyInvariant env ticket s (s.writeRecord { record with status := .applying }) :=
    Or.inr ⟨_, hplan, Or.inl (hnext.atCut rfl)⟩
  rw [wp_bind, wp_attempt]
  refine ⟨hsame _ rfl, ?_, hsame _ rfl⟩
  rw [wp_bind]
  exact wp_writeTransaction ⟨_, hplan, rfl, hnext, rfl⟩ (fun _ => ⟨hsame _ rfl, hafter⟩)
    ⟨hsame _ rfl, hafter⟩

/-- **Every cut of an apply can be resumed**, and an apply that returns has finished. -/
theorem wp_applyRestore_resumable {s₀ : RestoreDisk δ} (hunstarted : Unstarted ticket.ticketId s₀)
    (h : ApplyInvariant env ticket s₀ s) (hmodes : ModesSettled env ticket s) :
    (applyRestore env ticket).wp
      (fun _ s' => ∃ plan, PlanOf env ticket s₀ plan ∧ Finished env ticket plan s')
      (fun _ => ApplyInvariant env ticket s₀) (ApplyInvariant env ticket s₀) s := by
  rw [applyRestore, wp_bind]
  refine wp_matching (fun record hfind hmatching => ?_) (fun _ => h)
  have hticket := hmatching.ticket
  have hgo : ∀ plan, PlanOf env ticket s₀ plan → ∀ (record : TransactionRecord δ) s,
      Resumable env ticket plan False record s → record.status = .applying →
      (do
        ensureBackupDirectory record.ticket.ticketId
        let record ← (List.finRange 7).foldlM (applyOperation env plan.manifest) record
        let record := { record with status := .applied }
        writeTransaction record
        pure (outcome record) : RestoreProgram δ RestoreOutcome).wp
        (fun _ s' => ∃ plan, PlanOf env ticket s₀ plan ∧ Finished env ticket plan s')
        (fun _ => ApplyInvariant env ticket s₀) (ApplyInvariant env ticket s₀) s := by
    intro plan hplan record s hresumable happlying
    refine wp_imp (fun _ s' hs' => ⟨plan, hplan, hs'⟩)
      (wp_continueApply hplan.started hresumable happlying fun s' hs' => ?_)
    exact ⟨Or.inr ⟨plan, hplan, hs'⟩, fun _ => Or.inr ⟨plan, hplan, hs'⟩⟩
  rcases h with rfl | ⟨plan, hplan, ⟨record', hresumable, hstatus⟩ | ⟨record', hresumable, hstatus, hall⟩⟩
  · obtain ⟨record', hfind', hprepared, hpending, hbackups⟩ := hunstarted
    rw [hfind] at hfind'
    obtain rfl := Option.some.inj hfind'
    rw [hprepared]
    show (applyRecord env record).wp _ _ _ s
    rw [applyRecord, wp_bind, hticket, wp_ofExcept]
    refine ⟨fun manifest hmanifest => ?_, fun _ _ => Or.inl rfl⟩
    rw [wp_bind]
    refine wp_imp ?_
      (wp_beginApply_unstarted hfind hmatching hmanifest hprepared hpending hbackups)
    rintro record₁ s₁ ⟨plan, hplan, rfl, hresumable, happlying⟩
    exact hgo plan hplan record₁ s₁ hresumable happlying
  · rw [hresumable.stored] at hfind
    obtain rfl := Option.some.inj hfind
    rw [hstatus]
    show (applyRecord env record').wp _ _ _ s
    rw [applyRecord, wp_bind, hticket, wp_ofExcept]
    refine ⟨fun manifest hmanifest => ?_, fun _ _ => Or.inr ⟨plan, hplan,
      Or.inl ⟨record', hresumable, hstatus⟩⟩⟩
    rw [hplan.started.revalidated] at hmanifest
    obtain rfl := Except.ok.inj hmanifest
    rw [wp_bind, beginApply, if_neg (by rw [hstatus]; decide), wp_pure]
    exact hgo plan hplan record' s (hresumable.settle hplan.started hmodes) hstatus
  · rw [hresumable.stored] at hfind
    obtain rfl := Option.some.inj hfind
    rw [hstatus]
    exact ⟨plan, hplan, record', hresumable, hstatus, hall⟩

end Apply

/-! ## The uninterrupted apply -/

section Uninterrupted

variable [DecidableEq δ] {env : RestoreEnvironment δ} {ticket : RestoreTicket δ}
  {plan : ApplyPlan δ} {first record : TransactionRecord δ} {s : RestoreDisk δ} {i : FileIndex}

theorem Started.returns_checkOriginal (h : Started env ticket plan)
    {Q : Unit → RestoreDisk δ → Prop} {original : ExpectedFile δ}
    (horiginal : original = (plan.start.operations i).original) (htarget : s.target i = plan.orig i)
    (hQ : Q () s) : (checkOriginal env i original).returns Q s := by
  rw [checkOriginal, returns_bind]
  refine returns_readTarget (by rw [htarget]; exact h.bounded i) ?_
  rw [if_neg, returns_pure]
  · exact hQ
  · rw [horiginal, htarget, h.original i]
    decide

theorem returns_writeTransaction_during (h : During env ticket plan i first record s)
    (hstarted : Started env ticket plan) {Q : Unit → RestoreDisk δ → Prop}
    {operation : RestoreOperation δ}
    (hQ : Q () (s.writeRecord (record.setOperation i operation))) :
    (writeTransaction (record.setOperation i operation)).returns Q s := by
  refine returns_writeTransaction ?_ hQ
  show validateIdentifier record.ticket.ticketId = .ok ()
  rw [h.resumable.belongs]
  exact hstarted.matching.identifier

theorem returns_writeStatus_during (h : During env ticket plan i first record s)
    (hstarted : Started env ticket plan) {Q : TransactionRecord δ → RestoreDisk δ → Prop}
    {status : OperationStatus}
    (hQ : ∀ record, Q record (s.writeRecord record)) :
    (writeStatus record i status).returns Q s := by
  rw [writeStatus, returns_bind]
  exact returns_writeTransaction_during h hstarted (hQ _)

theorem returns_startOperation_during (h : During env ticket plan i first record s)
    (hstarted : Started env ticket plan) (hpending : (record.operations i).status = .pending)
    {Q : TransactionRecord δ → RestoreDisk δ → Prop}
    (hQ : ∀ record' s', During env ticket plan i first record' s' →
      (record'.operations i).status = .applying → s'.target i = plan.orig i →
      s'.entry ticket.ticketId ⟨i, .original, false⟩ = none → s'.backups = s.backups →
      Q record' s') :
    (startOperation env record i).returns Q s := by
  have hfile := h.resumable.files i
  rw [hpending] at hfile
  obtain ⟨htarget, hbackup⟩ := hfile.of_pending
  have hstatus : (startOperation env record i).returns (fun record' s' =>
      (record'.operations i).status = .applying ∧ s'.target i = plan.orig i ∧
        s'.entry ticket.ticketId ⟨i, .original, false⟩ = none ∧ s'.backups = s.backups) s := by
    rw [startOperation, if_pos hpending, returns_bind]
    refine hstarted.returns_checkOriginal (h.resumable.original i) htarget ?_
    rw [writeStatus, returns_bind]
    refine returns_writeTransaction_during h hstarted ?_
    rw [returns_pure, operations_setOperation_self]
    exact ⟨rfl, htarget, hbackup, rfl⟩
  refine returns_mono ?_ (returns_and_of_wp hstatus
    (wp_startOperation_during h (by rw [hpending]; decide) fun record' s' hnext _ => hnext))
  rintro record' s' ⟨⟨happlying, htarget', hbackup', hdirectory⟩, hnext⟩
  exact hQ record' s' hnext happlying htarget' hbackup' hdirectory

theorem returns_moveOriginal_during (h : During env ticket plan i first record s)
    (hstarted : Started env ticket plan) (hdirectory : (s.backups ticket.ticketId).isSome = true)
    (happlying : (record.operations i).status = .applying)
    (horig : (plan.orig i).isSome = true)
    (hkept : (plan.start.operations i).desiredState ≠ .omitted)
    (htarget : s.target i = plan.orig i)
    (hbackup : s.entry ticket.ticketId ⟨i, .original, false⟩ = none)
    {Q : Unit → RestoreDisk δ → Prop}
    (hQ : ∀ s', During env ticket plan i first record s' → s'.target i = none →
      s'.entry ticket.ticketId ⟨i, .original, false⟩ = plan.orig i →
      (s'.backups ticket.ticketId).isSome = true → Q () s') :
    (moveOriginal env ticket.ticketId i (record.operations i).original).returns Q s := by
  have hmoves : (moveOriginal env ticket.ticketId i (record.operations i).original).returns
      (fun _ s' => (s'.backups ticket.ticketId).isSome = true) s := by
    rw [moveOriginal, returns_bind]
    refine returns_readBackup (by rw [hbackup]; simp) ?_
    rw [hbackup]
    show (checkOriginal env i _ >>= _ : RestoreProgram δ _).returns _ _
    rw [returns_bind]
    refine hstarted.returns_checkOriginal (h.resumable.original i) htarget ?_
    rw [returns_bind]
    refine returns_validateBackupDirectory hdirectory ?_
    rw [renameToBackup, returns_bind, returns_read, htarget,
      if_pos ⟨horig, hdirectory⟩, returns_durable]
    show ((s.setEntry ticket.ticketId ⟨i, .original, false⟩ (s.target i)).backups
      ticket.ticketId).isSome = true
    rw [backups_setEntry_isSome]
    exact hdirectory
  refine returns_mono ?_ (returns_and_of_wp hmoves
    (wp_moveOriginal_during h happlying horig hkept (Q := fun _ s' =>
      During env ticket plan i first record s' ∧ s'.target i = none ∧
        s'.entry ticket.ticketId ⟨i, .original, false⟩ = plan.orig i)
      fun s' hnext htarget hentry => ⟨hnext, htarget, hentry⟩))
  rintro _ s' ⟨hdirectory', hnext, htarget', hentry⟩
  exact hQ s' hnext htarget' hentry hdirectory'

theorem returns_backUpOriginal_during (h : During env ticket plan i first record s)
    (hstarted : Started env ticket plan) (hdirectory : (s.backups ticket.ticketId).isSome = true)
    (happlying : (record.operations i).status = .applying)
    (hkept : (plan.start.operations i).desiredState ≠ .omitted)
    (htarget : s.target i = plan.orig i)
    (hbackup : s.entry ticket.ticketId ⟨i, .original, false⟩ = none)
    {Q : TransactionRecord δ → RestoreDisk δ → Prop}
    (hQ : ∀ record' s', During env ticket plan i first record' s' →
      (record'.operations i).status = .backedUp → s'.target i = none →
      (s'.backups ticket.ticketId).isSome = true → Q record' s') :
    (backUpOriginal env record i).returns Q s := by
  have hid := congrArg RestoreTicket.ticketId h.resumable.belongs
  have hpresent : (record.operations i).original.present = (plan.orig i).isSome := by
    rw [h.resumable.original i]
    exact hstarted.present i
  have hbacks : (backUpOriginal env record i).returns (fun _ s' => s'.target i = none ∧
      (s'.backups ticket.ticketId).isSome = true) s := by
    rw [backUpOriginal, hid, if_pos happlying]
    split
    · next horig =>
      rw [hpresent] at horig
      obtain ⟨original, horiginal⟩ := Option.isSome_iff_exists.mp horig
      have hmatches := hstarted.original i
      rw [horiginal] at hmatches
      rw [returns_bind]
      refine returns_moveOriginal_during h hstarted hdirectory happlying horig hkept htarget
        hbackup fun s' hnext htarget' hentry hdirectory' => ?_
      rw [returns_bind]
      refine returns_validateBackupDirectory hdirectory' ?_
      rw [returns_bind]
      refine returns_readBackup (by rw [hentry]; exact hstarted.bounded i) ?_
      rw [hentry, horiginal]
      dsimp only
      rw [h.resumable.original i, if_neg (by rw [← Option.map_some, hmatches]; decide)]
      exact returns_writeStatus_during hnext hstarted fun record => ⟨htarget', hdirectory'⟩
    · next horig =>
      rw [hpresent, Bool.not_eq_true, Option.isSome_eq_false_iff, Option.isNone_iff_eq_none]
        at horig
      rw [returns_bind]
      refine returns_readBackup (by rw [hbackup]; simp) ?_
      rw [hbackup]
      exact returns_writeStatus_during h hstarted fun record => ⟨by rw [← horig]; exact htarget, hdirectory⟩
  refine returns_mono ?_ (returns_and_of_wp hbacks
    (wp_backUpOriginal_during hstarted h (Or.inl happlying) hkept
      (Q := fun record' s' => During env ticket plan i first record' s' ∧
        (record'.operations i).status = .backedUp)
      fun record' s' hnext hstatus => ⟨hnext, hstatus⟩))
  rintro record' s' ⟨⟨htarget', hdirectory'⟩, hnext, hstatus⟩
  exact hQ record' s' hnext hstatus htarget' hdirectory'

omit [DecidableEq δ] in
theorem returns_placeDesired_during {Q : Unit → RestoreDisk δ → Prop} {desired : DesiredFile}
    (htarget : s.target i = none)
    (hQ : ∀ s', s'.transactions = s.transactions → s'.backups = s.backups → Q () s') :
    (placeDesired i desired).returns Q s := by
  rw [placeDesired]
  split
  · rw [returns_bind]
    refine returns_readTarget (by rw [htarget]; simp) ?_
    rw [htarget]
    dsimp only
    rw [writeTarget, returns_bind, returns_bind, returns_attempt,
      returns_durable]
    rcases desired.mode with _ | mode
    · exact hQ _ rfl rfl
    · rw [applyMode, returns_durable]
      exact hQ _ rfl rfl
  · rw [returns_bind, returns_read, htarget]
    exact hQ s rfl rfl

theorem returns_publishDesired_during (h : During env ticket plan i first record s)
    (hstarted : Started env ticket plan) (hdirectory : (s.backups ticket.ticketId).isSome = true)
    (hstatus : (record.operations i).status = .backedUp) (htarget : s.target i = none)
    (hsettled : plan.Settled env i) :
    (publishDesired env plan.manifest record i).returns
      (fun _ s' => (s'.backups ticket.ticketId).isSome = true) s := by
  have hid := congrArg RestoreTicket.ticketId h.resumable.belongs
  have hfile := h.resumable.files i
  rw [hstatus] at hfile
  have hbackup := hfile.of_backedUp.1
  have hpresent : (record.operations i).original.present = (plan.orig i).isSome := by
    rw [h.resumable.original i]
    exact hstarted.present i
  have hreads : (backedUpOriginal ticket.ticketId i (record.operations i)).returns
      (fun current s' => current = (plan.orig i).map (·.bytes) ∧ s' = s) s := by
    rw [backedUpOriginal]
    split
    · next horig =>
      rw [hpresent] at horig
      obtain ⟨original, horiginal⟩ := Option.isSome_iff_exists.mp horig
      rw [returns_bind]
      refine returns_validateBackupDirectory hdirectory ?_
      rw [returns_bind]
      refine returns_readBackup (by rw [hbackup]; exact hstarted.bounded i) ?_
      rw [hbackup, horiginal]
      exact ⟨rfl, rfl⟩
    · next horig =>
      rw [hpresent, Bool.not_eq_true, Option.isSome_eq_false_iff, Option.isNone_iff_eq_none]
        at horig
      rw [horig]
      exact ⟨rfl, rfl⟩
  rw [publishDesired, hid, returns_bind]
  refine returns_mono ?_ hreads
  rintro current s₁ ⟨rfl, rfl⟩
  rw [hstarted.desired i, returns_bind, returns_ofExcept]
  refine ⟨_, rfl, ?_⟩
  rw [if_neg (by rw [not_not, h.resumable.desiredSha256 i]; exact hsettled), returns_bind]
  refine returns_placeDesired_during htarget fun s' _ hbackups => ?_
  rw [returns_bind]
  refine returns_writeTransaction ?_ ?_
  · show validateIdentifier record.ticket.ticketId = .ok ()
    rw [hid]
    exact hstarted.matching.identifier
  · show (s'.backups ticket.ticketId).isSome = true
    rw [hbackups]
    exact hdirectory

theorem returns_applyOperation (hstarted : Started env ticket plan)
    (h : Resumable env ticket plan False record s) (happlying : record.status = .applying)
    (hdirectory : (s.backups ticket.ticketId).isSome = true)
    (hpending : (record.operations i).status = .pending)
    (hsettled : (plan.start.operations i).desiredState ≠ .omitted → plan.Settled env i) :
    (applyOperation env plan.manifest record i).returns
      (fun _ s' => (s'.backups ticket.ticketId).isSome = true) s := by
  have hbegin : During env ticket plan i record record s := ⟨h, happlying, fun _ _ => rfl⟩
  have hid := congrArg RestoreTicket.ticketId h.belongs
  rw [applyOperation, if_neg (by rw [hpending]; decide)]
  split
  · exact returns_writeStatus_during hbegin hstarted fun _ => hdirectory
  · next hkept =>
    rw [h.desiredState i] at hkept
    rw [hid, returns_bind]
    refine returns_validateBackupDirectory hdirectory ?_
    rw [returns_bind]
    refine returns_startOperation_during hbegin hstarted hpending
      fun record₁ s₁ h₁ hstatus₁ htarget₁ hbackup₁ hdirectory₁ => ?_
    rw [returns_bind]
    refine returns_backUpOriginal_during h₁ hstarted (by rw [hdirectory₁]; exact hdirectory)
      hstatus₁ hkept htarget₁ hbackup₁ fun record₂ s₂ h₂ hstatus₂ htarget₂ hdirectory₂ => ?_
    exact returns_publishDesired_during h₂ hstarted hdirectory₂ hstatus₂ htarget₂
      (hsettled hkept)

theorem returns_applyOperations (hstarted : Started env ticket plan)
    (h : Resumable env ticket plan False record s) (happlying : record.status = .applying)
    (hdirectory : (s.backups ticket.ticketId).isSome = true)
    (hpending : ∀ i, (record.operations i).status = .pending)
    (hsettled : ∀ i, (plan.start.operations i).desiredState ≠ .omitted → plan.Settled env i) :
    ((List.finRange 7).foldlM (applyOperation env plan.manifest) record).returns
      (fun record' _ => record'.ticket = ticket) s := by
  have hloop := returns_foldlM (g := applyOperation env plan.manifest)
    (I := fun xs record' s' => xs.Nodup ∧ Resumable env ticket plan False record' s' ∧
      record'.status = .applying ∧ (s'.backups ticket.ticketId).isSome = true ∧
      ∀ j ∈ xs, (record'.operations j).status = .pending)
    (fun x xs record' s' => by
      rintro ⟨hnodup, hnext, hstatus, hdirectory', htodo⟩
      obtain ⟨hx, hxs⟩ := List.nodup_cons.mp hnodup
      refine returns_mono ?_ (returns_and_of_wp
        (returns_applyOperation hstarted hnext hstatus hdirectory'
          (htodo x (List.mem_cons_self ..)) (hsettled x))
        (wp_applyOperation_resumable hstarted hnext hstatus x))
      rintro record'' s'' ⟨hdirectory'', hduring, -⟩
      refine ⟨hxs, hduring.resumable, hduring.applying, hdirectory'', fun j hj => ?_⟩
      have hne : j ≠ x := fun hjx => hx (hjx ▸ hj)
      rw [hduring.others j hne]
      exact htodo j (List.mem_cons_of_mem _ hj))
    (List.finRange 7) record s
    ⟨List.nodup_finRange 7, h, happlying, hdirectory, fun j _ => hpending j⟩
  exact returns_mono (fun _ _ h => h.2.1.belongs) hloop

theorem returns_continueApply (hstarted : Started env ticket plan)
    (h : Resumable env ticket plan False record s) (happlying : record.status = .applying)
    (hbackups : s.backups ticket.ticketId = none)
    (hpending : ∀ i, (record.operations i).status = .pending)
    (hsettled : ∀ i, (plan.start.operations i).desiredState ≠ .omitted → plan.Settled env i) :
    (do
      ensureBackupDirectory record.ticket.ticketId
      let record ← (List.finRange 7).foldlM (applyOperation env plan.manifest) record
      let record := { record with status := .applied }
      writeTransaction record
      pure (outcome record) : RestoreProgram δ RestoreOutcome).returns (fun _ _ => True) s := by
  have hid := congrArg RestoreTicket.ticketId h.belongs
  have hdirectory : (s.backups ticket.ticketId).isSome = false := by
    rw [hbackups]
    rfl
  have hready : Resumable env ticket plan False record
      (s.setDirectory ticket.ticketId (some fun _ => none)) := by
    refine h.change (i := 0) (s.setDirectory ticket.ticketId (some fun _ => none)) rfl
      (fun j _ => ⟨rfl, entry_createDirectory hdirectory _⟩) id ?_
    rw [entry_createDirectory hdirectory]
    exact h.files 0
  rw [returns_bind, hid, ensureBackupDirectory, returns_bind,
    returns_read, if_neg (by rw [hdirectory]; decide), returns_durable,
    returns_bind]
  refine returns_mono (fun record' s' hticket' => ?_) (returns_applyOperations hstarted
    hready happlying (by simp [RestoreDisk.setDirectory]) hpending hsettled)
  rw [returns_bind]
  refine returns_writeTransaction ?_ trivial
  rw [hticket']
  exact hstarted.matching.identifier

/-- **The uninterrupted apply ends**, when the desired contents are the recorded ones. -/
theorem returns_applyRestore (hunstarted : Unstarted ticket.ticketId s)
    (hplan : PlanOf env ticket s plan)
    (hsettled : ∀ i, (plan.start.operations i).desiredState ≠ .omitted → plan.Settled env i) :
    (applyRestore env ticket).returns (fun _ _ => True) s := by
  have hstarted := hplan.started
  obtain ⟨record, hfind, hprepared, hpending, hbackups⟩ := hunstarted
  rw [hplan.stored] at hfind
  obtain rfl := Option.some.inj hfind
  have hticket := hstarted.matching.ticket
  have horiginal : ∀ i, s.target i = plan.orig i := fun i => by rw [hplan.orig]
  have hnone : ∀ i, s.entry ticket.ticketId ⟨i, .original, false⟩ = none := by
    intro i
    rw [RestoreDisk.entry, hbackups]
    rfl
  have hfirst : Resumable env ticket plan False plan.start s :=
    ⟨hplan.stored, hticket, fun _ => rfl, fun _ => rfl, fun _ => rfl,
      fun i => .home (horiginal i) (hnone i) (Or.inl (hpending i))⟩
  rw [applyRestore, returns_bind]
  refine hstarted.matching.returns hplan.stored ?_
  rw [hprepared]
  show (applyRecord env plan.start).returns _ s
  rw [applyRecord, returns_bind, hticket, returns_ofExcept]
  refine ⟨plan.manifest, hstarted.revalidated, ?_⟩
  rw [returns_bind, beginApply, if_pos hprepared, returns_bind]
  refine returns_mono ?_ (returns_checks fun i _ => ?_)
  swap
  · exact hstarted.returns_checkOriginal rfl (horiginal i) rfl
  rintro _ s₁ rfl
  rw [returns_bind]
  refine returns_mono ?_ (returns_checks fun i _ => ?_)
  swap
  · rw [returns_bind]
    refine returns_readTarget (by rw [horiginal]; exact hstarted.bounded i) ?_
    rw [returns_bind, returns_ofExcept, horiginal]
    exact ⟨_, hstarted.desired i, rfl⟩
  rintro _ s rfl
  rw [returns_bind, returns_attempt, returns_bind]
  refine returns_writeTransaction (by rw [hticket]; exact hstarted.matching.identifier) ?_
  rw [returns_pure]
  exact returns_continueApply hstarted (hfirst.writeStatus .applying) rfl hbackups hpending
    hsettled

theorem PlanOf.unique {plan' : ApplyPlan δ} (h : PlanOf env ticket s plan)
    (h' : PlanOf env ticket s plan') : plan = plan' := by
  obtain ⟨start, orig, manifest, desired⟩ := plan
  obtain ⟨start', orig', manifest', desired'⟩ := plan'
  obtain rfl : start = start' := Option.some.inj (h.stored.symm.trans h'.stored)
  obtain rfl : orig = orig' := h.orig.trans h'.orig.symm
  obtain rfl : manifest = manifest' :=
    Except.ok.inj (h.started.revalidated.symm.trans h'.started.revalidated)
  have hdesired : desired = desired' := funext fun i =>
    Except.ok.inj ((h.started.desired i).symm.trans (h'.started.desired i))
  rw [hdesired]

omit [DecidableEq δ] in
theorem Finished.target (h : Finished env ticket plan s) (i : FileIndex) :
    s.target i = plan.final i ∧
      ((plan.start.operations i).desiredState ≠ .omitted → plan.Settled env i) := by
  obtain ⟨record, hresumable, -, happlied⟩ := h
  have hfile := hresumable.files i
  rw [happlied i] at hfile
  exact hfile.of_applied

end Uninterrupted

/-! ## Sessions of applies -/

theorem Prepares.unstarted {env : RestoreEnvironment δ} {snapshotId id : String}
    {s s' : RestoreDisk δ} (h : Prepares env snapshotId id s s') (hbackups : s.backups id = none) :
    Unstarted id s' := by
  obtain ⟨s₁, record, manifest, plan, hpruned, rfl, rfl, hprepared, hpending, -, -⟩ := h
  refine ⟨record, findRecord_putRecord_self record _, hprepared, hpending, ?_⟩
  show s₁.backups record.ticket.ticketId = none
  rw [hpruned.backups]
  exact hbackups

theorem unstarted_of_prepareRestore [DecidableEq δ] {env : RestoreEnvironment δ}
    {snapshotId id : String} {unixMillis : Nat} {disk s : RestoreDisk δ} {fs : List Fault}
    {ticket : RestoreTicket δ} (hbackups : disk.backups id = none)
    (hrun : (prepareRestore env snapshotId id unixMillis).run fs disk = (.ok ticket, s)) :
    Unstarted id s := by
  have hwp : (prepareRestore env snapshotId id unixMillis).wp _ _ _ disk :=
    wp_prepareRestore snapshotId id unixMillis disk
  have hmeets := (wp_iff_run _ _ _ _ _).mp hwp fs
  rw [hrun] at hmeets
  exact hmeets.unstarted hbackups

/-- The snapshot of two files, with a mode that others can read. -/
def readableFiles : SnapshotManifest Bytes :=
  { twoFiles with files := fun i => { twoFiles.files i with mode := some 0o644 } }

def readableEnvironment : RestoreEnvironment Bytes :=
  { twoFilesEnvironment with loadSnapshot := fun _ => .ok readableFiles }

/-- The disk on which the restore has been prepared. -/
def readablePrepared : RestoreDisk Bytes :=
  Session.after (prepareRestore readableEnvironment "manual-1" "restore-1" 0) [] emptyProfile

theorem readablePrepared_unstarted : Unstarted twoFilesTicket.ticketId readablePrepared := by
  have hok : ((prepareRestore readableEnvironment "manual-1" "restore-1" 0).run []
      emptyProfile).1 = .ok twoFilesTicket := by decide +kernel
  exact unstarted_of_prepareRestore (show emptyProfile.backups _ = none from rfl) (Prod.ext hok rfl)

/-- The disk after an apply has stopped there. -/
def readableStopped (fs : List Fault) : RestoreDisk Bytes :=
  Session.finalState (fun _ : Unit => applyRestore readableEnvironment twoFilesTicket) [((), fs)]
    readablePrepared

def twoFilesApplied : RestoreOutcome := ⟨"restore-1", "manual-1", .applied, false, false⟩

def stopsBeforeWrite : List Fault := List.replicate 15 .none ++ [.crashBefore]

end DshNexus.Snapshot
