import DshNexus.Snapshot.RestorePlan

/-!
# Applying a restore keeps its plan

The step lemma of an apply, `wp_applyOperation`, follows one operation from whatever state
an earlier call left it in to the status `Applied`; the run lemma, `wp_applyRestore`, is the
loop over the seven operations.  Each is proved at a return, at an error and at a crash.

An apply that resumes over a rolled back operation writes its file again although the
rollback has already counted it as done.  `MayPublish` is the condition under which an
operation has no such past.
-/

namespace DshNexus.Snapshot

open Durable Program

variable {δ : Type} {env : RestoreEnvironment δ} {plan : RestorePlan}
  {clash : Prop} {id : String} {i : FileIndex} {record : TransactionRecord δ}
  {s : RestoreDisk δ} {α : Type} {E : SnapshotError → RestoreDisk δ → Prop}
  {C : RestoreDisk δ → Prop}

/-! ## Reads -/

theorem wp_readTarget {Q : Option StoredFile → RestoreDisk δ → Prop} (hQ : Q (s.target i) s)
    (hE : ∀ e, E e s) : (readTarget i).wp Q E C s := by
  rw [readTarget, wp_bind, wp_read, wp_ofExcept]
  refine ⟨fun file h => ?_, fun e _ => hE e⟩
  rw [(readRegularBounded_eq_ok.mp h).1]
  exact hQ

theorem wp_readBackup {Q : Option StoredFile → RestoreDisk δ → Prop} {name : BackupName}
    (hQ : Q (s.entry id name) s) (hE : ∀ e, E e s) : (readBackup id name).wp Q E C s := by
  rw [readBackup, wp_bind, wp_read, wp_ofExcept]
  refine ⟨fun file h => ?_, fun e _ => hE e⟩
  rw [(readRegularBounded_eq_ok.mp h).1]
  exact hQ

theorem readOnly_readTarget (i : FileIndex) :
    (readTarget i : RestoreProgram δ (Option StoredFile)).ReadOnly :=
  readOnly_read.bind fun _ => readOnly_ofExcept _

theorem readOnly_readBackup (id : String) (name : BackupName) :
    (readBackup id name : RestoreProgram δ (Option StoredFile)).ReadOnly :=
  readOnly_read.bind fun _ => readOnly_ofExcept _

theorem readOnly_validateBackupDirectory (id : String) :
    (validateBackupDirectory id : RestoreProgram δ Unit).ReadOnly := by
  refine readOnly_read.bind fun disk => ?_
  split
  · exact readOnly_pure _
  · exact readOnly_throw _

/-! ## Writes -/

theorem wp_writeTransaction {Q : Unit → RestoreDisk δ → Prop}
    (hQ : Q () (s.writeRecord record)) (hE : ∀ e, E e s ∧ E e (s.writeRecord record))
    (hC : C s ∧ C (s.writeRecord record)) : (writeTransaction record).wp Q E C s := by
  rw [writeTransaction, wp_bind, wp_ofExcept]
  refine ⟨fun _ _ => ?_, fun e _ => (hE e).1⟩
  rw [wp_durable]
  exact ⟨hC.1, hC.2, hQ, (hE _).1, (hE _).2⟩

theorem InProgress.setOperation (h : InProgress record) {operation : RestoreOperation δ}
    (hop : record.status = .applying ∨ operation.status = .applied ∨
      operation.status = .rolledBack) : InProgress (record.setOperation i operation) := by
  rcases h with h | ⟨h, hops⟩
  · exact Or.inl h
  · refine Or.inr ⟨h, fun j => ?_⟩
    by_cases hj : j = i
    · rw [hj, operations_setOperation_self]
      exact hop.resolve_left (by rw [h]; decide)
    · rw [operations_setOperation_of_ne _ _ hj]; exact hops j

theorem wp_writeOperation {Q : Unit → RestoreDisk δ → Prop} {operation : RestoreOperation δ}
    (h : Holding env plan clash id record s) (hwork : InProgress record)
    (hop : plan.DescribesOperation env i operation)
    (hfile : FileState (plan.orig i) (plan.want i) (plan.state i = .omitted) clash
      operation.status (s.cell id i))
    (hstatus : record.status = .applying ∨ operation.status = .applied ∨
      operation.status = .rolledBack)
    (hQ : Holding env plan clash id (record.setOperation i operation)
        (s.writeRecord (record.setOperation i operation)) →
      Worked id i record s (record.setOperation i operation)
        (s.writeRecord (record.setOperation i operation)) →
      Q () (s.writeRecord (record.setOperation i operation))) :
    (writeTransaction (record.setOperation i operation)).wp Q
      (fun _ => Sound env plan clash id) (Sound env plan clash id) s := by
  have hnext := h.writeOperation hop hfile
  have hsound := hnext.sound (hwork.setOperation hstatus)
  exact wp_writeTransaction (hQ hnext (Worked.of_operation ..))
    (fun _ => ⟨h.sound hwork, hsound⟩) ⟨h.sound hwork, hsound⟩

theorem RestorePlan.DescribesOperation.withStatus {operation : RestoreOperation δ}
    (h : plan.DescribesOperation env i operation) {status : OperationStatus}
    (hnot : operation.status ≠ .applied)
    (hnext : status ≠ .applied ∨ plan.want i = none) :
    plan.DescribesOperation env i { operation with status := status } where
  original := h.original
  desiredState := h.desiredState
  desiredSha256 := h.desiredSha256
  appliedSha256 := by
    rw [h.appliedSha256, if_neg hnot]
    rcases hnext with hne | hnone
    · rw [if_neg hne]
    · rw [hnone]; split <;> rfl

theorem wp_writeStatus {Q : TransactionRecord δ → RestoreDisk δ → Prop}
    {status : OperationStatus} (h : Holding env plan clash id record s)
    (hwork : record.status = .applying)
    (hnot : (record.operations i).status ≠ .applied)
    (hnext : status ≠ .applied ∨ plan.want i = none)
    (hfile : FileState (plan.orig i) (plan.want i) (plan.state i = .omitted) clash
      status (s.cell id i))
    (hQ : ∀ record' s', Holding env plan clash id record' s' → Worked id i record s record' s' →
      (record'.operations i).status = status → s'.cell id i = s.cell id i →
      s'.backups = s.backups → Q record' s') :
    (writeStatus record i status).wp Q (fun _ => Sound env plan clash id)
      (Sound env plan clash id) s := by
  rw [writeStatus, wp_bind]
  refine wp_writeOperation h (Or.inl hwork) ((h.describes.operations i).withStatus hnot hnext)
    hfile (Or.inl hwork) fun hnext hworked => ?_
  rw [wp_pure]
  exact hQ _ _ hnext hworked (by rw [operations_setOperation_self]) rfl rfl

/-! ## The steps of one operation -/

variable [DecidableEq δ]

theorem readOnly_checkOriginal (i : FileIndex) (original : ExpectedFile δ) :
    (checkOriginal env i original).ReadOnly := by
  refine (readOnly_readTarget i).bind fun current => ?_
  split
  · exact readOnly_throw _
  · exact readOnly_pure _

theorem readOnly_verifyAppliedOperation (i : FileIndex) (operation : RestoreOperation δ) :
    (verifyAppliedOperation env i operation).ReadOnly := by
  rw [verifyAppliedOperation]
  split
  · exact readOnly_pure _
  · refine (readOnly_readTarget i).bind fun current => ?_
    split
    · exact readOnly_pure _
    · exact readOnly_throw _

/-- The operation has no past that makes writing its file again wrong: where there was no
file, it is not rolled back, and, unless that state is admitted, nothing of it has been set
aside. -/
def MayPublish (plan : RestorePlan) (clash : Prop) (i : FileIndex) (status : OperationStatus)
    (cell : FileCell) : Prop :=
  plan.orig i = none → plan.state i = .present →
    status ≠ .rolledBack ∧ (¬ clash → status = .backedUp → cell.discarded = none)

/-- The state of the record and of file `i` between two steps of its operation. -/
structure Midway (env : RestoreEnvironment δ) (plan : RestorePlan) (clash : Prop) (id : String)
    (i : FileIndex) (record : TransactionRecord δ) (s : RestoreDisk δ) : Prop where
  holding : Holding env plan clash id record s
  applying : record.status = .applying
  kept : plan.state i ≠ .omitted
  mayPublish : MayPublish plan clash i (record.operations i).status (s.cell id i)

omit [DecidableEq δ] in
theorem Midway.sound (h : Midway env plan clash id i record s) : Sound env plan clash id s :=
  h.holding.sound (Or.inl h.applying)

theorem wp_startOperation {Q : TransactionRecord δ → RestoreDisk δ → Prop}
    (h : Midway env plan clash id i record s)
    (hnot : (record.operations i).status ≠ .applied)
    (hQ : ∀ record' s', Midway env plan clash id i record' s' →
      Worked id i record s record' s' → (record'.operations i).status ≠ .applied →
      (record'.operations i).status ≠ .pending → Q record' s') :
    (startOperation env record i).wp Q (fun _ => Sound env plan clash id)
      (Sound env plan clash id) s := by
  rw [startOperation]
  split
  · next hpending =>
    have hfile := h.holding.files i
    rw [hpending] at hfile
    have hhome := hfile.eq_home_of_pending
    rw [wp_bind]
    refine (readOnly_checkOriginal _ _).wp (fun _ => ?_) (fun _ => h.sound) h.sound
    refine wp_writeStatus h.holding h.applying hnot (Or.inl (by decide))
      (.home hhome (by simp)) fun record' s' hnext hworked hstatus hcell _ => ?_
    refine hQ record' s' ⟨hnext, hworked.status.trans h.applying, h.kept, fun _ _ => ?_⟩ hworked
      (by rw [hstatus]; decide) (by rw [hstatus]; decide)
    rw [hstatus]
    exact ⟨by decide, fun _ hne => absurd hne (by decide)⟩
  · next hpending => exact hQ record s h (Worked.refl ..) hnot hpending

/-- A backup moves the original and nothing else. -/
theorem wp_moveOriginal {Q : Unit → RestoreDisk δ → Prop}
    (h : Midway env plan clash id i record s)
    (hstatus : (record.operations i).status = .applying)
    (hpresent : (plan.orig i).isSome = true)
    (hQ : ∀ s', Midway env plan clash id i record s' → Worked id i record s record s' →
      s'.cell id i = ⟨none, plan.orig i, none⟩ → Q () s') :
    (moveOriginal env id i (record.operations i).original).wp Q
      (fun _ => Sound env plan clash id) (Sound env plan clash id) s := by
  have hfile := h.holding.files i
  have hcases : s.cell id i = ⟨plan.orig i, none, none⟩ ∨
      s.cell id i = ⟨none, plan.orig i, none⟩ := by
    rw [hstatus] at hfile
    cases hfile with
    | home hcell => exact Or.inl hcell
    | away hcell => exact Or.inr hcell
    | placed _ hst => simp at hst
    | withdrawn _ hst => simp at hst
    | doubled _ hst => simp at hst
  have hmay : ∀ cell, MayPublish plan clash i (record.operations i).status cell := by
    intro cell horig
    rw [horig] at hpresent
    exact absurd hpresent (by simp)
  rw [moveOriginal, wp_bind]
  refine wp_readBackup ?_ fun _ => h.sound
  split
  · next backup hb =>
    have horiginal : (s.cell id i).original = some backup.bytes := by simp [RestoreDisk.cell, hb]
    refine hQ s h (Worked.refl ..) (hcases.resolve_left fun hhome => ?_)
    rw [hhome] at horiginal
    exact absurd horiginal (by simp)
  · next hb =>
    have hhome : s.cell id i = ⟨plan.orig i, none, none⟩ := by
      refine hcases.resolve_right fun haway => ?_
      have horiginal : (s.cell id i).original = none := by simp [RestoreDisk.cell, hb]
      rw [haway] at horiginal
      simp only at horiginal
      rw [horiginal] at hpresent
      exact absurd hpresent (by simp)
    rw [wp_bind]
    refine (readOnly_checkOriginal _ _).wp (fun _ => ?_) (fun _ => h.sound) h.sound
    rw [wp_bind]
    refine (readOnly_validateBackupDirectory _).wp (fun _ => ?_) (fun _ => h.sound) h.sound
    rw [renameToBackup, wp_bind, wp_read]
    split
    · next hboth =>
      have hcell : ((s.setEntry id ⟨i, .original, false⟩ (s.target i)).setTarget i none).cell
          id i = ⟨none, plan.orig i, none⟩ := by
        have htarget := congrArg FileCell.target hhome
        have hdiscarded := congrArg FileCell.discarded hhome
        rw [cell_setTarget_self, cell_setEntry_original _ _ hboth.2]
        simp only [Option.map_none, FileCell.mk.injEq, true_and]
        exact ⟨htarget, hdiscarded⟩
      have hothers : ∀ j, j ≠ i →
          ((s.setEntry id ⟨i, .original, false⟩ (s.target i)).setTarget i none).cell id j =
            s.cell id j := fun j hj => by
        rw [cell_setTarget_of_ne _ _ _ hj, cell_setEntry_of_ne _ _ _ _ _ hj]
      have hnext : Midway env plan clash id i record
          ((s.setEntry id ⟨i, .original, false⟩ (s.target i)).setTarget i none) :=
        ⟨h.holding.change rfl hothers (.away hcell (Or.inl hstatus) h.kept hpresent), h.applying,
          h.kept, hmay _⟩
      rw [wp_durable]
      exact ⟨h.sound, hnext.sound, hQ _ hnext (Worked.of_disk record hothers) hcell, h.sound,
        hnext.sound⟩
    · exact h.sound

/-- After the backup an operation is backed up, or it was rolled back before. -/
theorem wp_backUpOriginal {Q : TransactionRecord δ → RestoreDisk δ → Prop}
    (h : Midway env plan clash id i record s) (hid : record.ticket.ticketId = id)
    (hnot : (record.operations i).status ≠ .applied)
    (hstarted : (record.operations i).status ≠ .pending)
    (hQ : ∀ record' s', Midway env plan clash id i record' s' →
      Worked id i record s record' s' → ((record'.operations i).status = .backedUp ∨
        (record'.operations i).status = .rolledBack) → Q record' s') :
    (backUpOriginal env record i).wp Q (fun _ => Sound env plan clash id)
      (Sound env plan clash id) s := by
  have hpresent := (h.holding.describes.operations i).original_present
  rw [backUpOriginal, hid]
  split
  · next happlying =>
    split
    · next horiginal =>
      rw [hpresent] at horiginal
      rw [wp_bind]
      refine wp_moveOriginal h happlying horiginal fun s' hmoved hworked haway => ?_
      rw [wp_bind]
      refine (readOnly_validateBackupDirectory _).wp (fun _ => ?_) (fun _ => hmoved.sound)
        hmoved.sound
      rw [wp_bind]
      refine wp_readBackup ?_ fun _ => hmoved.sound
      split
      · exact hmoved.sound
      · split
        · exact hmoved.sound
        · refine wp_writeStatus hmoved.holding hmoved.applying hnot (Or.inl (by decide))
            (.away haway (Or.inr rfl) h.kept horiginal)
            fun record' s'' hnext hworked' hstatus hcell _ => ?_
          refine hQ record' s'' ⟨hnext, hworked'.status.trans hmoved.applying, h.kept,
            fun horig => ?_⟩ (hworked.trans hworked') (Or.inl hstatus)
          rw [horig] at horiginal
          exact absurd horiginal (by simp)
    · next horiginal =>
      have hnone : plan.orig i = none := by
        rw [hpresent] at horiginal
        simpa using horiginal
      have hhome : s.cell id i = ⟨plan.orig i, none, none⟩ := by
        have hfile := h.holding.files i
        rw [happlying] at hfile
        cases hfile with
        | home hcell => exact hcell
        | away _ _ _ horig => rw [hnone] at horig; exact absurd horig (by simp)
        | placed _ hst => simp at hst
        | withdrawn _ hst => simp at hst
        | doubled _ hst => simp at hst
      rw [wp_bind]
      refine wp_readBackup ?_ fun _ => h.sound
      split
      · exact h.sound
      · refine wp_writeStatus h.holding h.applying hnot (Or.inl (by decide))
          (.home hhome (by simp)) fun record' s' hnext hworked hstatus hcell _ => ?_
        refine hQ record' s' ⟨hnext, hworked.status.trans h.applying, h.kept, fun _ _ => ?_⟩
          hworked (Or.inl hstatus)
        rw [hstatus, hcell, hhome]
        exact ⟨by decide, fun _ _ => rfl⟩
  · next happlying =>
    refine hQ record s h (Worked.refl ..) ?_
    revert hnot hstarted happlying
    cases (record.operations i).status <;> simp

omit [DecidableEq δ] in
theorem wp_backedUpOriginal {Q : Option Bytes → RestoreDisk δ → Prop}
    {operation : RestoreOperation δ}
    (hQ : ∀ current, (operation.original.present = true →
      (s.cell id i).original.isSome = true) → Q current s) (hE : ∀ e, E e s) (hC : C s) :
    (backedUpOriginal id i operation).wp Q E C s := by
  rw [backedUpOriginal]
  split
  · rw [wp_bind]
    refine (readOnly_validateBackupDirectory _).wp (fun _ => ?_) hE hC
    rw [wp_bind]
    refine wp_readBackup ?_ hE
    split
    · exact hE _
    · next hb => exact hQ _ fun _ => by simp [RestoreDisk.cell, hb]
  · next hpresent => exact hQ none fun h => absurd h hpresent

omit [DecidableEq δ] in
/-- The desired content of an operation takes its place. -/
theorem wp_placeDesired {Q : Unit → RestoreDisk δ → Prop} {desired : DesiredFile}
    (h : Midway env plan clash id i record s)
    (hstatus : (record.operations i).status = .backedUp ∨
      (record.operations i).status = .rolledBack)
    (hdesired : desired.bytes = plan.want i)
    (hbackup : (plan.orig i).isSome = true → (s.cell id i).original.isSome = true)
    (hQ : ∀ s', Holding env plan clash id record s' → Worked id i record s record s' →
      (s'.cell id i).target = plan.want i → (s'.cell id i).original = (s.cell id i).original →
      Q () s') :
    (placeDesired i desired).wp Q (fun _ => Sound env plan clash id)
      (Sound env plan clash id) s := by
  rw [placeDesired]
  split
  · next bytes hbytes =>
    rw [hbytes] at hdesired
    rw [wp_bind]
    refine wp_readTarget ?_ fun _ => h.sound
    split
    · next existing ht =>
      split
      · next heq =>
        exact hQ s h.holding (Worked.refl ..) (by simp [RestoreDisk.cell, ht, heq, hdesired]) rfl
      · exact h.sound
    · next ht =>
      have hwrite : ∀ mode, Holding env plan clash id record
          (s.setTarget i (some ⟨bytes, mode⟩)) := fun mode => by
        refine h.holding.change rfl (fun j hj => cell_setTarget_of_ne _ _ _ hj) ?_
        rw [cell_setTarget_self]
        simp only [Option.map_some, hdesired]
        have htarget : (s.cell id i).target = none := by simp [RestoreDisk.cell, ht]
        have hpresent : plan.state i = .present := by
          rw [← plan.want_isSome i, ← hdesired]; rfl
        cases h.holding.files i with
        | home hcell =>
          rw [hcell] at hbackup ⊢
          have horig : plan.orig i = none := by
            rw [← Option.not_isSome_iff_eq_none]; exact fun h => absurd (hbackup h) (by simp)
          have hst := hstatus.resolve_right (h.mayPublish horig hpresent).1
          exact .placed (by rw [horig]) (Or.inl hst) h.kept
        | away hcell hst =>
          rw [hcell]
          exact .placed rfl (Or.inl (hstatus.resolve_right (by
            rcases hst with hs | hs <;> rw [hs] <;> decide))) h.kept
        | placed hcell =>
          rw [hcell] at htarget
          exact absurd (hdesired.trans htarget) (by simp)
        | withdrawn hcell _ _ horig hwant =>
          have hmay := h.mayPublish horig hpresent
          have hst := hstatus.resolve_right hmay.1
          have hclash : clash := by
            by_contra hno
            have hnone := hmay.2 hno hst
            rw [hcell] at hnone
            exact absurd (hdesired.trans hnone) (by simp)
          rw [hcell]
          exact .doubled rfl (Or.inl hst) h.kept horig hwant hclash
        | doubled hcell =>
          rw [hcell] at htarget
          exact absurd (hdesired.trans htarget) (by simp)
      have hsound := fun mode => (hwrite mode).sound (Or.inl h.applying)
      have hdone : ∀ mode, Q () (s.setTarget i (some ⟨bytes, mode⟩)) := fun mode => by
        refine hQ _ (hwrite mode) (Worked.of_disk record fun j hj => cell_setTarget_of_ne _ _ _ hj)
          ?_ ?_
        · rw [cell_setTarget_self, ← hdesired]; rfl
        · rw [cell_setTarget_self]
      rw [writeTarget, wp_bind, wp_bind, wp_attempt]
      refine ⟨h.sound, ?_, h.sound⟩
      rw [wp_durable]
      refine ⟨h.sound, hsound _, ?_, h.sound, hsound _⟩
      cases desired.mode with
      | none => exact hdone _
      | some mode =>
        have hmode : (s.setTarget i (some ⟨bytes, privateMode⟩)).setTarget i
            (((s.setTarget i (some ⟨bytes, privateMode⟩)).target i).map fun file =>
              { file with mode := mode &&& 0o777 }) =
            s.setTarget i (some ⟨bytes, mode &&& 0o777⟩) := by
          rw [target_setTarget_self]
          simp [RestoreDisk.setTarget]
        rw [applyMode, wp_durable, hmode]
        exact ⟨hsound _, hsound _, hdone _, hsound _, hsound _⟩
  · next hbytes =>
    rw [wp_bind, wp_read]
    split
    · exact h.sound
    · next ht =>
      have htarget : (s.cell id i).target = none := by
        simpa [RestoreDisk.cell] using ht
      exact hQ s h.holding (Worked.refl ..) (by rw [htarget, ← hdesired, hbytes]) rfl

theorem wp_publishDesired {Q : TransactionRecord δ → RestoreDisk δ → Prop}
    {manifest : SnapshotManifest δ} (h : Midway env plan clash id i record s)
    (hid : record.ticket.ticketId = id)
    (hstatus : (record.operations i).status = .backedUp ∨
      (record.operations i).status = .rolledBack)
    (hQ : ∀ record' s', Holding env plan clash id record' s' →
      Worked id i record s record' s' → (record'.operations i).status = .applied →
      (s'.cell id i).target = plan.want i → Q record' s') :
    (publishDesired env manifest record i).wp Q (fun _ => Sound env plan clash id)
      (Sound env plan clash id) s := by
  have hop := h.holding.describes.operations i
  rw [publishDesired, hid, wp_bind]
  refine wp_backedUpOriginal (fun current hbackup => ?_) (fun _ => h.sound) h.sound
  rw [hop.original_present] at hbackup
  rw [wp_bind, wp_ofExcept]
  refine ⟨fun desired _ => ?_, fun e _ => h.sound⟩
  split
  · exact h.sound
  · next hsha =>
    have hdesired : desired.bytes = plan.want i := by
      rw [not_not, hop.desiredSha256] at hsha
      exact Option.map_injective env.sha256Hex_injective hsha
    rw [wp_bind]
    refine wp_placeDesired h hstatus hdesired hbackup fun s' hplaced hworked htarget horiginal => ?_
    have hfile := (hplaced.files i).applied_of_target h.kept htarget fun hpresent => by
      rw [horiginal]; exact hbackup hpresent
    rw [wp_bind]
    refine wp_writeOperation hplaced (Or.inl h.applying)
      ⟨hop.original, hop.desiredState, hop.desiredSha256, by rw [if_pos rfl, hdesired]⟩ hfile
      (Or.inl h.applying) fun hnext hworked' => ?_
    rw [wp_pure]
    exact hQ _ _ hnext (hworked.trans hworked') (by rw [operations_setOperation_self]) htarget

theorem wp_verifyAppliedOperation {Q : Unit → RestoreDisk δ → Prop}
    (hop : plan.DescribesOperation env i (record.operations i))
    (happlied : (record.operations i).status = .applied)
    (hQ : (plan.state i ≠ .omitted → (s.cell id i).target = plan.want i) → Q () s)
    (hE : ∀ e, E e s) :
    (verifyAppliedOperation env i (record.operations i)).wp Q E C s := by
  rw [verifyAppliedOperation]
  split
  · next homitted =>
    rw [hop.desiredState] at homitted
    exact hQ fun hkept => absurd homitted hkept
  · next hkept =>
    rw [wp_bind]
    refine wp_readTarget ?_ hE
    split
    · next hsha =>
      refine hQ fun _ => ?_
      have hsame : (plan.want i).map env.sha256Hex =
          ((s.target i).map (·.bytes)).map env.sha256Hex := by
        have happliedSha := hop.appliedSha256
        rw [if_pos happlied] at happliedSha
        rw [← happliedSha, hsha, Option.map_map]
        rfl
      exact (Option.map_injective env.sha256Hex_injective hsame).symm
    · exact hE _

/-- **One operation of an apply.**  Whatever an earlier call left behind, the operation ends
as applied with the desired content in place, and every cut of it is sound. -/
theorem wp_applyOperation {manifest : SnapshotManifest δ}
    (h : Holding env plan clash id record s) (happlying : record.status = .applying)
    (hmay : MayPublish plan clash i (record.operations i).status (s.cell id i)) :
    (applyOperation env manifest record i).wp
      (fun record' s' => Holding env plan clash id record' s' ∧
        Worked id i record s record' s' ∧ (record'.operations i).status = .applied ∧
        (plan.state i ≠ .omitted → (s'.cell id i).target = plan.want i))
      (fun _ => Sound env plan clash id) (Sound env plan clash id) s := by
  have hsound := h.sound (Or.inl happlying)
  have hop := h.describes.operations i
  rw [applyOperation]
  split
  · next hstatus =>
    rw [wp_bind]
    exact wp_verifyAppliedOperation hop hstatus
      (fun hplaced => ⟨h, Worked.refl .., hstatus, hplaced⟩) (fun _ => hsound)
  · next hstatus =>
    split
    · next homitted =>
      rw [hop.desiredState] at homitted
      refine wp_writeStatus h happlying hstatus
        (Or.inr (plan.want_eq_none (by rw [homitted]; decide)))
        (.home ((h.files i).eq_home_of_omitted homitted) fun _ => Or.inr homitted)
        fun record' s' hnext hworked happlied _ _ => ⟨hnext, hworked, happlied,
          fun hkept => absurd homitted hkept⟩
    · next hkept =>
      rw [hop.desiredState] at hkept
      rw [wp_bind]
      refine (readOnly_validateBackupDirectory _).wp (fun _ => ?_) (fun _ => hsound) hsound
      rw [wp_bind]
      refine wp_startOperation ⟨h, happlying, hkept, hmay⟩ hstatus
        fun record₁ s₁ h₁ hworked₁ hnot₁ hstarted₁ => ?_
      rw [wp_bind]
      refine wp_backUpOriginal h₁ (ticketId_of_findRecord h₁.holding.stored) hnot₁ hstarted₁
        fun record₂ s₂ h₂ hworked₂ hstatus₂ => ?_
      refine wp_publishDesired h₂ (ticketId_of_findRecord h₂.holding.stored) hstatus₂
        fun record₃ s₃ h₃ hworked₃ happlied hplaced => ?_
      exact ⟨h₃, (hworked₁.trans hworked₂).trans hworked₃, happlied, fun _ => hplaced⟩

/-! ## The apply -/

omit [DecidableEq δ] in
theorem wp_ensureBackupDirectory {Q : Unit → RestoreDisk δ → Prop} {I : RestoreDisk δ → Prop}
    (hI : I s) (hQ : Q () s)
    (hnew : ∀ s', s'.transactions = s.transactions → s'.target = s.target →
      (∀ j, s'.cell id j = s.cell id j) → (s'.backups id).isSome = true → I s' ∧ Q () s') :
    (ensureBackupDirectory id).wp Q (fun _ => I) I s := by
  rw [ensureBackupDirectory, wp_bind, wp_read]
  split
  · exact hQ
  · next hdir =>
    have hnext := hnew (s.setDirectory id (some fun _ => none)) rfl rfl
      (cell_createDirectory (by simpa using hdir)) (by simp [RestoreDisk.setDirectory])
    rw [wp_durable]
    exact ⟨hI, hnext.1, hnext.2, hI, hnext.1⟩

theorem wp_readMatchingTransaction {Q : TransactionRecord δ → RestoreDisk δ → Prop}
    {ticket : RestoreTicket δ}
    (hQ : ∀ record, findRecord ticket.ticketId s.transactions = some record →
      record.ticket = ticket → Q record s) (hE : ∀ e, E e s) :
    (readMatchingTransaction env ticket).wp Q E C s := by
  rw [readMatchingTransaction]
  split
  · exact hE _
  · rw [wp_bind, readTransaction, wp_bind, wp_ofExcept]
    refine ⟨fun _ _ => ?_, fun e _ => hE e⟩
    rw [wp_bind, wp_read]
    split
    · exact hE _
    · next record hfind =>
      rw [wp_bind, wp_ofExcept]
      refine ⟨fun _ _ => ?_, fun e _ => hE e⟩
      rw [wp_pure]
      split
      · exact hE _
      · next hticket => exact hQ record hfind (not_not.mp hticket)

omit [DecidableEq δ] in
theorem Sound.of_stored (h : Sound env plan clash id s)
    (hfind : findRecord id s.transactions = some record) :
    plan.Describes env record ∧ StatusInvariant env plan clash id record s := by
  obtain ⟨record', hfind', hdescribes, hstatus⟩ := h
  rw [hfind, Option.some.injEq] at hfind'
  rw [hfind']
  exact ⟨hdescribes, hstatus⟩

theorem wp_beginApply {manifest : SnapshotManifest δ}
    (h : Holding env plan clash id record s)
    (hstatus : record.status = .prepared ∧ (∀ i, (record.operations i).status = .pending) ∨
      record.status = .applying)
    (hmay : ∀ i, MayPublish plan clash i (record.operations i).status (s.cell id i)) :
    (beginApply env manifest record).wp
      (fun record' s' => Holding env plan clash id record' s' ∧ record'.status = .applying ∧
        ∀ i, MayPublish plan clash i (record'.operations i).status (s'.cell id i))
      (fun _ => Sound env plan clash id) (Sound env plan clash id) s := by
  rw [beginApply]
  split
  · next hprepared =>
    have hpending := (hstatus.resolve_right (by rw [hprepared]; decide)).2
    have hsound : Sound env plan clash id s :=
      ⟨record, h.stored, h.describes, by rw [StatusInvariant, hprepared]; exact ⟨h, hpending⟩⟩
    have hnext := h.writeStatus .applying record.materializationPending
    have hpreflight : (preflightOriginals env record).ReadOnly :=
      readOnly_forM (fun i => readOnly_checkOriginal i _) _
    rw [wp_bind]
    refine hpreflight.wp (fun _ => ?_) (fun _ => hsound) hsound
    rw [wp_bind]
    refine (readOnly_forM (fun i => (readOnly_readTarget i).bind fun current =>
      (readOnly_ofExcept _).bind fun _ => readOnly_pure _) _).wp
      (fun _ => ?_) (fun _ => hsound) hsound
    rw [wp_bind, wp_attempt]
    refine ⟨hsound, ?_, hsound⟩
    rw [wp_bind]
    exact wp_writeTransaction ⟨hnext, rfl, hmay⟩
      (fun _ => ⟨hsound, hnext.sound (Or.inl rfl)⟩) ⟨hsound, hnext.sound (Or.inl rfl)⟩
  · next hprepared => exact ⟨h, hstatus.resolve_left fun hp => hprepared hp.1, hmay⟩

theorem wp_applyOperations {manifest : SnapshotManifest δ}
    (h : Holding env plan clash id record s) (happlying : record.status = .applying)
    (hmay : ∀ i, MayPublish plan clash i (record.operations i).status (s.cell id i)) :
    ((List.finRange 7).foldlM (applyOperation env manifest) record).wp
      (fun record' s' => Holding env plan clash id record' s' ∧ record'.status = .applying ∧
        (∀ i, (record'.operations i).status = .applied) ∧
        ∀ i, plan.state i ≠ .omitted → (s'.cell id i).target = plan.want i)
      (fun _ => Sound env plan clash id) (Sound env plan clash id) s := by
  have hloop := wp_foldlM (g := applyOperation env manifest)
    (E := fun _ => Sound env plan clash id) (C := Sound env plan clash id)
    (I := fun xs record' s' => xs.Nodup ∧ Holding env plan clash id record' s' ∧
      record'.status = .applying ∧
      (∀ j ∈ xs, MayPublish plan clash j (record'.operations j).status (s'.cell id j)) ∧
      ∀ j, j ∉ xs → (record'.operations j).status = .applied ∧
        (plan.state j ≠ .omitted → (s'.cell id j).target = plan.want j))
    (fun x xs record' s' => by
      rintro ⟨hnodup, hholding, hstatus, htodo, hdone⟩
      obtain ⟨hx, hxs⟩ := List.nodup_cons.mp hnodup
      refine wp_imp ?_
        (wp_applyOperation hholding hstatus (htodo x (List.mem_cons_self ..)))
      rintro record'' s'' ⟨hnext, hworked, happlied, hplaced⟩
      refine ⟨hxs, hnext, hworked.status.trans hstatus, fun j hj => ?_, fun j hj => ?_⟩
      · have hne : j ≠ x := fun h => hx (h ▸ hj)
        rw [(hworked.others j hne).1, (hworked.others j hne).2]
        exact htodo j (List.mem_cons_of_mem _ hj)
      · by_cases hjx : j = x
        · rw [hjx]; exact ⟨happlied, hplaced⟩
        · rw [(hworked.others j hjx).1, (hworked.others j hjx).2]
          exact hdone j (by simp [hjx, hj]))
    (List.finRange 7) record s
    ⟨List.nodup_finRange 7, h, happlying, fun j _ => hmay j,
      fun j hj => absurd (List.mem_finRange j) hj⟩
  refine wp_imp ?_ hloop
  rintro record' s' ⟨-, hholding, hstatus, -, hdone⟩
  exact ⟨hholding, hstatus, fun i => (hdone i List.not_mem_nil).1,
    fun i => (hdone i List.not_mem_nil).2⟩

/-- The durable record of a ticket has a status, and the outcome reports it. -/
def Reports (id : String) (status : RestoreStatus) (result : RestoreOutcome)
    (s : RestoreDisk δ) : Prop :=
  ∃ record, findRecord id s.transactions = some record ∧ record.status = status ∧
    result = outcome record

theorem wp_applyRecord (h : Holding env plan clash id record s)
    (hstatus : record.status = .prepared ∧ (∀ i, (record.operations i).status = .pending) ∨
      record.status = .applying)
    (hmay : ∀ i, MayPublish plan clash i (record.operations i).status (s.cell id i)) :
    (applyRecord env record).wp
      (fun result s' => Sound env plan clash id s' ∧ Reports id .applied result s' ∧
        ∀ i, plan.state i ≠ .omitted → (s'.cell id i).target = plan.want i)
      (fun _ => Sound env plan clash id) (Sound env plan clash id) s := by
  have hsound : Sound env plan clash id s := by
    refine ⟨record, h.stored, h.describes, ?_⟩
    rcases hstatus with ⟨hs, hpending⟩ | hs
    · rw [StatusInvariant, hs]; exact ⟨h, hpending⟩
    · rw [StatusInvariant, hs]; exact h
  rw [applyRecord, wp_bind, wp_ofExcept]
  refine ⟨fun manifest _ => ?_, fun e _ => hsound⟩
  rw [wp_bind]
  refine wp_imp ?_ (wp_beginApply h hstatus hmay)
  rintro record₁ s₁ ⟨h₁, happlying₁, hmay₁⟩
  have hsound₁ := h₁.sound (Or.inl happlying₁)
  have hloop : ∀ s₂, Holding env plan clash id record₁ s₂ →
      (∀ i, MayPublish plan clash i (record₁.operations i).status (s₂.cell id i)) →
      (((List.finRange 7).foldlM (applyOperation env manifest) record₁) >>= fun record => do
          writeTransaction { record with status := .applied }
          pure (outcome { record with status := .applied })).wp
        (fun result s' => Sound env plan clash id s' ∧ Reports id .applied result s' ∧
          ∀ i, plan.state i ≠ .omitted → (s'.cell id i).target = plan.want i)
        (fun _ => Sound env plan clash id) (Sound env plan clash id) s₂ := by
    intro s₂ h₂ hmay₂
    rw [wp_bind]
    refine wp_imp ?_
      (wp_applyOperations h₂ happlying₁ hmay₂)
    rintro record₃ s₃ ⟨h₃, happlying₃, hdone, hplaced⟩
    have hsound₃ := h₃.sound (Or.inl happlying₃)
    have hnext := h₃.writeStatus .applied record₃.materializationPending
    have hlast := hnext.sound (Or.inr ⟨rfl, fun i => Or.inl (hdone i)⟩)
    rw [wp_bind]
    exact wp_writeTransaction ⟨hlast, ⟨_, hnext.stored, rfl, rfl⟩, hplaced⟩
      (fun _ => ⟨hsound₃, hlast⟩) ⟨hsound₃, hlast⟩
  rw [wp_bind, ticketId_of_findRecord h₁.stored]
  refine wp_ensureBackupDirectory hsound₁ (hloop s₁ h₁ hmay₁) fun s₂ htrans _ hcell _ => ?_
  have h₂ : Holding env plan clash id record₁ s₂ :=
    h₁.change (i := 0) htrans (fun j _ => hcell j) (by rw [hcell]; exact h₁.files 0)
  exact ⟨h₂.sound (Or.inl happlying₁), hloop s₂ h₂ fun i => by rw [hcell]; exact hmay₁ i⟩

/-- **Every cut of an apply is sound**, provided that no operation of a record that is
already applying has been rolled back in a way that the apply does not see.  An apply that has
not been done before leaves the desired contents in place. -/
theorem wp_applyRestore {ticket : RestoreTicket δ}
    (h : Sound env plan clash ticket.ticketId s)
    (hmay : ∀ record, findRecord ticket.ticketId s.transactions = some record →
      record.status = .applying → ∀ i,
        MayPublish plan clash i (record.operations i).status (s.cell ticket.ticketId i)) :
    (applyRestore env ticket).wp
      (fun result s' => Sound env plan clash ticket.ticketId s' ∧
        Reports ticket.ticketId .applied result s' ∧
        ((∀ record, findRecord ticket.ticketId s.transactions = some record →
          record.status ≠ .applied) →
          ∀ i, plan.state i ≠ .omitted → (s'.cell ticket.ticketId i).target = plan.want i))
      (fun _ => Sound env plan clash ticket.ticketId) (Sound env plan clash ticket.ticketId) s := by
  rw [applyRestore, wp_bind]
  refine wp_readMatchingTransaction (fun record hfind _ => ?_) (fun _ => h)
  obtain ⟨hdescribes, hinv⟩ := h.of_stored hfind
  rcases hs : record.status with _ | _ | _ | _ | _ | _ <;> rw [StatusInvariant, hs] at hinv
  · refine wp_imp (fun _ _ h => ⟨h.1, h.2.1, fun _ => h.2.2⟩) (wp_applyRecord hinv.1 (Or.inl ⟨hs, hinv.2⟩) fun i _ _ => ?_)
    rw [hinv.2 i]
    exact ⟨by decide, fun _ hb => absurd hb (by decide)⟩
  · exact wp_imp (fun _ _ h => ⟨h.1, h.2.1, fun _ => h.2.2⟩) (wp_applyRecord hinv (Or.inr hs) (hmay record hfind hs))
  · exact ⟨h, ⟨record, hfind, hs, rfl⟩, fun hnot => absurd hs (hnot record hfind)⟩
  · exact h
  · exact h
  · exact h

end DshNexus.Snapshot
