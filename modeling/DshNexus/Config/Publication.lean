import DshNexus.Config.Recovery

/-!
# Publication of the configuration pair is crash-atomic

The two files and the record of one publication are always in one of four stages:
nothing is prepared and the pair is old, the record is prepared and each file is old or
new, the record is committed and the pair is new, or the record is gone and the pair is
new.  The history variable `sawCommit` tells the first two from the last two.

* `wp_settlePendingUnlocked`: a settlement stays on its side, and ends without a record.
* `wp_publishConfigPair`: a publication crosses only at the commit write, and returns
  normally only on the new side.
-/

namespace DshNexus.Config

open Durable Program

/-- History variable: has a committed record been durable? -/
def sawCommit (disk : ConfigDisk) (seen : Bool) : Bool :=
  seen || disk.pending.any (·.committed)

/-- The stages of the publication of a prepared record `p`, by what the history saw. -/
inductive Stage (p : Pending) (disk : ConfigDisk) : Bool → Prop
  | idle (hpending : disk.pending = none) (hold : ∀ path, disk.get path = p.old path) :
      Stage p disk false
  | prepared (hpending : disk.pending = some p)
      (hpair : ∀ path, disk.get path = p.old path ∨ disk.get path = p.new path) :
      Stage p disk false
  | committed (hpending : disk.pending = some p.commit)
      (hnew : ∀ path, disk.get path = p.new path) : Stage p disk true
  | done (hpending : disk.pending = none) (hnew : ∀ path, disk.get path = p.new path) :
      Stage p disk true

/-- A stage, with no preserve decision and no outer publication record. -/
structure Publishing (p : Pending) (seen : Bool) (disk : ConfigDisk) : Prop where
  stage : Stage p disk seen
  preserve : disk.preserve = none
  outerPublication : disk.outerPublication = none

variable {p : Pending} {seen : Bool} {disk : ConfigDisk}

theorem sawCommit_of_stage (hc : p.committed = false) (h : Stage p disk seen) :
    sawCommit disk seen = seen := by
  cases h with
  | idle hpending hold => simp [sawCommit, hpending]
  | prepared hpending hpair => simp [sawCommit, hpending, hc]
  | committed hpending hnew => rfl
  | done hpending hnew => rfl

theorem Stage.pair_eq (h : Stage p disk seen) (hpending : disk.pending = none) :
    disk.pair = if seen = true then (some p.target, p.nextPrevious)
      else (p.oldCurrent, p.oldPrevious) := by
  cases h with
  | idle _ hold => exact Prod.ext (hold .config) (hold .previous)
  | prepared hp _ => exact absurd (hpending.symm.trans hp) (by simp)
  | committed hp _ => exact absurd (hpending.symm.trans hp) (by simp)
  | done _ hnew => exact Prod.ext (hnew .config) (hnew .previous)

theorem Stage.pair_new (h : Stage p disk true) :
    disk.pair = (some p.target, p.nextPrevious) := by
  cases h with
  | committed _ hnew => exact Prod.ext (hnew .config) (hnew .previous)
  | done _ hnew => exact Prod.ext (hnew .config) (hnew .previous)

theorem Publishing.of_settleCut_prepared {cut : ConfigDisk} (hc : p.committed = false)
    (hpending : disk.pending = some p)
    (hpair : ∀ path, disk.get path = p.old path ∨ disk.get path = p.new path)
    (hpreserve : disk.preserve = none) (houter : disk.outerPublication = none)
    (h : SettleCut p disk cut) : Publishing p false cut := by
  rcases h with rfl | rfl | ⟨-, rfl | rfl⟩
  · exact ⟨.prepared hpending hpair, hpreserve, houter⟩
  · rw [settled, if_neg (by simp [hc])]
    exact ⟨.idle rfl (by rintro (_ | _) <;> rfl), hpreserve, houter⟩
  · refine ⟨.prepared hpending ?_, hpreserve, houter⟩
    rintro (_ | _)
    · exact Or.inl rfl
    · exact hpair .previous
  · refine ⟨.prepared hpending ?_, hpreserve, houter⟩
    rintro (_ | _) <;> exact Or.inl rfl

theorem Publishing.of_settleCut_committed {cut : ConfigDisk}
    (hpending : disk.pending = some p.commit) (hnew : ∀ path, disk.get path = p.new path)
    (hpreserve : disk.preserve = none) (houter : disk.outerPublication = none)
    (h : SettleCut p.commit disk cut) : Publishing p true cut := by
  rcases h with rfl | rfl | ⟨hc, -⟩
  · exact ⟨.committed hpending hnew, hpreserve, houter⟩
  · rw [settled, if_pos (show p.commit.committed = true from rfl)]
    refine ⟨.done rfl ?_, hpreserve, houter⟩
    rintro (_ | _)
    · exact hnew .config
    · exact hnew .previous
  · exact absurd hc (by simp [Pending.commit])

theorem settled_pending (p : Pending) (disk : ConfigDisk) : (settled p disk).pending = none := by
  unfold settled
  split <;> rfl

namespace ConfigStore

variable (checks : ConfigChecks)

/-! ## Settlements -/

/-- **A settlement stays on its side of the commit decision**, whatever the faults, and
when it succeeds no record is left. -/
theorem wp_settlePendingInner_publishing (hc : p.committed = false)
    (h : Publishing p seen disk) :
    (settlePendingInner checks).wp (fun _ s => Publishing p seen s ∧ s.pending = none)
      (fun _ => Publishing p seen) (Publishing p seen) disk := by
  obtain ⟨hstage, hpreserve, houter⟩ := h
  have hidle : disk.pending = none → Publishing p seen disk →
      (settlePendingInner checks).wp (fun _ s => Publishing p seen s ∧ s.pending = none)
        (fun _ => Publishing p seen) (Publishing p seen) disk := by
    intro hpending hpub
    rw [settlePendingInner, wp_bind]
    refine outerPreservesCurrent_of_none checks houter ?_
    rw [wp_bind, wp_read, if_neg (by simp [hpreserve]), hpending]
    exact ⟨hpub, hpending⟩
  cases hstage with
  | idle hpending hold =>
    exact hidle hpending ⟨.idle hpending hold, hpreserve, houter⟩
  | done hpending hnew =>
    exact hidle hpending ⟨.done hpending hnew, hpreserve, houter⟩
  | prepared hpending hpair =>
    have hcut : ∀ s, s = disk ∨ p.Recognises disk ∧ SettleCut p disk s → Publishing p false s := by
      rintro s (rfl | ⟨-, hs⟩)
      · exact ⟨.prepared hpending hpair, hpreserve, houter⟩
      · exact .of_settleCut_prepared hc hpending hpair hpreserve houter hs
    refine wp_mono ?_ (fun _ => hcut) hcut
      (wp_settlePendingInner checks hpending hpreserve houter)
    rintro _ s ⟨hrec, rfl⟩
    exact ⟨hcut _ (Or.inr ⟨hrec, Or.inr (Or.inl rfl)⟩), settled_pending p disk⟩
  | committed hpending hnew =>
    have hcut : ∀ s, s = disk ∨ p.commit.Recognises disk ∧ SettleCut p.commit disk s →
        Publishing p true s := by
      rintro s (rfl | ⟨-, hs⟩)
      · exact ⟨.committed hpending hnew, hpreserve, houter⟩
      · exact .of_settleCut_committed hpending hnew hpreserve houter hs
    refine wp_mono ?_ (fun _ => hcut) hcut
      (wp_settlePendingInner checks hpending hpreserve houter)
    rintro _ s ⟨hrec, rfl⟩
    exact ⟨hcut _ (Or.inr ⟨hrec, Or.inr (Or.inl rfl)⟩), settled_pending p.commit disk⟩

theorem wp_settlePendingUnlocked (hc : p.committed = false) (h : Publishing p seen disk) :
    (settlePendingUnlocked checks).wp (fun _ s => Publishing p seen s ∧ s.pending = none)
      (fun _ => Publishing p seen) (Publishing p seen) disk := by
  rw [settlePendingUnlocked, wp_tryCatch]
  exact wp_settlePendingInner_publishing checks hc h

theorem wp_record_settlePendingUnlocked (hc : p.committed = false) {t : ConfigDisk × Bool}
    (h : Publishing p t.2 t.1) :
    (Program.record sawCommit (settlePendingUnlocked checks)).wp
      (fun _ u => (Publishing p t.2 u.1 ∧ u.1.pending = none) ∧ u.2 = t.2)
      (fun _ u => Publishing p t.2 u.1 ∧ u.2 = t.2)
      (fun u => Publishing p t.2 u.1 ∧ u.2 = t.2) t :=
  wp_record sawCommit (fun _ hs => sawCommit_of_stage hc hs.stage)
    (wp_settlePendingUnlocked checks hc h)

/-! ## Publications -/

theorem wp_record_of_publishing {α : Type} {call : ConfigProgram α} {Q : α → ConfigDisk → Prop}
    (hc : p.committed = false)
    (h : call.wp (fun a s => Publishing p seen s ∧ Q a s) (fun _ => Publishing p seen)
      (Publishing p seen) disk) :
    (Program.record sawCommit call).wp
      (fun a t => Publishing p t.2 t.1 ∧ Q a t.1 ∧ t.2 = seen)
      (fun _ t => Publishing p t.2 t.1 ∧ t.2 = seen)
      (fun t => Publishing p t.2 t.1) (disk, seen) := by
  refine wp_mono ?_ ?_ ?_
    (wp_record sawCommit (fun _ hs => sawCommit_of_stage hc hs.stage) h)
  · rintro a ⟨s, h⟩ ⟨⟨hpub, hq⟩, rfl⟩
    exact ⟨hpub, hq, rfl⟩
  · rintro e ⟨s, h⟩ ⟨hpub, rfl⟩
    exact ⟨hpub, rfl⟩
  · rintro ⟨s, h⟩ ⟨hpub, rfl⟩
    exact hpub

theorem wp_removePending_of_committed (h : Publishing p true disk) :
    (Program.ignoreError removePending).wp (fun _ => Publishing p true)
      (fun _ => Publishing p true) (Publishing p true) disk := by
  have hgone : Publishing p true { disk with pending := none } := by
    refine ⟨.done rfl ?_, h.preserve, h.outerPublication⟩
    cases h.stage with
    | committed _ hnew => rintro (_ | _) <;> [exact hnew .config; exact hnew .previous]
    | done _ hnew => rintro (_ | _) <;> [exact hnew .config; exact hnew .previous]
  rw [wp_ignoreError, removePending, wp_durable]
  exact ⟨h, hgone, hgone, h, hgone⟩

theorem wp_acceptCommitted (h : Publishing p true disk) :
    (acceptCommitted p.commit).wp (fun _ => Publishing p true) (fun _ => Publishing p true)
      (Publishing p true) disk := by
  rw [acceptCommitted, wp_bind, wp_tryCatch]
  refine wp_readFile ?_ fun _ => h
  rw [wp_bind, wp_tryCatch]
  refine wp_readFile ?_ fun _ => h
  split
  · exact h
  · exact wp_removePending_of_committed h

theorem wp_replacePair (hpending : disk.pending = some p)
    (hold : ∀ path, disk.get path = p.old path) (hpreserve : disk.preserve = none)
    (houter : disk.outerPublication = none) :
    Program.wp (do
        restoreBytes .config p.oldCurrent (some p.target)
        restoreBytes .previous p.oldPrevious p.nextPrevious)
      (fun _ s => Publishing p false s ∧ s.pending = some p ∧ ∀ path, s.get path = p.new path)
      (fun _ => Publishing p false) (Publishing p false) disk := by
  have hcut1 : Publishing p false disk :=
    ⟨.prepared hpending fun path => Or.inl (hold path), hpreserve, houter⟩
  have hcut2 : Publishing p false (disk.set .config (some p.target)) := by
    refine ⟨.prepared hpending ?_, hpreserve, houter⟩
    rintro (_ | _)
    · exact Or.inr rfl
    · exact Or.inl (hold .previous)
  have hcut3 : Publishing p false
      ((disk.set .config (some p.target)).set .previous p.nextPrevious) := by
    refine ⟨.prepared hpending ?_, hpreserve, houter⟩
    rintro (_ | _) <;> exact Or.inr rfl
  rw [wp_bind]
  refine wp_restoreBytes (hold .config) ?_ (fun _ => ⟨hcut1, hcut2⟩) ⟨hcut1, hcut2⟩
  refine wp_restoreBytes (hold .previous) ?_ (fun _ => ⟨hcut2, hcut3⟩) ⟨hcut2, hcut3⟩
  exact ⟨hcut3, hpending, by rintro (_ | _) <;> rfl⟩

theorem wp_record_publishFailed (hc : p.committed = false) (h : Publishing p seen disk)
    (record : Pending) (error : IoError) :
    (Program.record sawCommit (publishFailed checks record error)).wp
      (fun _ t => Publishing p t.2 t.1 ∧ t.2 = true) (fun _ t => Publishing p t.2 t.1)
      (fun t => Publishing p t.2 t.1) (disk, seen) := by
  rw [publishFailed, record_bind, wp_bind, record_read,
    wp_bind, wp_read, wp_pure]
  split
  · next hdecided =>
    have hstage := h.stage
    cases hstage with
    | idle hpending _ => simp [hpending] at hdecided
    | prepared hpending _ => simp [hpending, hc] at hdecided
    | committed hpending _ =>
      -- the record on disk is the committed one, so the history has seen it
      have hrecord : record = p.commit := by
        rw [hpending, Option.any_some, Bool.and_eq_true, beq_iff_eq] at hdecided
        exact hdecided.2.symm
      rw [hrecord]
      exact wp_mono (fun _ _ ht => ⟨ht.1, ht.2.2⟩) (fun _ _ ht => ht.1) (fun _ ht => ht)
        (wp_record_of_publishing (Q := fun _ _ => True) hc
          (wp_imp (fun _ _ hs => ⟨hs, trivial⟩)
            (wp_acceptCommitted h)))
    | done hpending _ => simp [hpending] at hdecided
  · rw [record_bind, wp_bind]
    refine wp_mono ?_ ?_ ?_ (wp_record_settlePendingUnlocked checks hc (t := (disk, seen)) h)
    · rintro _ ⟨s, _⟩ ⟨⟨hs, -⟩, rfl⟩
      exact hs
    · rintro _ ⟨s, _⟩ ⟨hs, rfl⟩
      exact hs
    · rintro ⟨s, _⟩ ⟨hs, rfl⟩
      exact hs

theorem wp_record_publishPrepared (hc : p.committed = false) (h : Publishing p false disk)
    (hold : ∀ path, disk.get path = p.old path) :
    (Program.record sawCommit (publishPrepared checks p)).wp
      (fun _ t => Publishing p t.2 t.1 ∧ t.2 = true) (fun _ t => Publishing p t.2 t.1)
      (fun t => Publishing p t.2 t.1) (disk, false) := by
  have hprepared : Publishing p false { disk with pending := some p } := by
    refine ⟨.prepared rfl ?_, h.preserve, h.outerPublication⟩
    rintro (_ | _)
    · exact Or.inl (hold .config)
    · exact Or.inl (hold .previous)
  have hsave : (savePending checks p).wp
      (fun _ s => Publishing p false s ∧ s = { disk with pending := some p })
      (fun _ => Publishing p false) (Publishing p false) disk := by
    unfold savePending
    split
    · exact h
    · exact ⟨h, hprepared, ⟨hprepared, rfl⟩, h, hprepared⟩
  rw [publishPrepared, record_bind, wp_bind]
  refine wp_mono ?_ (fun _ _ ht => ht.1) (fun _ ht => ht)
    (wp_record_of_publishing (Q := fun _ s => s = { disk with pending := some p }) hc hsave)
  rintro _ ⟨s, seen⟩ ⟨-, rfl, rfl⟩
  rw [record_bind, wp_bind, record_toExcept, wp_toExcept]
  have hpending : ({ disk with pending := some p } : ConfigDisk).pending = some p := rfl
  have hreplace := wp_replacePair hpending
    (by rintro (_ | _) <;> [exact hold .config; exact hold .previous]) h.preserve
    h.outerPublication
  refine wp_mono ?_ ?_ (fun _ ht => ht)
    (wp_record_of_publishing
      (Q := fun _ s => s.pending = some p ∧ ∀ path, s.get path = p.new path) hc hreplace)
  · -- both files are new: only the commit write moves the history
    rintro _ ⟨s, seen⟩ ⟨hs, ⟨hsp, hnew⟩, rfl⟩
    have hcommitted : Publishing p true { s with pending := some p.commit } := by
      refine ⟨.committed rfl ?_, hs.preserve, hs.outerPublication⟩
      rintro (_ | _)
      · exact hnew .config
      · exact hnew .previous
    have hsaw : sawCommit { s with pending := some p.commit } false = true := rfl
    rw [record_bind, wp_bind, record_toExcept, wp_toExcept]
    unfold savePending
    split
    · exact wp_record_publishFailed checks hc hs p.commit _
    · rw [record_durable, wp_durable, hsaw]
      refine ⟨hs, hcommitted, ?_, wp_record_publishFailed checks hc hs _ _,
        wp_record_publishFailed checks hc hcommitted _ _⟩
      exact wp_mono (fun _ _ ht => ⟨ht.1, ht.2.2⟩) (fun _ _ ht => ht.1) (fun _ ht => ht)
        (wp_record_of_publishing (Q := fun _ _ => True) hc
          (wp_imp (fun _ _ hs => ⟨hs, trivial⟩)
            (wp_removePending_of_committed hcommitted)))
  · rintro e ⟨s, seen⟩ ⟨hs, rfl⟩
    exact wp_record_publishFailed checks hc hs p e

/-- **A publication crosses only at the commit write**, whatever the faults, and it returns
normally only behind it. -/
theorem wp_record_publishConfigPair (target : Bytes) (validCurrent : Bool)
    (previousOverride : Option PreviousTarget) (expected : Option (Bytes × Option Bytes))
    (hpending : disk.pending = none) (hpreserve : disk.preserve = none)
    (houter : disk.outerPublication = none)
    (hp : p = preparedRecord target validCurrent previousOverride disk.config disk.previous) :
    (Program.record sawCommit
        (publishConfigPair checks target validCurrent previousOverride expected)).wp
      (fun _ t => Publishing p t.2 t.1 ∧ t.2 = true) (fun _ t => Publishing p t.2 t.1)
      (fun t => Publishing p t.2 t.1) (disk, false) := by
  have hc : p.committed = false := by rw [hp]; rfl
  have hold : ∀ path, disk.get path = p.old path := by
    rw [hp]; rintro (_ | _) <;> rfl
  have hidle : Publishing p false disk := ⟨.idle hpending hold, hpreserve, houter⟩
  have hsaw : sawCommit disk false = false := sawCommit_of_stage hc hidle.stage
  rw [publishConfigPair, record_bind, wp_bind]
  refine wp_record_readFile ?_ fun _ => hidle
  rw [record_bind, wp_bind]
  refine wp_record_readFile ?_ fun _ => hidle
  split
  · exact hidle
  rw [record_bind, wp_bind]
  refine (readOnly_validatePrevious checks _).wp_record sawCommit hsaw (fun _ => ?_)
    (fun _ => hidle) hidle
  split
  · exact hidle
  simp only [← hp]
  rw [record_bind, wp_bind]
  exact (readOnly_validatePendingConfigs checks p).wp_record sawCommit hsaw
    (fun _ => wp_record_publishPrepared checks hc hidle hold) (fun _ => hidle) hidle

theorem finalState_settlePendingUnlocked (hc : p.committed = false)
    (settles : List (Unit × List Fault)) (t : ConfigDisk × Bool) (h : Publishing p t.2 t.1) :
    Publishing p t.2 (Session.finalState (fun _ : Unit =>
        Program.record sawCommit (settlePendingUnlocked checks)) settles t).1 ∧
      (Session.finalState (fun _ : Unit =>
        Program.record sawCommit (settlePendingUnlocked checks)) settles t).2 = t.2 := by
  refine Session.finalState_preserves
    (I := fun u => Publishing p t.2 u.1 ∧ u.2 = t.2) ?_ settles t ⟨h, rfl⟩
  rintro - ⟨s, seen⟩ ⟨hs, rfl⟩
  exact wp_imp (fun _ _ hu => ⟨hu.1.1, hu.2⟩)
    (wp_record_settlePendingUnlocked checks hc hs)

/-- **Publication is crash-atomic over the pair.**  After a publication under any faults and
any number of settlements under any faults, a settlement that succeeds leaves no record,
and it leaves the target pair if a committed record became durable and the old pair if not.
A publication that returns normally has made the committed record durable and the pair
new. -/
theorem publishConfigPair_crash_atomic (target : Bytes) (validCurrent : Bool)
    (previousOverride : Option PreviousTarget) (expected : Option (Bytes × Option Bytes))
    (disk : ConfigDisk) (hpending : disk.pending = none) (hpreserve : disk.preserve = none)
    (houter : disk.outerPublication = none) (fs : List Fault)
    (settles : List (Unit × List Fault)) (last : List Fault) :
    let p := preparedRecord target validCurrent previousOverride disk.config disk.previous
    let settle := Program.record sawCommit (settlePendingUnlocked checks)
    let published := (Program.record sawCommit
      (publishConfigPair checks target validCurrent previousOverride expected)).run fs (disk, false)
    let recovered := settle.run last (Session.finalState (fun _ => settle) settles published.2)
    (recovered.1 = .ok () → recovered.2.1.pending = none ∧
        recovered.2.1.pair = if recovered.2.2 = true then (some target, p.nextPrevious)
          else disk.pair) ∧
      recovered.2.2 = published.2.2 ∧
      (published.1 = .ok () →
        published.2.2 = true ∧ published.2.1.pair = (some target, p.nextPrevious)) := by
  intro p settle published recovered
  have hc : p.committed = false := rfl
  have hpublished := (wp_iff_run _ _ _ _ _).mp (wp_record_publishConfigPair checks target
    validCurrent previousOverride expected hpending hpreserve houter (p := p) rfl) fs
  have hstage : Publishing p published.2.2 published.2.1 ∧
      (published.1 = .ok () → published.2.2 = true) := by
    rcases hr : published with ⟨_ | _ | _, t⟩ <;>
      rw [show Program.run _ fs (disk, false) = _ from hr] at hpublished
    · exact ⟨hpublished.1, fun _ => hpublished.2⟩
    · exact ⟨hpublished, fun h => (nomatch h)⟩
    · exact ⟨hpublished, fun h => (nomatch h)⟩
  obtain ⟨hsettled, hseen⟩ :=
    finalState_settlePendingUnlocked checks hc settles published.2 hstage.1
  have hend : (recovered.1 = .ok () → Publishing p recovered.2.2 recovered.2.1 ∧
      recovered.2.1.pending = none) ∧ recovered.2.2 = published.2.2 := by
    have hrecovered := (wp_iff_run _ _ _ _ _).mp
      (wp_record_settlePendingUnlocked checks hc (hseen ▸ hsettled)) last
    rw [← hseen]
    rcases hr : recovered with ⟨_ | _ | _, t⟩ <;>
      rw [show Program.run settle last _ = _ from hr] at hrecovered
    · exact ⟨fun _ => ⟨hrecovered.2 ▸ hrecovered.1.1, hrecovered.1.2⟩, hrecovered.2⟩
    · exact ⟨fun h => (nomatch h), hrecovered.2⟩
    · exact ⟨fun h => (nomatch h), hrecovered.2⟩
  refine ⟨fun hok => ?_, hend.2, fun hok => ⟨hstage.2 hok, ?_⟩⟩
  · obtain ⟨hpub, hnone⟩ := hend.1 hok
    exact ⟨hnone, hpub.stage.pair_eq hnone⟩
  · have hpub := hstage.1
    rw [hstage.2 hok] at hpub
    exact hpub.stage.pair_new

/-- A publication whose commit write takes effect but is reported as failed, and which is
stopped before it removes the record; then one settlement. -/
def ambiguousCommit : Outcome IoError Unit × (ConfigDisk × Bool) :=
  (Program.record sawCommit (settlePendingUnlocked acceptingChecks)).run []
    ((Program.record sawCommit (publishConfigPair acceptingChecks [2] true none none)).run
      [.none, .none, .none, .none, .none, .none, .errorAfter, .crashBefore]
      (plainDisk (some [1]) none, false)).2

theorem ambiguousCommit_pair : ambiguousCommit.2.1.pair = (some [2], some [1]) := by
  have hok : ambiguousCommit.1 = .ok () := by decide +kernel
  have h := publishConfigPair_crash_atomic acceptingChecks [2] true none none
    (plainDisk (some [1]) none) rfl rfl rfl
    [.none, .none, .none, .none, .none, .none, .errorAfter, .crashBefore] [] []
  exact (h.1 hok).2.trans (by decide +kernel)

end ConfigStore

end DshNexus.Config
