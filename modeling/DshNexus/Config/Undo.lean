import Mathlib.Algebra.Order.BigOperators.Group.List
import Mathlib.Algebra.Order.Ring.Nat
import DshNexus.Config.Saves
import DshNexus.Core.Fields

/-!
# Configuration undo

A run of saves without crashes, from a valid pair.  Every save either changes nothing or replaces
the document and keeps the replaced bytes as the undo point; so a restore right after it goes
back, and a second restore goes forward again.

* `settles_save`: what one save of any kind does.
* `config_undo_exact`: the undo point and the two restores, in every run.  A restore is a save of
  a document without attempt id, and like any save it may be refused.
-/

namespace DshNexus.Config

open Durable Program ConfigStore

namespace DocumentStore

variable {ρ : Type} [DecidableEq ρ] {codec : ConfigCodec ρ} {s : ConfigDisk}
  {d : NexusConfigFile ρ}

/-! ## One save -/

inductive Save (ρ : Type)
  | write (document : NexusConfigFile ρ)
  | writeIfCurrent (expected document : NexusConfigFile ρ)
  | transaction (update : Edit ρ)
  | transactionIfRevision (expected : String) (update : Edit ρ)
  | restorePrevious
  | restorePreviousIfRevision (expected : String)

def Save.program (codec : ConfigCodec ρ) : Save ρ → ConfigProgram Unit
  | write document => DocumentStore.write codec document
  | writeIfCurrent expected document =>
      (fun _ => ()) <$> DocumentStore.writeIfCurrent codec expected document
  | transaction update => (fun _ => ()) <$> DocumentStore.transaction codec update
  | transactionIfRevision expected update =>
      (fun _ => ()) <$> DocumentStore.transactionIfRevision codec expected update
  | restorePrevious => (fun _ => ()) <$> DocumentStore.restorePrevious codec
  | restorePreviousIfRevision expected =>
      (fun _ => ()) <$> DocumentStore.restorePreviousIfRevision codec expected

/-- The document that a save asks for, where it comes to that. -/
def Save.Requests (codec : ConfigCodec ρ) (s : ConfigDisk) (d : NexusConfigFile ρ) :
    Save ρ → Prop
  | write document => document.revoked = d
  | writeIfCurrent expected document => documentOf codec s.config = expected ∧
      codec.validate document = .ok () ∧ document.revoked = d
  | transaction update => update s (documentOf codec s.config) = .ok d
  | transactionIfRevision expected update => revision codec s.config = expected ∧
      update s (documentOf codec s.config) = .ok d
  | restorePrevious => previousDocument codec s = .ok d
  | restorePreviousIfRevision expected => revision codec s.config = expected ∧
      previousDocument codec s = .ok d

/-- The save goes through, and leaves `t`. -/
def Stores (codec : ConfigCodec ρ) (s : ConfigDisk) (d : NexusConfigFile ρ) (t : ConfigDisk) :
    Prop :=
  codec.validate d = .ok () ∧ Accepted codec s (d.savedOver (documentOf codec s.config)) ∧
    t = written codec s (d.savedOver (documentOf codec s.config))

theorem Stores.sound {t : ConfigDisk} (hlaw : codec.Lawful) (h : SoundPair codec.checks s)
    (hstores : Stores codec s d t) : SoundPair codec.checks t := by
  obtain ⟨hd, haccepted, rfl⟩ := hstores
  exact soundPair_written hlaw h (ConfigCodec.validate_savedOver hd) haccepted

theorem settles_checkedWrite {α : Type} {g : Unit → ConfigProgram α} {Q : α → ConfigDisk → Prop}
    {E : IoError → ConfigDisk → Prop} (hlaw : codec.Lawful) (h : SoundPair codec.checks s)
    (hQ : ∀ t, SoundPair codec.checks t → Stores codec s d t → (g ()).settles Q E t)
    (hE : (∀ t, ¬ Stores codec s d t) → ∀ e, E e s) :
    (validateConfigDocument codec d >>= fun _ => writeUnlocked codec d >>= g).settles Q E s := by
  rw [settles_bind]
  refine settles_validateConfigDocument (fun hd => ?_) fun hinvalid =>
    hE fun t hstores => hinvalid hstores.1
  rw [settles_bind]
  refine settles_mono ?_ ?_ (settles_writeUnlocked hlaw h hd)
  · rintro _ t ⟨haccepted, rfl⟩
    have hstores : Stores codec s d (written codec s (d.savedOver (documentOf codec s.config))) :=
      ⟨hd, haccepted, rfl⟩
    exact hQ _ (hstores.sound hlaw h) hstores
  · rintro e t ⟨hrefused, rfl⟩
    exact hE (fun t' hstores => hrefused hstores.2.1) e

theorem settles_write {Q : Unit → ConfigDisk → Prop} {E : IoError → ConfigDisk → Prop}
    (hlaw : codec.Lawful) (h : SoundPair codec.checks s)
    (hQ : ∀ t, Stores codec s d.revoked t → Q () t)
    (hE : (∀ t, ¬ Stores codec s d.revoked t) → ∀ e, E e s) :
    (write codec d).settles Q E s := by
  rw [write, writeRecoveryDocument, ← bind_pure (writeUnlocked codec d.revoked)]
  exact settles_checkedWrite hlaw h (fun t _ hstores => hQ t hstores) hE

theorem settles_writeIfCurrent {expected : NexusConfigFile ρ} {Q : Bool → ConfigDisk → Prop}
    {E : IoError → ConfigDisk → Prop} (hlaw : codec.Lawful) (h : SoundPair codec.checks s)
    (hQ : codec.validate d = .ok () → documentOf codec s.config = expected →
      ∀ t, Stores codec s d.revoked t → Q true t)
    (hsame : documentOf codec s.config ≠ expected → Q false s)
    (hE : (codec.validate d = .ok () → documentOf codec s.config = expected →
      ∀ t, ¬ Stores codec s d.revoked t) → ∀ e, E e s) :
    (writeIfCurrent codec expected d).settles Q E s := by
  rw [writeIfCurrent, settles_bind]
  refine settles_validateConfigDocument (fun hd => ?_) fun hinvalid =>
    hE fun hd => absurd hd hinvalid
  rw [settles_bind]
  refine settles_of_returns (returns_settlePendingUnlocked h.quiet ?_)
  rw [settles_bind]
  refine settles_of_returns (returns_loadUnlocked hlaw h.config ?_)
  split
  · next hne => exact hsame hne
  next heq =>
  rw [not_not] at heq
  rw [settles_bind]
  refine settles_mono ?_ ?_
    (settles_writeUnlocked hlaw h (ConfigCodec.validate_revoked hd))
  · rintro _ t ⟨haccepted, rfl⟩
    exact hQ hd heq _ ⟨ConfigCodec.validate_revoked hd, haccepted, rfl⟩
  · rintro e t ⟨hrefused, rfl⟩
    exact hE (fun _ _ t' hstores => hrefused hstores.2.1) e

theorem settles_inspectedWrite {α : Type} {f : ConfigDisk → Except IoError (NexusConfigFile ρ)}
    {g : NexusConfigFile ρ → ConfigProgram α} {Q : α → ConfigDisk → Prop}
    {E : IoError → ConfigDisk → Prop} (hlaw : codec.Lawful) (h : SoundPair codec.checks s)
    (hQ : ∀ d, f s = .ok d → ∀ t, SoundPair codec.checks t → Stores codec s d t →
      (g d).settles Q E t)
    (hE : (∀ d, f s = .ok d → ∀ t, ¬ Stores codec s d t) → ∀ e, E e s) :
    (Program.inspect f >>= fun d => validateConfigDocument codec d >>= fun _ =>
      writeUnlocked codec d >>= fun _ => g d).settles Q E s := by
  rw [settles_bind]
  refine (settles_ofExcept (f s)).mpr ⟨fun d hd => ?_, fun e herror => hE ?_ e⟩
  · refine settles_checkedWrite hlaw h (hQ d hd) fun hrefused => hE fun d' hd' => ?_
    rw [hd] at hd'
    rw [← Except.ok.inj hd']
    exact hrefused
  · intro d hd
    rw [hd] at herror
    cases herror

theorem settles_transaction {update : Edit ρ} {Q : NexusConfigFile ρ → ConfigDisk → Prop}
    {E : IoError → ConfigDisk → Prop} (hlaw : codec.Lawful) (h : SoundPair codec.checks s)
    (hQ : ∀ d, update s (documentOf codec s.config) = .ok d → ∀ t, Stores codec s d t →
      Q (documentOf codec t.config) t)
    (hE : (∀ d, update s (documentOf codec s.config) = .ok d → ∀ t, ¬ Stores codec s d t) →
      ∀ e, E e s) : (transaction codec update).settles Q E s := by
  rw [transaction, settles_bind]
  refine settles_of_returns (returns_settlePendingUnlocked h.quiet ?_)
  rw [settles_bind]
  refine settles_of_returns (returns_loadUnlocked hlaw h.config ?_)
  refine settles_inspectedWrite hlaw h (fun d hd t ht hstores => ?_) hE
  exact settles_of_returns (returns_loadUnlocked hlaw ht.config (hQ d hd t hstores))

theorem settles_transactionIfRevision {expected : String} {update : Edit ρ}
    {Q : NexusConfigFile ρ → ConfigDisk → Prop} {E : IoError → ConfigDisk → Prop}
    (hlaw : codec.Lawful) (h : SoundPair codec.checks s)
    (hQ : revision codec s.config = expected → ∀ d, update s (documentOf codec s.config) = .ok d →
      ∀ t, Stores codec s d t → Q (documentOf codec t.config) t)
    (hE : (revision codec s.config = expected → ∀ d,
      update s (documentOf codec s.config) = .ok d → ∀ t, ¬ Stores codec s d t) → ∀ e, E e s) :
    (transactionIfRevision codec expected update).settles Q E s := by
  rw [transactionIfRevision, settles_bind]
  refine settles_of_returns (returns_settlePendingUnlocked h.quiet ?_)
  rw [settles_bind]
  refine settles_of_returns (returns_loadUnlocked hlaw h.config ?_)
  rw [settles_bind, settles_read]
  split
  · next hne => exact hE (fun heq => absurd heq hne) _
  next heq =>
  rw [not_not] at heq
  refine settles_inspectedWrite hlaw h (fun d hd t ht hstores => ?_) fun hrefused =>
    hE fun _ => hrefused
  exact settles_of_returns (returns_loadUnlocked hlaw ht.config (hQ heq d hd t hstores))

theorem settles_restorePrevious {Q : NexusConfigFile ρ → ConfigDisk → Prop}
    {E : IoError → ConfigDisk → Prop} (hlaw : codec.Lawful) (h : SoundPair codec.checks s)
    (hQ : ∀ d, previousDocument codec s = .ok d → ∀ t, Stores codec s d t → Q d t)
    (hE : (∀ d, previousDocument codec s = .ok d → ∀ t, ¬ Stores codec s d t) → ∀ e, E e s) :
    (restorePrevious codec).settles Q E s := by
  rw [restorePrevious, settles_bind]
  refine settles_of_returns (returns_settlePendingUnlocked h.quiet ?_)
  exact settles_inspectedWrite hlaw h (fun d hd t _ hstores => hQ d hd t hstores) hE

/-- **What one save does**: it stores the document that it asks for, or changes nothing. -/
theorem settles_save (hlaw : codec.Lawful) (h : SoundPair codec.checks s) (save : Save ρ) :
    (save.program codec).settles
      (fun _ t => (∃ d, save.Requests codec s d ∧ Stores codec s d t) ∨
        t = s ∧ ∀ d, ¬ save.Requests codec s d)
      (fun _ t => t = s ∧ ∀ d, save.Requests codec s d → ∀ t', ¬ Stores codec s d t') s := by
  cases save with
  | write document =>
    refine settles_write hlaw h (fun t hstores => Or.inl ⟨_, rfl, hstores⟩) fun hrefused _ => ?_
    refine ⟨rfl, ?_⟩
    rintro _ rfl
    exact hrefused
  | writeIfCurrent expected document =>
    refine settles_map.mpr (settles_writeIfCurrent hlaw h
      (fun hd heq t hstores => Or.inl ⟨_, ⟨heq, hd, rfl⟩, hstores⟩)
      (fun hne => Or.inr ⟨rfl, fun d hd => hne hd.1⟩) fun hrefused _ => ⟨rfl, ?_⟩)
    rintro _ ⟨heq, hd, rfl⟩
    exact hrefused hd heq
  | transaction update =>
    exact settles_map.mpr (settles_transaction hlaw h
      (fun d hd t hstores => Or.inl ⟨d, hd, hstores⟩) fun hrefused _ => ⟨rfl, hrefused⟩)
  | transactionIfRevision expected update =>
    exact settles_map.mpr (settles_transactionIfRevision hlaw h
      (fun heq d hd t hstores => Or.inl ⟨d, ⟨heq, hd⟩, hstores⟩)
      fun hrefused _ => ⟨rfl, fun d hd => hrefused hd.1 d hd.2⟩)
  | restorePrevious =>
    exact settles_map.mpr (settles_restorePrevious hlaw h
      (fun d hd t hstores => Or.inl ⟨d, hd, hstores⟩) fun hrefused _ => ⟨rfl, hrefused⟩)
  | restorePreviousIfRevision expected =>
    exact settles_map.mpr (settles_transactionIfRevision hlaw h
      (fun heq d hd t hstores => Or.inl ⟨d, ⟨heq, hd⟩, hstores⟩)
      fun hrefused _ => ⟨rfl, fun d hd => hrefused hd.1 d hd.2⟩)

def afterSave (codec : ConfigCodec ρ) (save : Save ρ) (s : ConfigDisk) : ConfigDisk :=
  Session.after (save.program codec) [] s

/-- The disk after a run of saves without faults. -/
def afterSaves (codec : ConfigCodec ρ) (saves : List (Save ρ)) (s : ConfigDisk) : ConfigDisk :=
  saves.foldl (fun s save => afterSave codec save s) s

theorem afterSave_write (hlaw : codec.Lawful) (h : SoundPair codec.checks s)
    {d : NexusConfigFile ρ} (hstores : ∃ t, Stores codec s d.revoked t) :
    Stores codec s d.revoked (afterSave codec (.write d) s) := by
  obtain ⟨t, ht⟩ := hstores
  exact settles_run (I := fun t => Stores codec s d.revoked t)
    (settles_write hlaw h (fun _ hu => hu) fun hrefused _ => absurd ht (hrefused t))

theorem afterSave_transaction (hlaw : codec.Lawful) (h : SoundPair codec.checks s)
    {update : Edit ρ} {d : NexusConfigFile ρ} (hok : update s (documentOf codec s.config) = .ok d)
    (hstores : ∃ t, Stores codec s d t) :
    Stores codec s d (afterSave codec (.transaction update) s) := by
  obtain ⟨t, ht⟩ := hstores
  refine settles_run (I := fun t => Stores codec s d t) (settles_map.mpr ?_)
  refine settles_transaction hlaw h (fun d' hd' u hu => ?_) fun hrefused _ =>
    absurd ht (hrefused d hok t)
  rw [hok] at hd'
  rw [Except.ok.inj hd']
  exact hu

theorem afterSave_cases (hlaw : codec.Lawful) (h : SoundPair codec.checks s) (save : Save ρ) :
    (∃ d, save.Requests codec s d ∧ Stores codec s d (afterSave codec save s)) ∨
      afterSave codec save s = s := by
  refine settles_run (I := fun t => (∃ d, save.Requests codec s d ∧ Stores codec s d t) ∨
    t = s) (settles_mono ?_ ?_ (settles_save hlaw h save))
  · rintro _ t (hstores | ⟨rfl, -⟩)
    · exact Or.inl hstores
    · exact Or.inr rfl
  · rintro _ t ⟨rfl, -⟩
    exact Or.inr rfl

theorem soundPair_afterSave (hlaw : codec.Lawful) (h : SoundPair codec.checks s) (save : Save ρ) :
    SoundPair codec.checks (afterSave codec save s) := by
  rcases afterSave_cases hlaw h save with ⟨d, -, hstores⟩ | heq
  · exact hstores.sound hlaw h
  · rw [heq]
    exact h

theorem soundPair_afterSaves (hlaw : codec.Lawful) (saves : List (Save ρ)) :
    ∀ s, SoundPair codec.checks s → SoundPair codec.checks (afterSaves codec saves s) := by
  induction saves with
  | nil => exact fun s h => h
  | cons save saves ih => exact fun s h => ih _ (soundPair_afterSave hlaw h save)

/-! ## The undo point -/

theorem documentOf_written (hlaw : codec.Lawful) (hd : codec.validate d = .ok ()) :
    documentOf codec (written codec s d).config = d := by
  unfold written
  split
  · next hsame => exact hsame.1
  · exact hlaw.documentOf_encode hd

omit [DecidableEq ρ] in
theorem savedOver_revoked (d old : NexusConfigFile ρ) : d.revoked.savedOver old = d.revoked := by
  unfold NexusConfigFile.savedOver
  split <;> rfl

theorem Stores.documentOf_eq {t : ConfigDisk} (hlaw : codec.Lawful) (h : Stores codec s d t) :
    documentOf codec t.config = d.savedOver (documentOf codec s.config) := by
  obtain ⟨hd, -, rfl⟩ := h
  exact documentOf_written hlaw (ConfigCodec.validate_savedOver hd)

theorem Stores.previous_eq {t : ConfigDisk} (hlaw : codec.Lawful) (h : Stores codec s d t)
    (hchanged : documentOf codec t.config ≠ documentOf codec s.config) :
    t.config.isSome = true ∧
      t.previous = if s.config.isSome = true then s.config else s.previous := by
  rw [h.documentOf_eq hlaw] at hchanged
  obtain ⟨-, -, rfl⟩ := h
  rw [written, if_neg (fun hsame => hchanged hsame.1.symm)]
  exact ⟨rfl, rfl⟩

theorem Stores.eq_of_unchanged {t : ConfigDisk} (hlaw : codec.Lawful) (h : Stores codec s d t)
    (hsame : documentOf codec t.config = documentOf codec s.config)
    (hconfig : s.config.isSome = true) : t = s := by
  rw [h.documentOf_eq hlaw] at hsame
  obtain ⟨-, -, rfl⟩ := h
  rw [written, if_pos ⟨hsame.symm, hconfig⟩]

omit [DecidableEq ρ] in
theorem previousDocument_eq_ok (hlaw : codec.Lawful) {file : Option Bytes}
    (hvalid : ValidFile codec.checks file)
    (hprevious : s.previous = file) (hfile : file.isSome = true) :
    previousDocument codec s = .ok (documentOf codec file).revoked := by
  obtain ⟨bytes, rfl⟩ := Option.isSome_iff_exists.mp hfile
  obtain ⟨hlength, hdecode, -⟩ := hlaw.validDocument_iff.mp (hvalid bytes rfl)
  unfold previousDocument
  rw [hprevious, readRegularFileBounded, if_neg (by omega)]
  show (codec.decode bytes >>= _) = _
  rw [hdecode]
  rfl

/-- **One restore**: it saves the document of the undo point without attempt id, or is refused. -/
theorem run_restorePrevious (hlaw : codec.Lawful) (h : SoundPair codec.checks s)
    (hd : codec.validate d = .ok ()) (hprevious : previousDocument codec s = .ok d.revoked) :
    (∃ t, (restorePrevious codec).run [] s = (.ok d.revoked, t) ∧
        Stores codec s d.revoked t) ∨
      ∃ e, (restorePrevious codec).run [] s = (.error e, s) ∧ ¬ Accepted codec s d.revoked := by
  have hsettles := settles_restorePrevious (Q := fun d' t => d' = d.revoked ∧
      Stores codec s d.revoked t) (E := fun _ t => t = s ∧ ¬ Accepted codec s d.revoked) hlaw h
    (fun d' hd' t hstores => ?_) fun hrefused e => ⟨rfl, fun haccepted => ?_⟩
  · have hrun := (settles_iff_run _ _ _ s).mp hsettles
    rcases hr : (restorePrevious codec).run [] s with ⟨d' | e | _, t⟩ <;> rw [hr] at hrun
    · obtain ⟨rfl, hstores⟩ := hrun
      exact Or.inl ⟨t, rfl, hstores⟩
    · obtain ⟨rfl, hrefused⟩ := hrun
      exact Or.inr ⟨e, rfl, hrefused⟩
    · exact hrun.elim
  · rw [hprevious] at hd'
    rw [← Except.ok.inj hd'] at hstores ⊢
    exact ⟨rfl, hstores⟩
  · refine hrefused d.revoked hprevious _ ⟨ConfigCodec.validate_revoked hd, ?_, rfl⟩
    rw [savedOver_revoked]
    exact haccepted

/-- **Configuration undo is exact.**  In every run of saves from a valid pair, while `config.json`
is there: a save that changes the document leaves the bytes that it replaces as the undo point,
and one that does not change it changes nothing; and a restore right after a change brings back
the document before it, and another one the saved document, each without its attempt id, unless
the restore is refused as a save of that document.  A first save leaves the undo point alone. -/
theorem config_undo_exact (codec : ConfigCodec ρ) (hlaw : codec.Lawful) (start : ConfigDisk)
    (hstart : SoundPair codec.checks start) (saves : List (Save ρ)) (save : Save ρ) :
    let s := afterSaves codec saves start
    let t := afterSave codec save s
    let before := documentOf codec s.config
    let after := documentOf codec t.config
    (∀ bytes, s.config = some bytes → after ≠ before → t.previous = some bytes) ∧
    (s.config.isSome = true → after = before → t = s) ∧
    (s.config = none → t.previous = s.previous) ∧
    (s.config.isSome = true → after ≠ before →
      (∃ u, (restorePrevious codec).run [] t = (.ok before.revoked, u) ∧
        documentOf codec u.config = before.revoked ∧
        ((∃ v, (restorePrevious codec).run [] u = (.ok after.revoked, v) ∧
            documentOf codec v.config = after.revoked) ∨
          ∃ e, (restorePrevious codec).run [] u = (.error e, u) ∧
            ¬ Accepted codec u after.revoked)) ∨
      ∃ e, (restorePrevious codec).run [] t = (.error e, t) ∧
        ¬ Accepted codec t before.revoked) := by
  intro s t before after
  have hs : SoundPair codec.checks s := soundPair_afterSaves hlaw saves start hstart
  have ht : SoundPair codec.checks t := soundPair_afterSave hlaw hs save
  rcases afterSave_cases hlaw hs save with ⟨d, -, hstores⟩ | heq
  · change Stores codec s d t at hstores
    have hbefore : codec.validate before = .ok () := hlaw.validate_documentOf hs.config
    have hafter : codec.validate after = .ok () := hlaw.validate_documentOf ht.config
    refine ⟨fun bytes hconfig hchanged => ?_, fun hconfig hsame => ?_, fun hconfig => ?_,
      fun hconfig hchanged => ?_⟩
    · rw [(hstores.previous_eq hlaw hchanged).2, hconfig]
      rfl
    · exact hstores.eq_of_unchanged hlaw hsame hconfig
    · obtain ⟨-, -, hwritten⟩ := hstores
      rw [hwritten, written]
      split
      · rfl
      · rw [hconfig]
        rfl
    · obtain ⟨htconfig, htprevious⟩ := hstores.previous_eq hlaw hchanged
      rw [if_pos hconfig] at htprevious
      rcases run_restorePrevious hlaw ht hbefore
        (previousDocument_eq_ok hlaw hs.config htprevious hconfig) with
        ⟨u, hrun, hrestored⟩ | hrefused
      · have hu : SoundPair codec.checks u := hrestored.sound hlaw ht
        have hudocument : documentOf codec u.config = before.revoked := by
          rw [hrestored.documentOf_eq hlaw, savedOver_revoked]
        -- the undo point is now the saved document, also where the restore had nothing to do
        have hundo : previousDocument codec u = .ok after.revoked := by
          by_cases hback : documentOf codec u.config = documentOf codec t.config
          · have hnothing := hrestored.eq_of_unchanged hlaw hback htconfig
            have hrevoked : after.revoked = before.revoked := by
              show (documentOf codec t.config).revoked = before.revoked
              rw [← hback, hudocument, NexusConfigFile.revoked_revoked]
            rw [hnothing, hrevoked]
            exact previousDocument_eq_ok hlaw hs.config htprevious hconfig
          · obtain ⟨-, huprevious⟩ := hrestored.previous_eq hlaw hback
            rw [if_pos htconfig] at huprevious
            exact previousDocument_eq_ok hlaw ht.config huprevious htconfig
        refine Or.inl ⟨u, hrun, hudocument, ?_⟩
        rcases run_restorePrevious hlaw hu hafter hundo with ⟨v, hrun', hagain⟩ | hrefused
        · refine Or.inl ⟨v, hrun', ?_⟩
          rw [hagain.documentOf_eq hlaw, savedOver_revoked]
        · exact Or.inr hrefused
      · exact Or.inr hrefused
  · change t = s at heq
    have hsame : after = before := by
      show documentOf codec t.config = documentOf codec s.config
      rw [heq]
    exact ⟨fun _ _ hchanged => absurd hsame hchanged, fun _ _ => heq,
      fun _ => by rw [heq], fun _ hchanged => absurd hsame hchanged⟩

end DocumentStore

/-! ## A sample codec -/

def updateFields : Option UpdateSpec → List (List Nat)
  | none => []
  | some spec =>
      [textDigits spec.source, textDigits spec.refName, textDigits spec.gitProgram,
        optionDigits spec.buildProgram, optionDigits spec.verifyProgram,
        spec.timeoutSecs.toList, [spec.buildArgs.length]] ++
      (spec.buildArgs ++ spec.verifyArgs).map textDigits

def updateOfFields : List (List Nat) → Option UpdateSpec
  | source :: refName :: gitProgram :: buildProgram :: verifyProgram :: timeout :: [n] :: args =>
      some ⟨digitsText source, digitsText refName, digitsText gitProgram,
        digitsOption buildProgram, (args.take n).map digitsText, digitsOption verifyProgram,
        (args.drop n).map digitsText, timeout.head?⟩
  | _ => none

theorem updateOfFields_updateFields (update : Option UpdateSpec) :
    updateOfFields (updateFields update) = update := by
  rcases update with _ | spec
  · rfl
  · have htexts : ∀ texts : List String, (texts.map textDigits).map digitsText = texts := by
      intro texts
      rw [List.map_map]
      exact (List.map_congr_left fun text _ => digitsText_textDigits text).trans
        (List.map_id texts)
    have htake : ((spec.buildArgs ++ spec.verifyArgs).map textDigits).take spec.buildArgs.length =
        spec.buildArgs.map textDigits := by
      rw [List.map_append, List.take_left' (List.length_map _)]
    have hdrop : ((spec.buildArgs ++ spec.verifyArgs).map textDigits).drop spec.buildArgs.length =
        spec.verifyArgs.map textDigits := by
      rw [List.map_append, List.drop_left' (List.length_map _)]
    have htimeout : spec.timeoutSecs.toList.head? = spec.timeoutSecs := by
      cases spec.timeoutSecs <;> rfl
    simp only [updateFields, List.cons_append, List.nil_append, updateOfFields,
      digitsText_textDigits, digitsOption_optionDigits, htake, hdrop, htexts, htimeout]

/-- A document whose other sections are one number. -/
abbrev SampleDocument := NexusConfigFile Nat

def documentFields (document : SampleDocument) : List (List Nat) :=
  [optionDigits document.updateAttemptId, [document.schemaVersion]] ++
    [document.sections] :: updateFields document.update

/-- A document in fields, or a 9 and a default document in a shorter form. -/
def decodeSampleDocument (bytes : Bytes) : Except IoError SampleDocument :=
  if bytes.head? = some 9 then .ok ⟨none, 1, none, 2 * bytes.length⟩
  else
    match decodeFields bytes 0 [] [] with
    | attemptId :: [schema] :: [sections] :: update =>
        .ok ⟨digitsOption attemptId, schema, updateOfFields update, sections⟩
    | _ => .error (invalidData "Unsupported configuration schema or fields")

theorem head?_encodeFields_ne (fields : List (List Nat)) :
    (encodeFields fields).head? ≠ some 9 := by
  rcases fields with _ | ⟨_ | ⟨n | n, field⟩, fields⟩
  · exact nofun
  · exact fun h => absurd (Option.some.inj h) (by decide)
  · exact fun h => absurd (Option.some.inj h) (by decide)
  · exact fun h => absurd (Option.some.inj h) (by decide)

/-- The codec without the checks of the pair. -/
def bareCodec : ConfigCodec Nat where
  checks := acceptingChecks
  sections := 0
  decode := decodeSampleDocument
  encode document := encodeFields (documentFields document)
  validateSections _ := .ok ()
  protect _ _ := .ok ()

/-- A codec in which the journal holds the documents themselves. -/
def sampleCodec : ConfigCodec Nat :=
  { bareCodec with
    checks :=
      { acceptingChecks with
        validateDocument := fun bytes => bareCodec.decode bytes >>= bareCodec.validate
        encodedLength := fun p => ((documents p).map List.length).sum } }

theorem lawful_sampleCodec : sampleCodec.Lawful where
  validateDocument_eq _ := rfl
  decode_encode document _ := by
    show decodeSampleDocument (encodeFields (documentFields document)) = _
    rw [decodeSampleDocument, if_neg (head?_encodeFields_ne _), decodeFields_encodeFields]
    simp only [List.reverse_nil, List.nil_append, documentFields, List.cons_append,
      digitsOption_optionDigits, updateOfFields_updateFields]
  encodedLength_le p hbounded := by
    have hsum : ((documents p).map List.length).sum ≤ ((documents p).map List.length).length • LIMIT :=
      List.sum_le_card_nsmul _ _ fun n hn => by
        obtain ⟨bytes, hbytes, rfl⟩ := List.mem_map.mp hn
        exact hbounded bytes hbytes
    have hlength : ((documents p).map List.length).length ≤ 4 := by
      rw [List.length_map]
      exact List.length_filterMap_le _ _
    have hle : ((documents p).map List.length).length • LIMIT ≤ 4 * LIMIT :=
      Nat.mul_le_mul_right LIMIT hlength
    show ((documents p).map List.length).sum ≤ JOURNAL_LIMIT
    have hroom : 4 * LIMIT ≤ JOURNAL_LIMIT := by decide
    omega
  validate_default := rfl

/-! ## Where undo is not exact -/

namespace DocumentStore

def sampleAttemptId : String := String.ofList (List.replicate 64 'a')

def smallPair : ConfigDisk := plainDisk (some (sampleCodec.encode sampleCodec.default)) none

def startAttempt : Save Nat :=
  .transaction fun _ document => .ok { document with updateAttemptId := some sampleAttemptId }

/-- The disk after a number of restores. -/
def restores (n : Nat) (s : ConfigDisk) : ConfigDisk :=
  afterSaves sampleCodec (List.replicate n .restorePrevious) s

/-- The shorter form of a document that takes more than 4 MiB when it is written again. -/
@[irreducible] def shortForm : Bytes := 9 :: List.replicate (3 * 1024 * 1024) 0

theorem length_shortForm : shortForm.length = 3 * 1024 * 1024 + 1 := by
  rw [shortForm, List.length_cons, List.length_replicate]

theorem decode_shortForm : sampleCodec.decode shortForm =
    .ok ⟨none, 1, none, 2 * (3 * 1024 * 1024 + 1)⟩ := by
  have hhead : shortForm.head? = some 9 := by rw [shortForm, List.head?_cons]
  rw [← length_shortForm]
  show decodeSampleDocument shortForm = _
  rw [decodeSampleDocument, if_pos hhead]

theorem documentOf_shortForm : documentOf sampleCodec (some shortForm) =
    ⟨none, 1, none, 2 * (3 * 1024 * 1024 + 1)⟩ := documentOf_of_decode decode_shortForm

theorem length_encode_sample (document : SampleDocument) :
    (sampleCodec.encode document).length =
      (sampleCodec.encode { document with sections := 0 }).length + document.sections :=
  length_encodeFields_number [optionDigits document.updateAttemptId, [document.schemaVersion]]
    (updateFields document.update) document.sections

/-- A pair whose configuration is in the shorter form. -/
def shortPair : ConfigDisk := plainDisk (some shortForm) none

theorem shortPair_config : shortPair.config = some shortForm := rfl

theorem soundPair_shortPair : SoundPair sampleCodec.checks shortPair := by
  refine ⟨⟨rfl, rfl, rfl⟩, fun bytes hbytes => ?_, fun bytes hbytes => by cases hbytes⟩
  rw [← Option.some.inj hbytes]
  refine lawful_sampleCodec.validDocument_iff.mpr ⟨?_, ?_, ?_⟩
  · rw [length_shortForm]
    decide
  · rw [decode_shortForm, documentOf_shortForm]
  · rw [documentOf_shortForm]
    rfl

/-- **Where undo is not exact.**  A save of the default document creates `config.json` although
the document stays the same; two restores after the start of an update attempt lose its id; and a
document that does not fit any more when it is written again cannot be restored. -/
theorem config_undo_limits :
    (documentOf sampleCodec (afterSave sampleCodec (.write sampleCodec.default)
        (plainDisk none none)).config = documentOf sampleCodec none ∧
      (afterSave sampleCodec (.write sampleCodec.default) (plainDisk none none)).config.isSome =
        true) ∧
    ((documentOf sampleCodec (afterSave sampleCodec startAttempt smallPair).config).updateAttemptId =
        some sampleAttemptId ∧
      (documentOf sampleCodec
        (restores 2 (afterSave sampleCodec startAttempt smallPair)).config).updateAttemptId = none) ∧
    (documentOf sampleCodec (afterSave sampleCodec (.write sampleCodec.default) shortPair).config ≠
        documentOf sampleCodec shortPair.config ∧
      ∃ e, (restorePrevious sampleCodec).run []
          (afterSave sampleCodec (.write sampleCodec.default) shortPair) =
        (.error e, afterSave sampleCodec (.write sampleCodec.default) shortPair)) := by
  refine ⟨by decide +kernel, by decide +kernel, ?_⟩
  have hs := soundPair_shortPair
  have hchanged : sampleCodec.default ≠ documentOf sampleCodec (some shortForm) := by
    rw [documentOf_shortForm]
    decide
  -- the default document is saved, since it is small
  have hstores : Stores sampleCodec shortPair sampleCodec.default
      (afterSave sampleCodec (.write sampleCodec.default) shortPair) := by
    have hfits : ∃ t, Stores sampleCodec shortPair sampleCodec.default.revoked t := by
      refine ⟨_, rfl, ⟨rfl, Or.inr ?_⟩, rfl⟩
      rw [savedOver_revoked]
      decide +kernel
    exact afterSave_write lawful_sampleCodec hs hfits
  have hafter : documentOf sampleCodec
      (afterSave sampleCodec (.write sampleCodec.default) shortPair).config =
        sampleCodec.default :=
    (hstores.documentOf_eq lawful_sampleCodec).trans (savedOver_revoked sampleCodec.default _)
  have hdocument : documentOf sampleCodec (afterSave sampleCodec (.write sampleCodec.default)
      shortPair).config ≠ documentOf sampleCodec shortPair.config := by
    rw [hafter]
    exact hchanged
  refine ⟨hdocument, ?_⟩
  have ht := hstores.sound lawful_sampleCodec hs
  have hprevious := previousDocument_eq_ok lawful_sampleCodec hs.config
    (hstores.previous_eq lawful_sampleCodec hdocument).2 rfl
  rcases run_restorePrevious lawful_sampleCodec ht
    (lawful_sampleCodec.validate_documentOf hs.config) hprevious with ⟨t, -, hrestored⟩ | ⟨e, he, -⟩
  · have hlength := hrestored.2.1.2.resolve_left fun hsame => hdocument ?_
    · rw [savedOver_revoked, length_encode_sample] at hlength
      have hsections : (documentOf sampleCodec shortPair.config).revoked.sections =
          2 * (3 * 1024 * 1024 + 1) := by
        rw [shortPair_config, documentOf_shortForm]
        rfl
      rw [hsections] at hlength
      have hlimit : LIMIT = 4 * 1024 * 1024 := rfl
      omega
    · have hrevoked : (documentOf sampleCodec shortPair.config).revoked =
          documentOf sampleCodec shortPair.config := by
        rw [shortPair_config, documentOf_shortForm]
        rfl
      rw [hsame.1, savedOver_revoked, hrevoked]
  · exact ⟨e, he⟩

/-- Undo and redo of a small change. -/
theorem config_undo_exact_of_smallPair :
    let t := afterSave sampleCodec startAttempt smallPair
    ∃ u, (restorePrevious sampleCodec).run [] t = (.ok sampleCodec.default, u) ∧
      t.previous = smallPair.config := by
  intro t
  have hstart : SoundPair sampleCodec.checks smallPair := by
    refine ⟨⟨rfl, rfl, rfl⟩, fun bytes hbytes => ?_, fun bytes hbytes => by cases hbytes⟩
    rw [← Option.some.inj hbytes]
    exact lawful_sampleCodec.validDocument_encode rfl (by decide +kernel)
  obtain ⟨hundo, -, -, hrestore⟩ :=
    config_undo_exact sampleCodec lawful_sampleCodec smallPair hstart [] startAttempt
  have hchanged : documentOf sampleCodec t.config ≠ documentOf sampleCodec smallPair.config := by
    decide +kernel
  rcases hrestore rfl hchanged with ⟨u, hu, -⟩ | ⟨e, -, hrefused⟩
  · exact ⟨u, hu, hundo _ rfl hchanged⟩
  · exact absurd ⟨rfl, Or.inr (by decide +kernel)⟩ hrefused

end DocumentStore

end DshNexus.Config
