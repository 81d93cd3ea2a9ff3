import DshNexus.Config.Undo

/-!
# The rollback of a failed update attempt

`restore_failed_update_ref` of `crates/nexus-core/src/config_transaction.rs`.  An update attempt
saves the tag as its ref and an id that it owns.  When it fails, the ref goes back, unless someone
else has replaced the update settings in between: every such save drops the id.

1. The attempt and its rollback.
2. `Owned`, `Revoked`: a save that leaves the update settings alone keeps the ownership, and every
   other one ends it for good.
3. `run_restoreFailedUpdateRef`: the rollback of an owned configuration.
4. `failed_attempt_undone`: every sequence of later saves.
-/

namespace DshNexus.Config

open Durable Program ConfigStore

namespace DocumentStore

/-! ## 1. The attempt -/

section Calls

variable {ρ : Type} [DecidableEq ρ] (codec : ConfigCodec ρ)

/-- The change of `switch_tag_owned`: the tag becomes the update ref, with a fresh attempt id. -/
def switchTag (tag attemptId : String) : Edit ρ := fun disk document =>
  match disk.config, document.update with
  | none, _ => .error ⟨.notFound, "configuration is missing"⟩
  | some _, none => .error ⟨.notFound, "update is not configured"⟩
  | some _, some spec =>
      .ok { document with
        update := some { spec with refName := tag }
        updateAttemptId := some attemptId }

/-- The document with the original ref and without attempt id. -/
def withOriginalRef (original document : NexusConfigFile ρ) : Except IoError (NexusConfigFile ρ) :=
  match document.update with
  | none => .ok document.revoked
  | some spec =>
      match original.update with
      | none => .error (invalidData "Original update settings missing")
      | some originalSpec =>
          .ok { document with
            update := some { spec with refName := originalSpec.refName }
            updateAttemptId := none }

/-- The undo point that the rollback publishes. -/
def restoredUndo (attempted original : NexusConfigFile ρ) (unchanged : Prop) [Decidable unchanged]
    (originalBytes : Bytes) (originalUndo previous : Option Bytes) :
    Except IoError (Option Bytes) :=
  if unchanged ∧ previous = some originalBytes then .ok originalUndo
  else
    match previous with
    | none => .ok none
    | some bytes => do
        let document ← codec.decode bytes
        if document.updateAttemptId = attempted.updateAttemptId ∧
            document.update = attempted.update then do
          let document ← withOriginalRef original document
          pure (some (codec.encode document))
        else pure (some bytes)

/-- The error of a rollback that finds newer update settings. -/
def updateSettingsChanged : IoError :=
  ⟨.wouldBlock, "Update settings changed concurrently; the newer settings were retained"⟩

def restoreFailedUpdateRef (attempted original : NexusConfigFile ρ) (originalBytes : Bytes)
    (originalUndo : Option Bytes) : ConfigProgram Unit := do
  settlePendingUnlocked codec.checks
  match ← readFile ConfigDisk.config LIMIT with
  | none => throw (invalidData "Current configuration is missing")
  | some currentBytes => do
      let current ← Program.ofExcept (codec.decode currentBytes)
      validateConfigDocument codec current
      if attempted.updateAttemptId = none ∨
          current.updateAttemptId ≠ attempted.updateAttemptId ∨
          current.update ≠ attempted.update then
        throw updateSettingsChanged
      else do
        let observed ← readFile ConfigDisk.previous LIMIT
        let previous ← Program.ofExcept (restoredUndo codec attempted original
          (current = attempted) originalBytes originalUndo observed)
        let restored ← Program.ofExcept (withOriginalRef original current)
        let target := if current = attempted then originalBytes else codec.encode restored
        publishConfigPair codec.checks target false (some ⟨previous⟩)
          (some (currentBytes, observed))

end Calls

/-! ## 2. Ownership -/

section Ownership

variable {ρ : Type} [DecidableEq ρ] {codec : ConfigCodec ρ} {s started : ConfigDisk}
  {d attempted original : NexusConfigFile ρ} {attemptId : String}

/-- The save does not bring in the id of somebody else's attempt. -/
def Save.Foreign (attemptId : String) : Save ρ → Prop
  | .transaction update | .transactionIfRevision _ update => ∀ disk old new,
      update disk old = .ok new → new.updateAttemptId = some attemptId →
        old.updateAttemptId = some attemptId
  | _ => True

/-- The save replaces the update settings explicitly: a save of a whole document does, and so does
a transaction that changes them or drops the attempt id, as `set_update` does. -/
def Save.Explicit (codec : ConfigCodec ρ) (s : ConfigDisk) : Save ρ → Prop
  | .transaction update | .transactionIfRevision _ update => ∃ new,
      update s (documentOf codec s.config) = .ok new ∧
        (new.update ≠ (documentOf codec s.config).update ∨
          new.updateAttemptId ≠ (documentOf codec s.config).updateAttemptId)
  | _ => True

def Save.Succeeds (codec : ConfigCodec ρ) (s : ConfigDisk) (save : Save ρ) : Prop :=
  ∃ d, save.Requests codec s d ∧ Stores codec s d (afterSave codec save s)

/-- The document belongs to the attempt: it has its id and its update settings. -/
def OwnedBy (attempted document : NexusConfigFile ρ) : Prop :=
  document.updateAttemptId = attempted.updateAttemptId ∧ document.update = attempted.update

/-- The configuration belongs to the attempt, and nothing was saved since, or the undo point
belongs to the attempt too. -/
structure Owned (codec : ConfigCodec ρ) (attempted : NexusConfigFile ρ) (started s : ConfigDisk) :
    Prop where
  sound : SoundPair codec.checks s
  config : s.config.isSome = true
  current : OwnedBy attempted (documentOf codec s.config)
  previous : s = started ∨ s.previous.isSome = true ∧
    OwnedBy attempted (documentOf codec s.previous)

/-- The configuration does not belong to the attempt any more. -/
structure Revoked (codec : ConfigCodec ρ) (attemptId : String) (s : ConfigDisk) : Prop where
  sound : SoundPair codec.checks s
  current : (documentOf codec s.config).updateAttemptId ≠ some attemptId

omit [DecidableEq ρ] in
theorem Save.Requests.foreign {save : Save ρ} (hrequests : save.Requests codec s d)
    (hforeign : save.Foreign attemptId) (hid : d.updateAttemptId = some attemptId) :
    (documentOf codec s.config).updateAttemptId = some attemptId := by
  have hrevoked : ∀ document : NexusConfigFile ρ, document.revoked = d →
      (documentOf codec s.config).updateAttemptId = some attemptId := by
    rintro document rfl
    cases hid
  have hprevious : previousDocument codec s = .ok d →
      (documentOf codec s.config).updateAttemptId = some attemptId := by
    intro h
    obtain ⟨file, -, h⟩ := bind_eq_ok h
    rcases file with _ | bytes
    · cases h
    · obtain ⟨document, -, h⟩ := bind_eq_ok h
      exact hrevoked document (Except.ok.inj h)
  cases save with
  | write document => exact hrevoked document hrequests
  | writeIfCurrent expected document => exact hrevoked document hrequests.2.2
  | transaction update => exact hforeign s _ d hrequests hid
  | transactionIfRevision expected update => exact hforeign s _ d hrequests.2 hid
  | restorePrevious => exact hprevious hrequests
  | restorePreviousIfRevision expected => exact hprevious hrequests.2

omit [DecidableEq ρ] in
theorem updateAttemptId_savedOver (d old : NexusConfigFile ρ) :
    (d.savedOver old).updateAttemptId = d.updateAttemptId ∨
      (d.savedOver old).updateAttemptId = none := by
  unfold NexusConfigFile.savedOver
  split
  · exact Or.inr rfl
  · exact Or.inl rfl

theorem Revoked.afterSave (hlaw : codec.Lawful) {save : Save ρ}
    (hforeign : save.Foreign attemptId) (h : Revoked codec attemptId s) :
    Revoked codec attemptId (afterSave codec save s) := by
  refine ⟨soundPair_afterSave hlaw h.sound save, fun hid => ?_⟩
  rcases afterSave_cases hlaw h.sound save with ⟨d, hrequests, hstores⟩ | heq
  · rw [hstores.documentOf_eq hlaw] at hid
    rcases updateAttemptId_savedOver d (documentOf codec s.config) with hkeep | hdrop
    · exact h.current (hrequests.foreign hforeign (hkeep ▸ hid))
    · rw [hdrop] at hid
      cases hid
  · rw [heq] at hid
    exact h.current hid

omit [DecidableEq ρ] in
theorem Save.Requests.keeps_of_not_explicit {save : Save ρ} (hrequests : save.Requests codec s d)
    (hexplicit : ¬ save.Explicit codec s) :
    d.update = (documentOf codec s.config).update ∧
      d.updateAttemptId = (documentOf codec s.config).updateAttemptId := by
  have hedit : ∀ update : Edit ρ, update s (documentOf codec s.config) = .ok d →
      (¬ ∃ new, update s (documentOf codec s.config) = .ok new ∧
        (new.update ≠ (documentOf codec s.config).update ∨
          new.updateAttemptId ≠ (documentOf codec s.config).updateAttemptId)) →
      d.update = (documentOf codec s.config).update ∧
        d.updateAttemptId = (documentOf codec s.config).updateAttemptId := by
    intro update hok hnone
    have hsame : ¬ (d.update ≠ (documentOf codec s.config).update ∨
        d.updateAttemptId ≠ (documentOf codec s.config).updateAttemptId) :=
      fun h => hnone ⟨d, hok, h⟩
    rw [not_or, not_not, not_not] at hsame
    exact hsame
  cases save with
  | write document => exact absurd trivial hexplicit
  | writeIfCurrent expected document => exact absurd trivial hexplicit
  | transaction update => exact hedit update hrequests hexplicit
  | transactionIfRevision expected update => exact hedit update hrequests.2 hexplicit
  | restorePrevious => exact absurd trivial hexplicit
  | restorePreviousIfRevision expected => exact absurd trivial hexplicit

theorem Owned.afterSave (hlaw : codec.Lawful) {save : Save ρ}
    (h : Owned codec attempted started s)
    (halone : save.Succeeds codec s → ¬ save.Explicit codec s) :
    Owned codec attempted started (afterSave codec save s) := by
  have hsound := soundPair_afterSave hlaw h.sound save
  rcases afterSave_cases hlaw h.sound save with ⟨d, hrequests, hstores⟩ | heq
  · obtain ⟨hupdate, hid⟩ := hrequests.keeps_of_not_explicit (halone ⟨d, hrequests, hstores⟩)
    have hsaved : d.savedOver (documentOf codec s.config) = d := by
      rw [NexusConfigFile.savedOver, if_neg fun hrevokes => hrevokes.1 hupdate.symm]
    have hdocument := hstores.documentOf_eq hlaw
    rw [hsaved] at hdocument
    by_cases hchanged : documentOf codec (DocumentStore.afterSave codec save s).config =
        documentOf codec s.config
    · rw [hstores.eq_of_unchanged hlaw hchanged h.config]
      exact h
    · obtain ⟨hconfig, hprevious⟩ := hstores.previous_eq hlaw hchanged
      rw [if_pos h.config] at hprevious
      refine ⟨hsound, hconfig, ?_, Or.inr ?_⟩
      · rw [hdocument]
        exact ⟨hid.trans h.current.1, hupdate.trans h.current.2⟩
      · rw [hprevious]
        exact ⟨h.config, h.current⟩
  · rw [heq]
    exact h

omit [DecidableEq ρ] in
theorem Save.Requests.revokes {save : Save ρ} (hrequests : save.Requests codec s d)
    (hexplicit : save.Explicit codec s)
    (hcurrent : (documentOf codec s.config).updateAttemptId = some attemptId) :
    (d.savedOver (documentOf codec s.config)).updateAttemptId ≠ some attemptId := by
  have hrevoked : ∀ document : NexusConfigFile ρ, document.revoked = d →
      (d.savedOver (documentOf codec s.config)).updateAttemptId ≠ some attemptId := by
    rintro document rfl
    rw [savedOver_revoked]
    exact nofun
  have hprevious : previousDocument codec s = .ok d →
      (d.savedOver (documentOf codec s.config)).updateAttemptId ≠ some attemptId := by
    intro h
    obtain ⟨file, -, h⟩ := bind_eq_ok h
    rcases file with _ | bytes
    · cases h
    · obtain ⟨document, -, h⟩ := bind_eq_ok h
      exact hrevoked document (Except.ok.inj h)
  have hedit : ∀ update : Edit ρ, update s (documentOf codec s.config) = .ok d →
      (∃ new, update s (documentOf codec s.config) = .ok new ∧
        (new.update ≠ (documentOf codec s.config).update ∨
          new.updateAttemptId ≠ (documentOf codec s.config).updateAttemptId)) →
      (d.savedOver (documentOf codec s.config)).updateAttemptId ≠ some attemptId := by
    rintro update hok ⟨new, hnew, hdiffers⟩
    rw [hok] at hnew
    obtain rfl := Except.ok.inj hnew
    unfold NexusConfigFile.savedOver
    split
    · exact nofun
    · next hkept =>
      rw [not_and_or, not_not] at hkept
      rcases hdiffers with hupdate | hid
      · rw [← hcurrent]
        exact fun heq => (hkept.resolve_left fun h => hupdate h.symm) heq.symm
      · rw [← hcurrent]
        exact hid
  cases save with
  | write document => exact hrevoked document hrequests
  | writeIfCurrent expected document => exact hrevoked document hrequests.2.2
  | transaction update => exact hedit update hrequests hexplicit
  | transactionIfRevision expected update => exact hedit update hrequests.2 hexplicit
  | restorePrevious => exact hprevious hrequests
  | restorePreviousIfRevision expected => exact hprevious hrequests.2

theorem revoked_of_explicit (hlaw : codec.Lawful) {save : Save ρ}
    (hforeign : save.Foreign attemptId) (hsound : SoundPair codec.checks s)
    (hsucceeds : save.Succeeds codec s) (hexplicit : save.Explicit codec s) :
    Revoked codec attemptId (afterSave codec save s) := by
  by_cases hcurrent : (documentOf codec s.config).updateAttemptId = some attemptId
  · obtain ⟨d, hrequests, hstores⟩ := hsucceeds
    refine ⟨soundPair_afterSave hlaw hsound save, ?_⟩
    rw [hstores.documentOf_eq hlaw]
    exact hrequests.revokes hexplicit hcurrent
  · exact Revoked.afterSave hlaw hforeign ⟨hsound, hcurrent⟩

end Ownership

/-! ## 3. The rollback -/

section Rollback

variable {ρ : Type} [DecidableEq ρ] {codec : ConfigCodec ρ} {start started s : ConfigDisk}
  {attempted document : NexusConfigFile ρ} {tag attemptId : String} {originalBytes : Bytes}

/-- What a successful start of an attempt leaves. -/
structure Attempt (codec : ConfigCodec ρ) (start : ConfigDisk) (originalBytes : Bytes)
    (tag attemptId : String) (attempted : NexusConfigFile ρ) (started : ConfigDisk) : Prop where
  sound : SoundPair codec.checks start
  config : start.config = some originalBytes
  fresh : (documentOf codec start.config).updateAttemptId ≠ some attemptId
  valid : codec.validate attempted = .ok ()
  update : ∃ spec, (documentOf codec start.config).update = some spec ∧
    attempted = { documentOf codec start.config with
      update := some { spec with refName := tag }
      updateAttemptId := some attemptId }
  started_eq : started = { start with
    config := some (codec.encode attempted)
    previous := some originalBytes }
  length : (codec.encode attempted).length ≤ LIMIT

theorem attempt_of_run (hlaw : codec.Lawful) (hstart : SoundPair codec.checks start)
    (hconfig : start.config = some originalBytes)
    (hfresh : (documentOf codec start.config).updateAttemptId ≠ some attemptId)
    (hrun : (transaction codec (switchTag tag attemptId)).run [] start = (.ok attempted, started)) :
    Attempt codec start originalBytes tag attemptId attempted started := by
  have hsettles := @settles_transaction _ _ codec _ (switchTag tag attemptId)
    (Q := fun d t => ∃ d', switchTag tag attemptId start (documentOf codec start.config) = .ok d' ∧
      Stores codec start d' t ∧ d = documentOf codec t.config) (E := fun _ _ => True) hlaw hstart
    (fun d hd t hstores => ⟨d, hd, hstores, rfl⟩) fun _ _ => trivial
  have hmeets := (settles_iff_run _ _ _ _).mp hsettles
  rw [hrun] at hmeets
  obtain ⟨d, hswitch, hstores, hattempted⟩ := hmeets
  rw [switchTag, hconfig] at hswitch
  cases hupdate : (documentOf codec (some originalBytes)).update with
  | none => rw [hupdate] at hswitch; cases hswitch
  | some spec =>
    rw [hupdate] at hswitch
    have hd := Except.ok.inj hswitch
    rw [← hconfig] at hd hupdate
    have hid : d.updateAttemptId = some attemptId := by rw [← hd]
    have hsaved : d.savedOver (documentOf codec start.config) = d := by
      rw [NexusConfigFile.savedOver, if_neg]
      rintro ⟨-, hsame⟩
      exact hfresh (hsame.trans hid)
    rw [hstores.documentOf_eq hlaw, hsaved] at hattempted
    obtain ⟨hvalid, haccepted, hwritten⟩ := hstores
    rw [hsaved] at haccepted hwritten
    have hchanged : ¬ (documentOf codec start.config = d ∧ start.config.isSome = true) := by
      rintro ⟨hsame, -⟩
      exact hfresh (by rw [hsame, hid])
    rw [hattempted]
    refine ⟨hstart, hconfig, hfresh, hvalid, ⟨spec, hupdate, hd.symm⟩, ?_,
      haccepted.2.resolve_left hchanged⟩
    rw [hwritten, written, if_neg hchanged, hconfig]
    rfl

omit [DecidableEq ρ] in
theorem Attempt.attemptId_eq
    (h : Attempt codec start originalBytes tag attemptId attempted started) :
    attempted.updateAttemptId = some attemptId := by
  obtain ⟨spec, -, hattempted⟩ := h.update
  rw [hattempted]

omit [DecidableEq ρ] in
theorem Attempt.owned (hlaw : codec.Lawful)
    (h : Attempt codec start originalBytes tag attemptId attempted started) :
    Owned codec attempted started started := by
  have hconfig : started.config = some (codec.encode attempted) := by rw [h.started_eq]
  have hdocument : documentOf codec started.config = attempted := by
    rw [hconfig]
    exact hlaw.documentOf_encode h.valid
  refine ⟨⟨?_, fun bytes hbytes => ?_, fun bytes hbytes => ?_⟩, by rw [hconfig]; rfl, ?_,
    Or.inl rfl⟩
  · rw [h.started_eq]
    exact ⟨h.sound.quiet.pending, h.sound.quiet.preserve, h.sound.quiet.outerPublication⟩
  · rw [hconfig] at hbytes
    rw [← Option.some.inj hbytes]
    exact hlaw.validDocument_encode h.valid h.length
  · rw [h.started_eq] at hbytes
    rw [← Option.some.inj hbytes]
    exact h.sound.config _ h.config
  · rw [hdocument]
    exact ⟨rfl, rfl⟩

omit [DecidableEq ρ] in
theorem Attempt.withOriginalRef_eq
    (h : Attempt codec start originalBytes tag attemptId attempted started)
    (howned : OwnedBy attempted document) :
    withOriginalRef (documentOf codec start.config) document =
      .ok (document.setUpdate (documentOf codec start.config).update) := by
  obtain ⟨spec, hspec, hattempted⟩ := h.update
  have hupdate : document.update = some { spec with refName := tag } := by
    rw [howned.2, hattempted]
  rw [withOriginalRef, hupdate, hspec]
  rfl

omit [DecidableEq ρ] in
theorem validate_setUpdate {original : NexusConfigFile ρ}
    (hdocument : codec.validate document = .ok ()) (horiginal : codec.validate original = .ok ()) :
    codec.validate (document.setUpdate original.update) = .ok () := by
  obtain ⟨-, hschema, -, hsections⟩ := ConfigCodec.validate_eq_ok.mp hdocument
  obtain ⟨-, -, hupdate, -⟩ := ConfigCodec.validate_eq_ok.mp horiginal
  exact ConfigCodec.validate_eq_ok.mpr ⟨rfl, hschema, hupdate, hsections⟩

/-- What the rollback writes to `config.json`. -/
def rollbackTarget (codec : ConfigCodec ρ) (start : ConfigDisk) (originalBytes : Bytes)
    (attempted : NexusConfigFile ρ) (s : ConfigDisk) : Bytes :=
  if documentOf codec s.config = attempted then originalBytes
  else codec.encode
    ((documentOf codec s.config).setUpdate (documentOf codec start.config).update)

def rollbackUndo (codec : ConfigCodec ρ) (start started s : ConfigDisk) : Option Bytes :=
  if s = started then start.previous
  else some (codec.encode
    ((documentOf codec s.previous).setUpdate (documentOf codec start.config).update))

theorem Attempt.restoredUndo_eq (hlaw : codec.Lawful)
    (h : Attempt codec start originalBytes tag attemptId attempted started)
    (howned : Owned codec attempted started s) :
    restoredUndo codec attempted (documentOf codec start.config)
      (documentOf codec s.config = attempted) originalBytes start.previous s.previous =
        .ok (rollbackUndo codec start started s) := by
  unfold restoredUndo rollbackUndo
  by_cases hstarted : s = started
  · have hprevious : started.previous = some originalBytes := by rw [h.started_eq]
    have hdocument : documentOf codec started.config = attempted := by
      rw [h.started_eq]
      exact hlaw.documentOf_encode h.valid
    rw [hstarted, if_pos ⟨hdocument, hprevious⟩, if_pos rfl]
  · obtain ⟨hsome, hprevious⟩ := howned.previous.resolve_left hstarted
    obtain ⟨bytes, hbytes⟩ := Option.isSome_iff_exists.mp hsome
    -- the original document does not belong to the attempt
    have hother : s.previous ≠ some originalBytes := by
      intro heq
      rw [heq, ← h.config] at hprevious
      exact h.fresh (hprevious.1.trans h.attemptId_eq)
    rw [if_neg fun hboth => hother hboth.2, if_neg hstarted, hbytes]
    obtain ⟨-, hdecode, -⟩ := hlaw.validDocument_iff.mp (howned.sound.previous bytes hbytes)
    rw [hbytes] at hprevious
    show (codec.decode bytes >>= _) = _
    rw [hdecode]
    show (if _ then _ else _ : Except IoError (Option Bytes)) = _
    have howner : (documentOf codec (some bytes)).updateAttemptId = attempted.updateAttemptId ∧
        (documentOf codec (some bytes)).update = attempted.update := hprevious
    rw [if_pos howner, h.withOriginalRef_eq hprevious]
    rfl

/-- **The rollback of an owned configuration** publishes the original settings in both documents
if they fit, and else changes nothing. -/
theorem run_restoreFailedUpdateRef (hlaw : codec.Lawful)
    (h : Attempt codec start originalBytes tag attemptId attempted started)
    (howned : Owned codec attempted started s) :
    let target := rollbackTarget codec start originalBytes attempted s
    let undo := rollbackUndo codec start started s
    let run := (restoreFailedUpdateRef codec attempted (documentOf codec start.config)
      originalBytes start.previous).run [] s
    (PublicationFits target (some ⟨undo⟩) ∧
        run = (.ok (), { s with config := some target, previous := undo })) ∨
      ¬ PublicationFits target (some ⟨undo⟩) ∧ ∃ e, run = (.error e, s) := by
  intro target undo run
  obtain ⟨current, hcurrent⟩ := Option.isSome_iff_exists.mp howned.config
  obtain ⟨-, hdecode, hvalid⟩ := hlaw.validDocument_iff.mp (howned.sound.config current hcurrent)
  rw [← hcurrent] at hdecode hvalid
  have horiginal : codec.validate (documentOf codec start.config) = .ok () :=
    hlaw.validate_documentOf h.sound.config
  have hsettles : (restoreFailedUpdateRef codec attempted (documentOf codec start.config)
      originalBytes start.previous).settles
        (fun _ t => PublicationFits target (some ⟨undo⟩) ∧
          t = { s with config := some target, previous := undo })
        (fun _ t => ¬ PublicationFits target (some ⟨undo⟩) ∧ t = s) s := by
    rw [restoreFailedUpdateRef, settles_bind]
    refine settles_of_returns (returns_settlePendingUnlocked howned.sound.quiet ?_)
    rw [settles_bind]
    refine settles_of_returns (returns_readFile_of_valid howned.sound.config ?_)
    rw [hcurrent]
    dsimp only
    rw [settles_bind, hdecode]
    show (validateConfigDocument codec (documentOf codec s.config) >>= _).settles _ _ s
    rw [settles_bind]
    refine settles_of_returns (returns_validateConfigDocument hvalid ?_)
    rw [if_neg]
    · rw [settles_bind]
      refine settles_of_returns (returns_readFile_of_valid howned.sound.previous ?_)
      rw [settles_bind, h.restoredUndo_eq hlaw howned]
      show (Program.ofExcept (withOriginalRef _ _) >>= _).settles _ _ s
      rw [settles_bind, h.withOriginalRef_eq howned.current]
      refine settles_publishConfigPair hlaw.encodedLength_le howned.sound ?_ ?_ ?_
      · split
        · exact (h.sound.config originalBytes h.config).2
        · have hrestored := validate_setUpdate hvalid horiginal
          rw [hlaw.validateDocument_eq, hlaw.decode_encode _ hrestored]
          exact hrestored
      · intro bytes hbytes
        change rollbackUndo codec start started s = some bytes at hbytes
        unfold rollbackUndo at hbytes
        split at hbytes
        · exact (h.sound.previous bytes hbytes).2
        · have hrestored := validate_setUpdate
            (hlaw.validate_documentOf howned.sound.previous) horiginal
          rw [← Option.some.inj hbytes, hlaw.validateDocument_eq, hlaw.decode_encode _ hrestored]
          exact hrestored
      · rintro pair hpair
        rw [← Option.some.inj hpair]
        exact ⟨hcurrent, rfl⟩
    · rw [h.attemptId_eq, not_or, not_or, not_not, not_not, ← h.attemptId_eq]
      exact ⟨by rw [h.attemptId_eq]; exact nofun, howned.current⟩
  have hmeets := (settles_iff_run _ _ _ _).mp hsettles
  rcases hr : run with ⟨_ | e | _, t⟩
  · rw [show Program.run _ [] s = run from rfl, hr] at hmeets
    obtain ⟨hfits, rfl⟩ := hmeets
    exact Or.inl ⟨hfits, rfl⟩
  · rw [show Program.run _ [] s = run from rfl, hr] at hmeets
    obtain ⟨hlong, rfl⟩ := hmeets
    exact Or.inr ⟨hlong, e, rfl⟩
  · rw [show Program.run _ [] s = run from rfl, hr] at hmeets
    exact hmeets.elim

theorem run_restoreFailedUpdateRef_of_revoked (hid : attempted.updateAttemptId = some attemptId)
    (original : NexusConfigFile ρ) (originalBytes : Bytes) (originalUndo : Option Bytes)
    (hlaw : codec.Lawful) (h : Revoked codec attemptId s) :
    ∃ e, (restoreFailedUpdateRef codec attempted original originalBytes originalUndo).run [] s =
      (.error e, s) := by
  have hsettles : (restoreFailedUpdateRef codec attempted original originalBytes
      originalUndo).settles (fun _ _ => False) (fun _ t => t = s) s := by
    rw [restoreFailedUpdateRef, settles_bind]
    refine settles_of_returns (returns_settlePendingUnlocked h.sound.quiet ?_)
    rw [settles_bind]
    refine settles_of_returns (returns_readFile_of_valid h.sound.config ?_)
    cases hcurrent : s.config with
    | none => exact rfl
    | some current =>
      obtain ⟨-, hdecode, hvalid⟩ := hlaw.validDocument_iff.mp (h.sound.config current hcurrent)
      dsimp only
      rw [settles_bind, hdecode]
      show (validateConfigDocument codec (documentOf codec (some current)) >>= _).settles _ _ s
      rw [settles_bind]
      refine settles_of_returns (returns_validateConfigDocument hvalid ?_)
      rw [if_pos]
      · exact rfl
      · rw [hid, ← hcurrent]
        exact Or.inr (Or.inl h.current)
  have hmeets := (settles_iff_run _ _ _ _).mp hsettles
  rcases hr : (restoreFailedUpdateRef codec attempted original originalBytes originalUndo).run [] s
    with ⟨_ | e | _, t⟩ <;> rw [hr] at hmeets
  · exact hmeets.elim
  · exact ⟨e, by rw [hmeets]⟩
  · exact hmeets.elim

end Rollback

/-! ## 4. Later saves -/

section Runs

variable {ρ : Type} [DecidableEq ρ] {codec : ConfigCodec ρ} {start started : ConfigDisk}
  {attempted : NexusConfigFile ρ} {tag attemptId : String} {originalBytes : Bytes}

/-- No save of the run replaces the update settings explicitly. -/
def LeftAlone (codec : ConfigCodec ρ) (saves : List (Save ρ)) (s : ConfigDisk) : Prop :=
  ∀ before save after, saves = before ++ save :: after →
    save.Succeeds codec (afterSaves codec before s) →
      ¬ save.Explicit codec (afterSaves codec before s)

/-- Some save of the run replaces the update settings explicitly. -/
def Replaced (codec : ConfigCodec ρ) (saves : List (Save ρ)) (s : ConfigDisk) : Prop :=
  ∃ before save after, saves = before ++ save :: after ∧
    save.Succeeds codec (afterSaves codec before s) ∧
      save.Explicit codec (afterSaves codec before s)

theorem owned_afterSaves (hlaw : codec.Lawful) (saves : List (Save ρ)) :
    ∀ s, Owned codec attempted started s → LeftAlone codec saves s →
      Owned codec attempted started (afterSaves codec saves s) := by
  induction saves with
  | nil => exact fun s h _ => h
  | cons save saves ih =>
    intro s h halone
    refine ih _ (h.afterSave hlaw (halone [] save saves rfl)) fun before save' after hsplit => ?_
    exact halone (save :: before) save' after (by rw [hsplit]; rfl)

theorem revoked_afterSaves (hlaw : codec.Lawful) (saves : List (Save ρ)) :
    ∀ s, (∀ save ∈ saves, save.Foreign attemptId) → Revoked codec attemptId s →
      Revoked codec attemptId (afterSaves codec saves s) := by
  induction saves with
  | nil => exact fun s _ h => h
  | cons save saves ih =>
    intro s hforeign h
    exact ih _ (fun save' hsave => hforeign save' (List.mem_cons_of_mem _ hsave))
      (h.afterSave hlaw (hforeign save (List.mem_cons_self ..)))

theorem revoked_of_replaced (hlaw : codec.Lawful) {saves : List (Save ρ)} {s : ConfigDisk}
    (hsound : SoundPair codec.checks s) (hforeign : ∀ save ∈ saves, save.Foreign attemptId)
    (h : Replaced codec saves s) : Revoked codec attemptId (afterSaves codec saves s) := by
  obtain ⟨before, save, after, rfl, hsucceeds, hexplicit⟩ := h
  have hsave : save.Foreign attemptId :=
    hforeign save (List.mem_append_right _ (List.mem_cons_self ..))
  have hrevoked := revoked_of_explicit hlaw hsave (soundPair_afterSaves hlaw before s hsound)
    hsucceeds hexplicit
  have hrest := revoked_afterSaves hlaw after _ (fun save' hafter =>
    hforeign save' (List.mem_append_right _ (List.mem_cons_of_mem _ hafter))) hrevoked
  rw [afterSaves, List.foldl_append]
  exact hrest

theorem documentOf_rollbackTarget (hlaw : codec.Lawful)
    (h : Attempt codec start originalBytes tag attemptId attempted started) {s : ConfigDisk}
    (howned : Owned codec attempted started s) :
    documentOf codec (some (rollbackTarget codec start originalBytes attempted s)) =
      { documentOf codec s.config with
        update := (documentOf codec start.config).update
        updateAttemptId := if documentOf codec s.config = attempted then
          (documentOf codec start.config).updateAttemptId else none } := by
  unfold rollbackTarget
  split
  · next hunchanged =>
    obtain ⟨spec, hspec, hattempted⟩ := h.update
    rw [hunchanged, hattempted, ← h.config]
  · exact hlaw.documentOf_encode (validate_setUpdate
      (hlaw.validate_documentOf howned.sound.config) (hlaw.validate_documentOf h.sound.config))

/-- **The rollback of a failed attempt undoes only that attempt.**  After every sequence of later
saves without crashes:

* if nothing was saved, both files are as they were before the attempt;
* if the update settings were left alone, the document and the undo point get the original ref
  and lose the attempt id, unless one of the two does not fit any more, and then nothing changes;
* if the update settings were replaced, it fails and changes nothing. -/
theorem failed_attempt_undone (codec : ConfigCodec ρ) (hlaw : codec.Lawful) (start : ConfigDisk)
    (hstart : SoundPair codec.checks start) (originalBytes : Bytes)
    (hconfig : start.config = some originalBytes) (tag attemptId : String)
    (hfresh : (documentOf codec start.config).updateAttemptId ≠ some attemptId)
    (attempted : NexusConfigFile ρ) (started : ConfigDisk)
    (hattempt : (transaction codec (switchTag tag attemptId)).run [] start =
      (.ok attempted, started))
    (later : List (Save ρ)) (hforeign : ∀ save ∈ later, save.Foreign attemptId) :
    let original := documentOf codec start.config
    let s := afterSaves codec later started
    let current := documentOf codec s.config
    let call := restoreFailedUpdateRef codec attempted original originalBytes start.previous
    (s = started → call.run [] s = (.ok (), start)) ∧
    (LeftAlone codec later started →
      (∃ spec, original.update = some spec ∧ current.update = some { spec with refName := tag }) ∧
      ((∃ u, call.run [] s = (.ok (), u) ∧
          documentOf codec u.config = { current with
            update := original.update
            updateAttemptId := if current = attempted then original.updateAttemptId else none } ∧
          (s ≠ started → (documentOf codec s.previous).updateAttemptId = some attemptId ∧
            (documentOf codec s.previous).update = current.update ∧
            documentOf codec u.previous =
              (documentOf codec s.previous).setUpdate original.update)) ∨
        (∃ e, call.run [] s = (.error e, s)) ∧ s ≠ started ∧
          (LIMIT < (codec.encode (current.setUpdate original.update)).length ∨
            LIMIT < (codec.encode
              ((documentOf codec s.previous).setUpdate original.update)).length))) ∧
    (Replaced codec later started → ∃ e, call.run [] s = (.error e, s)) := by
  intro original s current call
  have h := attempt_of_run hlaw hstart hconfig hfresh hattempt
  have hrollback : Owned codec attempted started s → _ := fun howned =>
    run_restoreFailedUpdateRef hlaw h howned
  have hback : s = started → PublicationFits (rollbackTarget codec start originalBytes attempted s)
      (some ⟨rollbackUndo codec start started s⟩) ∧
      { s with
        config := some (rollbackTarget codec start originalBytes attempted s)
        previous := rollbackUndo codec start started s } = start := by
    intro heq
    have hdocument : documentOf codec started.config = attempted := by
      rw [h.started_eq]
      exact hlaw.documentOf_encode h.valid
    rw [heq, rollbackTarget, if_pos hdocument, rollbackUndo, if_pos rfl]
    refine ⟨⟨(hstart.config _ hconfig).1, fun bytes hbytes => (hstart.previous bytes hbytes).1⟩, ?_⟩
    rw [h.started_eq, ← hconfig]
  refine ⟨fun heq => ?_, fun halone => ?_, fun hreplaced => ?_⟩
  · have howned : Owned codec attempted started s := by
      rw [heq]
      exact h.owned hlaw
    obtain ⟨hfits, hsame⟩ := hback heq
    rcases hrollback howned with ⟨-, hrun⟩ | ⟨hlong, -⟩
    · rw [hsame] at hrun
      exact hrun
    · exact absurd hfits hlong
  · have howned : Owned codec attempted started s :=
      owned_afterSaves hlaw later started (h.owned hlaw) halone
    obtain ⟨spec, hspec, hattempted⟩ := h.update
    have hupdate : current.update = some { spec with refName := tag } := by
      show (documentOf codec s.config).update = _
      rw [howned.current.2, hattempted]
    refine ⟨⟨spec, hspec, hupdate⟩, ?_⟩
    rcases hrollback howned with ⟨-, hrun⟩ | ⟨hlong, hrun⟩
    · refine Or.inl ⟨_, hrun, documentOf_rollbackTarget hlaw h howned, fun hne => ?_⟩
      obtain ⟨-, hprevious⟩ := howned.previous.resolve_left hne
      refine ⟨hprevious.1.trans h.attemptId_eq, hprevious.2.trans howned.current.2.symm, ?_⟩
      show documentOf codec (rollbackUndo codec start started s) = _
      rw [rollbackUndo, if_neg hne]
      exact hlaw.documentOf_encode (validate_setUpdate
        (hlaw.validate_documentOf howned.sound.previous)
        (hlaw.validate_documentOf h.sound.config))
    · refine Or.inr ⟨hrun, fun heq => hlong (hback heq).1, ?_⟩
      by_contra hshort
      rw [not_or, not_lt, not_lt] at hshort
      refine hlong ⟨?_, fun bytes hbytes => ?_⟩
      · unfold rollbackTarget
        split
        · exact (hstart.config _ hconfig).1
        · exact hshort.1
      · change rollbackUndo codec start started s = some bytes at hbytes
        unfold rollbackUndo at hbytes
        split at hbytes
        · exact (hstart.previous bytes hbytes).1
        · rw [← Option.some.inj hbytes]
          exact hshort.2
  · exact run_restoreFailedUpdateRef_of_revoked h.attemptId_eq original originalBytes
      start.previous hlaw (revoked_of_replaced hlaw (h.owned hlaw).sound hforeign hreplaced)

end Runs

/-! ## A document that grows -/

/-- Update settings whose ref takes more space than an attempt id. -/
def longSpec : UpdateSpec :=
  ⟨"https://example.com/repo.git", String.ofList (List.replicate 40 'z'), "git", none, [], none, [],
    none⟩

def longDocument : SampleDocument := ⟨none, 1, some longSpec, 0⟩

def longAttempted : SampleDocument :=
  ⟨some sampleAttemptId, 1, some { longSpec with refName := "v2" }, 0⟩

def longPair : ConfigDisk := plainDisk (some (sampleCodec.encode longDocument)) none

/-- The pair after the start of the attempt. -/
def longStarted : ConfigDisk :=
  plainDisk (some (sampleCodec.encode longAttempted)) (some (sampleCodec.encode longDocument))

theorem soundPair_longPair : SoundPair sampleCodec.checks longPair := by
  refine ⟨⟨rfl, rfl, rfl⟩, fun bytes hbytes => ?_, fun bytes hbytes => by cases hbytes⟩
  rw [← Option.some.inj hbytes]
  exact lawful_sampleCodec.validDocument_encode (by decide +kernel) (by decide +kernel)

theorem documentOf_longPair : documentOf sampleCodec longPair.config = longDocument :=
  lawful_sampleCodec.documentOf_encode (by decide +kernel)

theorem run_longAttempt :
    (transaction sampleCodec (switchTag "v2" sampleAttemptId)).run [] longPair =
      (.ok longAttempted, longStarted) := by
  decide +kernel

/-- A failed attempt with nothing saved after it leaves no trace. -/
theorem failed_attempt_undone_of_longPair :
    (restoreFailedUpdateRef sampleCodec longAttempted longDocument
      (sampleCodec.encode longDocument) none).run [] longStarted = (.ok (), longPair) := by
  have hundone := (failed_attempt_undone sampleCodec lawful_sampleCodec longPair soundPair_longPair
    (sampleCodec.encode longDocument) rfl "v2" sampleAttemptId
    (by rw [documentOf_longPair]; decide) longAttempted longStarted run_longAttempt []
    (fun save hsave => absurd hsave List.not_mem_nil)).1 rfl
  rw [documentOf_longPair] at hundone
  exact hundone

theorem validate_withSections {document : SampleDocument}
    (h : sampleCodec.validate document = .ok ()) (n : Nat) :
    sampleCodec.validate { document with sections := n } = .ok () := by
  obtain ⟨hid, hschema, hupdate, -⟩ := ConfigCodec.validate_eq_ok.mp h
  exact ConfigCodec.validate_eq_ok.mpr ⟨hid, hschema, hupdate, rfl⟩

theorem length_encode_withSections (document : SampleDocument) (h : document.sections = 0)
    (n : Nat) : (sampleCodec.encode { document with sections := n }).length =
      (sampleCodec.encode document).length + n := by
  have hzero : { document with sections := 0 } = document := by rw [← h]
  rw [length_encode_sample]
  change (sampleCodec.encode { document with sections := 0 }).length + n = _
  rw [hzero]

theorem withSections_ne (document : SampleDocument) (h : document.sections = 0) {n : Nat}
    (hn : 0 < n) : { document with sections := n } ≠ document := by
  intro heq
  have hsections : n = document.sections := congrArg NexusConfigFile.sections heq
  omega

theorem afterSaves_singleton (save : Save Nat) (s : ConfigDisk) :
    afterSaves sampleCodec [save] s = afterSave sampleCodec save s := rfl

/-- The other sections grow until the document of the attempt just fits. -/
def fillingSections : Nat := LIMIT - (sampleCodec.encode longAttempted).length

def fillSections : Save Nat :=
  .transaction fun _ document => .ok { document with sections := fillingSections }

/-- **A rollback may not fit.**  A save that leaves the update settings alone fills the document up
to 4 MiB; with the longer original ref it does not fit any more, and the tag stays. -/
theorem failed_attempt_stays :
    LeftAlone sampleCodec [fillSections] longStarted ∧
    (documentOf sampleCodec (afterSaves sampleCodec [fillSections] longStarted).config).update =
      some { longSpec with refName := "v2" } ∧
    ∃ e, (restoreFailedUpdateRef sampleCodec longAttempted longDocument
        (sampleCodec.encode longDocument) none).run []
        (afterSaves sampleCodec [fillSections] longStarted) =
      (.error e, afterSaves sampleCodec [fillSections] longStarted) := by
  have h : Attempt sampleCodec longPair (sampleCodec.encode longDocument) "v2" sampleAttemptId
      longAttempted longStarted := attempt_of_run lawful_sampleCodec soundPair_longPair rfl
    (by rw [documentOf_longPair]; decide) run_longAttempt
  have howned := h.owned lawful_sampleCodec
  have halone : LeftAlone sampleCodec [fillSections] longStarted := by
    rintro before save after hsplit - hexplicit
    obtain rfl : save = fillSections := by
      rcases before with _ | ⟨first, before⟩
      · exact (List.cons.inj hsplit).1.symm
      · have hlength := congrArg List.length hsplit
        simp at hlength
    obtain ⟨new, hnew, hdiffers⟩ := hexplicit
    rw [← Except.ok.inj hnew] at hdiffers
    exact hdiffers.elim (fun hne => hne rfl) fun hne => hne rfl
  have hcurrent : documentOf sampleCodec longStarted.config = longAttempted :=
    lawful_sampleCodec.documentOf_encode h.valid
  have hlengths : (sampleCodec.encode longAttempted).length ≤ LIMIT ∧
      (sampleCodec.encode longAttempted).length < (sampleCodec.encode longDocument).length := by
    decide +kernel
  -- the save is accepted, since the document just fits
  have hstores : Stores sampleCodec longStarted { longAttempted with sections := fillingSections }
      (afterSave sampleCodec fillSections longStarted) := by
    have hfits : ∃ t, Stores sampleCodec longStarted
        { longAttempted with sections := fillingSections } t := by
      refine ⟨_, ?_, ⟨rfl, Or.inr ?_⟩, rfl⟩
      · exact validate_withSections h.valid fillingSections
      · have hsaved : NexusConfigFile.savedOver
            { longAttempted with sections := fillingSections }
            (documentOf sampleCodec longStarted.config) =
              { longAttempted with sections := fillingSections } := by
          rw [hcurrent, NexusConfigFile.savedOver, if_neg fun hrevokes => hrevokes.1 rfl]
        rw [hsaved, length_encode_withSections longAttempted rfl, fillingSections,
          Nat.add_sub_of_le hlengths.1]
    refine afterSave_transaction lawful_sampleCodec howned.sound ?_ hfits
    rw [hcurrent]
  have hdocument : documentOf sampleCodec (afterSave sampleCodec fillSections longStarted).config =
      { longAttempted with sections := fillingSections } := by
    rw [hstores.documentOf_eq lawful_sampleCodec, hcurrent, NexusConfigFile.savedOver,
      if_neg fun hrevokes => hrevokes.1 rfl]
  refine ⟨halone, ?_, ?_⟩
  · rw [afterSaves_singleton, hdocument]
    rfl
  have hrollback := run_restoreFailedUpdateRef lawful_sampleCodec h
    (owned_afterSaves lawful_sampleCodec [fillSections] longStarted howned halone)
  rw [documentOf_longPair] at hrollback
  rcases hrollback with ⟨hfits, -⟩ | ⟨-, hrun⟩
  · have hlength := hfits.1
    have hne : documentOf sampleCodec (afterSaves sampleCodec [fillSections] longStarted).config ≠
        longAttempted := by
      rw [afterSaves_singleton, hdocument]
      exact withSections_ne longAttempted rfl (by decide +kernel)
    have htarget : ((documentOf sampleCodec
        (afterSaves sampleCodec [fillSections] longStarted).config).setUpdate
          longDocument.update) = { longDocument with sections := fillingSections } := by
      rw [afterSaves_singleton, hdocument]
      rfl
    rw [rollbackTarget, if_neg hne, documentOf_longPair, htarget,
      length_encode_withSections longDocument rfl, fillingSections] at hlength
    -- the document of the attempt fills the limit, and the original one is longer
    have hoverfull : ∀ a b limit : Nat, a ≤ limit → a < b → ¬ b + (limit - a) ≤ limit := by
      intro a b limit ha hab
      omega
    exact (hoverfull _ _ _ hlengths.1 hlengths.2 hlength).elim
  · exact hrun

end DocumentStore

end DshNexus.Config
