import DshNexus.Config.Document

/-!
# What one save does when nothing fails

Between two saves of a run without crashes there is no record, and both files of the pair are
valid (`Sound`).  From such a state

* `settles_publishConfigPair`: a publication replaces the pair if its documents fit, and else
  changes nothing;
* `settles_writeUnlocked`: a save that is accepted leaves `written`, and any other one the disk as
  it was.
-/

namespace DshNexus.Config

open Durable Program ConfigStore

section Publication

variable {checks : ConfigChecks} {p : Pending} {s : ConfigDisk}

/-- No publication, preservation or outer publication is under way. -/
structure Quiet (disk : ConfigDisk) : Prop where
  pending : disk.pending = none
  preserve : disk.preserve = none
  outerPublication : disk.outerPublication = none

def ValidFile (checks : ConfigChecks) (file : Option Bytes) : Prop :=
  ∀ bytes, file = some bytes → ValidDocument checks bytes

structure SoundPair (checks : ConfigChecks) (disk : ConfigDisk) : Prop where
  quiet : Quiet disk
  config : ValidFile checks disk.config
  previous : ValidFile checks disk.previous

theorem returns_readFile_of_valid {file : ConfigDisk → Option Bytes}
    {Q : Option Bytes → ConfigDisk → Prop} (h : ValidFile checks (file s)) (hQ : Q (file s) s) :
    (readFile file LIMIT).returns Q s := by
  cases hfile : file s with
  | none =>
    rw [readFile, returns_bind, returns_read, returns_ofExcept, hfile]
    exact ⟨none, rfl, hfile ▸ hQ⟩
  | some bytes => exact returns_readFile hfile (h bytes hfile).1 (hfile ▸ hQ)

theorem returns_settlePendingUnlocked (h : Quiet s) {Q : Unit → ConfigDisk → Prop} (hQ : Q () s) :
    (settlePendingUnlocked checks).returns Q s := by
  refine returns_tryCatch ?_
  rw [settlePendingInner, returns_bind, outerPreservesCurrent, returns_bind,
    returns_read, h.outerPublication]
  show (Program.read >>= _ : ConfigProgram Unit).returns Q s
  rw [returns_bind, returns_read, if_neg (by simp [h.preserve]), h.pending]
  exact hQ

theorem returns_validatePrevious {file : Option Bytes} (h : ValidFile checks file)
    {Q : Unit → ConfigDisk → Prop} (hQ : Q () s) : (validatePrevious checks file).returns Q s := by
  cases file with
  | none => exact hQ
  | some bytes => exact returns_validateDocument (h bytes rfl).2 hQ

theorem returns_restoreBytes {path : PairFile} {observed target : Option Bytes}
    (hobserved : s.get path = observed) (hlength : ∀ bytes, observed = some bytes →
      bytes.length ≤ LIMIT) :
    (restoreBytes path observed target).returns (fun _ t => t = s.set path target) s := by
  unfold restoreBytes
  split
  · next heq => rw [← heq, ← hobserved, ConfigDisk.set_get]; rfl
  · rw [returns_bind]
    have hread : (readFile (·.get path) LIMIT).returns (fun now t => now = observed ∧ t = s) s := by
      rw [readFile, returns_bind, returns_read, returns_ofExcept,
        hobserved]
      cases observed with
      | none => exact ⟨none, rfl, rfl, rfl⟩
      | some bytes =>
        have hle := hlength bytes rfl
        rw [readRegularFileBounded, if_neg (by omega)]
        exact ⟨_, rfl, rfl, rfl⟩
    refine returns_mono ?_ hread
    rintro _ t ⟨rfl, rfl⟩
    rw [if_neg (not_not.mpr rfl)]
    cases target <;> exact rfl

theorem returns_publishPrepared (hlength : ∀ q, documents q = documents p →
      checks.encodedLength q ≤ JOURNAL_LIMIT)
    (hbounded : ∀ bytes ∈ documents p, bytes.length ≤ LIMIT) (hpending : s.pending = none)
    (hold : ∀ path, s.get path = p.old path) :
    (publishPrepared checks p).returns (fun _ t =>
      t = { s with config := some p.target, previous := p.nextPrevious }) s := by
  have hsave : ∀ q t, documents q = documents p →
      (savePending checks q).returns (fun _ u => u = { t with pending := some q }) t := by
    intro q t hq
    have hle := hlength q hq
    rw [savePending, if_neg (by omega)]
    exact rfl
  have holdBounded : ∀ path bytes, p.old path = some bytes → bytes.length ≤ LIMIT := by
    intro path bytes hbytes
    refine hbounded bytes ?_
    cases path with
    | config => exact List.mem_filterMap.mpr ⟨some bytes, by rw [← hbytes]; simp [Pending.old], rfl⟩
    | previous =>
      exact List.mem_filterMap.mpr ⟨some bytes, by rw [← hbytes]; simp [Pending.old], rfl⟩
  rw [publishPrepared, returns_bind]
  refine returns_mono ?_ (hsave p s rfl)
  rintro _ _ rfl
  rw [returns_bind, Program.toExcept]
  refine returns_tryCatch ?_
  rw [returns_map, returns_bind]
  refine returns_mono ?_ (returns_restoreBytes (hold .config) (holdBounded .config))
  rintro _ _ rfl
  refine returns_mono ?_ (returns_restoreBytes (hold .previous) (holdBounded .previous))
  rintro _ _ rfl
  dsimp only
  rw [returns_bind, Program.toExcept]
  refine returns_tryCatch ?_
  rw [returns_map]
  refine returns_mono ?_ (hsave p.commit _ rfl)
  rintro _ _ rfl
  dsimp only
  rw [returns_ignoreError, removePending, settles_durable]
  rw [← hpending]
  rfl

/-- The new documents of a publication are not too large. -/
def PublicationFits (target : Bytes) (previousOverride : Option PreviousTarget) : Prop :=
  target.length ≤ LIMIT ∧
    ∀ bytes, previousOverride.bind (·.bytes) = some bytes → bytes.length ≤ LIMIT

def published (disk : ConfigDisk) (target : Bytes) (validCurrent : Bool)
    (previousOverride : Option PreviousTarget) : ConfigDisk :=
  { disk with
    config := some target
    previous := (preparedRecord target validCurrent previousOverride disk.config
      disk.previous).nextPrevious }

theorem mem_documents_preparedRecord {target bytes : Bytes} {validCurrent : Bool}
    {previousOverride : Option PreviousTarget} {oldCurrent oldPrevious : Option Bytes} :
    bytes ∈ documents (preparedRecord target validCurrent previousOverride oldCurrent oldPrevious) ↔
      bytes = target ∨ oldCurrent = some bytes ∨ oldPrevious = some bytes ∨
        previousOverride.bind (·.bytes) = some bytes := by
  simp only [documents, preparedRecord, List.mem_filterMap, List.mem_cons, List.not_mem_nil,
    or_false, id]
  constructor
  · rintro ⟨x, hx, rfl⟩
    simpa [eq_comm] using hx
  · intro h
    exact ⟨some bytes, by simpa [eq_comm] using h, rfl⟩

/-- **A publication in a state between two saves** replaces the pair, if the new documents fit,
and else changes nothing. -/
theorem settles_publishConfigPair {target : Bytes} {validCurrent : Bool}
    {previousOverride : Option PreviousTarget} {expected : Option (Bytes × Option Bytes)}
    (hjournal : ∀ p, (∀ bytes ∈ documents p, bytes.length ≤ LIMIT) →
      checks.encodedLength p ≤ JOURNAL_LIMIT) (h : SoundPair checks s)
    (htarget : checks.validateDocument target = .ok ())
    (hoverride : ∀ bytes, previousOverride.bind (·.bytes) = some bytes →
      checks.validateDocument bytes = .ok ())
    (hexpected : ∀ pair ∈ expected, s.config = some pair.1 ∧ s.previous = pair.2) :
    (publishConfigPair checks target validCurrent previousOverride expected).settles
      (fun _ t => PublicationFits target previousOverride ∧
        t = published s target validCurrent previousOverride)
      (fun _ t => ¬ PublicationFits target previousOverride ∧ t = s) s := by
  have hunexpected : ¬ ∃ pair ∈ expected, s.config ≠ some pair.1 ∨ s.previous ≠ pair.2 := by
    rintro ⟨pair, hpair, hne⟩
    exact hne.elim (fun hne => hne (hexpected pair hpair).1) fun hne =>
      hne (hexpected pair hpair).2
  rw [publishConfigPair, settles_bind]
  refine settles_of_returns (returns_readFile_of_valid h.config ?_)
  rw [settles_bind]
  refine settles_of_returns (returns_readFile_of_valid h.previous ?_)
  rw [if_neg hunexpected, settles_bind]
  refine settles_of_returns (returns_validatePrevious h.previous ?_)
  split
  · next hlong =>
    exact ⟨fun hfits => absurd hfits.1 (by omega), rfl⟩
  next hshort =>
  dsimp only
  rw [settles_bind]
  by_cases hfits : PublicationFits target previousOverride
  · have hrecord : ValidRecord checks
        (preparedRecord target validCurrent previousOverride s.config s.previous) := by
      refine ⟨rfl, fun bytes hbytes => ?_⟩
      rcases mem_documents_preparedRecord.mp hbytes with rfl | hold | hold | hnew
      · exact ⟨hfits.1, htarget⟩
      · exact h.config bytes hold
      · exact h.previous bytes hold
      · exact ⟨hfits.2 bytes hnew, hoverride bytes hnew⟩
    refine settles_of_returns (returns_validatePendingConfigs hrecord ?_)
    have hbounded := fun bytes hbytes => (hrecord.documents bytes hbytes).1
    refine settles_of_returns (returns_mono ?_ (returns_publishPrepared
      (fun q hq => hjournal q (by rw [hq]; exact hbounded)) hbounded h.quiet.pending ?_))
    · rintro _ _ rfl
      exact ⟨hfits, rfl⟩
    · rintro (_ | _) <;> rfl
  · refine settles_of_wp (C := fun _ => True)
      (wp_validatePendingConfigs (fun hrecord => absurd ?_ hfits) (fun _ => ⟨hfits, rfl⟩) trivial)
    refine ⟨by omega, fun bytes hbytes => (hrecord.documents bytes ?_).1⟩
    exact mem_documents_preparedRecord.mpr (Or.inr (Or.inr (Or.inr hbytes)))

end Publication

/-! ## Documents -/

section Documents

variable {ρ : Type} {codec : ConfigCodec ρ} {s : ConfigDisk} {d : NexusConfigFile ρ}

/-- The document that a configuration holds. -/
def documentOf (codec : ConfigCodec ρ) (config : Option Bytes) : NexusConfigFile ρ :=
  (config.bind fun bytes => (codec.decode bytes).toOption).getD codec.default

theorem documentOf_of_decode {bytes : Bytes} (h : codec.decode bytes = .ok d) :
    documentOf codec (some bytes) = d := by
  rw [documentOf, Option.bind_some, h]
  rfl

theorem ConfigCodec.Lawful.validDocument_iff (hlaw : codec.Lawful) {bytes : Bytes} :
    ValidDocument codec.checks bytes ↔ bytes.length ≤ LIMIT ∧
      codec.decode bytes = .ok (documentOf codec (some bytes)) ∧
        codec.validate (documentOf codec (some bytes)) = .ok () := by
  rw [ValidDocument, hlaw.validateDocument_eq]
  refine and_congr_right fun _ => ?_
  cases hdecode : codec.decode bytes with
  | error e =>
    refine iff_of_false (fun h => by cases h) ?_
    rintro ⟨h, -⟩
    cases h
  | ok document =>
    rw [documentOf_of_decode hdecode]
    exact ⟨fun h => ⟨rfl, h⟩, fun h => h.2⟩

theorem ConfigCodec.Lawful.documentOf_encode (hlaw : codec.Lawful)
    (hd : codec.validate d = .ok ()) : documentOf codec (some (codec.encode d)) = d :=
  documentOf_of_decode (hlaw.decode_encode d hd)

theorem ConfigCodec.Lawful.validDocument_encode (hlaw : codec.Lawful)
    (hd : codec.validate d = .ok ()) (hlength : (codec.encode d).length ≤ LIMIT) :
    ValidDocument codec.checks (codec.encode d) := by
  refine hlaw.validDocument_iff.mpr ⟨hlength, ?_⟩
  rw [hlaw.documentOf_encode hd]
  exact ⟨hlaw.decode_encode d hd, hd⟩

theorem ConfigCodec.Lawful.validate_documentOf (hlaw : codec.Lawful) {file : Option Bytes}
    (h : ValidFile codec.checks file) : codec.validate (documentOf codec file) = .ok () := by
  cases file with
  | none => exact hlaw.validate_default
  | some bytes => exact (hlaw.validDocument_iff.mp (h bytes rfl)).2.2

theorem ConfigCodec.validate_eq_ok : codec.validate d = .ok () ↔ d.validateAttemptId = .ok () ∧
    d.schemaVersion = 1 ∧ d.validateUpdate = .ok () ∧
      codec.validateSections d.sections = .ok () := by
  rw [ConfigCodec.validate]
  constructor
  · intro h
    obtain ⟨_, hid, h⟩ := bind_eq_ok h
    split at h
    · cases h
    next hschema =>
    obtain ⟨_, hupdate, hsections⟩ := bind_eq_ok h
    exact ⟨hid, not_not.mp hschema, hupdate, hsections⟩
  · rintro ⟨hid, hschema, hupdate, hsections⟩
    rw [hid]
    show (if d.schemaVersion ≠ 1 then _ else _ : Except IoError Unit) = _
    rw [if_neg (not_not.mpr hschema), hupdate]
    exact hsections

theorem ConfigCodec.validate_revoked (h : codec.validate d = .ok ()) :
    codec.validate d.revoked = .ok () := by
  obtain ⟨-, hrest⟩ := ConfigCodec.validate_eq_ok.mp h
  exact ConfigCodec.validate_eq_ok.mpr ⟨rfl, hrest⟩

theorem ConfigCodec.validate_savedOver {old : NexusConfigFile ρ} (h : codec.validate d = .ok ()) :
    codec.validate (d.savedOver old) = .ok () := by
  unfold NexusConfigFile.savedOver
  split
  · exact ConfigCodec.validate_revoked h
  · exact h

end Documents

/-! ## Saves -/

namespace DocumentStore

variable {ρ : Type} [DecidableEq ρ] {codec : ConfigCodec ρ} {s : ConfigDisk}
  {d : NexusConfigFile ρ}

omit [DecidableEq ρ] in
theorem returns_validateConfigDocument {Q : Unit → ConfigDisk → Prop}
    (hd : codec.validate d = .ok ()) (hQ : Q () s) :
    (validateConfigDocument codec d).returns Q s := by
  rw [validateConfigDocument, returns_bind, returns_attempt,
    returns_ofExcept]
  exact ⟨(), hd, hQ⟩

omit [DecidableEq ρ] in
theorem settles_validateConfigDocument {Q : Unit → ConfigDisk → Prop}
    {E : IoError → ConfigDisk → Prop} (hQ : codec.validate d = .ok () → Q () s)
    (hE : codec.validate d ≠ .ok () → ∀ e, E e s) :
    (validateConfigDocument codec d).settles Q E s := by
  rw [validateConfigDocument, settles_bind, settles_attempt,
    settles_ofExcept]
  refine ⟨fun _ hok => hQ hok, fun e herror => hE ?_ e⟩
  rw [herror]
  exact fun h => by cases h

omit [DecidableEq ρ] in
theorem returns_loadUnlocked (hlaw : codec.Lawful) (h : ValidFile codec.checks s.config)
    {Q : NexusConfigFile ρ → ConfigDisk → Prop} (hQ : Q (documentOf codec s.config) s) :
    (loadUnlocked codec).returns Q s := by
  rw [loadUnlocked, returns_bind]
  refine returns_readFile_of_valid h ?_
  cases hconfig : s.config with
  | none => rw [hconfig] at hQ; exact hQ
  | some bytes =>
    rw [hconfig] at hQ h
    obtain ⟨-, hdecode, hvalid⟩ := hlaw.validDocument_iff.mp (h bytes rfl)
    dsimp only
    rw [returns_bind, returns_ofExcept]
    refine ⟨_, hdecode, ?_⟩
    rw [returns_bind]
    exact returns_validateConfigDocument hvalid hQ

/-- The save of a document over the current one goes through: the protection is extended, and
the document fits where it has to be written. -/
def Accepted (codec : ConfigCodec ρ) (s : ConfigDisk) (d : NexusConfigFile ρ) : Prop :=
  codec.protect (documentOf codec s.config) d = .ok () ∧
    (documentOf codec s.config = d ∧ s.config.isSome = true ∨ (codec.encode d).length ≤ LIMIT)

/-- The disk after an accepted save: the bytes that are replaced become the undo point. -/
def written (codec : ConfigCodec ρ) (s : ConfigDisk) (d : NexusConfigFile ρ) : ConfigDisk :=
  if documentOf codec s.config = d ∧ s.config.isSome = true then s
  else { s with
    config := some (codec.encode d)
    previous := if s.config.isSome = true then s.config else s.previous }

/-- **What one save does**: an accepted one leaves `written`, and any other the disk as it was. -/
theorem settles_writeUnlocked (hlaw : codec.Lawful) (h : SoundPair codec.checks s)
    (hd : codec.validate d = .ok ()) :
    (writeUnlocked codec d).settles
      (fun _ t => Accepted codec s (d.savedOver (documentOf codec s.config)) ∧
        t = written codec s (d.savedOver (documentOf codec s.config)))
      (fun _ t => ¬ Accepted codec s (d.savedOver (documentOf codec s.config)) ∧ t = s) s := by
  have hsaved : codec.validate (d.savedOver (documentOf codec s.config)) = .ok () :=
    ConfigCodec.validate_savedOver hd
  rw [writeUnlocked, settles_bind]
  refine settles_of_returns (returns_settlePendingUnlocked h.quiet ?_)
  rw [settles_bind]
  refine settles_of_returns (returns_loadUnlocked hlaw h.config ?_)
  dsimp only
  generalize d.savedOver (documentOf codec s.config) = document at hsaved ⊢
  rw [settles_bind]
  refine settles_of_returns (returns_readFile_of_valid h.previous ?_)
  rw [settles_bind]
  refine settles_of_returns (returns_validatePrevious h.previous ?_)
  rw [settles_bind, settles_attempt, settles_bind,
    settles_ofExcept]
  refine ⟨fun _ hprotect => ?_, fun e hrefused => ⟨fun haccepted => ?_, rfl⟩⟩
  · rw [settles_bind, settles_attempt, settles_bind,
      settles_read]
    split
    · next hsame => exact ⟨⟨hprotect, Or.inl hsame⟩, by rw [written, if_pos hsame]⟩
    · next hchanged =>
      refine settles_mono ?_ ?_ (settles_publishConfigPair hlaw.encodedLength_le h ?_ ?_ ?_)
      · rintro _ _ ⟨hfits, rfl⟩
        refine ⟨⟨hprotect, Or.inr hfits.1⟩, ?_⟩
        rw [written, if_neg hchanged]
        rfl
      · rintro _ _ ⟨hlong, rfl⟩
        refine ⟨fun haccepted => hlong ⟨haccepted.2.resolve_left hchanged, ?_⟩, rfl⟩
        exact fun bytes hbytes => by cases hbytes
      · rw [hlaw.validateDocument_eq, hlaw.decode_encode _ hsaved]
        exact hsaved
      · rintro bytes hbytes
        cases hbytes
      · rintro pair hpair
        cases hpair
  · rw [haccepted.1] at hrefused
    cases hrefused

theorem soundPair_written (hlaw : codec.Lawful) (h : SoundPair codec.checks s)
    (hd : codec.validate d = .ok ()) (haccepted : Accepted codec s d) :
    SoundPair codec.checks (written codec s d) := by
  unfold DocumentStore.written
  split
  · exact h
  next hchanged =>
  have hlength := haccepted.2.resolve_left hchanged
  refine ⟨⟨h.quiet.pending, h.quiet.preserve, h.quiet.outerPublication⟩, fun bytes hbytes => ?_,
    fun bytes hbytes => ?_⟩
  · rw [← Option.some.inj hbytes]
    exact hlaw.validDocument_encode hd hlength
  · dsimp only at hbytes
    split at hbytes
    · exact h.config bytes hbytes
    · exact h.previous bytes hbytes

end DocumentStore

end DshNexus.Config
