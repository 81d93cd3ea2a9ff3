import DshNexus.Release.Pointers

/-!
# Sessions of the release store

What a call of the release store can change, at a return, at an error and at a crash.

* `StoreSound`: every manifest in a slot is a valid one of that slot, and the pointer document
  is well formed.
* `StoredFallback`: the stored last-known-good release is selectable, confirmed, and not the
  current one.
* `Works`: a registration or a removal touches one release only.
* `wp_releaseCall`: every call keeps both; a rollback needs that the fallback it publishes is
  selectable, which it does not check.
* `fallback_usable`: in a session whose rollbacks meet that condition a promotion succeeds if and
  only if its fallback is registered.
-/

namespace DshNexus.Release

open Durable Program

section Invariant

variable {δ : Type} [DecidableEq δ] (env : ReleaseEnvironment δ)

/-- The bytes are a valid manifest of the release. -/
def IsManifestOf (id : String) (bytes : Bytes) : Prop :=
  ∃ manifest, bytes = env.encodeManifest manifest ∧ manifest.id = id ∧
    validateReleaseManifest manifest = .ok ()

structure SlotSound (id : String) (slot : Slot) : Prop where
  valid : validateReleaseId id = .ok ()
  manifest : ∀ bytes, slot.lookup manifestPath = some bytes → IsManifestOf env id bytes
  marker : ∀ bytes, slot.lookup markerPath = some bytes → IsManifestOf env id bytes

/-- A pointer document that the store can have written. -/
structure DocumentSound (document : ReleasePointerDocument δ) : Prop where
  schemaVersion : document.schemaVersion = RELEASE_SCHEMA_VERSION
  valid : ∀ id, document.currentRelease = some id ∨ document.lastKnownGood = some id →
    validateReleaseId id = .ok ()
  differ : ¬ (document.currentRelease.isSome = true ∧
    document.currentRelease = document.lastKnownGood)
  bounded : document.healthy.length ≤ 256

/-- Every slot and the pointer document are as the store writes them. -/
structure StoreSound (s : ReleaseDisk δ) : Prop where
  slots : ∀ id slot, s.slots.lookup id = some slot → SlotSound env id slot
  document : DocumentSound (pointerDocument s)

/-- A release that the store may fall back to. -/
def Usable (s : ReleaseDisk δ) (healthy : List (HealthyReleaseEvidence δ)) (id : String) : Prop :=
  Selectable s id ∧ ∃ record ∈ healthy, record.releaseId = id ∧ Confirms env s record

/-- The stored last-known-good release is usable, and not the current one. -/
def StoredFallback (s : ReleaseDisk δ) : Prop :=
  ∀ id, (pointerDocument s).lastKnownGood = some id →
    (pointerDocument s).currentRelease ≠ some id ∧ Usable env s (pointerDocument s).healthy id

variable {env} {s s' s'' : ReleaseDisk δ} {id : String}

/-! ## Reading a sound store -/

omit [DecidableEq δ] in
theorem catalogEntry_of_slotSound {slot : Slot} (h : SlotSound env id slot) :
    ∃ entry, catalogEntry env s id slot = .ok entry := by
  unfold catalogEntry
  split
  · exact ⟨none, rfl⟩
  split
  · exact ⟨none, rfl⟩
  split
  · exact ⟨none, rfl⟩
  next bytes hbytes =>
  obtain ⟨manifest, rfl, hid, hvalid⟩ := h.manifest bytes hbytes
  rw [env.decode_encode]
  dsimp only
  rw [hvalid]
  show ∃ entry, (if manifest.id ≠ id then _ else _) = _
  rw [if_neg (not_not.mpr hid)]
  exact ⟨some manifest, rfl⟩

theorem StoreSound.loads (h : StoreSound env s) : ∃ catalog, loadUnlocked env s = .ok catalog :=
  exists_loadUnlocked h.document.schemaVersion h.document.valid h.document.differ
    fun id slot hslot => catalogEntry_of_slotSound (h.slots id slot hslot)

omit [DecidableEq δ] in
theorem StoreSound.healthRecords (h : StoreSound env s) :
    healthRecords s = .ok (pointerDocument s).healthy := by
  have hdocument := h.document
  unfold Release.healthRecords
  unfold pointerDocument at hdocument ⊢
  cases hp : s.pointers with
  | none => rfl
  | some document =>
    rw [hp] at hdocument
    have hschema : document.schemaVersion = RELEASE_SCHEMA_VERSION := hdocument.schemaVersion
    have hbounded : document.healthy.length ≤ 256 := hdocument.bounded
    dsimp only
    rw [if_neg (by rw [not_or, not_not]; exact ⟨hschema, by omega⟩)]
    rfl

theorem StoreSound.fallback (h : StoreSound env s) (selected : Option String) :
    ∃ fallback, verifiedFallback env s selected = .ok fallback := by
  rw [verifiedFallback, h.healthRecords]
  exact ⟨_, firstFallback_eq selected _⟩

omit [DecidableEq δ] in
theorem IsFallback.usable {selected : Option String} {record : HealthyReleaseEvidence δ}
    (h : IsFallback env s selected record) (hselectable : Selectable s record.releaseId) :
    selected ≠ some record.releaseId ∧
      Usable env s (pointerDocument s).healthy record.releaseId := by
  obtain ⟨before, after, hsplit, ⟨hne, hconfirms⟩, -⟩ := h
  exact ⟨hne, hselectable, record, by rw [hsplit]; simp, rfl, hconfirms⟩

/-! ## Changes of one release -/

/-- Only the slot and the ownership record of one release have changed. -/
structure Touches (id : String) (s s' : ReleaseDisk δ) : Prop where
  pointers : s'.pointers = s.pointers
  slots : ∀ other, other ≠ id → s'.slots.lookup other = s.slots.lookup other
  owned : ∀ other, other ≠ id → s'.owned.lookup other = s.owned.lookup other

/-- Work on one release, which leaves a sound slot sound. -/
structure Works (env : ReleaseEnvironment δ) (id : String) (s s' : ReleaseDisk δ) : Prop where
  touches : Touches id s s'
  sound : (∀ slot, s.slots.lookup id = some slot → SlotSound env id slot) →
    ∀ slot, s'.slots.lookup id = some slot → SlotSound env id slot

omit [DecidableEq δ] in
theorem Works.refl (env : ReleaseEnvironment δ) (id : String) (s : ReleaseDisk δ) :
    Works env id s s :=
  ⟨⟨rfl, fun _ _ => rfl, fun _ _ => rfl⟩, fun h => h⟩

omit [DecidableEq δ] in
theorem Works.trans (h : Works env id s s') (h' : Works env id s' s'') : Works env id s s'' :=
  ⟨⟨h'.touches.pointers.trans h.touches.pointers,
    fun other hne => (h'.touches.slots other hne).trans (h.touches.slots other hne),
    fun other hne => (h'.touches.owned other hne).trans (h.touches.owned other hne)⟩,
    fun hs => h'.sound (h.sound hs)⟩

omit [DecidableEq δ] in
theorem Works.putSlot (s : ReleaseDisk δ) {slot : Slot} (h : SlotSound env id slot) :
    Works env id s (s.putSlot id slot) := by
  refine ⟨⟨rfl, fun other hne => AList.lookup_insert_ne hne, fun _ _ => rfl⟩,
    fun _ slot' hslot' => ?_⟩
  rw [ReleaseDisk.putSlot, AList.lookup_insert] at hslot'
  rw [← Option.some.inj hslot']
  exact h

omit [DecidableEq δ] in
theorem SlotSound.empty (h : validateReleaseId id = .ok ()) : SlotSound env id ∅ :=
  ⟨h, fun _ h => (nomatch h), fun _ h => (nomatch h)⟩

omit [DecidableEq δ] in
theorem Works.modifySlot (s : ReleaseDisk δ) {f : Slot → Slot}
    (hvalid : validateReleaseId id = .ok ())
    (hf : ∀ slot, SlotSound env id slot → SlotSound env id (f slot)) :
    Works env id s (s.modifySlot id f) := by
  refine ⟨⟨rfl, fun other hne => AList.lookup_insert_ne hne, fun _ _ => rfl⟩,
    fun hs slot' hslot' => ?_⟩
  rw [ReleaseDisk.modifySlot, ReleaseDisk.putSlot, AList.lookup_insert] at hslot'
  rw [← Option.some.inj hslot']
  refine hf _ ?_
  cases hslot : s.slots.lookup id with
  | none => exact .empty hvalid
  | some slot => exact hs slot hslot

omit [DecidableEq δ] in
theorem Works.removeSlot (s : ReleaseDisk δ) : Works env id s (s.removeSlot id) := by
  refine ⟨⟨rfl, fun other hne => AList.lookup_erase_ne hne, fun _ _ => rfl⟩,
    fun _ slot hslot => ?_⟩
  rw [ReleaseDisk.removeSlot, AList.lookup_erase] at hslot
  exact nomatch hslot

omit [DecidableEq δ] in
theorem Works.putOwned (s : ReleaseDisk δ) (ownership : CleanupOwnership δ) :
    Works env id s (s.putOwned id ownership) :=
  ⟨⟨rfl, fun _ _ => rfl, fun _ hne => AList.lookup_insert_ne hne⟩, fun h => h⟩

omit [DecidableEq δ] in
theorem Works.removeOwned (s : ReleaseDisk δ) : Works env id s (s.removeOwned id) :=
  ⟨⟨rfl, fun _ _ => rfl, fun _ hne => AList.lookup_erase_ne hne⟩, fun h => h⟩

omit [DecidableEq δ] in
theorem SlotSound.insert {slot : Slot} (h : SlotSound env id slot) {path : RelativePath}
    {bytes : Bytes} (hbytes : path = manifestPath ∨ path = markerPath → IsManifestOf env id bytes) :
    SlotSound env id (slot.insert path bytes) := by
  have hinsert : ∀ target : RelativePath,
      (target = manifestPath ∨ target = markerPath) →
      (∀ found, slot.lookup target = some found → IsManifestOf env id found) →
      ∀ found, (slot.insert path bytes).lookup target = some found → IsManifestOf env id found := by
    intro target htarget hold found hfound
    by_cases heq : target = path
    · rw [heq, AList.lookup_insert] at hfound
      rw [← Option.some.inj hfound]
      exact hbytes (heq ▸ htarget)
    · rw [AList.lookup_insert_ne heq] at hfound
      exact hold found hfound
  exact ⟨h.valid, hinsert _ (Or.inl rfl) h.manifest, hinsert _ (Or.inr rfl) h.marker⟩

omit [DecidableEq δ] in
theorem SlotSound.erase {slot : Slot} (h : SlotSound env id slot) (path : RelativePath) :
    SlotSound env id (slot.erase path) := by
  have herase : ∀ target : RelativePath, ∀ found,
      (slot.erase path).lookup target = some found → slot.lookup target = some found := by
    intro target found hfound
    by_cases heq : target = path
    · rw [heq, AList.lookup_erase] at hfound
      exact nomatch hfound
    · rwa [AList.lookup_erase_ne heq] at hfound
  exact ⟨h.valid, fun bytes hb => h.manifest bytes (herase _ _ hb),
    fun bytes hb => h.marker bytes (herase _ _ hb)⟩

/-- Nothing of the store has changed but the configuration file. -/
def SameStore (s s' : ReleaseDisk δ) : Prop :=
  s'.slots = s.slots ∧ s'.owned = s.owned ∧ s'.pointers = s.pointers

omit [DecidableEq δ] in
theorem confirms_congr {record : HealthyReleaseEvidence δ}
    (h : s'.slots.lookup record.releaseId = s.slots.lookup record.releaseId) :
    Confirms env s' record ↔ Confirms env s record := by
  unfold Confirms healthFingerprint slotDir
  rw [h]

omit [DecidableEq δ] in
theorem usable_congr {healthy : List (HealthyReleaseEvidence δ)}
    (hslots : s'.slots.lookup id = s.slots.lookup id)
    (howned : s'.owned.lookup id = s.owned.lookup id) :
    Usable env s' healthy id ↔ Usable env s healthy id := by
  unfold Usable Selectable
  rw [hslots, howned]
  refine and_congr_right fun _ => exists_congr fun record => and_congr_right fun _ =>
    and_congr_right fun hid => ?_
  exact confirms_congr (by rw [hid, hslots])

omit [DecidableEq δ] in
theorem Works.keeps (h : Works env id s s') (hsound : StoreSound env s)
    (hfallback : StoredFallback env s) (hlkg : (pointerDocument s).lastKnownGood ≠ some id) :
    StoreSound env s' ∧ StoredFallback env s' := by
  have hdocument : pointerDocument s' = pointerDocument s := by
    rw [pointerDocument, pointerDocument, h.touches.pointers]
  refine ⟨⟨fun other slot hslot => ?_, by rw [hdocument]; exact hsound.document⟩,
    fun other hother => ?_⟩
  · by_cases hne : other = id
    · rw [hne] at hslot ⊢
      exact h.sound (fun slot' hslot' => hsound.slots id slot' hslot') slot hslot
    · rw [h.touches.slots other hne] at hslot
      exact hsound.slots other slot hslot
  · rw [hdocument] at hother ⊢
    have hne : other ≠ id := fun heq => hlkg (heq ▸ hother)
    obtain ⟨hcurrent, husable⟩ := hfallback other hother
    exact ⟨hcurrent, (usable_congr (h.touches.slots other hne) (h.touches.owned other hne)).mpr
      husable⟩

omit [DecidableEq δ] in
theorem SameStore.keeps (h : SameStore s s') (hsound : StoreSound env s)
    (hfallback : StoredFallback env s) : StoreSound env s' ∧ StoredFallback env s' := by
  have hdocument : pointerDocument s' = pointerDocument s := by
    rw [pointerDocument, pointerDocument, h.2.2]
  refine ⟨⟨fun other slot hslot => hsound.slots other slot (by rw [← h.1]; exact hslot), ?_⟩,
    fun other hother => ?_⟩
  · rw [hdocument]; exact hsound.document
  · rw [hdocument] at hother ⊢
    obtain ⟨hcurrent, husable⟩ := hfallback other hother
    exact ⟨hcurrent, (usable_congr (by rw [h.1]) (by rw [h.2.1])).mpr husable⟩

end Invariant

section Calls

variable {δ : Type} [DecidableEq δ] {env : ReleaseEnvironment δ} {s s' : ReleaseDisk δ}
  {id : String}

def Kept (env : ReleaseEnvironment δ) (s : ReleaseDisk δ) : Prop :=
  StoreSound env s ∧ StoredFallback env s

/-! ## Registration and removal -/

omit [DecidableEq δ] in
theorem wp_of_works {α : Type} {p : ReleaseProgram δ α} (hp : p.Within (Works env id))
    (h : Kept env s) (hlkg : (pointerDocument s).lastKnownGood ≠ some id) :
    p.wp (fun _ => Kept env) (fun _ => Kept env) (Kept env) s :=
  wp_mono (fun _ _ hs => hs.keeps h.1 h.2 hlkg) (fun _ _ hs => hs.keeps h.1 h.2 hlkg)
    (fun _ hs => hs.keeps h.1 h.2 hlkg) (hp s)

/-- Work on one release that leaves the ownership records alone. -/
structure Fills (env : ReleaseEnvironment δ) (id : String) (s s' : ReleaseDisk δ) : Prop where
  works : Works env id s s'
  owned : s'.owned = s.owned

omit [DecidableEq δ] in
theorem within_readOnly {α : Type} {p : ReleaseProgram δ α} (hp : p.ReadOnly) :
    p.Within (Works env id) :=
  Program.ReadOnly.within (R := Works env id) (.refl env id) hp

omit [DecidableEq δ] in
theorem within_bind {α β : Type} {p : ReleaseProgram δ α} {g : α → ReleaseProgram δ β}
    (hp : p.Within (Works env id)) (hg : ∀ a, (g a).Within (Works env id)) :
    (p >>= g).Within (Works env id) := Program.Within.bind (R := Works env id) Works.trans hp hg

omit [DecidableEq δ] in
theorem fills_refl (s : ReleaseDisk δ) : Fills env id s s := ⟨.refl env id s, rfl⟩

omit [DecidableEq δ] in
theorem Fills.trans {s s' s'' : ReleaseDisk δ} (h : Fills env id s s') (h' : Fills env id s' s'') :
    Fills env id s s'' :=
  ⟨h.works.trans h'.works, h'.owned.trans h.owned⟩

omit [DecidableEq δ] in
theorem fills_readOnly {α : Type} {p : ReleaseProgram δ α} (hp : p.ReadOnly) :
    p.Within (Fills env id) :=
  Program.ReadOnly.within (R := Fills env id) fills_refl hp

omit [DecidableEq δ] in
theorem fills_bind {α β : Type} {p : ReleaseProgram δ α} {g : α → ReleaseProgram δ β}
    (hp : p.Within (Fills env id)) (hg : ∀ a, (g a).Within (Fills env id)) :
    (p >>= g).Within (Fills env id) := Program.Within.bind (R := Fills env id) Fills.trans hp hg

omit [DecidableEq δ] in
theorem fills_modifySlot (hvalid : validateReleaseId id = .ok ()) {f : Slot → Slot}
    (hf : ∀ slot, SlotSound env id slot → SlotSound env id (f slot)) :
    (Program.durable fileOperationFailed fun disk : ReleaseDisk δ =>
      disk.modifySlot id f).Within (Fills env id) :=
  within_durable fills_refl fun s => ⟨.modifySlot s hvalid hf, rfl⟩

omit [DecidableEq δ] in
theorem fills_writeManifest {bytes : Bytes} (hvalid : validateReleaseId id = .ok ())
    (hbytes : IsManifestOf env id bytes) : (writeManifest id bytes).Within (Fills env id) := by
  have htemporary : ∀ bytes' slot, SlotSound env id slot →
      SlotSound env id (slot.insert temporaryPath bytes') := fun bytes' slot hs =>
    hs.insert fun hpath => absurd hpath (by decide)
  refine fills_bind (fills_modifySlot hvalid (htemporary _)) fun _ => ?_
  refine Program.Within.tryCatch (R := Fills env id) Fills.trans ?_ fun e => ?_
  · refine fills_bind (fills_modifySlot hvalid (htemporary _)) fun _ => ?_
    exact fills_modifySlot hvalid fun slot hs => (hs.erase _).insert fun _ => hbytes
  · refine fills_bind ?_ fun _ => fills_readOnly (readOnly_throw e)
    exact Program.Within.ignoreError (fills_modifySlot hvalid fun slot hs => hs.erase _)

/-- The request of a registration is valid, and its id is free. -/
structure Accepted (env : ReleaseEnvironment δ) (s : ReleaseDisk δ) (request : Registration) :
    Prop where
  valid : validateReleaseManifest request.manifest = .ok ()
  free : ¬ Selectable s request.id

theorem wp_beginRegistration {Q : ReleaseCatalog → ReleaseDisk δ → Prop}
    {E : IoError → ReleaseDisk δ → Prop} {C : ReleaseDisk δ → Prop} {request : Registration}
    (hQ : ∀ catalog, loadUnlocked env s = .ok catalog → Accepted env s request → Q catalog s)
    (hE : ∀ e, E e s) : (beginRegistration env request).wp Q E C s := by
  rw [beginRegistration, wp_bind, wp_ofExcept]
  refine ⟨fun _ hid => ?_, fun e _ => hE e⟩
  rw [wp_bind, wp_ofExcept]
  refine ⟨fun _ hversion => ?_, fun e _ => hE e⟩
  rw [wp_bind, wp_ofExcept]
  refine ⟨fun _ hsource => ?_, fun e _ => hE e⟩
  rw [wp_bind, wp_ofExcept]
  refine ⟨fun _ hnote => ?_, fun e _ => hE e⟩
  rw [wp_bind, wp_inspect]
  refine ⟨fun pending _ => ?_, fun e _ => hE e⟩
  split
  · exact hE _
  · rw [wp_bind, wp_inspect]
    refine ⟨fun catalog hload => ?_, fun e _ => hE e⟩
    split
    · exact hE _
    · next hfree =>
      refine hQ catalog hload ⟨?_, fun hselectable => hfree ?_⟩
      · rw [validateReleaseManifest]
        show (validateReleaseId request.id >>= _) = _
        rw [hid]
        show (validateReleaseVersion request.version >>= _) = _
        rw [hversion]
        show (validateOptionalReleaseText request.source _ >>= _) = _
        rw [hsource]
        exact hnote
      · exact ReleaseCatalog.find_isSome.mpr
          (((loadUnlocked_eq_ok hload).has_iff _).mpr hselectable)

omit [DecidableEq δ] in
theorem Accepted.lkg {request : Registration} (h : Accepted env s request)
    (hfallback : StoredFallback env s) :
    (pointerDocument s).lastKnownGood ≠ some request.id := fun hlkg =>
  h.free (hfallback _ hlkg).2.1

omit [DecidableEq δ] in
theorem Accepted.isManifestOf {request : Registration} (h : Accepted env s request) :
    IsManifestOf env request.id (env.encodeManifest request.manifest) :=
  ⟨request.manifest, rfl, rfl, h.valid⟩

/-- What a registration leaves, however it ends: the store as it was or, where there was room
for one more release, one in which only the slot of the release has changed. -/
def Registers (env : ReleaseEnvironment δ) (request : Registration) (s s' : ReleaseDisk δ) :
    Prop :=
  s' = s ∨ (Accepted env s request ∧
    (∃ catalog, loadUnlocked env s = .ok catalog ∧ catalog.releases.length < env.maxSlots) ∧
    Fills env request.id s s')

omit [DecidableEq δ] in
theorem ensureSlotCapacity_eq_ok {catalog : ReleaseCatalog}
    (h : ensureSlotCapacity env catalog = .ok ()) : catalog.releases.length < env.maxSlots := by
  rw [ensureSlotCapacity] at h
  split at h
  · cases h
  · omega

theorem wp_of_fills {α : Type} {p : ReleaseProgram δ α} {request : Registration}
    {catalog : ReleaseCatalog} (hload : loadUnlocked env s = .ok catalog)
    (hroom : ensureSlotCapacity env catalog = .ok ()) (h : Accepted env s request)
    (hp : p.Within (Fills env request.id)) :
    p.wp (fun _ => Registers env request s) (fun _ => Registers env request s)
      (Registers env request s) s := by
  have hregisters : ∀ s', Fills env request.id s s' → Registers env request s s' := fun s' hs =>
    Or.inr ⟨h, ⟨catalog, hload, ensureSlotCapacity_eq_ok hroom⟩, hs⟩
  exact wp_mono (fun _ => hregisters) (fun _ => hregisters) hregisters (hp s)

theorem registers_register (request : Registration) :
    (register env request).wp (fun _ => Registers env request s)
      (fun _ => Registers env request s) (Registers env request s) s := by
  rw [register, wp_bind]
  refine wp_beginRegistration (fun catalog hload haccepted => ?_) fun _ => Or.inl rfl
  have hvalid : validateReleaseId request.id = .ok () :=
    validateReleaseId_of_manifest haccepted.valid
  rw [wp_bind, wp_ofExcept]
  refine ⟨fun _ hroom => ?_, fun _ _ => Or.inl rfl⟩
  refine wp_of_fills hload hroom haccepted ?_
  refine fills_bind (fills_modifySlot hvalid fun _ hs => hs) fun _ => ?_
  refine fills_bind (fills_writeManifest hvalid haccepted.isManifestOf) fun _ => ?_
  exact fills_readOnly (readOnly_ofExcept _)

theorem registers_registerPrepared (candidate : PreparedCandidate) (request : Registration) :
    (registerPrepared env candidate request).wp (fun _ => Registers env request s)
      (fun _ => Registers env request s) (Registers env request s) s := by
  rw [registerPrepared, wp_bind]
  refine wp_beginRegistration (fun catalog hload haccepted => ?_) fun _ => Or.inl rfl
  have hvalid : validateReleaseId request.id = .ok () :=
    validateReleaseId_of_manifest haccepted.valid
  rw [wp_bind, wp_ofExcept]
  refine ⟨fun _ _ => ?_, fun _ _ => Or.inl rfl⟩
  rw [wp_bind, wp_ofExcept]
  refine ⟨fun _ hroom => ?_, fun _ _ => Or.inl rfl⟩
  refine wp_of_fills hload hroom haccepted ?_
  refine fills_bind (fills_readOnly readOnly_read) fun disk => ?_
  split
  · exact fills_readOnly (readOnly_throw _)
  split
  · exact fills_readOnly (readOnly_throw _)
  next hmanifest =>
  rw [Option.not_isSome_iff_eq_none] at hmanifest
  refine fills_bind (fills_readOnly (readOnly_ofExcept _)) fun links => ?_
  split
  · exact fills_readOnly (readOnly_throw _)
  next hmarker =>
  rw [Option.not_isSome_iff_eq_none] at hmarker
  have hcandidate : SlotSound env request.id candidate.files := by
    refine ⟨hvalid, fun bytes hb => ?_, fun bytes hb => ?_⟩
    · rw [hmanifest] at hb; exact nomatch hb
    · rw [hmarker] at hb; exact nomatch hb
  refine fills_bind (fills_readOnly (readOnly_attempt _)) fun _ => ?_
  refine fills_bind (within_durable fills_refl fun s =>
    ⟨.putSlot s (hcandidate.insert fun _ => haccepted.isManifestOf), rfl⟩) fun _ => ?_
  refine fills_bind (fills_readOnly (readOnly_forM
    (fun _ => readOnly_attempt _) _)) fun _ => ?_
  refine fills_bind (fills_modifySlot hvalid fun slot hs =>
    (hs.erase _).insert fun _ => haccepted.isManifestOf) fun _ => ?_
  exact fills_readOnly (readOnly_ofExcept _)

theorem Registers.keeps {request : Registration} (h : Registers env request s s')
    (hkept : Kept env s) : Kept env s' := by
  rcases h with rfl | ⟨haccepted, -, hfills⟩
  · exact hkept
  · exact hfills.works.keeps hkept.1 hkept.2 (haccepted.lkg hkept.2)

theorem wp_register (request : Registration) (h : Kept env s) :
    (register env request).wp (fun _ => Kept env) (fun _ => Kept env) (Kept env) s :=
  wp_mono (fun _ _ hs => hs.keeps h) (fun _ _ hs => hs.keeps h) (fun _ hs => hs.keeps h)
    (registers_register request)

theorem wp_registerPrepared (candidate : PreparedCandidate) (request : Registration)
    (h : Kept env s) : (registerPrepared env candidate request).wp (fun _ => Kept env)
      (fun _ => Kept env) (Kept env) s :=
  wp_mono (fun _ _ hs => hs.keeps h) (fun _ _ hs => hs.keeps h) (fun _ hs => hs.keeps h)
    (registers_registerPrepared candidate request)

theorem within_deleteInOrder (files : DeletionOrder δ) (hvalid : validateReleaseId id = .ok ())
    (ownership : CleanupOwnership δ) (guard : Except IoError Unit) :
    (deleteInOrder env files id ownership guard).Within (Works env id) := by
  have hlast : (Program.durable fileOperationFailed fun disk : ReleaseDisk δ =>
      disk.removeOwned id).Within (Works env id) :=
    within_durable (.refl env id) fun s => .removeOwned s
  refine within_bind (within_readOnly (readOnly_ofExcept _)) fun _ => ?_
  refine within_bind (within_readOnly (readOnly_inspect _)) fun current => ?_
  rcases current with _ | current
  · exact hlast
  · refine within_bind (within_forM (R := Works env id) (.refl env id) Works.trans
      (fun entry => ?_) _) fun _ => ?_
    · exact within_bind (within_readOnly (readOnly_inspect _)) fun _ =>
        within_durable (.refl env id) fun s =>
          .modifySlot s hvalid fun slot hs => hs.erase _
    · exact within_bind (within_durable (.refl env id) fun s => .removeSlot s)
        fun _ => hlast

theorem within_beginBound (manifest : ReleaseManifest) (expected : Option δ) :
    (beginBound env id manifest expected).Within (Works env id) := by
  refine within_bind (within_readOnly readOnly_read) fun disk => ?_
  split
  · refine within_bind (within_readOnly (readOnly_inspect _)) fun _ => ?_
    refine within_bind (within_readOnly (readOnly_ofExcept _)) fun _ => ?_
    exact within_readOnly (readOnly_pure _)
  · split
    · exact within_readOnly (readOnly_throw _)
    · refine within_bind (within_readOnly (readOnly_ofExcept _)) fun _ => ?_
      refine within_bind (within_durable (.refl env id) fun s => .putOwned s _)
        fun _ => ?_
      exact within_readOnly (readOnly_pure _)

theorem wp_removeWithDigest (digest : Option δ) (guard : Except IoError Unit)
    (h : Kept env s) : (removeWithDigest env id digest guard).wp (fun _ => Kept env)
      (fun _ => Kept env) (Kept env) s := by
  rw [removeWithDigest, wp_bind, wp_ofExcept]
  refine ⟨fun _ hvalid => ?_, fun _ _ => h⟩
  rw [wp_bind, wp_inspect]
  refine ⟨fun catalog hload => ?_, fun _ _ => h⟩
  rw [wp_bind, wp_inspect]
  refine ⟨fun pending _ => ?_, fun _ _ => h⟩
  split
  · exact h
  split
  · exact h
  split
  · exact h
  next manifest _ _ hlkg =>
  have hstored : (pointerDocument s).lastKnownGood ≠ some id := fun hstored =>
    hlkg (((loadUnlocked_eq_ok hload).lkg_iff id).mpr ⟨hstored, (h.2 id hstored).2⟩)
  refine wp_of_works ?_ h hstored
  refine within_bind (within_readOnly (readOnly_ofExcept _)) fun _ => ?_
  refine within_bind (within_beginBound manifest digest) fun ownership => ?_
  refine within_bind (within_deleteInOrder deepestFirst hvalid ownership guard) fun _ => ?_
  exact within_readOnly (readOnly_ofExcept _)

/-! ## Selection -/

/-- The pointers of the catalog may be published. -/
structure Publishable (env : ReleaseEnvironment δ) (s : ReleaseDisk δ)
    (healthy : List (HealthyReleaseEvidence δ)) (catalog : ReleaseCatalog) : Prop where
  valid : ∀ id, catalog.currentRelease = some id ∨ catalog.lastKnownGood = some id →
    validateReleaseId id = .ok ()
  fallback : ∀ id, catalog.lastKnownGood = some id →
    catalog.currentRelease ≠ some id ∧ Usable env s healthy id

omit [DecidableEq δ] in
theorem Publishable.kept {healthy : List (HealthyReleaseEvidence δ)} {catalog : ReleaseCatalog}
    (h : Publishable env s healthy catalog) (hsound : StoreSound env s)
    (hbounded : healthy.length ≤ 256) :
    Kept env { s with pointers := some ⟨RELEASE_SCHEMA_VERSION, catalog.currentRelease,
      catalog.lastKnownGood, healthy⟩ } := by
  refine ⟨⟨hsound.slots, ⟨rfl, h.valid, ?_, hbounded⟩⟩, fun id hid => ?_⟩
  · rintro ⟨hsome, heq⟩
    obtain ⟨id, hid⟩ := Option.isSome_iff_exists.mp hsome
    exact (h.fallback id (heq.symm.trans hid)).1 hid
  · obtain ⟨hcurrent, husable⟩ := h.fallback id hid
    exact ⟨hcurrent, (usable_congr rfl rfl).mpr husable⟩

omit [DecidableEq δ] in
theorem Loaded.publishable {catalog : ReleaseCatalog} (h : Loaded env s catalog) :
    Publishable env s (pointerDocument s).healthy catalog := by
  refine ⟨h.pointers_valid, fun id hid => ⟨fun hcurrent => ?_, ((h.lkg_iff id).mp hid).2⟩⟩
  exact h.differ ⟨by rw [hcurrent]; rfl, hcurrent.trans hid.symm⟩

theorem publishable_of_fallback {selected fallback : Option String} {catalog : ReleaseCatalog}
    (hfallback : verifiedFallback env s selected = .ok fallback)
    (hselected : ∀ id, selected = some id → validateReleaseId id = .ok ())
    (hselectable : ∀ id, fallback = some id → validateReleaseId id = .ok () ∧ Selectable s id)
    (hcurrent : catalog.currentRelease = selected) (hlkg : catalog.lastKnownGood = fallback) :
    Publishable env s (pointerDocument s).healthy catalog := by
  refine ⟨fun id hid => ?_, fun id hid => ?_⟩
  · rw [hcurrent, hlkg] at hid
    exact hid.elim (hselected id) fun hid => (hselectable id hid).1
  · rw [hlkg] at hid
    rw [hcurrent]
    obtain ⟨record, hrecord, rfl⟩ := (verifiedFallback_eq_ok hfallback id).mp hid
    exact hrecord.usable (hselectable _ hid).2

theorem within_retarget (newCurrent : Option String) :
    (retargetLaunchPlaceholder env newCurrent).Within SameStore := by
  have hread : ∀ {α : Type} {p : ReleaseProgram δ α}, p.ReadOnly → p.Within SameStore :=
    fun hp => Program.ReadOnly.within (R := SameStore) (fun _ => ⟨rfl, rfl, rfl⟩) hp
  have htrans : ∀ {s t u : ReleaseDisk δ}, SameStore s t → SameStore t u → SameStore s u :=
    fun h h' => ⟨h'.1.trans h.1, h'.2.1.trans h.2.1, h'.2.2.trans h.2.2⟩
  unfold retargetLaunchPlaceholder
  split
  · exact hread (readOnly_pure _)
  · refine Program.Within.bind (R := SameStore) htrans (hread (readOnly_inspect _))
      fun catalog => ?_
    refine Program.Within.bind (R := SameStore) htrans (hread (readOnly_forM
      (fun _ => readOnly_inspect _) _)) fun _ => ?_
    exact within_durable (fun _ => ⟨rfl, rfl, rfl⟩) fun _ => ⟨rfl, rfl, rfl⟩

theorem wp_publish {catalog : ReleaseCatalog} (newCurrent : Option String) (h : Kept env s)
    (hcatalog : Publishable env s (pointerDocument s).healthy catalog) :
    (do
      retargetLaunchPlaceholder env newCurrent
      writePointers catalog
      pure catalog : ReleaseProgram δ ReleaseCatalog).wp (fun _ => Kept env) (fun _ => Kept env)
        (Kept env) s := by
  have hkept : ∀ s₁, SameStore s s₁ → Kept env s₁ := fun s₁ hs => hs.keeps h.1 h.2
  rw [wp_bind]
  refine wp_mono (fun _ s₁ hs₁ => ?_) (fun _ => hkept) hkept
    (within_retarget newCurrent s)
  have h₁ := hkept s₁ hs₁
  have hdocument : pointerDocument s₁ = pointerDocument s := by
    rw [pointerDocument, pointerDocument, hs₁.2.2]
  rw [wp_bind, writePointers, wp_bind, wp_inspect]
  refine ⟨fun healthy hhealthy => ?_, fun _ _ => h₁⟩
  obtain rfl := healthRecords_eq_ok hhealthy
  rw [hdocument]
  have hcatalog₁ : Publishable env s₁ (pointerDocument s).healthy catalog :=
    ⟨hcatalog.valid, fun id hid => (hcatalog.fallback id hid).imp_right
      (usable_congr (by rw [hs₁.1]) (by rw [hs₁.2.1])).mpr⟩
  have hnext := hcatalog₁.kept h₁.1 h.1.document.bounded
  rw [wp_durable]
  exact ⟨h₁, hnext, hnext, h₁, hnext⟩

theorem wp_promote (id : String) (h : Kept env s) :
    (promote env id).wp (fun _ => Kept env) (fun _ => Kept env) (Kept env) s := by
  rw [promote, promoteInner, wp_bind, wp_ofExcept]
  refine ⟨fun _ hvalid => ?_, fun _ _ => h⟩
  rw [wp_bind, wp_inspect]
  refine ⟨fun catalog hload => ?_, fun _ _ => h⟩
  have hl := loadUnlocked_eq_ok hload
  split
  · exact h
  show (if catalog.currentRelease ≠ some id then _ else _ :
    ReleaseProgram δ ReleaseCatalog).wp _ _ _ s
  split
  · rw [wp_bind, wp_inspect]
    refine ⟨fun fallback hfallback => ?_, fun _ _ => h⟩
    rw [wp_bind, wp_ofExcept]
    refine ⟨fun catalog' hnormal => ?_, fun _ _ => h⟩
    obtain ⟨-, -, hlkg, -, rfl⟩ := ReleaseCatalog.normalize_eq_ok.mp hnormal
    refine wp_publish (some id) h (publishable_of_fallback hfallback ?_
      (fun id hid => ⟨(hlkg id hid).1, (hl.has_iff id).mp (hlkg id hid).2⟩) rfl rfl)
    intro other hother
    rw [← Option.some.inj hother]
    exact hvalid
  · exact h

theorem wp_restoreCheckpointRelease (releaseId : Option String) (h : Kept env s) :
    (restoreCheckpointRelease env releaseId).wp (fun _ => Kept env) (fun _ => Kept env)
      (Kept env) s := by
  rw [restoreCheckpointRelease, wp_bind, wp_ofExcept]
  refine ⟨fun _ hvalid => ?_, fun _ _ => h⟩
  rw [wp_bind, wp_inspect]
  refine ⟨fun catalog hload => ?_, fun _ _ => h⟩
  have hl := loadUnlocked_eq_ok hload
  rw [wp_bind, wp_inspect]
  refine ⟨fun catalog' happly => wp_publish _ h ?_, fun _ _ => h⟩
  rw [applyCheckpointRelease] at happly
  obtain ⟨_, -, happly⟩ := bind_eq_ok happly
  split at happly
  · obtain ⟨fallback, hfallback, happly⟩ := bind_eq_ok happly
    obtain ⟨-, hcurrent, hlkg, -, rfl⟩ := ReleaseCatalog.normalize_eq_ok.mp happly
    exact publishable_of_fallback hfallback (fun id hid => (hcurrent id hid).1)
      (fun id hid => ⟨(hlkg id hid).1, (hl.has_iff id).mp (hlkg id hid).2⟩) rfl rfl
  · rw [← Except.ok.inj happly]
    exact hl.publishable

/-- The fallback for a selection, where there is one, is selectable. -/
def FallbackSelectable (env : ReleaseEnvironment δ) (s : ReleaseDisk δ)
    (selected : Option String) : Prop :=
  ∀ record, IsFallback env s selected record → Selectable s record.releaseId

omit [DecidableEq δ] in
theorem Selectable.validateReleaseId {catalog : ReleaseCatalog} (hl : Loaded env s catalog)
    (h : Selectable s id) : validateReleaseId id = .ok () :=
  hl.consistent.validateReleaseId ((hl.has_iff id).mpr h)

theorem wp_rollback (h : Kept env s)
    (hfallback : ∀ lkg, (pointerDocument s).lastKnownGood = some lkg →
      FallbackSelectable env s (some lkg)) :
    (rollback env).wp (fun _ => Kept env) (fun _ => Kept env) (Kept env) s := by
  rw [rollback, wp_bind, wp_inspect]
  refine ⟨fun catalog hload => ?_, fun _ _ => h⟩
  have hl := loadUnlocked_eq_ok hload
  split
  · exact h
  next lkg hlkg =>
  obtain ⟨hstored, hselectable, -⟩ := (hl.lkg_iff lkg).mp hlkg
  rw [wp_bind, wp_inspect]
  refine ⟨fun fallback hverified => ?_, fun _ _ => h⟩
  refine wp_publish (some lkg) h (publishable_of_fallback hverified (fun id hid => ?_)
    (fun id hid => ?_) rfl rfl)
  · rw [← Option.some.inj hid]
    exact hselectable.validateReleaseId hl
  · obtain ⟨record, hrecord, rfl⟩ := (verifiedFallback_eq_ok hverified id).mp hid
    have hsel := hfallback lkg hstored record hrecord
    exact ⟨hsel.validateReleaseId hl, hsel⟩

/-! ## Health -/

omit [DecidableEq δ] in
theorem Loaded.publishable_withObservation {catalog : ReleaseCatalog} (hl : Loaded env s catalog)
    {evidence : HealthyReleaseEvidence δ}
    (hcurrent : catalog.currentRelease = some evidence.releaseId) (now : Nat) :
    Publishable env s (withObservation catalog evidence now (pointerDocument s).healthy)
      catalog := by
  refine ⟨hl.pointers_valid, fun id hid => ?_⟩
  obtain ⟨hne, hselectable, record, hrecord, hid', hconfirms⟩ := hl.publishable.fallback id hid
  refine ⟨hne, hselectable, record, List.mem_append_left _ ?_, hid', hconfirms⟩
  rw [List.mem_filter]
  refine ⟨hrecord, ?_⟩
  rw [hid', Bool.and_eq_true, decide_eq_true_eq]
  refine ⟨fun heq => hne (by rw [hcurrent, heq]), ?_⟩
  exact ReleaseCatalog.find_isSome.mpr ((hl.has_iff id).mpr hselectable)

theorem wp_recordHealthyRelease (evidence : HealthyReleaseEvidence δ) (now : Nat)
    (h : Kept env s) : (recordHealthyRelease env evidence now).wp (fun _ => Kept env)
      (fun _ => Kept env) (Kept env) s := by
  rw [recordHealthyRelease, wp_bind, wp_inspect]
  refine ⟨fun _ _ => ?_, fun _ _ => h⟩
  rw [wp_bind, wp_inspect]
  refine ⟨fun catalog hload => ?_, fun _ _ => h⟩
  split
  · exact h
  next hcurrent =>
  rw [not_not] at hcurrent
  rw [wp_bind, wp_inspect]
  refine ⟨fun records hrecords => ?_, fun _ _ => h⟩
  obtain rfl := healthRecords_eq_ok hrecords
  split
  · exact h
  next hbounded =>
  have hnext := ((loadUnlocked_eq_ok hload).publishable_withObservation hcurrent now).kept h.1
    (Nat.not_lt.mp hbounded)
  rw [wp_durable]
  exact ⟨h, hnext, hnext, h, hnext⟩

/-! ## Sessions -/

inductive ReleaseCall (δ : Type)
  | register (request : Registration)
  | registerPrepared (candidate : PreparedCandidate) (request : Registration)
  | promote (id : String)
  | recordHealthyRelease (evidence : HealthyReleaseEvidence δ) (now : Nat)
  | rollback
  | restoreCheckpointRelease (releaseId : Option String)
  | remove (id : String) (guard : Except IoError Unit)

def ReleaseCall.program (env : ReleaseEnvironment δ) : ReleaseCall δ → ReleaseProgram δ Unit
  | register request => (fun _ => ()) <$> Release.register env request
  | registerPrepared candidate request =>
      (fun _ => ()) <$> Release.registerPrepared env candidate request
  | promote id => (fun _ => ()) <$> Release.promote env id
  | recordHealthyRelease evidence now => Release.recordHealthyRelease env evidence now
  | rollback => (fun _ => ()) <$> Release.rollback env
  | restoreCheckpointRelease releaseId =>
      (fun _ => ()) <$> Release.restoreCheckpointRelease env releaseId
  | remove id guard => (fun _ => ()) <$> Release.remove env id guard

/-- The release is in the effective catalog. -/
def Registered (env : ReleaseEnvironment δ) (s : ReleaseDisk δ) (id : String) : Prop :=
  ∃ catalog, loadUnlocked env s = .ok catalog ∧ (catalog.find id).isSome = true

/-- The fallback for a selection, where there is one, is in the effective catalog. -/
def FallbackRegistered (env : ReleaseEnvironment δ) (s : ReleaseDisk δ)
    (selected : Option String) : Prop :=
  ∀ record, IsFallback env s selected record → Registered env s record.releaseId

/-- A rollback is made while its fallback is in the effective catalog. -/
def RollbackGuarded (env : ReleaseEnvironment δ) (call : ReleaseCall δ) (s : ReleaseDisk δ) :
    Prop :=
  match call with
  | .rollback => ∀ lkg, (pointerDocument s).lastKnownGood = some lkg →
      FallbackRegistered env s (some lkg)
  | _ => True

theorem registered_iff_find : Registered env s id ↔
    ((loadUnlocked env s).toOption.bind fun catalog => catalog.find id).isSome = true := by
  unfold Registered
  cases loadUnlocked env s with
  | error e => exact iff_of_false (fun ⟨_, h, _⟩ => nomatch h) (by simp [Except.toOption])
  | ok catalog => simp [Except.toOption]

instance : Decidable (Registered env s id) := decidable_of_iff' _ registered_iff_find

theorem fallbackRegistered_of_toOption {selected fallback : Option String}
    (h : (verifiedFallback env s selected).toOption = some fallback)
    (hregistered : ∀ id, fallback = some id → Registered env s id) :
    FallbackRegistered env s selected := by
  intro record hr
  rcases hv : verifiedFallback env s selected with _ | found
  · rw [hv] at h; exact nomatch h
  · rw [hv] at h
    rw [Option.some.inj h] at hv
    exact hregistered _ ((verifiedFallback_eq_ok hv _).mpr ⟨record, hr, rfl⟩)

theorem StoreSound.registered_iff (h : StoreSound env s) : Registered env s id ↔ Selectable s id := by
  obtain ⟨catalog, hload⟩ := h.loads
  have hl := loadUnlocked_eq_ok hload
  constructor
  · rintro ⟨catalog', hload', hfind⟩
    exact ((loadUnlocked_eq_ok hload').has_iff id).mp (ReleaseCatalog.find_isSome.mp hfind)
  · intro hselectable
    exact ⟨catalog, hload, ReleaseCatalog.find_isSome.mpr ((hl.has_iff id).mpr hselectable)⟩

theorem StoreSound.fallbackRegistered_iff (h : StoreSound env s) {selected : Option String} :
    FallbackRegistered env s selected ↔ FallbackSelectable env s selected :=
  forall_congr' fun _ => imp_congr_right fun _ => h.registered_iff

/-- **Every call keeps the invariant**, at a return, at an error and at a crash. -/
theorem wp_releaseCall (call : ReleaseCall δ) (h : Kept env s) (hguard : RollbackGuarded env call s) :
    (call.program env).wp (fun _ => Kept env) (fun _ => Kept env) (Kept env) s := by
  cases call with
  | register request => exact (wp_map _ _).mpr (wp_register request h)
  | registerPrepared candidate request =>
    exact (wp_map _ _).mpr (wp_registerPrepared candidate request h)
  | promote id => exact (wp_map _ _).mpr (wp_promote id h)
  | recordHealthyRelease evidence now => exact wp_recordHealthyRelease evidence now h
  | rollback =>
    refine (wp_map _ _).mpr (wp_rollback h fun lkg hlkg => ?_)
    exact h.1.fallbackRegistered_iff.mp (hguard lkg hlkg)
  | restoreCheckpointRelease releaseId =>
    exact (wp_map _ _).mpr (wp_restoreCheckpointRelease releaseId h)
  | remove id guard => exact (wp_map _ _).mpr (wp_removeWithDigest none guard h)

def newStore (config : Option Bytes) : ReleaseDisk δ := { emptyStore with config }

omit [DecidableEq δ] in
theorem kept_newStore (config : Option Bytes) : Kept env (newStore config) := by
  refine ⟨⟨fun id slot hslot => ?_, ⟨rfl, ?_, ?_, Nat.zero_le _⟩⟩, fun id hid => ?_⟩
  · exact nomatch (show (none : Option Slot) = some slot from hslot)
  · rintro id (hid | hid) <;> exact nomatch (show (none : Option String) = some id from hid)
  · rintro ⟨hsome, -⟩
    exact nomatch (show (none : Option String).isSome = true from hsome)
  · exact nomatch (show (none : Option String) = some id from hid)

theorem kept_of_session {calls : List (ReleaseCall δ × List Fault)} (config : Option Bytes)
    (h : Session.Respects (ReleaseCall.program env) (RollbackGuarded env) calls (newStore config)) :
    Kept env (Session.finalState (ReleaseCall.program env) calls (newStore config)) :=
  Session.finalState_invariant (fun call _ hs hguard => wp_releaseCall call hs hguard) calls _
    (kept_newStore config) h

/-! ## Promotion -/

theorem returns_retargetLaunchPlaceholder {Q : Unit → ReleaseDisk δ → Prop} (h : Kept env s)
    (newCurrent : Option String) (hQ : ∀ s', SameStore s s' → Q () s') :
    (retargetLaunchPlaceholder env newCurrent).returns Q s := by
  rcases newCurrent with _ | id
  · exact hQ s ⟨rfl, rfl, rfl⟩
  obtain ⟨catalog, hload⟩ := h.1.loads
  have hl := loadUnlocked_eq_ok hload
  unfold retargetLaunchPlaceholder
  dsimp only
  rw [returns_bind, returns_inspect]
  refine ⟨catalog, hload, ?_⟩
  rw [returns_bind]
  refine returns_mono ?_ (returns_forM
    (I := fun releases s' => s' = s ∧ ∀ release ∈ releases, catalog.Has release.id)
    (fun release releases s' hs' => ?_) catalog.releases s
    ⟨rfl, fun release hrelease => List.mem_map_of_mem hrelease⟩)
  · rintro _ s' ⟨rfl, -⟩
    exact hQ _ ⟨rfl, rfl, rfl⟩
  · obtain ⟨rfl, hreleases⟩ := hs'
    obtain ⟨hrelease, hreleases⟩ := List.forall_mem_cons.mp hreleases
    rw [returns_inspect]
    exact ⟨(), (releaseRootUnlocked_iff hl).mpr ((hl.has_iff _).mp hrelease), rfl, hreleases⟩

theorem returns_publish_iff {catalog : ReleaseCatalog} (h : Kept env s)
    (hl : Loaded env s catalog) (hhas : catalog.Has id) :
    (do
      let fallback ← Program.inspect fun disk => verifiedFallback env disk (some id)
      let catalog ← Program.ofExcept
        { catalog with currentRelease := some id, lastKnownGood := fallback }.normalize
      retargetLaunchPlaceholder env (some id)
      writePointers catalog
      pure catalog : ReleaseProgram δ ReleaseCatalog).returns (fun _ _ => True) s ↔
        FallbackSelectable env s (some id) := by
  obtain ⟨fallback, hfallback⟩ := h.1.fallback (some id)
  have hrecord := verifiedFallback_eq_ok hfallback
  rw [returns_bind, returns_inspect]
  constructor
  · rintro ⟨fallback', hfallback', hreturns⟩ record hr
    rw [returns_bind, returns_ofExcept] at hreturns
    obtain ⟨catalog', hnormal, -⟩ := hreturns
    obtain ⟨-, -, hlkg, -⟩ := ReleaseCatalog.normalize_eq_ok.mp hnormal
    have heq := (verifiedFallback_eq_ok hfallback' _).mpr ⟨record, hr, rfl⟩
    exact (hl.has_iff _).mp (hlkg _ heq).2
  · intro hselectable
    have hlkg : ∀ other, fallback = some other →
        Selectable s other ∧ some id ≠ some other := by
      intro other hother
      obtain ⟨record, hr, rfl⟩ := (hrecord other).mp hother
      have hsel := hselectable record hr
      obtain ⟨-, -, -, ⟨hne, -⟩, -⟩ := hr
      exact ⟨hsel, hne⟩
    refine ⟨fallback, hfallback, ?_⟩
    rw [returns_bind, returns_ofExcept]
    refine ⟨_, ReleaseCatalog.normalize_eq_ok.mpr ⟨hl.consistent, ?_, ?_, ?_, rfl⟩, ?_⟩
    · rintro _ ⟨⟩
      exact ⟨hl.consistent.validateReleaseId hhas, hhas⟩
    · intro other hother
      have hsel := (hlkg other hother).1
      exact ⟨hsel.validateReleaseId hl, (hl.has_iff other).mpr hsel⟩
    · rintro ⟨-, heq⟩
      exact (hlkg id heq.symm).2 rfl
    · rw [returns_bind]
      refine returns_retargetLaunchPlaceholder h _ fun s' hs' => ?_
      have h' := hs'.keeps h.1 h.2
      rw [returns_bind, writePointers, returns_bind, returns_inspect]
      exact ⟨_, h'.1.healthRecords, trivial⟩

/-- **A promotion of a registered release succeeds exactly when its fallback is registered.** -/
theorem returns_promote_iff (h : Kept env s) (hid : Registered env s id) :
    (promote env id).returns (fun _ _ => True) s ↔
      ((pointerDocument s).currentRelease = some id ∨ FallbackRegistered env s (some id)) := by
  obtain ⟨catalog, hload, hfind⟩ := hid
  have hl := loadUnlocked_eq_ok hload
  have hhas := ReleaseCatalog.find_isSome.mp hfind
  have hselectable := (hl.has_iff id).mp hhas
  have hvalid := hselectable.validateReleaseId hl
  have hcurrent : catalog.currentRelease = some id ↔
      (pointerDocument s).currentRelease = some id :=
    (hl.current_iff id).trans (and_iff_left hselectable)
  have hfound : catalog.find id ≠ none := Option.isSome_iff_ne_none.mp hfind
  have hdone : ∀ x : Except IoError Unit, x = .ok () → ∀ P : Prop, (∃ u, x = .ok u ∧ P) ↔ P :=
    fun x hx P => ⟨fun ⟨_, _, hp⟩ => hp, fun hp => ⟨(), hx, hp⟩⟩
  rw [promote, promoteInner, returns_bind, returns_ofExcept, hdone _ hvalid,
    returns_bind, returns_inspect]
  simp only [hload, Except.ok.injEq, exists_eq_left']
  rw [if_neg hfound]
  show Program.returns (if catalog.currentRelease ≠ some id then _ else _ :
    ReleaseProgram δ ReleaseCatalog) _ s ↔ _
  split
  · next hother =>
    rw [or_iff_right (fun hc => hother (hcurrent.mpr hc)), h.1.fallbackRegistered_iff]
    exact returns_publish_iff h hl hhas
  · next hsame =>
    rw [not_not] at hsame
    exact iff_of_true trivial (Or.inl (hcurrent.mp hsame))

end Calls

/-! ## Three releases -/

/-- The evidence of a healthy run whose entry is the manifest itself. -/
def observation (id : String) : HealthyReleaseEvidence Bytes :=
  let manifest := encodeSample (registration id).manifest
  ⟨id, "revision", "run", 0, [.normal "manifest.json"], manifest ++ manifest⟩

/-- The releases b and a have run, and c is selected. -/
def threeReleases : List (ReleaseCall Bytes × List Fault) :=
  [(.register (registration "a"), []), (.register (registration "b"), []),
    (.register (registration "c"), []), (.promote "b", []),
    (.recordHealthyRelease (observation "b") 1, []), (.promote "a", []),
    (.recordHealthyRelease (observation "a") 2, []), (.promote "c", [])]

def storeAfter (calls : List (ReleaseCall Bytes × List Fault)) : ReleaseDisk Bytes :=
  Session.finalState (ReleaseCall.program sampleEnvironment) calls (newStore none)

/-- The removal of b stops after it has written its ownership record. -/
def removalStopped : ReleaseDisk Bytes :=
  storeAfter (threeReleases ++ [(.remove "b" (.ok ()), [.none, .crashBefore])])

end DshNexus.Release
