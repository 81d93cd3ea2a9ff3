import DshNexus.Release.Catalog

/-!
# The effective catalog

What the reading functions of the release store say about the disk.

* `Selectable`: the slot has a manifest, and neither a cleanup marker nor an ownership record.
* `Confirms`: the health record still matches the bytes of its slot.
* `Loaded`, `loadUnlocked_eq_ok`: the catalog lists the selectable releases, and keeps of the
  stored pointers what is selectable, and of the last-known-good what is confirmed.
* `IsFallback`, `verifiedFallback_eq_ok`: the fallback is the release of the newest confirmed
  record that is not the selected one.
-/

namespace DshNexus.Release

/-! ## Normalized catalogs -/

namespace ReleaseCatalog

theorem checkReleases_eq_ok {releases : List ReleaseManifest} {ids ids' : List String} :
    checkReleases releases ids = .ok ids' ↔
      (∀ release ∈ releases, validateReleaseManifest release = .ok ()) ∧
        (releases.map (·.id)).Nodup ∧ (∀ release ∈ releases, release.id ∉ ids) ∧
          ids' = (releases.map (·.id)).reverse ++ ids := by
  induction releases generalizing ids with
  | nil => simp [checkReleases, eq_comm]
  | cons release releases ih =>
    rw [checkReleases]
    constructor
    · intro h
      obtain ⟨_, hvalid, h⟩ := bind_eq_ok h
      split at h
      · exact nomatch h
      · next hnew =>
        obtain ⟨hvalids, hnodup, hfresh, rfl⟩ := ih.mp h
        have hnot : release.id ∉ ids := by simpa using hnew
        refine ⟨?_, ?_, ?_, by simp⟩
        · exact List.forall_mem_cons.mpr ⟨hvalid, hvalids⟩
        · rw [List.map_cons, List.nodup_cons, List.mem_map]
          refine ⟨?_, hnodup⟩
          rintro ⟨other, hother, heq⟩
          exact hfresh other hother (heq ▸ List.mem_cons_self ..)
        · exact List.forall_mem_cons.mpr ⟨hnot, fun other hother hmem =>
            hfresh other hother (List.mem_cons_of_mem _ hmem)⟩
    · rintro ⟨hvalids, hnodup, hfresh, rfl⟩
      obtain ⟨hvalid, hvalids⟩ := List.forall_mem_cons.mp hvalids
      obtain ⟨hnot, hfresh⟩ := List.forall_mem_cons.mp hfresh
      rw [List.map_cons, List.nodup_cons, List.mem_map] at hnodup
      rw [hvalid]
      show (if ids.contains release.id = true then _ else _) = _
      rw [if_neg (by simpa using hnot)]
      refine ih.mpr ⟨hvalids, hnodup.2, fun other hother hmem => ?_, by simp⟩
      rcases List.mem_cons.mp hmem with heq | hmem
      · exact hnodup.1 ⟨other, hother, heq⟩
      · exact hfresh other hother hmem

theorem checkPointer_eq_ok {ids : List String} {pointer : Option String} :
    checkPointer ids pointer = .ok () ↔
      ∀ id, pointer = some id → validateReleaseId id = .ok () ∧ id ∈ ids := by
  rcases pointer with _ | id
  · simp [checkPointer]
  · rw [checkPointer]
    constructor
    · intro h
      obtain ⟨_, hvalid, h⟩ := bind_eq_ok h
      split at h
      · next hmem =>
        rintro _ ⟨⟩
        exact ⟨hvalid, by simpa using hmem⟩
      · exact nomatch h
    · intro h
      obtain ⟨hvalid, hmem⟩ := h id rfl
      rw [hvalid]
      show (if ids.contains id = true then _ else _) = _
      rw [if_pos (by simpa using hmem)]
      rfl

/-- The manifests are valid and have different ids. -/
def Consistent (catalog : ReleaseCatalog) : Prop :=
  (∀ release ∈ catalog.releases, validateReleaseManifest release = .ok ()) ∧
    (catalog.releases.map (·.id)).Nodup

/-- The catalog has a release with the id. -/
def Has (catalog : ReleaseCatalog) (id : String) : Prop := id ∈ catalog.releases.map (·.id)

theorem find_isSome {catalog : ReleaseCatalog} {id : String} :
    (catalog.find id).isSome = true ↔ catalog.Has id := by
  simp [find, Has]

theorem find_eq_none {catalog : ReleaseCatalog} {id : String} :
    catalog.find id = none ↔ ¬ catalog.Has id := by
  rw [← find_isSome, Option.not_isSome_iff_eq_none]

/-- The catalog with its releases in order. -/
def sorted (catalog : ReleaseCatalog) : ReleaseCatalog :=
  { catalog with
    schemaVersion :=
      if catalog.schemaVersion = 0 then RELEASE_SCHEMA_VERSION else catalog.schemaVersion
    releases := catalog.releases.insertionSort NewestFirst }

theorem has_sorted {catalog : ReleaseCatalog} {id : String} :
    catalog.sorted.Has id ↔ catalog.Has id := by
  simp only [Has, sorted, List.mem_map, List.mem_insertionSort]

theorem Consistent.sorted {catalog : ReleaseCatalog} (h : catalog.Consistent) :
    catalog.sorted.Consistent := by
  refine ⟨fun release hrelease => h.1 release ((List.mem_insertionSort _).mp hrelease), ?_⟩
  exact (((List.perm_insertionSort NewestFirst catalog.releases).map _).nodup_iff).mpr h.2

/-- **When a catalog can be normalized.** -/
theorem normalize_eq_ok {catalog catalog' : ReleaseCatalog} :
    catalog.normalize = .ok catalog' ↔ catalog.Consistent ∧
      (∀ id, catalog.currentRelease = some id → validateReleaseId id = .ok () ∧ catalog.Has id) ∧
      (∀ id, catalog.lastKnownGood = some id → validateReleaseId id = .ok () ∧ catalog.Has id) ∧
      ¬ (catalog.currentRelease.isSome = true ∧
        catalog.currentRelease = catalog.lastKnownGood) ∧
      catalog' = catalog.sorted := by
  have hmem : ∀ id, id ∈ (catalog.releases.map (·.id)).reverse ++ [] ↔ catalog.Has id := by
    intro id
    rw [List.append_nil, List.mem_reverse, Has]
  rw [normalize]
  constructor
  · intro h
    obtain ⟨ids, hids, hafter⟩ := bind_eq_ok h
    obtain ⟨hvalid, hnodup, -, rfl⟩ := checkReleases_eq_ok.mp hids
    obtain ⟨_, hcurrent, hafter⟩ := bind_eq_ok hafter
    obtain ⟨_, hlkg, hafter⟩ := bind_eq_ok hafter
    have hpointer := fun pointer id (hp : checkPointer _ pointer = .ok ()) (hid : pointer = some id) =>
      (checkPointer_eq_ok.mp hp id hid).imp_right (hmem id).mp
    split at hafter
    · exact nomatch hafter
    · next hdiffer =>
      exact ⟨⟨hvalid, hnodup⟩, fun id => hpointer _ id hcurrent, fun id => hpointer _ id hlkg,
        hdiffer, (Except.ok.inj hafter).symm⟩
  · rintro ⟨hconsistent, hcurrent, hlkg, hdiffer, rfl⟩
    have hpointer := fun pointer (hp : ∀ id, pointer = some id → validateReleaseId id = .ok () ∧
        catalog.Has id) => checkPointer_eq_ok.mpr fun id hid =>
          (hp id hid).imp_right (hmem id).mpr
    rw [checkReleases_eq_ok.mpr ⟨hconsistent.1, hconsistent.2, by simp, rfl⟩]
    show (checkPointer _ _ >>= _) = _
    rw [hpointer _ hcurrent]
    show (checkPointer _ _ >>= _) = _
    rw [hpointer _ hlkg]
    show (if _ then _ else _) = _
    rw [if_neg hdiffer]
    rfl

end ReleaseCatalog

section Read

variable {δ : Type} [DecidableEq δ] {env : ReleaseEnvironment δ} {disk : ReleaseDisk δ}

/-! ## Health evidence -/

/-- The health record matches the bytes that are now in its slot. -/
def Confirms (env : ReleaseEnvironment δ) (disk : ReleaseDisk δ)
    (record : HealthyReleaseEvidence δ) : Prop :=
  healthFingerprint env disk record.releaseId record.entry = .ok record.fingerprint

instance (record : HealthyReleaseEvidence δ) : Decidable (Confirms env disk record) :=
  match h : healthFingerprint env disk record.releaseId record.entry with
  | .ok fingerprint =>
      if heq : fingerprint = record.fingerprint then isTrue (by rw [Confirms, h, heq])
      else isFalse fun hc => heq (by rw [Confirms, h] at hc; exact Except.ok.inj hc)
  | .error _ => isFalse fun hc => by rw [Confirms, h] at hc; exact nomatch hc

omit [DecidableEq δ] in
theorem kind_of_healthFingerprint {id : String} {entry : List PathComponent} {e : IoError}
    (h : healthFingerprint env disk id entry = .error e) :
    e.kind = .notFound ∨ e.kind = .invalidData ∨ e.kind = .invalidInput := by
  have hread : ∀ {file : Option Bytes} {limit : Nat},
      readRegularFileBounded file limit = .error e → e.kind = .invalidData := by
    intro file limit he
    unfold readRegularFileBounded at he
    split at he
    · cases he
    · split at he
      · rw [← Except.error.inj he]; rfl
      · cases he
  have hslot : slotDir disk id = .error e → e.kind = .invalidInput := by
    intro he
    rcases bind_eq_error he with he | ⟨_, _, he⟩
    · unfold validateReleaseId at he
      dsimp only at he
      split at he
      · rw [← Except.error.inj he]
      · cases he
    · cases he
  unfold healthFingerprint at h
  split at h
  · rw [← Except.error.inj h]; exact Or.inr (Or.inl rfl)
  · rcases bind_eq_error h with h | ⟨slot, -, h⟩
    · exact Or.inr (Or.inr (hslot h))
    · split at h
      · rw [← Except.error.inj h]; exact Or.inl rfl
      · split at h
        · rw [← Except.error.inj h]; exact Or.inl rfl
        · rcases bind_eq_error h with h | ⟨manifest, -, h⟩
          · exact Or.inr (Or.inl (hread h))
          · split at h
            · rw [← Except.error.inj h]; exact Or.inr (Or.inl rfl)
            · rcases bind_eq_error h with h | ⟨bytes, -, h⟩
              · exact Or.inr (Or.inl (hread h))
              · split at h
                · rw [← Except.error.inj h]; exact Or.inr (Or.inl rfl)
                · cases h

theorem healthEvidenceMatches_eq (record : HealthyReleaseEvidence δ) :
    healthEvidenceMatches env disk record = .ok (decide (Confirms env disk record)) := by
  unfold healthEvidenceMatches Confirms
  split
  · next h => simp [h]
  · next e h =>
    rw [if_pos (kind_of_healthFingerprint h)]
    simp [h]

theorem firstFallback_eq (selected : Option String) (records : List (HealthyReleaseEvidence δ)) :
    firstFallback env disk selected records =
      .ok ((records.find? fun record =>
        decide (selected ≠ some record.releaseId ∧ Confirms env disk record)).map
          (·.releaseId)) := by
  induction records with
  | nil => rfl
  | cons record records ih =>
    rw [firstFallback, healthEvidenceMatches_eq]
    by_cases hs : selected ≠ some record.releaseId
    · rw [if_pos hs]
      by_cases hc : Confirms env disk record
      · simp [bind, Except.bind, hs, hc, pure, Except.pure]
      · simp [bind, Except.bind, hc, ih]
    · rw [if_neg hs, ih, List.find?_cons_of_neg (by simp [hs])]

theorem verifiedRelease_eq (id : String) (records : List (HealthyReleaseEvidence δ)) :
    verifiedRelease env disk id records =
      .ok (if ∃ record ∈ records, record.releaseId = id ∧ Confirms env disk record then some id
        else none) := by
  induction records with
  | nil => rfl
  | cons record records ih =>
    rw [verifiedRelease, healthEvidenceMatches_eq]
    by_cases hs : record.releaseId = id
    · rw [if_pos hs]
      by_cases hc : Confirms env disk record
      · simp [bind, Except.bind, hs, hc, pure, Except.pure]
      · simp [bind, Except.bind, hc, ih]
    · rw [if_neg hs, ih]
      simp [hs]

theorem verifiedLkg_eq_ok {lkg : Option String} (h : verifiedLkg env disk = .ok lkg)
    (id : String) :
    lkg = some id ↔ (pointerDocument disk).lastKnownGood = some id ∧
      ∃ record ∈ (pointerDocument disk).healthy, record.releaseId = id ∧
        Confirms env disk record := by
  unfold verifiedLkg at h
  split at h
  · next hnone =>
    rw [hnone, ← Except.ok.inj h]
    simp
  · next other hother =>
    rw [verifiedRelease_eq] at h
    rw [hother, ← Except.ok.inj h]
    split
    · next hconfirmed =>
      refine ⟨fun heq => ⟨heq, ?_⟩, fun h => h.1⟩
      rw [← Option.some.inj heq]
      exact hconfirmed
    · next hnot =>
      refine iff_of_false (by simp) ?_
      rintro ⟨heq, hconfirmed⟩
      rw [← Option.some.inj heq] at hconfirmed
      exact hnot hconfirmed

theorem exists_verifiedLkg (env : ReleaseEnvironment δ) (disk : ReleaseDisk δ) :
    ∃ lkg, verifiedLkg env disk = .ok lkg := by
  unfold verifiedLkg
  split
  · exact ⟨none, rfl⟩
  · exact ⟨_, verifiedRelease_eq _ _⟩

/-- The record that `verified_fallback` chooses: the newest confirmed one of a release that
is not selected, and of equally new ones the last. -/
def IsFallback (env : ReleaseEnvironment δ) (disk : ReleaseDisk δ) (selected : Option String)
    (record : HealthyReleaseEvidence δ) : Prop :=
  let candidate := fun other : HealthyReleaseEvidence δ =>
    selected ≠ some other.releaseId ∧ Confirms env disk other
  ∃ before after, (pointerDocument disk).healthy = before ++ record :: after ∧
    candidate record ∧
    (∀ other ∈ before, candidate other → other.verifiedAtUnix ≤ record.verifiedAtUnix) ∧
    ∀ other ∈ after, candidate other → other.verifiedAtUnix < record.verifiedAtUnix

instance : Std.Total (LatestFirst (δ := δ)) :=
  ⟨fun a b => Nat.le_total b.verifiedAtUnix a.verifiedAtUnix⟩

instance : IsTrans (HealthyReleaseEvidence δ) LatestFirst := ⟨fun _ _ _ h h' => Nat.le_trans h' h⟩

omit [DecidableEq δ] in
theorem healthRecords_eq_ok {records : List (HealthyReleaseEvidence δ)}
    (h : healthRecords disk = .ok records) : records = (pointerDocument disk).healthy := by
  unfold healthRecords at h
  unfold pointerDocument
  split at h
  · next hnone => rw [hnone, ← Except.ok.inj h]; rfl
  · next document hdocument =>
    rw [hdocument]
    split at h
    · exact nomatch h
    · exact (Except.ok.inj h).symm

/-- **What the fallback is.** -/
theorem verifiedFallback_eq_ok {selected : Option String} {fallback : Option String}
    (h : verifiedFallback env disk selected = .ok fallback) (id : String) :
    fallback = some id ↔ ∃ record, IsFallback env disk selected record ∧ record.releaseId = id := by
  obtain ⟨records, hrecords, h⟩ := bind_eq_ok h
  rw [firstFallback_eq, healthRecords_eq_ok hrecords] at h
  rw [← Except.ok.inj h, Option.map_eq_some_iff]
  refine exists_congr fun record => and_congr_left fun _ => ?_
  rw [find?_insertionSort_eq_some, IsFallback]
  simp only [decide_eq_true_eq, LatestFirst, Nat.not_le]
  constructor
  · rintro ⟨before, after, hsplit, hcandidate, hbefore, hafter⟩
    refine ⟨after.reverse, before.reverse, ?_, hcandidate, fun other hother => ?_,
      fun other hother => ?_⟩
    · rw [← List.reverse_reverse (pointerDocument disk).healthy, hsplit]
      simp
    · exact hafter other (List.mem_reverse.mp hother)
    · exact hbefore other (List.mem_reverse.mp hother)
  · rintro ⟨before, after, hsplit, hcandidate, hbefore, hafter⟩
    refine ⟨after.reverse, before.reverse, by rw [hsplit]; simp, hcandidate,
      fun other hother => ?_, fun other hother => ?_⟩
    · exact hafter other (List.mem_reverse.mp hother)
    · exact hbefore other (List.mem_reverse.mp hother)

/-! ## The catalog of the disk -/

/-- The slot has a manifest, and neither a cleanup marker nor an ownership record. -/
def Selectable (disk : ReleaseDisk δ) (id : String) : Prop :=
  ∃ slot, disk.slots.lookup id = some slot ∧ disk.owned.lookup id = none ∧
    slot.lookup markerPath = none ∧ (slot.lookup manifestPath).isSome = true

theorem validateReleaseId_of_manifest {manifest : ReleaseManifest}
    (h : validateReleaseManifest manifest = .ok ()) : validateReleaseId manifest.id = .ok () := by
  obtain ⟨_, hid, -⟩ := bind_eq_ok h
  exact hid

theorem isValidReleaseId_iff {id : String} :
    isValidReleaseId id = true ↔ validateReleaseId id = .ok () := by
  unfold isValidReleaseId
  cases validateReleaseId id <;> simp [Except.isOk, Except.toBool]

omit [DecidableEq δ] in
theorem catalogEntry_eq_some {id : String} {slot : Slot} {manifest : ReleaseManifest}
    (h : catalogEntry env disk id slot = .ok (some manifest)) :
    manifest.id = id ∧ validateReleaseManifest manifest = .ok () ∧ disk.owned.lookup id = none ∧
      slot.lookup markerPath = none ∧ (slot.lookup manifestPath).isSome = true := by
  unfold catalogEntry at h
  split at h
  · exact nomatch h
  · next howned =>
    split at h
    · exact nomatch h
    · next hmarker =>
      split at h
      · exact nomatch h
      · next bytes hbytes =>
        split at h
        · exact nomatch h
        · obtain ⟨_, hvalid, h⟩ := bind_eq_ok h
          split at h
          · exact nomatch h
          · next hid =>
            obtain rfl := Option.some.inj (Except.ok.inj h)
            rw [not_not] at hid
            have hname : isValidReleaseId id = true :=
              isValidReleaseId_iff.mpr (hid ▸ validateReleaseId_of_manifest hvalid)
            refine ⟨hid, hvalid, ?_, ?_, by rw [hbytes]; rfl⟩
            · rw [← Option.not_isSome_iff_eq_none]
              exact fun hsome => howned ⟨hname, hsome⟩
            · rwa [← Option.not_isSome_iff_eq_none]

omit [DecidableEq δ] in
theorem catalogEntry_eq_none {id : String} {slot : Slot}
    (h : catalogEntry env disk id slot = .ok none) :
    (disk.owned.lookup id).isSome = true ∨ (slot.lookup markerPath).isSome = true ∨
      slot.lookup manifestPath = none := by
  unfold catalogEntry at h
  split at h
  · next howned => exact Or.inl howned.2
  · split at h
    · next hmarker => exact Or.inr (Or.inl hmarker)
    · split at h
      · next hnone => exact Or.inr (Or.inr hnone)
      · split at h
        · exact nomatch h
        · obtain ⟨_, -, h⟩ := bind_eq_ok h
          split at h <;> exact nomatch h

omit [DecidableEq δ] in
theorem catalogEntries_eq_ok {slots : List (Sigma fun _ : String => Slot)}
    {releases : List ReleaseManifest} (h : catalogEntries env disk slots = .ok releases) :
    (∀ release ∈ releases, ∃ slot, ⟨release.id, slot⟩ ∈ slots ∧
      catalogEntry env disk release.id slot = .ok (some release)) ∧
    (∀ named ∈ slots, catalogEntry env disk named.1 named.2 = .ok none ∨
      ∃ release ∈ releases, catalogEntry env disk named.1 named.2 = .ok (some release)) ∧
    (releases.map (·.id)).Sublist (slots.map Sigma.fst) := by
  induction slots generalizing releases with
  | nil =>
    obtain rfl := Except.ok.inj h
    simp
  | cons named slots ih =>
    obtain ⟨id, slot⟩ := named
    obtain ⟨entry, hentry, h⟩ := bind_eq_ok h
    rcases entry with _ | manifest
    · obtain ⟨hmem, hall, hsub⟩ := ih h
      refine ⟨fun release hrelease => ?_, ?_, hsub.cons _⟩
      · obtain ⟨slot', hslot', heq⟩ := hmem release hrelease
        exact ⟨slot', List.mem_cons_of_mem _ hslot', heq⟩
      · exact List.forall_mem_cons.mpr ⟨Or.inl hentry, hall⟩
    · obtain ⟨releases', hreleases', rfl⟩ : ∃ releases', catalogEntries env disk slots =
          .ok releases' ∧ manifest :: releases' = releases := by
        rcases hrest : catalogEntries env disk slots with _ | releases'
        · rw [hrest] at h; exact nomatch h
        · rw [hrest] at h; exact ⟨releases', rfl, Except.ok.inj h⟩
      obtain ⟨hmem, hall, hsub⟩ := ih hreleases'
      obtain ⟨hid, -⟩ := catalogEntry_eq_some hentry
      refine ⟨?_, ?_, ?_⟩
      · refine List.forall_mem_cons.mpr ⟨⟨slot, ?_, ?_⟩, fun release hrelease => ?_⟩
        · rw [hid]; exact List.mem_cons_self ..
        · rw [hid]; exact hentry
        · obtain ⟨slot', hslot', heq⟩ := hmem release hrelease
          exact ⟨slot', List.mem_cons_of_mem _ hslot', heq⟩
      · refine List.forall_mem_cons.mpr ⟨Or.inr ⟨manifest, List.mem_cons_self .., hentry⟩,
          fun named hnamed => ?_⟩
        rcases hall named hnamed with hnone | ⟨release, hrelease, heq⟩
        · exact Or.inl hnone
        · exact Or.inr ⟨release, List.mem_cons_of_mem _ hrelease, heq⟩
      · rw [List.map_cons, List.map_cons, hid]
        exact hsub.cons_cons _

omit [DecidableEq δ] in
theorem exists_catalogEntries {slots : List (Sigma fun _ : String => Slot)}
    (h : ∀ named ∈ slots, ∃ entry, catalogEntry env disk named.1 named.2 = .ok entry) :
    ∃ releases, catalogEntries env disk slots = .ok releases := by
  induction slots with
  | nil => exact ⟨[], rfl⟩
  | cons named slots ih =>
    obtain ⟨⟨entry, hentry⟩, hslots⟩ := List.forall_mem_cons.mp h
    obtain ⟨releases, hreleases⟩ := ih hslots
    rw [catalogEntries, hentry]
    rcases entry with _ | manifest
    · exact ⟨releases, hreleases⟩
    · exact ⟨manifest :: releases, by
        show (manifest :: ·) <$> catalogEntries env disk slots = _
        rw [hreleases]
        rfl⟩

theorem resolveSelection_eq_ok {releases : List ReleaseManifest} {pointer pointer' : Option String}
    {missing : List String} (h : resolveSelection releases pointer = .ok (pointer', missing))
    (id : String) :
    pointer' = some id ↔ pointer = some id ∧ id ∈ releases.map (·.id) := by
  rcases pointer with _ | other
  · obtain ⟨rfl, -⟩ := Prod.mk.inj (Except.ok.inj h)
    simp
  · obtain ⟨_, -, h⟩ := bind_eq_ok h
    split at h
    · next hmem =>
      obtain ⟨rfl, -⟩ := Prod.mk.inj (Except.ok.inj h)
      refine ⟨fun heq => ⟨heq, ?_⟩, fun h => h.1⟩
      rw [← Option.some.inj heq]
      simpa using hmem
    · next hnot =>
      obtain ⟨rfl, -⟩ := Prod.mk.inj (Except.ok.inj h)
      refine iff_of_false (by simp) ?_
      rintro ⟨heq, hmem⟩
      rw [← Option.some.inj heq] at hmem
      exact hnot (by simpa using hmem)

theorem exists_resolveSelection (releases : List ReleaseManifest) {pointer : Option String}
    (h : ∀ id, pointer = some id → validateReleaseId id = .ok ()) :
    ∃ pointer' missing, resolveSelection releases pointer = .ok (pointer', missing) := by
  rcases pointer with _ | id
  · exact ⟨none, [], rfl⟩
  · rw [resolveSelection, h id rfl]
    show ∃ pointer' missing, (if releases.any (fun release => release.id = id) = true then
      pure (some id, []) else pure (none, [id]) : Except IoError _) = .ok (pointer', missing)
    split
    · exact ⟨some id, [], rfl⟩
    · exact ⟨none, [id], rfl⟩

/-- What a catalog that was read says about the disk. -/
structure Loaded (env : ReleaseEnvironment δ) (disk : ReleaseDisk δ)
    (catalog : ReleaseCatalog) : Prop where
  schemaVersion : (pointerDocument disk).schemaVersion = RELEASE_SCHEMA_VERSION
  consistent : catalog.Consistent
  has_iff : ∀ id, catalog.Has id ↔ Selectable disk id
  current_iff : ∀ id, catalog.currentRelease = some id ↔
    (pointerDocument disk).currentRelease = some id ∧ Selectable disk id
  lkg_iff : ∀ id, catalog.lastKnownGood = some id ↔
    (pointerDocument disk).lastKnownGood = some id ∧ Selectable disk id ∧
      ∃ record ∈ (pointerDocument disk).healthy, record.releaseId = id ∧ Confirms env disk record
  differ : ¬ (catalog.currentRelease.isSome = true ∧
    catalog.currentRelease = catalog.lastKnownGood)
  pointers_valid : ∀ id, catalog.currentRelease = some id ∨ catalog.lastKnownGood = some id →
    validateReleaseId id = .ok ()

/-- **The effective catalog** lists the selectable releases. -/
theorem loadUnlocked_eq_ok {catalog : ReleaseCatalog}
    (h : loadUnlocked env disk = .ok catalog) : Loaded env disk catalog := by
  unfold loadUnlocked at h
  dsimp only at h
  split at h
  · exact nomatch h
  next hschema =>
  rw [not_not] at hschema
  obtain ⟨lkg, hlkg, hafter⟩ := bind_eq_ok h
  obtain ⟨releases, hreleases, hafter⟩ := bind_eq_ok hafter
  obtain ⟨⟨current, missingCurrent⟩, hcurrent, hafter⟩ := bind_eq_ok hafter
  obtain ⟨⟨lkg', missingLkg⟩, hlkg', hafter⟩ := bind_eq_ok hafter
  obtain ⟨hconsistent, hvalidCurrent, hvalidLkg, hdiffer, rfl⟩ :=
    ReleaseCatalog.normalize_eq_ok.mp hafter
  obtain ⟨hmem, hall, -⟩ := catalogEntries_eq_ok hreleases
  have hhas : ∀ id, id ∈ releases.map (·.id) ↔ Selectable disk id := by
    intro id
    constructor
    · intro hid
      obtain ⟨release, hrelease, rfl⟩ := List.mem_map.mp hid
      obtain ⟨slot, hslot, hentry⟩ := hmem release hrelease
      obtain ⟨-, -, howned, hmarker, hmanifest⟩ := catalogEntry_eq_some hentry
      exact ⟨slot, AList.mem_lookup_iff.mpr hslot, howned, hmarker, hmanifest⟩
    · rintro ⟨slot, hslot, howned, hmarker, hmanifest⟩
      rcases hall ⟨id, slot⟩ (AList.mem_lookup_iff.mp hslot) with hnone | ⟨release, hrelease, heq⟩
      · rcases catalogEntry_eq_none hnone with ho | hm | hm
        · rw [howned] at ho; exact nomatch ho
        · rw [hmarker] at hm; exact nomatch hm
        · rw [hm] at hmanifest; exact nomatch hmanifest
      · exact List.mem_map.mpr ⟨release, hrelease, (catalogEntry_eq_some heq).1⟩
  refine ⟨hschema, hconsistent.sorted, fun id => ?_, fun id => ?_, fun id => ?_, hdiffer,
    fun id hid => hid.elim (fun hc => (hvalidCurrent id hc).1) fun hl => (hvalidLkg id hl).1⟩
  · rw [ReleaseCatalog.has_sorted]
    exact hhas id
  · rw [← hhas]
    exact resolveSelection_eq_ok hcurrent id
  · rw [← hhas]
    refine (resolveSelection_eq_ok hlkg' id).trans ?_
    rw [(verifiedLkg_eq_ok hlkg id)]
    tauto

theorem exists_loadUnlocked
    (hschema : (pointerDocument disk).schemaVersion = RELEASE_SCHEMA_VERSION)
    (hvalid : ∀ id, (pointerDocument disk).currentRelease = some id ∨
      (pointerDocument disk).lastKnownGood = some id → validateReleaseId id = .ok ())
    (hdiffer : ¬ ((pointerDocument disk).currentRelease.isSome = true ∧
      (pointerDocument disk).currentRelease = (pointerDocument disk).lastKnownGood))
    (hslots : ∀ id slot, disk.slots.lookup id = some slot →
      ∃ entry, catalogEntry env disk id slot = .ok entry) :
    ∃ catalog, loadUnlocked env disk = .ok catalog := by
  obtain ⟨lkg, hlkg⟩ := exists_verifiedLkg env disk
  have hstored := fun id hid => ((verifiedLkg_eq_ok hlkg id).mp hid).1
  obtain ⟨releases, hreleases⟩ : ∃ releases,
      catalogEntries env disk disk.slots.entries = .ok releases := exists_catalogEntries fun named hnamed =>
      hslots named.1 named.2 (AList.mem_lookup_iff.mpr hnamed)
  obtain ⟨current, missingCurrent, hcurrent⟩ := exists_resolveSelection releases fun id hid => hvalid id (Or.inl hid)
  obtain ⟨lkg', missingLkg, hlkg'⟩ := exists_resolveSelection releases fun id hid => hvalid id (Or.inr (hstored id hid))
  obtain ⟨hmem, -, hsub⟩ := catalogEntries_eq_ok hreleases
  unfold loadUnlocked
  dsimp only
  rw [if_neg (not_not.mpr hschema), hlkg]
  show ∃ catalog, (catalogEntries env disk disk.slots.entries >>= _) = _
  rw [hreleases]
  show ∃ catalog, (resolveSelection releases _ >>= _) = _
  rw [hcurrent]
  show ∃ catalog, (resolveSelection releases lkg >>= _) = _
  rw [hlkg']
  refine ⟨_, ReleaseCatalog.normalize_eq_ok.mpr ⟨⟨fun release hrelease => ?_, ?_⟩,
    fun id hid => ?_, fun id hid => ?_, ?_, rfl⟩⟩
  · obtain ⟨_, -, hentry⟩ := hmem release hrelease
    exact (catalogEntry_eq_some hentry).2.1
  · exact hsub.nodup disk.slots.nodupKeys
  · obtain ⟨hp, hhas⟩ := (resolveSelection_eq_ok hcurrent id).mp hid
    exact ⟨hvalid id (Or.inl hp), hhas⟩
  · obtain ⟨hp, hhas⟩ := (resolveSelection_eq_ok hlkg' id).mp hid
    exact ⟨hvalid id (Or.inr (hstored id hp)), hhas⟩
  · rintro ⟨hsome, heq⟩
    obtain ⟨id, hid⟩ := Option.isSome_iff_exists.mp hsome
    obtain ⟨hp, -⟩ := (resolveSelection_eq_ok hcurrent id).mp hid
    obtain ⟨hp', -⟩ := (resolveSelection_eq_ok hlkg' id).mp (heq.symm.trans hid)
    exact hdiffer ⟨by rw [hp]; rfl, hp.trans (hstored id hp').symm⟩

end Read

end DshNexus.Release
