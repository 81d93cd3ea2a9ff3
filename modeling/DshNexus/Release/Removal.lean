import DshNexus.Release.Runs

/-!
# What a removal deletes

`remove` and its variant with a digest (`crates/nexus-core/src/lib.rs`,
`crates/nexus-core/src/maintenance.rs`) from any state of the store, so also from one that a
removal left when it was stopped between two deletions.  The protection is decided anew in each
call, from the effective catalog of that moment, while the files to delete are those of a record
that an earlier call may have written.

1. `Removable`: what is checked before the first step.
2. `Deletes`: only files of the slot go, and nothing else of the store changes.
3. `wp_deleteInOrder`: once the checks are passed, nothing but a failing file operation stops a
   deletion, whatever the order of the files.
4. `removal_protects`: what a removal leaves, however it ends.
-/

namespace DshNexus.Release

open Durable Program

section Removal

variable {δ : Type} [DecidableEq δ] {env : ReleaseEnvironment δ} {s s' s'' : ReleaseDisk δ}
  {id : String} {ownership : CleanupOwnership δ} {slot : Slot}

/-! ## 1. The checks -/

/-- The files of the slot are those that were recorded and confirmed. -/
structure Checked (env : ReleaseEnvironment δ) (s : ReleaseDisk δ) (id : String)
    (digest : Option δ) : Prop where
  recorded : ∀ ownership slot path bytes, s.owned.lookup id = some ownership →
    s.slots.lookup id = some slot → slot.lookup path = some bytes →
      ∃ entry ∈ ownership.entries, entry.relative = path ∧ entry.contentSha256 = env.sha256 bytes
  confirmed : ∀ expected, digest = some expected →
    env.fingerprintDigest (((s.slots.lookup id).map (fingerprint env)).getD []) = expected

/-- What holds of a release whose removal changes anything: it is idle, it is registered or its
removal is pending, it is neither the current nor the last-known-good release, and the files of
its slot are those that were recorded and confirmed. -/
structure Removable (env : ReleaseEnvironment δ) (s : ReleaseDisk δ) (id : String)
    (digest : Option δ) (guard : Except IoError Unit) : Prop
    extends Checked env s id digest where
  idle : guard = .ok ()
  unprotected : ∃ catalog, loadUnlocked env s = .ok catalog ∧
    catalog.currentRelease ≠ some id ∧ catalog.lastKnownGood ≠ some id ∧
      (catalog.Has id ∨ ∃ manifest, pendingCleanup env s id = .ok (some manifest))

omit [DecidableEq δ] in
theorem mem_fingerprint {entry : EntryIdentity δ} :
    entry ∈ fingerprint env slot ↔ ∃ bytes, slot.lookup entry.relative = some bytes ∧
      entry.contentSha256 = env.sha256 bytes := by
  rw [fingerprint, List.mem_insertionSort, List.mem_map]
  constructor
  · rintro ⟨⟨path, bytes⟩, hfile, rfl⟩
    exact ⟨bytes, AList.mem_lookup_iff.mpr hfile, rfl⟩
  · rintro ⟨bytes, hbytes, hdigest⟩
    refine ⟨⟨entry.relative, bytes⟩, AList.mem_lookup_iff.mp hbytes, ?_⟩
    rw [← hdigest]

omit [DecidableEq δ] in
theorem nodup_fingerprint : ((fingerprint env slot).map (·.relative)).Nodup := by
  have hperm := (List.perm_insertionSort (fun left right : EntryIdentity δ =>
    left.relative ≤ right.relative) (slot.entries.map fun file =>
      (⟨file.1, env.sha256 file.2⟩ : EntryIdentity δ))).map (·.relative)
  refine hperm.nodup_iff.mpr ?_
  rw [List.map_map]
  exact slot.nodupKeys

theorem checkRemaining_eq_ok {entry : EntryIdentity δ}
    (h : checkRemaining ownership entry = .ok ()) :
    ∃ original ∈ ownership.entries, original.relative = entry.relative ∧
      original.contentSha256 = entry.contentSha256 := by
  unfold checkRemaining at h
  split at h
  · cases h
  · next original horiginal =>
    split at h
    · cases h
    · next hdigest =>
      rw [not_not] at hdigest
      refine ⟨original, List.mem_of_find?_eq_some horiginal, ?_, hdigest.symm⟩
      simpa using List.find?_some horiginal

theorem checkRemaining_fingerprint {manifest : ReleaseManifest} {entry : EntryIdentity δ}
    (h : entry ∈ fingerprint env slot) :
    checkRemaining ⟨manifest, fingerprint env slot⟩ entry = .ok () := by
  have hfind : ((fingerprint env slot).find? fun original =>
      original.relative = entry.relative) = some entry := by
    have hunique : ∀ other ∈ fingerprint env slot, other.relative = entry.relative →
        other = entry := fun other hother heq =>
      List.inj_on_of_nodup_map nodup_fingerprint hother h heq
    rcases hfound : (fingerprint env slot).find? fun original =>
      original.relative = entry.relative with _ | found
    · rw [List.find?_eq_none] at hfound
      exact absurd (decide_eq_true rfl) (hfound entry h)
    · have heq := List.find?_some hfound
      rw [hfound, hunique found (List.mem_of_find?_eq_some hfound) (by simpa using heq)]
  rw [checkRemaining, hfind]
  exact if_neg (not_not.mpr rfl)

theorem remaining_eq_ok {found : Option (List (EntryIdentity δ))}
    (h : remaining env ownership id s = .ok found) :
    found = (s.slots.lookup id).map (fingerprint env) ∧
      ∀ slot path bytes, s.slots.lookup id = some slot → slot.lookup path = some bytes →
        ∃ entry ∈ ownership.entries, entry.relative = path ∧
          entry.contentSha256 = env.sha256 bytes := by
  unfold remaining at h
  split at h
  · next hnone =>
    rw [hnone]
    refine ⟨(Except.ok.inj h).symm, fun _ _ _ hslot => ?_⟩
    cases hslot
  · next slot hslot =>
    obtain ⟨_, hchecks, h⟩ := bind_eq_ok h
    rw [hslot]
    refine ⟨(Except.ok.inj h).symm, fun _ path bytes heq hbytes => ?_⟩
    obtain rfl := Option.some.inj heq
    exact checkRemaining_eq_ok (eq_ok_of_forM hchecks ⟨path, env.sha256 bytes⟩
      (mem_fingerprint.mpr ⟨bytes, hbytes, rfl⟩))

theorem checkConfirmed_eq_ok {entries : List (EntryIdentity δ)} {digest : Option δ}
    (h : checkConfirmed env entries digest = .ok ()) :
    ∀ expected, digest = some expected → env.fingerprintDigest entries = expected := by
  rintro expected rfl
  rw [checkConfirmed] at h
  split at h
  · cases h
  · next heq => exact not_not.mp heq

/-! ## 2. What goes -/

/-- Files of one slot have gone; what is left of it is as it was, and of the rest of the store
only the ownership record of the release may have changed. -/
structure Deletes (id : String) (s s' : ReleaseDisk δ) : Prop where
  pointers : s'.pointers = s.pointers
  config : s'.config = s.config
  slots : ∀ other, other ≠ id → s'.slots.lookup other = s.slots.lookup other
  owned : ∀ other, other ≠ id → s'.owned.lookup other = s.owned.lookup other
  files : ∀ slot' path bytes, s'.slots.lookup id = some slot' → slot'.lookup path = some bytes →
    ∃ slot, s.slots.lookup id = some slot ∧ slot.lookup path = some bytes

omit [DecidableEq δ] in
theorem Deletes.refl (id : String) (s : ReleaseDisk δ) : Deletes id s s :=
  ⟨rfl, rfl, fun _ _ => rfl, fun _ _ => rfl, fun slot _ _ hslot hbytes => ⟨slot, hslot, hbytes⟩⟩

omit [DecidableEq δ] in
theorem Deletes.trans (h : Deletes id s s') (h' : Deletes id s' s'') : Deletes id s s'' := by
  refine ⟨h'.pointers.trans h.pointers, h'.config.trans h.config,
    fun other hne => (h'.slots other hne).trans (h.slots other hne),
    fun other hne => (h'.owned other hne).trans (h.owned other hne), ?_⟩
  intro slot'' path bytes hslot hbytes
  obtain ⟨slot', hslot', hbytes'⟩ := h'.files slot'' path bytes hslot hbytes
  exact h.files slot' path bytes hslot' hbytes'

omit [DecidableEq δ] in
theorem deletes_eraseFile (s : ReleaseDisk δ) (path : RelativePath) :
    Deletes id s (s.modifySlot id fun slot => slot.erase path) := by
  refine ⟨rfl, rfl, fun other hne => AList.lookup_insert_ne hne, fun _ _ => rfl, ?_⟩
  intro slot' other bytes hslot hbytes
  rw [ReleaseDisk.modifySlot, ReleaseDisk.putSlot, AList.lookup_insert] at hslot
  obtain rfl := Option.some.inj hslot
  by_cases heq : other = path
  · rw [heq, AList.lookup_erase] at hbytes
    cases hbytes
  · rw [AList.lookup_erase_ne heq] at hbytes
    cases hbefore : s.slots.lookup id with
    | none =>
      rw [hbefore] at hbytes
      cases hbytes
    | some slot =>
      rw [hbefore] at hbytes
      exact ⟨slot, rfl, hbytes⟩

omit [DecidableEq δ] in
theorem deletes_removeSlot (s : ReleaseDisk δ) : Deletes id s (s.removeSlot id) := by
  refine ⟨rfl, rfl, fun other hne => AList.lookup_erase_ne hne, fun _ _ => rfl, ?_⟩
  intro slot' path bytes hslot
  rw [ReleaseDisk.removeSlot, AList.lookup_erase] at hslot
  cases hslot

omit [DecidableEq δ] in
theorem deletes_putOwned (s : ReleaseDisk δ) (ownership : CleanupOwnership δ) :
    Deletes id s (s.putOwned id ownership) :=
  ⟨rfl, rfl, fun _ _ => rfl, fun _ hne => AList.lookup_insert_ne hne,
    fun slot _ _ hslot hbytes => ⟨slot, hslot, hbytes⟩⟩

omit [DecidableEq δ] in
theorem deletes_removeOwned (s : ReleaseDisk δ) : Deletes id s (s.removeOwned id) :=
  ⟨rfl, rfl, fun _ _ => rfl, fun _ hne => AList.lookup_erase_ne hne,
    fun slot _ _ hslot hbytes => ⟨slot, hslot, hbytes⟩⟩

omit [DecidableEq δ] in
theorem deletes_readOnly {α : Type} {p : ReleaseProgram δ α} (hp : p.ReadOnly) :
    p.Within (Deletes id) :=
  Program.ReadOnly.within (R := Deletes id) (Deletes.refl id) hp

omit [DecidableEq δ] in
theorem deletes_bind {α β : Type} {p : ReleaseProgram δ α} {g : α → ReleaseProgram δ β}
    (hp : p.Within (Deletes id)) (hg : ∀ a, (g a).Within (Deletes id)) :
    (p >>= g).Within (Deletes id) :=
  Program.Within.bind (R := Deletes id) Deletes.trans hp hg

theorem deletes_deleteInOrder (files : DeletionOrder δ) (guard : Except IoError Unit) :
    (deleteInOrder env files id ownership guard).Within (Deletes id) := by
  have hlast : (Program.durable fileOperationFailed fun disk : ReleaseDisk δ =>
      disk.removeOwned id).Within (Deletes id) :=
    within_durable (Deletes.refl id) deletes_removeOwned
  refine deletes_bind (deletes_readOnly (readOnly_ofExcept _)) fun _ => ?_
  refine deletes_bind (deletes_readOnly (readOnly_inspect _)) fun current => ?_
  rcases current with _ | current
  · exact hlast
  · refine deletes_bind (within_forM (R := Deletes id) (Deletes.refl id) Deletes.trans
      (fun entry => ?_) _) fun _ => ?_
    · exact deletes_bind (deletes_readOnly (readOnly_inspect _)) fun _ =>
        within_durable (Deletes.refl id) fun s => deletes_eraseFile s entry.relative
    · exact deletes_bind (within_durable (Deletes.refl id) deletes_removeSlot)
        fun _ => hlast

/-! ## 3. A deletion does not refuse -/

/-- The files that are still to be deleted are in the slot, each once. -/
def Listed (env : ReleaseEnvironment δ) (id : String) (entries : List (EntryIdentity δ))
    (s : ReleaseDisk δ) : Prop :=
  (entries.map (·.relative)).Nodup ∧
    ∀ entry ∈ entries, ∃ slot bytes, s.slots.lookup id = some slot ∧
      slot.lookup entry.relative = some bytes ∧ entry.contentSha256 = env.sha256 bytes

theorem Listed.erase {entry : EntryIdentity δ} {entries : List (EntryIdentity δ)}
    (h : Listed env id (entry :: entries) s) :
    checkUnchanged env id entry s = .ok () ∧
      Listed env id entries (s.modifySlot id fun slot => slot.erase entry.relative) := by
  obtain ⟨hnodup, hfiles⟩ := h
  obtain ⟨hfile, hfiles⟩ := List.forall_mem_cons.mp hfiles
  rw [List.map_cons, List.nodup_cons] at hnodup
  obtain ⟨slot, bytes, hslot, hbytes, hdigest⟩ := hfile
  refine ⟨?_, hnodup.2, fun other hother => ?_⟩
  · simp [checkUnchanged, hslot, hbytes, hdigest]
  · obtain ⟨slot', bytes', hslot', hbytes', hdigest'⟩ := hfiles other hother
    rw [hslot] at hslot'
    obtain rfl := Option.some.inj hslot'
    have hne : other.relative ≠ entry.relative := fun heq =>
      hnodup.1 (heq ▸ List.mem_map_of_mem hother)
    refine ⟨slot.erase entry.relative, bytes', ?_, ?_, hdigest'⟩
    · rw [ReleaseDisk.modifySlot, ReleaseDisk.putSlot, AList.lookup_insert, hslot]
      rfl
    · rw [AList.lookup_erase_ne hne]
      exact hbytes'

/-- **Once its checks are passed, only a failing file operation stops a deletion.** -/
theorem wp_deleteInOrder (files : DeletionOrder δ) {guard : Except IoError Unit}
    (hguard : guard = .ok ()) {found : Option (List (EntryIdentity δ))}
    (hremaining : remaining env ownership id s = .ok found) :
    (deleteInOrder env files id ownership guard).wp (fun _ _ => True)
      (fun e _ => e = fileOperationFailed) (fun _ => True) s := by
  have hlast : ∀ t, (Program.durable fileOperationFailed fun disk : ReleaseDisk δ =>
      disk.removeOwned id).wp (fun _ _ => True) (fun e _ => e = fileOperationFailed)
        (fun _ => True) t := by
    intro t
    rw [wp_durable]
    exact ⟨trivial, trivial, trivial, rfl, rfl⟩
  rw [deleteInOrder, hguard, wp_bind, wp_ofExcept]
  refine ⟨fun _ _ => ?_, fun _ herror => by cases herror⟩
  rw [wp_bind, wp_inspect, hremaining]
  refine ⟨fun current hcurrent => ?_, fun _ herror => by cases herror⟩
  obtain rfl := Except.ok.inj hcurrent
  obtain ⟨hfound, -⟩ := remaining_eq_ok hremaining
  rcases found with _ | current
  · exact hlast s
  · obtain ⟨slot, hslot, rfl⟩ := Option.map_eq_some_iff.mp hfound.symm
    have hlisted : Listed env id (files.order (fingerprint env slot)) s := by
      have hperm := files.perm (fingerprint env slot)
      refine ⟨((hperm.map _).nodup_iff).mpr nodup_fingerprint, fun entry hentry => ?_⟩
      obtain ⟨bytes, hbytes, hdigest⟩ := mem_fingerprint.mp (hperm.mem_iff.mp hentry)
      exact ⟨slot, bytes, hslot, hbytes, hdigest⟩
    show (((files.order (fingerprint env slot)).forM _ >>= _ : ReleaseProgram δ Unit)).wp _ _ _ s
    rw [wp_bind]
    refine wp_imp (fun _ t _ => ?_)
      (wp_forM (I := Listed env id) (fun entry entries t ht => ?_) _ s hlisted)
    · rw [wp_bind, wp_durable]
      exact ⟨trivial, trivial, hlast _, rfl, rfl⟩
    · obtain ⟨hunchanged, hnext⟩ := ht.erase
      rw [wp_bind, wp_inspect, hunchanged]
      refine ⟨fun _ _ => ?_, fun _ herror => by cases herror⟩
      rw [wp_durable]
      exact ⟨trivial, trivial, hnext, rfl, rfl⟩

/-! ## 4. Removals -/

/-- What a removal leaves: a deletion of what was removable. -/
structure Leftover (env : ReleaseEnvironment δ) (id : String) (digest : Option δ)
    (guard : Except IoError Unit) (s s' : ReleaseDisk δ) : Prop where
  deletes : Deletes id s s'
  removable : s' ≠ s → Removable env s id digest guard

theorem Leftover.refl (env : ReleaseEnvironment δ) (id : String) (digest : Option δ)
    (guard : Except IoError Unit) (s : ReleaseDisk δ) : Leftover env id digest guard s s :=
  ⟨.refl id s, fun hne => absurd rfl hne⟩

theorem wp_beginBound (manifest : ReleaseManifest) (digest : Option δ) :
    (beginBound env id manifest digest).wp
      (fun ownership t => Deletes id s t ∧ Checked env s id digest ∧
        ∃ found, remaining env ownership id t = .ok found)
      (fun e t => Deletes id s t ∧ (t ≠ s → Checked env s id digest) ∧
        (e ≠ fileOperationFailed → t = s))
      (fun t => Deletes id s t ∧ (t ≠ s → Checked env s id digest)) s := by
  have hrefuse : ∀ e : IoError, Deletes id s s ∧ (s ≠ s → Checked env s id digest) ∧
      (e ≠ fileOperationFailed → s = s) :=
    fun _ => ⟨.refl id s, fun hne => absurd rfl hne, fun _ => rfl⟩
  rw [beginBound, wp_bind, wp_read]
  split
  · next ownership howned =>
    rw [wp_bind, wp_inspect]
    refine ⟨fun found hfound => ?_, fun e _ => hrefuse e⟩
    obtain ⟨hmap, hrecorded⟩ := remaining_eq_ok hfound
    rw [wp_bind, wp_ofExcept]
    refine ⟨fun _ hconfirmed => ?_, fun e _ => hrefuse e⟩
    refine ⟨.refl id s, ⟨fun ownership' slot path bytes howned' hslot hbytes => ?_, ?_⟩,
      found, hfound⟩
    · rw [howned] at howned'
      rw [← Option.some.inj howned']
      exact hrecorded slot path bytes hslot hbytes
    · rw [← hmap]
      exact checkConfirmed_eq_ok hconfirmed
  next howned =>
  split
  · exact hrefuse _
  next slot hslot =>
  rw [wp_bind, wp_ofExcept]
  refine ⟨fun _ hconfirmed => ?_, fun e _ => hrefuse e⟩
  have hchecked : Checked env s id digest := by
    refine ⟨fun ownership' _ _ _ howned' => ?_, ?_⟩
    · rw [howned] at howned'
      cases howned'
    · rw [hslot]
      exact checkConfirmed_eq_ok hconfirmed
  have hremaining : remaining env ⟨manifest, fingerprint env slot⟩ id
      (s.putOwned id ⟨manifest, fingerprint env slot⟩) = .ok (some (fingerprint env slot)) := by
    have hslot' : (s.putOwned id ⟨manifest, fingerprint env slot⟩).slots.lookup id = some slot :=
      hslot
    rw [remaining, hslot']
    show ((fingerprint env slot).forM _ >>= _) = _
    rw [forM_eq_ok fun entry hentry => checkRemaining_fingerprint hentry]
    rfl
  have hput : Deletes id s (s.putOwned id ⟨manifest, fingerprint env slot⟩) :=
    deletes_putOwned s _
  rw [wp_bind, wp_durable]
  exact ⟨⟨.refl id s, fun _ => hchecked⟩, ⟨hput, fun _ => hchecked⟩,
    ⟨hput, hchecked, _, hremaining⟩, hrefuse _, hput, fun _ => hchecked, fun hne => absurd rfl hne⟩

omit [DecidableEq δ] in
theorem exists_normalize_filter {catalog : ReleaseCatalog} (hl : Loaded env s catalog)
    (hcurrent : catalog.currentRelease ≠ some id) (hlkg : catalog.lastKnownGood ≠ some id) :
    ∃ catalog', { catalog with
      releases := catalog.releases.filter fun item => item.id ≠ id }.normalize = .ok catalog' := by
  have hkeeps : ∀ other, other ≠ id → catalog.Has other →
      other ∈ (catalog.releases.filter fun item => item.id ≠ id).map (·.id) := by
    intro other hne hhas
    obtain ⟨release, hrelease, rfl⟩ := List.mem_map.mp hhas
    exact List.mem_map_of_mem (List.mem_filter.mpr ⟨hrelease, decide_eq_true hne⟩)
  refine ⟨_, ReleaseCatalog.normalize_eq_ok.mpr ⟨⟨fun release hrelease => ?_, ?_⟩,
    fun other hother => ?_, fun other hother => ?_, hl.differ, rfl⟩⟩
  · exact hl.consistent.1 release (List.mem_of_mem_filter hrelease)
  · exact hl.consistent.2.sublist (List.filter_sublist.map _)
  · refine ⟨hl.pointers_valid other (Or.inl hother), hkeeps other ?_ ?_⟩
    · rintro rfl
      exact hcurrent hother
    · exact (hl.has_iff other).mpr ((hl.current_iff other).mp hother).2
  · refine ⟨hl.pointers_valid other (Or.inr hother), hkeeps other ?_ ?_⟩
    · rintro rfl
      exact hlkg hother
    · exact (hl.has_iff other).mpr ((hl.lkg_iff other).mp hother).2.1

/-- A removal step by step. -/
theorem wp_removeInOrder_leftover (env : ReleaseEnvironment δ) (files : DeletionOrder δ)
    (s : ReleaseDisk δ) (id : String) (digest : Option δ) (guard : Except IoError Unit) :
    (removeInOrder env files id digest guard).wp (fun _ => Leftover env id digest guard s)
      (fun e t => Leftover env id digest guard s t ∧ (e ≠ fileOperationFailed → t = s))
      (Leftover env id digest guard s) s := by
  have hsame := Leftover.refl env id digest guard s
  rw [removeInOrder, wp_bind, wp_ofExcept]
  refine ⟨fun _ hvalid => ?_, fun _ _ => ⟨hsame, fun _ => rfl⟩⟩
  rw [wp_bind, wp_inspect]
  refine ⟨fun catalog hload => ?_, fun _ _ => ⟨hsame, fun _ => rfl⟩⟩
  have hl := loadUnlocked_eq_ok hload
  rw [wp_bind, wp_inspect]
  refine ⟨fun pending hpending => ?_, fun _ _ => ⟨hsame, fun _ => rfl⟩⟩
  split
  · exact ⟨hsame, fun _ => rfl⟩
  next manifest hmanifest =>
  split
  · exact ⟨hsame, fun _ => rfl⟩
  next hcurrent =>
  split
  · exact ⟨hsame, fun _ => rfl⟩
  next hlkg =>
  have howned : catalog.Has id ∨ ∃ manifest, pendingCleanup env s id = .ok (some manifest) := by
    rcases pending with _ | pending
    · left
      rw [← ReleaseCatalog.find_isSome]
      rw [Option.none_or] at hmanifest
      rw [hmanifest]
      rfl
    · exact Or.inr ⟨pending, hpending⟩
  rw [wp_bind, wp_ofExcept]
  refine ⟨fun _ hguard => ?_, fun _ _ => ⟨hsame, fun _ => rfl⟩⟩
  have hleft : ∀ t, Deletes id s t → (t ≠ s → Checked env s id digest) →
      Leftover env id digest guard s t := fun t hdeletes hchecked =>
    ⟨hdeletes, fun hne => { hchecked hne with
      idle := hguard
      unprotected := ⟨catalog, hload, hcurrent, hlkg, howned⟩ }⟩
  rw [wp_bind]
  refine wp_mono ?_ (fun e t h => ⟨hleft t h.1 h.2.1, h.2.2⟩) (fun t h => hleft t h.1 h.2)
    (wp_beginBound manifest digest)
  rintro ownership t ⟨hdeletes, hchecked, found, hremaining⟩
  have hends : ∀ t', Deletes id t t' → Leftover env id digest guard s t' := fun t' h =>
    hleft t' (hdeletes.trans h) fun _ => hchecked
  rw [wp_bind]
  refine wp_mono ?_ ?_ (fun t' h => hends t' h.1)
    (wp_and (deletes_deleteInOrder files guard t)
      (wp_deleteInOrder files hguard hremaining))
  · rintro _ t' ⟨h, -⟩
    obtain ⟨catalog', hnormal⟩ := exists_normalize_filter hl hcurrent hlkg
    rw [hnormal, wp_ofExcept]
    exact ⟨fun _ _ => hends t' h, fun _ herror => by cases herror⟩
  · rintro e t' ⟨h, rfl⟩
    exact ⟨hends t' h, fun hne => absurd rfl hne⟩

/-- **A protected release slot is never deleted.**  From every state, and so also from one that
a stopped removal has left, and however the removal ends: the pointers, the configuration and
every other slot and record are as before, and of the slot itself only whole files have gone;
anything has changed only if the release was registered or pending, idle, neither the current
nor the last-known-good release, and its files were those recorded and confirmed; and a removal
that is refused has changed nothing. -/
theorem removal_protects (env : ReleaseEnvironment δ) (s : ReleaseDisk δ) (id : String)
    (digest : Option δ) (guard : Except IoError Unit) (fs : List Fault) :
    let run := (removeWithDigest env id digest guard).run fs s
    (run.2.pointers = s.pointers ∧ run.2.config = s.config) ∧
    (∀ other, other ≠ id → run.2.slots.lookup other = s.slots.lookup other ∧
      run.2.owned.lookup other = s.owned.lookup other) ∧
    (∀ slot' path bytes, run.2.slots.lookup id = some slot' → slot'.lookup path = some bytes →
      ∃ slot, s.slots.lookup id = some slot ∧ slot.lookup path = some bytes) ∧
    (∀ catalog, loadUnlocked env s = .ok catalog →
      catalog.currentRelease = some id ∨ catalog.lastKnownGood = some id → run.2 = s) ∧
    (run.2 ≠ s → Removable env s id digest guard) ∧
    (∀ e, run.1 = .error e → e ≠ fileOperationFailed → run.2 = s) := by
  intro run
  have hwp := (wp_iff_run _ _ _ _ _).mp
    (wp_removeInOrder_leftover env deepestFirst s id digest guard) fs
  rw [← removeWithDigest_eq] at hwp
  obtain ⟨hleftover, hrefused⟩ : Leftover env id digest guard s run.2 ∧
      ∀ e, run.1 = .error e → e ≠ fileOperationFailed → run.2 = s := by
    rcases hrun : run with ⟨_ | e | _, t⟩
    · rw [show (removeWithDigest env id digest guard).run fs s = _ from hrun] at hwp
      exact ⟨hwp, fun _ herror => by cases herror⟩
    · rw [show (removeWithDigest env id digest guard).run fs s = _ from hrun] at hwp
      refine ⟨hwp.1, fun e' herror => ?_⟩
      obtain rfl := Outcome.error.inj herror
      exact hwp.2
    · rw [show (removeWithDigest env id digest guard).run fs s = _ from hrun] at hwp
      exact ⟨hwp, fun _ herror => by cases herror⟩
  refine ⟨⟨hleftover.deletes.pointers, hleftover.deletes.config⟩,
    fun other hne => ⟨hleftover.deletes.slots other hne, hleftover.deletes.owned other hne⟩,
    hleftover.deletes.files, fun catalog hload hprotected => ?_, hleftover.removable, hrefused⟩
  by_contra hne
  obtain ⟨catalog', hload', hcurrent, hlkg, -⟩ := (hleftover.removable hne).unprotected
  rw [hload] at hload'
  obtain rfl := Except.ok.inj hload'
  exact hprotected.elim hcurrent hlkg

end Removal

end DshNexus.Release
