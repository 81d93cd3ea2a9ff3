import DshNexus.Snapshot.CaptureLoads
import DshNexus.Snapshot.RestoreFrames

/-!
# Changing the limits of a snapshot store

`healthy_slots` and `max_manual_snapshots` come from the configuration, and every call of the
store reads them anew.  They bound what a capture may add, and they also bound what the other
calls accept: a slot index beyond `healthy_slots`, or a manual snapshot too many, is an error.

## 1. One capture under some limits

`settles_captureHealthy_any` and `wp_publishManual` say what a capture, successful or not, does
to the snapshots that are there.

## 2. Inventories

`Inventory` is what holds of the snapshots whatever the limits are.  `inventory_afterCaptures`:
it holds after any sequence of captures, each under limits of its own.

## 3. Reading under new limits

`settles_snapshotDirectories`: the directories are found if the limits cover the inventory
(`Covered`), and otherwise there is an error.

## 4. The store under new limits

`limits_may_change` puts together what works (`Works`) and what fails (`Refuses`).  In neither
case is a snapshot lost.
-/

namespace DshNexus.Snapshot

open Durable Program

section Limits

variable {δ : Type} [DecidableEq δ] {env : SnapshotEnvironment δ} {s s' : RingDisk}

/-! ## 1. One capture under some limits -/

theorem settles_captureHealthy_any (hslots : 1 ≤ env.healthySlots) (h : TidyRing env s)
    (hdamage : NoDamage env s) (input : CaptureInput) :
    (captureHealthy env input).settles
      (fun _ s' => ∃ index new, s'.get ⟨.slot, index⟩ = some new ∧
        IsSnapshot env input.snapshotId new ∧ AtSlot index s s' ∧ TidyRing env s')
      (fun _ s' => (∀ name, s'.get name = s.get name) ∧ TidyRing env s') s := by
  rw [captureHealthy, settles_bind, settles_ofExcept]
  refine ⟨fun _ _ => ?_, fun _ _ => ⟨fun _ => rfl, h⟩⟩
  rw [settles_bind, settles_attempt, settles_bind]
  refine settles_of_returns (returns_mono ?_
    (returns_recoverOrphanedHealthySlots_tidy h))
  rintro _ t rfl
  rw [settles_bind]
  refine settles_of_returns (returns_mono ?_ (returns_nextHealthySlot hslots))
  rintro index s₀ ⟨rfl, hnext⟩
  obtain ⟨holdNone, hnextNone⟩ := h.orphans index
  have hfree : ¬ ((s₀.get ⟨.next, index⟩).isSome = true) := by
    rw [hnextNone]; exact Bool.noConfusion
  rw [settles_bind, ensureNewDirectory, settles_bind, settles_read,
    if_neg hfree, settles_durable, settles_bind, settles_toExcept,
    settles_bind]
  have hput : Only ⟨.next, index⟩ s₀ (s₀.put ⟨.next, index⟩ ⟨none, none⟩) := .put s₀ _
  -- a failure removes the staging directory
  have hfail : ∀ e t, Only ⟨.next, index⟩ s₀ t → Program.settles (do
      Program.ignoreError (removeDirectoryAll env ⟨.next, index⟩)
      throw e : RingProgram (SnapshotManifest δ))
      (fun _ s' => ∃ index new, s'.get ⟨.slot, index⟩ = some new ∧
        IsSnapshot env input.snapshotId new ∧ AtSlot index s₀ s' ∧ TidyRing env s')
      (fun _ s' => (∀ name, s'.get name = s₀.get name) ∧ TidyRing env s') t := by
    intro e t ht
    rw [settles_bind]
    exact settles_of_returns (returns_mono (fun _ _ hdone => hdone)
      (returns_removeStaging h hnext.range ht))
  refine settles_mono (fun manifest s₁ h₁ => ?_) (fun e t ht => hfail e t (hput.trans ht))
    (settles_of_wp (within_fillStaging ⟨.next, index⟩ input _))
  have honly := hput.trans h₁
  rw [settles_bind]
  refine settles_of_wp (C := fun _ => True) (wp_checkPublication
    (fun staging hstaging hsnapshot hold => ?_) (fun e => hfail e s₁ honly) trivial)
  show (publishHealthySnapshot env index >>= fun _ => pure _).settles _ _ s₁
  rw [settles_bind]
  refine settles_of_returns (returns_mono ?_
    (returns_publishHealthySnapshot hstaging hold))
  rintro _ s₂ ⟨hat, hslot, horphan⟩
  have hall := honly.atSlot.trans hat
  refine ⟨index, staging, hslot, hsnapshot, hall, h.shape.atSlot hnext.range hall, fun i => ?_⟩
  by_cases hi : i = index
  · rw [hi]; exact horphan
  · rw [NoOrphan, hall.others ⟨.old, i⟩ hi, hall.others ⟨.next, i⟩ hi]
    exact h.orphans i

/-- Every directory of the ring has the index of a slot. -/
def InRange (env : SnapshotEnvironment δ) (s : RingDisk) : Prop :=
  ∀ name, (s.get name).isSome = true → 1 ≤ name.index ∧ name.index ≤ env.healthySlots

omit [DecidableEq δ] in
theorem settles_validateHealthyInventory (hhealthy : s.healthyStrays = [])
    (hroot : s.rootStrays = []) :
    (validateHealthyInventory env).settles (fun _ s' => s' = s ∧ InRange env s)
      (fun _ s' => s' = s ∧ ¬ InRange env s) s := by
  by_cases hrange : InRange env s
  · refine settles_of_returns (returns_mono (fun _ _ hs => ⟨hs.2, hrange⟩)
      (returns_and_of_wp (returns_validateHealthyInventory ⟨hrange, hhealthy, hroot⟩)
        (readOnly_validateHealthyInventory.wp (Q := fun _ s' => s' = s) (E := fun _ _ => True)
          (C := fun _ => True) (fun _ => rfl) (fun _ => trivial) trivial)))
  · -- a directory beyond the limit is found
    have hcheck : ∀ name : SlotName,
        (if 1 ≤ name.index ∧ name.index ≤ env.healthySlots then pure ()
          else throw (.unsafePath ("unidentified healthy-slot orphan: " ++ name.fileName)) :
            RingProgram PUnit).wp
          (fun _ s' => s' = s ∧ (1 ≤ name.index ∧ name.index ≤ env.healthySlots))
          (fun _ s' => s' = s) (fun s' => s' = s) s := fun name => by
      split
      · next hname => exact ⟨rfl, hname⟩
      · exact rfl
    have hall := wp_checks hcheck s.healthy.keys
    rw [validateHealthyInventory, settles_bind, settles_read, hhealthy]
    show (List.forM _ _ >>= _ : RingProgram Unit).settles _ _ s
    rw [settles_bind]
    refine settles_mono (fun _ s' hs' => ?_) (fun _ s' hs' => ⟨hs', hrange⟩)
      (settles_of_wp hall)
    exact absurd (fun name hname => hs'.2 name (mem_keys_iff.mpr hname)) hrange

/-- A ring that is in order but for its limits. -/
structure Orderly (env : SnapshotEnvironment δ) (s : RingDisk) : Prop where
  orphans : ∀ i, NoOrphan i s
  undamaged : NoDamage env s
  healthyStrays : s.healthyStrays = []
  rootStrays : s.rootStrays = []

theorem Orderly.tidyRing (h : Orderly env s) (hrange : InRange env s) : TidyRing env s :=
  ⟨⟨hrange, h.healthyStrays, h.rootStrays⟩, h.orphans⟩

theorem settles_recoverOrphanedHealthySlots_orderly (h : Orderly env s) :
    (recoverOrphanedHealthySlots env).settles (fun _ s' => s' = s ∧ InRange env s)
      (fun _ s' => s' = s ∧ ¬ InRange env s) s := by
  by_cases hrange : InRange env s
  · exact settles_of_returns (returns_mono (fun _ _ hs => ⟨hs, hrange⟩)
      (returns_recoverOrphanedHealthySlots_tidy (h.tidyRing hrange)))
  · rw [recoverOrphanedHealthySlots, settles_bind, settles_read, h.rootStrays]
    show (validateHealthyInventory env >>= _ : RingProgram Unit).settles _ _ s
    rw [settles_bind]
    refine settles_imp (fun _ s' hs' => absurd hs'.2 hrange)
      (settles_validateHealthyInventory h.healthyStrays h.rootStrays)

theorem settles_captureHealthy_outOfRange (h : Orderly env s) (hrange : ¬ InRange env s)
    (input : CaptureInput) :
    (captureHealthy env input).settles (fun _ _ => False) (fun _ s' => s' = s) s := by
  rw [captureHealthy, settles_bind, settles_ofExcept]
  refine ⟨fun _ _ => ?_, fun _ _ => rfl⟩
  rw [settles_bind, settles_attempt, settles_bind]
  exact settles_mono (fun _ _ hs => absurd hs.2 hrange) (fun _ _ hs => hs.1)
    (settles_recoverOrphanedHealthySlots_orderly h)

/-- What a manual capture may have done: nothing but staging, or it has added its snapshot. -/
def Grown (env : SnapshotEnvironment δ) (id : String) (disk disk' : StoreDisk) : Prop :=
  OnlyStaging disk disk' ∨ ∃ new manifest, loadValidSnapshot env new = .ok manifest ∧
    manifest.snapshotId = id ∧ disk'.ring = disk.ring ∧ disk'.manualStrays = disk.manualStrays ∧
      disk'.manual = disk.manual.insert id new

theorem Grown.onlyStaging {id : String} {disk disk' disk'' : StoreDisk}
    (h : Grown env id disk disk') (h' : OnlyStaging disk' disk'') : Grown env id disk disk'' := by
  rcases h with hstaging | ⟨new, manifest, hload, hid, hring, hstrays, hmanual⟩
  · exact Or.inl (hstaging.trans h')
  · exact Or.inr ⟨new, manifest, hload, hid, h'.ring.trans hring, h'.manualStrays.trans hstrays,
      h'.manual.trans hmanual⟩

theorem wp_publishManual {id : String} {disk disk₁ : StoreDisk} (h : OnlyStaging disk disk₁)
    (hstaged : StagedManual env id disk₁) :
    (publishManual env id).wp (fun _ => Grown env id disk) (fun _ => Grown env id disk)
      (Grown env id disk) disk₁ := by
  obtain ⟨staging, manifest, hstaging, hload, hid⟩ := hstaged
  have hstay : Grown env id disk disk₁ := Or.inl h
  have hpublished : Grown env id disk (disk₁.publishStaging id) := by
    rw [StoreDisk.publishStaging, hstaging]
    refine Or.inr ⟨staging, manifest, hload, hid, h.ring, h.manualStrays, ?_⟩
    show disk₁.manual.insert id staging = _
    rw [h.manual]
  have hdrop : ∀ e t, Grown env id disk t → (dropStaging env id e : StoreProgram Unit).wp
      (fun _ => Grown env id disk) (fun _ => Grown env id disk) (Grown env id disk) t :=
    fun e t ht => wp_mono (fun _ t' ht' => ht.onlyStaging ht')
      (fun _ t' ht' => ht.onlyStaging ht') (fun t' ht' => ht.onlyStaging ht')
      (within_dropStaging id e t)
  rw [publishManual, wp_tryCatch, wp_bind, wp_read]
  split
  · rw [wp_durable]
    exact ⟨hstay, hpublished, hpublished, hdrop _ _ hstay, hdrop _ _ hpublished⟩
  · exact hdrop _ _ hstay

/-- **A manual capture** adds its snapshot to the store, or nothing. -/
theorem wp_capture_manual (config : SnapshotStoreConfig) (label : Option String)
    (input : CaptureInput) (disk : StoreDisk) :
    (capture env config (.manual label) input).wp (fun _ => Grown env input.snapshotId disk)
      (fun _ => Grown env input.snapshotId disk) (Grown env input.snapshotId disk) disk := by
  rw [capture, wp_bind, stage, wp_bind]
  refine wp_mono ?_ (fun _ _ ht => Or.inl ht) (fun _ ht => Or.inl ht)
    (wp_stageManual config label input disk)
  rintro manifest disk₁ ⟨honly, hstaged⟩
  show (publishManual env input.snapshotId >>= fun _ => pure manifest).wp _ _ _ disk₁
  rw [wp_bind]
  exact wp_publishManual honly hstaged

/-! ## 2. Inventories -/

/-- A directory is one of the snapshots of the store. -/
def IsStored (disk : StoreDisk) (directory : SnapshotDirectory) : Prop :=
  (∃ index, disk.ring.get ⟨.slot, index⟩ = some directory) ∨
    ∃ id, disk.manual.lookup id = some directory

/-- **What holds of the snapshots whatever the limits are**: the ring is orderly, every manual
snapshot is valid, and the identifiers, all of them among the used ones, are distinct. -/
structure Inventory (env : SnapshotEnvironment δ) (used : List String) (disk : StoreDisk) :
    Prop where
  ring : Orderly env disk.ring
  positive : ∀ name, (disk.ring.get name).isSome = true → 1 ≤ name.index
  manual : ∀ id directory, disk.manual.lookup id = some directory →
    ∃ manifest, loadValidSnapshot env directory = .ok manifest
  manualStrays : disk.manualStrays = []
  ids : ∀ directory manifest, IsStored disk directory →
    loadValidSnapshot env directory = .ok manifest → manifest.snapshotId ∈ used
  distinct : ∀ directory other manifest manifest', IsStored disk directory → IsStored disk other →
    loadValidSnapshot env directory = .ok manifest → loadValidSnapshot env other = .ok manifest' →
      manifest.snapshotId = manifest'.snapshotId → directory = other

variable {used : List String} {disk disk' : StoreDisk} {config : SnapshotStoreConfig}
  {input : CaptureInput} {id : String}

theorem Inventory.exists_manifest (h : Inventory env used disk) {directory : SnapshotDirectory}
    (hstored : IsStored disk directory) :
    ∃ manifest, loadValidSnapshot env directory = .ok manifest := by
  rcases hstored with ⟨index, hslot⟩ | ⟨id, hmanual⟩
  · obtain ⟨manifest, hload, -⟩ := exists_of_isHealthy env (h.ring.undamaged index directory hslot)
    exact ⟨manifest, hload⟩
  · exact h.manual id directory hmanual

theorem Inventory.add_ids (h : Inventory env used disk) (disk' : StoreDisk) (hid : id ∉ used)
    {new : SnapshotDirectory} {manifest : SnapshotManifest δ}
    (hload : loadValidSnapshot env new = .ok manifest) (hnew : manifest.snapshotId = id)
    (hstored : ∀ directory, IsStored disk' directory → directory = new ∨ IsStored disk directory) :
    (∀ directory manifest, IsStored disk' directory →
      loadValidSnapshot env directory = .ok manifest → manifest.snapshotId ∈ id :: used) ∧
    ∀ directory other manifest manifest', IsStored disk' directory → IsStored disk' other →
      loadValidSnapshot env directory = .ok manifest →
        loadValidSnapshot env other = .ok manifest' →
          manifest.snapshotId = manifest'.snapshotId → directory = other := by
  have hfresh : ∀ directory manifest', IsStored disk directory →
      loadValidSnapshot env directory = .ok manifest' → manifest'.snapshotId ≠ id :=
    fun directory manifest' hd hl heq => hid (heq ▸ h.ids directory manifest' hd hl)
  have hunique : ∀ manifest', loadValidSnapshot env new = .ok manifest' →
      manifest'.snapshotId = id := fun manifest' hl => by
    obtain rfl := Except.ok.inj (hload.symm.trans hl)
    exact hnew
  constructor
  · intro directory manifest' hd hl
    rcases hstored directory hd with rfl | hold
    · rw [hunique manifest' hl]
      exact List.mem_cons_self ..
    · exact List.mem_cons_of_mem _ (h.ids directory manifest' hold hl)
  · intro directory other m m' hd ho hl hl' heq
    rcases hstored directory hd with rfl | hold
    · rcases hstored other ho with rfl | hother
      · rfl
      · exact absurd (heq.symm.trans (hunique m hl)) (hfresh other m' hother hl')
    · rcases hstored other ho with rfl | hother
      · exact absurd (heq.trans (hunique m' hl')) (hfresh directory m hold hl)
      · exact h.distinct directory other m m' hold hother hl hl' heq

theorem Inventory.onlyStaging (h : Inventory env used disk) (honly : OnlyStaging disk disk') :
    Inventory env (id :: used) disk' := by
  have hstored : ∀ directory, IsStored disk' directory → IsStored disk directory :=
    fun directory hd => by rw [IsStored, honly.ring, honly.manual] at hd; exact hd
  refine ⟨honly.ring ▸ h.ring, honly.ring ▸ h.positive, honly.manual ▸ h.manual,
    honly.manualStrays.trans h.manualStrays, fun d m hd hl => ?_, fun d o m m' hd ho => ?_⟩
  · exact List.mem_cons_of_mem _ (h.ids d m (hstored d hd) hl)
  · exact h.distinct d o m m' (hstored d hd) (hstored o ho)

theorem Inventory.grown (h : Inventory env used disk) (hid : id ∉ used)
    (hgrown : Grown env id disk disk') : Inventory env (id :: used) disk' := by
  rcases hgrown with honly | ⟨new, manifest, hload, hnew, hring, hstrays, hmanual⟩
  · exact h.onlyStaging honly
  · have hlookup : ∀ other directory, disk'.manual.lookup other = some directory →
        directory = new ∨ disk.manual.lookup other = some directory := fun other directory hd => by
      rw [hmanual] at hd
      by_cases hother : other = id
      · rw [hother, AList.lookup_insert] at hd
        exact Or.inl (Option.some.inj hd).symm
      · rw [AList.lookup_insert_ne hother] at hd
        exact Or.inr hd
    have hids := h.add_ids disk' hid hload hnew fun directory hd => by
      rcases hd with ⟨index, hslot⟩ | ⟨other, hother⟩
      · rw [hring] at hslot
        exact Or.inr (Or.inl ⟨index, hslot⟩)
      · exact (hlookup other directory hother).imp_right fun hold => Or.inr ⟨other, hold⟩
    refine ⟨hring ▸ h.ring, hring ▸ h.positive, fun other directory hd => ?_,
      hstrays.trans h.manualStrays, hids.1, hids.2⟩
    rcases hlookup other directory hd with rfl | hold
    · exact ⟨manifest, hload⟩
    · exact h.manual other directory hold

theorem Inventory.same_ring (h : Inventory env used disk) (hsame : ∀ name, s'.get name =
    disk.ring.get name) (hhealthy : s'.healthyStrays = []) (hroot : s'.rootStrays = []) :
    Inventory env (id :: used) { disk with ring := s' } := by
  have hstored : ∀ directory, IsStored { disk with ring := s' } directory →
      IsStored disk directory := fun directory hd => by
    rcases hd with ⟨index, hslot⟩ | hmanual
    · exact Or.inl ⟨index, (hsame _).symm.trans hslot⟩
    · exact Or.inr hmanual
  refine ⟨⟨fun i => ?_, fun i d hd => ?_, hhealthy, hroot⟩, fun name hname => ?_, h.manual,
    h.manualStrays, fun d m hd hl => ?_, fun d o m m' hd ho => ?_⟩
  · rw [NoOrphan, hsame, hsame]
    exact h.ring.orphans i
  · exact h.ring.undamaged i d ((hsame _).symm.trans hd)
  · exact h.positive name (hsame name ▸ hname)
  · exact List.mem_cons_of_mem _ (h.ids d m (hstored d hd) hl)
  · exact h.distinct d o m m' (hstored d hd) (hstored o ho)

theorem Inventory.filled (h : Inventory env used disk) (hid : id ∉ used) {index : Nat}
    {new : SnapshotDirectory} (hslot : s'.get ⟨.slot, index⟩ = some new)
    (hnew : IsSnapshot env id new) (hat : AtSlot index disk.ring s')
    (htidy : TidyRing (env.configured config) s') :
    Inventory env (id :: used) { disk with ring := s' } := by
  obtain ⟨hhealthy, manifest, hload, hmanifest⟩ := hnew
  have hcases : ∀ i directory, s'.get ⟨.slot, i⟩ = some directory →
      directory = new ∨ disk.ring.get ⟨.slot, i⟩ = some directory := fun i directory hd => by
    by_cases hi : i = index
    · rw [hi, hslot] at hd
      exact Or.inl (Option.some.inj hd).symm
    · rw [hat.others ⟨.slot, i⟩ hi] at hd
      exact Or.inr hd
  have hids := h.add_ids { disk with ring := s' } hid hload hmanifest
    fun directory hd => by
      rcases hd with ⟨i, hi⟩ | hmanual
      · exact (hcases i directory hi).imp_right fun hold => Or.inl ⟨i, hold⟩
      · exact Or.inr (Or.inr hmanual)
  refine ⟨⟨htidy.orphans, fun i directory hd => ?_, htidy.shape.healthyStrays,
    htidy.shape.rootStrays⟩, fun name hname => (htidy.shape.indices name hname).1, h.manual,
    h.manualStrays, hids.1, hids.2⟩
  rcases hcases i directory hd with rfl | hold
  · exact hhealthy
  · exact h.ring.undamaged i directory hold

/-- **Every capture keeps the inventory**, under any limits, whether it succeeds or not. -/
theorem settles_capture_inventory (h : Inventory env used disk) (hconfig : config.Valid)
    (hid : input.snapshotId ∉ used) (kind : SnapshotKind) :
    (capture env config kind input).settles
      (fun _ => Inventory env (input.snapshotId :: used))
      (fun _ => Inventory env (input.snapshotId :: used)) disk := by
  rcases kind with _ | label
  · have horderly : Orderly (env.configured config) disk.ring :=
      ⟨h.ring.orphans, h.ring.undamaged, h.ring.healthyStrays, h.ring.rootStrays⟩
    rw [capture_healthy, onRing, settles_zoom]
    by_cases hrange : InRange (env.configured config) disk.ring
    · refine settles_mono ?_ ?_ (settles_captureHealthy_any hconfig.1.1
        (horderly.tidyRing hrange) h.ring.undamaged input)
      · rintro _ s' ⟨index, new, hslot, hnew, hat, htidy⟩
        exact h.filled hid hslot hnew hat htidy
      · rintro _ s' ⟨hsame, htidy⟩
        exact h.same_ring hsame htidy.shape.healthyStrays htidy.shape.rootStrays
    · refine settles_mono (fun _ _ hs => hs.elim) ?_
        (settles_captureHealthy_outOfRange horderly hrange input)
      rintro _ s' rfl
      exact h.same_ring (fun _ => rfl) h.ring.healthyStrays h.ring.rootStrays
  · exact settles_of_wp (wp_mono (fun _ _ hs => h.grown hid hs)
      (fun _ _ hs => h.grown hid hs) (fun _ hs => h.grown hid hs)
      (wp_capture_manual config label input disk))

/-- A capture under the limits of its moment. -/
structure CaptureCall where
  config : SnapshotStoreConfig
  kind : SnapshotKind
  input : CaptureInput

def afterCaptures (env : SnapshotEnvironment δ) : List CaptureCall → StoreDisk → StoreDisk
  | [], disk => disk
  | call :: calls, disk =>
      afterCaptures env calls ((capture env call.config call.kind call.input).run [] disk).2

theorem inventory_emptyStore (env : SnapshotEnvironment δ) : Inventory env [] emptyStore where
  ring := ⟨fun _ => ⟨rfl, rfl⟩, fun _ _ hd => (nomatch hd), rfl, rfl⟩
  positive _ hname := nomatch hname
  manual _ _ hd := nomatch hd
  manualStrays := rfl
  ids _ _ hd := by rcases hd with ⟨_, hslot⟩ | ⟨_, hmanual⟩ <;> contradiction
  distinct _ _ _ _ hd := by rcases hd with ⟨_, hslot⟩ | ⟨_, hmanual⟩ <;> contradiction

/-- **Inventories are built by captures** under any limits. -/
theorem inventory_afterCaptures {calls : List CaptureCall} (h : Inventory env used disk)
    (hvalid : ∀ call ∈ calls, call.config.Valid)
    (hids : (calls.map fun call => call.input.snapshotId).Nodup)
    (hnew : ∀ call ∈ calls, call.input.snapshotId ∉ used) :
    ∃ used', Inventory env used' (afterCaptures env calls disk) := by
  induction calls generalizing used disk with
  | nil => exact ⟨used, h⟩
  | cons call calls ih =>
    rw [List.map_cons, List.nodup_cons] at hids
    have hnext := settles_run (settles_capture_inventory h
      (hvalid call (List.mem_cons_self ..)) (hnew call (List.mem_cons_self ..)) call.kind)
    refine ih hnext (fun other ho => hvalid other (List.mem_cons_of_mem _ ho)) hids.2
      fun other ho hmem => ?_
    rcases List.mem_cons.mp hmem with heq | hmem
    · exact hids.1 (heq ▸ List.mem_map_of_mem ho)
    · exact hnew other (List.mem_cons_of_mem _ ho) hmem

/-! ## 3. Reading under new limits -/

def SlotsCovered (config : SnapshotStoreConfig) (disk : StoreDisk) : Prop :=
  ∀ index, (disk.ring.get ⟨.slot, index⟩).isSome = true → index ≤ config.healthySlots

def Covered (config : SnapshotStoreConfig) (disk : StoreDisk) : Prop :=
  SlotsCovered config disk ∧ disk.manualDirectories.length ≤ config.maxManualSnapshots

/-- The healthy snapshots in the first slots. -/
def slotDirectories (disk : StoreDisk) (healthySlots : Nat) : List SnapshotDirectory :=
  (List.range' 1 healthySlots).filterMap fun index => disk.ring.get ⟨.slot, index⟩

def storedDirectories (config : SnapshotStoreConfig) (disk : StoreDisk) : List SnapshotDirectory :=
  slotDirectories disk config.healthySlots ++ disk.manualDirectories

theorem slotsCovered_iff (h : Inventory env used disk) :
    SlotsCovered config disk ↔ InRange (env.configured config) disk.ring := by
  constructor
  · rintro hcovered ⟨kind, index⟩ hname
    refine ⟨h.positive _ hname, ?_⟩
    rcases kind with _ | _ | _
    · exact hcovered index hname
    · rw [(h.ring.orphans index).1] at hname
      exact absurd hname Bool.noConfusion
    · rw [(h.ring.orphans index).2] at hname
      exact absurd hname Bool.noConfusion
  · exact fun hrange index hname => (hrange _ hname).2

theorem length_slotDirectories_le (disk : StoreDisk) (healthySlots : Nat) :
    (slotDirectories disk healthySlots).length ≤ healthySlots := by
  have hle := List.length_filterMap_le (fun index => disk.ring.get ⟨.slot, index⟩)
    (List.range' 1 healthySlots)
  rw [List.length_range'] at hle
  exact hle

theorem slotDirectories_add (h : SlotsCovered config disk) (extra : Nat) :
    slotDirectories disk (config.healthySlots + extra) =
      slotDirectories disk config.healthySlots := by
  have hbeyond : (List.range' (1 + config.healthySlots) extra).filterMap
      (fun index => disk.ring.get ⟨.slot, index⟩) = [] := by
    refine List.filterMap_eq_nil_iff.mpr fun index hindex => ?_
    have hrange := List.mem_range'_1.mp hindex
    by_contra hne
    have hle := h index (Option.isSome_iff_ne_none.mpr hne)
    omega
  have hsplit : List.range' 1 (config.healthySlots + extra) =
      List.range' 1 config.healthySlots ++ List.range' (1 + config.healthySlots) extra := by
    rw [List.range'_append_1]
  rw [slotDirectories, hsplit, List.filterMap_append, hbeyond, List.append_nil, slotDirectories]

theorem storedDirectories_eq {config' : SnapshotStoreConfig} (h : SlotsCovered config disk)
    (h' : SlotsCovered config' disk) :
    storedDirectories config disk = storedDirectories config' disk := by
  rw [storedDirectories, storedDirectories]
  by_cases hle : config.healthySlots ≤ config'.healthySlots
  · obtain ⟨extra, hextra⟩ := Nat.exists_eq_add_of_le hle
    rw [hextra, slotDirectories_add h]
  · obtain ⟨extra, hextra⟩ := Nat.exists_eq_add_of_le (Nat.le_of_not_le hle)
    rw [hextra, slotDirectories_add h']

theorem mem_storedDirectories_iff (h : Inventory env used disk) (hcovered : SlotsCovered config disk)
    {directory : SnapshotDirectory} :
    directory ∈ storedDirectories config disk ↔ IsStored disk directory := by
  rw [storedDirectories, List.mem_append]
  refine or_congr ?_ ?_
  · rw [slotDirectories, List.mem_filterMap]
    constructor
    · rintro ⟨index, -, hslot⟩
      exact ⟨index, hslot⟩
    · rintro ⟨index, hslot⟩
      have hsome : (disk.ring.get ⟨.slot, index⟩).isSome = true := by rw [hslot]; rfl
      have hpos := h.positive _ hsome
      have hle := hcovered index hsome
      exact ⟨index, List.mem_range'_1.mpr ⟨hpos, by omega⟩, hslot⟩
  · rw [StoreDisk.manualDirectories, List.mem_map]
    constructor
    · rintro ⟨⟨id, value⟩, hentry, rfl⟩
      exact ⟨id, AList.mem_lookup_iff.mpr hentry⟩
    · rintro ⟨id, hlookup⟩
      exact ⟨⟨id, directory⟩, AList.mem_lookup_iff.mp hlookup, rfl⟩

theorem inventory_eq (h : Inventory env used disk) :
    inventory env config disk =
      if disk.manualDirectories.length ≤ config.maxManualSnapshots then
        .ok (storedDirectories config disk)
      else .error (.capacity ("directory inventory exceeds bound " ++
        toString (config.maxManualSnapshots + 1 - 1) ++ ": manual")) := by
  rw [inventory, boundedSubdirectories, h.manualStrays]
  by_cases hcount : disk.manualDirectories.length ≤ config.maxManualSnapshots
  · have hslots := length_slotDirectories_le disk config.healthySlots
    have htotal : ¬ (slotDirectories disk config.healthySlots ++ disk.manualDirectories).length >
        config.healthySlots + config.maxManualSnapshots := by
      rw [List.length_append]
      omega
    rw [if_pos hcount]
    show ((if _ then _ else _ : Except SnapshotError (List SnapshotDirectory)) >>= _) = _
    rw [if_neg (by omega)]
    exact if_neg htotal
  · rw [if_neg hcount]
    show ((if _ then _ else _ : Except SnapshotError (List SnapshotDirectory)) >>= _) = _
    rw [if_pos (by omega)]
    rfl

/-- **What a listing finds under new limits**: the snapshots if the limits cover them, and an
error otherwise.  The store stays as it is. -/
theorem settles_snapshotDirectories (h : Inventory env used disk) :
    (snapshotDirectories env config).settles
      (fun directories disk' => disk' = disk ∧ Covered config disk ∧
        directories = storedDirectories config disk)
      (fun _ disk' => disk' = disk ∧ ¬ Covered config disk) disk := by
  have horderly : Orderly (env.configured config) disk.ring :=
    ⟨h.ring.orphans, h.ring.undamaged, h.ring.healthyStrays, h.ring.rootStrays⟩
  rw [snapshotDirectories, settles_bind, onRing, settles_zoom]
  refine settles_mono ?_ ?_ (settles_recoverOrphanedHealthySlots_orderly horderly)
  · rintro _ ring ⟨rfl, hrange⟩
    have hslots := (slotsCovered_iff h).mpr hrange
    show (Program.ofExcept (inventory env config disk)).settles _ _ disk
    rw [inventory_eq h, settles_ofExcept]
    by_cases hcount : disk.manualDirectories.length ≤ config.maxManualSnapshots
    · rw [if_pos hcount]
      exact ⟨fun directories hd => ⟨rfl, ⟨hslots, hcount⟩, (Except.ok.inj hd).symm⟩,
        fun _ he => by cases he⟩
    · rw [if_neg hcount]
      exact ⟨fun _ hd => (by cases hd), fun _ _ => ⟨rfl, fun hcovered => hcount hcovered.2⟩⟩
  · rintro _ ring ⟨rfl, hrange⟩
    exact ⟨rfl, fun hcovered => hrange ((slotsCovered_iff h).mp hcovered.1)⟩

theorem returns_snapshotDirectories (h : Inventory env used disk) (hcovered : Covered config disk) :
    (snapshotDirectories env config).returns
      (fun directories disk' => disk' = disk ∧ directories = storedDirectories config disk) disk :=
  returns_mono (fun _ _ hd => ⟨hd.1, hd.2.2⟩) (returns_of_settles
    (settles_snapshotDirectories h) fun _ _ he => he.2 hcovered)

theorem settles_snapshotDirectories_uncovered (h : Inventory env used disk)
    (huncovered : ¬ Covered config disk) :
    (snapshotDirectories env config).settles (fun _ _ => False) (fun _ disk' => disk' = disk) disk :=
  settles_mono (fun _ _ hd => huncovered hd.2.1) (fun _ _ he => he.1)
    (settles_snapshotDirectories h)

/-! ## 4. The store under new limits -/

/-- What `find_snapshot_directory` finds in the store as it stands. -/
def seenDirectory (env : SnapshotEnvironment δ) (config : SnapshotStoreConfig) (disk : StoreDisk)
    (snapshotId : String) : Except SnapshotError SnapshotDirectory :=
  match ((findSnapshotDirectory env config snapshotId).run [] disk).1 with
  | .ok directory => .ok directory
  | .error e => .error e
  | .crash => .error (.io "find snapshot directory")

def restoreEnvironment (env : SnapshotEnvironment δ) (hinj : Function.Injective env.sha256Hex)
    (config : SnapshotStoreConfig) (disk : StoreDisk) : RestoreEnvironment δ where
  codecs := env.codecs
  profileName := env.profileName
  loadSnapshot snapshotId := do
    let directory ← seenDirectory env config disk snapshotId
    loadValidSnapshot env directory
  manifestBytes snapshotId :=
    match seenDirectory env config disk snapshotId with
    | .ok directory => directory.manifest
    | .error _ => none
  readSnapshotBlob snapshotId i := do
    let directory ← seenDirectory env config disk snapshotId
    match (directory.files.getD []).lookup (toString i.val) with
    | none => .error (.integrity ("missing blob for " ++ (FILE_POLICY i).manifestPath))
    | some bytes =>
        if bytes.length > (FILE_POLICY i).maxBytes then
          .error (.oversized ("files/" ++ toString i.val) bytes.length (FILE_POLICY i).maxBytes)
        else .ok bytes
  sha256Hex := env.sha256Hex
  sha256Hex_injective := hinj

/-- The store works under the limits: its snapshots are listed, newest first, each one is found
under its identifier, a restore is prepared as under any limits that cover them, and a healthy
capture goes through. -/
structure Works (env : SnapshotEnvironment δ) (hinj : Function.Injective env.sha256Hex)
    (config : SnapshotStoreConfig) (disk : StoreDisk) : Prop where
  list : (listSnapshots env config).returns (fun summaries disk' => disk' = disk ∧
    summaries.Pairwise (fun summary later => later.createdUnixMs ≤ summary.createdUnixMs) ∧
      ∀ summary, summary ∈ summaries ↔ ∃ directory manifest, IsStored disk directory ∧
        loadValidSnapshot env directory = .ok manifest ∧ manifest.summary = summary) disk
  detail : ∀ directory manifest, IsStored disk directory →
    loadValidSnapshot env directory = .ok manifest →
      (snapshotDetail env config manifest.snapshotId).returns
        (fun found disk' => found = manifest ∧ disk' = disk) disk
  prepare : ∀ other, Covered other disk →
    restoreEnvironment env hinj config disk = restoreEnvironment env hinj other disk
  capture : ∀ input, Capturable env input →
    (capture env config .healthy input).returns (Stored env .healthy input) disk

/-- The store does not work under the limits: nothing is listed, found or restored.  No snapshot
is lost. -/
structure Refuses (env : SnapshotEnvironment δ) (hinj : Function.Injective env.sha256Hex)
    (config : SnapshotStoreConfig) (disk : StoreDisk) : Prop where
  list : (listSnapshots env config).settles (fun _ _ => False) (fun _ disk' => disk' = disk) disk
  detail : ∀ snapshotId, (snapshotDetail env config snapshotId).settles (fun _ _ => False)
    (fun _ disk' => disk' = disk) disk
  prepare : ∀ snapshotId newIdentifier unixMillis files,
    (prepareRestore (restoreEnvironment env hinj config disk) snapshotId newIdentifier
      unixMillis).wp (fun _ _ => False) (fun _ _ => True) (fun _ => True) files

instance : Std.Total (@NewerFirst δ) := ⟨fun _ _ => Nat.le_total ..⟩

instance : IsTrans (SnapshotManifest δ) NewerFirst := ⟨fun _ _ _ h h' => Nat.le_trans h' h⟩

theorem mapM_loadValidSnapshot {directories : List SnapshotDirectory}
    (h : ∀ directory ∈ directories, ∃ manifest, loadValidSnapshot env directory = .ok manifest) :
    ∃ manifests, directories.mapM (loadValidSnapshot env) = .ok manifests ∧
      ∀ manifest, manifest ∈ manifests ↔
        ∃ directory ∈ directories, loadValidSnapshot env directory = .ok manifest := by
  induction directories with
  | nil => exact ⟨[], rfl, fun manifest => by simp⟩
  | cons directory directories ih =>
    obtain ⟨first, hfirst⟩ := h directory (List.mem_cons_self ..)
    obtain ⟨manifests, hrest, hmem⟩ := ih fun d hd => h d (List.mem_cons_of_mem _ hd)
    refine ⟨first :: manifests, ?_, fun manifest => ?_⟩
    · rw [List.mapM_cons, hfirst, hrest]
      rfl
    · rw [List.mem_cons, hmem]
      constructor
      · rintro (rfl | ⟨d, hd, hload⟩)
        · exact ⟨directory, List.mem_cons_self .., hfirst⟩
        · exact ⟨d, List.mem_cons_of_mem _ hd, hload⟩
      · rintro ⟨d, hd, hload⟩
        rcases List.mem_cons.mp hd with rfl | hd
        · exact Or.inl (Except.ok.inj (hload.symm.trans hfirst))
        · exact Or.inr ⟨d, hd, hload⟩

/-- **A listing** under limits that cover the inventory. -/
theorem returns_listSnapshots (h : Inventory env used disk) (hcovered : Covered config disk) :
    (listSnapshots env config).returns (fun summaries disk' => disk' = disk ∧
      summaries.Pairwise (fun summary later => later.createdUnixMs ≤ summary.createdUnixMs) ∧
        ∀ summary, summary ∈ summaries ↔ ∃ directory manifest, IsStored disk directory ∧
          loadValidSnapshot env directory = .ok manifest ∧ manifest.summary = summary) disk := by
  rw [listSnapshots, returns_bind]
  refine returns_mono ?_ (returns_snapshotDirectories h hcovered)
  rintro _ disk' ⟨rfl, rfl⟩
  have hmem : ∀ directory, directory ∈ storedDirectories config disk' ↔ IsStored disk' directory :=
    fun _ => mem_storedDirectories_iff h hcovered.1
  obtain ⟨manifests, hmanifests, hall⟩ := mapM_loadValidSnapshot
    fun directory hd => h.exists_manifest ((hmem directory).mp hd)
  rw [returns_bind, hmanifests]
  refine ⟨rfl, List.pairwise_map.mpr (List.pairwise_insertionSort NewerFirst manifests),
    fun summary => ?_⟩
  rw [List.mem_map]
  constructor
  · rintro ⟨manifest, hmanifest, rfl⟩
    obtain ⟨directory, hd, hload⟩ := (hall manifest).mp ((List.mem_insertionSort _).mp hmanifest)
    exact ⟨directory, manifest, (hmem directory).mp hd, hload, rfl⟩
  · rintro ⟨directory, manifest, hstored, hload, rfl⟩
    exact ⟨manifest, (List.mem_insertionSort _).mpr
      ((hall manifest).mpr ⟨directory, (hmem directory).mpr hstored, hload⟩), rfl⟩

theorem validateIdentifier_of_loadValidSnapshot {directory : SnapshotDirectory}
    {manifest : SnapshotManifest δ} (h : loadValidSnapshot env directory = .ok manifest) :
    validateIdentifier manifest.snapshotId = .ok () := by
  obtain ⟨_, _, hloads⟩ := loadValidSnapshot_eq_ok.mp h
  exact hloads.snapshotId

theorem hasIdentifier_of_loadValidSnapshot {directory : SnapshotDirectory}
    {manifest : SnapshotManifest δ} (h : loadValidSnapshot env directory = .ok manifest)
    (snapshotId : String) :
    hasIdentifier env snapshotId directory = decide (manifest.snapshotId = snapshotId) := by
  rw [hasIdentifier, readManifestBounded_of_loadValidSnapshot h]

/-- **A snapshot is found under its identifier.** -/
theorem returns_findSnapshotDirectory (h : Inventory env used disk)
    (hcovered : Covered config disk) {directory : SnapshotDirectory}
    {manifest : SnapshotManifest δ} (hstored : IsStored disk directory)
    (hload : loadValidSnapshot env directory = .ok manifest) :
    (findSnapshotDirectory env config manifest.snapshotId).returns
      (fun found disk' => found = directory ∧ disk' = disk) disk := by
  rw [findSnapshotDirectory, validateIdentifier_of_loadValidSnapshot hload]
  show (snapshotDirectories env config >>= _ : StoreProgram SnapshotDirectory).returns _ disk
  rw [returns_bind]
  refine returns_mono ?_ (returns_snapshotDirectories h hcovered)
  rintro _ disk' ⟨rfl, rfl⟩
  have hmem := (mem_storedDirectories_iff h hcovered.1).mpr hstored
  have hsome : ((storedDirectories config disk').find?
      (hasIdentifier env manifest.snapshotId)).isSome = true := by
    refine List.find?_isSome.mpr ⟨directory, hmem, ?_⟩
    rw [hasIdentifier_of_loadValidSnapshot hload]
    exact decide_eq_true rfl
  obtain ⟨found, hfound⟩ := Option.isSome_iff_exists.mp hsome
  have hfoundStored := (mem_storedDirectories_iff h hcovered.1).mp (List.mem_of_find?_eq_some hfound)
  obtain ⟨manifest', hload'⟩ := h.exists_manifest hfoundStored
  have hid := List.find?_some hfound
  rw [hasIdentifier_of_loadValidSnapshot hload', decide_eq_true_eq] at hid
  rw [hfound]
  exact ⟨h.distinct found directory manifest' manifest hfoundStored hstored hload' hload hid, rfl⟩

theorem returns_snapshotDetail (h : Inventory env used disk) (hcovered : Covered config disk)
    {directory : SnapshotDirectory} {manifest : SnapshotManifest δ}
    (hstored : IsStored disk directory) (hload : loadValidSnapshot env directory = .ok manifest) :
    (snapshotDetail env config manifest.snapshotId).returns
      (fun found disk' => found = manifest ∧ disk' = disk) disk := by
  rw [snapshotDetail, returns_bind]
  refine returns_mono ?_ (returns_findSnapshotDirectory h hcovered hstored hload)
  rintro _ _ ⟨rfl, rfl⟩
  rw [returns_ofExcept]
  exact ⟨manifest, hload, rfl, rfl⟩

theorem seenDirectory_eq (h : Inventory env used disk) {other : SnapshotStoreConfig}
    (hcovered : Covered config disk) (hother : Covered other disk) (snapshotId : String) :
    seenDirectory env config disk snapshotId = seenDirectory env other disk snapshotId := by
  have hsame : ∀ {limits : SnapshotStoreConfig}, Covered limits disk →
      (snapshotDirectories env limits).run [] disk = (.ok (storedDirectories config disk), disk) := by
    intro limits hlimits
    obtain ⟨directories, disk', hrun, hdisk, hdirectories⟩ :=
      (returns_iff_run _ _ _).mp (returns_snapshotDirectories h hlimits)
    rw [hrun, hdisk, hdirectories, storedDirectories_eq hlimits.1 hcovered.1]
  have hfind : (findSnapshotDirectory env config snapshotId).run [] disk =
      (findSnapshotDirectory env other snapshotId).run [] disk := by
    rw [findSnapshotDirectory, findSnapshotDirectory]
    rcases validateIdentifier snapshotId with e | ⟨⟩
    · rfl
    · show (snapshotDirectories env config >>= _ : StoreProgram _).run [] disk =
        (snapshotDirectories env other >>= _ : StoreProgram _).run [] disk
      rw [run_bind_of_ok (hsame hcovered), run_bind_of_ok (hsame hother)]
  rw [seenDirectory, seenDirectory, hfind]

theorem returns_capture_of_slots (h : Inventory env used disk) (hconfig : config.Valid)
    (hslots : SlotsCovered config disk) {input : CaptureInput} (hin : Capturable env input) :
    (capture env config .healthy input).returns (Stored env .healthy input) disk := by
  obtain ⟨captured, encoded, hcaptured, hencode, hload⟩ := hin.staged
  have horderly : Orderly (env.configured config) disk.ring :=
    ⟨h.ring.orphans, h.ring.undamaged, h.ring.healthyStrays, h.ring.rootStrays⟩
  exact returns_capture_healthy hconfig
    ⟨horderly.tidyRing ((slotsCovered_iff h).mp hslots), h.ring.undamaged⟩ hcaptured
    hin.dshVersion hencode hload

theorem settles_capture_uncovered (h : Inventory env used disk)
    (hslots : ¬ SlotsCovered config disk) (input : CaptureInput) :
    (capture env config .healthy input).settles (fun _ _ => False)
      (fun _ disk' => disk' = disk) disk := by
  have horderly : Orderly (env.configured config) disk.ring :=
    ⟨h.ring.orphans, h.ring.undamaged, h.ring.healthyStrays, h.ring.rootStrays⟩
  rw [capture_healthy, onRing, settles_zoom]
  refine settles_mono (fun _ _ hf => hf) ?_ (settles_captureHealthy_outOfRange horderly
    (fun hrange => hslots ((slotsCovered_iff h).mpr hrange)) input)
  rintro _ ring rfl
  rfl

/-- **The store works under limits that cover its inventory.** -/
theorem works_of_covered (h : Inventory env used disk) (hinj : Function.Injective env.sha256Hex)
    (hconfig : config.Valid) (hcovered : Covered config disk) : Works env hinj config disk where
  list := returns_listSnapshots h hcovered
  detail _ _ hstored hload := returns_snapshotDetail h hcovered hstored hload
  prepare other hother := by
    have hseen := seenDirectory_eq h hcovered hother
    simp only [restoreEnvironment, hseen]
  capture input hin := returns_capture_of_slots h hconfig hcovered.1 hin

omit [DecidableEq δ] in
theorem wp_prepareRestore_unseen (renv : RestoreEnvironment δ)
    (hnone : ∀ snapshotId, ∃ e, renv.loadSnapshot snapshotId = .error e)
    (snapshotId newIdentifier : String) (unixMillis : Nat) (files : RestoreDisk δ) :
    (prepareRestore renv snapshotId newIdentifier unixMillis).wp (fun _ _ => False)
      (fun _ _ => True) (fun _ => True) files := by
  rw [prepareRestore, wp_bind]
  refine wp_imp (fun _ files₁ _ => ?_)
    (wp_true _ files)
  rw [wp_bind]
  refine wp_imp (fun pending files₂ _ => ?_)
    (wp_true _ files₁)
  rcases pending with _ | ⟨active, pending⟩
  · show (Program.ofExcept (detail renv snapshotId) >>= _ : RestoreProgram δ _).wp _ _ _ files₂
    rw [wp_bind, wp_ofExcept]
    refine ⟨fun manifest hmanifest => ?_, fun _ _ => trivial⟩
    obtain ⟨⟨⟩, -, hload⟩ := bind_eq_ok hmanifest
    obtain ⟨e, he⟩ := hnone snapshotId
    rw [he] at hload
    exact nomatch hload
  · exact trivial

/-- **The store does not work under limits that do not cover its inventory**, and keeps it. -/
theorem refuses_of_uncovered (h : Inventory env used disk)
    (hinj : Function.Injective env.sha256Hex) (huncovered : ¬ Covered config disk) :
    Refuses env hinj config disk := by
  have hdirectories := settles_snapshotDirectories_uncovered h huncovered
  have hfind : ∀ snapshotId, (findSnapshotDirectory env config snapshotId).settles
      (fun _ _ => False) (fun _ disk' => disk' = disk) disk := fun snapshotId => by
    rw [findSnapshotDirectory, settles_bind, settles_ofExcept]
    refine ⟨fun _ _ => ?_, fun _ _ => rfl⟩
    rw [settles_bind]
    exact settles_imp (fun _ _ hf => hf.elim) hdirectories
  refine ⟨?_, fun snapshotId => ?_, fun snapshotId newIdentifier unixMillis files =>
    wp_prepareRestore_unseen _ (fun id => ?_) snapshotId newIdentifier unixMillis files⟩
  · rw [listSnapshots, settles_bind]
    exact settles_imp (fun _ _ hf => hf.elim) hdirectories
  · rw [snapshotDetail, settles_bind]
    exact settles_imp (fun _ _ hf => hf.elim) (hfind snapshotId)
  · have hmeets := (settles_iff_run _ _ _ _).mp (hfind id)
    rcases hrun : (findSnapshotDirectory env config id).run [] disk with ⟨_ | e | _, disk'⟩
    · rw [hrun] at hmeets
      exact hmeets.elim
    · refine ⟨e, ?_⟩
      show (seenDirectory env config disk id >>= _ : Except SnapshotError _) = _
      rw [seenDirectory, hrun]
      rfl
    · rw [hrun] at hmeets
      exact hmeets.elim

/-- **The limits of a snapshot store may change** to any valid ones.  After any sequence of
captures, each under valid limits of its own, limits that cover the inventory leave everything
at work.  Other limits make the listing, the lookups and the restores fail, and the healthy
captures exactly if they leave out a slot; they lose no snapshot. -/
theorem limits_may_change (env : SnapshotEnvironment δ) (hinj : Function.Injective env.sha256Hex)
    {calls : List CaptureCall} (hvalid : ∀ call ∈ calls, call.config.Valid)
    (hids : (calls.map fun call => call.input.snapshotId).Nodup) (hconfig : config.Valid) :
    (Covered config (afterCaptures env calls emptyStore) →
      Works env hinj config (afterCaptures env calls emptyStore)) ∧
    (¬ Covered config (afterCaptures env calls emptyStore) →
      Refuses env hinj config (afterCaptures env calls emptyStore)) ∧
    (SlotsCovered config (afterCaptures env calls emptyStore) → ∀ input, Capturable env input →
      (capture env config .healthy input).returns (Stored env .healthy input)
        (afterCaptures env calls emptyStore)) ∧
    (¬ SlotsCovered config (afterCaptures env calls emptyStore) → ∀ input,
      (capture env config .healthy input).settles (fun _ _ => False)
        (fun _ disk' => disk' = afterCaptures env calls emptyStore)
          (afterCaptures env calls emptyStore)) := by
  obtain ⟨used, h⟩ := inventory_afterCaptures (inventory_emptyStore env) hvalid hids
    fun _ _ hmem => nomatch hmem
  exact ⟨works_of_covered h hinj hconfig, refuses_of_uncovered h hinj,
    fun hslots _ hin => returns_capture_of_slots h hconfig hslots hin,
    fun hslots input => settles_capture_uncovered h hslots input⟩

end Limits

/-! ## Two slots -/

def twoCaptures : List CaptureCall :=
  [⟨⟨2, 1⟩, .healthy, packageInput "healthy-1"⟩, ⟨⟨2, 1⟩, .healthy, packageInput "healthy-2"⟩]

theorem valid_twoCaptures : ∀ call ∈ twoCaptures, call.config.Valid := by
  intro call hcall
  rcases List.mem_cons.mp hcall with rfl | hcall
  · exact ⟨by decide, by decide⟩
  · rcases List.mem_cons.mp hcall with rfl | hcall
    · exact ⟨by decide, by decide⟩
    · exact absurd hcall List.not_mem_nil

/-- With more slots the store works as before. -/
theorem works_with_more_slots : Works oneSlotEnvironment (fun _ _ h => h) ⟨3, 1⟩
    (afterCaptures oneSlotEnvironment twoCaptures emptyStore) := by
  have hkeys : ∀ name ∈ (afterCaptures oneSlotEnvironment twoCaptures emptyStore).ring.healthy.keys,
      name.index ≤ 3 := by decide +kernel
  have hcovered : Covered ⟨3, 1⟩ (afterCaptures oneSlotEnvironment twoCaptures emptyStore) :=
    ⟨fun index hindex => hkeys ⟨.slot, index⟩ (mem_keys_iff.mpr hindex), by decide +kernel⟩
  exact (limits_may_change oneSlotEnvironment (fun _ _ h => h) valid_twoCaptures
    (by decide +kernel) ⟨by decide, by decide⟩).1 hcovered

/-- **With fewer slots the store does not work**: two slots are filled, then there is one. -/
theorem fewer_slots_disable_the_store :
    (∀ call ∈ twoCaptures, call.config.Valid) ∧
    (twoCaptures.map fun call => call.input.snapshotId).Nodup ∧
    SnapshotStoreConfig.Valid ⟨1, 1⟩ ∧
    ((listSnapshots oneSlotEnvironment ⟨2, 1⟩).run []
      (afterCaptures oneSlotEnvironment twoCaptures emptyStore)).1 =
        .ok [(packageManifest "healthy-1").summary, (packageManifest "healthy-2").summary] ∧
    ((listSnapshots oneSlotEnvironment ⟨1, 1⟩).run []
      (afterCaptures oneSlotEnvironment twoCaptures emptyStore)).1 =
        .error (.unsafePath "unidentified healthy-slot orphan: slot-2") ∧
    (((fun _ => ()) <$> snapshotDetail oneSlotEnvironment ⟨1, 1⟩ "healthy-1").run []
      (afterCaptures oneSlotEnvironment twoCaptures emptyStore)).1 =
        .error (.unsafePath "unidentified healthy-slot orphan: slot-2") ∧
    (((fun _ => ()) <$> capture oneSlotEnvironment ⟨1, 1⟩ .healthy (packageInput "healthy-1")).run []
      (afterCaptures oneSlotEnvironment twoCaptures emptyStore)).1 =
        .error (.unsafePath "unidentified healthy-slot orphan: slot-2") :=
  ⟨valid_twoCaptures, by decide +kernel, ⟨by decide, by decide⟩, by decide +kernel,
    by decide +kernel, by decide +kernel, by decide +kernel⟩

end DshNexus.Snapshot
