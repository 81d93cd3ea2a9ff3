import DshNexus.Config.ProtectedLocations
import DshNexus.Config.Undo

/-!
# Harness data stays protected

Any number of processes save the configuration; each may stop after any step, and others may
change the directories.  The two protection records only grow, and `config.json` is replaced only
when what the old and the new configuration name is recorded.

1. `Covered`: what a configuration names is recorded.  `Safe`, `Inv`: every configuration that
   may still get into `config.json` is covered.
2. `conduct`: what one process may do to the disk while the others are at work.
3. The parts of a save: the publication with its rollback, and the two records.
4. `among_writeUnlocked` and the saves.
5. `harness_homes_stay_protected`: the runs.
-/

namespace DshNexus.Config

open Durable Program Concurrent

/-! ## 1. Covered configurations -/

section Covered

variable {ρ : Type} (codec : ProtectionCodec ρ) (kept : Path → Prop) (first : Option Bytes)

/-- A change of the directories that leaves the data root and the kept homes in place. -/
structure InPlace (before after : FileTree) : Prop where
  root : after.canonicalize codec.root = before.canonicalize codec.root
  identity : ∀ root, before.canonicalize codec.root = .ok root →
    after.identity root = before.identity root
  homes : ∀ home, kept home → ∀ root rootId,
    after.locateHome root rootId home = before.locateHome root rootId home

/-- A home that can be recorded is recorded. -/
def HomeCovered (disk : ProtectionDisk) (home : Path) : Prop :=
  disk.tree.located codec.root home ≠ .ok none →
    ∃ name, disk.tree.located codec.root home = .ok (some name) ∧ HomeRecorded codec disk name

/-- What the configuration names is recorded: its home, if it is one of the kept ones, and its
external directory. -/
def Covered (disk : ProtectionDisk) (config : Option Bytes) : Prop :=
  ∀ bytes document, config = some bytes → codec.document.decode bytes = .ok document →
    (∀ home, codec.namedHome document = some home → kept home → HomeCovered codec disk home) ∧
      ∀ root, codec.namedRoot document = some root → RootRecorded codec disk root

/-- The configurations that a publication record can bring back are covered. -/
def PendingCovered (disk : ProtectionDisk) (p : Pending) : Prop :=
  Covered codec kept disk (some p.target) ∧ Covered codec kept disk p.oldCurrent

/-- Every configuration that is or can get into `config.json` is covered. -/
structure Safe (disk : ProtectionDisk) : Prop where
  first : Covered codec kept disk first
  config : Covered codec kept disk disk.config.config
  pending : ∀ p, disk.config.pending = some p → PendingCovered codec kept disk p

/-- Either nothing has been published over the first configuration, or the disk is safe. -/
def Inv (disk : ProtectionDisk) : Prop :=
  disk.config.config = first ∧ disk.config.pending = none ∨ Safe codec kept first disk

/-- The records grow, the kept homes stay where they are, and the invariant is kept. -/
structure Grows (before after : ProtectionDisk) : Prop where
  homes : ∀ location, HomeRecorded codec before location → HomeRecorded codec after location
  roots : ∀ location, RootRecorded codec before location → RootRecorded codec after location
  tree : InPlace codec kept before.tree after.tree
  inv : Inv codec kept first before → Inv codec kept first after

variable {codec kept first} {s t u : ProtectionDisk}

theorem InPlace.refl (tree : FileTree) : InPlace codec kept tree tree :=
  ⟨rfl, fun _ _ => rfl, fun _ _ _ _ => rfl⟩

theorem InPlace.trans {a b c : FileTree} (hab : InPlace codec kept a b)
    (hbc : InPlace codec kept b c) : InPlace codec kept a c where
  root := hbc.root.trans hab.root
  identity root hroot := by
    have hb : b.canonicalize codec.root = .ok root := hab.root.trans hroot
    rw [hbc.identity root hb, hab.identity root hroot]
  homes home hkept root rootId := by
    rw [hbc.homes home hkept root rootId, hab.homes home hkept root rootId]

theorem InPlace.located_eq {a b : FileTree} (h : InPlace codec kept a b) {home : Path}
    (hkept : kept home) : b.located codec.root home = a.located codec.root home := by
  rw [FileTree.located, FileTree.located, h.root]
  cases hroot : a.canonicalize codec.root with
  | error e => rfl
  | ok root =>
    change (b.identity root >>= fun rootId => b.locateHome root rootId home) =
      (a.identity root >>= fun rootId => a.locateHome root rootId home)
    rw [h.identity root hroot]
    exact bind_congr fun rootId => h.homes home hkept root rootId

theorem Grows.refl (s : ProtectionDisk) : Grows codec kept first s s :=
  ⟨fun _ h => h, fun _ h => h, .refl _, fun h => h⟩

theorem Grows.trans (hst : Grows codec kept first s t) (htu : Grows codec kept first t u) :
    Grows codec kept first s u where
  homes location h := htu.homes location (hst.homes location h)
  roots location h := htu.roots location (hst.roots location h)
  tree := hst.tree.trans htu.tree
  inv h := htu.inv (hst.inv h)

theorem Grows.homeCovered (h : Grows codec kept first s t) {home : Path} (hkept : kept home)
    (hs : HomeCovered codec s home) : HomeCovered codec t home := by
  intro hlocated
  rw [h.tree.located_eq hkept] at hlocated ⊢
  obtain ⟨name, hname, hrecorded⟩ := hs hlocated
  exact ⟨name, hname, h.homes name hrecorded⟩

theorem Grows.covered (h : Grows codec kept first s t) {config : Option Bytes}
    (hs : Covered codec kept s config) : Covered codec kept t config := by
  intro bytes document hbytes hdecode
  obtain ⟨hhome, hroot⟩ := hs bytes document hbytes hdecode
  exact ⟨fun home hnamed hkept => h.homeCovered hkept (hhome home hnamed hkept),
    fun root hnamed => h.roots root (hroot root hnamed)⟩

theorem Grows.pendingCovered (h : Grows codec kept first s t) {p : Pending}
    (hs : PendingCovered codec kept s p) : PendingCovered codec kept t p :=
  ⟨h.covered hs.1, h.covered hs.2⟩

theorem Inv.safe (h : Inv codec kept first s) (hfirst : Covered codec kept s first) :
    Safe codec kept first s := by
  rcases h with ⟨hconfig, hpending⟩ | hsafe
  · refine ⟨hfirst, ?_, fun p hp => ?_⟩
    · rw [hconfig]
      exact hfirst
    · rw [hpending] at hp
      cases hp
  · exact hsafe

end Covered

/-! ## 2. The conduct of one process -/

section Conduct

variable {ρ : Type} (codec : ProtectionCodec ρ) (kept : Path → Prop) (first : Option Bytes)

/-- Nobody changes the records without the lock; everybody lets them grow; and `config.json` is
changed only when the old and the new content are covered. -/
def conduct : Conduct ProtectionDisk where
  rely held s t := Grows codec kept first s t ∧
    (held = true → t.homes = s.homes ∧ t.locations = s.locations)
  guarantee held s t := Grows codec kept first s t ∧
    (held = false → t.homes = s.homes ∧ t.locations = s.locations) ∧
    (t.config.config ≠ s.config.config →
      Covered codec kept s s.config.config ∧ Covered codec kept s t.config.config)
  refl _ s := ⟨.refl s, fun _ => ⟨rfl, rfl⟩⟩
  trans hst htu := ⟨hst.1.trans htu.1, fun hheld =>
    ⟨(htu.2 hheld).1.trans (hst.2 hheld).1, (htu.2 hheld).2.trans (hst.2 hheld).2⟩⟩
  waiting h := ⟨h.1, fun hheld => Bool.noConfusion hheld⟩
  holding h := ⟨h.1, fun _ => h.2.1 rfl⟩

/-- How a part of a save ends that does not hold the lock: with a result of the given kind, after
the records have grown. -/
def After {α : Type} (s : ProtectionDisk) (A : α → ProtectionDisk → Prop) :
    Bool → α → ProtectionDisk → Prop :=
  fun held a t => held = false ∧ A a t ∧ Grows codec kept first s t ∧ Inv codec kept first t

/-- A part of a save may fail at any time, but not with the lock. -/
def Unlocked {ε : Type} : Bool → ε → ProtectionDisk → Prop := fun held _ _ => held = false

def Locked {ε : Type} : Bool → ε → ProtectionDisk → Prop := fun held _ _ => held = true ∧ True

variable {codec kept first} {s t : ProtectionDisk} {α β : Type}

/-- **Sequences.**  A part of a save is followed by the rest. -/
theorem among_then {p : ProtectionTask α} {g : α → ProtectionTask β}
    {A : α → ProtectionDisk → Prop} {B : β → ProtectionDisk → Prop}
    (hp : Task.Among (conduct codec kept first) false p (After codec kept first s A) Unlocked s)
    (hg : ∀ a t, A a t → Grows codec kept first s t → Inv codec kept first t →
      Task.Among (conduct codec kept first) false (g a) (After codec kept first t B) Unlocked t) :
    Task.Among (conduct codec kept first) false (p >>= g) (After codec kept first s B)
      Unlocked s := by
  rw [Task.among_bind]
  refine Task.among_mono (fun held a t ht => ?_) (fun _ _ _ he => he) hp
  obtain ⟨rfl, hA, hgrows, hinv⟩ := ht
  refine Task.among_mono (fun held b u hu => ?_) (fun _ _ _ he => he) (hg a t hA hgrows hinv)
  exact ⟨hu.1, hu.2.1, hgrows.trans hu.2.2.1, hu.2.2.2⟩

/-! ## 3. The publication -/

/-- A step of a publication: it leaves `config.json` alone or puts one of the targets there, and
leaves the publication record alone, removes it or writes one of the given ones. -/
def Kind (targets : List (Option Bytes)) (records : List Pending) (f : ConfigDisk → ConfigDisk) :
    Prop :=
  ∀ d, ((f d).config = d.config ∨ (f d).config ∈ targets) ∧
    ((f d).pending = d.pending ∨ (f d).pending = none ∨ ∃ p ∈ records, (f d).pending = some p)

/-- The targets and the records are covered; without any, nothing has to be. -/
def KindCovered (codec : ProtectionCodec ρ) (kept : Path → Prop) (first : Option Bytes)
    (targets : List (Option Bytes)) (records : List Pending) (disk : ProtectionDisk) : Prop :=
  (targets = [] ∧ records = []) ∨ (Covered codec kept disk first ∧
    (∀ target ∈ targets, Covered codec kept disk target) ∧
      ∀ p ∈ records, PendingCovered codec kept disk p)

theorem Grows.kindCovered {targets : List (Option Bytes)} {records : List Pending}
    (h : Grows codec kept first s t) (hs : KindCovered codec kept first targets records s) :
    KindCovered codec kept first targets records t := by
  rcases hs with hnone | ⟨hfirst, htargets, hrecords⟩
  · exact Or.inl hnone
  · exact Or.inr ⟨h.covered hfirst, fun target ht => h.covered (htargets target ht),
      fun p hp => h.pendingCovered (hrecords p hp)⟩

theorem inv_of_kind {targets : List (Option Bytes)} {records : List Pending}
    {f : ConfigDisk → ConfigDisk} (hf : Kind targets records f)
    (hcovered : KindCovered codec kept first targets records t) (hinv : Inv codec kept first t) :
    Inv codec kept first { t with config := f t.config } := by
  obtain ⟨hconfig, hpending⟩ := hf t.config
  rcases hcovered with ⟨rfl, rfl⟩ | ⟨hfirst, htargets, hrecords⟩
  · have hsame : (f t.config).config = t.config.config :=
      hconfig.resolve_right List.not_mem_nil
    have hstays : (f t.config).pending = t.config.pending ∨ (f t.config).pending = none := by
      rcases hpending with h | h | ⟨p, hp, -⟩
      · exact Or.inl h
      · exact Or.inr h
      · cases hp
    rcases hinv with ⟨hc, hp⟩ | hsafe
    · refine Or.inl ⟨hsame.trans hc, ?_⟩
      rcases hstays with h | h
      · exact h.trans hp
      · exact h
    · refine Or.inr ⟨hsafe.first, ?_, fun p hp => ?_⟩
      · change Covered codec kept t (f t.config).config
        rw [hsame]
        exact hsafe.config
      · change (f t.config).pending = some p at hp
        rcases hstays with h | h
        · exact hsafe.pending p (h.symm.trans hp)
        · rw [h] at hp
          cases hp
  · have hsafe : Safe codec kept first t := hinv.safe hfirst
    refine Or.inr ⟨hfirst, ?_, fun p hp => ?_⟩
    · change Covered codec kept t (f t.config).config
      rcases hconfig with h | h
      · rw [h]
        exact hsafe.config
      · exact htargets _ h
    · change (f t.config).pending = some p at hp
      rcases hpending with h | h | ⟨q, hq, h⟩
      · exact hsafe.pending p (h.symm.trans hp)
      · rw [h] at hp
        cases hp
      · rw [h] at hp
        rw [← Option.some.inj hp]
        exact hrecords q hq

theorem guarantee_of_kind {targets : List (Option Bytes)} {records : List Pending}
    {f : ConfigDisk → ConfigDisk} (hf : Kind targets records f)
    (hcovered : KindCovered codec kept first targets records t) (hinv : Inv codec kept first t) :
    (conduct codec kept first).guarantee false t { t with config := f t.config } := by
  refine ⟨⟨fun _ h => h, fun _ h => h, .refl _, fun h => inv_of_kind hf hcovered h⟩,
    fun _ => ⟨rfl, rfl⟩, fun hne => ?_⟩
  change (f t.config).config ≠ t.config.config at hne
  have htarget : (f t.config).config ∈ targets := (hf t.config).1.resolve_left hne
  rcases hcovered with ⟨rfl, -⟩ | ⟨hfirst, htargets, -⟩
  · cases htarget
  · exact ⟨(hinv.safe hfirst).config, htargets _ htarget⟩

/-- **Programs whose steps are steps of a publication.** -/
theorem among_onConfig {p : ConfigProgram α} {A : α → Prop} {targets : List (Option Bytes)}
    {records : List Pending} (hp : p.StepsIn (Kind targets records) A)
    (hcovered : KindCovered codec kept first targets records s) (hinv : Inv codec kept first s) :
    Task.Among (conduct codec kept first) false (ProtectionStore.onConfig p)
      (After codec kept first s fun a _ => A a) Unlocked s := by
  refine Task.among_lift_of_stepsIn
    (P := fun t => Grows codec kept first s t ∧ Inv codec kept first t) hp ?_ ?_
    (fun a t ha ht => ⟨rfl, ha, ht.1, ht.2⟩) (fun _ _ _ => rfl) ⟨.refl s, hinv⟩
  · exact fun t u ht hrely => ⟨ht.1.trans hrely.1, hrely.1.inv ht.2⟩
  · intro f hf t ht
    have hcovered' := ht.1.kindCovered hcovered
    have hG := guarantee_of_kind hf hcovered' ht.2
    exact ⟨hG, ht.1.trans hG.1, hG.1.inv ht.2⟩

theorem kind_id (targets : List (Option Bytes)) (records : List Pending)
    (f : ConfigDisk → ConfigDisk) (hf : ∀ d, f d = d) : Kind targets records f := by
  intro d
  rw [hf d]
  exact ⟨Or.inl rfl, Or.inl rfl⟩

theorem among_onConfig_readOnly {p : ConfigProgram α} (hp : p.ReadOnly)
    (hinv : Inv codec kept first s) :
    Task.Among (conduct codec kept first) false (ProtectionStore.onConfig p)
      (After codec kept first s fun _ _ => True) Unlocked s :=
  among_onConfig (hp.stepsIn (kind_id [] [])) (Or.inl ⟨rfl, rfl⟩) hinv

section Steps

variable {checks : ConfigChecks} {targets : List (Option Bytes)} {records : List Pending}

theorem kind_of_same {f : ConfigDisk → ConfigDisk} (hconfig : ∀ d, (f d).config = d.config)
    (hpending : ∀ d, (f d).pending = d.pending ∨ (f d).pending = none) :
    Kind targets records f :=
  fun d => ⟨Or.inl (hconfig d), (hpending d).imp_right Or.inl⟩

theorem stepsIn_removePending :
    ConfigStore.removePending.StepsIn (Kind targets records) fun _ => True :=
  stepsIn_durable (kind_of_same (fun _ => rfl) fun _ => Or.inr rfl)

theorem stepsIn_removePreserve :
    ConfigStore.removePreserve.StepsIn (Kind targets records) fun _ => True :=
  stepsIn_durable (kind_of_same (fun _ => rfl) fun _ => Or.inl rfl)

theorem stepsIn_savePending {p : Pending} (hp : p ∈ records) :
    (ConfigStore.savePending checks p).StepsIn (Kind targets records) fun _ => True := by
  rw [ConfigStore.savePending]
  split
  · trivial
  · exact stepsIn_durable fun d => ⟨Or.inl rfl, Or.inr (Or.inr ⟨p, hp, rfl⟩)⟩

theorem stepsIn_restoreBytes {path : PairFile} {observed target : Option Bytes}
    (htarget : path = .config → target ∈ targets) :
    (ConfigStore.restoreBytes path observed target).StepsIn (Kind targets records)
      fun _ => True := by
  have hset : ∀ bytes, bytes = target → Kind targets records fun d => d.set path bytes := by
    rintro bytes rfl d
    cases path with
    | config => exact ⟨Or.inr (htarget rfl), Or.inl rfl⟩
    | previous => exact ⟨Or.inl rfl, Or.inl rfl⟩
  unfold ConfigStore.restoreBytes
  split
  · trivial
  · refine ((readOnly_readFile _ _).stepsIn (kind_id targets records)).then fun now => ?_
    split
    · trivial
    · split
      · exact stepsIn_durable (hset _ rfl)
      · exact stepsIn_durable (hset _ rfl)

theorem stepsIn_archivePending (id : String) (p : Pending) :
    (ConfigStore.archivePending id p).StepsIn (Kind targets records) fun _ => True := by
  refine (readOnly_read.stepsIn (kind_id targets records)).then fun disk => ?_
  split
  · split
    · trivial
    · trivial
  · exact stepsIn_durable (kind_of_same (fun _ => rfl) fun _ => Or.inl rfl)

theorem stepsIn_preservePendingInner :
    (ConfigStore.preservePendingInner checks).StepsIn (Kind targets records) fun _ => True := by
  have hread : ∀ {β : Type} {p : ConfigProgram β}, p.ReadOnly →
      p.StepsIn (Kind targets records) fun _ => True :=
    fun hp => hp.stepsIn (kind_id targets records)
  refine (hread (ConfigStore.readOnly_outerPreservesCurrent checks)).then fun _ => ?_
  refine (hread ConfigStore.readOnly_validatedCurrentBytes).then fun current => ?_
  refine (hread readOnly_read).then fun disk => ?_
  split
  · split
    · trivial
    · split
      · trivial
      · exact stepsIn_removePreserve
  · next p _ =>
    refine (hread (ConfigStore.readOnly_validatePendingConfigs checks p)).then fun _ => ?_
    have hdecision : ∀ decision : PreserveDecision, ((do
        ConfigStore.archivePending decision.pendingId p
        let again ← ConfigStore.validatedCurrentBytes checks
        let disk ← Program.read
        if again ≠ current ∨ disk.pending ≠ some p then
          throw (invalidData "Configuration changed during recovery")
        else do
          ConfigStore.removePending
          ConfigStore.removePreserve : ConfigProgram Unit)).StepsIn (Kind targets records)
            fun _ => True := by
      intro decision
      refine (stepsIn_archivePending _ p).then fun _ => ?_
      refine (hread ConfigStore.readOnly_validatedCurrentBytes).then fun again => ?_
      refine (hread readOnly_read).then fun disk => ?_
      split
      · trivial
      · exact stepsIn_removePending.then fun _ => stepsIn_removePreserve
    dsimp only
    split
    · split
      · trivial
      · exact hdecision _
    · refine Program.StepsIn.then (stepsIn_durable ?_) fun _ => hdecision _
      exact kind_of_same (fun _ => rfl) fun _ => Or.inl rfl

theorem stepsIn_settle {p : Pending} (htarget : p.oldCurrent ∈ targets) :
    ((do
      ConfigStore.validatePendingConfigs checks p
      if p.schema ≠ 1 ∨ p.target.length > LIMIT ∨ p.oldCurrent.any (·.length > LIMIT) ∨
          p.oldPrevious.any (·.length > LIMIT) ∨ (p.rotate = true ∧ p.oldCurrent = none) then
        throw (invalidData "Invalid configuration transaction")
      else do
        let current ← readFile ConfigDisk.config LIMIT
        let previous ← readFile ConfigDisk.previous LIMIT
        if p.committed = true then
          if current ≠ some p.target ∨ previous ≠ p.nextPrevious then
            throw (invalidData "Committed configuration was externally changed")
          else ConfigStore.removePending
        else if (current ≠ p.oldCurrent ∧ current ≠ some p.target) ∨
            (previous ≠ p.oldPrevious ∧ previous ≠ p.nextPrevious) then
          throw (invalidData "Pending configuration was externally changed")
        else do
          ConfigStore.restoreBytes .config current p.oldCurrent
          ConfigStore.restoreBytes .previous previous p.oldPrevious
          ConfigStore.removePending : ConfigProgram Unit)).StepsIn (Kind targets records)
            fun _ => True := by
  have hread : ∀ {β : Type} {q : ConfigProgram β}, q.ReadOnly →
      q.StepsIn (Kind targets records) fun _ => True :=
    fun hq => hq.stepsIn (kind_id targets records)
  refine (hread (ConfigStore.readOnly_validatePendingConfigs checks p)).then fun _ => ?_
  split
  · trivial
  · refine (hread (readOnly_readFile _ _)).then fun current => ?_
    refine (hread (readOnly_readFile _ _)).then fun previous => ?_
    split
    · split
      · trivial
      · exact stepsIn_removePending
    · split
      · trivial
      · refine (stepsIn_restoreBytes fun _ => htarget).then fun _ => ?_
        exact Program.StepsIn.then (stepsIn_restoreBytes fun h => by cases h) fun _ =>
          stepsIn_removePending

end Steps

theorem among_settlePendingUnlocked (checks : ConfigChecks) (hinv : Inv codec kept first s) :
    Task.Among (conduct codec kept first) false
      (ProtectionStore.onConfig (ConfigStore.settlePendingUnlocked checks))
      (After codec kept first s fun _ _ => True) Unlocked s := by
  refine Task.among_lift_tryCatch.mpr (Task.among_mono (fun _ _ _ h => h) (fun _ _ _ he => he) ?_)
  change Task.Among _ _ (ProtectionStore.onConfig (ConfigStore.settlePendingInner checks)) _ _ _
  rw [ConfigStore.settlePendingInner, ProtectionStore.onConfig, Task.lift_bind]
  refine among_then (among_onConfig_readOnly (ConfigStore.readOnly_outerPreservesCurrent checks)
    hinv) fun outer t _ _ ht => ?_
  rw [Task.lift_bind, Task.among_bind]
  intro u hu
  have hinv' : Inv codec kept first u := hu.1.inv ht
  have hthen : ∀ p : ProtectionTask Unit,
      Task.Among (conduct codec kept first) false p (After codec kept first u fun _ _ => True)
        Unlocked u →
      Task.Among (conduct codec kept first) false p (After codec kept first t fun _ _ => True)
        Unlocked u := by
    intro p hp
    refine Task.among_mono (fun held a v hv => ?_) (fun _ _ _ he => he) hp
    exact ⟨hv.1, hv.2.1, hu.1.trans hv.2.2.1, hv.2.2.2⟩
  refine hthen _ ?_
  change Task.Among _ _ (Task.lift configLens (if u.config.preserve.isSome = true ∨ outer = true
    then _ else _)) _ _ _
  split
  · exact among_onConfig stepsIn_preservePendingInner
      (Or.inl ⟨rfl, rfl⟩) hinv'
  · rcases hpending : u.config.pending with _ | p
    · rw [show configLens.get u = u.config from rfl, hpending]
      exact ⟨rfl, trivial, .refl u, hinv'⟩
    · rw [show configLens.get u = u.config from rfl, hpending]
      have hsafe : Safe codec kept first u := by
        rcases hinv' with ⟨-, hnone⟩ | hsafe
        · rw [hpending] at hnone
          cases hnone
        · exact hsafe
      have hcovered : KindCovered codec kept first [p.oldCurrent] [] u := by
        refine Or.inr ⟨hsafe.first, fun target htarget => ?_, fun q hq => ?_⟩
        · rw [List.mem_singleton.mp htarget]
          exact (hsafe.pending p hpending).2
        · cases hq
      exact among_onConfig (stepsIn_settle List.mem_cons_self) hcovered hinv'

theorem among_readConfig (hinv : Inv codec kept first s) :
    Task.Among (conduct codec kept first) false
      (ProtectionStore.onConfig (readFile ConfigDisk.config LIMIT))
      (After codec kept first s fun file t => file = t.config.config) Unlocked s := by
  rw [ProtectionStore.onConfig, readFile, Task.lift_bind, Task.among_bind]
  intro t ht
  change Task.Among _ _ (Task.lift configLens
    (Program.ofExcept (readRegularFileBounded t.config.config LIMIT))) _ _ _
  cases hfile : readRegularFileBounded t.config.config LIMIT with
  | error e => exact rfl
  | ok file => exact ⟨rfl, eq_of_readRegularFileBounded hfile, ht.1, ht.1.inv hinv⟩

theorem stepsIn_acceptCommitted {targets : List (Option Bytes)} {records : List Pending}
    (p : Pending) :
    (ConfigStore.acceptCommitted p).StepsIn (Kind targets records) fun _ => True := by
  have hread : ∀ file : ConfigDisk → Option Bytes,
      (tryCatch (readFile file LIMIT) fun e => throw (ConfigStore.pendingError e) :
        ConfigProgram (Option Bytes)).StepsIn (Kind targets records) fun _ => True := by
    intro file
    refine Program.StepsIn.tryCatch ?_ fun _ => trivial
    exact (readOnly_readFile file LIMIT).stepsIn (kind_id targets records)
  refine (hread _).then fun current => (hread _).then fun previous => ?_
  split
  · trivial
  · exact stepsIn_removePending.ignoreError

theorem among_publishFailed (checks : ConfigChecks) (p : Pending) (error : IoError)
    (hinv : Inv codec kept first s) :
    Task.Among (conduct codec kept first) false
      (ProtectionStore.onConfig (ConfigStore.publishFailed checks p error))
      (After codec kept first s fun _ _ => True) Unlocked s := by
  rw [ConfigStore.publishFailed, ProtectionStore.onConfig, Task.lift_bind]
  refine among_then (among_onConfig_readOnly readOnly_read hinv) fun disk t _ _ ht => ?_
  split
  · exact among_onConfig (stepsIn_acceptCommitted p)
      (Or.inl ⟨rfl, rfl⟩) ht
  · rw [Task.lift_bind]
    exact among_then (among_settlePendingUnlocked checks ht) fun _ _ _ _ _ => rfl

theorem among_publishPrepared (checks : ConfigChecks) {p : Pending}
    (hfirst : Covered codec kept s first) (hp : PendingCovered codec kept s p)
    (hinv : Inv codec kept first s) :
    Task.Among (conduct codec kept first) false
      (ProtectionStore.onConfig (ConfigStore.publishPrepared checks p))
      (After codec kept first s fun _ _ => True) Unlocked s := by
  have hkind : ∀ t, Grows codec kept first s t →
      KindCovered codec kept first [some p.target] [p, p.commit] t := by
    intro t ht
    refine Or.inr ⟨ht.covered hfirst, fun target htarget => ?_, fun q hq => ?_⟩
    · rw [List.mem_singleton.mp htarget]
      exact ht.covered hp.1
    · rcases List.mem_cons.mp hq with rfl | hq
      · exact ht.pendingCovered hp
      · rw [List.mem_singleton.mp hq]
        exact ht.pendingCovered hp
  rw [ConfigStore.publishPrepared, ProtectionStore.onConfig, Task.lift_bind]
  refine among_then (among_onConfig (stepsIn_savePending List.mem_cons_self) (hkind s (.refl s))
    hinv) fun _ t _ hst ht => ?_
  rw [Task.lift_bind]
  refine among_then (among_onConfig (Program.StepsIn.toExcept ?_) (hkind t hst) ht)
    fun replaced u _ htu hu => ?_
  · refine (stepsIn_restoreBytes fun _ => List.mem_cons_self).then fun _ => ?_
    exact stepsIn_restoreBytes fun h => by cases h
  have hsu : Grows codec kept first s u := hst.trans htu
  cases replaced with
  | error e => exact among_publishFailed checks p e hu
  | ok _ =>
    dsimp only
    rw [Task.lift_bind]
    refine among_then (among_onConfig (Program.StepsIn.toExcept (stepsIn_savePending
      (List.mem_cons_of_mem p List.mem_cons_self))) (hkind u hsu) hu) fun saved v _ huv hv => ?_
    cases saved with
    | error e => exact among_publishFailed checks p.commit e hv
    | ok _ => exact among_onConfig stepsIn_removePending.ignoreError (hkind v (hsu.trans huv)) hv

/-- **The publication of a document** whose content, like the first configuration, is covered. -/
theorem among_publishConfigUnlocked [DecidableEq ρ] (document : NexusConfigFile ρ)
    (validCurrent : Bool) (hfirst : Covered codec kept s first)
    (hdocument : Covered codec kept s (some (codec.document.encode document)))
    (hinv : Inv codec kept first s) :
    Task.Among (conduct codec kept first) false
      (ProtectionStore.onConfig
        (DocumentStore.publishConfigUnlocked codec.document document validCurrent))
      (After codec kept first s fun _ _ => True) Unlocked s := by
  rw [DocumentStore.publishConfigUnlocked, ConfigStore.publishConfigPair,
    ProtectionStore.onConfig, Task.lift_bind]
  refine among_then (among_readConfig hinv) fun oldCurrent t hcurrent hst ht => ?_
  rw [Task.lift_bind]
  refine among_then (among_onConfig_readOnly (readOnly_readFile _ _) ht)
    fun oldPrevious u _ htu hu => ?_
  have hsu : Grows codec kept first s u := hst.trans htu
  split
  · exact rfl
  · rw [Task.lift_bind]
    refine among_then (among_onConfig_readOnly (ConfigStore.readOnly_validatePrevious _ _) hu)
      fun _ v _ huv hv => ?_
    have hsv : Grows codec kept first s v := hsu.trans huv
    split
    · exact rfl
    · dsimp only
      rw [Task.lift_bind]
      refine among_then (among_onConfig_readOnly
        (ConfigStore.readOnly_validatePendingConfigs _ _) hv) fun _ w _ hvw hw => ?_
      have hsw : Grows codec kept first s w := hsv.trans hvw
      refine among_publishPrepared _ (hsw.covered hfirst) ⟨hsw.covered hdocument, ?_⟩ hw
      -- what is replaced is the first configuration or has been covered since
      have hold : Covered codec kept t t.config.config :=
        (ht.safe (hst.covered hfirst)).config
      change Covered codec kept w oldCurrent
      rw [hcurrent]
      exact (htu.trans (huv.trans hvw)).covered hold

/-! ### The two records -/

theorem among_attempt {held : Bool} (hinv : Inv codec kept first s) :
    Task.Among (conduct codec kept first) held ProtectionStore.attempt
      (fun b _ t => b = held ∧ Grows codec kept first s t ∧ Inv codec kept first t)
      (fun b _ _ => b = held) s := by
  intro t ht
  have hgrows : Grows codec kept first s t := ht.1
  exact ⟨⟨.refl t, fun _ => ⟨rfl, rfl⟩, fun hne => absurd rfl hne⟩,
    ⟨rfl, hgrows, hgrows.inv hinv⟩, rfl, rfl⟩

theorem guarantee_of_records {homes locations : Option Bytes}
    (hhomes : ∀ location, HomeRecorded codec s location →
      HomeRecorded codec { s with homes, locations } location)
    (hroots : ∀ location, RootRecorded codec s location →
      RootRecorded codec { s with homes, locations } location) :
    (conduct codec kept first).guarantee true s { s with homes, locations } := by
  have hhome : ∀ home, HomeCovered codec s home →
      HomeCovered codec { s with homes, locations } home := by
    intro home hs hlocated
    obtain ⟨name, hname, hrecorded⟩ := hs hlocated
    exact ⟨name, hname, hhomes name hrecorded⟩
  have hcovered : ∀ config, Covered codec kept s config →
      Covered codec kept { s with homes, locations } config := by
    intro config hs bytes document hbytes hdecode
    obtain ⟨hnamed, hroot⟩ := hs bytes document hbytes hdecode
    exact ⟨fun home hn hk => hhome home (hnamed home hn hk),
      fun root hn => hroots root (hroot root hn)⟩
  refine ⟨⟨hhomes, hroots, .refl _, fun hinv => ?_⟩, fun hfalse => Bool.noConfusion hfalse,
    fun hne => absurd rfl hne⟩
  refine hinv.imp_right fun hsafe => ⟨hcovered _ hsafe.first, hcovered _ hsafe.config, ?_⟩
  exact fun p hp => ⟨hcovered _ (hsafe.pending p hp).1, hcovered _ (hsafe.pending p hp).2⟩

theorem rely_of_inPlace {tree : FileTree} (h : InPlace codec kept s.tree tree) (held : Bool) :
    (conduct codec kept first).rely held s { s with tree } := by
  have hcovered : ∀ config, Covered codec kept s config →
      Covered codec kept { s with tree } config := by
    intro config hs bytes document hbytes hdecode
    obtain ⟨hnamed, hroot⟩ := hs bytes document hbytes hdecode
    refine ⟨fun home hn hk hlocated => ?_, hroot⟩
    have hsame : tree.located codec.root home = s.tree.located codec.root home := h.located_eq hk
    change tree.located codec.root home ≠ .ok none at hlocated
    rw [hsame] at hlocated
    obtain ⟨name, hname, hrecorded⟩ := hnamed home hn hk hlocated
    exact ⟨name, hsame.trans hname, hrecorded⟩
  refine ⟨⟨fun _ hr => hr, fun _ hr => hr, h, fun hinv => ?_⟩, fun _ => ⟨rfl, rfl⟩⟩
  exact hinv.imp_right fun hsafe => ⟨hcovered _ hsafe.first, hcovered _ hsafe.config,
    fun p hp => ⟨hcovered _ (hsafe.pending p hp).1, hcovered _ (hsafe.pending p hp).2⟩⟩

/-- The homes that stand in the record are those that were read. -/
def HomesAre (codec : ProtectionCodec ρ) (disk : ProtectionDisk) (homes : List Path) : Prop :=
  ∀ location, HomeRecorded codec disk location → location ∈ homes

/-- A home that can be recorded is in the list. -/
def Listed (codec : ProtectionCodec ρ) (disk : ProtectionDisk) (saved : List Path)
    (home : Path) : Prop :=
  disk.tree.located codec.root home ≠ .ok none →
    ∃ name ∈ saved, disk.tree.located codec.root home = .ok (some name)

theorem mem_addLocation {locations : List Path} {location other : Path} :
    other ∈ addLocation locations location ↔ other ∈ locations ∨ other = location := by
  rw [addLocation]
  split
  · next hmem =>
    exact (or_iff_left_of_imp fun heq => heq ▸ hmem).symm
  · rw [List.mem_append, List.mem_singleton]

/-- The state of the loop of `protect_harness_homes`. -/
structure Protecting (codec : ProtectionCodec ρ) (kept : Path → Prop) (first : Option Bytes)
    (s : ProtectionDisk) (root : Path) (rootId : String) (homes candidates xs saved : List Path)
    (t : ProtectionDisk) : Prop where
  grows : Grows codec kept first s t
  inv : Inv codec kept first t
  homesAre : HomesAre codec t homes
  resolved : t.tree.canonicalize codec.root = .ok root
  identity : t.tree.identity root = .ok rootId
  includes : ∀ home ∈ homes, home ∈ saved
  listed : ∀ home ∈ candidates, kept home → home ∈ xs ∨ Listed codec t saved home

variable {root : Path} {rootId : String} {homes candidates xs saved : List Path}

theorem Protecting.stable
    (h : Protecting codec kept first s root rootId homes candidates xs saved t)
    (hrely : (conduct codec kept first).rely true t u) :
    Protecting codec kept first s root rootId homes candidates xs saved u where
  grows := h.grows.trans hrely.1
  inv := hrely.1.inv h.inv
  homesAre location hrecorded := by
    refine h.homesAre location ?_
    obtain ⟨bytes, record, hbytes, hrecord⟩ := hrecorded
    exact ⟨bytes, record, (hrely.2 rfl).1.symm.trans hbytes, hrecord⟩
  resolved := hrely.1.tree.root.trans h.resolved
  identity := (hrely.1.tree.identity root h.resolved).trans h.identity
  includes := h.includes
  listed home hhome hkept := by
    refine (h.listed home hhome hkept).imp_right fun hlisted hlocated => ?_
    rw [hrely.1.tree.located_eq hkept] at hlocated ⊢
    exact hlisted hlocated

theorem among_protectHome {home : Path}
    (h : Protecting codec kept first s root rootId homes candidates (home :: xs) saved t) :
    Task.Among (conduct codec kept first) true
      (ProtectionStore.protectHome root rootId saved home)
      (fun b saved' u => b = true ∧
        Protecting codec kept first s root rootId homes candidates xs saved' u) Locked t := by
  rw [ProtectionStore.protectHome, Task.among_bind]
  refine Task.among_inspect (fun u hu name hname => ?_) fun _ _ _ _ => ⟨rfl, trivial⟩
  have hstable := h.stable hu
  have hlocated : u.tree.located codec.root home = .ok name := by
    rw [FileTree.located, hstable.resolved]
    change (u.tree.identity root >>= fun rootId => u.tree.locateHome root rootId home) = _
    rw [hstable.identity]
    exact hname
  cases name with
  | none =>
    refine ⟨rfl, { hstable with listed := fun other hother hkept => ?_ }⟩
    rcases hstable.listed other hother hkept with hmem | hlisted
    · rcases List.mem_cons.mp hmem with rfl | hmem
      · exact Or.inr fun hne => absurd hlocated hne
      · exact Or.inl hmem
    · exact Or.inr hlisted
  | some name =>
    refine ⟨rfl, { hstable with includes := ?_, listed := ?_ }⟩
    · exact fun other hother => mem_addLocation.mpr (Or.inl (hstable.includes other hother))
    · intro other hother hkept
      rcases hstable.listed other hother hkept with hmem | hlisted
      · rcases List.mem_cons.mp hmem with rfl | hmem
        · exact Or.inr fun _ => ⟨name, mem_addLocation.mpr (Or.inr rfl), hlocated⟩
        · exact Or.inl hmem
      · refine Or.inr fun hne => ?_
        obtain ⟨found, hfound, heq⟩ := hlisted hne
        exact ⟨found, mem_addLocation.mpr (Or.inl hfound), heq⟩

theorem among_inspect {f : ProtectionDisk → Except IoError α} (hinv : Inv codec kept first s) :
    Task.Among (conduct codec kept first) false (Task.inspect f)
      (After codec kept first s fun a t => f t = .ok a) Unlocked s :=
  Task.among_inspect (fun _ ht _ ha => ⟨rfl, ha, ht.1, ht.1.inv hinv⟩) fun _ _ _ _ => rfl

theorem among_ofExcept {x : Except IoError α} (hinv : Inv codec kept first s) :
    Task.Among (conduct codec kept first) false (Task.ofExcept x)
      (After codec kept first s fun _ _ => True) Unlocked s :=
  Task.among_ofExcept (fun _ _ => ⟨rfl, trivial, .refl s, hinv⟩) fun _ _ => rfl

theorem among_attempt_then {g : Unit → ProtectionTask β} {B : β → ProtectionDisk → Prop}
    (hinv : Inv codec kept first s)
    (hg : ∀ t, Grows codec kept first s t → Inv codec kept first t →
      Task.Among (conduct codec kept first) false (g ()) (After codec kept first t B) Unlocked t) :
    Task.Among (conduct codec kept first) false (ProtectionStore.attempt >>= g)
      (After codec kept first s B) Unlocked s := by
  refine among_then (A := fun _ _ => True) ?_ fun _ t _ hst ht => hg t hst ht
  refine Task.among_mono (fun held _ t ht => ?_) (fun _ _ _ he => he) (among_attempt hinv)
  exact ⟨ht.1, trivial, ht.2⟩

theorem among_writeHomes (hlaw : codec.Lawful)
    (h : Protecting codec kept first s root rootId homes candidates [] saved t) :
    Task.Among (conduct codec kept first) true
      (if saved.length > 256 then
        Task.fail (invalidProtection "Too many protected Harness locations; data was preserved")
      else if saved = [] then pure ()
      else do
        let bytes ← Task.ofExcept (codec.encodeHomes ⟨1, root, saved⟩)
        Task.durable fileOperationFailed fun disk => { disk with homes := some bytes })
      (fun b _ u => b = true ∧ Grows codec kept first s u ∧ Inv codec kept first u ∧
        ∀ home ∈ candidates, kept home → HomeCovered codec u home) Locked t := by
  have hlisted : ∀ home ∈ candidates, kept home → Listed codec t saved home :=
    fun home hhome hkept => (h.listed home hhome hkept).resolve_left List.not_mem_nil
  split
  · exact ⟨rfl, trivial⟩
  · split
    · next hempty =>
      refine ⟨rfl, h.grows, h.inv, fun home hhome hkept hlocated => ?_⟩
      obtain ⟨name, hname, -⟩ := hlisted home hhome hkept hlocated
      rw [hempty] at hname
      cases hname
    · rw [Task.among_bind]
      refine Task.among_ofExcept (fun bytes hbytes => ?_) fun _ _ => ⟨rfl, trivial⟩
      intro u hu
      have hstable := h.stable hu
      have hrecorded : ∀ name ∈ saved,
          HomeRecorded codec { u with homes := some bytes } name := fun name hname =>
        ⟨bytes, ⟨1, root, saved⟩, rfl, hlaw.decode_encodeHomes hbytes, hname⟩
      have hG : (conduct codec kept first).guarantee true u { u with homes := some bytes } :=
        guarantee_of_records (fun location hlocation =>
          hrecorded location (hstable.includes location (hstable.homesAre location hlocation)))
          fun _ hroot => hroot
      refine ⟨hG, ⟨rfl, hstable.grows.trans hG.1, hG.1.inv hstable.inv, ?_⟩, ⟨rfl, trivial⟩,
        ⟨rfl, trivial⟩⟩
      intro home hhome hkept hlocated
      have hmem := (hstable.listed home hhome hkept).resolve_left List.not_mem_nil
      obtain ⟨name, hname, heq⟩ := hmem hlocated
      exact ⟨name, heq, hrecorded name hname⟩

/-- **`protect_harness_homes` records its candidates**, and what stood in the record stays. -/
theorem among_protectHarnessHomes (hlaw : codec.Lawful) (candidates : List Path)
    (hinv : Inv codec kept first s) :
    Task.Among (conduct codec kept first) false
      (ProtectionStore.protectHarnessHomes codec candidates)
      (After codec kept first s fun _ t => ∀ home ∈ candidates, kept home →
        HomeCovered codec t home) Unlocked s := by
  rw [ProtectionStore.protectHarnessHomes]
  refine among_then (among_ofExcept hinv) fun _ s₁ _ _ h₁ => ?_
  refine among_then (among_inspect h₁) fun _ s₂ _ _ h₂ => ?_
  refine among_then (among_inspect h₂) fun root s₃ hroot h₂₃ h₃ => ?_
  refine among_then (among_inspect h₃) fun rootId s₄ hrootId h₃₄ h₄ => ?_
  refine among_attempt_then h₄ fun s₅ h₄₅ h₅ => ?_
  have hresolved : s₅.tree.canonicalize codec.root = .ok root :=
    (h₃₄.trans h₄₅).tree.root.trans hroot
  have hidentity : s₅.tree.identity root = .ok rootId :=
    (h₄₅.tree.identity root (h₃₄.tree.root.trans hroot)).trans hrootId
  refine Task.among_withLock (X := fun _ _ => True)
    (P := fun _ u => Grows codec kept first s₅ u ∧ Inv codec kept first u ∧
      ∀ home ∈ candidates, kept home → HomeCovered codec u home) (fun t ht => ?_)
    (fun _ t u ht htu => ?_) fun _ _ _ _ _ => rfl
  · rw [Task.among_bind]
    refine Task.among_inspect (fun u hu homes hhomes => ?_) fun _ _ _ _ => ⟨rfl, trivial⟩
    have hgrows : Grows codec kept first s₅ u := ht.1.trans hu.1
    rw [Task.among_bind]
    refine Task.among_mono (fun b saved v hv => ?_) (fun _ _ _ he => he)
      (Task.among_foldlM (I := fun xs saved v =>
          Protecting codec kept first s₅ root rootId homes candidates xs saved v)
        (fun x xs saved v hv => among_protectHome hv) (homes ++ candidates) homes u ?_)
    · obtain ⟨rfl, hv⟩ := hv
      exact among_writeHomes hlaw hv
    · exact {
        grows := hgrows
        inv := hgrows.inv h₅
        homesAre := fun location hlocation => (homeRecorded_iff hhomes location).mp hlocation
        resolved := hgrows.tree.root.trans hresolved
        identity := (hgrows.tree.identity root hresolved).trans hidentity
        includes := fun _ hhome => hhome
        listed := fun home hhome _ => Or.inl (List.mem_append_right homes hhome) }
  · refine ⟨rfl, fun home hhome hkept => ?_, ht.1.trans htu.1, htu.1.inv ht.2.1⟩
    exact htu.1.homeCovered hkept (ht.2.2 home hhome hkept)

/-- **`protect_locations` records the directories of both documents.** -/
theorem among_protectLocations (hlaw : codec.Lawful) (old new : Option Path)
    (hinv : Inv codec kept first s) :
    Task.Among (conduct codec kept first) false
      (ProtectionStore.protectLocations codec old new)
      (After codec kept first s fun _ t => ∀ root ∈ old.toList ++ new.toList,
        RootRecorded codec t root) Unlocked s := by
  rw [ProtectionStore.protectLocations]
  refine among_attempt_then hinv fun s₁ _ h₁ => ?_
  have hroots : ∀ (added previous : List Path) (location : Path),
      location ∈ added.foldl addLocation previous ↔ location ∈ previous ∨ location ∈ added := by
    intro added
    induction added with
    | nil => exact fun previous location => (or_iff_left List.not_mem_nil).symm
    | cons x added ih =>
      intro previous location
      rw [List.foldl_cons, ih, mem_addLocation, List.mem_cons, or_assoc]
  refine Task.among_withLock (X := fun _ _ => True)
    (P := fun _ u => Grows codec kept first s₁ u ∧ Inv codec kept first u ∧
      ∀ root ∈ old.toList ++ new.toList, RootRecorded codec u root) (fun t ht => ?_)
    (fun _ t u ht htu => ?_) fun _ _ _ _ _ => rfl
  · rw [Task.among_bind]
    refine Task.among_inspect (fun u hu previous hprevious => ?_) fun _ _ _ _ => ⟨rfl, trivial⟩
    have hgrows : Grows codec kept first s₁ u := ht.1.trans hu.1
    dsimp only
    split
    · next hsame =>
      refine ⟨rfl, hgrows, hgrows.inv h₁, fun root hroot => ?_⟩
      refine (rootRecorded_iff hprevious root).mpr ?_
      rw [← hsame]
      exact (hroots _ _ root).mpr (Or.inr hroot)
    · rw [Task.among_bind]
      refine Task.among_ofExcept (fun bytes hbytes => ?_) fun _ _ => ⟨rfl, trivial⟩
      split
      · exact ⟨rfl, trivial⟩
      · intro v hv
        have hrecorded : ∀ root ∈ (old.toList ++ new.toList).foldl addLocation previous,
            RootRecorded codec { v with locations := some bytes } root := fun root hroot =>
          ⟨bytes, ⟨1, _⟩, rfl, hlaw.decode_encodeLocations hbytes, hroot⟩
        have hprevious' : ∀ root, RootRecorded codec v root → root ∈ previous := by
          rintro root ⟨bytes', record, hb, hrecord⟩
          exact (rootRecorded_iff hprevious root).mp
            ⟨bytes', record, (hv.2 rfl).2.symm.trans hb, hrecord⟩
        have hG : (conduct codec kept first).guarantee true v { v with locations := some bytes } :=
          guarantee_of_records (fun _ hhome => hhome) fun root hroot =>
            hrecorded root ((hroots _ _ root).mpr (Or.inl (hprevious' root hroot)))
        have hsv : Grows codec kept first s₁ v := hgrows.trans hv.1
        refine ⟨hG, ⟨rfl, hsv.trans hG.1, hG.1.inv (hsv.inv h₁), fun root hroot => ?_⟩,
          ⟨rfl, trivial⟩, ⟨rfl, trivial⟩⟩
        exact hrecorded root ((hroots _ _ root).mpr (Or.inr hroot))
  · exact ⟨rfl, fun root hroot => htu.1.roots root (ht.2.2 root hroot), ht.1.trans htu.1,
      htu.1.inv ht.2.1⟩

/-! ## 4. The saves -/

/-- What a save knows of the first configuration after reading `config.json`: it has been covered
since, or this is it. -/
def ReadFirst (codec : ProtectionCodec ρ) (kept : Path → Prop) (first : Option Bytes)
    (document : NexusConfigFile ρ) (disk : ProtectionDisk) : Prop :=
  Covered codec kept disk first ∨
    ∃ bytes, first = some bytes ∧ codec.document.decode bytes = .ok document

theorem covered_none : Covered codec kept t none := by
  intro bytes document hbytes
  cases hbytes

theorem among_loadUnlocked (hinv : Inv codec kept first s) :
    Task.Among (conduct codec kept first) false
      (ProtectionStore.onConfig (DocumentStore.loadUnlocked codec.document))
      (After codec kept first s fun document t => ReadFirst codec kept first document t)
      Unlocked s := by
  rw [DocumentStore.loadUnlocked, ProtectionStore.onConfig, Task.lift_bind]
  refine among_then (among_readConfig hinv) fun file t hfile _ ht => ?_
  have hread : Covered codec kept t first ∨ first = file := by
    rcases ht with ⟨hconfig, -⟩ | hsafe
    · exact Or.inr (hconfig.symm.trans hfile.symm)
    · exact Or.inl hsafe.first
  cases file with
  | none =>
    refine ⟨rfl, Or.inl ?_, .refl t, ht⟩
    rcases hread with hcovered | hnone
    · exact hcovered
    · rw [hnone]
      exact covered_none
  | some bytes =>
    dsimp only
    rw [Task.lift_bind]
    cases hdecode : codec.document.decode bytes with
    | error e => exact rfl
    | ok document =>
      change Task.Among _ _ (Task.lift configLens (DocumentStore.validateConfigDocument
        codec.document document >>= fun _ => pure document)) _ _ _
      rw [Task.lift_bind]
      have hvalidate : (DocumentStore.validateConfigDocument codec.document document).ReadOnly :=
        (readOnly_attempt _).bind fun _ => readOnly_ofExcept _
      refine among_then (among_onConfig_readOnly hvalidate ht) fun _ u _ htu hu => ?_
      refine ⟨rfl, ?_, .refl u, hu⟩
      exact hread.imp (fun hcovered => htu.covered hcovered) fun hsame =>
        ⟨bytes, hsame, hdecode⟩

theorem among_validateConfigDocument (document : NexusConfigFile ρ)
    (hinv : Inv codec kept first s) :
    Task.Among (conduct codec kept first) false
      (ProtectionStore.onConfig (DocumentStore.validateConfigDocument codec.document document))
      (After codec kept first s fun _ _ => codec.document.validate document = .ok ())
      Unlocked s := by
  rw [DocumentStore.validateConfigDocument, ProtectionStore.onConfig, Task.lift_bind]
  refine among_then (among_onConfig_readOnly (readOnly_attempt _) hinv)
    fun _ t _ _ ht => ?_
  cases hvalid : codec.document.validate document with
  | error e => exact rfl
  | ok u => exact ⟨rfl, rfl, .refl t, ht⟩

theorem among_configuredHarnessHome (hlaw : codec.Lawful) (hinv : Inv codec kept first s) :
    Task.Among (conduct codec kept first) false (Task.inspect codec.configuredHarnessHome)
      (After codec kept first s fun home t => Covered codec kept t first ∨
        ∀ bytes document, first = some bytes → codec.document.decode bytes = .ok document →
          home = codec.namedHome document) Unlocked s := by
  refine Task.among_mono (fun held home t ht => ?_) (fun _ _ _ he => he) (among_inspect hinv)
  obtain ⟨rfl, hhome, hgrows, ht⟩ := ht
  refine ⟨rfl, ?_, hgrows, ht⟩
  rcases ht with ⟨hconfig, -⟩ | hsafe
  · refine Or.inr fun bytes document hfirst hdecode => ?_
    obtain ⟨file, hfile, hhome⟩ := bind_eq_ok hhome
    obtain rfl : file = some bytes := by
      rw [eq_of_readRegularFileBounded hfile, hconfig, hfirst]
    obtain ⟨text, htext, hhome⟩ := bind_eq_ok hhome
    rw [hlaw.rawHome_eq hdecode] at htext
    rw [← Except.ok.inj hhome, ← Except.ok.inj htext]
    rfl
  · exact Or.inl hsafe.first

theorem among_load (hinv : Inv codec kept first s) :
    Task.Among (conduct codec kept first) false (ProtectionStore.load codec)
      (After codec kept first s fun _ _ => True) Unlocked s := by
  rw [ProtectionStore.load, ProtectionStore.onConfig, Task.lift_bind]
  refine among_then (among_settlePendingUnlocked _ hinv) fun _ t _ _ ht => ?_
  refine Task.among_mono (fun held d u hu => ?_) (fun _ _ _ he => he) (among_loadUnlocked ht)
  exact ⟨hu.1, trivial, hu.2.2⟩

variable [DecidableEq ρ]

/-- **A save.**  When the publication begins, the first configuration and the new document are
covered. -/
theorem among_writeUnlocked (hlaw : codec.Lawful) {document : NexusConfigFile ρ}
    (hvalid : codec.document.validate document = .ok ()) (hinv : Inv codec kept first s) :
    Task.Among (conduct codec kept first) false (ProtectionStore.writeUnlocked codec document)
      (After codec kept first s fun _ _ => True) Unlocked s := by
  rw [ProtectionStore.writeUnlocked]
  refine among_then (among_settlePendingUnlocked _ hinv) fun _ s₁ _ _ h₁ => ?_
  refine among_then (among_loadUnlocked h₁) fun previous s₂ hprevious _ h₂ => ?_
  have hsaved : codec.document.validate (document.savedOver previous) = .ok () :=
    ConfigCodec.validate_savedOver hvalid
  dsimp only
  generalize document.savedOver previous = document at hsaved ⊢
  refine among_then (among_onConfig_readOnly (readOnly_readFile _ _) h₂) fun undo s₃ _ h₂₃ h₃ => ?_
  refine among_then (among_onConfig_readOnly (ConfigStore.readOnly_validatePrevious _ _) h₃)
    fun _ s₄ _ h₃₄ h₄ => ?_
  refine among_attempt_then h₄ fun s₅ h₄₅ h₅ => ?_
  refine among_then (among_configuredHarnessHome hlaw h₅) fun oldHome s₆ hold h₅₆ h₆ => ?_
  refine among_then (among_protectHarnessHomes hlaw _ h₆) fun _ s₇ hhomes h₆₇ h₇ => ?_
  refine among_then (among_protectLocations hlaw _ _ h₇) fun _ s₈ hroots h₇₈ h₈ => ?_
  have hhome : ∀ home ∈ oldHome.toList ++ (codec.namedHome document).toList, kept home →
      HomeCovered codec s₈ home := fun home hmem hkept =>
    h₇₈.homeCovered hkept (hhomes home (List.mem_append_left _ hmem) hkept)
  -- the first configuration has been covered, or it is what was read and has been recorded now
  have hfirst : Covered codec kept s₈ first := by
    have h₂₈ : Grows codec kept first s₂ s₈ :=
      h₂₃.trans (h₃₄.trans (h₄₅.trans (h₅₆.trans (h₆₇.trans h₇₈))))
    rcases hprevious with hcovered | ⟨bytes, hbytes, hdecode⟩
    · exact h₂₈.covered hcovered
    rcases hold with hcovered | hold
    · exact (h₆₇.trans h₇₈).covered hcovered
    · intro bytes' document' hbytes' hdecode'
      obtain rfl := Option.some.inj (hbytes.symm.trans hbytes')
      obtain rfl := Except.ok.inj (hdecode.symm.trans hdecode')
      refine ⟨fun home hnamed hkept => hhome home ?_ hkept, fun root hnamed => hroots root ?_⟩
      · rw [hold bytes previous hbytes hdecode, hnamed]
        exact List.mem_append_left _ (List.mem_singleton.mpr rfl)
      · rw [hnamed]
        exact List.mem_append_left _ (List.mem_singleton.mpr rfl)
  have hdocument : Covered codec kept s₈ (some (codec.document.encode document)) := by
    intro bytes document' hbytes hdecode
    rw [← Option.some.inj hbytes, hlaw.document.decode_encode document hsaved] at hdecode
    obtain rfl := Except.ok.inj hdecode
    refine ⟨fun home hnamed hkept => hhome home ?_ hkept, fun root hnamed => hroots root ?_⟩
    · rw [hnamed]
      exact List.mem_append_right _ (List.mem_singleton.mpr rfl)
    · rw [hnamed]
      exact List.mem_append_right _ (List.mem_singleton.mpr rfl)
  refine among_attempt_then h₈ fun s₉ h₈₉ h₉ => ?_
  refine among_then (among_onConfig_readOnly readOnly_read h₉)
    fun disk s₁₀ _ h₉₁₀ h₁₀ => ?_
  have h₈₁₀ : Grows codec kept first s₈ s₁₀ := h₈₉.trans h₉₁₀
  split
  · exact ⟨rfl, trivial, .refl _, h₁₀⟩
  · exact among_publishConfigUnlocked document true (h₈₁₀.covered hfirst)
      (h₈₁₀.covered hdocument) h₁₀

theorem among_saveAndLoad (hlaw : codec.Lawful) {update : ConfigDisk →
    Except IoError (NexusConfigFile ρ)} (hinv : Inv codec kept first s) :
    Task.Among (conduct codec kept first) false (do
      let document ← ProtectionStore.onConfig (Program.inspect update)
      ProtectionStore.onConfig (DocumentStore.validateConfigDocument codec.document document)
      ProtectionStore.writeUnlocked codec document
      ProtectionStore.onConfig (DocumentStore.loadUnlocked codec.document))
      (After codec kept first s fun _ _ => True) Unlocked s := by
  refine among_then (among_onConfig_readOnly (readOnly_inspect _) hinv)
    fun document t _ _ ht => ?_
  refine among_then (among_validateConfigDocument document ht) fun _ u hvalid _ hu => ?_
  refine among_then (among_writeUnlocked hlaw hvalid hu) fun _ v _ _ hv => ?_
  refine Task.among_mono (fun held d w hw => ?_) (fun _ _ _ he => he) (among_loadUnlocked hv)
  exact ⟨hw.1, trivial, hw.2.2⟩

theorem among_writeRecoveryDocument (hlaw : codec.Lawful) (document : NexusConfigFile ρ)
    (hinv : Inv codec kept first s) :
    Task.Among (conduct codec kept first) false
      (ProtectionStore.writeRecoveryDocument codec document)
      (After codec kept first s fun _ _ => True) Unlocked s := by
  rw [ProtectionStore.writeRecoveryDocument]
  exact among_then (among_validateConfigDocument document hinv) fun _ t hvalid _ ht =>
    among_writeUnlocked hlaw hvalid ht

theorem among_writeIfCurrent (hlaw : codec.Lawful) (expected document : NexusConfigFile ρ)
    (hinv : Inv codec kept first s) :
    Task.Among (conduct codec kept first) false
      (ProtectionStore.writeIfCurrent codec expected document)
      (After codec kept first s fun _ _ => True) Unlocked s := by
  rw [ProtectionStore.writeIfCurrent]
  refine among_then (among_validateConfigDocument document hinv) fun _ t hvalid _ ht => ?_
  refine among_then (among_load ht) fun current u _ _ hu => ?_
  split
  · exact ⟨rfl, trivial, .refl u, hu⟩
  · have hrevoked : codec.document.validate document.revoked = .ok () :=
      ConfigCodec.validate_revoked hvalid
    exact among_then (among_writeUnlocked hlaw hrevoked hu) fun _ v _ _ hv =>
      ⟨rfl, trivial, .refl v, hv⟩

theorem among_transactionIfRevision (hlaw : codec.Lawful) (expected : String)
    (update : DocumentStore.Edit ρ) (hinv : Inv codec kept first s) :
    Task.Among (conduct codec kept first) false
      (ProtectionStore.transactionIfRevision codec expected update)
      (After codec kept first s fun _ _ => True) Unlocked s := by
  rw [ProtectionStore.transactionIfRevision]
  refine among_then (among_load hinv) fun document t _ _ ht => ?_
  refine among_then (among_onConfig_readOnly readOnly_read ht) fun disk u _ _ hu => ?_
  split
  · exact rfl
  · exact among_saveAndLoad hlaw hu

theorem among_restorePrevious (hlaw : codec.Lawful) (hinv : Inv codec kept first s) :
    Task.Among (conduct codec kept first) false (ProtectionStore.restorePrevious codec)
      (After codec kept first s fun _ _ => True) Unlocked s := by
  rw [ProtectionStore.restorePrevious]
  refine among_then (among_settlePendingUnlocked _ hinv) fun _ t _ _ ht => ?_
  refine among_then (among_onConfig_readOnly (readOnly_inspect _) ht)
    fun previous u _ _ hu => ?_
  refine among_then (among_validateConfigDocument previous hu) fun _ v hvalid _ hv => ?_
  exact among_then (among_writeUnlocked hlaw hvalid hv) fun _ w _ _ hw =>
    ⟨rfl, trivial, .refl w, hw⟩

/-- **Every save keeps to the conduct.** -/
theorem among_configSave (hlaw : codec.Lawful) (save : ConfigSave ρ)
    (hinv : Inv codec kept first s) :
    Task.Among (conduct codec kept first) false (save.task codec)
      (fun held _ _ => held = false) (fun held _ _ => held = false) s := by
  have hdrop : ∀ {α : Type} {p : ProtectionTask α}, Task.Among (conduct codec kept first) false p
      (After codec kept first s fun _ _ => True) Unlocked s →
      Task.Among (conduct codec kept first) false (do let _ ← p)
        (fun held _ _ => held = false) (fun held _ _ => held = false) s := by
    intro α p hp
    refine Task.among_bind.mpr (Task.among_mono (fun held a t ht => ?_) (fun _ _ _ he => he) hp)
    exact ht.1
  cases save with
  | load => exact hdrop (among_load hinv)
  | write document =>
    exact Task.among_mono (fun _ _ _ h => h.1) (fun _ _ _ he => he)
      (among_writeRecoveryDocument hlaw document.revoked hinv)
  | writeRecoveryDocument document =>
    exact Task.among_mono (fun _ _ _ h => h.1) (fun _ _ _ he => he)
      (among_writeRecoveryDocument hlaw document hinv)
  | writeIfCurrent expected document => exact hdrop (among_writeIfCurrent hlaw _ _ hinv)
  | transaction update =>
    refine hdrop (p := ProtectionStore.transaction codec update) ?_
    rw [ProtectionStore.transaction]
    exact among_then (among_load hinv) fun document t _ _ ht => among_saveAndLoad hlaw ht
  | transactionIfRevision expected update =>
    exact hdrop (among_transactionIfRevision hlaw expected update hinv)
  | restorePrevious => exact hdrop (among_restorePrevious hlaw hinv)
  | restorePreviousIfRevision expected =>
    exact hdrop (among_transactionIfRevision hlaw expected _ hinv)

/-! ## 5. The runs -/

/-- A turn of something outside leaves the data root and the kept homes in place. -/
def LeavesInPlace (codec : ProtectionCodec ρ) (kept : Path → Prop)
    (s : Shared ProtectionDisk IoError) (turn : Turn (ConfigSave ρ) FileTree) : Prop :=
  ∀ tree, turn = .outside tree → InPlace codec kept s.store.tree tree

/-- Every task at work keeps to the conduct. -/
abbrev Orderly (codec : ProtectionCodec ρ) (kept : Path → Prop) (first : Option Bytes)
    (s : Shared ProtectionDisk IoError) : Prop :=
  Conducted (conduct codec kept first) (Inv codec kept first) s

theorem orderly_step (hlaw : codec.Lawful) {start : ProtectionDisk}
    {s t : Shared ProtectionDisk IoError} {turn : Turn (ConfigSave ρ) FileTree}
    (h : Orderly codec kept first s) (hplace : LeavesInPlace codec kept s turn)
    (hstep : (savingProcesses codec start).step s turn = some t) :
    Orderly codec kept first t ∧ Grows codec kept first s.store t.store ∧
      (t.store.config.config ≠ s.store.config.config →
        Covered codec kept s.store s.store.config.config ∧
          Covered codec kept s.store t.store.config.config) := by
  have hturn : s.turn (ConfigSave.task codec) (fun tree disk => some { disk with tree }) turn =
      some t := hstep
  have hrule := interleaved_step (C := conduct codec kept first)
    (fun held s t hrely hinv => hrely.1.inv hinv)
    (fun save s hinv => among_configSave hlaw save hinv) (fun tree heq u hu held => by
      rw [← Option.some.inj hu]
      exact rely_of_inPlace (hplace tree heq) held) h hturn
  obtain ⟨ht, hsame | ⟨held, hG⟩ | ⟨tree, heq, hu⟩⟩ := hrule
  · refine ⟨ht, ?_, fun hne => absurd (congrArg (·.config.config) hsame) hne⟩
    rw [hsame]
    exact .refl _
  · exact ⟨ht, hG.1, hG.2.2⟩
  · have htree := Option.some.inj hu
    refine ⟨ht, ?_, fun hne => absurd (congrArg (·.config.config) htree.symm) hne⟩
    rw [← htree]
    exact (rely_of_inPlace (hplace tree heq) false).1

/-- What the configuration names is recorded: a kept home that is below the data root, under a
name of the same directory, and the external directory. -/
def NamesRecorded (codec : ProtectionCodec ρ) (kept : Path → Prop) (disk : ProtectionDisk)
    (config : Option Bytes) : Prop :=
  ∀ bytes document, config = some bytes → codec.document.decode bytes = .ok document →
    (∀ home, codec.namedHome document = some home → kept home →
      disk.tree.BelowRoot codec.root home →
        ∃ name, HomeRecorded codec disk name ∧
          disk.tree.identity name = disk.tree.identity home) ∧
      ∀ root, codec.namedRoot document = some root → RootRecorded codec disk root

omit [DecidableEq ρ] in
theorem Covered.namesRecorded {config : Option Bytes} (h : Covered codec kept s config) :
    NamesRecorded codec kept s config := by
  intro bytes document hbytes hdecode
  obtain ⟨hhome, hroot⟩ := h bytes document hbytes hdecode
  refine ⟨fun home hnamed hkept hbelow => ?_, hroot⟩
  obtain ⟨name, hname, hrecorded⟩ :=
    hhome home hnamed hkept (FileTree.located_of_belowRoot hbelow)
  exact ⟨name, hrecorded, FileTree.located_identity hname⟩

omit [DecidableEq ρ] in
theorem orderly_idle {start : ProtectionDisk} (hquiet : start.config.pending = none) :
    Orderly codec kept start.config.config (Shared.idle start) :=
  conducted_idle (Or.inl ⟨rfl, hquiet⟩)

/-- **Harness data stays protected.**  Any number of processes save the configuration, in any
order and each stopping anywhere, from a disk on which no publication is under way.  What stands
in a protection record stands there for good; when `config.json` changes, what the old and the new
configuration name is recorded before; and what overlaps a recorded location is not removed.
Others may change the directories in between, as long as they leave the data root and the homes
in question where they are. -/
theorem harness_homes_stay_protected (hlaw : codec.Lawful) (kept : Path → Prop)
    {start : ProtectionDisk} (hquiet : start.config.pending = none)
    {turns : List (Turn (ConfigSave ρ) FileTree)}
    (hplace : (savingProcesses codec start).RunMeets (LeavesInPlace codec kept) turns
      (Shared.idle start))
    {s : Shared ProtectionDisk IoError}
    (hrun : (savingProcesses codec start).run turns (Shared.idle start) = some s) :
    (∀ before after s', turns = before ++ after →
      (savingProcesses codec start).run before (Shared.idle start) = some s' →
        ∀ location, (HomeRecorded codec s'.store location → HomeRecorded codec s.store location) ∧
          (RootRecorded codec s'.store location → RootRecorded codec s.store location)) ∧
    (savingProcesses codec start).RunMeets (fun s turn => ∀ t,
      (savingProcesses codec start).step s turn = some t →
        t.store.config.config ≠ s.store.config.config →
          NamesRecorded codec kept s.store s.store.config.config ∧
            NamesRecorded codec kept s.store t.store.config.config) turns (Shared.idle start) ∧
    ∀ location, HomeRecorded codec s.store location ∨ RootRecorded codec s.store location →
      ∀ target, s.store.tree.Overlaps target location →
        ∃ e, ProtectionStore.ensureHarnessHomesPreserved codec s.store target = .error e := by
  have horderly : Orderly codec kept start.config.config (Shared.idle start) :=
    orderly_idle hquiet
  refine ⟨?_, ?_, fun location hrecorded target hoverlaps =>
    ProtectionStore.ensureHarnessHomesPreserved_refuses hrecorded hoverlaps⟩
  · rintro before after s' rfl hbefore location
    have hstep : ∀ u turn v, Orderly codec kept start.config.config u →
        LeavesInPlace codec kept u turn → (savingProcesses codec start).step u turn = some v →
          Orderly codec kept start.config.config v := fun u turn v hu hturn hv =>
      (orderly_step hlaw hu hturn hv).1
    obtain ⟨u, hu, hafter⟩ := System.run_append.mp hrun
    obtain rfl := Option.some.inj (hbefore.symm.trans hu)
    have hmid : Orderly codec kept start.config.config s' :=
      System.run_invariant hstep before _ s' horderly hplace.of_append_left hbefore
    have hgrows := System.run_invariant (S := savingProcesses codec start)
      (I := fun v => Orderly codec kept start.config.config v ∧
        Grows codec kept start.config.config s'.store v.store)
      (P := LeavesInPlace codec kept)
      (fun v turn w hv hturn hw => by
        obtain ⟨hw', hvw, -⟩ := orderly_step hlaw hv.1 hturn hw
        exact ⟨hw', hv.2.trans hvw⟩) after s' s ⟨hmid, .refl _⟩ (hplace.of_append hbefore) hafter
    exact ⟨hgrows.2.homes location, hgrows.2.roots location⟩
  · refine System.runMeets_of_invariant (I := Orderly codec kept start.config.config)
      (P := LeavesInPlace codec kept) (fun u turn v hu hturn hv =>
        (orderly_step hlaw hu hturn hv).1) (fun u turn hu hturn v hv hne => ?_) turns _ horderly
      hplace
    obtain ⟨-, -, hcovered⟩ := orderly_step hlaw hu hturn hv
    exact ⟨(hcovered hne).1.namesRecorded, (hcovered hne).2.namesRecorded⟩

end Conduct

/-! ## Two processes -/

/-- Directories without links, each its own. -/
def plainTree : FileTree where
  canonicalize p := .ok p
  metadata p := .ok (reprStr p)
  isReparse _ := .ok false
  isDir _ := true
  canonicalize_resolved h := by rw [← Except.ok.inj h]
  metadata_resolved _ h := by cases h

def samplePath (names : List String) : Path := ⟨some "/", names.map Component.normal⟩

/-- A record with one home below the data root. -/
def sampleHomes : ProtectedHomes :=
  ⟨1, samplePath ["data"], [samplePath ["data", "releases", "old", "home"]]⟩

/-- The sample documents name the recorded home or none. -/
def sampleProtection : ProtectionCodec Nat where
  document := sampleCodec
  home n := if n = 0 then none else some "home"
  externalRoot _ := none
  rawHome bytes := (sampleCodec.decode bytes).map fun document =>
    if document.sections = 0 then none else some "home"
  rawExternalRoot _ := .ok none
  path _ := samplePath ["data", "releases", "old", "home"]
  decodeHomes bytes := if bytes = [1] then .ok sampleHomes else .error (invalidData "record")
  encodeHomes record := if record = sampleHomes then .ok [1] else .error (invalidData "path")
  decodeLocations _ := .error (invalidData "record")
  encodeLocations _ := .error (invalidData "path")
  root := samplePath ["data"]
  dshHome := none
  userHome := none

theorem lawful_sampleProtection : sampleProtection.Lawful where
  document := lawful_sampleCodec
  rawHome_eq h := congrArg (Except.map _) h
  decode_encodeHomes {record bytes} h := by
    change (if record = sampleHomes then Except.ok [1] else Except.error (invalidData "path")) =
      .ok bytes at h
    split at h
    · next hrecord =>
      rw [← Except.ok.inj h, hrecord]
      rfl
    · cases h
  decode_encodeLocations h := by cases h

/-- The disk after a save of a document that names the home. -/
def protectedDisk : ProtectionDisk :=
  ⟨ConfigStore.plainDisk (some (sampleCodec.encode ⟨none, 1, none, 1⟩)) none, some [1], none, plainTree⟩

/-- Two processes begin, and one of them stops. -/
def sampleTurns : List (Turn (ConfigSave Nat) FileTree) :=
  [.begin 0 (.write sampleCodec.default), .advance 0, .begin 1 .load, .advance 1, .stop 0,
    .advance 1]

/-- The home stays protected, and nothing that overlaps it is removed. -/
theorem harness_homes_stay_protected_of_twoProcesses :
    ∃ s, (savingProcesses sampleProtection protectedDisk).run sampleTurns
        (Shared.idle protectedDisk) = some s ∧
      HomeRecorded sampleProtection s.store (samplePath ["data", "releases", "old", "home"]) ∧
      ∃ e, ProtectionStore.ensureHarnessHomesPreserved sampleProtection s.store
        (samplePath ["data", "releases", "old"]) = .error e := by
  refine ⟨_, rfl, ?_⟩
  have hrecorded : HomeRecorded sampleProtection protectedDisk
      (samplePath ["data", "releases", "old", "home"]) :=
    ⟨[1], sampleHomes, rfl, rfl, List.mem_cons_self⟩
  have hplace : (savingProcesses sampleProtection protectedDisk).RunMeets
      (LeavesInPlace sampleProtection fun _ => True) sampleTurns (Shared.idle protectedDisk) := by
    simp [sampleTurns, System.RunMeets, LeavesInPlace]
  obtain ⟨hstays, -, hrefuses⟩ :=
    harness_homes_stay_protected lawful_sampleProtection _ rfl hplace rfl
  have hstill := (hstays [] sampleTurns _ rfl rfl _).1 hrecorded
  exact ⟨hstill, hrefuses _ (Or.inl hstill) _ ⟨_, rfl, Or.inl (by decide)⟩⟩

end DshNexus.Config
