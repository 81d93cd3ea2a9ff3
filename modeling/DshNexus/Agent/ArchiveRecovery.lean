import DshNexus.Agent.ProfileArchive
import DshNexus.Core.Words

/-!
# The archive of deleted profiles keeps them

Every operation and every recovery may be cut after any step.

1. What the catalog says (`Lists`, `activeOf`), and what a load and a write do to it.
2. `Inv`, the invariant of every cut: each record says where its profile's directory can be.
3. `Kept`, what a call keeps, and the two rules for it: `kept_of_same` for steps that no record sees,
   `kept_of_local` for steps at one entry.
4. The entries step by step (`Local`).
5. Operations, and recovery.
6. Sessions, and `profile_archive_keeps_profiles`.
-/

namespace DshNexus.Agent.ProfileArchive

open Durable Program Checkpoint

/-! ## 1. The catalog -/

/-- What `load` returns. -/
def loaded (catalog : Option ProfileCatalog) : Except IoError ProfileCatalog := do
  match ← readProfiles catalog with
  | none => pure .initial
  | some c => c.normalize

/-- The catalog lists a profile of a key. -/
def Lists (env : ArchiveEnv) (s : ArchiveDisk) (k : String) : Prop :=
  ∃ c, loaded s.catalog = .ok c ∧ ∃ name ∈ c.profiles, env.key name = k

def activeOf (s : ArchiveDisk) : Option String :=
  match loaded s.catalog with
  | .ok c => some c.activeProfile
  | .error _ => none

/-- A catalog that is normalized up to the order of its names. -/
structure Good (c : ProfileCatalog) : Prop where
  schema : c.schemaVersion ≤ PROFILE_SCHEMA_VERSION
  active : validateProfileName c.activeProfile = .ok ()
  names : ∀ name ∈ c.profiles, validateProfileName name = .ok ()
  mem : c.activeProfile ∈ c.profiles

theorem good_initial : Good .initial where
  schema := by decide
  active := by decide +kernel
  names name h := by
    rw [List.mem_singleton.mp h]
    decide +kernel
  mem := List.mem_singleton_self _

theorem good_of_normalize {c c' : ProfileCatalog} (h : c.normalize = .ok c') :
    Good c' ∧ c'.activeProfile = c.activeProfile ∧
      (Good c → ∀ name, name ∈ c'.profiles ↔ name ∈ c.profiles) := by
  unfold ProfileCatalog.normalize at h
  split at h
  · cases h
  · next hschema =>
    obtain ⟨⟨⟩, hactive, h⟩ := bind_eq_ok h
    obtain ⟨⟨⟩, hnames, h⟩ := bind_eq_ok h
    obtain rfl := Except.ok.inj h
    have hvalid := eq_ok_of_forM hnames
    have hmem : ∀ name, name ∈ ((if (if c.profiles.isEmpty then [DEFAULT_PROFILE]
          else c.profiles).contains c.activeProfile then
          if c.profiles.isEmpty then [DEFAULT_PROFILE] else c.profiles
        else (if c.profiles.isEmpty then [DEFAULT_PROFILE] else c.profiles) ++
          [c.activeProfile]).insertionSort (· ≤ ·)).dedup ↔
        name ∈ (if c.profiles.isEmpty then [DEFAULT_PROFILE] else c.profiles) ∨
          name = c.activeProfile := by
      intro name
      rw [List.mem_dedup, List.mem_insertionSort]
      generalize (if c.profiles.isEmpty then [DEFAULT_PROFILE] else c.profiles) = names
      by_cases hcontains : names.contains c.activeProfile = true
      · rw [if_pos hcontains]
        rw [List.contains_iff_mem] at hcontains
        exact ⟨Or.inl, fun h => h.elim (fun h => h) fun h => h ▸ hcontains⟩
      · rw [if_neg hcontains, List.mem_append, List.mem_singleton]
    refine ⟨⟨?_, hactive, ?_, (hmem _).mpr (Or.inr rfl)⟩, rfl, ?_⟩
    · dsimp only
      split
      · exact Nat.le_refl _
      · exact Nat.le_of_not_lt hschema
    · intro name hname
      rcases (hmem name).mp hname with hname | rfl
      · exact hvalid name hname
      · exact hactive
    · intro hgood name
      have hne : c.profiles.isEmpty = false := by
        rw [List.isEmpty_eq_false_iff]
        exact List.ne_nil_of_mem hgood.mem
      refine (hmem name).trans ?_
      rw [hne]
      constructor
      · rintro (hname | rfl)
        · exact hname
        · exact hgood.mem
      · exact Or.inl

theorem Good.normalize {c : ProfileCatalog} (h : Good c) : ∃ c', c.normalize = .ok c' ∧ Good c' ∧
    c'.activeProfile = c.activeProfile ∧ ∀ name, name ∈ c'.profiles ↔ name ∈ c.profiles := by
  have hne : c.profiles.isEmpty = false := by
    rw [List.isEmpty_eq_false_iff]
    exact List.ne_nil_of_mem h.mem
  have hok : ∃ c', c.normalize = .ok c' := by
    unfold ProfileCatalog.normalize
    rw [if_neg (Nat.not_lt.mpr h.schema), h.active, hne]
    refine ⟨_, bind_eq_ok_iff.mpr ⟨(), rfl, bind_eq_ok_iff.mpr ⟨⟨⟩, ?_, rfl⟩⟩⟩
    exact forM_eq_ok h.names
  obtain ⟨c', hc'⟩ := hok
  obtain ⟨hgood, hactive, hmem⟩ := good_of_normalize hc'
  exact ⟨c', hc', hgood, hactive, hmem h⟩

structure Views (env : ArchiveEnv) (s : ArchiveDisk) (c : ProfileCatalog) : Prop where
  good : Good c
  active : activeOf s = some c.activeProfile
  lists : ∀ k, Lists env s k ↔ ∃ name ∈ c.profiles, env.key name = k

section Catalog

variable {env : ArchiveEnv} {s s' : ArchiveDisk} {c : ProfileCatalog}

variable (env) in
theorem views_of_loaded (h : loaded s.catalog = .ok c) : Views env s c where
  good := by
    obtain ⟨found, -, h⟩ := bind_eq_ok h
    cases found with
    | none =>
      rw [← Except.ok.inj h]
      exact good_initial
    | some before => exact (good_of_normalize h).1
  active := by
    unfold activeOf
    rw [h]
  lists k := by
    constructor
    · rintro ⟨c', hc', hname⟩
      rw [h] at hc'
      rw [Except.ok.inj hc']
      exact hname
    · exact fun hname => ⟨c, h, hname⟩

variable (env) in
theorem views_put (h : Good c) : Views env { s with catalog := some c } c := by
  obtain ⟨c', hc', -, hactive, hmem⟩ := h.normalize
  have hread : readProfiles (some c) = .ok (some c) := if_neg (Nat.not_lt.mpr h.schema)
  have hloaded : loaded (some c) = .ok c' := by
    unfold loaded
    rw [hread]
    exact hc'
  have hviews := views_of_loaded env (s := { s with catalog := some c }) hloaded
  refine ⟨h, hviews.active.trans (congrArg some hactive), fun k => ?_⟩
  rw [hviews.lists]
  exact exists_congr fun name => and_congr_left' (hmem name)

/-- The same disk but for the catalog, which says the same. -/
structure SameView (env : ArchiveEnv) (s s' : ArchiveDisk) : Prop where
  profiles : s'.profiles = s.profiles
  entries : s'.entries = s.entries
  active : activeOf s' = activeOf s
  lists : ∀ k, Lists env s' k ↔ Lists env s k

theorem SameView.refl (s : ArchiveDisk) : SameView env s s := ⟨rfl, rfl, rfl, fun _ => Iff.rfl⟩

/-- **A load** may normalize the catalog; what the catalog says stays. -/
theorem crashWp_loadCatalog (env : ArchiveEnv) (s : ArchiveDisk) :
    loadCatalog.crashWp (fun c s' => SameView env s s' ∧ Views env s' c) (fun _ s' => s' = s)
      (SameView env s) s := by
  have hput : ∀ c, loaded s.catalog = .ok c → Good c →
      SameView env s { s with catalog := some c } ∧ Views env { s with catalog := some c } c := by
    intro c hc hgood
    have hviews := views_put env (s := s) hgood
    have hbefore := views_of_loaded env (s := s) hc
    refine ⟨⟨rfl, rfl, hviews.active.trans hbefore.active.symm, fun k => ?_⟩, hviews⟩
    rw [hviews.lists, hbefore.lists]
  unfold loadCatalog
  rw [crashWp_zoom]
  unfold loadProfiles
  rw [crashWp_bind, crashWp_inspect]
  refine ⟨fun found hfound => ?_, fun e _ => rfl⟩
  cases found with
  | none =>
    have hloaded : loaded s.catalog = .ok .initial := by
      unfold loaded
      rw [show readProfiles s.catalog = .ok none from hfound]
      rfl
    obtain ⟨hsame, hviews⟩ := hput _ hloaded good_initial
    unfold publishProfiles
    dsimp only
    rw [crashWp_bind, crashWp_durable]
    exact ⟨SameView.refl s, hsame, hsame, hviews⟩
  | some before =>
    dsimp only
    rw [crashWp_bind, crashWp_ofExcept]
    refine ⟨fun c hc => ?_, fun e _ => rfl⟩
    have hloaded : loaded s.catalog = .ok c := by
      unfold loaded
      rw [show readProfiles s.catalog = .ok (some before) from hfound]
      exact hc
    obtain ⟨hsame, hviews⟩ := hput _ hloaded (good_of_normalize hc).1
    split
    · unfold publishProfiles
      rw [crashWp_bind, crashWp_durable]
      exact ⟨SameView.refl s, hsame, hsame, hviews⟩
    · exact ⟨SameView.refl s, views_of_loaded env hloaded⟩

/-- The same disk but for the catalog, which says what `c` says. -/
structure Written (env : ArchiveEnv) (c : ProfileCatalog) (s s' : ArchiveDisk) : Prop where
  profiles : s'.profiles = s.profiles
  entries : s'.entries = s.entries
  views : Views env s' c

variable (env) in
/-- **A write** of a good catalog, where there is one. -/
theorem crashWp_writeCatalog (h : Good c) (hread : ∃ a, activeOf s = some a) :
    (writeCatalog c).crashWp (fun _ => Written env c s) (fun _ _ => False)
      (fun s' => s' = s ∨ Written env c s s') s := by
  obtain ⟨c', hc', hgood, hactive, hmem⟩ := h.normalize
  have hwritten : Written env c s { s with catalog := some c' } := by
    have hviews := views_put env (s := s) hgood
    refine ⟨rfl, rfl, h, hviews.active.trans (congrArg some hactive), fun k => ?_⟩
    rw [hviews.lists]
    exact exists_congr fun name => and_congr_left' (hmem name)
  unfold writeCatalog
  rw [crashWp_zoom]
  unfold writeProfiles
  rw [crashWp_bind, crashWp_inspect]
  refine ⟨fun _ _ => ?_, fun e he => ?_⟩
  · rw [crashWp_bind, hc', crashWp_ofExcept]
    refine ⟨fun c'' heq => ?_, fun e he => by cases he⟩
    rw [← Except.ok.inj heq]
    unfold publishProfiles
    rw [crashWp_durable]
    exact ⟨Or.inl rfl, Or.inr hwritten, hwritten⟩
  · obtain ⟨a, ha⟩ := hread
    unfold activeOf loaded at ha
    rw [show readProfiles s.catalog = .error e from he] at ha
    cases ha

end Catalog

/-! ## 2. Records and places -/

/-- A record that `read` accepts. -/
structure ValidRecord (env : ArchiveEnv) (id : String) (r : Record) : Prop where
  name : validArchiveId id = true
  schema : r.schemaVersion = 1
  own : r.id = id
  dataRoot : r.dataRootId = env.dataRootId
  home : r.home = env.home
  profile : validateArchivableName r.profile = .ok ()

theorem ValidRecord.withPhase {env : ArchiveEnv} {id : String} {r : Record}
    (h : ValidRecord env id r) (phase : Phase) : ValidRecord env id { r with phase } :=
  ⟨h.name, h.schema, h.own, h.dataRoot, h.home, h.profile⟩

/-- **Where a profile's directory is**, by the phase of its record: `first` is what it was at the
beginning, `original` and `payload` are what its two places hold. -/
def InPlace (first original payload : Option Payload) (listed : Prop) : Phase → Prop
  | .archiving => first ≠ none ∧
      ((original = first ∧ payload = none) ∨ (original = none ∧ payload = first))
  | .restoring => first ≠ none ∧
      ((original = first ∧ payload = none) ∨ (original = none ∧ payload = first))
  | .archived => first ≠ none ∧ original = none ∧ payload = first ∧ ¬ listed
  | .restored => first ≠ none ∧ original = first ∧ payload = none ∧ listed
  | .rolledBack => first ≠ none ∧ original = first ∧ payload = none ∧ listed
  | .purging => original = none ∧ ¬ listed

structure Filed (env : ArchiveEnv) (s₀ s : ArchiveDisk) (id : String) (e : Entry) (r : Record) :
    Prop where
  valid : ValidRecord env id r
  place : InPlace (s₀.profiles (env.key r.profile)) (s.profiles (env.key r.profile)) e.payload
    (Lists env s (env.key r.profile)) r.phase
  inactive : ∃ a, activeOf s = some a ∧ env.key a ≠ env.key r.profile

structure Inv (env : ArchiveEnv) (s₀ s : ArchiveDisk) : Prop where
  filed : ∀ id e r, s.entry id = some e → e.record = some r → Filed env s₀ s id e r
  distinct : ∀ id id' r r', s.record id = some r → s.record id' = some r' →
    env.key r.profile = env.key r'.profile → id = id'
  bare : ∀ id e, s.entry id = some e → e.record = none → e.payload = none
  rest : ∀ k, (∀ id r, s.record id = some r → env.key r.profile ≠ k) →
    s.profiles k = s₀.profiles k ∨ s.profiles k = none
  few : s.ids.length ≤ 256

/-- A profile has a record, or the catalog lists it if and only if it is in its place. -/
def Touched (env : ArchiveEnv) (s : ArchiveDisk) (k : String) : Prop :=
  (∃ id r, s.record id = some r ∧ env.key r.profile = k) ∨
    (Lists env s k ↔ (s.profiles k).isSome)

/-- A profile has a record and is not being purged, or is as it was at the beginning. -/
def Whole (env : ArchiveEnv) (s₀ s : ArchiveDisk) (k : String) : Prop :=
  (∃ id r, s.record id = some r ∧ env.key r.profile = k ∧ r.phase ≠ .purging) ∨
    ((∀ id r, s.record id = some r → env.key r.profile ≠ k) ∧ s.profiles k = s₀.profiles k)

/-- What a call keeps, that purges no profile of a key in `spared`. -/
structure Kept (env : ArchiveEnv) (s₀ : ArchiveDisk) (spared : String → Prop)
    (s s' : ArchiveDisk) : Prop where
  inv : Inv env s₀ s'
  touched : ∀ k, Touched env s k → Touched env s' k
  whole : ∀ k, spared k → Whole env s₀ s k → Whole env s₀ s' k

section Kept

variable {env : ArchiveEnv} {s₀ s s' s'' : ArchiveDisk} {spared : String → Prop}

theorem Kept.refl (h : Inv env s₀ s) : Kept env s₀ spared s s :=
  ⟨h, fun _ ht => ht, fun _ _ hw => hw⟩

theorem Kept.trans (h : Kept env s₀ spared s s') (h' : Kept env s₀ spared s' s'') :
    Kept env s₀ spared s s'' :=
  ⟨h'.inv, fun k ht => h'.touched k (h.touched k ht),
    fun k hk hw => h'.whole k hk (h.whole k hk hw)⟩

theorem record_of_entry {id : String} {e : Entry} {r : Record} (h : s.entry id = some e)
    (hr : e.record = some r) : s.record id = some r := by
  unfold ArchiveDisk.record
  rw [h]
  exact hr

theorem entry_of_record {id : String} {r : Record} (h : s.record id = some r) :
    ∃ e, s.entry id = some e ∧ e.record = some r := Option.bind_eq_some_iff.mp h

/-- Steps that no record sees: an entry is as it was, or holds nothing. -/
structure Same (env : ArchiveEnv) (s s' : ArchiveDisk) : Prop where
  profiles : s'.profiles = s.profiles
  active : activeOf s' = activeOf s
  lists : ∀ k, Lists env s' k ↔ Lists env s k
  record : ∀ id, s'.record id = s.record id
  entry : ∀ id e', s'.entry id = some e' → (e'.record = none ∧ e'.payload = none) ∨
    ∃ e, s.entry id = some e ∧ e'.record = e.record ∧ e'.payload = e.payload
  few : s'.ids.length ≤ 256

/-- **What no record sees is kept.** -/
theorem kept_of_same (h : Inv env s₀ s) (hsame : Same env s s') : Kept env s₀ spared s s' := by
  refine ⟨⟨?_, ?_, ?_, ?_, hsame.few⟩, ?_, ?_⟩
  · intro id e' r he' hr
    rcases hsame.entry id e' he' with ⟨hnone, -⟩ | ⟨e, he, hrecord, hpayload⟩
    · rw [hnone] at hr
      cases hr
    · obtain ⟨hvalid, hplace, hinactive⟩ := h.filed id e r he (hrecord.symm.trans hr)
      refine ⟨hvalid, ?_, by rw [hsame.active]; exact hinactive⟩
      rw [hsame.profiles, hpayload, propext (hsame.lists _)]
      exact hplace
  · intro id id' r r' hr hr' hkey
    rw [hsame.record] at hr hr'
    exact h.distinct id id' r r' hr hr' hkey
  · intro id e' he' hr
    rcases hsame.entry id e' he' with ⟨-, hnone⟩ | ⟨e, he, hrecord, hpayload⟩
    · exact hnone
    · rw [hpayload]
      exact h.bare id e he (hrecord.symm.trans hr)
  · intro k hk
    rw [hsame.profiles]
    exact h.rest k fun id r hr => hk id r (by rwa [hsame.record])
  · rintro k (⟨id, r, hr, hkey⟩ | hlists)
    · exact Or.inl ⟨id, r, by rwa [hsame.record], hkey⟩
    · right
      rw [hsame.lists, hsame.profiles]
      exact hlists
  · rintro k - (⟨id, r, hr, hkey⟩ | ⟨hnone, hprofile⟩)
    · exact Or.inl ⟨id, r, by rwa [hsame.record], hkey⟩
    · refine Or.inr ⟨fun id r hr => ?_, by rw [hsame.profiles]; exact hprofile⟩
      rw [hsame.record] at hr
      exact hnone id r hr

theorem same_of_sameView (hfew : s.ids.length ≤ 256) (h : SameView env s s') : Same env s s' where
  profiles := h.profiles
  active := h.active
  lists := h.lists
  record id := by
    unfold ArchiveDisk.record ArchiveDisk.entry
    rw [h.entries]
  entry id e' he' := by
    unfold ArchiveDisk.entry at he' ⊢
    rw [h.entries] at he'
    exact Or.inr ⟨e', he', rfl, rfl⟩
  few := by
    unfold ArchiveDisk.ids at hfew ⊢
    rwa [h.entries]

/-- The disk differs from `s` at one entry and at one profile only: what these are now. -/
structure Local (env : ArchiveEnv) (id k : String) (s s' : ArchiveDisk) (own : Option Entry)
    (original : Option Payload) (listed : Prop) : Prop where
  others : ∀ id', id' ≠ id → s'.entry id' = s.entry id'
  own : s'.entry id = own
  profiles : s'.profiles = Function.update s.profiles k original
  lists : ∀ k', Lists env s' k' ↔ if k' = k then listed else Lists env s k'
  active : activeOf s' = activeOf s
  few : s'.ids.length ≤ 256

/-- What is at the entry and at the profile is in order: a record with its profile, or no record and
a profile that is listed if and only if it is there. -/
def Owned (env : ArchiveEnv) (s₀ : ArchiveDisk) (spared : String → Prop) (id k : String)
    (own : Option Entry) (original : Option Payload) (listed : Prop) : Prop :=
  (∃ e r, own = some e ∧ e.record = some r ∧ ValidRecord env id r ∧ env.key r.profile = k ∧
    InPlace (s₀.profiles k) original e.payload listed r.phase ∧
      (r.phase = .purging → ¬ spared k)) ∨
  ((∀ e, own = some e → e.record = none ∧ e.payload = none) ∧ (listed ↔ original.isSome) ∧
    (original = s₀.profiles k ∨ original = none ∧ ¬ spared k))

/-- **What is in order at one entry is kept.** -/
theorem kept_of_local {id k : String} {own : Option Entry} {original : Option Payload}
    {listed : Prop} (h : Inv env s₀ s) (hinactive : ∃ a, activeOf s = some a ∧ env.key a ≠ k)
    (hmine : ∀ r, s.record id = some r → env.key r.profile = k)
    (hothers : ∀ id' r, id' ≠ id → s.record id' = some r → env.key r.profile ≠ k)
    (hlocal : Local env id k s s' own original listed)
    (howned : Owned env s₀ spared id k own original listed) : Kept env s₀ spared s s' := by
  have hrecord : ∀ id', id' ≠ id → s'.record id' = s.record id' := by
    intro id' hne
    unfold ArchiveDisk.record
    rw [hlocal.others id' hne]
  have hown : s'.record id = own.bind Entry.record := by
    unfold ArchiveDisk.record
    rw [hlocal.own]
  -- the record of the entry, if there is one, is of the profile
  have hkey : ∀ r, s'.record id = some r → env.key r.profile = k := by
    intro r hr
    rw [hown] at hr
    rcases howned with ⟨e, r', rfl, hr', -, hkey, -⟩ | ⟨hnone, -⟩
    · rw [Option.bind_some, hr'] at hr
      rw [← Option.some.inj hr]
      exact hkey
    · obtain ⟨e, rfl, he⟩ := Option.bind_eq_some_iff.mp hr
      rw [(hnone e rfl).1] at he
      cases he
  have hprofile : ∀ k', k' ≠ k → s'.profiles k' = s.profiles k' := by
    intro k' hne
    rw [hlocal.profiles, Function.update_of_ne hne]
  have hprofileOwn : s'.profiles k = original := by
    rw [hlocal.profiles, Function.update_self]
  have hlists : ∀ k', k' ≠ k → (Lists env s' k' ↔ Lists env s k') := by
    intro k' hne
    rw [hlocal.lists, if_neg hne]
  have hlistsOwn : Lists env s' k ↔ listed := by rw [hlocal.lists, if_pos rfl]
  -- a record of another profile is where it was
  have hstays : ∀ id' r, s.record id' = some r → env.key r.profile ≠ k → id' ≠ id ∧
      s'.record id' = some r := by
    intro id' r hr hne
    have hid : id' ≠ id := by
      rintro rfl
      exact hne (hmine r hr)
    exact ⟨hid, (hrecord id' hid).trans hr⟩
  refine ⟨⟨?_, ?_, ?_, ?_, hlocal.few⟩, ?_, ?_⟩
  · intro id' e r he hr
    by_cases hid : id' = id
    · subst hid
      have hk := hkey r (record_of_entry he hr)
      rw [hlocal.own] at he
      rcases howned with ⟨e', r', rfl, hr', hvalid, -, hplace, -⟩ | ⟨hnone, -⟩
      · obtain rfl := Option.some.inj he
        obtain rfl := Option.some.inj (hr'.symm.trans hr)
        refine ⟨hvalid, ?_, by rw [hlocal.active, hk]; exact hinactive⟩
        rw [hk, hprofileOwn, propext hlistsOwn]
        exact hplace
      · rw [(hnone e he).1] at hr
        cases hr
    · have he' : s.entry id' = some e := (hlocal.others id' hid).symm.trans he
      obtain ⟨hvalid, hplace, hactive⟩ := h.filed id' e r he' hr
      have hne := hothers id' r hid (record_of_entry he' hr)
      refine ⟨hvalid, ?_, by rw [hlocal.active]; exact hactive⟩
      rw [hprofile _ hne, propext (hlists _ hne)]
      exact hplace
  · intro id₁ id₂ r₁ r₂ hr₁ hr₂ hsame
    by_cases h₁ : id₁ = id
    · by_cases h₂ : id₂ = id
      · rw [h₁, h₂]
      · rw [h₁] at hr₁
        rw [hrecord id₂ h₂] at hr₂
        exact absurd (hsame.symm.trans (hkey r₁ hr₁)) (hothers id₂ r₂ h₂ hr₂)
    · rw [hrecord id₁ h₁] at hr₁
      by_cases h₂ : id₂ = id
      · rw [h₂] at hr₂
        exact absurd (hsame.trans (hkey r₂ hr₂)) (hothers id₁ r₁ h₁ hr₁)
      · rw [hrecord id₂ h₂] at hr₂
        exact h.distinct id₁ id₂ r₁ r₂ hr₁ hr₂ hsame
  · intro id' e he hr
    by_cases hid : id' = id
    · rw [hid, hlocal.own] at he
      rcases howned with ⟨e', r, rfl, hr', -⟩ | ⟨hnone, -⟩
      · obtain rfl := Option.some.inj he
        rw [hr'] at hr
        cases hr
      · exact (hnone e he).2
    · exact h.bare id' e ((hlocal.others id' hid).symm.trans he) hr
  · intro k' hk'
    by_cases hk : k' = k
    · subst hk
      rw [hprofileOwn]
      rcases howned with ⟨e, r, rfl, hr, -, hkey', -⟩ | ⟨-, -, horiginal | ⟨horiginal, -⟩⟩
      · exact absurd hkey' (hk' id r (hown.trans hr))
      · exact Or.inl horiginal
      · exact Or.inr horiginal
    · rw [hprofile k' hk]
      refine h.rest k' fun id' r hr hkey' => ?_
      rw [← hkey'] at hk
      exact hk' id' r (hstays id' r hr hk).2 hkey'
  · intro k' ht
    by_cases hk : k' = k
    · subst hk
      rcases howned with ⟨e, r, rfl, hr, -, hkey', -⟩ | ⟨-, hlisted, -⟩
      · exact Or.inl ⟨id, r, hown.trans hr, hkey'⟩
      · right
        rw [hlistsOwn, hprofileOwn]
        exact hlisted
    · rcases ht with ⟨id', r, hr, hkey'⟩ | hlisted
      · rw [← hkey'] at hk
        exact Or.inl ⟨id', r, (hstays id' r hr hk).2, hkey'⟩
      · right
        rw [hlists k' hk, hprofile k' hk]
        exact hlisted
  · intro k' hspared hw
    by_cases hk : k' = k
    · subst hk
      rcases howned with ⟨e, r, rfl, hr, -, hkey', -, hpurging⟩ |
        ⟨hnone, -, horiginal | ⟨-, hpurged⟩⟩
      · exact Or.inl ⟨id, r, hown.trans hr, hkey', fun h => hpurging h hspared⟩
      · refine Or.inr ⟨fun id' r hr => ?_, hprofileOwn.trans horiginal⟩
        by_cases hid : id' = id
        · rw [hid, hown] at hr
          obtain ⟨e, heq, he⟩ := Option.bind_eq_some_iff.mp hr
          rw [(hnone e heq).1] at he
          cases he
        · rw [hrecord id' hid] at hr
          exact hothers id' r hid hr
      · exact absurd hspared hpurged
    · rcases hw with ⟨id', r, hr, hkey', hphase⟩ | ⟨hnone, hsame⟩
      · rw [← hkey'] at hk
        exact Or.inl ⟨id', r, (hstays id' r hr hk).2, hkey', hphase⟩
      · refine Or.inr ⟨fun id' r hr hkey' => ?_, (hprofile k' hk).trans hsame⟩
        by_cases hid : id' = id
        · rw [hid] at hr
          exact hk (hkey'.symm.trans (hkey r hr))
        · rw [hrecord id' hid] at hr
          exact hnone id' r hr hkey'

end Kept

/-! ## 4. Steps at one entry -/

section Steps

variable {env : ArchiveEnv} {s s' : ArchiveDisk} {id k : String} {own : Option Entry} {e : Entry}
  {original : Option Payload} {listed : Prop}

theorem lists_congr (h : s'.catalog = s.catalog) (k : String) :
    Lists env s' k ↔ Lists env s k := by
  unfold Lists
  rw [h]

theorem activeOf_congr (h : s'.catalog = s.catalog) : activeOf s' = activeOf s := by
  unfold activeOf
  rw [h]

variable (env) in
theorem Local.refl (hfew : s.ids.length ≤ 256) (id k : String) :
    Local env id k s s (s.entry id) (s.profiles k) (Lists env s k) where
  others _ _ := rfl
  own := rfl
  profiles := (Function.update_eq_self k s.profiles).symm
  lists k' := by
    split
    · next h => rw [h]
    · exact Iff.rfl
  active := rfl
  few := hfew

theorem Local.modify (h : Local env id k s s' (some e) original listed) (f : Entry → Entry) :
    Local env id k s (s'.modifyEntry id f) (some (f e)) original listed where
  others id' hid := by
    rw [ArchiveDisk.entry_modifyEntry, if_neg hid]
    exact h.others id' hid
  own := by
    rw [ArchiveDisk.entry_modifyEntry, if_pos rfl, h.own]
    rfl
  profiles := by
    rw [ArchiveDisk.profiles_modifyEntry]
    exact h.profiles
  lists k' := (lists_congr (ArchiveDisk.catalog_modifyEntry ..) k').trans (h.lists k')
  active := (activeOf_congr (ArchiveDisk.catalog_modifyEntry ..)).trans h.active
  few := by
    refine (ArchiveDisk.length_ids_le fun id' e' he' => ?_).trans h.few
    rw [ArchiveDisk.entry_modifyEntry] at he'
    split at he'
    · next hid => exact ⟨e, by rw [hid]; exact h.own⟩
    · exact ⟨e', he'⟩

theorem Local.remove (h : Local env id k s s' own original listed) :
    Local env id k s (s'.removeEntry id) none original listed where
  others id' hid := by
    rw [ArchiveDisk.entry_removeEntry, if_neg hid]
    exact h.others id' hid
  own := by rw [ArchiveDisk.entry_removeEntry, if_pos rfl]
  profiles := h.profiles
  lists := h.lists
  active := h.active
  few := by
    refine (ArchiveDisk.length_ids_le fun id' e' he' => ?_).trans h.few
    rw [ArchiveDisk.entry_removeEntry] at he'
    split at he'
    · cases he'
    · exact ⟨e', he'⟩

theorem Local.setProfile (h : Local env id k s s' own original listed)
    (original' : Option Payload) : Local env id k s
      { s' with profiles := Function.update s'.profiles k original' } own original' listed where
  others := h.others
  own := h.own
  profiles := by
    dsimp only
    rw [h.profiles, Function.update_idem]
  lists := h.lists
  active := h.active
  few := h.few

theorem Local.archivePayload (h : Local env id k s s' (some e) original listed) :
    Local env id k s (s'.archivePayload k id) (some { e with payload := original }) none
      listed := by
  have horiginal : s'.profiles k = original := by rw [h.profiles, Function.update_self]
  unfold ArchiveDisk.archivePayload
  have hmoved := (h.modify fun e => { e with payload := s'.profiles k }).setProfile none
  rw [ArchiveDisk.profiles_modifyEntry, horiginal] at hmoved
  rw [horiginal]
  exact hmoved

theorem Local.restorePayload (h : Local env id k s s' (some e) original listed) :
    Local env id k s (s'.restorePayload k id) (some { e with payload := none }) e.payload
      listed := by
  unfold ArchiveDisk.restorePayload
  have hmoved := (h.modify fun e => { e with payload := none }).setProfile e.payload
  rw [ArchiveDisk.profiles_modifyEntry] at hmoved
  rw [h.own]
  exact hmoved

theorem Local.written {c : ProfileCatalog} {s'' : ArchiveDisk}
    (h : Local env id k s s' own original listed) (hwritten : Written env c s' s'')
    (hactive : activeOf s = some c.activeProfile) {listed' : Prop}
    (hnames : ∀ k', (∃ name ∈ c.profiles, env.key name = k') ↔
      if k' = k then listed' else Lists env s k') :
    Local env id k s s'' own original listed' where
  others id' hid := by
    unfold ArchiveDisk.entry
    rw [hwritten.entries]
    exact h.others id' hid
  own := by
    unfold ArchiveDisk.entry
    rw [hwritten.entries]
    exact h.own
  profiles := hwritten.profiles.trans h.profiles
  lists k' := (hwritten.views.lists k').trans (hnames k')
  active := hwritten.views.active.trans hactive.symm
  few := by
    have hfew := h.few
    unfold ArchiveDisk.ids at hfew ⊢
    rwa [hwritten.entries]

variable {Q : Unit → ArchiveDisk → Prop} {E : IoError → ArchiveDisk → Prop}
  {C : ArchiveDisk → Prop}

/-- **A record is written**: something is left of it before it takes its place. -/
theorem crashWp_save (h : Local env id k s s' (some e) original listed) (r : Record) (hC : C s')
    (htemporary : ∀ t, Local env id k s t (some { e with temporary := e.temporary + 1 }) original
      listed → C t)
    (hsaved : ∀ t, Local env id k s t (some { e with record := some r }) original listed →
      C t ∧ Q () t) : (save id r).crashWp Q E C s' := by
  have hleft := h.modify fun e => { e with temporary := e.temporary + 1 }
  have hnew := hleft.modify fun e =>
    { e with record := some r, temporary := e.temporary - 1 }
  rw [show ({ e with record := some r, temporary := e.temporary + 1 - 1 } : Entry) =
    { e with record := some r } by simp] at hnew
  obtain ⟨hCnew, hQnew⟩ := hsaved _ hnew
  unfold save
  rw [crashWp_bind, crashWp_durable]
  refine ⟨hC, htemporary _ hleft, ?_⟩
  rw [crashWp_tryCatch, crashWp_durable]
  exact ⟨htemporary _ hleft, hCnew, hQnew⟩

/-- **A finished record is discarded**, and the entry with it unless something was left in it. -/
theorem crashWp_discardFinished (h : Local env id k s s' (some e) original listed)
    (hpayload : e.payload = none) (hrecord : e.record ≠ none) (hC : C s')
    (hbare : ∀ t, Local env id k s t (some { e with record := none }) original listed →
      C t ∧ ∀ error, E error t)
    (hgone : ∀ t, Local env id k s t none original listed → C t ∧ Q () t) :
    (discardFinished id).crashWp Q E C s' := by
  have hdropped := h.modify fun e => { e with record := none }
  obtain ⟨hCbare, hEbare⟩ := hbare _ hdropped
  obtain ⟨hCgone, hQgone⟩ := hgone _ hdropped.remove
  unfold discardFinished
  rw [crashWp_bind, crashWp_read, h.own]
  dsimp only
  have hsome : e.record.isNone = false :=
    Option.isNone_eq_false_iff.mpr (Option.isSome_iff_ne_none.mpr hrecord)
  rw [hpayload, hsome]
  simp only [Option.isSome_none, Bool.false_eq_true, if_false]
  rw [crashWp_bind, crashWp_durable]
  refine ⟨hC, hCbare, ?_⟩
  unfold removeDirectory
  rw [crashWp_bind, crashWp_read, hdropped.own]
  dsimp only
  split
  · rw [crashWp_durable]
    exact ⟨hCbare, hCgone, hQgone⟩
  · exact hEbare _

/-- **A directory in the archive is removed**, entry by entry. -/
theorem crashWp_removePayload (h : Local env id k s s' (some e) original listed)
    (hC : ∀ t payload, Local env id k s t (some { e with payload }) original listed → C t)
    (hQ : ∀ t, Local env id k s t (some { e with payload := none }) original listed → Q () t) :
    (removePayload id).crashWp Q E C s' := by
  unfold removePayload
  rw [crashWp_bind, crashWp_read, h.own, Option.bind_some]
  cases hpayload : e.payload with
  | none =>
    refine hQ s' ?_
    rw [← hpayload]
    exact h
  | some payload =>
    dsimp only
    rw [crashWp_bind]
    have hstart : Local env id k s s' (some { e with payload := some payload }) original listed := by
      rw [← hpayload]
      exact h
    refine crashWp_imp ?_
      (crashWp_forM
        (I := fun _ t => ∃ payload, Local env id k s t (some { e with payload }) original listed)
        ?_ payload s' ⟨_, hstart⟩)
    · rintro _ t ⟨rest, ht⟩
      have hdone := ht.modify fun e => { e with payload := none }
      rw [crashWp_durable]
      exact ⟨hC t rest ht, hC _ none hdone, hQ _ hdone⟩
    · rintro _ todo t ⟨rest, ht⟩
      have hless := ht.modify fun e => { e with payload := e.payload.map List.tail }
      rw [crashWp_durable]
      exact ⟨hC t rest ht, hC _ _ hless, _, hless⟩

end Steps

/-! ## 5. Operations -/

section Operations

variable {env : ArchiveEnv} {s₀ s : ArchiveDisk} {spared : String → Prop} {id : String}
  {e : Entry} {r : Record} {catalog : ProfileCatalog}

theorem of_readRecord (h : readRecord env id s = .ok r) :
    ∃ e, s.entry id = some e ∧ e.record = some r ∧ ValidRecord env id r := by
  unfold readRecord at h
  rw [guard_eq_ok] at h
  obtain ⟨hname, h⟩ := h
  cases he : s.entry id with
  | none =>
    rw [he] at h
    cases h
  | some e =>
    rw [he] at h
    dsimp only at h
    cases hr : e.record with
    | none =>
      rw [hr] at h
      cases h
    | some r' =>
      rw [hr] at h
      dsimp only at h
      rw [guard_eq_ok] at h
      obtain ⟨hown, h⟩ := h
      obtain ⟨⟨⟩, hprofile, h⟩ := bind_eq_ok h
      obtain rfl := Except.ok.inj h
      simp only [not_or, not_not] at hown
      refine ⟨e, rfl, hr, ?_, hown.1, hown.2.1, hown.2.2.1, hown.2.2.2, hprofile⟩
      simpa using hname

theorem good_withoutProfile {name : String} (h : Good catalog)
    (hne : env.key catalog.activeProfile ≠ env.key name) :
    Good (withoutProfile env name catalog) where
  schema := h.schema
  active := h.active
  names other hother := h.names other (List.mem_filter.mp hother).1
  mem := List.mem_filter.mpr ⟨h.mem, by simp [sameProfile, hne, withoutProfile]⟩

theorem good_withProfile {name : String} (h : Good catalog)
    (hname : validateArchivableName name = .ok ()) : Good (withProfile env name catalog) := by
  unfold withProfile
  split
  · exact h
  · obtain ⟨⟨⟩, hvalid, -⟩ := bind_eq_ok hname
    refine ⟨h.schema, h.active, ?_, List.mem_append_left _ h.mem⟩
    intro other hother
    rcases List.mem_append.mp hother with hother | hother
    · exact h.names other hother
    · rw [List.mem_singleton.mp hother]
      exact hvalid

theorem active_withProfile (env : ArchiveEnv) (name : String) (catalog : ProfileCatalog) :
    (withProfile env name catalog).activeProfile = catalog.activeProfile := by
  unfold withProfile
  split
  · rfl
  · rfl

theorem names_withoutProfile (hviews : Views env s catalog) (name k' : String) :
    (∃ other ∈ (withoutProfile env name catalog).profiles, env.key other = k') ↔
      if k' = env.key name then False else Lists env s k' := by
  rw [hviews.lists]
  unfold withoutProfile
  dsimp only
  constructor
  · rintro ⟨other, hother, rfl⟩
    obtain ⟨hmem, hne⟩ := List.mem_filter.mp hother
    have hne' : env.key other ≠ env.key name := by simpa [sameProfile] using hne
    rw [if_neg hne']
    exact ⟨other, hmem, rfl⟩
  · split
    · exact False.elim
    · next hne =>
      rintro ⟨other, hmem, rfl⟩
      exact ⟨other, List.mem_filter.mpr ⟨hmem, by simpa [sameProfile] using hne⟩, rfl⟩

theorem names_withProfile (hviews : Views env s catalog) (name k' : String) :
    (∃ other ∈ (withProfile env name catalog).profiles, env.key other = k') ↔
      if k' = env.key name then True else Lists env s k' := by
  rw [hviews.lists]
  unfold withProfile
  by_cases hlisted : (catalog.profiles.any fun other => sameProfile env other name) = true
  · rw [if_pos hlisted]
    split
    · next hk =>
      obtain ⟨other, hmem, hsame⟩ := List.any_eq_true.mp hlisted
      refine iff_true_intro ⟨other, hmem, ?_⟩
      rw [hk]
      simpa [sameProfile] using hsame
    · exact Iff.rfl
  · rw [if_neg hlisted]
    dsimp only
    split
    · next hk =>
      exact iff_true_intro ⟨name, List.mem_append_right _ (List.mem_singleton_self name), hk.symm⟩
    · next hne =>
      constructor
      · rintro ⟨other, hother, rfl⟩
        rcases List.mem_append.mp hother with hmem | hmem
        · exact ⟨other, hmem, rfl⟩
        · rw [List.mem_singleton.mp hmem] at hne
          exact absurd rfl hne
      · rintro ⟨other, hmem, rfl⟩
        exact ⟨other, List.mem_append_left _ hmem, rfl⟩

theorem kept_of_local_same {t : ArchiveDisk} {k : String} {own : Option Entry} (h : Inv env s₀ s)
    (hlocal : Local env id k s t own (s.profiles k) (Lists env s k))
    (hrecord : own.bind Entry.record = s.record id)
    (hown : ∀ e', own = some e' → (e'.record = none ∧ e'.payload = none) ∨
      ∃ e, s.entry id = some e ∧ e'.record = e.record ∧ e'.payload = e.payload) :
    Kept env s₀ spared s t := by
  refine kept_of_same h ⟨?_, hlocal.active, fun k' => ?_, fun id' => ?_, ?_, hlocal.few⟩
  · rw [hlocal.profiles, Function.update_eq_self]
  · rw [hlocal.lists]
    split
    · next hk => rw [hk]
    · exact Iff.rfl
  · by_cases hid : id' = id
    · unfold ArchiveDisk.record at hrecord ⊢
      rw [hid, hlocal.own, hrecord]
    · unfold ArchiveDisk.record
      rw [hlocal.others id' hid]
  · intro id' e' he'
    by_cases hid : id' = id
    · rw [hid, hlocal.own] at he'
      rw [hid]
      exact hown e' he'
    · rw [hlocal.others id' hid] at he'
      exact Or.inr ⟨e', he', rfl, rfl⟩

/-- **A profile is moved into the archive**, from an entry without a record. -/
theorem crashWp_publishDelete {G : ArchiveDisk → Prop} (hfew : s.ids.length ≤ 256)
    (hentry : s.entry id = some ⟨none, none, 0⟩) (hvalid : ValidRecord env id r)
    (hviews : Views env s catalog)
    (hinactive : env.key catalog.activeProfile ≠ env.key r.profile)
    (hthere : s.profiles (env.key r.profile) ≠ none)
    (hfirst : s.profiles (env.key r.profile) = s₀.profiles (env.key r.profile))
    (hsame : ∀ t n, Local env id (env.key r.profile) s t (some ⟨none, none, n⟩)
      (s.profiles (env.key r.profile)) (Lists env s (env.key r.profile)) → G t)
    (hG : ∀ t own original listed, Local env id (env.key r.profile) s t own original listed →
      Owned env s₀ spared id (env.key r.profile) own original listed → G t) :
    (publishChange env id r false catalog).crashWp (fun _ => G) (fun _ => G) G s := by
  have hstart := Local.refl env hfew id (env.key r.profile)
  rw [hentry] at hstart
  -- while the phase is `archiving`, the directory may be in either place
  have harchiving : ∀ n original payload listed,
      ((original = s₀.profiles (env.key r.profile) ∧ payload = none) ∨
        (original = none ∧ payload = s₀.profiles (env.key r.profile))) →
      Owned env s₀ spared id (env.key r.profile)
        (some ⟨some { r with phase := .archiving }, payload, n⟩) original listed := by
    intro n original payload listed hplace
    refine Or.inl ⟨_, _, rfl, rfl, hvalid.withPhase .archiving, rfl, ⟨?_, hplace⟩, by simp⟩
    rw [← hfirst]
    exact hthere
  have harchived : ∀ n, Owned env s₀ spared id (env.key r.profile)
      (some ⟨some { r with phase := .archived }, s₀.profiles (env.key r.profile), n⟩) none
      False := by
    intro n
    refine Or.inl ⟨_, _, rfl, rfl, hvalid.withPhase .archived, rfl, ⟨?_, rfl, rfl, not_false⟩,
      by simp⟩
    rw [← hfirst]
    exact hthere
  unfold publishChange
  rw [crashWp_bind]
  refine crashWp_save hstart _ (hsame s 0 hstart) (fun t ht => hsame t _ ht) fun t ht => ?_
  have hG₁ := hG t _ _ _ ht (harchiving _ _ _ _ (Or.inl ⟨hfirst, rfl⟩))
  refine ⟨hG₁, ?_⟩
  have hmoved := ht.archivePayload
  rw [hfirst] at hmoved
  have hG₂ := hG _ _ _ _ hmoved (harchiving _ _ _ _ (Or.inr ⟨rfl, rfl⟩))
  rw [crashWp_bind, crashWp_durable]
  refine ⟨hG₁, hG₂, ?_⟩
  rw [crashWp_bind, crashWp_toExcept]
  have hwritten : ∀ t', Written env (withoutProfile env r.profile catalog)
      (t.archivePayload (env.key r.profile) id) t' → _ :=
    fun t' h => hmoved.written h hviews.active (names_withoutProfile hviews r.profile)
  refine crashWp_mono ?_ (fun _ _ h => h.elim) ?_
    (crashWp_writeCatalog env (good_withoutProfile hviews.good hinactive)
      ⟨_, hmoved.active.trans hviews.active⟩)
  · rintro _ t' h
    have hlocal := hwritten t' h
    have hG₃ := hG _ _ _ _ hlocal (harchiving _ _ _ _ (Or.inr ⟨rfl, rfl⟩))
    dsimp only
    rw [crashWp_bind, crashWp_toExcept, crashWp_bind]
    refine crashWp_save hlocal _ hG₃
      (fun u hu => hG u _ _ _ hu (harchiving _ _ _ _ (Or.inr ⟨rfl, rfl⟩))) fun u hu => ?_
    have hG₄ := hG u _ _ _ hu (harchived _)
    exact ⟨hG₄, hG₄⟩
  · rintro t' (rfl | h)
    · exact hG₂
    · exact hG _ _ _ _ (hwritten t' h) (harchiving _ _ _ _ (Or.inr ⟨rfl, rfl⟩))

/-- **A profile is moved out of the archive**, to a place where there is none. -/
theorem crashWp_publishRestore {G : ArchiveDisk → Prop} (hfew : s.ids.length ≤ 256)
    (hentry : s.entry id = some e) (hrecord : e.record = some r)
    (hfiled : Filed env s₀ s id e r) (hphase : r.phase = .archived)
    (hviews : Views env s catalog)
    (hG : ∀ t own original listed, Local env id (env.key r.profile) s t own original listed →
      Owned env s₀ spared id (env.key r.profile) own original listed → G t) :
    (publishChange env id r true catalog).crashWp (fun _ => G) (fun _ => G) G s := by
  obtain ⟨hvalid, hplace, -⟩ := hfiled
  rw [hphase] at hplace
  obtain ⟨hfirst, habsent, hpayload, hunlisted⟩ := hplace
  obtain ⟨recorded, payload, n⟩ := e
  dsimp only at hrecord hpayload
  subst hrecord hpayload
  have hstart := Local.refl env hfew id (env.key r.profile)
  rw [hentry] at hstart
  have harchived : ∀ n, Owned env s₀ spared id (env.key r.profile)
      (some ⟨some r, s₀.profiles (env.key r.profile), n⟩) (s.profiles (env.key r.profile))
      (Lists env s (env.key r.profile)) := by
    intro n
    refine Or.inl ⟨_, r, rfl, rfl, hvalid, rfl, ?_, by simp [hphase]⟩
    rw [hphase]
    exact ⟨hfirst, habsent, rfl, hunlisted⟩
  -- while the phase is `restoring`, the directory may be in either place
  have hrestoring : ∀ n original payload listed,
      ((original = s₀.profiles (env.key r.profile) ∧ payload = none) ∨
        (original = none ∧ payload = s₀.profiles (env.key r.profile))) →
      Owned env s₀ spared id (env.key r.profile)
        (some ⟨some { r with phase := .restoring }, payload, n⟩) original listed := by
    intro n original payload listed hplace
    exact Or.inl ⟨_, _, rfl, rfl, hvalid.withPhase .restoring, rfl, ⟨hfirst, hplace⟩, by simp⟩
  have hrestored : ∀ n, Owned env s₀ spared id (env.key r.profile)
      (some ⟨some { r with phase := .restored }, none, n⟩) (s₀.profiles (env.key r.profile))
      True := by
    intro n
    exact Or.inl ⟨_, _, rfl, rfl, hvalid.withPhase .restored, rfl, ⟨hfirst, rfl, rfl, trivial⟩,
      by simp⟩
  have hfinished : ∀ own, (∀ e', own = some e' → e'.record = none ∧ e'.payload = none) →
      Owned env s₀ spared id (env.key r.profile) own (s₀.profiles (env.key r.profile)) True := by
    intro own hown
    exact Or.inr ⟨hown, iff_of_true trivial (Option.isSome_iff_ne_none.mpr hfirst), Or.inl rfl⟩
  unfold publishChange
  rw [crashWp_bind]
  refine crashWp_save hstart _ (hG s _ _ _ hstart (harchived n))
    (fun t ht => hG t _ _ _ ht (harchived _)) fun t ht => ?_
  have hG₁ := hG t _ _ _ ht (hrestoring _ _ _ _ (Or.inr ⟨habsent, rfl⟩))
  refine ⟨hG₁, ?_⟩
  have hmoved := ht.restorePayload
  have hG₂ := hG _ _ _ _ hmoved (hrestoring _ _ _ _ (Or.inl ⟨rfl, rfl⟩))
  rw [crashWp_bind, crashWp_durable]
  refine ⟨hG₁, hG₂, ?_⟩
  rw [crashWp_bind, crashWp_toExcept]
  have hwritten : ∀ t', Written env (withProfile env r.profile catalog)
      (t.restorePayload (env.key r.profile) id) t' → _ :=
    fun t' h => hmoved.written h
      (hviews.active.trans (congrArg some (active_withProfile env r.profile catalog).symm))
      (names_withProfile hviews r.profile)
  refine crashWp_mono ?_ (fun _ _ h => h.elim) ?_
    (crashWp_writeCatalog env (good_withProfile hviews.good hvalid.profile)
      ⟨_, hmoved.active.trans hviews.active⟩)
  · rintro _ t' h
    have hlocal := hwritten t' h
    have hG₃ := hG _ _ _ _ hlocal (hrestoring _ _ _ _ (Or.inl ⟨rfl, rfl⟩))
    dsimp only
    rw [crashWp_bind, crashWp_toExcept, crashWp_bind]
    refine crashWp_save hlocal _ hG₃
      (fun u hu => hG u _ _ _ hu (hrestoring _ _ _ _ (Or.inl ⟨rfl, rfl⟩))) fun u hu => ?_
    have hG₄ := hG u _ _ _ hu (hrestored _)
    refine ⟨hG₄, ?_⟩
    rw [if_pos rfl]
    refine crashWp_discardFinished hu rfl (by simp) hG₄ ?_ ?_
    · intro v hv
      have hGv := hG v _ _ _ hv (hfinished _ (by simp))
      exact ⟨hGv, fun _ => hGv⟩
    · intro v hv
      have hGv := hG v _ _ _ hv (hfinished _ (by simp))
      exact ⟨hGv, hGv⟩
  · rintro t' (rfl | h)
    · exact hG₂
    · exact hG _ _ _ _ (hwritten t' h) (hrestoring _ _ _ _ (Or.inl ⟨rfl, rfl⟩))

theorem kept_at_record (h : Inv env s₀ s) (hentry : s.entry id = some e)
    (hrecord : e.record = some r) {t : ArchiveDisk} {own : Option Entry}
    {original : Option Payload} {listed : Prop}
    (hlocal : Local env id (env.key r.profile) s t own original listed)
    (howned : Owned env s₀ spared id (env.key r.profile) own original listed) :
    Kept env s₀ spared s t := by
  have hmine : s.record id = some r := record_of_entry hentry hrecord
  refine kept_of_local h (h.filed id e r hentry hrecord).inactive ?_ ?_ hlocal howned
  · intro r' hr'
    rw [Option.some.inj (hr'.symm.trans hmine)]
  · intro id' r' hid hr' hkey
    exact hid (h.distinct id' id r' r hr' hmine hkey)

theorem kept_at_same_record (h : Inv env s₀ s) (hentry : s.entry id = some e)
    (hrecord : e.record = some r) {t : ArchiveDisk} (n : Nat)
    (hlocal : Local env id (env.key r.profile) s t (some { e with temporary := n })
      (s.profiles (env.key r.profile)) (Lists env s (env.key r.profile))) :
    Kept env s₀ spared s t := by
  refine kept_of_local_same h hlocal ?_ ?_
  · rw [Option.bind_some, record_of_entry hentry hrecord]
    exact hrecord
  · intro e' he'
    obtain rfl := Option.some.inj he'
    exact Or.inr ⟨e, hentry, rfl, rfl⟩

/-- **A purge**, wherever it is cut. -/
theorem crashWp_purge (h : Inv env s₀ s) (guard : Except IoError Unit)
    (hspared : guard = .ok () → ∀ r, readRecord env id s = .ok r →
      r.phase = .archived ∨ r.phase = .purging → ¬ spared (env.key r.profile)) :
    (purge env guard id).crashWp (fun _ => Kept env s₀ spared s) (fun _ => Kept env s₀ spared s)
      (Kept env s₀ spared s) s := by
  have hrefl : Kept env s₀ spared s s := Kept.refl h
  unfold purge
  rw [crashWp_bind, crashWp_ofExcept]
  refine ⟨fun _ hguard => ?_, fun _ _ => hrefl⟩
  rw [crashWp_bind, crashWp_inspect]
  refine ⟨fun r hr => ?_, fun _ _ => hrefl⟩
  split
  · exact hrefl
  · next hphase =>
    obtain ⟨e, hentry, hrecord, hvalid⟩ := of_readRecord hr
    have hfiled := h.filed id e r hentry hrecord
    have hor : r.phase = .archived ∨ r.phase = .purging := by
      by_contra hnone
      rw [not_or] at hnone
      exact hphase hnone
    have hnot := hspared hguard r hr hor
    have hgone : s.profiles (env.key r.profile) = none ∧ ¬ Lists env s (env.key r.profile) := by
      have hplace := hfiled.place
      rcases hor with hor | hor
      · rw [hor] at hplace
        exact ⟨hplace.2.1, hplace.2.2.2⟩
      · rw [hor] at hplace
        exact hplace
    have hpurging : ∀ t payload n, Local env id (env.key r.profile) s t
        (some ⟨some { r with phase := .purging }, payload, n⟩) (s.profiles (env.key r.profile))
        (Lists env s (env.key r.profile)) → Kept env s₀ spared s t := by
      intro t payload n ht
      exact kept_at_record h hentry hrecord ht
        (Or.inl ⟨_, _, rfl, rfl, hvalid.withPhase .purging, rfl, hgone, fun _ => hnot⟩)
    have hdiscarded : ∀ t own, Local env id (env.key r.profile) s t own
        (s.profiles (env.key r.profile)) (Lists env s (env.key r.profile)) →
        (∀ e', own = some e' → e'.record = none ∧ e'.payload = none) →
        Kept env s₀ spared s t := by
      intro t own ht hown
      refine kept_at_record h hentry hrecord ht (Or.inr ⟨hown, ?_, Or.inr ⟨hgone.1, hnot⟩⟩)
      rw [hgone.1]
      exact iff_of_false hgone.2 (by simp)
    have hstart := Local.refl env h.few id (env.key r.profile)
    rw [hentry] at hstart
    rw [crashWp_bind]
    refine crashWp_save hstart _ hrefl
      (fun t ht => kept_at_same_record h hentry hrecord _ ht) fun t ht => ?_
    refine ⟨hpurging t _ _ ht, ?_⟩
    rw [crashWp_bind]
    refine crashWp_removePayload ht (fun u _ hu => hpurging u _ _ hu) fun u hu => ?_
    refine crashWp_discardFinished hu rfl (by simp) (hpurging u _ _ hu) ?_ ?_
    · intro v hv
      have hkept := hdiscarded v _ hv (by simp)
      exact ⟨hkept, fun _ => hkept⟩
    · intro v hv
      have hkept := hdiscarded v _ hv (by simp)
      exact ⟨hkept, hkept⟩

/-- No record is of a move that was begun and not finished. -/
def Settled (s : ArchiveDisk) : Prop :=
  ∀ id r, s.record id = some r → r.phase = .archived ∨ r.phase = .purging

theorem absent_of_settled (h : Inv env s₀ s) (hsettled : Settled s) {r : Record}
    (hr : s.record id = some r) : s.profiles (env.key r.profile) = none := by
  obtain ⟨e, hentry, hrecord⟩ := entry_of_record hr
  have hplace := (h.filed id e r hentry hrecord).place
  rcases hsettled id r hr with hphase | hphase
  · rw [hphase] at hplace
    exact hplace.2.1
  · rw [hphase] at hplace
    exact hplace.1

/-- What a restore leaves of the profiles: all of them, as they were. -/
def Unharmed (s s' : ArchiveDisk) : Prop :=
  ∀ k payload, s.profiles k = some payload → s'.profiles k = some payload

variable (spared) in
/-- **A restore**, wherever it is cut, takes nothing away from any profile. -/
theorem crashWp_restoreProfile (h : Inv env s₀ s) (guard : Except IoError Unit) (id : String) :
    (restoreProfile env guard id).crashWp
      (fun _ s' => Kept env s₀ spared s s' ∧ Unharmed s s')
      (fun _ s' => Kept env s₀ spared s s' ∧ Unharmed s s')
      (fun s' => Kept env s₀ spared s s' ∧ Unharmed s s') s := by
  have hrefl : Kept env s₀ spared s s ∧ Unharmed s s := ⟨Kept.refl h, fun _ _ h => h⟩
  have hview : ∀ s', SameView env s s' → Kept env s₀ spared s s' ∧ Unharmed s s' := by
    intro s' hs'
    refine ⟨kept_of_same h (same_of_sameView h.few hs'), fun k payload hk => ?_⟩
    rwa [hs'.profiles]
  unfold restoreProfile
  rw [crashWp_bind, crashWp_ofExcept]
  refine ⟨fun _ _ => ?_, fun _ _ => hrefl⟩
  rw [crashWp_bind]
  refine crashWp_mono ?_ (fun _ s' hs' => hs' ▸ hrefl) hview (crashWp_loadCatalog env s)
  rintro catalog s₁ ⟨hsame, hviews⟩
  obtain ⟨hkept₁, hunharmed₁⟩ := hview s₁ hsame
  rw [crashWp_bind, crashWp_inspect]
  refine ⟨fun r hr => ?_, fun _ _ => ⟨hkept₁, hunharmed₁⟩⟩
  obtain ⟨r', hread, hr⟩ := bind_eq_ok hr
  rw [guard_eq_ok] at hr
  obtain ⟨hphase, hr⟩ := hr
  rw [guard_eq_ok] at hr
  obtain ⟨-, hr⟩ := hr
  rw [guard_eq_ok] at hr
  obtain ⟨habsent, hr⟩ := hr
  obtain rfl := Except.ok.inj hr
  obtain ⟨e, hentry, hrecord, -⟩ := of_readRecord hread
  have hlocal : ∀ t own original listed,
      Local env id (env.key r'.profile) s₁ t own original listed →
      Owned env s₀ spared id (env.key r'.profile) own original listed →
      Kept env s₀ spared s t ∧ Unharmed s t := by
    intro t own original listed ht howned
    refine ⟨hkept₁.trans (kept_at_record hkept₁.inv hentry hrecord ht howned), ?_⟩
    intro k payload hk
    have hk₁ := hunharmed₁ k payload hk
    rw [ht.profiles, Function.update_of_ne]
    · exact hk₁
    · rintro rfl
      rw [hk₁] at habsent
      exact habsent rfl
  exact crashWp_publishRestore hkept₁.inv.few hentry hrecord
    (hkept₁.inv.filed id e r' hentry hrecord) (not_not.mp hphase) hviews hlocal

theorem validArchiveId_newInstanceId (i : Instance) : validArchiveId (newInstanceId i) = true := by
  have hpidBound : i.pid.val < 10 ^ 10 := lt_trans i.pid.isLt (by norm_num)
  have hnanosBound : i.nanos.val < 10 ^ 39 := lt_trans i.nanos.isLt (by norm_num)
  have hsecondsBound : i.seconds.val < 10 ^ 20 := lt_trans i.seconds.isLt (by norm_num)
  obtain ⟨hpid, hpidChars⟩ := number_spec i.pid.val 10 (by omega) hpidBound
  obtain ⟨hnanos, hnanosChars⟩ := number_spec i.nanos.val 39 (by omega) hnanosBound
  obtain ⟨hseconds, hsecondsChars⟩ := number_spec i.seconds.val 20 (by omega) hsecondsBound
  have hdash : ("-" : String).utf8ByteSize = 1 := by decide
  have hdashChars : ∀ c ∈ ("-" : String).toList, (c.isAlphanum || c = '-') = true := by
    simp
  have hsize : (newInstanceId i).utf8ByteSize = (toString i.pid.val).utf8ByteSize + 1 +
      (toString i.nanos.val).utf8ByteSize + 1 + (toString i.seconds.val).utf8ByteSize := by
    unfold newInstanceId
    rw [String.utf8ByteSize_append, String.utf8ByteSize_append, String.utf8ByteSize_append,
      String.utf8ByteSize_append, hdash]
  unfold validArchiveId
  rw [Bool.and_eq_true, Bool.and_eq_true, Bool.not_eq_true', decide_eq_true_eq,
    String.isEmpty_eq_false_iff]
  refine ⟨⟨?_, by omega⟩, ?_⟩
  · intro hempty
    rw [hempty] at hsize
    have hnone : ("" : String).utf8ByteSize = 0 := rfl
    omega
  · unfold newInstanceId
    simp only [String.toList_append, List.all_append, Bool.and_eq_true, List.all_eq_true]
    exact ⟨⟨⟨⟨hpidChars, hdashChars⟩, hnanosChars⟩, hdashChars⟩, hsecondsChars⟩

/-- **A deletion**, wherever it is cut. -/
theorem crashWp_deleteProfile (h : Inv env s₀ s) (hsettled : Settled s)
    (guard unreferenced : Except IoError Unit) (name : String) (i : Instance) (now : Nat) :
    (deleteProfile env guard unreferenced name i now).crashWp (fun _ => Kept env s₀ spared s)
      (fun _ => Kept env s₀ spared s) (Kept env s₀ spared s) s := by
  have hrefl : Kept env s₀ spared s s := Kept.refl h
  have hview : ∀ s', SameView env s s' → Kept env s₀ spared s s' :=
    fun s' hs' => kept_of_same h (same_of_sameView h.few hs')
  unfold deleteProfile
  rw [crashWp_bind, crashWp_ofExcept]
  refine ⟨fun _ _ => ?_, fun _ _ => hrefl⟩
  rw [crashWp_bind]
  refine crashWp_mono ?_ (fun _ s' hs' => hs' ▸ hrefl) hview (crashWp_loadCatalog env s)
  rintro catalog s₁ ⟨hsame, hviews⟩
  have hkept₁ : Kept env s₀ spared s s₁ := hview s₁ hsame
  rw [crashWp_bind, crashWp_inspect]
  refine ⟨fun _ hchecked => ?_, fun _ _ => hkept₁⟩
  obtain ⟨⟨⟩, hname, hchecked⟩ := bind_eq_ok hchecked
  rw [guard_eq_ok] at hchecked
  obtain ⟨hroom, hchecked⟩ := hchecked
  rw [guard_eq_ok] at hchecked
  obtain ⟨hinactive, hchecked⟩ := hchecked
  obtain ⟨⟨⟩, -, hchecked⟩ := bind_eq_ok hchecked
  have hthere : s₁.profiles (env.key name) ≠ none := by
    intro hnone
    rw [hnone] at hchecked
    cases hchecked
  -- the archive is there, and has a new entry
  have hparent : ∀ id', s₁.makeParent.entry id' = s₁.entry id' := by
    intro id'
    unfold ArchiveDisk.makeParent ArchiveDisk.entry
    cases s₁.entries with
    | none => rfl
    | some m => rfl
  have hparentKept : Kept env s₀ spared s s₁.makeParent := by
    refine hkept₁.trans (kept_of_same hkept₁.inv
      ⟨rfl, rfl, fun _ => Iff.rfl, fun id' => ?_, fun id' e' he' => ?_, hkept₁.inv.few⟩)
    · unfold ArchiveDisk.record
      rw [hparent]
    · rw [hparent] at he'
      exact Or.inr ⟨e', he', rfl, rfl⟩
  rw [crashWp_bind, crashWp_durable]
  refine ⟨hkept₁, hparentKept, ?_⟩
  rw [crashWp_bind]
  unfold createEntry
  rw [crashWp_bind, crashWp_read]
  split
  · exact hparentKept
  · next hfresh =>
    rw [Bool.not_eq_true, Option.isSome_eq_false_iff, Option.isNone_iff_eq_none, hparent] at hfresh
    obtain ⟨s₂, hs₂⟩ : ∃ s₂, s₂ = ArchiveDisk.putEntry (newInstanceId i) ⟨none, none, 0⟩
      s₁.makeParent := ⟨_, rfl⟩
    have hentries : ∀ id', s₂.entry id' =
        if id' = newInstanceId i then some ⟨none, none, 0⟩ else s₁.entry id' := by
      intro id'
      rw [hs₂, ArchiveDisk.entry_putEntry rfl, hparent]
    have hrecords : ∀ id', s₂.record id' = s₁.record id' := by
      intro id'
      unfold ArchiveDisk.record
      rw [hentries]
      split
      · next hid => rw [hid, hfresh]; rfl
      · rfl
    have hfew : s₂.ids.length ≤ 256 := by
      have hsub : s₂.ids.Subperm (newInstanceId i :: s₁.ids) := by
        refine s₂.nodup_ids.subperm fun id' hid' => ?_
        obtain ⟨e', he'⟩ := ArchiveDisk.mem_ids.mp hid'
        rw [hentries] at he'
        split at he'
        · next hid => rw [hid]; exact List.mem_cons_self
        · exact List.mem_cons_of_mem _ (ArchiveDisk.mem_ids.mpr ⟨e', he'⟩)
      have hle := hsub.length_le
      rw [List.length_cons] at hle
      omega
    have hsame₂ : Same env s₁ s₂ := by
      refine ⟨by rw [hs₂]; rfl, by rw [hs₂]; rfl, fun _ => by rw [hs₂]; exact Iff.rfl, hrecords,
        fun id' e' he' => ?_, hfew⟩
      rw [hentries] at he'
      split at he'
      · rw [← Option.some.inj he']
        exact Or.inl ⟨rfl, rfl⟩
      · exact Or.inr ⟨e', he', rfl, rfl⟩
    have hkept₂ : Kept env s₀ spared s s₂ := hkept₁.trans (kept_of_same hkept₁.inv hsame₂)
    have hothers : ∀ id' r, s₂.record id' = some r → env.key r.profile ≠ env.key name := by
      intro id' r hr hkey
      rw [hrecords] at hr
      have hrecord : s.record id' = some r := by
        unfold ArchiveDisk.record ArchiveDisk.entry at hr ⊢
        rwa [hsame.entries] at hr
      have habsent := absent_of_settled h hsettled hrecord
      rw [hkey, ← hsame.profiles] at habsent
      exact hthere habsent
    have hfirst : s₂.profiles (env.key name) = s₀.profiles (env.key name) := by
      rcases hkept₂.inv.rest (env.key name) hothers with hfirst | hnone
      · exact hfirst
      · rw [hsame₂.profiles] at hnone
        exact absurd hnone hthere
    have hactive : ∃ a, activeOf s₂ = some a ∧ env.key a ≠ env.key name := by
      refine ⟨catalog.activeProfile, hsame₂.active.trans hviews.active, ?_⟩
      simpa [sameProfile] using hinactive
    have hmine : s₂.entry (newInstanceId i) = some ⟨none, none, 0⟩ := by
      rw [hentries, if_pos rfl]
    rw [crashWp_durable]
    rw [← hs₂]
    refine ⟨hparentKept, hkept₂, ?_⟩
    have hviews₂ : Views env s₂ catalog :=
      ⟨hviews.good, hsame₂.active.trans hviews.active,
        fun k => (hsame₂.lists k).trans (hviews.lists k)⟩
    have hlocal : ∀ t own original listed,
        Local env (newInstanceId i) (env.key name) s₂ t own original listed →
        Owned env s₀ spared (newInstanceId i) (env.key name) own original listed →
        Kept env s₀ spared s t := by
      intro t own original listed ht howned
      refine hkept₂.trans (kept_of_local hkept₂.inv hactive ?_ (fun id' r _ hr => hothers id' r hr)
        ht howned)
      intro r hr
      unfold ArchiveDisk.record at hr
      rw [hmine] at hr
      cases hr
    refine crashWp_publishDelete hfew hmine ⟨validArchiveId_newInstanceId i, rfl, rfl, rfl, rfl, hname⟩
      hviews₂ ?_ ?_ hfirst ?_ hlocal
    · simpa [sameProfile] using hinactive
    · rw [hsame₂.profiles]
      exact hthere
    · intro t n ht
      refine hkept₂.trans (kept_of_local_same hkept₂.inv ht ?_ ?_)
      · unfold ArchiveDisk.record
        rw [hmine]
        rfl
      · intro e' he'
        rw [← Option.some.inj he']
        exact Or.inl ⟨rfl, rfl⟩

def Recovered (id : String) (s s' : ArchiveDisk) : Prop :=
  (∀ id', id' ≠ id → s'.entry id' = s.entry id') ∧
    ∀ r, s'.record id = some r → r.phase = .archived ∨ r.phase = .purging

theorem record_of_local {t : ArchiveDisk} {k : String} {own : Option Entry}
    {original : Option Payload} {listed : Prop} (h : Local env id k s t own original listed)
    {r' : Record} (hr : t.record id = some r') : ∃ e', own = some e' ∧ e'.record = some r' := by
  unfold ArchiveDisk.record at hr
  rw [h.own] at hr
  exact Option.bind_eq_some_iff.mp hr

/-- **A record whose profile is in its place is discarded.** -/
theorem crashWp_recover_discard (h : Inv env s₀ s) (hentry : s.entry id = some e)
    (hrecord : e.record = some r) (hphase : r.phase = .restored ∨ r.phase = .rolledBack) :
    (discardFinished id).crashWp (fun _ s' => Kept env s₀ spared s s' ∧ Recovered id s s')
      (fun _ => Kept env s₀ spared s) (Kept env s₀ spared s) s := by
  have hplace : s₀.profiles (env.key r.profile) ≠ none ∧
      s.profiles (env.key r.profile) = s₀.profiles (env.key r.profile) ∧ e.payload = none ∧
      Lists env s (env.key r.profile) := by
    have hplace := (h.filed id e r hentry hrecord).place
    rcases hphase with hphase | hphase
    · rwa [hphase] at hplace
    · rwa [hphase] at hplace
  obtain ⟨hfirst, hthere, hpayload, hlisted⟩ := hplace
  have hstart := Local.refl env h.few id (env.key r.profile)
  rw [hentry] at hstart
  have hkept : ∀ t own, Local env id (env.key r.profile) s t own (s.profiles (env.key r.profile))
      (Lists env s (env.key r.profile)) →
      (∀ e', own = some e' → e'.record = none ∧ e'.payload = none) →
      Kept env s₀ spared s t := by
    intro t own ht hown
    refine kept_at_record h hentry hrecord ht (Or.inr ⟨hown, ?_, Or.inl hthere⟩)
    rw [hthere]
    exact iff_of_true hlisted (Option.isSome_iff_ne_none.mpr hfirst)
  refine crashWp_discardFinished hstart hpayload (by simp [hrecord]) (Kept.refl h) ?_ ?_
  · intro t ht
    have hk := hkept t _ ht (by simp [hpayload])
    exact ⟨hk, fun _ => hk⟩
  · intro t ht
    have hk := hkept t _ ht (by simp)
    refine ⟨hk, hk, ht.others, fun r' hr' => ?_⟩
    obtain ⟨e', he', -⟩ := record_of_local ht hr'
    cases he'

/-- **A move that was begun is finished**, in the direction that the directories show. -/
theorem crashWp_finish (h : Inv env s₀ s) (hentry : s.entry id = some e)
    (hrecord : e.record = some r) (hphase : r.phase = .archiving ∨ r.phase = .restoring) :
    (recoverEntry.finish env id s e r).crashWp
      (fun _ s' => Kept env s₀ spared s s' ∧ Recovered id s s')
      (fun _ => Kept env s₀ spared s) (Kept env s₀ spared s) s := by
  have hrefl : Kept env s₀ spared s s := Kept.refl h
  have hview : ∀ s', SameView env s s' → Kept env s₀ spared s s' :=
    fun s' hs' => kept_of_same h (same_of_sameView h.few hs')
  unfold recoverEntry.finish
  split
  · exact hrefl
  · next hplaces =>
    rw [crashWp_bind]
    refine crashWp_mono ?_ (fun _ s' hs' => hs' ▸ hrefl) hview (crashWp_loadCatalog env s)
    rintro catalog s₁ ⟨hsame, hviews⟩
    have hkept₁ : Kept env s₀ spared s s₁ := hview s₁ hsame
    have hinv := hkept₁.inv
    have hentry₁ : s₁.entry id = some e := by
      unfold ArchiveDisk.entry at hentry ⊢
      rwa [hsame.entries]
    have hothers₁ : ∀ id', s₁.entry id' = s.entry id' := by
      intro id'
      unfold ArchiveDisk.entry
      rw [hsame.entries]
    have hfiled := hinv.filed id e r hentry₁ hrecord
    have hplace : s₀.profiles (env.key r.profile) ≠ none ∧
        ((s₁.profiles (env.key r.profile) = s₀.profiles (env.key r.profile) ∧ e.payload = none) ∨
          (s₁.profiles (env.key r.profile) = none ∧
            e.payload = s₀.profiles (env.key r.profile))) := by
      have hplace := hfiled.place
      rcases hphase with hphase | hphase
      · rwa [hphase] at hplace
      · rwa [hphase] at hplace
    obtain ⟨hfirst, hwhere⟩ := hplace
    have hkeep : ∀ {t own original listed},
        Local env id (env.key r.profile) s₁ t own original listed →
        Owned env s₀ spared id (env.key r.profile) own original listed → Kept env s₀ spared s t :=
      fun ht howned => hkept₁.trans (kept_at_record hinv hentry₁ hrecord ht howned)
    -- the record as it is goes with either place
    have hpending : ∀ n payload original listed,
        ((original = s₀.profiles (env.key r.profile) ∧ payload = none) ∨
          (original = none ∧ payload = s₀.profiles (env.key r.profile))) →
        Owned env s₀ spared id (env.key r.profile) (some ⟨some r, payload, n⟩) original
          listed := by
      intro n payload original listed hw
      refine Or.inl ⟨_, r, rfl, rfl, hfiled.valid, rfl, ?_, fun hp => ?_⟩
      · rcases hphase with hphase | hphase
        · rw [hphase]
          exact ⟨hfirst, hw⟩
        · rw [hphase]
          exact ⟨hfirst, hw⟩
      · rw [hp] at hphase
        rcases hphase with hphase | hphase
        · cases hphase
        · cases hphase
    have hactive := hviews.active
    obtain ⟨recorded, payload, n⟩ := e
    dsimp only at hrecord hwhere hplaces
    subst hrecord
    have hstart := Local.refl env hinv.few id (env.key r.profile)
    rw [hentry₁] at hstart
    split
    · next harchived =>
      obtain ⟨habsent, rfl⟩ : s₁.profiles (env.key r.profile) = none ∧
          payload = s₀.profiles (env.key r.profile) := by
        rcases hwhere with ⟨-, hnone⟩ | hright
        · rw [hnone] at harchived
          cases harchived
        · exact hright
      split
      · exact hkept₁
      · next hinactive =>
        have hne : env.key catalog.activeProfile ≠ env.key r.profile := by
          simpa [sameProfile] using hinactive
        rw [crashWp_bind]
        have hwritten : ∀ t', Written env (withoutProfile env r.profile catalog) s₁ t' → _ :=
          fun t' hw => hstart.written hw hactive (names_withoutProfile hviews r.profile)
        refine crashWp_mono ?_ (fun _ _ hf => hf.elim) ?_
          (crashWp_writeCatalog env (good_withoutProfile hviews.good hne) ⟨_, hactive⟩)
        · rintro _ t' hw
          have hlocal := hwritten t' hw
          refine crashWp_save hlocal _ (hkeep hlocal (hpending _ _ _ _ (Or.inr ⟨habsent, rfl⟩)))
            (fun u hu => hkeep hu (hpending _ _ _ _ (Or.inr ⟨habsent, rfl⟩))) fun u hu => ?_
          have hk := hkeep hu (Or.inl ⟨_, _, rfl, rfl, hfiled.valid.withPhase .archived, rfl,
            ⟨hfirst, habsent, rfl, not_false⟩, by simp⟩)
          refine ⟨hk, hk, fun id' hid' => (hu.others id' hid').trans (hothers₁ id'), ?_⟩
          intro r' hr'
          obtain ⟨e', he', her'⟩ := record_of_local hu hr'
          rw [← Option.some.inj he'] at her'
          rw [← Option.some.inj her']
          exact Or.inl rfl
        · rintro t' (rfl | hw)
          · exact hkept₁
          · exact hkeep (hwritten t' hw) (hpending _ _ _ _ (Or.inr ⟨habsent, rfl⟩))
    · next harchived =>
      obtain ⟨hthere, rfl⟩ : s₁.profiles (env.key r.profile) = s₀.profiles (env.key r.profile) ∧
          payload = none := by
        rcases hwhere with hleft | ⟨-, hpayload⟩
        · exact hleft
        · rw [hpayload, Bool.not_eq_true, Option.isSome_eq_false_iff,
            Option.isNone_iff_eq_none] at harchived
          exact absurd harchived hfirst
      rw [crashWp_bind]
      have hwritten : ∀ t', Written env (withProfile env r.profile catalog) s₁ t' → _ :=
        fun t' hw => hstart.written hw
          (hactive.trans (congrArg some (active_withProfile env r.profile catalog).symm))
          (names_withProfile hviews r.profile)
      refine crashWp_mono ?_ (fun _ _ hf => hf.elim) ?_
        (crashWp_writeCatalog env (good_withProfile hviews.good hfiled.valid.profile)
          ⟨_, hactive⟩)
      · rintro _ t' hw
        have hlocal := hwritten t' hw
        rw [crashWp_bind]
        refine crashWp_save hlocal _ (hkeep hlocal (hpending _ _ _ _ (Or.inl ⟨hthere, rfl⟩)))
          (fun u hu => hkeep hu (hpending _ _ _ _ (Or.inl ⟨hthere, rfl⟩))) fun u hu => ?_
        have hk := hkeep hu (Or.inl ⟨_, _, rfl, rfl, hfiled.valid.withPhase .restored, rfl,
          ⟨hfirst, hthere, rfl, trivial⟩, by simp⟩)
        have hfinished : ∀ v own, Local env id (env.key r.profile) s₁ v own
            (s₁.profiles (env.key r.profile)) True →
            (∀ e', own = some e' → e'.record = none ∧ e'.payload = none) →
            Kept env s₀ spared s v := by
          intro v own hv hown
          refine hkeep hv (Or.inr ⟨hown, iff_of_true trivial ?_, Or.inl hthere⟩)
          rw [hthere]
          exact Option.isSome_iff_ne_none.mpr hfirst
        refine ⟨hk, crashWp_discardFinished hu rfl (by simp) hk ?_ ?_⟩
        · intro v hv
          have hkv := hfinished v _ hv (by simp)
          exact ⟨hkv, fun _ => hkv⟩
        · intro v hv
          have hkv := hfinished v _ hv (by simp)
          refine ⟨hkv, hkv, fun id' hid' => (hv.others id' hid').trans (hothers₁ id'), ?_⟩
          intro r' hr'
          obtain ⟨e', he', -⟩ := record_of_local hv hr'
          cases he'
      · rintro t' (rfl | hw)
        · exact hkept₁
        · exact hkeep (hwritten t' hw) (hpending _ _ _ _ (Or.inl ⟨hthere, rfl⟩))

/-- **An entry is recovered**, wherever that is cut. -/
theorem crashWp_recoverEntry (h : Inv env s₀ s) (id : String) :
    (recoverEntry env id).crashWp (fun _ s' => Kept env s₀ spared s s' ∧ Recovered id s s')
      (fun _ => Kept env s₀ spared s) (Kept env s₀ spared s) s := by
  have hrefl : Kept env s₀ spared s s := Kept.refl h
  unfold recoverEntry
  rw [crashWp_bind, crashWp_read]
  cases hentry : s.entry id with
  | none => exact hrefl
  | some e =>
    dsimp only
    split
    · next hbare =>
      have hnone : s.record id = none := by
        unfold ArchiveDisk.record
        rw [hentry]
        exact hbare.1
      have hunrecorded : ∀ r, s.record id = some r → r.phase = .archived ∨ r.phase = .purging := by
        intro r hr
        rw [hnone] at hr
        cases hr
      split
      · next hempty =>
        have hremoved := (Local.refl env h.few id "").remove
        have hk : Kept env s₀ spared s (s.removeEntry id) :=
          kept_of_local_same h hremoved hnone.symm (by simp)
        unfold removeDirectory
        rw [crashWp_bind, crashWp_read, hentry]
        dsimp only
        rw [if_pos ⟨hbare.1, hbare.2, hempty⟩, crashWp_durable]
        refine ⟨hrefl, hk, hk, hremoved.others, fun r hr => ?_⟩
        obtain ⟨e', he', -⟩ := record_of_local hremoved hr
        cases he'
      · exact ⟨hrefl, fun _ _ => rfl, hunrecorded⟩
    · rw [crashWp_bind, crashWp_inspect]
      refine ⟨fun r hr => ?_, fun _ _ => hrefl⟩
      obtain ⟨e', hentry', hrecord, -⟩ := of_readRecord hr
      obtain rfl := Option.some.inj (hentry.symm.trans hentry')
      have hmine := record_of_entry hentry hrecord
      have hstays : ∀ phase, r.phase = phase → (phase = .archived ∨ phase = .purging) →
          Kept env s₀ spared s s ∧ Recovered id s s := by
        intro phase hphase hor
        refine ⟨hrefl, fun _ _ => rfl, fun r' hr' => ?_⟩
        rw [← Option.some.inj (hmine.symm.trans hr'), hphase]
        exact hor
      cases hphase : r.phase with
      | archiving => exact crashWp_finish h hentry hrecord (Or.inl hphase)
      | restoring => exact crashWp_finish h hentry hrecord (Or.inr hphase)
      | archived => exact hstays _ hphase (Or.inl rfl)
      | purging => exact hstays _ hphase (Or.inr rfl)
      | restored => exact crashWp_recover_discard h hentry hrecord (Or.inl hphase)
      | rolledBack => exact crashWp_recover_discard h hentry hrecord (Or.inr hphase)

variable (spared) in
/-- **A recovery**, wherever it is cut; one that comes to its end leaves no move unfinished. -/
theorem crashWp_recoverIfPresent (h : Inv env s₀ s) (guard : Except IoError Unit) :
    (recoverIfPresent env guard).crashWp (fun _ s' => Kept env s₀ spared s s' ∧ (guard = .ok () →
      Settled s')) (fun _ => Kept env s₀ spared s) (Kept env s₀ spared s) s := by
  have hrefl : Kept env s₀ spared s s := Kept.refl h
  unfold recoverIfPresent
  rw [crashWp_bind, crashWp_ofExcept]
  refine ⟨fun _ _ => ?_, fun _ _ => hrefl⟩
  rw [crashWp_bind, crashWp_read]
  split
  · next hnone =>
    refine ⟨hrefl, fun _ id r hr => ?_⟩
    rw [Option.isNone_iff_eq_none] at hnone
    unfold ArchiveDisk.record ArchiveDisk.entry at hr
    rw [hnone] at hr
    cases hr
  · have hperm := env.readDir_perm s.ids
    have hlength : (env.readDir s.ids).length ≤ 256 := hperm.length_eq.le.trans h.few
    have hall : (env.readDir s.ids).take 256 = env.readDir s.ids :=
      List.take_of_length_le hlength
    dsimp only
    rw [crashWp_bind, hall]
    refine crashWp_imp ?_
      (crashWp_forM (I := fun todo t => Kept env s₀ spared s t ∧
        ∀ id r, t.record id = some r → id ∈ todo ∨ r.phase = .archived ∨ r.phase = .purging)
        ?_ (env.readDir s.ids) s ⟨hrefl, fun id r hr => Or.inl ?_⟩)
    · rintro _ t ⟨hk, hdone⟩
      rw [if_neg (Nat.not_lt.mpr hlength)]
      exact ⟨hk, fun _ id r hr => (hdone id r hr).resolve_left List.not_mem_nil⟩
    · rintro id todo t ⟨hk, hdone⟩
      refine crashWp_mono ?_ (fun _ _ hk' => hk.trans hk') (fun _ hk' => hk.trans hk')
        (crashWp_recoverEntry hk.inv id)
      rintro _ t' ⟨hk', hothers, hown⟩
      refine ⟨hk.trans hk', fun id' r hr => ?_⟩
      by_cases hid : id' = id
      · rw [hid] at hr
        exact Or.inr (hown r hr)
      · have hr' : t.record id' = some r := by
          unfold ArchiveDisk.record at hr ⊢
          rwa [hothers id' hid] at hr
        rcases hdone id' r hr' with hmem | hsettled
        · rcases List.mem_cons.mp hmem with heq | hmem
          · exact absurd heq hid
          · exact Or.inl hmem
        · exact Or.inr hsettled
    · obtain ⟨e, hentry, -⟩ := entry_of_record hr
      exact hperm.mem_iff.mpr (ArchiveDisk.mem_ids.mpr ⟨e, hentry⟩)

end Operations

/-! ## 6. Sessions -/

/-- The call purges the profile of a key: nothing refuses it. -/
def Purges (env : ArchiveEnv) (k : String) (s : ArchiveDisk) : ArchiveCall → Prop
  | .purge guard id => guard = .ok () ∧ ∃ r, readRecord env id s = .ok r ∧
      (r.phase = .archived ∨ r.phase = .purging) ∧ env.key r.profile = k
  | .delete .. => False
  | .restore .. => False
  | .recover _ => False

def ArchiveCall.isRecover : ArchiveCall → Bool
  | .recover _ => true
  | .delete .. => false
  | .restore .. => false
  | .purge .. => false

/-- A recovery that has come to its end. -/
def recovered (call : ArchiveCall) (end_ : Outcome IoError Unit) : Bool :=
  call.isRecover && end_ = .ok ()

/-- The last call of a session was a recovery that came to its end. -/
def Ready (env : ArchiveEnv) : Bool → List (ArchiveCall × List Fault) → ArchiveDisk → Bool
  | ready, [], _ => ready
  | _, (call, fs) :: cs, s =>
      Ready env (recovered call ((archiveCall env call).run fs s).1) cs
        (Session.after (archiveCall env call) fs s)

/-- **Calls that may be cut, each operation after a recovery that came to its end.** -/
def Disciplined (env : ArchiveEnv) : Bool → List (ArchiveCall × List Fault) → ArchiveDisk → Prop
  | _, [], _ => True
  | ready, (call, fs) :: cs, s => CrashOnly fs ∧ (call.isRecover = true ∨ ready = true) ∧
      Disciplined env (recovered call ((archiveCall env call).run fs s).1) cs
        (Session.after (archiveCall env call) fs s)

section Sessions

variable {env : ArchiveEnv} {s₀ s : ArchiveDisk}

theorem disciplined_append {cs ds : List (ArchiveCall × List Fault)} :
    ∀ {ready : Bool} {s : ArchiveDisk}, Disciplined env ready (cs ++ ds) s ↔
      Disciplined env ready cs s ∧
        Disciplined env (Ready env ready cs s) ds (Session.finalState (archiveCall env) cs s) := by
  induction cs with
  | nil => exact fun {_ _} => ⟨fun h => ⟨trivial, h⟩, fun h => h.2⟩
  | cons c cs ih =>
    obtain ⟨call, fs⟩ := c
    intro ready s
    show CrashOnly fs ∧ (call.isRecover = true ∨ ready = true) ∧ Disciplined env _ (cs ++ ds) _ ↔
      (CrashOnly fs ∧ (call.isRecover = true ∨ ready = true) ∧ Disciplined env _ cs _) ∧ _
    rw [ih, and_assoc, and_assoc]
    exact Iff.rfl

/-- **A call**, wherever it is cut, and what a recovery that comes to its end leaves. -/
theorem kept_of_call (h : Inv env s₀ s) {call : ArchiveCall} {ready : Bool}
    (hready : ready = true → Settled s) (hcall : call.isRecover = true ∨ ready = true)
    {fs : List Fault} (hfs : CrashOnly fs) :
    Kept env s₀ (fun k => ¬ Purges env k s call) s (Session.after (archiveCall env call) fs s) ∧
      (recovered call ((archiveCall env call).run fs s).1 = true →
        Settled (Session.after (archiveCall env call) fs s)) := by
  have hoperation : call.isRecover = false → Settled s := by
    intro hnot
    rcases hcall with hrecover | hready'
    · rw [hnot] at hrecover
      cases hrecover
    · exact hready hready'
  cases call with
  | delete guard unreferenced name i now =>
    refine ⟨Session.after_of_crashWp hfs ?_, fun h => by cases h⟩
    rw [archiveCall, crashWp_map]
    exact crashWp_deleteProfile h (hoperation rfl) guard unreferenced name i now
  | restore guard id =>
    refine ⟨Session.after_of_crashWp hfs ?_, fun h => by cases h⟩
    rw [archiveCall, crashWp_map]
    exact crashWp_mono (fun _ _ h => h.1) (fun _ _ h => h.1) (fun _ h => h.1)
      (crashWp_restoreProfile _ h guard id)
  | purge guard id =>
    refine ⟨Session.after_of_crashWp hfs ?_, fun h => by cases h⟩
    refine crashWp_purge h guard fun hguard r hr hphase hspared => ?_
    exact hspared ⟨hguard, r, hr, hphase, rfl⟩
  | recover guard =>
    have hrun := (crashWp_iff_run _ _ _ _ s).mp
      (crashWp_recoverIfPresent (fun k => ¬ Purges env k s (.recover guard)) h guard)
      fs hfs
    have hguard : ∀ e, guard = .error e → ((recoverIfPresent env guard).run fs s).1 = .error e := by
      intro e he
      rw [he]
      rfl
    rw [archiveCall]
    unfold Session.after
    rcases hr : (recoverIfPresent env guard).run fs s with ⟨end_, s'⟩
    rw [hr] at hrun hguard
    cases end_ with
    | ok a =>
      refine ⟨hrun.1, fun _ => hrun.2 ?_⟩
      cases guard with
      | ok u => rfl
      | error e => cases hguard e rfl
    | error e => exact ⟨hrun, fun h => by cases h⟩
    | crash => exact ⟨hrun, fun h => by cases h⟩

/-- **A session.** -/
theorem kept_of_session {cs : List (ArchiveCall × List Fault)} :
    ∀ {ready : Bool} {s : ArchiveDisk}, Inv env s₀ s → (ready = true → Settled s) →
      Disciplined env ready cs s →
      Kept env s₀ (fun k => Session.Respects (archiveCall env)
        (fun call s => ¬ Purges env k s call) cs s) s
        (Session.finalState (archiveCall env) cs s) ∧
      (Ready env ready cs s = true → Settled (Session.finalState (archiveCall env) cs s)) := by
  induction cs with
  | nil => exact fun {_ _} h hready _ => ⟨Kept.refl h, hready⟩
  | cons c cs ih =>
    obtain ⟨call, fs⟩ := c
    rintro ready s h hready ⟨hfs, hcall, hrest⟩
    obtain ⟨hkept, hsettled⟩ := kept_of_call h hready hcall hfs
    obtain ⟨hkept', hsettled'⟩ := ih hkept.inv hsettled hrest
    refine ⟨⟨hkept'.inv, fun k ht => hkept'.touched k (hkept.touched k ht), ?_⟩, hsettled'⟩
    rintro k ⟨hspared, hspared'⟩ hw
    exact hkept'.whole k hspared' (hkept.whole k hspared hw)

variable (env) in
theorem inv_of_no_archive (h : s₀.ids = []) : Inv env s₀ s₀ ∧ Settled s₀ := by
  have hnone : ∀ id, s₀.entry id = none := by
    intro id
    rw [Option.eq_none_iff_forall_ne_some]
    intro e he
    have hmem := ArchiveDisk.mem_ids.mpr ⟨e, he⟩
    rw [h] at hmem
    cases hmem
  have hrecord : ∀ id, s₀.record id = none := by
    intro id
    unfold ArchiveDisk.record
    rw [hnone]
    rfl
  refine ⟨⟨?_, ?_, ?_, fun _ _ => Or.inl rfl, by simp [h]⟩, fun id r hr => by simp [hrecord] at hr⟩
  · intro id e r he
    simp [hnone] at he
  · intro id id' r r' hr
    simp [hrecord] at hr
  · intro id e he
    simp [hnone] at he

/-- **A profile's directory is at exactly one of its two places**: in its own, and no entry of the
archive has it, or in one entry of the archive alone. -/
def HeldOnce (env : ArchiveEnv) (s : ArchiveDisk) (k : String) (payload : Payload) : Prop :=
  (s.profiles k = some payload ∧ ∀ id e r, s.entry id = some e → e.record = some r →
    env.key r.profile = k → e.payload = none) ∨
  (s.profiles k = none ∧ ∃ id e r, s.entry id = some e ∧ e.record = some r ∧
    env.key r.profile = k ∧ e.payload = some payload ∧
    ∀ id' r', s.record id' = some r' → env.key r'.profile = k → id' = id)

theorem heldOnce_of_whole (h : Inv env s₀ s) {k : String} (hw : Whole env s₀ s k)
    {payload : Payload} (hfirst : s₀.profiles k = some payload) : HeldOnce env s k payload := by
  rcases hw with ⟨id, r, hr, rfl, hphase⟩ | ⟨hnone, hsame⟩
  · obtain ⟨e, hentry, hrecord⟩ := entry_of_record hr
    have honly : ∀ id' r', s.record id' = some r' → env.key r'.profile = env.key r.profile →
        id' = id := fun id' r' hr' hkey => h.distinct id' id r' r hr' hr hkey
    have hplace : (s.profiles (env.key r.profile) = some payload ∧ e.payload = none) ∨
        (s.profiles (env.key r.profile) = none ∧ e.payload = some payload) := by
      have hplace := (h.filed id e r hentry hrecord).place
      rw [hfirst] at hplace
      cases hp : r.phase with
      | archiving => rw [hp] at hplace; exact hplace.2
      | restoring => rw [hp] at hplace; exact hplace.2
      | archived => rw [hp] at hplace; exact Or.inr ⟨hplace.2.1, hplace.2.2.1⟩
      | restored => rw [hp] at hplace; exact Or.inl ⟨hplace.2.1, hplace.2.2.1⟩
      | rolledBack => rw [hp] at hplace; exact Or.inl ⟨hplace.2.1, hplace.2.2.1⟩
      | purging => exact absurd hp hphase
    rcases hplace with ⟨hthere, hempty⟩ | ⟨hgone, harchived⟩
    · refine Or.inl ⟨hthere, fun id' e' r' hentry' hrecord' hkey => ?_⟩
      obtain rfl := honly id' r' (record_of_entry hentry' hrecord') hkey
      rw [← Option.some.inj (hentry.symm.trans hentry')]
      exact hempty
    · exact Or.inr ⟨hgone, id, e, r, hentry, hrecord, rfl, harchived, honly⟩
  · refine Or.inl ⟨hsame.trans hfirst, fun id e r hentry hrecord hkey => ?_⟩
    exact absurd hkey (hnone id r (record_of_entry hentry hrecord))

theorem listed_iff_of_settled (h : Inv env s₀ s) (hsettled : Settled s) {k : String}
    (ht : Touched env s k) : Lists env s k ↔ (s.profiles k).isSome = true := by
  rcases ht with ⟨id, r, hr, rfl⟩ | hlisted
  · obtain ⟨e, hentry, hrecord⟩ := entry_of_record hr
    have hplace := (h.filed id e r hentry hrecord).place
    rw [absent_of_settled h hsettled hr]
    refine iff_of_false ?_ (by simp)
    rcases hsettled id r hr with hphase | hphase
    · rw [hphase] at hplace
      exact hplace.2.2.2
    · rw [hphase] at hplace
      exact hplace.2
  · exact hlisted

/-- **The archive neither loses nor doubles a profile.**  From a disk without an archive, through
deletions, restores and purges that may each be cut after any step, with recoveries between them
that may be cut and made again:
a profile that was there and that nothing has purged is in exactly one of its places;
after a recovery that came to its end, the catalog lists a profile that has been in the archive if
and only if the profile is in its place;
a restore leaves every profile that is in its place as it was;
and the archive has no more than 256 entries. -/
theorem profile_archive_keeps_profiles (env : ArchiveEnv) (s₀ : ArchiveDisk) (hempty : s₀.ids = [])
    (cs : List (ArchiveCall × List Fault)) (hcs : Disciplined env true cs s₀) :
    (∀ k payload, s₀.profiles k = some payload →
      Session.Respects (archiveCall env) (fun call s => ¬ Purges env k s call) cs s₀ →
      HeldOnce env (Session.finalState (archiveCall env) cs s₀) k payload) ∧
    (Ready env true cs s₀ = true → ∀ before rest k, cs = before ++ rest →
      Touched env (Session.finalState (archiveCall env) before s₀) k →
      (Lists env (Session.finalState (archiveCall env) cs s₀) k ↔
        ((Session.finalState (archiveCall env) cs s₀).profiles k).isSome = true)) ∧
    (∀ before guard id fs rest, cs = before ++ (.restore guard id, fs) :: rest →
      Unharmed (Session.finalState (archiveCall env) before s₀)
        (Session.finalState (archiveCall env) (before ++ [(.restore guard id, fs)]) s₀)) ∧
    (Session.finalState (archiveCall env) cs s₀).ids.length ≤ 256 := by
  obtain ⟨hinv, hsettled⟩ := inv_of_no_archive env hempty
  obtain ⟨hkept, hready⟩ := kept_of_session hinv (fun _ => hsettled) hcs
  refine ⟨?_, ?_, ?_, hkept.inv.few⟩
  · intro k payload hfirst hspared
    have hstart : Whole env s₀ s₀ k := by
      refine Or.inr ⟨fun id r hr => ?_, rfl⟩
      obtain ⟨e, hentry, -⟩ := entry_of_record hr
      have hmem := ArchiveDisk.mem_ids.mpr ⟨e, hentry⟩
      rw [hempty] at hmem
      cases hmem
    exact heldOnce_of_whole hkept.inv (hkept.whole k hspared hstart) hfirst
  · rintro hend before rest k rfl ht
    obtain ⟨hbefore, hrest⟩ := disciplined_append.mp hcs
    obtain ⟨hkeptBefore, hreadyBefore⟩ := kept_of_session hinv (fun _ => hsettled) hbefore
    obtain ⟨hkeptRest, -⟩ := kept_of_session hkeptBefore.inv hreadyBefore hrest
    have htouched := hkeptRest.touched k ht
    rw [← Session.finalState_append] at htouched
    exact listed_iff_of_settled hkept.inv (hready hend) htouched
  · rintro before guard id fs rest rfl
    obtain ⟨hbefore, hrest⟩ := disciplined_append.mp hcs
    obtain ⟨hkeptBefore, -⟩ := kept_of_session hinv (fun _ => hsettled) hbefore
    rw [Session.finalState_append]
    refine Session.after_of_crashWp (p := archiveCall env (.restore guard id)) hrest.1 ?_
    rw [archiveCall, crashWp_map]
    exact crashWp_mono (fun _ _ h => h.2) (fun _ _ h => h.2) (fun _ h => h.2)
      (crashWp_restoreProfile (fun _ => True) hkeptBefore.inv guard id)

end Sessions

/-- A home with one profile next to the current one. -/
def sampleDisk : ArchiveDisk where
  profiles := fun k => if k = "work" then some ["package.json", "node_modules"] else none
  catalog := some ⟨PROFILE_SCHEMA_VERSION, DEFAULT_PROFILE, [DEFAULT_PROFILE, "work"]⟩
  entries := none

def sampleEnvironment : ArchiveEnv where
  windows := false
  dataRootId := "data"
  home := "home"
  readDir names := names
  readDir_perm names := List.Perm.refl names

/-- A deletion that is cut after the directory has been moved, and a recovery. -/
def cutDeletion : List (ArchiveCall × List Fault) :=
  [(.delete (.ok ()) (.ok ()) "work" ⟨1, 2, 3⟩ 4, [.none, .none, .none, .none, .crashAfter]),
    (.recover (.ok ()), [])]

/-- After the recovery the profile is in one place, and the catalog knows which. -/
theorem profile_archive_keeps_profiles_cut :
    HeldOnce sampleEnvironment
      (Session.finalState (archiveCall sampleEnvironment) cutDeletion sampleDisk) "work"
      ["package.json", "node_modules"] ∧
    ¬ Lists sampleEnvironment
      (Session.finalState (archiveCall sampleEnvironment) cutDeletion sampleDisk) "work" ∧
    (Session.finalState (archiveCall sampleEnvironment) cutDeletion sampleDisk).ids.length ≤
      256 := by
  obtain ⟨hheld, hlisted, -, hfew⟩ := profile_archive_keeps_profiles sampleEnvironment sampleDisk
    rfl cutDeletion ⟨by simp [CrashOnly], Or.inr rfl, by simp [CrashOnly], Or.inl rfl, trivial⟩
  have hrecord : (Session.finalState (archiveCall sampleEnvironment) cutDeletion
      sampleDisk).record "1-2-3" =
        some ⟨1, "1-2-3", "data", "home", "work", 4, .archived⟩ := by
    decide +kernel
  have habsent : ((Session.finalState (archiveCall sampleEnvironment) cutDeletion
      sampleDisk).profiles "work").isSome = false := by
    decide +kernel
  refine ⟨hheld "work" _ rfl ⟨id, id, trivial⟩, fun h => ?_, hfew⟩
  have hthere := (hlisted (by decide +kernel) cutDeletion [] "work" (List.append_nil _).symm
    (Or.inl ⟨"1-2-3", _, hrecord, by decide⟩)).mp h
  rw [habsent] at hthere
  cases hthere

end DshNexus.Agent.ProfileArchive
