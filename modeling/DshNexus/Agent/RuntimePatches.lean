import Mathlib.Data.Set.Basic
import DshNexus.Core.Io
import DshNexus.Durable.Session

/-!
# Failures of additional patches

`crates/nexus-agent/src/runtime_patches.rs`: a launch that fails with additional patches records
a failure for each of them, a launch with a recorded failure is refused, and a saved configuration
that lists a patch as disabled takes its failure away.

1. The preferences, and what they enable (`enabled_entries`).
2. The failure files and the three operations, as programs whose every file operation may fail.
3. `Enables`: what preferences enable, said without the list that the code builds.
4. What each operation does to the failures, also when it is cut.
5. `check_failures_refuses_iff`: over every sequence of calls, a launch is refused for the patches
   whose failure is later than the last save that lists them as disabled.
-/

namespace DshNexus.Agent

open Durable Program

/-! ## 1. Preferences -/

/-- `HarnessPatchEntry`, as far as the failures depend on it. -/
structure HarnessPatchEntry where
  source : String
  enabled : Bool
  sha256 : Option String
  githubRefKind : Option String
  githubRefName : Option String
  githubFilePath : Option String
  deriving DecidableEq, Repr

/-- The two lists of `HarnessPreferencesPayload` that name patches. -/
structure PatchPreferences where
  patches : Option (List String)
  patchEntries : Option (List HarnessPatchEntry)
  deriving DecidableEq, Repr

/-- The source and the ref that `patch_identity` hashes. -/
structure PatchKey where
  source : String
  githubRefKind : Option String
  githubRefName : Option String
  githubFilePath : Option String
  deriving DecidableEq, Repr

def HarnessPatchEntry.key (entry : HarnessPatchEntry) : PatchKey :=
  ⟨entry.source, entry.githubRefKind, entry.githubRefName, entry.githubFilePath⟩

/-- What the operations take from the platform and from libraries: `Path::file_name`, the SHA-256
of an encoded key in hexadecimal, and the JSON of a failure. -/
structure PatchPlatform where
  fileName : String → Option String
  digest : PatchKey → String
  encodeFailure : String → Nat → Bytes

namespace RuntimePatches

variable (platform : PatchPlatform)

def patchIdentity (entry : HarnessPatchEntry) : String := platform.digest entry.key

/-- `source.starts_with("https://")`. -/
def isRemote (source : String) : Bool := "https://".toList.isPrefixOf source.toList

def matchesFile (entry : HarnessPatchEntry) (path : String) : Bool :=
  entry.source = path || (isRemote entry.source &&
    platform.fileName path = some (entry.sha256.getD "not-downloaded" ++ ".yml"))

def localEntry (path : String) : HarnessPatchEntry := ⟨path, true, none, none, none, none⟩

/-- One known entry of a launch path, unless its source is enabled already. -/
def pushKnown (entries : List HarnessPatchEntry) (entry : HarnessPatchEntry) :
    List HarnessPatchEntry :=
  if entries.any fun enabled => patchIdentity platform enabled = patchIdentity platform entry then
    entries
  else entries ++ [{ entry with enabled := true }]

/-- The entries of `p` that a launch path matches. -/
def known (p : PatchPreferences) (path : String) : List HarnessPatchEntry :=
  (p.patchEntries.getD []).filter (matchesFile platform · path)

def pushPath (p : PatchPreferences) (entries : List HarnessPatchEntry) (path : String) :
    List HarnessPatchEntry :=
  if (known platform p path).isEmpty then entries ++ [localEntry path]
  else (known platform p path).foldl (pushKnown platform) entries

def enabledEntries (p : PatchPreferences) : List HarnessPatchEntry :=
  (p.patches.getD []).foldl (pushPath platform p)
    ((p.patchEntries.getD []).filter HarnessPatchEntry.enabled)

/-! ## 2. The failure files -/

/-- What stands at `patch-failures`. -/
inductive FailureDirectory where
  | absent
  | plain
  | link
  deriving DecidableEq, Repr

/-- The directory `patch-failures`, with its files by identity. -/
structure FailureDisk where
  directory : FailureDirectory
  files : String → Option Bytes

/-- An error of kind `InvalidInput`. -/
def invalid (message : String) : IoError := ⟨.invalidInput, message⟩

/-- `create_dir_all`. -/
def FailureDisk.createDirectory (disk : FailureDisk) : FailureDisk :=
  if disk.directory = .absent then { disk with directory := .plain } else disk

def FailureDisk.write (name : String) (bytes : Bytes) (disk : FailureDisk) : FailureDisk :=
  { disk with files := fun name' => if name' = name then some bytes else disk.files name' }

def FailureDisk.remove (name : String) (disk : FailureDisk) : FailureDisk :=
  { disk with files := fun name' => if name' = name then none else disk.files name' }

def recordEntry (stage : String) (observedAt : Nat) (entry : HarnessPatchEntry) :
    Program FailureDisk IoError Unit := do
  Program.durable fileOperationFailed FailureDisk.createDirectory
  Program.inspect fun disk =>
    if disk.directory = .link then .error (invalid "Patch failure directory must not be a link")
    else .ok ()
  Program.durable fileOperationFailed
    (FailureDisk.write (patchIdentity platform entry) (platform.encodeFailure stage observedAt))

def recordFailure (p : PatchPreferences) (stage : String) (observedAt : Nat) :
    Program FailureDisk IoError Unit :=
  (enabledEntries platform p).forM (recordEntry platform stage observedAt)

/-- The entries whose failure a saved configuration takes away. -/
def acknowledged (p : PatchPreferences) : List HarnessPatchEntry :=
  let enabled := (enabledEntries platform p).map (patchIdentity platform)
  (p.patchEntries.getD []).filter fun entry =>
    !entry.enabled && !enabled.contains (patchIdentity platform entry)

/-- `acknowledge_disabled`, called after the configuration transaction.  A file that is not there
is no error. -/
def acknowledgeDisabled (p : PatchPreferences) : Program FailureDisk IoError Unit :=
  (acknowledged platform p).forM fun entry =>
    Program.durable fileOperationFailed (FailureDisk.remove (patchIdentity platform entry))

def previouslyFailed : String :=
  "An enabled patch previously failed. Disable it and save in Settings before launching. " ++
  "For an unclassified combination failure, disable the enabled patches one by one; " ++
  "no plugin was automatically removed."

def checkEntry (entry : HarnessPatchEntry) : Program FailureDisk IoError Unit := do
  let failure ← readFile (fun disk => disk.files (patchIdentity platform entry)) 8192
  if failure.isSome then throw (invalid previouslyFailed) else pure ()

def checkFailures (p : PatchPreferences) : Program FailureDisk IoError Unit :=
  (enabledEntries platform p).forM (checkEntry platform)

/-- The calls that change the failure files. -/
inductive PatchCall where
  | recordFailure (p : PatchPreferences) (stage : String) (observedAt : Nat)
  | acknowledgeDisabled (q : PatchPreferences)
  deriving DecidableEq, Repr

def PatchCall.program : PatchCall → Program FailureDisk IoError Unit
  | .recordFailure p stage observedAt => RuntimePatches.recordFailure platform p stage observedAt
  | .acknowledgeDisabled q => RuntimePatches.acknowledgeDisabled platform q

/-! ## 3. What preferences enable -/

/-- A patch is enabled by an enabled entry, by a launch path to the file of an entry, or as a launch
path that no entry matches. -/
inductive Enables (p : PatchPreferences) : PatchKey → Prop
  | entry {entry : HarnessPatchEntry} (hentry : entry ∈ p.patchEntries.getD [])
      (henabled : entry.enabled = true) : Enables p entry.key
  | cached {path : String} {entry : HarnessPatchEntry} (hpath : path ∈ p.patches.getD [])
      (hentry : entry ∈ p.patchEntries.getD []) (hmatches : matchesFile platform entry path = true) :
      Enables p entry.key
  | unknown {path : String} (hpath : path ∈ p.patches.getD [])
      (hunknown : ∀ entry ∈ p.patchEntries.getD [], matchesFile platform entry path = false) :
      Enables p (localEntry path).key

/-- A patch is listed as disabled and not enabled in any other way. -/
def ListsDisabled (q : PatchPreferences) (key : PatchKey) : Prop :=
  (∃ entry ∈ q.patchEntries.getD [], entry.enabled = false ∧ entry.key = key) ∧
    ¬ Enables platform q key

/-- The patches that preferences name at all. -/
def Names (p : PatchPreferences) (key : PatchKey) : Prop :=
  (∃ entry ∈ p.patchEntries.getD [], entry.key = key) ∨
    ∃ path ∈ p.patches.getD [], (localEntry path).key = key

variable {platform}

theorem Enables.names {p : PatchPreferences} {key : PatchKey} (h : Enables platform p key) :
    Names p key := by
  rcases h with ⟨hentry, -⟩ | ⟨-, hentry, -⟩ | ⟨hpath, -⟩
  · exact Or.inl ⟨_, hentry, rfl⟩
  · exact Or.inl ⟨_, hentry, rfl⟩
  · exact Or.inr ⟨_, hpath, rfl⟩

/-- The names of the failure files of some entries. -/
abbrev identities (platform : PatchPlatform) (entries : List HarnessPatchEntry) : List String :=
  entries.map (patchIdentity platform)

theorem mem_identities_concat (entries : List HarnessPatchEntry) (entry : HarnessPatchEntry)
    (name : String) :
    name ∈ identities platform (entries ++ [entry]) ↔
      name ∈ identities platform entries ∨ patchIdentity platform entry = name := by
  simp [identities, eq_comm]

theorem mem_identities_foldl {ι : Type} {push : List HarnessPatchEntry → ι → List HarnessPatchEntry}
    {P : ι → Prop} {name : String}
    (hpush : ∀ entries x, name ∈ identities platform (push entries x) ↔
      name ∈ identities platform entries ∨ P x) (xs : List ι) (entries : List HarnessPatchEntry) :
    name ∈ identities platform (xs.foldl push entries) ↔
      name ∈ identities platform entries ∨ ∃ x ∈ xs, P x := by
  induction xs generalizing entries with
  | nil => simp
  | cons x xs ih =>
    rw [List.foldl_cons, ih, hpush, or_assoc]
    simp only [List.mem_cons, exists_eq_or_imp]

theorem mem_identities_pushKnown (entries : List HarnessPatchEntry) (entry : HarnessPatchEntry)
    (name : String) :
    name ∈ identities platform (pushKnown platform entries entry) ↔
      name ∈ identities platform entries ∨ patchIdentity platform entry = name := by
  unfold pushKnown
  split
  · next hany =>
    refine ⟨Or.inl, ?_⟩
    rintro (h | rfl)
    · exact h
    · obtain ⟨enabled, henabled, heq⟩ := List.any_eq_true.mp hany
      exact List.mem_map.mpr ⟨enabled, henabled, of_decide_eq_true heq⟩
  · exact mem_identities_concat entries _ name

theorem mem_identities_pushPath (p : PatchPreferences) (entries : List HarnessPatchEntry)
    (path : String) (name : String) :
    name ∈ identities platform (pushPath platform p entries path) ↔
      name ∈ identities platform entries ∨
        (known platform p path = [] ∧ patchIdentity platform (localEntry path) = name ∨
          ∃ entry ∈ known platform p path, patchIdentity platform entry = name) := by
  unfold pushPath
  split
  · next hempty =>
    rw [List.isEmpty_iff] at hempty
    rw [mem_identities_concat, hempty]
    simp
  · next hsome =>
    rw [List.isEmpty_iff] at hsome
    rw [mem_identities_foldl fun entries entry => mem_identities_pushKnown entries entry name]
    simp [hsome]

/-- **The enabled entries** name the failure files of what the preferences enable. -/
theorem mem_identities_enabledEntries (p : PatchPreferences) (name : String) :
    name ∈ identities platform (enabledEntries platform p) ↔
      ∃ key, Enables platform p key ∧ platform.digest key = name := by
  unfold enabledEntries
  rw [mem_identities_foldl fun entries path => mem_identities_pushPath p entries path name]
  have hknown : ∀ {path entry}, entry ∈ known platform p path ↔
      entry ∈ p.patchEntries.getD [] ∧ matchesFile platform entry path = true := List.mem_filter
  constructor
  · rintro (hname | ⟨path, hpath, ⟨hempty, rfl⟩ | ⟨entry, hentry, rfl⟩⟩)
    · obtain ⟨entry, hentry, rfl⟩ := List.mem_map.mp hname
      obtain ⟨hmem, henabled⟩ := List.mem_filter.mp hentry
      exact ⟨entry.key, .entry hmem henabled, rfl⟩
    · refine ⟨(localEntry path).key, .unknown hpath fun entry hentry => ?_, rfl⟩
      have hnot : entry ∉ known platform p path := by
        rw [hempty]
        exact List.not_mem_nil
      rw [← Bool.not_eq_true]
      exact fun hmatches => hnot (hknown.mpr ⟨hentry, hmatches⟩)
    · obtain ⟨hmem, hmatches⟩ := hknown.mp hentry
      exact ⟨entry.key, .cached hpath hmem hmatches, rfl⟩
  · rintro ⟨key, henables, rfl⟩
    rcases henables with ⟨hmem, henabled⟩ | ⟨hpath, hmem, hmatches⟩ | ⟨hpath, hunknown⟩
    · exact Or.inl (List.mem_map.mpr ⟨_, List.mem_filter.mpr ⟨hmem, henabled⟩, rfl⟩)
    · exact Or.inr ⟨_, hpath, Or.inr ⟨_, hknown.mpr ⟨hmem, hmatches⟩, rfl⟩⟩
    · refine Or.inr ⟨_, hpath, Or.inl ⟨?_, rfl⟩⟩
      rw [known, List.filter_eq_nil_iff]
      intro entry hentry
      rw [hunknown entry hentry]
      exact Bool.false_ne_true

theorem mem_identities_acknowledged (q : PatchPreferences) (name : String) :
    name ∈ identities platform (acknowledged platform q) ↔
      (∃ entry ∈ q.patchEntries.getD [], entry.enabled = false ∧
        patchIdentity platform entry = name) ∧
      ¬ ∃ key, Enables platform q key ∧ platform.digest key = name := by
  rw [← mem_identities_enabledEntries, List.mem_map]
  constructor
  · rintro ⟨entry, hentry, rfl⟩
    obtain ⟨hmem, hcond⟩ := List.mem_filter.mp hentry
    simp only [Bool.and_eq_true, Bool.not_eq_true', List.contains_eq_mem,
      decide_eq_false_iff_not] at hcond
    exact ⟨⟨entry, hmem, hcond.1, rfl⟩, hcond.2⟩
  · rintro ⟨⟨entry, hmem, hdisabled, rfl⟩, hnot⟩
    refine ⟨entry, List.mem_filter.mpr ⟨hmem, ?_⟩, rfl⟩
    simp only [Bool.and_eq_true, Bool.not_eq_true', List.contains_eq_mem,
      decide_eq_false_iff_not]
    exact ⟨hdisabled, hnot⟩

/-! ## 4. The operations -/

/-- A failure is recorded under the name. -/
def FailureDisk.Failed (disk : FailureDisk) (name : String) : Prop := disk.files name ≠ none

theorem FailureDisk.failed_write (name : String) (bytes : Bytes) (disk : FailureDisk)
    (name' : String) : (disk.write name bytes).Failed name' ↔ name' = name ∨ disk.Failed name' := by
  unfold Failed write
  by_cases h : name' = name <;> simp [h]

theorem FailureDisk.failed_remove (name : String) (disk : FailureDisk) (name' : String) :
    (disk.remove name).Failed name' ↔ name' ≠ name ∧ disk.Failed name' := by
  unfold Failed remove
  by_cases h : name' = name <;> simp [h]

theorem FailureDisk.failed_createDirectory (disk : FailureDisk) (name : String) :
    disk.createDirectory.Failed name ↔ disk.Failed name := by
  unfold Failed createDirectory
  split <;> exact Iff.rfl

/-- Failures are only added, and only under the given names. -/
structure Adds (names : List String) (s t : FailureDisk) : Prop where
  keeps : ∀ name, s.Failed name → t.Failed name
  only : ∀ name, t.Failed name → s.Failed name ∨ name ∈ names

/-- Failures are only taken away, and only under the given names. -/
structure Removes (names : List String) (s t : FailureDisk) : Prop where
  only : ∀ name, t.Failed name → s.Failed name
  keeps : ∀ name, s.Failed name → t.Failed name ∨ name ∈ names

/-- `record_failure` adds failures of enabled patches wherever it ends, and all of them when it
returns. -/
theorem wp_recordFailure (p : PatchPreferences) (stage : String) (observedAt : Nat)
    (s : FailureDisk) :
    (recordFailure platform p stage observedAt).wp
      (fun _ t => Adds (identities platform (enabledEntries platform p)) s t ∧
        ∀ name ∈ identities platform (enabledEntries platform p), t.Failed name)
      (fun _ => Adds (identities platform (enabledEntries platform p)) s)
      (Adds (identities platform (enabledEntries platform p)) s) s := by
  have hcreate : ∀ {t}, Adds (identities platform (enabledEntries platform p)) s t →
      Adds (identities platform (enabledEntries platform p)) s t.createDirectory := by
    intro t h
    refine ⟨fun name hname => ?_, fun name hname => ?_⟩
    · exact (t.failed_createDirectory name).mpr (h.keeps name hname)
    · exact h.only name ((t.failed_createDirectory name).mp hname)
  have hloop := wp_forM (g := recordEntry platform stage observedAt)
    (I := fun rest t => Adds (identities platform (enabledEntries platform p)) s t ∧
      (∀ entry ∈ rest, entry ∈ enabledEntries platform p) ∧
      ∀ entry ∈ enabledEntries platform p,
        entry ∈ rest ∨ t.Failed (patchIdentity platform entry))
    (E := fun _ => Adds (identities platform (enabledEntries platform p)) s)
    (C := Adds (identities platform (enabledEntries platform p)) s)
    (fun entry rest t ⟨hadds, hrest, hdone⟩ => by
      have hwrite : ∀ {u}, Adds (identities platform (enabledEntries platform p)) s u →
          Adds (identities platform (enabledEntries platform p)) s (u.write
            (patchIdentity platform entry) (platform.encodeFailure stage observedAt)) := by
        intro u hu
        refine ⟨fun name hname => ?_, fun name hname => ?_⟩
        · exact (u.failed_write _ _ name).mpr (Or.inr (hu.keeps name hname))
        · rcases (u.failed_write _ _ name).mp hname with rfl | hname
          · exact Or.inr (List.mem_map.mpr ⟨entry, hrest entry List.mem_cons_self, rfl⟩)
          · exact hu.only name hname
      have hmade := hcreate hadds
      rw [recordEntry, wp_bind, wp_durable]
      refine ⟨hadds, hmade, ?_, hadds, hmade⟩
      rw [wp_bind, wp_inspect]
      refine ⟨fun _ _ => ?_, fun _ _ => hmade⟩
      rw [wp_durable]
      refine ⟨hmade, hwrite hmade, ⟨hwrite hmade, ?_, fun entry' hentry' => ?_⟩, hmade,
        hwrite hmade⟩
      · exact fun entry' hentry' => hrest entry' (List.mem_cons_of_mem _ hentry')
      · rcases hdone entry' hentry' with hmem | hfailed
        · rcases List.mem_cons.mp hmem with rfl | hmem
          · exact Or.inr ((FailureDisk.failed_write ..).mpr (Or.inl rfl))
          · exact Or.inl hmem
        · refine Or.inr ((FailureDisk.failed_write ..).mpr (Or.inr ?_))
          exact (t.failed_createDirectory _).mpr hfailed)
    (enabledEntries platform p) s
    ⟨⟨fun _ h => h, fun _ h => Or.inl h⟩, fun _ h => h, fun _ h => Or.inl h⟩
  refine wp_imp ?_ hloop
  rintro _ t ⟨hadds, -, hdone⟩
  refine ⟨hadds, fun name hname => ?_⟩
  obtain ⟨entry, hentry, rfl⟩ := List.mem_map.mp hname
  exact (hdone entry hentry).resolve_left List.not_mem_nil

theorem wp_acknowledgeDisabled (q : PatchPreferences) (s : FailureDisk) :
    (acknowledgeDisabled platform q).wp
      (fun _ t => Removes (identities platform (acknowledged platform q)) s t ∧
        ∀ name ∈ identities platform (acknowledged platform q), ¬ t.Failed name)
      (fun _ => Removes (identities platform (acknowledged platform q)) s)
      (Removes (identities platform (acknowledged platform q)) s) s := by
  have hloop := wp_forM
    (g := fun entry => Program.durable fileOperationFailed
      (FailureDisk.remove (patchIdentity platform entry)))
    (I := fun rest t => Removes (identities platform (acknowledged platform q)) s t ∧
      (∀ entry ∈ rest, entry ∈ acknowledged platform q) ∧
      ∀ entry ∈ acknowledged platform q,
        entry ∈ rest ∨ ¬ t.Failed (patchIdentity platform entry))
    (E := fun _ => Removes (identities platform (acknowledged platform q)) s)
    (C := Removes (identities platform (acknowledged platform q)) s)
    (fun entry rest t ⟨hremoves, hrest, hdone⟩ => by
      have hremove : Removes (identities platform (acknowledged platform q)) s
          (t.remove (patchIdentity platform entry)) := by
        refine ⟨fun name hname => ?_, fun name hname => ?_⟩
        · exact hremoves.only name ((t.failed_remove _ name).mp hname).2
        · rcases hremoves.keeps name hname with hfailed | hmem
          · by_cases heq : name = patchIdentity platform entry
            · refine Or.inr (List.mem_map.mpr ⟨entry, hrest entry List.mem_cons_self, ?_⟩)
              exact heq.symm
            · exact Or.inl ((t.failed_remove _ name).mpr ⟨heq, hfailed⟩)
          · exact Or.inr hmem
      rw [wp_durable]
      refine ⟨hremoves, hremove, ⟨hremove, ?_, fun entry' hentry' => ?_⟩, hremoves, hremove⟩
      · exact fun entry' hentry' => hrest entry' (List.mem_cons_of_mem _ hentry')
      · rcases hdone entry' hentry' with hmem | hclear
        · rcases List.mem_cons.mp hmem with rfl | hmem
          · exact Or.inr fun hfailed => ((t.failed_remove _ _).mp hfailed).1 rfl
          · exact Or.inl hmem
        · exact Or.inr fun hfailed => hclear ((t.failed_remove _ _).mp hfailed).2)
    (acknowledged platform q) s
    ⟨⟨fun _ h => h, fun _ h => Or.inl h⟩, fun _ h => h, fun _ h => Or.inl h⟩
  refine wp_imp ?_ hloop
  rintro _ t ⟨hremoves, -, hdone⟩
  refine ⟨hremoves, fun name hname => ?_⟩
  obtain ⟨entry, hentry, rfl⟩ := List.mem_map.mp hname
  exact (hdone entry hentry).resolve_left List.not_mem_nil

theorem wp_checkFailures (r : PatchPreferences) (s : FailureDisk) :
    (checkFailures platform r).wp
      (fun _ _ => ∀ name ∈ identities platform (enabledEntries platform r), ¬ s.Failed name)
      (fun _ _ => ∃ name ∈ identities platform (enabledEntries platform r), s.Failed name)
      (fun _ => False) s := by
  have hloop := wp_forM (g := checkEntry platform)
    (I := fun rest t => t = s ∧ (∀ entry ∈ rest, entry ∈ enabledEntries platform r) ∧
      ∀ entry ∈ enabledEntries platform r,
        entry ∈ rest ∨ ¬ s.Failed (patchIdentity platform entry))
    (E := fun _ _ => ∃ name ∈ identities platform (enabledEntries platform r), s.Failed name)
    (C := fun _ => False)
    (fun entry rest t ⟨hts, hrest, hdone⟩ => by
      subst hts
      have hname : patchIdentity platform entry ∈
          identities platform (enabledEntries platform r) :=
        List.mem_map.mpr ⟨entry, hrest entry List.mem_cons_self, rfl⟩
      rw [checkEntry, readFile, wp_bind, wp_bind, wp_read,
        wp_ofExcept]
      refine ⟨fun failure hread => ?_, fun e hread => ⟨_, hname, fun hnone => ?_⟩⟩
      · rw [eq_of_readRegularFileBounded hread]
        split
        · next hsome =>
          exact ⟨_, hname, fun hnone => by rw [hnone] at hsome; cases hsome⟩
        · next hnone =>
          refine ⟨rfl, fun entry' hentry' => hrest entry' (List.mem_cons_of_mem _ hentry'),
            fun entry' hentry' => ?_⟩
          rcases hdone entry' hentry' with hmem | hclear
          · rcases List.mem_cons.mp hmem with rfl | hmem
            · exact Or.inr fun hfailed => hnone (Option.isSome_iff_ne_none.mpr hfailed)
            · exact Or.inl hmem
          · exact Or.inr hclear
      · rw [hnone] at hread
        cases hread)
    (enabledEntries platform r) s ⟨rfl, fun _ h => h, fun _ h => Or.inl h⟩
  refine wp_imp ?_ hloop
  rintro _ t ⟨-, -, hdone⟩ name hname
  obtain ⟨entry, hentry, rfl⟩ := List.mem_map.mp hname
  exact (hdone entry hentry).resolve_left List.not_mem_nil

/-! ## 5. Sequences of calls -/

def PatchCall.preferences : PatchCall → PatchPreferences
  | .recordFailure p _ _ => p
  | .acknowledgeDisabled q => q

variable (platform) in
/-- In the given preferences different patches have different identities. -/
def CollisionFree (ps : List PatchPreferences) : Prop :=
  ∀ p ∈ ps, ∀ p' ∈ ps, ∀ key key', Names p key → Names p' key' →
    platform.digest key = platform.digest key' → key = key'

variable (platform) in
/-- A patch has a failure that is later than every save that lists it as disabled.  Of calls that
did not complete, `recorded` and `saved` say which ones count. -/
def FailedSince (recorded saved : Outcome IoError Unit → Prop)
    (calls : List (PatchCall × Outcome IoError Unit)) (key : PatchKey) : Prop :=
  ∃ before p stage observedAt o after,
    calls = before ++ (.recordFailure p stage observedAt, o) :: after ∧ recorded o ∧
      Enables platform p key ∧
        ∀ q o', (.acknowledgeDisabled q, o') ∈ after → saved o' → ¬ ListsDisabled platform q key

section FailedSince

variable {recorded saved : Outcome IoError Unit → Prop}
  {calls : List (PatchCall × Outcome IoError Unit)} {key : PatchKey} {o : Outcome IoError Unit}

theorem FailedSince.record (h : FailedSince platform recorded saved calls key)
    (p : PatchPreferences) (stage : String) (observedAt : Nat) :
    FailedSince platform recorded saved (calls ++ [(.recordFailure p stage observedAt, o)]) key := by
  obtain ⟨before, p', stage', observedAt', o', after, rfl, ho', henables, hafter⟩ := h
  refine ⟨before, p', stage', observedAt', o', after ++ [(.recordFailure p stage observedAt, o)],
    by simp, ho', henables, fun q o'' hmem => ?_⟩
  rcases List.mem_append.mp hmem with hmem | hmem
  · exact hafter q o'' hmem
  · simp at hmem

theorem FailedSince.save (h : FailedSince platform recorded saved calls key) {q : PatchPreferences}
    (hq : saved o → ¬ ListsDisabled platform q key) :
    FailedSince platform recorded saved (calls ++ [(.acknowledgeDisabled q, o)]) key := by
  obtain ⟨before, p, stage, observedAt, o', after, rfl, ho', henables, hafter⟩ := h
  refine ⟨before, p, stage, observedAt, o', after ++ [(.acknowledgeDisabled q, o)],
    by simp, ho', henables, fun q' o'' hmem => ?_⟩
  rcases List.mem_append.mp hmem with hmem | hmem
  · exact hafter q' o'' hmem
  · obtain ⟨hcall, rfl⟩ := Prod.mk.inj (List.mem_singleton.mp hmem)
    rw [PatchCall.acknowledgeDisabled.inj hcall]
    exact hq

theorem failedSince_concat {call : PatchCall}
    (h : FailedSince platform recorded saved (calls ++ [(call, o)]) key) :
    (∃ p stage observedAt, call = .recordFailure p stage observedAt ∧ recorded o ∧
        Enables platform p key) ∨
      FailedSince platform recorded saved calls key ∧
        ∀ q, call = .acknowledgeDisabled q → saved o → ¬ ListsDisabled platform q key := by
  obtain ⟨before, p, stage, observedAt, o', after, hcalls, ho', henables, hafter⟩ := h
  rcases List.eq_nil_or_concat after with rfl | ⟨after, last, rfl⟩
  · obtain ⟨-, hlast⟩ := List.append_inj' hcalls rfl
    obtain ⟨rfl, rfl⟩ := Prod.mk.inj (List.cons.inj hlast).1
    exact Or.inl ⟨p, stage, observedAt, rfl, ho', henables⟩
  · rw [List.concat_eq_append, ← List.cons_append, ← List.append_assoc] at hcalls
    obtain ⟨rfl, hlast⟩ := List.append_inj' hcalls rfl
    obtain rfl := (List.cons.inj hlast).1
    refine Or.inr ⟨⟨before, p, stage, observedAt, o', after, rfl, ho', henables,
      fun q o'' hmem => hafter q o'' ?_⟩, ?_⟩
    · rw [List.concat_eq_append]
      exact List.mem_append_left _ hmem
    · rintro q rfl
      refine hafter q o ?_
      rw [List.concat_eq_append]
      exact List.mem_append_right _ List.mem_cons_self

theorem FailedSince.mono {recorded' saved' : Outcome IoError Unit → Prop}
    (h : FailedSince platform recorded saved calls key)
    (hrecorded : ∀ e ∈ calls, recorded e.2 → recorded' e.2)
    (hsaved : ∀ e ∈ calls, saved' e.2 → saved e.2) :
    FailedSince platform recorded' saved' calls key := by
  obtain ⟨before, p, stage, observedAt, o, after, rfl, ho, henables, hafter⟩ := h
  refine ⟨before, p, stage, observedAt, o, after, rfl, ?_, henables, fun q o' hmem hsaved' => ?_⟩
  · exact hrecorded _ (List.mem_append_right _ List.mem_cons_self) ho
  · refine hafter q o' hmem (hsaved (.acknowledgeDisabled q, o') ?_ hsaved')
    exact List.mem_append_right _ (List.mem_cons_of_mem _ hmem)

end FailedSince

def Completed (o : Outcome IoError Unit) : Prop := o = .ok ()

/-- What the failure files say of the calls so far: a failure that must be there is there, and a
failure that is there may be there. -/
structure Tracks (platform : PatchPlatform) (calls : List (PatchCall × Outcome IoError Unit))
    (disk : FailureDisk) : Prop where
  kept : ∀ key, FailedSince platform Completed (fun _ => True) calls key →
    disk.Failed (platform.digest key)
  known : ∀ name, disk.Failed name → ∃ key, platform.digest key = name ∧
    FailedSince platform (fun _ => True) Completed calls key

theorem FailedSince.named {recorded saved : Outcome IoError Unit → Prop}
    {calls : List (PatchCall × Outcome IoError Unit)} {key : PatchKey}
    (h : FailedSince platform recorded saved calls key) :
    ∃ e ∈ calls, Names e.1.preferences key := by
  obtain ⟨before, p, stage, observedAt, o, after, rfl, -, henables, -⟩ := h
  exact ⟨_, List.mem_append_right _ List.mem_cons_self, henables.names⟩

theorem Tracks.record {calls : List (PatchCall × Outcome IoError Unit)} {s t : FailureDisk}
    (h : Tracks platform calls s) {p : PatchPreferences} (stage : String) (observedAt : Nat)
    (o : Outcome IoError Unit)
    (hadds : Adds (identities platform (enabledEntries platform p)) s t)
    (hall : Completed o → ∀ name ∈ identities platform (enabledEntries platform p),
      t.Failed name) :
    Tracks platform (calls ++ [(.recordFailure p stage observedAt, o)]) t where
  kept key hfailed := by
    rcases failedSince_concat hfailed with ⟨p', _, _, hcall, ho, henables⟩ | ⟨hbefore, -⟩
    · obtain ⟨rfl, -, -⟩ := PatchCall.recordFailure.inj hcall
      exact hall ho _ ((mem_identities_enabledEntries p _).mpr ⟨key, henables, rfl⟩)
    · exact hadds.keeps _ (h.kept key hbefore)
  known name hname := by
    rcases hadds.only name hname with hbefore | hmem
    · obtain ⟨key, hkey, hfailed⟩ := h.known name hbefore
      exact ⟨key, hkey, hfailed.record p stage observedAt⟩
    · obtain ⟨key, henables, hkey⟩ := (mem_identities_enabledEntries p name).mp hmem
      refine ⟨key, hkey, calls, p, stage, observedAt, o, [], rfl, trivial, henables, ?_⟩
      exact fun q o' hmem => absurd hmem List.not_mem_nil

theorem Tracks.save {calls : List (PatchCall × Outcome IoError Unit)} {s t : FailureDisk}
    (h : Tracks platform calls s) {q : PatchPreferences} (o : Outcome IoError Unit)
    (hfree : ∀ key key', (∃ e ∈ calls, Names e.1.preferences key) → Names q key' →
      platform.digest key = platform.digest key' → key = key')
    (hremoves : Removes (identities platform (acknowledged platform q)) s t)
    (hall : Completed o → ∀ name ∈ identities platform (acknowledged platform q),
      ¬ t.Failed name) :
    Tracks platform (calls ++ [(.acknowledgeDisabled q, o)]) t where
  kept key hfailed := by
    rcases failedSince_concat hfailed with ⟨_, _, _, hcall, -⟩ | ⟨hbefore, hsave⟩
    · cases hcall
    · rcases hremoves.keeps _ (h.kept key hbefore) with hkept | hmem
      · exact hkept
      · obtain ⟨⟨entry, hentry, hdisabled, hname⟩, hnot⟩ :=
          (mem_identities_acknowledged q _).mp hmem
        have hkey : key = entry.key :=
          hfree key entry.key hbefore.named (Or.inl ⟨entry, hentry, rfl⟩) hname.symm
        refine absurd ⟨⟨entry, hentry, hdisabled, hkey.symm⟩, ?_⟩ (hsave q rfl trivial)
        exact fun henables => hnot ⟨key, henables, rfl⟩
  known name hname := by
    obtain ⟨key, hkey, hfailed⟩ := h.known name (hremoves.only name hname)
    refine ⟨key, hkey, hfailed.save fun ho hlists => ?_⟩
    obtain ⟨⟨entry, hentry, hdisabled, heq⟩, hnot⟩ := hlists
    refine hall ho name ((mem_identities_acknowledged q name).mpr ⟨⟨entry, hentry, hdisabled, ?_⟩,
      ?_⟩) hname
    · rw [← hkey, ← heq]
      rfl
    · rintro ⟨key', henables, hdigest⟩
      have hsame : key = key' :=
        hfree key key' hfailed.named henables.names (hkey.trans hdigest.symm)
      rw [← hsame] at henables
      exact hnot henables

theorem wp_tracks {calls : List (PatchCall × Outcome IoError Unit)} {s : FailureDisk}
    (h : Tracks platform calls s) (call : PatchCall)
    (hfree : ∀ key key', (∃ e ∈ calls, Names e.1.preferences key) →
      Names call.preferences key' → platform.digest key = platform.digest key' → key = key') :
    (call.program platform).wp (fun a t => Tracks platform (calls ++ [(call, .ok a)]) t)
      (fun e t => Tracks platform (calls ++ [(call, .error e)]) t)
      (fun t => Tracks platform (calls ++ [(call, .crash)]) t) s := by
  cases call with
  | recordFailure p stage observedAt =>
    refine wp_mono ?_ ?_ ?_ (wp_recordFailure p stage observedAt s)
    · rintro _ t ⟨hadds, hall⟩
      exact h.record stage observedAt _ hadds fun _ => hall
    · exact fun e t hadds => h.record stage observedAt _ hadds (by rintro ⟨⟩)
    · exact fun t hadds => h.record stage observedAt _ hadds (by rintro ⟨⟩)
  | acknowledgeDisabled q =>
    refine wp_mono ?_ ?_ ?_ (wp_acknowledgeDisabled q s)
    · rintro _ t ⟨hremoves, hall⟩
      exact h.save _ hfree hremoves fun _ => hall
    · exact fun e t hremoves => h.save _ hfree hremoves (by rintro ⟨⟩)
    · exact fun t hremoves => h.save _ hfree hremoves (by rintro ⟨⟩)

theorem tracks_finalState {cs : List (PatchCall × List Fault)} {start : FailureDisk}
    (hstart : ∀ name, start.files name = none)
    (hfree : CollisionFree platform (cs.map fun c => c.1.preferences)) :
    Tracks platform (Session.trace (PatchCall.program platform) cs start)
      (Session.finalState (PatchCall.program platform) cs start) := by
  have hnames : ∀ call, (∃ c ∈ cs, c.1 = call) →
      call.preferences ∈ cs.map fun c => c.1.preferences := by
    rintro call ⟨c, hc, rfl⟩
    exact List.mem_map_of_mem hc
  have hcall : ∀ call calls s, (∃ c ∈ cs, c.1 = call) →
      ((∀ e ∈ calls, ∃ c ∈ cs, c.1 = e.1) ∧ Tracks platform calls s) →
      (PatchCall.program platform call).wp
        (fun a t => (∀ e ∈ calls ++ [(call, .ok a)], ∃ c ∈ cs, c.1 = e.1) ∧
          Tracks platform (calls ++ [(call, .ok a)]) t)
        (fun e t => (∀ e' ∈ calls ++ [(call, .error e)], ∃ c ∈ cs, c.1 = e'.1) ∧
          Tracks platform (calls ++ [(call, .error e)]) t)
        (fun t => (∀ e ∈ calls ++ [(call, .crash)], ∃ c ∈ cs, c.1 = e.1) ∧
          Tracks platform (calls ++ [(call, .crash)]) t) s := by
    rintro call calls s hcall ⟨hfrom, htracks⟩
    have hfrom' : ∀ o, ∀ e ∈ calls ++ [(call, o)], ∃ c ∈ cs, c.1 = e.1 := by
      intro o e he
      rcases List.mem_append.mp he with he | he
      · exact hfrom e he
      · rw [List.mem_singleton.mp he]
        exact hcall
    refine wp_mono ?_ ?_ ?_ (wp_tracks htracks call ?_)
    · exact fun a t ht => ⟨hfrom' _, ht⟩
    · exact fun e t ht => ⟨hfrom' _, ht⟩
    · exact fun t ht => ⟨hfrom' _, ht⟩
    · rintro key key' ⟨e, he, hkey⟩ hkey'
      exact hfree _ (hnames _ (hfrom e he)) _ (hnames _ hcall) key key' hkey hkey'
  refine (Session.finalState_trace hcall cs [] start (fun c hc => ⟨c, hc, rfl⟩) ?_).2
  refine ⟨fun e he => absurd he List.not_mem_nil, fun key hfailed => ?_, fun name hname => ?_⟩
  · obtain ⟨e, he, -⟩ := hfailed.named
    exact absurd he List.not_mem_nil
  · exact absurd (hstart name) hname

theorem checkFailures_error_iff (r : PatchPreferences) (fs : List Fault) (s : FailureDisk) :
    (∃ e, ((checkFailures platform r).run fs s).1 = .error e) ↔
      ∃ key, Enables platform r key ∧ s.Failed (platform.digest key) := by
  have hkeys : (∃ name ∈ identities platform (enabledEntries platform r), s.Failed name) ↔
      ∃ key, Enables platform r key ∧ s.Failed (platform.digest key) := by
    constructor
    · rintro ⟨name, hname, hfailed⟩
      obtain ⟨key, henables, rfl⟩ := (mem_identities_enabledEntries r name).mp hname
      exact ⟨key, henables, hfailed⟩
    · rintro ⟨key, henables, hfailed⟩
      exact ⟨_, (mem_identities_enabledEntries r _).mpr ⟨key, henables, rfl⟩, hfailed⟩
  rw [← hkeys]
  have hrun := (wp_iff_run (checkFailures platform r) _ _ _ s).mp (wp_checkFailures r s) fs
  rcases hr : (checkFailures platform r).run fs s with ⟨_ | e | _, t⟩ <;> rw [hr] at hrun
  · refine iff_of_false (by rintro ⟨e, he⟩; cases he) ?_
    rintro ⟨name, hname, hfailed⟩
    exact hrun name hname hfailed
  · exact iff_of_true ⟨e, rfl⟩ hrun
  · exact absurd hrun not_false

/-- **A failed patch stays blocked until it is explicitly disabled.**  After any sequence of calls,
each of which may fail or stop anywhere:

* a launch is refused for a patch that it enables if a `record_failure` of it completed and no later
  save lists the patch as disabled and not enabled in any other way;
* a launch that is refused enables a patch with a `record_failure` that is later than every completed
  save of that kind;
* when all calls completed, a launch is refused exactly for such patches. -/
theorem checkFailures_refuses_iff {cs : List (PatchCall × List Fault)} {start : FailureDisk}
    (hstart : ∀ name, start.files name = none) {r : PatchPreferences}
    (hfree : CollisionFree platform (r :: cs.map fun c => c.1.preferences)) (fs : List Fault) :
    ((∃ key, Enables platform r key ∧ FailedSince platform Completed (fun _ => True)
        (Session.trace (PatchCall.program platform) cs start) key) →
      ∃ e, ((checkFailures platform r).run fs
        (Session.finalState (PatchCall.program platform) cs start)).1 = .error e) ∧
    ((∃ e, ((checkFailures platform r).run fs
        (Session.finalState (PatchCall.program platform) cs start)).1 = .error e) →
      ∃ key, Enables platform r key ∧ FailedSince platform (fun _ => True) Completed
        (Session.trace (PatchCall.program platform) cs start) key) ∧
    ((∀ e ∈ Session.trace (PatchCall.program platform) cs start, Completed e.2) →
      ((∃ e, ((checkFailures platform r).run fs
          (Session.finalState (PatchCall.program platform) cs start)).1 = .error e) ↔
        ∃ key, Enables platform r key ∧ FailedSince platform (fun _ => True) (fun _ => True)
          (Session.trace (PatchCall.program platform) cs start) key)) := by
  have hcalls : CollisionFree platform (cs.map fun c => c.1.preferences) := fun p hp p' hp' =>
    hfree p (List.mem_cons_of_mem _ hp) p' (List.mem_cons_of_mem _ hp')
  have htracks := tracks_finalState hstart hcalls
  have hrefused : (∃ key, Enables platform r key ∧ FailedSince platform Completed (fun _ => True)
      (Session.trace (PatchCall.program platform) cs start) key) →
      ∃ e, ((checkFailures platform r).run fs
        (Session.finalState (PatchCall.program platform) cs start)).1 = .error e := by
    rintro ⟨key, henables, hfailed⟩
    exact (checkFailures_error_iff r fs _).mpr ⟨key, henables, htracks.kept key hfailed⟩
  have hreason : (∃ e, ((checkFailures platform r).run fs
      (Session.finalState (PatchCall.program platform) cs start)).1 = .error e) →
      ∃ key, Enables platform r key ∧ FailedSince platform (fun _ => True) Completed
        (Session.trace (PatchCall.program platform) cs start) key := by
    intro herror
    obtain ⟨key, henables, hfailed⟩ := (checkFailures_error_iff r fs _).mp herror
    obtain ⟨key', hdigest, hsince⟩ := htracks.known _ hfailed
    obtain ⟨e, he, hnames⟩ := hsince.named
    have hmem : e.1.preferences ∈ r :: cs.map fun c => c.1.preferences := by
      have hfst : (Session.trace (PatchCall.program platform) cs start).map Prod.fst =
          cs.map Prod.fst := Session.map_fst_trace cs start
      have he' : e.1 ∈ cs.map Prod.fst := by
        rw [← hfst]
        exact List.mem_map_of_mem he
      obtain ⟨c, hc, hce⟩ := List.mem_map.mp he'
      rw [← hce]
      exact List.mem_cons_of_mem _ (List.mem_map.mpr ⟨c, hc, rfl⟩)
    obtain rfl := hfree _ hmem r List.mem_cons_self _ _ hnames henables.names hdigest
    exact ⟨key', henables, hsince⟩
  refine ⟨hrefused, hreason, fun hall => ⟨fun herror => ?_, ?_⟩⟩
  · obtain ⟨key, henables, hsince⟩ := hreason herror
    exact ⟨key, henables, hsince.mono (fun _ _ => id) fun e he _ => hall e he⟩
  · rintro ⟨key, henables, hsince⟩
    exact hrefused ⟨key, henables, hsince.mono (fun e he _ => hall e he) fun _ _ => id⟩

/-! ## A session -/

/-- `Path::file_name` of paths whose parts are separated by single slashes. -/
def slashFileName (path : String) : Option String :=
  some (String.ofList (path.toList.reverse.takeWhile (· ≠ '/')).reverse)

def samplePlatform : PatchPlatform :=
  ⟨slashFileName, fun key => key.source, fun _ observedAt => [UInt8.ofNat observedAt]⟩

def remoteEntry (enabled : Bool) : HarnessPatchEntry :=
  ⟨"https://example.com/a.yml", enabled, some "aa", none, none, none⟩

/-- The cached file is a launch path, and its entry is disabled. -/
def legacyPreferences : PatchPreferences :=
  ⟨some ["/nexus/patches/aa.yml"], some [remoteEntry false]⟩

/-- A failure of the remote patch, and a save that still enables it by its file. -/
def sampleCalls : List (PatchCall × List Fault) :=
  [(.recordFailure ⟨none, some [remoteEntry true]⟩ "download" 1, []),
    (.acknowledgeDisabled legacyPreferences, [])]

def emptyDisk : FailureDisk := ⟨.absent, fun _ => none⟩

theorem collisionFree_sample :
    CollisionFree samplePlatform (legacyPreferences :: sampleCalls.map fun c => c.1.preferences) := by
  have hkey : ∀ p ∈ legacyPreferences :: sampleCalls.map fun c => c.1.preferences, ∀ key,
      Names p key → key = ⟨key.source, none, none, none⟩ := by
    rintro p hp key (⟨entry, hentry, rfl⟩ | ⟨path, -, rfl⟩)
    · simp only [sampleCalls, List.map_cons, List.map_nil, PatchCall.preferences,
        List.mem_cons, List.not_mem_nil, or_false] at hp
      rcases hp with rfl | rfl | rfl <;>
      · rw [List.mem_singleton.mp hentry]
        rfl
    · rfl
  intro p hp p' hp' key key' hnames hnames' (hdigest : key.source = key'.source)
  rw [hkey p hp key hnames, hkey p' hp' key' hnames', hdigest]

/-- The save does not take the failure away, and the launch is refused. -/
theorem checkFailures_refuses_iff_of_legacyPath :
    ∃ e, ((checkFailures samplePlatform legacyPreferences).run []
      (Session.finalState (PatchCall.program samplePlatform) sampleCalls emptyDisk)).1 = .error e := by
  have hcached : Enables samplePlatform legacyPreferences (remoteEntry false).key :=
    .cached List.mem_cons_self List.mem_cons_self (by decide)
  refine (checkFailures_refuses_iff (fun _ => rfl) collisionFree_sample []).1
    ⟨_, hcached, [], ⟨none, some [remoteEntry true]⟩, "download", 1, .ok (),
      [(.acknowledgeDisabled legacyPreferences, .ok ())], rfl, rfl, ?_, ?_⟩
  · have henabled : Enables samplePlatform ⟨none, some [remoteEntry true]⟩ (remoteEntry true).key :=
      .entry List.mem_cons_self rfl
    exact henabled
  · intro q o hmem _ hlists
    obtain ⟨hcall, -⟩ := Prod.mk.inj (List.mem_singleton.mp hmem)
    rw [PatchCall.acknowledgeDisabled.inj hcall] at hlists
    exact hlists.2 hcached

end RuntimePatches
end DshNexus.Agent
