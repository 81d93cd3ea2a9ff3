import Mathlib
import DshNexus.Core.Io

/-!
# The snapshot store: policy, records and errors

`crates/nexus-snapshots/src/lib.rs`: the seven files that a snapshot may contain, the
manifest that describes them, and the errors of the store.  A SHA-256 digest is a value
of an arbitrary type `δ`: the code only compares digests.
-/

namespace DshNexus.Snapshot

inductive SnapshotError where
  | io (context : String)
  | invalidProfileName (name : String)
  | invalidIdentifier (id : String)
  | notFound (id : String)
  | invalidPath (path : String)
  | unsafePath (path : String)
  | oversized (path : String) (size limit : Nat)
  | capacity (message : String)
  | invalidManifest (message : String)
  | integrity (message : String)
  | invalidState (message : String)
  | concurrentModification (message : String)
  | structuredData (path message : String)
  deriving DecidableEq, Repr

inductive FileScope where
  | profile
  | home
  deriving DecidableEq, Repr

inductive StructuredFormat where
  | json
  | yaml
  deriving DecidableEq, Repr

structure SnapshotFilePolicy where
  manifestPath : String
  scope : FileScope
  maxBytes : Nat
  format : StructuredFormat
  deriving DecidableEq, Repr

abbrev FileIndex := Fin 7

instance fileIndexNeZero : NeZero 7 := ⟨by decide⟩

def FILE_POLICY : FileIndex → SnapshotFilePolicy
  | 0 => ⟨"profile/package.json", .profile, 1024 * 1024, .json⟩
  | 1 => ⟨"profile/pnpm-lock.yaml", .profile, 32 * 1024 * 1024, .yaml⟩
  | 2 => ⟨"profile/pnpm-workspace.yaml", .profile, 1024 * 1024, .yaml⟩
  | 3 => ⟨"profile/cordis.patch.yml", .profile, 1024 * 1024, .yaml⟩
  | 4 => ⟨"profile/.dsh-market/state.json", .profile, 1024 * 1024, .json⟩
  | 5 => ⟨"home/settings.yaml", .home, 4 * 1024 * 1024, .yaml⟩
  | 6 => ⟨"home/cordis.patch.yml", .home, 1024 * 1024, .yaml⟩

inductive SnapshotKind where
  | healthy
  | manual (label : Option String)
  deriving DecidableEq, Repr

inductive SnapshotFileState where
  | present
  | missing
  | omitted
  deriving DecidableEq, Repr

structure SnapshotFileRecord (δ : Type) where
  path : String
  scope : FileScope
  state : SnapshotFileState
  sourceSize : Nat
  storedSize : Nat
  sha256 : Option δ
  mode : Option Nat
  redactedPaths : List String
  omittedReason : Option String
  deriving DecidableEq, Repr

/-- `SnapshotManifest`, with one file record for each entry of the policy. -/
structure SnapshotManifest (δ : Type) where
  schema : Nat
  snapshotId : String
  createdUnixMs : Nat
  profileName : String
  kind : SnapshotKind
  dshVersion : String
  pluginCount : Nat
  fileCount : Nat
  totalBytes : Nat
  files : FileIndex → SnapshotFileRecord δ

/-- An ordinary file: its bytes and its permission mode. -/
structure StoredFile where
  bytes : Bytes
  mode : Nat
  deriving DecidableEq, Repr

/-- `read_regular_bounded` at a place that holds an ordinary file or nothing. -/
def readRegularBounded (path : String) (file : Option StoredFile) (limit : Nat) :
    Except SnapshotError (Option StoredFile) :=
  match file with
  | none => .ok none
  | some stored =>
      if stored.bytes.length > limit then .error (.oversized path stored.bytes.length limit)
      else .ok (some stored)

theorem readRegularBounded_eq_ok {path : String} {file result : Option StoredFile} {limit : Nat} :
    readRegularBounded path file limit = .ok result ↔
      result = file ∧ ∀ stored ∈ file, stored.bytes.length ≤ limit := by
  rcases file with _ | stored
  · simp [readRegularBounded, eq_comm]
  · simp only [readRegularBounded, Option.mem_some_iff, forall_eq']
    split
    · next h => exact ⟨fun e => (nomatch e), fun e => absurd e.2 (by omega)⟩
    · next h =>
      refine ⟨fun e => ⟨(Except.ok.inj e).symm, by omega⟩, fun e => ?_⟩
      rw [e.1]

end DshNexus.Snapshot
