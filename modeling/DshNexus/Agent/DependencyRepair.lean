import DshNexus.Agent.PluginIsolation
import DshNexus.Core.FileTree

/-!
# Repair of missing dependency links

`crates/nexus-agent/src/dependency_repair.rs`: a release has importers, which are packages that
name what they depend on, and a lockfile that selects a version for each name.  A preview looks for
names that are missing from an importer's `node_modules`, and for a local package that is what the
lockfile selects.  A repair previews, keeps a record, previews again, and then creates one link
after the other.

1. Names and texts of paths.
2. The preview.
3. The record, the links, and `applyScoped`.
-/

namespace DshNexus.Agent.Dependencies

open Durable Document Snapshot Plugins

/-! ## 1. Paths -/

def invalid (message : String) : IoError := invalidData message

/-- What the operating system says of a path that has no place. -/
def walkFailed : WalkError → IoError
  | .notFound => ⟨.notFound, "No such file or directory"⟩
  | .notADirectory => ⟨.other, "Not a directory"⟩
  | .tooManyLinks => ⟨.other, "Too many levels of symbolic links"⟩

/-- The parts of a text between slashes. -/
def parts (value : String) : List String := (value.toList.splitOn '/').map String.ofList

/-- A part that `relative` refuses. -/
def refusedPart (part : String) : Bool :=
  part.isEmpty || part.toList.getLast? = some '.' || part.toList.getLast? = some ' '

def Hop.normal : Hop → Option String
  | .name text => some text
  | .here => none
  | .up => none

def relative (value : String) : Except IoError Place :=
  if value.isEmpty ∨ value.toList.contains '\\' ∨ value.toList.contains ':' ∨
      (parts value).any refusedPart then .error (invalid "Invalid dependency path")
  else
    match (Route.parse value).hops.mapM Hop.normal with
    | some names =>
        if (Route.parse value).absolute then
          .error (invalid "Dependency path escapes the release")
        else .ok names
    | none => .error (invalid "Dependency path escapes the release")

def packageCharacter (c : Char) : Bool := c.isAlphanum || ['@', '/', '-', '_', '.'].contains c

/-- One part without a scope, or a scope and a part. -/
def packageShape (name : String) : Bool :=
  match parts name with
  | [part] => part.toList.head? ≠ some '@'
  | [scope, _] => scope.toList.head? = some '@' && decide (scope.utf8ByteSize > 1)
  | _ => false

def packagePath (name : String) : Except IoError Place :=
  if packageShape name = false ∨ name.toList.all packageCharacter = false then
    .error (invalid "Invalid dependency package name")
  else relative name

/-- A dependency that is missing, or that is a link to nothing. -/
structure DependencyEntry where
  importer : String
  package : String
  destination : Place
  target : Option Place
  reason : String
  deriving DecidableEq, Repr

structure DependencyPreview where
  root : Place
  fingerprint : String
  entries : List DependencyEntry
  deriving DecidableEq, Repr

/-- The parsers, the hash in lower-case hexadecimal digits, the encoder of a list of entries, and
how many links the system follows on one path. -/
structure RepairEnv where
  parseYaml : Bytes → Except IoError JsonValue
  parseJson : Bytes → Except IoError JsonValue
  sha256 : Bytes → String
  toLowercase : String → String
  encodeEntries : List DependencyEntry → Bytes
  links : Nat
  links_pos : 0 < links

def bounded (env : RepairEnv) (t : FileTree Bytes) (file : Place) (limit : Nat) :
    Except IoError Bytes :=
  match t.lookup env.links file with
  | .error error => .error (walkFailed error)
  | .ok (.file bytes) =>
      if bytes.length > limit then .error (invalid "Dependency metadata is too large")
      else .ok bytes
  | .ok .directory => .error (invalid "Dependency metadata must be an ordinary file")
  | .ok (.link _) => .error (invalid "Dependency metadata must be an ordinary file")

/-- The loop of `ordinary_ancestors`. -/
def ordinaryBelow (env : RepairEnv) (t : FileTree Bytes) : Place → List String → Except IoError Unit
  | _, [] => .ok ()
  | cursor, part :: rest =>
      match t.lookup env.links (cursor ++ [part]) with
      | .ok .directory => ordinaryBelow env t (cursor ++ [part]) rest
      | .ok (.file _) => .error (invalid "Dependency parent is not an ordinary directory")
      | .ok (.link _) => .error (invalid "Dependency parent is not an ordinary directory")
      | .error .notFound => ordinaryBelow env t (cursor ++ [part]) rest
      | .error .notADirectory => .error (walkFailed .notADirectory)
      | .error .tooManyLinks => .error (walkFailed .tooManyLinks)

def ordinaryAncestors (env : RepairEnv) (t : FileTree Bytes) (root path : Place) :
    Except IoError Unit :=
  if root.isPrefixOf path then ordinaryBelow env t root (path.drop root.length)
  else .error (invalid "Path outside release")

def canonicalize (env : RepairEnv) (t : FileTree Bytes) (route : List Hop) :
    Except IoError Place :=
  match t.resolve env.links [] route with
  | .ok place => .ok place
  | .error error => .error (walkFailed error)

/-! ## 2. The preview -/

def selectedVersion (spec : JsonValue) (name : String) : Option String :=
  ["dependencies", "devDependencies", "optionalDependencies"].findSome? fun part =>
    (((member spec part).bind fun deps => member deps name).bind fun dep =>
      member dep "version").bind asStr

/-- `strip_prefix("link:")`. -/
def linkText (version : String) : Option String :=
  if "link:".toList.isPrefixOf version.toList then
    some (String.ofList (version.toList.drop "link:".length))
  else none

/-- `replace(")(", "_")`. -/
def replaceJoints : List Char → List Char
  | ')' :: '(' :: rest => '_' :: replaceJoints rest
  | c :: rest => c :: replaceJoints rest
  | [] => []

/-- `strip_suffix(')')`. -/
def stripClosing (text : List Char) : List Char :=
  if text.getLast? = some ')' then text.dropLast else text

/-- The name of a package's directory in the store, before it is shortened. -/
def fullStoreName (name version : String) : String :=
  String.ofList ((name.toList.map fun c => if c = '/' then '+' else c) ++ '@' ::
    (replaceJoints (stripClosing version.toList)).map fun c =>
      if c = '(' ∨ c = ')' then '_' else c)

def storeName (env : RepairEnv) (limit : Option Nat) (name version : String) : String :=
  let store := fullStoreName name version
  match limit with
  | none => store
  | some limit =>
      if store.utf8ByteSize > limit ∨ store ≠ env.toLowercase store then
        String.ofList (store.toList.take (limit - 33)) ++ "_" ++
          String.ofList ((env.sha256 store.toUTF8.data.toList).toList.take 32)
      else store

/-- Where the package that a version selects may be. -/
def candidate (env : RepairEnv) (root base : Place) (limit : Option Nat) (name version : String)
    (package : Place) : Except IoError (List Hop) :=
  match linkText version with
  | some text =>
      let link := Route.parse text
      .ok (if link.absolute then link.hops else FileTree.hopsTo base ++ link.hops)
  | none => do
      let store ← relative (storeName env limit name version)
      pure (FileTree.hopsTo (root ++ "node_modules" :: ".pnpm" :: store ++
        "node_modules" :: package))

/-- `version.split('(').next()`. -/
def expectedVersion (version : String) : String :=
  String.ofList (version.toList.takeWhile fun c => c ≠ '(')

/-- The manifest of a package says that it is the one that was selected. -/
def carries (name version : String) (metadata : JsonValue) : Bool :=
  (member metadata "name").bind asStr = some name &&
    ((linkText version).isSome || (member metadata "version").bind asStr =
      some (expectedVersion version))

/-- What the fingerprint is taken of, and the entries so far. -/
structure PreviewProgress where
  identity : Bytes
  entries : List DependencyEntry
  deriving DecidableEq, Repr

/-- A peer dependency that may be missing at startup. -/
def optionalPeer (manifest : JsonValue) (name : String) : Bool :=
  ((((member manifest "peerDependenciesMeta").bind fun flags => member flags name).bind fun flag =>
    member flag "optional").any fun
      | .scalar (.bool true) => true
      | _ => false) &&
  ((member manifest "dependencies").bind fun deps => member deps name).isNone

/-- An entry that has a version: its target, if there is one, and the manifest that was read. -/
def findTarget (env : RepairEnv) (t : FileTree Bytes) (root base : Place) (limit : Option Nat)
    (name version : String) (package : Place) : Except IoError (Option Place × String × Bytes) := do
  let route ← candidate env root base limit name version package
  match canonicalize env t route with
  | .error _ => pure (none, "local_package_missing", [])
  | .ok target =>
      if root.isPrefixOf target = false then throw (invalid "Dependency target escapes release")
      let bytes ← bounded env t (target ++ ["package.json"]) (2 * 1024 * 1024)
      let metadata ← env.parseJson bytes
      pure (if carries name version metadata then (some target, "missing_link", bytes)
        else (none, "local_package_identity_mismatch", bytes))

def previewDependency (env : RepairEnv) (t : FileTree Bytes) (root : Place) (startup : Bool)
    (limit : Option Nat) (importer : String) (spec : JsonValue) (base : Place)
    (manifest : JsonValue) (progress : PreviewProgress) (name : String) :
    Except IoError PreviewProgress := do
  if startup && optionalPeer manifest name then pure progress
  else if progress.entries.length ≥ 10000 then throw (invalid "Too many missing dependencies")
  else
    let package ← packagePath name
    let destination := base ++ "node_modules" :: package
    ordinaryAncestors env t root destination.dropLast
    match t.lookup env.links destination with
    | .ok .directory => pure progress
    | .ok (.file _) =>
        if startup then throw (invalid
          ("Startup dependency conflicts with an existing file: " ++ importer ++ ": " ++ name))
        else pure progress
    | .ok (.link _) =>
        match canonicalize env t (FileTree.hopsTo destination) with
        | .ok _ => pure progress
        | .error _ => pure { progress with entries := progress.entries ++
            [⟨importer, name, destination, none, "existing_broken_link"⟩] }
    | .error .notFound =>
        match selectedVersion spec name with
        | none => pure { progress with entries := progress.entries ++
            [⟨importer, name, destination, none, "lock_entry_missing"⟩] }
        | some version =>
            let (target, reason, bytes) ← findTarget env t root base limit name version package
            pure ⟨progress.identity ++ bytes, progress.entries ++
              [⟨importer, name, destination, target, reason⟩]⟩
    | .error .notADirectory => throw (walkFailed .notADirectory)
    | .error .tooManyLinks => throw (walkFailed .tooManyLinks)

def keysOf (value : Option JsonValue) : List String :=
  match value with
  | some (.mapping members) => members.map Prod.fst
  | _ => []

/-- The names that an importer requires, in order. -/
def required (manifest : JsonValue) : List String :=
  ((keysOf (member manifest "dependencies") ++ keysOf (member manifest "peerDependencies")).insertionSort
    (· ≤ ·)).dedup

def importerBase (root : Place) (importer : String) : Except IoError Place :=
  if importer = "." then .ok root else return root ++ (← relative importer)

/-- The importers that a startup looks at. -/
def officialImporter (importer : String) : Bool :=
  "packages/".toList.isPrefixOf importer.toList || "vendor/".toList.isPrefixOf importer.toList ||
    importer = "apps/cli" || importer = "apps/desktop"

def previewImporter (env : RepairEnv) (t : FileTree Bytes) (root : Place) (startup : Bool)
    (limit : Option Nat) (progress : PreviewProgress) (importer : String × JsonValue) :
    Except IoError PreviewProgress := do
  if startup && !officialImporter importer.1 then pure progress
  else
    let base ← importerBase root importer.1
    ordinaryAncestors env t root base
    let bytes ← bounded env t (base ++ ["package.json"]) (2 * 1024 * 1024)
    let manifest ← env.parseJson bytes
    (required manifest).foldlM
      (previewDependency env t root startup limit importer.1 importer.2 base manifest)
      { progress with
        identity := progress.identity ++ importer.1.toUTF8.data.toList ++ bytes }

def lockImporters (lock : JsonValue) : Except IoError (List (String × JsonValue)) :=
  match member lock "importers" with
  | some (.mapping importers) => .ok importers
  | _ => .error (invalid "Missing lockfile importers")

/-- The limit on names in the store, by the record of the package manager. -/
def storeLimit (modules : JsonValue) : Option Nat :=
  if ((member modules "packageManager").bind asStr).any
      fun text => "pnpm@11.".toList.isPrefixOf text.toList then
    ((member modules "virtualStoreDirMaxLength").bind asU64).filter fun limit =>
      34 ≤ limit && limit ≤ 255
  else none

/-- The record of the package manager: its bytes, and the limit. -/
def readModules (env : RepairEnv) (t : FileTree Bytes) (root : Place) :
    Except IoError (Bytes × Option Nat) := do
  let modules := root ++ ["node_modules", ".modules.yaml"]
  match canonicalize env t (FileTree.hopsTo modules) with
  | .error _ => pure ([], none)
  | .ok _ =>
      let bytes ← bounded env t modules (16 * 1024 * 1024)
      let value ← env.parseYaml bytes
      pure (bytes, storeLimit value)

def previewScoped (env : RepairEnv) (root : Route) (startup : Bool) (t : FileTree Bytes) :
    Except IoError DependencyPreview := do
  let root ← canonicalize env t root.hops
  let lockBytes ← bounded env t (root ++ ["pnpm-lock.yaml"]) (16 * 1024 * 1024)
  let lock ← env.parseYaml lockBytes
  let importers ← lockImporters lock
  if importers.length > 4096 then throw (invalid "Too many workspace importers")
  let (modules, limit) ← readModules env t root
  let progress ← importers.foldlM (previewImporter env t root startup limit) ⟨lockBytes ++ modules, []⟩
  pure ⟨root, env.sha256 (progress.identity ++ env.encodeEntries progress.entries),
    progress.entries⟩

/-! ## 3. The repair -/

inductive RecordFile where
  | plan (preview : DependencyPreview)
  | bytes (content : Bytes)
  | manifests (values : List (String × JsonValue))
  | progress (repaired : List Place)
  | report (phase : String) (repaired : List Place) (error verificationError : Option String)
      (preview : Option DependencyPreview)

/-- The file system that has the release, and the records of repairs by their names. -/
structure RepairStore where
  tree : FileTree Bytes
  rounds : String → Option (String → Option RecordFile)

namespace RepairStore

def putRound (round : String) (s : RepairStore) : RepairStore :=
  { s with rounds := Function.update s.rounds round (some fun _ => none) }

def putFile (round file : String) (content : RecordFile) (s : RepairStore) : RepairStore :=
  { s with
    rounds := Function.update s.rounds round
      ((s.rounds round).map fun files => Function.update files file (some content)) }

def add (p : Place) (name : String) (new : Node Bytes) (s : RepairStore) : RepairStore :=
  { s with tree := s.tree.add p name new }

end RepairStore

/-- A call: the name of its record, and what the creation of the directory of records comes to. -/
structure RepairCall where
  round : String
  history : Except IoError Unit

/-- `fs::create_dir` of the record. -/
def createRound (round : String) : Program RepairStore IoError Unit := do
  if ((← Program.read).rounds round).isSome then throw ⟨.alreadyExists, "File exists"⟩
  else Program.durable fileOperationFailed (RepairStore.putRound round)

/-- `write`, which replaces a file of the record. -/
def writeRecord (round file : String) (content : RecordFile) : Program RepairStore IoError Unit :=
  Program.durable fileOperationFailed (RepairStore.putFile round file content)

/-- `mkdir` and `symlink`: a new node at a place whose parent is reached through links. -/
def create (env : RepairEnv) (parent : Place) (name : String) (new : Node Bytes) :
    Program RepairStore IoError Unit := do
  let s ← Program.read
  match s.tree.resolve env.links [] (FileTree.hopsTo parent) with
  | .error error => throw (walkFailed error)
  | .ok real =>
      if s.tree.isDirectory real = false then throw (walkFailed .notADirectory)
      else if (s.tree.node (real ++ [name])).isSome then throw ⟨.alreadyExists, "File exists"⟩
      else Program.durable fileOperationFailed (RepairStore.add real name new)

def isDir (env : RepairEnv) (t : FileTree Bytes) (p : Place) : Bool :=
  match t.resolve env.links [] (FileTree.hopsTo p) with
  | .ok real => t.isDirectory real
  | .error _ => false

/-- One directory of `fs::create_dir_all`. -/
def createOne (env : RepairEnv) (parent : Place) (name : String) :
    Program RepairStore IoError Unit := do
  if isDir env (← Program.read).tree (parent ++ [name]) then pure ()
  else
    tryCatch (create env parent name .directory) fun error => do
      if isDir env (← Program.read).tree (parent ++ [name]) then pure () else throw error

/-- `fs::create_dir_all`, from the top. -/
def createBelow (env : RepairEnv) : Place → List String → Program RepairStore IoError Unit
  | _, [] => pure ()
  | cursor, part :: rest => do
      createOne env cursor part
      createBelow env (cursor ++ [part]) rest

def createMissingModuleLink (env : RepairEnv) (destination target : Place) :
    Program RepairStore IoError Unit := do
  let target ← Program.inspect fun s => canonicalize env s.tree (FileTree.hopsTo target)
  if (← Program.read).tree.isDirectory target = false then
    throw (invalid "Module target is not a directory")
  else
    create env destination.dropLast (destination.getLast?.getD "")
      (.link ⟨true, FileTree.hopsTo target⟩)

/-- The creation of one link, between two checks of what it is reached through. -/
def repairLink (env : RepairEnv) (root destination target : Place) :
    Program RepairStore IoError Unit := do
  Program.inspect fun s => ordinaryAncestors env s.tree root destination.dropLast
  createBelow env root (destination.dropLast.drop root.length)
  Program.inspect fun s => ordinaryAncestors env s.tree root destination.dropLast
  createMissingModuleLink env destination target

/-- The links one after the other: those that were created, and the error that ended it. -/
def repairLinks (env : RepairEnv) (root : Place) (round : String) :
    List (Place × Place) → List Place → Program RepairStore IoError (List Place × Option IoError)
  | [], repaired => pure (repaired, none)
  | (destination, target) :: rest, repaired => do
      match ← Program.toExcept (repairLink env root destination target) with
      | .error error => pure (repaired, some error)
      | .ok () =>
          match ← Program.toExcept
              (writeRecord round "result.json" (.progress (repaired ++ [destination]))) with
          | .error error => pure (repaired ++ [destination], some error)
          | .ok () => repairLinks env root round rest (repaired ++ [destination])

def candidates (plan : DependencyPreview) : List DependencyEntry :=
  plan.entries.filter fun entry => entry.target.isSome

/-- The manifests of the importers that a repair is for. -/
def readManifests (env : RepairEnv) (plan : DependencyPreview) (t : FileTree Bytes) :
    Except IoError (List (String × JsonValue)) :=
  (candidates plan).mapM fun entry => do
    let base ← importerBase plan.root entry.importer
    let bytes ← bounded env t (base ++ ["package.json"]) (2 * 1024 * 1024)
    return (entry.importer, ← env.parseJson bytes)

structure RepairReport where
  phase : String
  repaired : List Place
  error : Option String
  verificationError : Option String
  preview : Option DependencyPreview

/-- The record of the package manager is kept, if there is one. -/
def saveModules (env : RepairEnv) (root : Place) (round : String) :
    Program RepairStore IoError Unit := do
  let modules := root ++ ["node_modules", ".modules.yaml"]
  match canonicalize env (← Program.read).tree (FileTree.hopsTo modules) with
  | .error _ => pure ()
  | .ok _ =>
      let bytes ← Program.inspect fun s => bounded env s.tree modules (16 * 1024 * 1024)
      writeRecord round "modules.yaml" (.bytes bytes)

/-- The first half: the record of what will be done, and the second preview. -/
def saveRecord (env : RepairEnv) (plan : DependencyPreview) (call : RepairCall) (startup : Bool) :
    Program RepairStore IoError Unit := do
  Program.ofExcept call.history
  createRound call.round
  writeRecord call.round "plan.json" (.plan plan)
  let lock ← Program.inspect fun s =>
    bounded env s.tree (plan.root ++ ["pnpm-lock.yaml"]) (16 * 1024 * 1024)
  writeRecord call.round "pnpm-lock.yaml" (.bytes lock)
  saveModules env plan.root call.round
  let manifests ← Program.inspect fun s => readManifests env plan s.tree
  writeRecord call.round "manifests.json" (.manifests manifests)
  let again ← Program.inspect fun s =>
    previewScoped env ⟨true, FileTree.hopsTo plan.root⟩ startup s.tree
  if again.fingerprint ≠ plan.fingerprint then
    throw ⟨.wouldBlock, "Dependency inputs changed while saving the repair record; inspect again"⟩
  else pure ()

/-- The links that were created resolve to the targets of the plan. -/
def verifyLinks (env : RepairEnv) (plan : DependencyPreview) (repaired : List Place)
    (t : FileTree Bytes) : Bool :=
  repaired.all fun destination =>
    (plan.entries.find? fun entry => entry.destination = destination).any fun entry =>
      (match canonicalize env t (FileTree.hopsTo destination) with
        | .ok place => some place
        | .error _ => none) = entry.target

def applyScoped (env : RepairEnv) (root : Route) (expected : String) (call : RepairCall)
    (startup : Bool) : Program RepairStore IoError RepairReport := do
  let plan ← Program.inspect fun s => previewScoped env root startup s.tree
  if expected ≠ plan.fingerprint then
    throw ⟨.wouldBlock, "Dependency preview changed; inspect again before repairing"⟩
  else if (candidates plan).isEmpty then throw (invalid "No verified missing links to repair")
  else
    saveRecord env plan call startup
    let (repaired, error) ← repairLinks env plan.root call.round
      ((candidates plan).filterMap fun entry => entry.target.map fun target =>
        (entry.destination, target)) []
    let s ← Program.read
    let after := previewScoped env ⟨true, FileTree.hopsTo plan.root⟩ startup s.tree
    let verified := error.isNone && after.isOk && verifyLinks env plan repaired s.tree
    let report : RepairReport := ⟨if verified then "repaired" else "incomplete", repaired,
      error.map IoError.message,
      match after with
      | .ok _ => none
      | .error error => some error.message,
      after.toOption⟩
    writeRecord call.round "result.json" (.report report.phase report.repaired report.error
      report.verificationError report.preview)
    pure report

end DshNexus.Agent.Dependencies
