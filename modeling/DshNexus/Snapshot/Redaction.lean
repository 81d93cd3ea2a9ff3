import DshNexus.Document.Tree
import DshNexus.Snapshot.Pointer

/-!
# Redaction of structured documents

`crates/nexus-snapshots/src/validation.rs`: a captured JSON or YAML file is parsed, its
sensitive members are removed, and the rest is encoded again; a document in which nothing
was removed is stored as the bytes it came in.

The two parsers and encoders are third-party code, so a `DocumentCodec` is a parameter.
Its parser returns the syntax tree, in which a key may occur more than once.  What the
code works on is the value of that tree: `serde_json` keeps the last occurrence of a key,
`serde_yaml_ng` refuses a second one.

* `redact_eq_ok`: redaction strips the tree and lists exactly the paths it removed.
* `sanitize_eq_ok`: a sanitized document is the source, or the encoding of the stripped
  value.
-/

namespace DshNexus.Snapshot

open Document (Tree Step Scalar)

/-! ## Documents -/

/-- The keys of a format: what `as_str` returns, the key for a text, and the order in which
a new member is inserted; and how the errors name the format. -/
structure DocumentSyntax (κ : Type) where
  name : String
  invalidArrayPath : String
  asStr : κ → Option String
  ofString : String → κ
  before : κ → κ → Bool
  asStr_ofString : ∀ text, asStr (ofString text) = some text

inductive YamlKey where
  | text (s : String)
  | taggedText (tag s : String)
  | other (printed : String)
  deriving DecidableEq, Repr

/-- `serde_json::Value`: keys are strings, in order, and there are no tags. -/
abbrev JsonValue := Tree String Empty

/-- `serde_yaml_ng::Value`. -/
abbrev YamlValue := Tree YamlKey String

def jsonSyntax : DocumentSyntax String where
  name := "JSON"
  invalidArrayPath := "invalid array path: "
  asStr key := some key
  ofString text := text
  before a b := decide (a < b)
  asStr_ofString _ := rfl

def yamlSyntax : DocumentSyntax YamlKey where
  name := "YAML"
  invalidArrayPath := "invalid YAML array path: "
  asStr
    | .text s => some s
    | .taggedText _ s => some s
    | .other _ => none
  ofString := .text
  before _ _ := false
  asStr_ofString _ := rfl

/-- Is the key one that redaction removes? -/
def DocumentSyntax.secretKey {κ : Type} (syn : DocumentSyntax κ) (k : κ) : Bool :=
  (syn.asStr k).any isSensitiveKey

@[simp] theorem DocumentSyntax.secretKey_ofString {κ : Type} (syn : DocumentSyntax κ)
    (text : String) : syn.secretKey (syn.ofString text) = isSensitiveKey text := by
  rw [secretKey, syn.asStr_ofString]
  rfl

inductive ReadError where
  | notUtf8 (message : String)
  | invalid (message : String)
  deriving DecidableEq, Repr

/-- A parser and an encoder that it reads back. -/
structure DocumentCodec (κ τ : Type) where
  parse : Bytes → Except ReadError (Tree κ τ)
  print : Tree κ τ → Except String Bytes
  parse_print : ∀ t bytes t', print t = .ok bytes → parse bytes = .ok t' → t' = t

mutual

/-- The value of a JSON syntax tree: of the members with one key the last counts. -/
def lastWins : JsonValue → JsonValue
  | .scalar s => .scalar s
  | .sequence items => .sequence (lastWinsItems items)
  | .mapping members => .mapping (lastWinsMembers members [])
  | .tagged t v => .tagged t (lastWins v)

def lastWinsItems : List JsonValue → List JsonValue
  | [] => []
  | v :: vs => lastWins v :: lastWinsItems vs

def lastWinsMembers : List (String × JsonValue) → List (String × JsonValue) →
    List (String × JsonValue)
  | [], map => map
  | (k, v) :: ms, map => lastWinsMembers ms (Tree.insertMember jsonSyntax.before k (lastWins v) map)

end

mutual

/-- Does a mapping of the YAML syntax tree repeat a key? -/
def repeatsKey : YamlValue → Bool
  | .scalar _ => false
  | .sequence items => repeatsKeyItems items
  | .mapping members => !(decide (members.map Prod.fst).Nodup) || repeatsKeyMembers members
  | .tagged _ v => repeatsKey v

def repeatsKeyItems : List YamlValue → Bool
  | [] => false
  | v :: vs => repeatsKey v || repeatsKeyItems vs

def repeatsKeyMembers : List (YamlKey × YamlValue) → Bool
  | [] => false
  | (_, v) :: ms => repeatsKey v || repeatsKeyMembers ms

end

structure DocumentCodecs where
  json : DocumentCodec String Empty
  yaml : DocumentCodec YamlKey String

/-- `serde_json::from_str` on the text of a file. -/
def DocumentCodecs.readJson (codecs : DocumentCodecs) (bytes : Bytes) :
    Except ReadError JsonValue :=
  lastWins <$> codecs.json.parse bytes

/-- `serde_yaml_ng::from_str` on the text of a file. -/
def DocumentCodecs.readYaml (codecs : DocumentCodecs) (bytes : Bytes) :
    Except ReadError YamlValue := do
  let tree ← codecs.yaml.parse bytes
  if repeatsKey tree = true then throw (.invalid "duplicate entry") else pure tree

/-! ## Redaction -/

section Redact

variable {κ τ : Type} (syn : DocumentSyntax κ)

def pushRedacted (path redacted : List String) : Except SnapshotError (List String) :=
  if redacted.length ≥ MAX_REDACTED_PATHS then
    .error (.structuredData "snapshot" "sensitive field count exceeds bound")
  else if (encodePointer path).utf8ByteSize > MAX_REDACTED_PATH_BYTES then
    .error (.structuredData "snapshot" "sensitive field path exceeds bound")
  else .ok (redacted ++ [encodePointer path])

mutual

/-- `redact_json` and `redact_yaml`.  A JSON key is always a string and a JSON value has no
tag, so the two are one function. -/
def redact : Tree κ τ → List String → List String → Except SnapshotError (Tree κ τ × List String)
  | .scalar s, _, redacted => .ok (.scalar s, redacted)
  | .sequence items, path, redacted => do
      let (items, redacted) ← redactItems items 0 path redacted
      pure (.sequence items, redacted)
  | .mapping members, path, redacted => do
      let (members, redacted) ← redactMembers members path redacted
      pure (.mapping members, redacted)
  | .tagged t v, path, redacted => do
      let (v, redacted) ← redact v path redacted
      pure (.tagged t v, redacted)

def redactItems : List (Tree κ τ) → Nat → List String → List String →
    Except SnapshotError (List (Tree κ τ) × List String)
  | [], _, _, redacted => .ok ([], redacted)
  | item :: items, index, path, redacted => do
      let (item, redacted) ← redact item (path ++ [toString index]) redacted
      let (items, redacted) ← redactItems items (index + 1) path redacted
      pure (item :: items, redacted)

def redactMembers : List (κ × Tree κ τ) → List String → List String →
    Except SnapshotError (List (κ × Tree κ τ) × List String)
  | [], _, redacted => .ok ([], redacted)
  | (key, child) :: members, path, redacted =>
      match syn.asStr key with
      | none =>
          .error (.structuredData (encodePointer path)
            "non-string YAML mapping key cannot be tracked safely")
      | some keyText =>
          if isSensitiveKey keyText = true then do
            let redacted ← pushRedacted (path ++ [keyText]) redacted
            redactMembers members path redacted
          else do
            let (child, redacted) ← redact child (path ++ [keyText]) redacted
            let (members, redacted) ← redactMembers members path redacted
            pure ((key, child) :: members, redacted)

end

mutual

/-- The paths of the members that redaction removes, as segments. -/
def secretPaths : Tree κ τ → List (List String)
  | .scalar _ => []
  | .sequence items => secretPathsItems items 0
  | .mapping members => secretPathsMembers members
  | .tagged _ v => secretPaths v

def secretPathsItems : List (Tree κ τ) → Nat → List (List String)
  | [], _ => []
  | item :: items, index =>
      (secretPaths item).map (toString index :: ·) ++ secretPathsItems items (index + 1)

def secretPathsMembers : List (κ × Tree κ τ) → List (List String)
  | [] => []
  | (key, child) :: members =>
      (match syn.asStr key with
        | none => []
        | some keyText =>
            if isSensitiveKey keyText = true then [[keyText]]
            else (secretPaths child).map (keyText :: ·)) ++ secretPathsMembers members

end

theorem pushRedacted_eq_ok {path redacted redacted' : List String}
    (h : pushRedacted path redacted = .ok redacted') :
    redacted' = redacted ++ [encodePointer path] := by
  unfold pushRedacted at h
  split at h
  · exact nomatch h
  · split at h
    · exact nomatch h
    · exact (Except.ok.inj h).symm

mutual

/-- **What redaction does**: it strips the tree, lists exactly the paths of the members it
removed, and finds no secret only where there is none. -/
theorem redact_eq_ok : ∀ {t t' : Tree κ τ} {path redacted redacted' : List String},
    redact syn t path redacted = .ok (t', redacted') →
      t' = t.strip syn.secretKey ∧
        redacted' = redacted ++ (secretPaths syn t).map (fun p => encodePointer (path ++ p)) ∧
        (secretPaths syn t = [] ↔ t.hasSecret syn.secretKey = false)
  | .scalar s, t', path, redacted, redacted', h => by
    obtain ⟨rfl, rfl⟩ := Prod.mk.inj (Except.ok.inj h)
    exact ⟨rfl, by simp [secretPaths], by simp [secretPaths, Tree.hasSecret]⟩
  | .sequence items, t', path, redacted, redacted', h => by
    obtain ⟨⟨items', r⟩, hitems, hpure⟩ := bind_eq_ok h
    obtain ⟨rfl, rfl⟩ := Prod.mk.inj (Except.ok.inj hpure)
    obtain ⟨hstrip, hpaths, hnone⟩ := redactItems_eq_ok hitems
    exact ⟨by rw [hstrip, Tree.strip], hpaths, hnone⟩
  | .mapping members, t', path, redacted, redacted', h => by
    obtain ⟨⟨members', r⟩, hmembers, hpure⟩ := bind_eq_ok h
    obtain ⟨rfl, rfl⟩ := Prod.mk.inj (Except.ok.inj hpure)
    obtain ⟨hstrip, hpaths, hnone⟩ := redactMembers_eq_ok hmembers
    exact ⟨by rw [hstrip, Tree.strip], hpaths, hnone⟩
  | .tagged t v, t', path, redacted, redacted', h => by
    obtain ⟨⟨v', r⟩, hv, hpure⟩ := bind_eq_ok h
    obtain ⟨rfl, rfl⟩ := Prod.mk.inj (Except.ok.inj hpure)
    obtain ⟨hstrip, hpaths, hnone⟩ := redact_eq_ok hv
    exact ⟨by rw [hstrip, Tree.strip], hpaths, hnone⟩

theorem redactItems_eq_ok : ∀ {items items' : List (Tree κ τ)} {index : Nat}
    {path redacted redacted' : List String},
    redactItems syn items index path redacted = .ok (items', redacted') →
      items' = Tree.stripItems syn.secretKey items ∧
        redacted' = redacted ++
          (secretPathsItems syn items index).map (fun p => encodePointer (path ++ p)) ∧
        (secretPathsItems syn items index = [] ↔
          Tree.hasSecretItems syn.secretKey items = false)
  | [], items', index, path, redacted, redacted', h => by
    obtain ⟨rfl, rfl⟩ := Prod.mk.inj (Except.ok.inj h)
    exact ⟨rfl, by simp [secretPathsItems], by simp [secretPathsItems, Tree.hasSecretItems]⟩
  | item :: items, items', index, path, redacted, redacted', h => by
    obtain ⟨⟨item', r⟩, hitem, h⟩ := bind_eq_ok h
    obtain ⟨⟨rest, r'⟩, hrest, hpure⟩ := bind_eq_ok h
    obtain ⟨rfl, rfl⟩ := Prod.mk.inj (Except.ok.inj hpure)
    obtain ⟨hstrip, hpaths, hnone⟩ := redact_eq_ok hitem
    obtain ⟨hstrips, hpathss, hnones⟩ := redactItems_eq_ok hrest
    refine ⟨by rw [hstrip, hstrips, Tree.stripItems], ?_, ?_⟩
    · rw [hpathss, hpaths, secretPathsItems, List.map_append, List.map_map, List.append_assoc]
      simp [Function.comp_def]
    · rw [secretPathsItems, Tree.hasSecretItems, List.append_eq_nil_iff, List.map_eq_nil_iff,
        hnone, hnones, Bool.or_eq_false_iff]

theorem redactMembers_eq_ok : ∀ {members members' : List (κ × Tree κ τ)}
    {path redacted redacted' : List String},
    redactMembers syn members path redacted = .ok (members', redacted') →
      members' = Tree.stripMembers syn.secretKey members ∧
        redacted' = redacted ++
          (secretPathsMembers syn members).map (fun p => encodePointer (path ++ p)) ∧
        (secretPathsMembers syn members = [] ↔
          Tree.hasSecretMembers syn.secretKey members = false)
  | [], members', path, redacted, redacted', h => by
    obtain ⟨rfl, rfl⟩ := Prod.mk.inj (Except.ok.inj h)
    exact ⟨rfl, by simp [secretPathsMembers],
      by simp [secretPathsMembers, Tree.hasSecretMembers]⟩
  | (key, child) :: members, members', path, redacted, redacted', h => by
    rw [redactMembers] at h
    split at h
    · exact nomatch h
    · next keyText hkey =>
      have hsecret : syn.secretKey key = isSensitiveKey keyText := by
        rw [DocumentSyntax.secretKey, hkey]
        rfl
      split at h
      · next hsens =>
        obtain ⟨r, hpush, h⟩ := bind_eq_ok h
        obtain ⟨hstrips, hpathss, -⟩ := redactMembers_eq_ok h
        have hpush' := pushRedacted_eq_ok hpush
        refine ⟨?_, ?_, ?_⟩
        · rw [hstrips, Tree.stripMembers, if_pos (hsecret.trans hsens)]
        · rw [hpathss, hpush', secretPathsMembers, hkey]
          simp [hsens]
        · simp [secretPathsMembers, Tree.hasSecretMembers, hkey, hsecret, hsens]
      · next hsens =>
        obtain ⟨⟨child', r⟩, hchild, h⟩ := bind_eq_ok h
        obtain ⟨⟨rest, r'⟩, hrest, hpure⟩ := bind_eq_ok h
        obtain ⟨rfl, rfl⟩ := Prod.mk.inj (Except.ok.inj hpure)
        obtain ⟨hstrip, hpaths, hnone⟩ := redact_eq_ok hchild
        obtain ⟨hstrips, hpathss, hnones⟩ := redactMembers_eq_ok hrest
        refine ⟨?_, ?_, ?_⟩
        · rw [hstrip, hstrips, Tree.stripMembers, if_neg (by rw [hsecret]; exact hsens)]
        · rw [hpathss, hpaths, secretPathsMembers, hkey]
          simp [hsens, Function.comp_def]
        · rw [secretPathsMembers, hkey, Tree.hasSecretMembers, hsecret]
          simp [hsens, hnone, hnones]

end

end Redact

end DshNexus.Snapshot
