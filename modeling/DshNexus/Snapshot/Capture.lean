import DshNexus.Snapshot.Redaction

/-!
# Capture of a policy file

`crates/nexus-snapshots/src/validation.rs`: `sanitize_structured` and
`capture_allowed_file`.

* `sanitizeDocument_eq_ok`: a sanitized document is the source where nothing was removed,
  and the encoding of the stripped value elsewhere.
* `captureAllowedFile_holdsNoSecret_iff`: when the stored bytes hold no secret.
-/

namespace DshNexus.Snapshot

open Document (Tree Step Scalar)

def MAX_OMISSION_REASON_BYTES : Nat := 512

structure SanitizedContent where
  bytes : Bytes
  redactedPaths : List String
  deriving DecidableEq, Repr

section Sanitize

variable {κ τ : Type}

/-- The two branches of `sanitize_structured`, for the reader and the encoder of a format. -/
def sanitizeDocument (syn : DocumentSyntax κ)
    (read : Bytes → Except ReadError (Tree κ τ)) (print : Tree κ τ → Except String Bytes)
    (bytes : Bytes) (displayPath : String) : Except SnapshotError SanitizedContent :=
  match read bytes with
  | .error (.notUtf8 message) =>
      .error (.structuredData displayPath ("content is not UTF-8: " ++ message))
  | .error (.invalid message) =>
      .error (.structuredData displayPath ("invalid " ++ syn.name ++ ": " ++ message))
  | .ok value => do
      let (value, redacted) ← redact syn value [] []
      if redacted.isEmpty = true then pure ⟨bytes, redacted⟩
      else
        match print value with
        | .ok output => pure ⟨output, redacted⟩
        | .error message =>
            .error (.structuredData displayPath
              ("cannot encode redacted " ++ syn.name ++ ": " ++ message))

/-- **What sanitizing does.**  The listed paths are those of the secrets of the value.
Without any the source is kept, and it is a document without secret; otherwise the stripped
value is encoded. -/
theorem sanitizeDocument_eq_ok {syn : DocumentSyntax κ}
    {read : Bytes → Except ReadError (Tree κ τ)} {print : Tree κ τ → Except String Bytes}
    {bytes : Bytes} {displayPath : String} {sanitized : SanitizedContent}
    (h : sanitizeDocument syn read print bytes displayPath = .ok sanitized) :
    ∃ value, read bytes = .ok value ∧
      sanitized.redactedPaths = (secretPaths syn value).map encodePointer ∧
      (secretPaths syn value = [] ↔ value.hasSecret syn.secretKey = false) ∧
      (secretPaths syn value = [] ∧ sanitized.bytes = bytes ∨
        secretPaths syn value ≠ [] ∧
          print (value.strip syn.secretKey) = .ok sanitized.bytes) := by
  unfold sanitizeDocument at h
  split at h
  · exact nomatch h
  · exact nomatch h
  · next value hvalue =>
    obtain ⟨⟨value', redacted⟩, hredact, h⟩ := bind_eq_ok h
    obtain ⟨hstrip, hpaths, hnone⟩ := redact_eq_ok syn hredact
    simp only [List.nil_append] at hpaths
    refine ⟨value, hvalue, ?_⟩
    simp only at h
    split at h
    · next hempty =>
      obtain rfl := Except.ok.inj h
      rw [List.isEmpty_iff, hpaths, List.map_eq_nil_iff] at hempty
      exact ⟨hpaths, hnone, Or.inl ⟨hempty, rfl⟩⟩
    · next hempty =>
      rw [List.isEmpty_iff, hpaths, List.map_eq_nil_iff] at hempty
      split at h
      · next output hprint =>
        obtain rfl := Except.ok.inj h
        exact ⟨hpaths, hnone, Or.inr ⟨hempty, hstrip ▸ hprint⟩⟩
      · exact nomatch h

end Sanitize

variable (codecs : DocumentCodecs)

def sanitizeStructured (format : StructuredFormat) (bytes : Bytes) (displayPath : String) :
    Except SnapshotError SanitizedContent :=
  match format with
  | .json =>
      sanitizeDocument jsonSyntax codecs.readJson codecs.json.print bytes displayPath
  | .yaml =>
      sanitizeDocument yamlSyntax codecs.readYaml codecs.yaml.print bytes displayPath

/-- The characters that fit into a number of bytes. -/
def takeBytes : Nat → List Char → List Char
  | _, [] => []
  | limit, c :: cs => if c.utf8Size ≤ limit then c :: takeBytes (limit - c.utf8Size) cs else []

def truncateString (value : String) (maxBytes : Nat) : String :=
  if value.utf8ByteSize ≤ maxBytes then value else String.ofList (takeBytes maxBytes value.toList)

structure CapturedAllowedFile (δ : Type) where
  record : SnapshotFileRecord δ
  bytes : Option Bytes
  storedSize : Nat

def omissionReason : SnapshotError → String
  | .structuredData _ message =>
      if "invalid JSON".toList.isPrefixOf message.toList = true then
        "invalid JSON; file omitted to avoid unsafe byte copying"
      else if "invalid YAML".toList.isPrefixOf message.toList = true then
        "invalid YAML; file omitted to avoid unsafe byte copying"
      else "structured redaction failed; file omitted to avoid unsafe byte copying"
  | _ => "structured redaction failed; file omitted to avoid unsafe byte copying"

def captureAllowedFile {δ : Type} (sha256Hex : Bytes → δ) (path : String)
    (file : Option StoredFile) (policy : SnapshotFilePolicy) :
    Except SnapshotError (CapturedAllowedFile δ) := do
  match ← readRegularBounded path file policy.maxBytes with
  | none =>
      pure ⟨⟨policy.manifestPath, policy.scope, .missing, 0, 0, none, none, [], none⟩, none, 0⟩
  | some source =>
      match sanitizeStructured codecs policy.format source.bytes policy.manifestPath with
      | .error error =>
          let reason := truncateString (omissionReason error) MAX_OMISSION_REASON_BYTES
          pure ⟨⟨policy.manifestPath, policy.scope, .omitted, source.bytes.length, 0, none,
            some source.mode, [], some reason⟩, none, 0⟩
      | .ok sanitized =>
          let size := sanitized.bytes.length
          if size > policy.maxBytes then .error (.oversized policy.manifestPath size policy.maxBytes)
          else
            pure ⟨⟨policy.manifestPath, policy.scope, .present, source.bytes.length, size,
              some (sha256Hex sanitized.bytes), some source.mode, sanitized.redactedPaths, none⟩,
              some sanitized.bytes, size⟩

/-! ## Secrets in the stored bytes -/

/-- The text holds a sensitive member, at some depth and in some occurrence. -/
def HoldsSecret (format : StructuredFormat) (bytes : Bytes) : Prop :=
  match format with
  | .json => ∃ tree, codecs.json.parse bytes = .ok tree ∧
      tree.hasSecret jsonSyntax.secretKey = true
  | .yaml => ∃ tree, codecs.yaml.parse bytes = .ok tree ∧
      tree.hasSecret yamlSyntax.secretKey = true

/-- A sensitive member of the JSON text survives the last-wins reading. -/
def SecretSurvivesReading (bytes : Bytes) : Prop :=
  ∃ value, codecs.readJson bytes = .ok value ∧ value.hasSecret jsonSyntax.secretKey = true

theorem hasSecretMembers_insertMember {secret : String → Bool} {before : String → String → Bool}
    {k : String} {v : JsonValue} {map : List (String × JsonValue)}
    (hk : secret k = false) (hv : v.hasSecret secret = false)
    (hmap : Tree.hasSecretMembers secret map = false) :
    Tree.hasSecretMembers secret (Tree.insertMember before k v map) = false := by
  induction map with
  | nil => simp [Tree.insertMember, Tree.hasSecretMembers, hk, hv]
  | cons m map ih =>
    obtain ⟨j, w⟩ := m
    rw [Tree.hasSecretMembers, Bool.or_eq_false_iff, Bool.or_eq_false_iff] at hmap
    obtain ⟨⟨hj, hw⟩, hrest⟩ := hmap
    rw [Tree.insertMember]
    split
    · simp [Tree.hasSecretMembers, hk, hv, hrest]
    · split
      · simp [Tree.hasSecretMembers, hk, hv, hj, hw, hrest]
      · simp [Tree.hasSecretMembers, hj, hw, ih hrest]

mutual

theorem hasSecret_lastWins {secret : String → Bool} : ∀ t : JsonValue,
    t.hasSecret secret = false → (lastWins t).hasSecret secret = false
  | .scalar _, _ => rfl
  | .sequence items, h => hasSecretItems_lastWins items h
  | .mapping members, h => hasSecretMembers_lastWins members [] h rfl
  | .tagged tag _, _ => nomatch tag

theorem hasSecretItems_lastWins {secret : String → Bool} : ∀ vs : List JsonValue,
    Tree.hasSecretItems secret vs = false → Tree.hasSecretItems secret (lastWinsItems vs) = false
  | [], _ => rfl
  | v :: vs, h => by
    rw [Tree.hasSecretItems, Bool.or_eq_false_iff] at h
    rw [lastWinsItems, Tree.hasSecretItems, hasSecret_lastWins v h.1,
      hasSecretItems_lastWins vs h.2]
    rfl

theorem hasSecretMembers_lastWins {secret : String → Bool} :
    ∀ ms map : List (String × JsonValue), Tree.hasSecretMembers secret ms = false →
      Tree.hasSecretMembers secret map = false →
        Tree.hasSecretMembers secret (lastWinsMembers ms map) = false
  | [], _, _, hmap => hmap
  | (k, v) :: ms, map, h, hmap => by
    rw [Tree.hasSecretMembers, Bool.or_eq_false_iff, Bool.or_eq_false_iff] at h
    exact hasSecretMembers_lastWins ms _ h.2
      (hasSecretMembers_insertMember h.1.1 (hasSecret_lastWins v h.1.2) hmap)

end

theorem captureAllowedFile_bytes {δ : Type} {sha256Hex : Bytes → δ} {path : String}
    {file : Option StoredFile} {policy : SnapshotFilePolicy} {captured : CapturedAllowedFile δ}
    {stored : Bytes} (h : captureAllowedFile codecs sha256Hex path file policy = .ok captured)
    (hstored : captured.bytes = some stored) :
    ∃ source sanitized, file = some source ∧ stored = sanitized.bytes ∧
      sanitizeStructured codecs policy.format source.bytes policy.manifestPath = .ok sanitized := by
  obtain ⟨read, hread, hmatch⟩ := bind_eq_ok h
  obtain ⟨rfl, -⟩ := readRegularBounded_eq_ok.mp hread
  rcases read with _ | source
  · obtain rfl := Except.ok.inj hmatch
    exact absurd hstored (by simp)
  · dsimp only at hmatch
    split at hmatch
    · obtain rfl := Except.ok.inj hmatch
      exact absurd hstored (by simp)
    · next sanitized hsanitized =>
      split at hmatch
      · exact nomatch hmatch
      · obtain rfl := Except.ok.inj hmatch
        exact ⟨source, sanitized, rfl, (Option.some.inj hstored).symm, hsanitized⟩

theorem not_holdsSecret_yaml {bytes : Bytes} {displayPath : String} {sanitized : SanitizedContent}
    (h : sanitizeStructured codecs .yaml bytes displayPath = .ok sanitized) :
    ¬ HoldsSecret codecs .yaml sanitized.bytes := by
  obtain ⟨value, hvalue, -, hnone, hbytes⟩ := sanitizeDocument_eq_ok h
  obtain ⟨tree, hparse, hread⟩ := bind_eq_ok hvalue
  split at hread
  · exact nomatch hread
  · obtain rfl := Except.ok.inj hread
    rintro ⟨tree', hparse', hsecret⟩
    rcases hbytes with ⟨hempty, hsource⟩ | ⟨-, hprint⟩
    · rw [hsource, hparse] at hparse'
      rw [← Except.ok.inj hparse', hnone.mp hempty] at hsecret
      exact absurd hsecret (by simp)
    · rw [codecs.yaml.parse_print _ _ _ hprint hparse', Tree.hasSecret_strip] at hsecret
      exact absurd hsecret (by simp)

theorem not_holdsSecret_json_iff {bytes : Bytes} {displayPath : String}
    {sanitized : SanitizedContent}
    (h : sanitizeStructured codecs .json bytes displayPath = .ok sanitized) :
    ¬ HoldsSecret codecs .json sanitized.bytes ↔
      ¬ HoldsSecret codecs .json bytes ∨ SecretSurvivesReading codecs bytes := by
  obtain ⟨value, hvalue, -, hnone, hbytes⟩ := sanitizeDocument_eq_ok h
  rcases hbytes with ⟨hempty, hsource⟩ | ⟨hsome, hprint⟩
  · rw [hsource]
    refine ⟨Or.inl, fun hor => hor.resolve_right ?_⟩
    rintro ⟨value', hvalue', hsecret⟩
    rw [hvalue] at hvalue'
    rw [← Except.ok.inj hvalue', hnone.mp hempty] at hsecret
    exact absurd hsecret (by simp)
  · refine iff_of_true ?_ (Or.inr ⟨value, hvalue, ?_⟩)
    · rintro ⟨tree, hparse, hsecret⟩
      rw [codecs.json.parse_print _ _ _ hprint hparse, Tree.hasSecret_strip] at hsecret
      exact absurd hsecret (by simp)
    · rw [← Bool.not_eq_false, ← hnone]
      exact hsome

/-- **When captured bytes hold no secret**: always in YAML, and in JSON if and only if the
source has no sensitive member or one of them survives the last-wins reading. -/
theorem captureAllowedFile_holdsNoSecret_iff {δ : Type} (sha256Hex : Bytes → δ) (path : String)
    (source : StoredFile) (policy : SnapshotFilePolicy) (captured : CapturedAllowedFile δ)
    (stored : Bytes)
    (h : captureAllowedFile codecs sha256Hex path (some source) policy = .ok captured)
    (hstored : captured.bytes = some stored) :
    ¬ HoldsSecret codecs policy.format stored ↔
      policy.format = .yaml ∨ ¬ HoldsSecret codecs .json source.bytes ∨
        SecretSurvivesReading codecs source.bytes := by
  obtain ⟨source', sanitized, hsource, rfl, hsanitized⟩ :=
    captureAllowedFile_bytes codecs h hstored
  obtain rfl := Option.some.inj hsource
  cases hformat : policy.format with
  | yaml =>
    rw [hformat] at hsanitized
    exact iff_of_true (not_holdsSecret_yaml codecs hsanitized) (Or.inl rfl)
  | json =>
    rw [hformat] at hsanitized
    rw [not_holdsSecret_json_iff codecs hsanitized]
    simp

/-! ## Three JSON texts -/

def ascii (text : String) : Bytes := text.toList.map fun c => UInt8.ofNat c.toNat

/-- A text whose only sensitive member is shadowed by a later member with the same key. -/
def shadowedText : Bytes := ascii "\x7b\"a\":\x7b\"token\":\"x\"\x7d,\"a\":1\x7d"

/-- A text with one sensitive member, and the same text without it. -/
def plainText : Bytes := ascii "\x7b\"b\":1,\"token\":\"x\"\x7d"

def strippedText : Bytes := ascii "\x7b\n  \"b\": 1\n\x7d"

def strippedTree : JsonValue := .mapping [("b", .scalar (.number "1"))]

/-- What the JSON parser and encoder do on the three texts. -/
def sampleJson : DocumentCodec String Empty where
  parse bytes :=
    if bytes = shadowedText then
      .ok (.mapping [("a", .mapping [("token", .scalar (.text "x"))]), ("a", .scalar (.number "1"))])
    else if bytes = plainText then
      .ok (.mapping [("b", .scalar (.number "1")), ("token", .scalar (.text "x"))])
    else if bytes = strippedText then .ok strippedTree
    else .error (.invalid "expected value at line 1 column 1")
  print
    | .mapping [("b", .scalar (.number "1"))] => .ok strippedText
    | _ => .error "not one of the texts"
  parse_print t bytes t' hprint hparse := by
    split at hprint
    · rw [← Except.ok.inj hprint] at hparse
      exact (Except.ok.inj hparse).symm
    · exact nomatch hprint

def sampleCodecs : DocumentCodecs where
  json := sampleJson
  yaml :=
    { parse := fun _ => .error (.invalid "did not find expected node content")
      print := fun _ => .error "not one of the texts"
      parse_print := fun _ _ _ h => nomatch h }

/-- The member is removed, and the stored text is free of secrets. -/
theorem captureAllowedFile_plainText : ¬ HoldsSecret sampleCodecs .json strippedText := by
  have h := captureAllowedFile_holdsNoSecret_iff sampleCodecs id "package.json"
    ⟨plainText, 0o600⟩ (FILE_POLICY 0)
    ⟨⟨"profile/package.json", .profile, .present, plainText.length, strippedText.length,
      some strippedText, some 0o600, ["/token"], none⟩, some strippedText, strippedText.length⟩
    strippedText rfl rfl
  exact h.mpr (Or.inr (Or.inr ⟨_, rfl, rfl⟩))

/-- A shadowed member is stored. -/
theorem captureAllowedFile_shadowedText :
    ∃ captured stored, captureAllowedFile sampleCodecs id "package.json"
        (some ⟨shadowedText, 0o600⟩) (FILE_POLICY 0) = .ok captured ∧
      captured.bytes = some stored ∧ HoldsSecret sampleCodecs (FILE_POLICY 0).format stored :=
  ⟨_, shadowedText, rfl, rfl, _, rfl, rfl⟩

end DshNexus.Snapshot
