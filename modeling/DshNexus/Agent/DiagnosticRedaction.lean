import DshNexus.Config.Document
import DshNexus.Core.Io
import DshNexus.Core.Text
import DshNexus.Core.Utf8
import DshNexus.Snapshot.Redaction

/-!
# Redaction of diagnostics

`redact_diagnostics_payload` of `crates/nexus-core/src/lib.rs`: what Nexus hides of a log or of a
report before it shows it.

1. `diagnosticsLineIsSensitive`, `diagnosticContainerDelta`: what a line tells.
2. `redactWord`: the URL of a word, without its user, its query and its fragment.
3. `redactDiagnosticText`: the lines of a text, with the state that goes from line to line.
4. `redactDiagnosticJson`, `redactDiagnosticsPayload`: documents, and the bytes of a payload.
-/

namespace DshNexus.Diagnostics

open Text Config Document Snapshot

/-! ## 1. Lines -/

/-- `str::contains`. -/
def containsText (needle text : List Char) : Bool := (splitAtText needle text).isSome

/-- `split_inclusive`: every part but the last ends with the separator, and no part is empty. -/
def splitInclusive (p : Char → Bool) : List Char → List (List Char)
  | [] => []
  | c :: cs =>
      if p c = true then [c] :: splitInclusive p cs
      else match splitInclusive p cs with
        | [] => [[c]]
        | part :: parts => (c :: part) :: parts

def trimEnd (text : List Char) : List Char := (text.reverse.dropWhile isWhitespace).reverse

def isAsciiWhitespace (c : Char) : Bool := [0x20, 0x9, 0xa, 0xc, 0xd].contains c.toNat

/-- The names that mark a line with `=` or `:` in it. -/
def sensitiveMarkers : List (List Char) :=
  ["password".toList, "passwd".toList, "secret".toList, "authorization".toList, "token".toList,
    "api_key".toList, "apikey".toList, "access_token".toList, "refresh_token".toList,
    "cookie".toList, "private_key".toList]

def diagnosticsLineIsSensitive (line : List Char) : Bool :=
  let lower := line.map Char.toLower
  containsText "bearer ".toList lower ||
    (lower.splitOnP isAsciiWhitespace).any (fun field => field = "token".toList) ||
    sensitiveMarkers.any fun marker =>
      containsText marker lower && (line.contains '=' || line.contains ':')

/-- Where a line stands while its brackets are counted. -/
structure ContainerScan where
  quoted : Bool
  escaped : Bool
  depth : Int

def scanContainer (scan : ContainerScan) (c : Char) : ContainerScan :=
  if scan.escaped = true then { scan with escaped := false }
  else if scan.quoted = true ∧ c.toNat = 0x5c then { scan with escaped := true }
  else if c.toNat = 0x22 then { scan with quoted := !scan.quoted }
  else if scan.quoted = true then scan
  else if c.toNat = 0x7b ∨ c = '[' then { scan with depth := scan.depth + 1 }
  else if c.toNat = 0x7d ∨ c = ']' then { scan with depth := scan.depth - 1 }
  else scan

def diagnosticContainerDelta (line : List Char) : Int :=
  (line.foldl scanContainer ⟨false, false, 0⟩).depth

/-! ## 2. Words -/

/-- The URL of a word without its user, its query and its fragment: the part before `://`, the host
and the path. -/
def safeUrl (trimmed : List Char) : Option (List Char) :=
  match splitAtText "://".toList trimmed with
  | none => none
  | some (scheme, rest) =>
      let base := rest.takeWhile fun c => c ≠ '?' ∧ c ≠ '#'
      let authority := base.takeWhile fun c => c ≠ '/'
      some (scheme ++ "://".toList ++ afterLast '@' authority ++ base.drop authority.length)

/-- What is shown of a word, and whether something of it is hidden. -/
def redactWord (word : List Char) : List Char × Bool :=
  let trimmed := trimEnd word
  match safeUrl trimmed with
  | none => (word, false)
  | some safe => (safe ++ word.drop trimmed.length, safe ≠ trimmed)

/-! ## 3. Texts -/

structure LineState where
  redacted : Bool
  privateKey : Bool
  continuation : Bool
  sensitiveDepth : Int
  output : List Char

def redactionMark : List Char := "[REDACTED]\n".toList

def pemStart (line : List Char) : Bool :=
  containsText "-----BEGIN".toList line && containsText "PRIVATE KEY-----".toList line

def hidesLine (state : LineState) (line : List Char) : Bool :=
  state.privateKey || pemStart line || state.continuation || diagnosticsLineIsSensitive line ||
    decide (0 < state.sensitiveDepth)

def shownLine (line : List Char) : List Char × Bool :=
  let words := (splitInclusive isWhitespace line).map redactWord
  (words.flatMap Prod.fst, words.any Prod.snd)

/-- One line of the loop of `redact_diagnostic_text`. -/
def redactLine (state : LineState) (line : List Char) : LineState :=
  if hidesLine state line = true then
    let sensitive := diagnosticsLineIsSensitive line
    let last := (trimEnd line).getLast?
    let opens := sensitive && (last == some (Char.ofNat 0x7b) || last == some '[')
    { redacted := true
      privateKey := (state.privateKey || pemStart line) && !containsText "-----END".toList line
      continuation := sensitive && last == some ':'
      sensitiveDepth :=
        if 0 < state.sensitiveDepth ∨ opens = true then
          max (state.sensitiveDepth + diagnosticContainerDelta line) 0
        else state.sensitiveDepth
      output := state.output ++ redactionMark }
  else
    { state with
      redacted := state.redacted || (shownLine line).2
      output := state.output ++ (shownLine line).1 }

def redactDiagnosticText (text : List Char) : List Char × Bool :=
  let state := (splitInclusive (fun c => c = '\n') text).foldl redactLine ⟨false, false, false, 0, []⟩
  (state.output, state.redacted)

/-! ## 4. Documents and payloads -/

/-- `serde_json`: the document of a text, and its printed form. -/
structure JsonCodec where
  parse : List Char → Option JsonValue
  pretty : JsonValue → Option (List Char)

def redactedScalar : JsonValue := .scalar (.text "[REDACTED]")

def hidesMember (key : String) : Bool :=
  diagnosticsLineIsSensitive (key.toList ++ [':']) || key.toList.map Char.toLower = "key".toList ||
    key = "system_prompt" || key ∈ ["args", "build_args", "verify_args"]

mutual

def redactDiagnosticJson : JsonValue → JsonValue × Bool
  | .scalar (.text value) =>
      let redacted := redactDiagnosticText value.toList
      if redacted.2 = true then (.scalar (.text (String.ofList redacted.1)), true)
      else (.scalar (.text value), false)
  | .scalar value => (.scalar value, false)
  | .sequence items =>
      let redacted := redactDiagnosticItems items
      (.sequence redacted.1, redacted.2)
  | .mapping members =>
      let redacted := redactDiagnosticMembers members
      (.mapping redacted.1, redacted.2)
  | .tagged tag _ => tag.elim

def redactDiagnosticItems : List JsonValue → List JsonValue × Bool
  | [] => ([], false)
  | item :: items =>
      let first := redactDiagnosticJson item
      let rest := redactDiagnosticItems items
      (first.1 :: rest.1, first.2 || rest.2)

def redactDiagnosticMembers : List (String × JsonValue) → List (String × JsonValue) × Bool
  | [] => ([], false)
  | (key, value) :: members =>
      let rest := redactDiagnosticMembers members
      if hidesMember key = true then ((key, redactedScalar) :: rest.1, true)
      else
        let first := redactDiagnosticJson value
        ((key, first.1) :: rest.1, first.2 || rest.2)

end

/-- Is the document an object or an array? -/
def isContainer : JsonValue → Bool
  | .mapping _ => true
  | .sequence _ => true
  | _ => false

def redactDiagnosticsPayload (json : JsonCodec) (payload : Bytes) : Bytes × Bool :=
  match Utf8.decode payload with
  | none => (Utf8.encode "[binary diagnostics payload omitted]\n".toList, true)
  | some text =>
      match (json.parse text).filter isContainer with
      | some value =>
          let redacted := redactDiagnosticJson value
          if redacted.2 = true then
            (Utf8.encode ((json.pretty redacted.1).getD "[REDACTED]".toList), true)
          else (payload, false)
      | none =>
          let redacted := redactDiagnosticText text
          (Utf8.encode redacted.1, redacted.2)

/-! ## 5. Texts that are shown as they are -/

theorem containsText_eq_false {needle text : List Char} {c : Char} (hc : c ∈ needle)
    (htext : c ∉ text) : containsText needle text = false := by
  unfold containsText
  cases hsplit : splitAtText needle text with
  | none => rfl
  | some parts =>
    refine absurd ?_ htext
    rw [splitAtText_eq_some hsplit]
    simp [hc]

theorem splitInclusive_of_none {p : Char → Bool} {text : List Char} (hne : text ≠ [])
    (h : ∀ c ∈ text, p c = false) : splitInclusive p text = [text] := by
  induction text with
  | nil => exact absurd rfl hne
  | cons c cs ih =>
    rw [splitInclusive, h c List.mem_cons_self, if_neg Bool.false_ne_true]
    cases cs with
    | nil => rfl
    | cons d ds => rw [ih (List.cons_ne_nil _ _) fun e he => h e (List.mem_cons_of_mem _ he)]

theorem trimEnd_of_none {text : List Char} (h : ∀ c ∈ text, isWhitespace c = false) :
    trimEnd text = text := by
  unfold trimEnd
  rw [List.dropWhile_eq_self_iff.mpr, List.reverse_reverse]
  intro hlength
  rw [h _ (List.mem_reverse.mp (List.getElem_mem hlength))]
  exact Bool.false_ne_true

def PlainChar (c : Char) : Prop :=
  isWhitespace c = false ∧ c ≠ ':' ∧ c ≠ '=' ∧ c ≠ '-' ∧ c.toLower ≠ 't' ∧
    isAsciiWhitespace c.toLower = false

theorem redactDiagnosticText_of_plain {text : List Char} (hne : text ≠ [])
    (h : ∀ c ∈ text, PlainChar c) : redactDiagnosticText text = (text, false) := by
  have hnot : ∀ c : Char, ¬ PlainChar c → c ∉ text := fun c hc hmem => hc (h c hmem)
  have hblank : ∀ c ∈ text.map Char.toLower, isAsciiWhitespace c = false := by
    intro d hd
    obtain ⟨c, hc, rfl⟩ := List.mem_map.mp hd
    exact (h c hc).2.2.2.2.2
  have hspace : ' ' ∉ text.map Char.toLower := fun hmem => absurd (hblank ' ' hmem) (by decide)
  have hfield : text.map Char.toLower ≠ "token".toList := by
    intro heq
    have hmem : 't' ∈ text.map Char.toLower := by
      rw [heq]
      decide
    obtain ⟨c, hc, hlower⟩ := List.mem_map.mp hmem
    exact (h c hc).2.2.2.2.1 hlower
  have hcolon : ':' ∉ text := hnot _ fun hc => hc.2.1 rfl
  have hequals : '=' ∉ text := hnot _ fun hc => hc.2.2.1 rfl
  have hdash : '-' ∉ text := hnot _ fun hc => hc.2.2.2.1 rfl
  have hbearer := containsText_eq_false (by decide : ' ' ∈ "bearer ".toList) hspace
  have hsensitive : diagnosticsLineIsSensitive text = false := by
    unfold diagnosticsLineIsSensitive
    simp only [List.splitOnP_eq_singleton hblank]
    simp [hcolon, hequals]
    exact ⟨hbearer, hfield⟩
  have hpem : pemStart text = false := by
    unfold pemStart
    rw [containsText_eq_false (by decide : '-' ∈ "-----BEGIN".toList) hdash, Bool.false_and]
  have hurl : safeUrl (trimEnd text) = none := by
    have hfind : splitAtText "://".toList text = none := by
      have hnone := containsText_eq_false (by decide : ':' ∈ "://".toList) hcolon
      unfold containsText at hnone
      rwa [Option.isSome_eq_false_iff, Option.isNone_iff_eq_none] at hnone
    rw [trimEnd_of_none fun c hc => (h c hc).1, safeUrl, hfind]
  have hlines : splitInclusive (fun c => decide (c = '\n')) text = [text] := by
    refine splitInclusive_of_none hne fun c hc => decide_eq_false ?_
    rintro rfl
    exact absurd (h _ hc).1 (by decide)
  have hwords : splitInclusive isWhitespace text = [text] :=
    splitInclusive_of_none hne fun c hc => (h c hc).1
  have hshown : shownLine text = (text, false) := by
    simp [shownLine, hwords, redactWord, hurl]
  have hhides : hidesLine ⟨false, false, false, 0, []⟩ text = false := by
    simp [hidesLine, hpem, hsensitive]
  unfold redactDiagnosticText
  rw [hlines, List.foldl_cons, List.foldl_nil, redactLine, hhides, if_neg Bool.false_ne_true]
  simp [hshown]

end DshNexus.Diagnostics
