import DshNexus.Agent.ConfigDisplay
import DshNexus.Core.Io
import DshNexus.Core.JsText
import DshNexus.Core.Words

/-!
# Saving an unedited Harness configuration

The Harness configuration is shown and saved through four conversions: `to_payload` and the
redaction of `config_response` write the response, `harnessDraftFromConfig` of
`apps/nexus-launcher/src/harness-config.ts` turns it into the text fields of the editor,
`harnessConfigPayloadFromDraft` turns these into a payload, and `from_payload` decodes it.

1. Texts: `trim` and `split` of the editor.
2. `HarnessLaunchSpec`, its `validate`, `toPayload` and `fromPayload`.
3. The response, the draft, and the payload of the draft.
4. `fromPayload_toPayload`: the Agent's own two conversions lose nothing.
5. What the draft keeps of the arguments: `argumentsOf_join`.
6. What is decoded from the payload of an unedited draft.
7. `saves_unedited_iff`: a save without an edit changes nothing exactly if no text of the
   specification is empty or padded.
-/

namespace DshNexus.HarnessConfig

open Agent.ConfigDisplay

/-! ## 1. Texts -/

abbrev Value := List Char

def isJsWhiteSpace (c : Char) : Bool := isWhiteSpaceCode c.toNat

/-- `String.prototype.trim`. -/
def trim (text : Value) : Value :=
  ((text.dropWhile isJsWhiteSpace).reverse.dropWhile isJsWhiteSpace).reverse

/-- `split(/\r?\n/)`. -/
def splitLines : Value → List Value
  | [] => [[]]
  | '\r' :: '\n' :: text => [] :: splitLines text
  | c :: text =>
      if c = '\n' then [] :: splitLines text else (splitLines text).modifyHead (c :: ·)

/-- `join("\n")`. -/
def joinLines : List Value → Value
  | [] => []
  | [line] => line
  | line :: lines => line ++ '\n' :: joinLines lines

/-- `String::len`. -/
def byteLength (text : Value) : Nat := (String.ofList text).utf8ByteSize

/-- `Number` of a text of decimal digits; the timeout of an unedited draft is no other text. -/
def number (text : Value) : Option Nat :=
  if text.all Char.isDigit then some (digitsValue text) else none

/-! ## 2. The launch specification -/

def MAX_UPDATE_SOURCE_LEN : Nat := 2048
def MAX_UPDATE_TEXT_LEN : Nat := 4096

/-- An error of kind `InvalidInput`. -/
def invalidInput (message : String) : IoError := ⟨.invalidInput, message⟩

inductive HarnessLaunchMode where
  | direct
  | node
  deriving DecidableEq, Repr

/-- `HarnessLaunchSpec`.  The paths of a configuration file are texts. -/
structure HarnessLaunchSpec where
  mode : HarnessLaunchMode
  program : Value
  args : List Value
  workingDir : Option Value
  readinessUrl : Option Value
  readinessTimeoutSecs : Option Nat
  readinessTokenRequired : Bool
  deriving DecidableEq

structure HarnessConfigPayload where
  mode : HarnessLaunchMode
  program : Value
  args : List Value
  argsAreAdditional : Bool
  entry : Option Value
  workingDir : Option Value
  readinessUrl : Option Value
  readinessTimeoutSecs : Option Nat
  readinessTokenRequired : Bool
  deriving DecidableEq

/-- `Path::file_name`: the last component, which is no `.`, if it is not `..`. -/
def fileName (path : Value) : Option Value :=
  match ((path.splitOn '/').filter fun part => part ≠ [] ∧ part ≠ ['.']).getLast? with
  | some part => if part = ['.', '.'] then none else some part
  | none => none

def harnessProgramIsNodeRuntime (program : Value) : Bool :=
  match fileName program with
  | none => false
  | some name =>
      ["node", "node.exe", "nodejs", "nodejs.exe"].contains (String.ofList (name.map Char.toLower))

def validateLaunchArgs (args : List Value) (label : String) : Except IoError Unit := do
  if args.length > 128 then
    throw (invalidInput (label ++ " contain too many entries"))
  if args.any fun argument =>
      decide (byteLength argument > MAX_UPDATE_TEXT_LEN) || argument.any isControl then
    throw (invalidInput (label ++ " contain an invalid entry"))

/-- The checks of `validate` on the program and on the entry script. -/
def validateProgram (spec : HarnessLaunchSpec) : Except IoError Unit := do
  if spec.program = [] ∨ spec.program.any isControl = true then
    throw (invalidInput "Harness program must be non-empty and contain no control characters")
  if spec.mode = .node ∧ harnessProgramIsNodeRuntime spec.program = false then
    throw (invalidInput "Harness node launch mode requires a node runtime program")
  if spec.mode = .node ∧ (spec.args.head?.map List.isEmpty).getD true = true then
    throw (invalidInput "Harness node launch mode requires an entry script")

/-- The checks of `validate` on the readiness target. -/
def validateReadiness (spec : HarnessLaunchSpec) : Except IoError Unit := do
  if spec.readinessUrl.any (fun url =>
      url.isEmpty || decide (byteLength url > MAX_UPDATE_SOURCE_LEN) || url.any isControl) then
    throw (invalidInput
      "Harness readiness_url is empty, too long, or contains a control character")
  if spec.readinessTimeoutSecs.any (fun timeout => timeout == 0 || decide (timeout > 86400)) then
    throw (invalidInput "Harness readiness timeout must be between 1 and 86400 seconds")
  if spec.readinessTokenRequired = true ∧ spec.readinessUrl = none then
    throw (invalidInput "Harness token-bound readiness requires a readiness URL")

def validate (spec : HarnessLaunchSpec) : Except IoError Unit := do
  validateProgram spec
  if spec.workingDir.any (fun workingDir => workingDir.any isControl) then
    throw (invalidInput "Harness working_dir contains a control character")
  validateLaunchArgs spec.args "Harness arguments"
  validateReadiness spec

def toPayload (spec : HarnessLaunchSpec) : HarnessConfigPayload where
  mode := spec.mode
  program := spec.program
  args :=
    match spec.mode with
    | .node => spec.args.drop 1
    | .direct => spec.args
  argsAreAdditional := decide (spec.mode = .node)
  entry :=
    match spec.mode with
    | .node => spec.args.head?
    | .direct => none
  workingDir := spec.workingDir
  readinessUrl := spec.readinessUrl
  readinessTimeoutSecs := spec.readinessTimeoutSecs
  readinessTokenRequired := spec.readinessTokenRequired

/-- The arguments of `from_payload` in node mode: a separate entry goes before them. -/
def nodeArgs (payload : HarnessConfigPayload) : Except IoError (List Value) := do
  let (entry, entryWasSeparate) ←
    match payload.entry with
    | some entry => pure (entry, true)
    | none =>
        match payload.args.head? with
        | some entry => pure (entry, false)
        | none => throw (invalidInput "Harness node launch mode requires an entry script")
  if entry = [] ∨ entry.any isControl = true then
    throw (invalidInput "Harness node entry must be non-empty and contain no control characters")
  if entryWasSeparate = true ∧
      (payload.argsAreAdditional = true ∨ payload.args.head? ≠ some entry) then
    pure (entry :: payload.args)
  else
    pure payload.args

/-- The arguments of `from_payload`. -/
def specArgs (payload : HarnessConfigPayload) : Except IoError (List Value) :=
  match payload.mode with
  | .node => nodeArgs payload
  | .direct => pure payload.args

def fromPayload (payload : HarnessConfigPayload) : Except IoError HarnessLaunchSpec := do
  if payload.mode = .direct ∧ payload.entry.isSome = true then
    throw (invalidInput "Harness entry is only valid for node launch mode")
  let args ← specArgs payload
  let spec : HarnessLaunchSpec :=
    { mode := payload.mode, program := payload.program, args := args,
      workingDir := payload.workingDir, readinessUrl := payload.readinessUrl,
      readinessTimeoutSecs := payload.readinessTimeoutSecs,
      readinessTokenRequired := payload.readinessTokenRequired }
  validate spec
  pure spec

/-! ## 3. The editor -/

/-- The fields of the configuration response that the editor reads. -/
structure ConfigResponse where
  harness : HarnessConfigPayload
  harnessReadinessUrlRedacted : Bool
  deriving DecidableEq

/-- `config_response`, of a configured Harness. -/
def configResponse (spec : HarnessLaunchSpec) : ConfigResponse :=
  let payload := toPayload spec
  let shown := redactConfigUrl (payload.readinessUrl.map String.ofList)
  { harness :=
      { payload with
        args := (redactConfigArgs (payload.args.map String.ofList)).map String.toList
        readinessUrl := shown.map String.toList }
    harnessReadinessUrlRedacted :=
      spec.readinessUrl.any fun url => shown ≠ some (String.ofList url) }

structure HarnessConfigDraft where
  mode : HarnessLaunchMode
  program : Value
  entry : Value
  args : Value
  workingDir : Value
  readinessUrl : Value
  timeout : Value
  readinessTokenRequired : Bool
  readinessUrlRedacted : Bool
  argsRedacted : Bool
  replaceRedactedArgs : Bool

/-- `stringValue` of a text field: a blank one counts as absent. -/
def stringValue (item : Option Value) : Option Value := item.filter fun text => trim text ≠ []

def harnessDraftFromConfig (config : ConfigResponse) : HarnessConfigDraft :=
  let harness := config.harness
  let configuredEntry := (stringValue harness.entry).getD []
  { mode := harness.mode
    program := (stringValue (some harness.program)).getD []
    entry :=
      match harness.mode with
      | .node => if configuredEntry ≠ [] then configuredEntry else harness.args.head?.getD []
      | .direct => []
    args :=
      joinLines
        (if harness.mode = .node ∧ configuredEntry = [] then harness.args.drop 1 else harness.args)
    workingDir := (stringValue harness.workingDir).getD []
    readinessUrl := (stringValue harness.readinessUrl).getD []
    timeout := (harness.readinessTimeoutSecs.map (Nat.toDigits 10)).getD []
    readinessTokenRequired := harness.readinessTokenRequired
    readinessUrlRedacted := config.harnessReadinessUrlRedacted
    argsRedacted := harness.args.any fun item => decide (REDACTED.toList <:+: item)
    replaceRedactedArgs := false }

/-- `value.trim() || null`. -/
def textOrNull (text : Value) : Option Value := if trim text = [] then none else some (trim text)

/-- The arguments in the text of a draft: a line each, trimmed, without the empty ones. -/
def argumentsOf (text : Value) : List Value :=
  ((splitLines text).map trim).filter fun value => value ≠ []

def harnessConfigPayloadFromDraft (draft : HarnessConfigDraft) : HarnessConfigPayload where
  mode := draft.mode
  program := trim draft.program
  entry := if draft.mode = .node then some (trim draft.entry) else none
  args := argumentsOf draft.args
  argsAreAdditional := decide (draft.mode = .node)
  workingDir := textOrNull draft.workingDir
  readinessUrl := textOrNull draft.readinessUrl
  readinessTimeoutSecs := (textOrNull draft.timeout).bind number
  readinessTokenRequired := draft.readinessTokenRequired

def uneditedPayload (config : ConfigResponse) : HarnessConfigPayload :=
  harnessConfigPayloadFromDraft (harnessDraftFromConfig config)

/-- A save of the configuration without an edit. -/
def saveUnedited (spec : HarnessLaunchSpec) : Except IoError HarnessLaunchSpec :=
  fromPayload (uneditedPayload (configResponse spec))

/-- No value is redacted in the response. -/
def Shown (spec : HarnessLaunchSpec) : Prop := (configResponse spec).harness = toPayload spec

instance decidableShown (spec : HarnessLaunchSpec) : Decidable (Shown spec) :=
  inferInstanceAs (Decidable (_ = _))

/-! ## 4. The Agent's two conversions -/

/-- What a valid specification promises of its texts. -/
structure Checked (spec : HarnessLaunchSpec) : Prop where
  program : spec.program ≠ []
  entry : spec.mode = .node → ∃ entry args, spec.args = entry :: args ∧ entry ≠ []
  args : ∀ argument ∈ spec.args, argument.any isControl = false
  readinessUrl : spec.readinessUrl ≠ some []

theorem checked_of_validate {spec : HarnessLaunchSpec} (h : validate spec = .ok ()) :
    Checked spec := by
  unfold validate at h
  obtain ⟨⟨⟩, hprogram, h⟩ := bind_eq_ok h
  rw [guard_eq_ok] at h
  obtain ⟨-, h⟩ := h
  obtain ⟨⟨⟩, hargs, hreadiness⟩ := bind_eq_ok h
  unfold validateProgram at hprogram
  rw [guard_eq_ok, guard_eq_ok, not_or] at hprogram
  obtain ⟨⟨hname, -⟩, -, hentry⟩ := hprogram
  unfold validateLaunchArgs at hargs
  rw [guard_eq_ok] at hargs
  obtain ⟨-, hargs⟩ := hargs
  unfold validateReadiness at hreadiness
  rw [guard_eq_ok] at hreadiness
  obtain ⟨hurl, -⟩ := hreadiness
  refine ⟨hname, ?_, ?_, ?_⟩
  · intro hmode
    split at hentry
    · cases hentry
    · next hnot =>
      cases hlist : spec.args with
      | nil => simp [hmode, hlist] at hnot
      | cons entry args =>
        refine ⟨entry, args, rfl, ?_⟩
        rintro rfl
        simp [hmode, hlist] at hnot
  · intro argument hmem
    split at hargs
    · cases hargs
    · next hnot =>
      rw [List.any_eq_true, not_exists] at hnot
      have hnot' := hnot argument
      simp only [not_and, Bool.or_eq_true, not_or, Bool.not_eq_true] at hnot'
      exact (hnot' hmem).2
  · intro heq
    rw [heq] at hurl
    simp at hurl

/-- **The Agent loses nothing**: the payload of a valid specification is decoded to it. -/
theorem fromPayload_toPayload {spec : HarnessLaunchSpec} (h : validate spec = .ok ()) :
    fromPayload (toPayload spec) = .ok spec := by
  have hchecked := checked_of_validate h
  obtain ⟨mode, program, args, workingDir, readinessUrl, timeout, required⟩ := spec
  cases mode with
  | direct =>
    simp only [fromPayload, specArgs, toPayload, Option.isSome_none, Bool.false_eq_true, and_false,
      if_false, pure_bind, h]
    rfl
  | node =>
    obtain ⟨entry, rest, heq, hne⟩ := hchecked.entry rfl
    dsimp only at heq
    subst heq
    have hcontrol := hchecked.args entry List.mem_cons_self
    have hargs : nodeArgs (toPayload ⟨.node, program, entry :: rest, workingDir, readinessUrl,
        timeout, required⟩) = .ok (entry :: rest) := by
      have hfine : ¬ (entry = [] ∨ entry.any isControl = true) := by simp [hne, hcontrol]
      unfold nodeArgs
      dsimp only [toPayload, List.head?_cons, pure_bind]
      rw [pure_bind, if_neg hfine]
      simp
      rfl
    unfold fromPayload specArgs
    rw [hargs]
    simp only [toPayload, reduceCtorEq, false_and, if_false, bind, Except.bind, h]
    rfl

/-! ## 5. The arguments in the draft -/

def OneLine (text : Value) : Prop := ∀ c ∈ text, c ≠ '\n' ∧ c ≠ '\r'

theorem oneLine_of_any {text : Value} (h : text.any isControl = false) : OneLine text := by
  intro c hc
  rw [List.any_eq_false] at h
  have hplain := h c hc
  constructor
  · rintro rfl
    exact hplain (by decide)
  · rintro rfl
    exact hplain (by decide)

theorem splitLines_newline (text : Value) :
    splitLines ('\n' :: text) = [] :: splitLines text := by
  rw [splitLines, if_pos rfl]
  intro _ h
  exact absurd h (by decide)

theorem splitLines_cons {c : Char} (hnewline : c ≠ '\n') (hreturn : c ≠ '\r') (text : Value) :
    splitLines (c :: text) = (splitLines text).modifyHead (c :: ·) := by
  rw [splitLines, if_neg hnewline]
  intro _ h
  exact absurd h hreturn

theorem splitLines_line {line : Value} (h : OneLine line) : splitLines line = [line] := by
  induction line with
  | nil => rfl
  | cons c cs ih =>
    obtain ⟨hnewline, hreturn⟩ := h c List.mem_cons_self
    rw [splitLines_cons hnewline hreturn, ih fun d hd => h d (List.mem_cons_of_mem _ hd)]
    rfl

theorem splitLines_append {line : Value} (h : OneLine line) (text : Value) :
    splitLines (line ++ '\n' :: text) = line :: splitLines text := by
  induction line with
  | nil => exact splitLines_newline text
  | cons c cs ih =>
    obtain ⟨hnewline, hreturn⟩ := h c List.mem_cons_self
    rw [List.cons_append, splitLines_cons hnewline hreturn,
      ih fun d hd => h d (List.mem_cons_of_mem _ hd)]
    rfl

theorem splitLines_joinLines {lines : List Value} (hne : lines ≠ [])
    (h : ∀ line ∈ lines, OneLine line) : splitLines (joinLines lines) = lines := by
  induction lines with
  | nil => exact absurd rfl hne
  | cons line lines ih =>
    have hline := h line List.mem_cons_self
    cases lines with
    | nil => exact splitLines_line hline
    | cons next rest =>
      have hrest : joinLines (line :: next :: rest) = line ++ '\n' :: joinLines (next :: rest) :=
        rfl
      rw [hrest, splitLines_append hline,
        ih (by simp) fun other hother => h other (List.mem_cons_of_mem _ hother)]

/-- **What the editor makes of the arguments**: each is trimmed, and the empty ones are dropped. -/
theorem argumentsOf_join {args : List Value} (h : ∀ argument ∈ args, OneLine argument) :
    argumentsOf (joinLines args) = (args.map trim).filter fun value => value ≠ [] := by
  unfold argumentsOf
  by_cases hne : args = []
  · subst hne
    decide
  · rw [splitLines_joinLines hne h]

/-- A text that is neither empty nor padded with white space. -/
def Settled (text : Value) : Prop := text ≠ [] ∧ trim text = text

instance decidableSettled (text : Value) : Decidable (Settled text) :=
  inferInstanceAs (Decidable (_ ∧ _))

theorem argumentsOf_join_eq_iff {args : List Value} (h : ∀ argument ∈ args, OneLine argument) :
    argumentsOf (joinLines args) = args ↔ ∀ argument ∈ args, Settled argument := by
  rw [argumentsOf_join h]
  constructor
  · intro heq
    have hlength := congrArg List.length heq
    have hall : ∀ value ∈ args.map trim, decide (value ≠ []) = true := by
      rw [← List.length_filter_eq_length_iff, hlength, List.length_map]
    have hmap : args.map trim = args := by
      rw [← List.filter_eq_self.mpr hall]
      exact heq
    intro argument hmem
    have hself : trim argument = argument :=
      List.map_inj_left.mp (hmap.trans (List.map_id args).symm) argument hmem
    have hkept := hall (trim argument) (List.mem_map_of_mem hmem)
    rw [decide_eq_true_eq, hself] at hkept
    exact ⟨hkept, hself⟩
  · intro hsettled
    have hmap : args.map trim = args := by
      have hid : args.map trim = args.map id :=
        List.map_congr_left fun argument hmem => (hsettled argument hmem).2
      rw [hid, List.map_id]
    rw [hmap, List.filter_eq_self]
    intro argument hmem
    exact decide_eq_true (hsettled argument hmem).1

theorem length_argumentsOf_join {args : List Value} (h : ∀ argument ∈ args, OneLine argument) :
    (argumentsOf (joinLines args)).length ≤ args.length := by
  rw [argumentsOf_join h]
  exact (List.length_filter_le _ _).trans (by rw [List.length_map])

/-! ## 6. The payload of an unedited draft -/

theorem stringValue_some (text : Value) :
    stringValue (some text) = if trim text = [] then none else some text := by
  unfold stringValue
  by_cases h : trim text = [] <;> simp [h]

theorem textOrNull_stringValue (text : Value) :
    textOrNull ((stringValue (some text)).getD []) = textOrNull text := by
  rw [stringValue_some]
  by_cases h : trim text = []
  · rw [if_pos h]
    unfold textOrNull
    rw [if_pos h]
    decide
  · rw [if_neg h, Option.getD_some]

theorem textOrNull_eq_self_iff (text : Value) : textOrNull text = some text ↔ Settled text := by
  unfold textOrNull Settled
  by_cases h : trim text = []
  · rw [if_pos h]
    refine iff_of_false (by simp) ?_
    rintro ⟨hne, heq⟩
    exact hne (heq ▸ h)
  · rw [if_neg h, Option.some.injEq]
    constructor
    · intro heq
      exact ⟨heq ▸ h, heq⟩
    · exact And.right

theorem field_eq_self_iff (field : Option Value) :
    textOrNull ((stringValue field).getD []) = field ↔
      ∀ text, field = some text → Settled text := by
  cases field with
  | none => exact iff_of_true (by decide) (by simp)
  | some text =>
    rw [textOrNull_stringValue, textOrNull_eq_self_iff]
    simp

theorem not_white_of_isDigit {c : Char} (h : c.isDigit = true) : isJsWhiteSpace c = false := by
  simp only [Char.isDigit, Bool.and_eq_true, decide_eq_true_eq] at h
  have hlow : 48 ≤ c.toNat := UInt32.le_iff_toNat_le.mp h.1
  have hhigh : c.toNat ≤ 57 := UInt32.le_iff_toNat_le.mp h.2
  unfold isJsWhiteSpace isWhiteSpaceCode
  simp
  omega

theorem trim_eq_self {text : Value} (h : ∀ c ∈ text, isJsWhiteSpace c = false) :
    trim text = text := by
  have hdrop : ∀ {cs : Value}, (∀ c ∈ cs, isJsWhiteSpace c = false) →
      cs.dropWhile isJsWhiteSpace = cs := by
    intro cs hcs
    cases cs with
    | nil => rfl
    | cons c cs =>
      rw [List.dropWhile_cons_of_neg]
      simp [hcs c List.mem_cons_self]
  unfold trim
  rw [hdrop h, hdrop, List.reverse_reverse]
  intro c hc
  exact h c (List.mem_reverse.mp hc)

theorem timeout_eq_self (timeout : Option Nat) :
    (textOrNull ((timeout.map (Nat.toDigits 10)).getD [])).bind number = timeout := by
  cases timeout with
  | none => decide
  | some n =>
    have htrim : trim (Nat.toDigits 10 n) = Nat.toDigits 10 n :=
      trim_eq_self fun c hc => not_white_of_isDigit (isDigit_of_mem_toDigits hc)
    rw [Option.map_some, Option.getD_some, textOrNull, htrim, if_neg Nat.toDigits_ne_nil,
      Option.bind_some, number, if_pos (all_isDigit_toDigits n), digitsValue_toDigits]

structure Decodes (payload : HarnessConfigPayload) (spec : HarnessLaunchSpec) : Prop where
  program : spec.program = payload.program
  workingDir : spec.workingDir = payload.workingDir
  readinessUrl : spec.readinessUrl = payload.readinessUrl
  direct : payload.mode = .direct → spec.args = payload.args
  node : ∀ entry, payload.mode = .node → payload.entry = some entry →
    payload.argsAreAdditional = true → spec.args = entry :: payload.args

theorem decodes_of_fromPayload {payload : HarnessConfigPayload} {spec : HarnessLaunchSpec}
    (h : fromPayload payload = .ok spec) : Decodes payload spec := by
  unfold fromPayload at h
  rw [guard_eq_ok] at h
  obtain ⟨-, h⟩ := h
  obtain ⟨args, hargs, h⟩ := bind_eq_ok h
  obtain ⟨⟨⟩, -, h⟩ := bind_eq_ok h
  cases h
  unfold specArgs at hargs
  refine ⟨rfl, rfl, rfl, ?_, ?_⟩
  · intro hmode
    rw [hmode] at hargs
    exact (Except.ok.inj hargs).symm
  · intro entry hmode hentry hadditional
    rw [hmode] at hargs
    unfold nodeArgs at hargs
    rw [hentry, hadditional] at hargs
    obtain ⟨⟨entry', separate⟩, hpair, hargs⟩ := bind_eq_ok hargs
    obtain ⟨rfl, rfl⟩ := Prod.mk.inj (Except.ok.inj hpair)
    rw [guard_eq_ok] at hargs
    rw [if_pos ⟨rfl, Or.inl rfl⟩] at hargs
    exact (Except.ok.inj hargs.2).symm

/-! ## 7. A save without an edit -/

def texts (spec : HarnessLaunchSpec) : List Value :=
  spec.program :: (spec.args ++ (spec.workingDir.toList ++ spec.readinessUrl.toList))

/-- No text of the specification is empty or padded. -/
def Unpadded (spec : HarnessLaunchSpec) : Prop := ∀ text ∈ texts spec, Settled text

theorem unpadded_iff (spec : HarnessLaunchSpec) :
    Unpadded spec ↔ Settled spec.program ∧ (∀ argument ∈ spec.args, Settled argument) ∧
      (∀ text, spec.workingDir = some text → Settled text) ∧
        ∀ text, spec.readinessUrl = some text → Settled text := by
  unfold Unpadded texts
  simp [or_imp, forall_and]

theorem program_eq_self_iff {program : Value} (hne : program ≠ []) :
    trim ((stringValue (some program)).getD []) = program ↔ Settled program := by
  rw [stringValue_some]
  unfold Settled
  by_cases h : trim program = []
  · rw [if_pos h]
    refine iff_of_false ?_ ?_
    · intro heq
      exact hne heq.symm
    · rintro ⟨-, heq⟩
      exact hne (heq ▸ h)
  · rw [if_neg h, Option.getD_some]
    exact (and_iff_right hne).symm

theorem uneditedPayload_direct {spec : HarnessLaunchSpec} (hshown : Shown spec)
    (hmode : spec.mode = .direct) :
    uneditedPayload (configResponse spec) =
      { mode := .direct
        program := trim ((stringValue (some spec.program)).getD [])
        entry := none
        args := argumentsOf (joinLines spec.args)
        argsAreAdditional := false
        workingDir := textOrNull ((stringValue spec.workingDir).getD [])
        readinessUrl := textOrNull ((stringValue spec.readinessUrl).getD [])
        readinessTimeoutSecs := spec.readinessTimeoutSecs
        readinessTokenRequired := spec.readinessTokenRequired } := by
  have hshown' : (configResponse spec).harness = toPayload spec := hshown
  unfold uneditedPayload harnessConfigPayloadFromDraft harnessDraftFromConfig
  rw [hshown', toPayload, hmode]
  simp [timeout_eq_self]

theorem uneditedPayload_node {spec : HarnessLaunchSpec} {entry : Value} {args : List Value}
    (hshown : Shown spec) (hmode : spec.mode = .node) (hargs : spec.args = entry :: args)
    (hentry : trim entry ≠ []) :
    uneditedPayload (configResponse spec) =
      { mode := .node
        program := trim ((stringValue (some spec.program)).getD [])
        entry := some (trim entry)
        args := argumentsOf (joinLines args)
        argsAreAdditional := true
        workingDir := textOrNull ((stringValue spec.workingDir).getD [])
        readinessUrl := textOrNull ((stringValue spec.readinessUrl).getD [])
        readinessTimeoutSecs := spec.readinessTimeoutSecs
        readinessTokenRequired := spec.readinessTokenRequired } := by
  have hshown' : (configResponse spec).harness = toPayload spec := hshown
  have hne : entry ≠ [] := by
    rintro rfl
    exact hentry rfl
  unfold uneditedPayload harnessConfigPayloadFromDraft harnessDraftFromConfig
  rw [hshown', toPayload, hmode, hargs]
  simp [timeout_eq_self, stringValue_some, hentry, hne]

theorem uneditedPayload_blank {spec : HarnessLaunchSpec} {entry : Value} {args : List Value}
    (hshown : Shown spec) (hmode : spec.mode = .node) (hargs : spec.args = entry :: args)
    (hentry : trim entry = []) :
    (uneditedPayload (configResponse spec)).mode = .node ∧
      (uneditedPayload (configResponse spec)).entry = some (trim (args.head?.getD [])) ∧
      (uneditedPayload (configResponse spec)).args = argumentsOf (joinLines (args.drop 1)) ∧
      (uneditedPayload (configResponse spec)).argsAreAdditional = true := by
  have hshown' : (configResponse spec).harness = toPayload spec := hshown
  unfold uneditedPayload harnessConfigPayloadFromDraft harnessDraftFromConfig
  rw [hshown', toPayload, hmode, hargs]
  simp [stringValue_some, hentry]

theorem not_saved_of_blank {spec : HarnessLaunchSpec} {entry : Value} {args : List Value}
    (hshown : Shown spec) (hmode : spec.mode = .node) (hargs : spec.args = entry :: args)
    (hne : entry ≠ []) (hlines : ∀ argument ∈ args, OneLine argument) (hentry : trim entry = []) :
    saveUnedited spec ≠ .ok spec := by
  intro h
  obtain ⟨hm, he, ha, hadditional⟩ := uneditedPayload_blank hshown hmode hargs hentry
  have hdecoded := (decodes_of_fromPayload h).node _ hm he hadditional
  rw [ha, hargs] at hdecoded
  obtain ⟨hfirst, hrest⟩ := List.cons.inj hdecoded
  cases args with
  | nil => exact hne hfirst
  | cons next rest =>
    have hlength := congrArg List.length hrest
    have hbound := length_argumentsOf_join fun argument hmem =>
      hlines argument (List.mem_cons_of_mem next hmem)
    rw [List.drop_succ_cons, List.drop_zero, List.length_cons] at hlength
    omega

/-- **A save without an edit changes nothing exactly if no text is empty or padded.**  An empty
argument is dropped, white space around a text is cut off, and an empty or blank working directory
becomes none. -/
theorem saves_unedited_iff {spec : HarnessLaunchSpec} (hvalid : validate spec = .ok ())
    (hshown : Shown spec) : saveUnedited spec = .ok spec ↔ Unpadded spec := by
  have hchecked := checked_of_validate hvalid
  have hlines : ∀ argument ∈ spec.args, OneLine argument :=
    fun argument hmem => oneLine_of_any (hchecked.args argument hmem)
  rw [unpadded_iff]
  constructor
  · intro h
    have hdecodes := decodes_of_fromPayload h
    cases hmode : spec.mode with
    | direct =>
      rw [uneditedPayload_direct hshown hmode] at hdecodes
      exact ⟨(program_eq_self_iff hchecked.program).mp hdecodes.program.symm,
        (argumentsOf_join_eq_iff hlines).mp (hdecodes.direct rfl).symm,
        (field_eq_self_iff _).mp hdecodes.workingDir.symm,
        (field_eq_self_iff _).mp hdecodes.readinessUrl.symm⟩
    | node =>
      obtain ⟨entry, args, hargs, hne⟩ := hchecked.entry hmode
      have hrest : ∀ argument ∈ args, OneLine argument := by
        intro argument hmem
        exact hlines argument (hargs ▸ List.mem_cons_of_mem _ hmem)
      by_cases hentry : trim entry = []
      · exact absurd h (not_saved_of_blank hshown hmode hargs hne hrest hentry)
      · rw [uneditedPayload_node hshown hmode hargs hentry] at hdecodes
        have hlist := hdecodes.node _ rfl rfl rfl
        rw [hargs] at hlist
        obtain ⟨hfirst, htail⟩ := List.cons.inj hlist
        refine ⟨(program_eq_self_iff hchecked.program).mp hdecodes.program.symm, ?_,
          (field_eq_self_iff _).mp hdecodes.workingDir.symm,
          (field_eq_self_iff _).mp hdecodes.readinessUrl.symm⟩
        intro argument hmem
        rw [hargs] at hmem
        rcases List.mem_cons.mp hmem with rfl | hmem
        · exact ⟨hne, hfirst.symm⟩
        · exact (argumentsOf_join_eq_iff hrest).mp htail.symm argument hmem
  · rintro ⟨hprogram, hargs, hworking, hurl⟩
    have hsame : uneditedPayload (configResponse spec) = toPayload spec := by
      cases hmode : spec.mode with
      | direct =>
        rw [uneditedPayload_direct hshown hmode, toPayload, hmode,
          (program_eq_self_iff hchecked.program).mpr hprogram,
          (argumentsOf_join_eq_iff hlines).mpr hargs, (field_eq_self_iff _).mpr hworking,
          (field_eq_self_iff _).mpr hurl]
        rfl
      | node =>
        obtain ⟨entry, args, heq, hne⟩ := hchecked.entry hmode
        have hsettled := hargs entry (heq ▸ List.mem_cons_self)
        have hentry : trim entry ≠ [] := by
          rw [hsettled.2]
          exact hne
        have hrest : ∀ argument ∈ args, argument ∈ spec.args := by
          intro argument hmem
          exact heq ▸ List.mem_cons_of_mem _ hmem
        rw [uneditedPayload_node hshown hmode heq hentry, toPayload, hmode,
          (program_eq_self_iff hchecked.program).mpr hprogram, hsettled.2,
          (argumentsOf_join_eq_iff fun argument hmem => hlines argument (hrest argument hmem)).mpr
            fun argument hmem => hargs argument (hrest argument hmem),
          (field_eq_self_iff _).mpr hworking, (field_eq_self_iff _).mpr hurl, heq]
        rfl
    unfold saveUnedited
    rw [hsame, fromPayload_toPayload hvalid]

def nodeLaunch : HarnessLaunchSpec where
  mode := .node
  program := "/usr/bin/node".toList
  args := ["dist/index.js".toList, "--port".toList, "3080".toList]
  workingDir := some "/opt/dsh".toList
  readinessUrl := some "tcp://127.0.0.1:3080".toList
  readinessTimeoutSecs := some 30
  readinessTokenRequired := true

theorem saves_unedited_node : Unpadded nodeLaunch ∧ saveUnedited nodeLaunch = .ok nodeLaunch := by
  have hvalid : validate nodeLaunch = .ok () := by decide +kernel
  have hshown : Shown nodeLaunch := by decide +kernel
  have hunpadded : Unpadded nodeLaunch := by
    unfold Unpadded
    decide +kernel
  exact ⟨hunpadded, (saves_unedited_iff hvalid hshown).mpr hunpadded⟩

/-- A launch with an empty argument and one that ends in a space. -/
def paddedLaunch : HarnessLaunchSpec where
  mode := .direct
  program := "/opt/dsh/harness".toList
  args := ["--prompt".toList, [], "> ".toList]
  workingDir := none
  readinessUrl := none
  readinessTimeoutSecs := none
  readinessTokenRequired := false

/-- **A save without an edit that changes the launch**: the empty argument is gone, and so is the
space. -/
theorem padded_launch_rewritten :
    validate paddedLaunch = .ok () ∧ Shown paddedLaunch ∧
      saveUnedited paddedLaunch =
        .ok { paddedLaunch with args := ["--prompt".toList, ">".toList] } ∧
      saveUnedited paddedLaunch ≠ .ok paddedLaunch := by
  have hsaved : saveUnedited paddedLaunch =
      .ok { paddedLaunch with args := ["--prompt".toList, ">".toList] } := by decide +kernel
  refine ⟨by decide +kernel, by decide +kernel, hsaved, ?_⟩
  rw [hsaved]
  decide +kernel

end DshNexus.HarnessConfig
