import DshNexus.Agent.LoopbackAuthority

/-!
# Preferences in the arguments of a launch

`apply_harness_preferences` of `crates/nexus-core/src/harness_preferences.rs` writes the preferred
port and browser setting into the arguments of a launch, and `argument_inputs` of
`crates/nexus-agent/src/launch_inputs.rs` reads them back for the launch report.

1. The launch, the preferences, and `applyHarnessPreferences`.
2. `argumentInputs`.
3. The arguments of the application that are no port or browser flag: `others`.
4. What `argumentInputs` reads of lists that are put together.
5. What is read after the overlay, with and without a preferred port.
6. `overlay_agrees_iff`: the overlay and the report agree exactly on `Plain` arguments.
-/

namespace DshNexus.LaunchPreferences

open Text Loopback

/-! ## 1. The overlay -/

abbrev Argument := List Char

inductive LaunchMode where
  | direct
  | node
  deriving DecidableEq, Repr

structure HarnessLaunchSpec where
  mode : LaunchMode
  /-- the program's path, if it is a text -/
  program : Option Argument
  args : List Argument
  workingDir : Option Argument
  readinessUrl : Option Argument
  readinessTimeoutSecs : Option Nat
  readinessTokenRequired : Bool

/-- The fields of `HarnessPreferencesPayload` that a launch takes into its arguments.
`load_harness_preferences` lets absolute paths through as patches, and these do not begin with a
dash. -/
structure HarnessPreferences where
  port : Option Nat
  openBrowser : Option Bool
  patches : List Argument
  port_lt : ∀ n, port = some n → n < 65536
  patches_paths : ∀ patch ∈ patches, patch.head? ≠ some '-'

def portFlag : Argument := "--port".toList
def portAssignment : Argument := "--port=".toList
def noOpenFlag : Argument := "--no-open".toList
def terminator : Argument := "--".toList
def patchFlag : Argument := "--patch".toList
def profileFlag : Argument := "--profile".toList
def webCommand : Argument := "web".toList

/-- `u16::to_string`. -/
def decimal (n : Nat) : Argument := Nat.toDigits 10 n

/-- The entry's path, with slashes and in lower case. -/
def normalizedEntry (spec : HarnessLaunchSpec) : Argument :=
  let entry :=
    match spec.mode with
    | .node => spec.args.head?.getD []
    | .direct => spec.program.getD []
  entry.map fun c => if c.toNat = 0x5c then '/' else c.toLower

def harnessPreferencesCliSupported (spec : HarnessLaunchSpec) : Bool :=
  "/apps/cli/lib/bin.js".toList.isSuffixOf (normalizedEntry spec) ||
    (splitAtText "deepseek-harness".toList (normalizedEntry spec)).isSome ||
    (splitAtText "dsh-harness".toList (normalizedEntry spec)).isSome

/-- The number of arguments before those of the application. -/
def start (spec : HarnessLaunchSpec) : Nat :=
  match spec.mode with
  | .node => 1
  | .direct => 0

/-- The arguments of the application.  `web` is written out, because upstream rejects parent
flags before its subcommand. -/
def applicationArgs (spec : HarnessLaunchSpec) : List Argument :=
  match spec.args.drop (start spec) with
  | [] => []
  | first :: rest => if first = webCommand then profileFlag :: webCommand :: rest else first :: rest

/-- A text that begins with `--port=`. -/
def assignsPort (arg : Argument) : Bool := portAssignment.isPrefixOf arg

/-- The loop over the arguments: `ports` and `browser` say which flags are replaced. -/
def strip (ports browser : Bool) : List Argument → List Argument
  | [] => []
  | arg :: rest =>
      if ports = true ∧ arg = portFlag then
        match rest with
        | [] => []
        | _ :: rest => strip ports browser rest
      else if ports = true ∧ assignsPort arg = true then strip ports browser rest
      else if browser = true ∧ arg = noOpenFlag then strip ports browser rest
      else arg :: strip ports browser rest

/-- The patches of the preferences, as arguments. -/
def patchArgs (p : HarnessPreferences) : List Argument :=
  p.patches.flatMap fun patch => [patchFlag, patch]

/-- The preferences ask for `--no-open`. -/
def asksNoOpen (p : HarnessPreferences) : Bool := p.openBrowser = some false || !p.patches.isEmpty

/-- What is appended: the port, and `--no-open`. -/
def appended (p : HarnessPreferences) : List Argument :=
  (match p.port with
    | some port => [portFlag, decimal port]
    | none => []) ++
    if asksNoOpen p = true then [noOpenFlag] else []

/-- What the loop keeps of the arguments. -/
def keptArgs (p : HarnessPreferences) (web : Bool) (args : List Argument) : List Argument :=
  strip (web && p.port.isSome) (web && p.openBrowser.isSome) args

def applyHarnessPreferences (spec : HarnessLaunchSpec) (p : HarnessPreferences) (web : Bool) :
    HarnessLaunchSpec :=
  if harnessPreferencesCliSupported spec = false then spec
  else
    { spec with
      args := spec.args.take (start spec) ++ patchArgs p ++ keptArgs p web (applicationArgs spec) ++
        if web = true then appended p else []
      readinessUrl :=
        match web, p.port with
        | true, some port =>
            if port = 0 then none else some ("tcp://127.0.0.1:".toList ++ decimal port)
        | _, _ => spec.readinessUrl }

/-! ## 2. The report -/

/-- What an argument says of the port, if it is a port option; the next one may be its value. -/
def portOf (arg : Argument) (next : Option Argument) : Option (Option Nat) :=
  if arg = portFlag then some (next.bind parseU16)
  else if assignsPort arg = true then some (parseU16 (arg.drop portAssignment.length))
  else none

/-- The loop of `argument_inputs`. -/
def readArguments : Option Nat × Bool → List Argument → Option Nat × Bool
  | read, [] => read
  | read, arg :: rest =>
      if arg = terminator then read
      else readArguments ((portOf arg rest.head?).getD read.1, read.2 || arg = noOpenFlag) rest

def argumentInputs (arguments : List Argument) : Option Nat × Bool :=
  readArguments (none, false) arguments

/-! ## 3. The other arguments -/

/-- The arguments of the application that are no port or browser flag: what follows the
terminator, the values of other options (`valued`), and every other argument. -/
def others (valued : Argument → Bool) : List Argument → List Argument
  | [] => []
  | arg :: rest =>
      if arg = terminator then arg :: rest
      else if arg = portFlag then
        match rest with
        | [] => []
        | _ :: rest => others valued rest
      else if assignsPort arg = true ∨ arg = noOpenFlag then others valued rest
      else if valued arg = true then
        match rest with
        | [] => [arg]
        | value :: rest => arg :: value :: others valued rest
      else arg :: others valued rest

def Removable (ports browser : Bool) (arg : Argument) : Prop :=
  ports = true ∧ (arg = portFlag ∨ assignsPort arg = true) ∨ browser = true ∧ arg = noOpenFlag

section Strip

variable {ports browser : Bool}

theorem strip_cons (arg : Argument) (rest : List Argument) :
    strip ports browser (arg :: rest) =
      if ports = true ∧ arg = portFlag then strip ports browser rest.tail
      else if ports = true ∧ assignsPort arg = true then strip ports browser rest
      else if browser = true ∧ arg = noOpenFlag then strip ports browser rest
      else arg :: strip ports browser rest := by
  cases rest with
  | nil =>
    rw [strip]
    rfl
  | cons second rest =>
    rw [strip]
    rfl

theorem others_cons (valued : Argument → Bool) (arg : Argument) (rest : List Argument) :
    others valued (arg :: rest) =
      if arg = terminator then arg :: rest
      else if arg = portFlag then others valued rest.tail
      else if assignsPort arg = true ∨ arg = noOpenFlag then others valued rest
      else if valued arg = true then arg :: (rest.take 1 ++ others valued rest.tail)
      else arg :: others valued rest := by
  cases rest with
  | nil =>
    rw [others]
    rfl
  | cons second rest =>
    rw [others]
    rfl

theorem strip_cons_of_not_removable {arg : Argument} {rest : List Argument}
    (h : ¬ Removable ports browser arg) :
    strip ports browser (arg :: rest) = arg :: strip ports browser rest := by
  unfold Removable at h
  rw [not_or, not_and, not_or, not_and] at h
  rw [strip_cons, if_neg fun hport => (h.1 hport.1).1 hport.2,
    if_neg fun hport => (h.1 hport.1).2 hport.2, if_neg fun hopen => h.2 hopen.1 hopen.2]

theorem strip_portFlag {rest : List Argument} :
    strip true browser (portFlag :: rest) = strip true browser rest.tail := by
  rw [strip_cons, if_pos ⟨rfl, rfl⟩]

theorem strip_cons_of_removable {arg : Argument} {rest : List Argument}
    (h : Removable ports browser arg) (hport : ports = true → arg ≠ portFlag) :
    strip ports browser (arg :: rest) = strip ports browser rest := by
  rw [strip_cons, if_neg fun hflag => hport hflag.1 hflag.2]
  by_cases hassigns : ports = true ∧ assignsPort arg = true
  · rw [if_pos hassigns]
  · rw [if_neg hassigns]
    rcases h with ⟨hports, rfl | htext⟩ | hopen
    · exact absurd rfl (hport hports)
    · exact absurd ⟨hports, htext⟩ hassigns
    · rw [if_pos hopen]

theorem not_removable_of_mem_strip {args : List Argument} {arg : Argument}
    (h : arg ∈ strip ports browser args) : ¬ Removable ports browser arg := by
  induction args using strip.induct ports browser with
  | case1 => cases h
  | case2 first hflag =>
    rw [strip_cons, if_pos hflag] at h
    cases h
  | case3 first hflag second rest ih =>
    rw [strip_cons, if_pos hflag] at h
    exact ih h
  | case4 first rest hflag hassigns ih =>
    rw [strip_cons, if_neg hflag, if_pos hassigns] at h
    exact ih h
  | case5 first rest hflag hassigns hopen ih =>
    rw [strip_cons, if_neg hflag, if_neg hassigns, if_pos hopen] at h
    exact ih h
  | case6 first rest hflag hassigns hopen ih =>
    rw [strip_cons, if_neg hflag, if_neg hassigns, if_neg hopen] at h
    rcases List.mem_cons.mp h with rfl | h
    · rintro (⟨hports, hport | hport⟩ | hbrowser)
      · exact hflag ⟨hports, hport⟩
      · exact hassigns ⟨hports, hport⟩
      · exact hopen hbrowser
    · exact ih h

theorem strip_eq_self {args : List Argument} (h : ∀ arg ∈ args, ¬ Removable ports browser arg) :
    strip ports browser args = args := by
  induction args with
  | nil => rfl
  | cons arg rest ih =>
    rw [strip_cons_of_not_removable (h arg List.mem_cons_self),
      ih fun arg harg => h arg (List.mem_cons_of_mem _ harg)]

theorem strip_sublist_cons {arg : Argument} {rest : List Argument} :
    (strip false browser rest).Sublist (strip false browser (arg :: rest)) := by
  by_cases h : Removable false browser arg
  · rw [strip_cons_of_removable h (by simp)]
  · rw [strip_cons_of_not_removable h]
    exact List.sublist_cons_self _ _

/-- **The other arguments are kept in their order exactly where none of them looks like a flag that
is replaced.** -/
theorem others_sublist_strip (valued : Argument → Bool) {args : List Argument} :
    (others valued args).Sublist (strip ports browser args) ↔
      ∀ arg ∈ others valued args, ¬ Removable ports browser arg := by
  refine ⟨fun h arg harg => not_removable_of_mem_strip (h.subset harg), ?_⟩
  induction args using others.induct valued with
  | case1 => exact fun _ => List.nil_sublist _
  | case2 rest =>
    intro h
    rw [others_cons, if_pos rfl] at h ⊢
    rw [strip_eq_self h]
  | case3 hterm =>
    intro _
    rw [others_cons, if_neg hterm, if_pos rfl]
    exact List.nil_sublist _
  | case4 second rest hterm ih =>
    intro h
    rw [others_cons, if_neg hterm, if_pos rfl] at h ⊢
    cases ports with
    | true =>
      rw [strip_portFlag]
      exact ih h
    | false =>
      exact (ih h).trans (strip_sublist_cons.trans strip_sublist_cons)
  | case5 arg rest hterm hport hflag ih =>
    intro h
    rw [others_cons, if_neg hterm, if_neg hport, if_pos hflag] at h ⊢
    by_cases hremovable : Removable ports browser arg
    · rw [strip_cons_of_removable hremovable fun _ => hport]
      exact ih h
    · rw [strip_cons_of_not_removable hremovable]
      exact (ih h).cons _
  | case6 arg hterm hport hflag hvalued =>
    intro h
    rw [others_cons, if_neg hterm, if_neg hport, if_neg hflag, if_pos hvalued] at h ⊢
    rw [strip_eq_self fun first hfirst => h first (by simpa [others] using hfirst)]
    simp [others]
  | case7 arg hterm hport hflag hvalued value rest ih =>
    intro h
    rw [others_cons, if_neg hterm, if_neg hport, if_neg hflag, if_pos hvalued] at h ⊢
    rw [strip_cons_of_not_removable (h arg (by simp)),
      strip_cons_of_not_removable (h value (by simp))]
    refine ((ih fun arg harg => h arg ?_).cons_cons _).cons_cons _
    exact List.mem_cons_of_mem _ (List.mem_cons_of_mem _ harg)
  | case8 arg rest hterm hport hflag hvalued ih =>
    intro h
    rw [others_cons, if_neg hterm, if_neg hport, if_neg hflag, if_neg hvalued] at h ⊢
    rw [strip_cons_of_not_removable (h arg List.mem_cons_self)]
    exact (ih fun arg harg => h arg (List.mem_cons_of_mem _ harg)).cons_cons _

end Strip

/-! ## 4. Reading -/

def beforeTerminator (args : List Argument) : List Argument :=
  args.takeWhile fun arg => arg ≠ terminator

/-- What the last port option before the terminator says of the port. -/
def portReading : List Argument → Option (Option Nat)
  | [] => none
  | arg :: rest =>
      if arg = terminator then none else (portReading rest).or (portOf arg rest.head?)

theorem readArguments_fst (read : Option Nat × Bool) (args : List Argument) :
    (readArguments read args).1 = (portReading args).getD read.1 := by
  induction args generalizing read with
  | nil => rfl
  | cons arg rest ih =>
    by_cases hterm : arg = terminator
    · simp only [readArguments, portReading, if_pos hterm, Option.getD_none]
    · simp only [readArguments, portReading, if_neg hterm, ih]
      cases portReading rest <;> simp

theorem readArguments_snd (read : Option Nat × Bool) (args : List Argument) :
    (readArguments read args).2 = true ↔ read.2 = true ∨ noOpenFlag ∈ beforeTerminator args := by
  induction args generalizing read with
  | nil => simp [readArguments, beforeTerminator]
  | cons arg rest ih =>
    by_cases hterm : arg = terminator
    · simp [readArguments, beforeTerminator, hterm]
    · have hbefore : beforeTerminator (arg :: rest) = arg :: beforeTerminator rest := by
        simp [beforeTerminator, hterm]
      rw [readArguments, if_neg hterm, ih, hbefore, List.mem_cons, Bool.or_eq_true,
        decide_eq_true_eq, or_assoc, @eq_comm _ noOpenFlag arg]

theorem portReading_noOpen (rest : List Argument) :
    portReading (noOpenFlag :: rest) = portReading rest := by
  rw [portReading, if_neg (by decide)]
  exact Option.or_none

theorem argumentInputs_fst (args : List Argument) :
    (argumentInputs args).1 = (portReading args).getD none := readArguments_fst _ _

theorem argumentInputs_snd (args : List Argument) :
    (argumentInputs args).2 = true ↔ noOpenFlag ∈ beforeTerminator args := by
  simp [argumentInputs, readArguments_snd]

/-- An argument that says nothing of the port and the browser. -/
def Inert (arg : Argument) : Prop :=
  arg ≠ terminator ∧ arg ≠ noOpenFlag ∧ ∀ next, (portOf arg next).getD none = none

theorem argumentInputs_inert {before : List Argument} (h : ∀ arg ∈ before, Inert arg)
    (args : List Argument) : argumentInputs (before ++ args) = argumentInputs args := by
  induction before with
  | nil => rfl
  | cons arg before ih =>
    obtain ⟨hterm, hopen, hport⟩ := h arg List.mem_cons_self
    rw [List.cons_append, ← ih fun arg harg => h arg (List.mem_cons_of_mem _ harg),
      argumentInputs, readArguments, if_neg hterm, hport, decide_eq_false hopen, Bool.or_false,
      argumentInputs]

variable {arg : Argument}

theorem portOf_eq_none {next : Option Argument} : portOf arg next = none ↔ arg ≠ portFlag ∧
    assignsPort arg = false := by
  unfold portOf
  by_cases hport : arg = portFlag
  · simp [hport]
  · cases hassigns : assignsPort arg <;> simp [hport]

theorem portReading_eq_none {args : List Argument} :
    portReading args = none ↔
      ∀ arg ∈ beforeTerminator args, arg ≠ portFlag ∧ assignsPort arg = false := by
  induction args with
  | nil => simp [portReading, beforeTerminator]
  | cons arg rest ih =>
    by_cases hterm : arg = terminator
    · simp [portReading, beforeTerminator, hterm]
    · have hbefore : beforeTerminator (arg :: rest) = arg :: beforeTerminator rest := by
        simp [beforeTerminator, hterm]
      rw [portReading, if_neg hterm, Option.or_eq_none_iff, ih, hbefore, portOf_eq_none,
        List.forall_mem_cons, and_comm]

theorem beforeTerminator_append {args : List Argument} (more : List Argument) :
    beforeTerminator (args ++ more) =
      if terminator ∈ args then beforeTerminator args else args ++ beforeTerminator more := by
  induction args with
  | nil => simp
  | cons arg args ih =>
    by_cases hterm : arg = terminator
    · simp [beforeTerminator, hterm]
    · unfold beforeTerminator at ih ⊢
      rw [List.cons_append, List.takeWhile_cons_of_pos (by simpa using hterm),
        List.takeWhile_cons_of_pos (by simpa using hterm), ih]
      by_cases hmem : terminator ∈ args
      · simp [hmem]
      · simp [hmem, Ne.symm hterm]

theorem portReading_append_of_mem {args : List Argument} (h : terminator ∈ args)
    (more : List Argument) : portReading (args ++ more) = portReading args := by
  induction args with
  | nil => cases h
  | cons arg args ih =>
    by_cases hterm : arg = terminator
    · simp [portReading, hterm]
    · have hmem : terminator ∈ args := (List.mem_cons.mp h).resolve_left (Ne.symm hterm)
      have hhead : (args ++ more).head? = args.head? := by
        cases args with
        | nil => cases hmem
        | cons => rfl
      rw [List.cons_append, portReading, portReading, if_neg hterm, if_neg hterm, ih hmem, hhead]

theorem portReading_append_of_some {args more : List Argument} {port : Option Nat}
    (hterm : terminator ∉ args) (hmore : portReading more = some port) :
    portReading (args ++ more) = some port := by
  induction args with
  | nil => exact hmore
  | cons arg args ih =>
    rw [List.mem_cons, not_or] at hterm
    rw [List.cons_append, portReading, if_neg (Ne.symm hterm.1), ih hterm.2, Option.some_or]

/-! ## 5. After the overlay -/

theorem parseU16_decimal {port : Nat} (h : port < 65536) : parseU16 (decimal port) = some port := by
  rw [parseU16_eq_some]
  refine Or.inl ⟨Nat.toDigits_ne_nil, ?_, ?_, h⟩
  · rw [List.all_eq_true]
    intro c hc
    exact Nat.isDigit_of_mem_toDigits (by omega) (by omega) hc
  · have hvalue : digitsValue (decimal port) = Nat.ofDigitChars 10 (decimal port) 0 := by
      rw [digitsValue, Nat.ofDigitChars_eq_foldl]
      simp only [Nat.mul_comm]
    rw [hvalue, decimal, Nat.ofDigitChars_ten_toDigits]

theorem decimal_digit {port : Nat} {c : Char} (h : c ∈ decimal port) : c.isDigit = true :=
  Nat.isDigit_of_mem_toDigits (by omega) (by omega) h

theorem inert_of_char {c : Char} (hc : c ∈ arg) (hdigit : c.isDigit = false) (hplus : c ≠ '+')
    (hflags : c ∉ noOpenFlag ++ portAssignment) : Inert arg := by
  rw [List.mem_append, not_or] at hflags
  refine ⟨?_, fun h => hflags.1 (h ▸ hc), ?_⟩
  · rintro rfl
    exact hflags.1 (List.mem_append_left "no-open".toList hc)
  · intro next
    have hport : arg ≠ portFlag := by
      rintro rfl
      exact hflags.2 (List.mem_append_left ['='] hc)
    unfold portOf
    rw [if_neg hport]
    by_cases hassigns : assignsPort arg = true
    · rw [if_pos hassigns, Option.getD_some]
      obtain ⟨value, rfl⟩ := List.isPrefixOf_iff_prefix.mp hassigns
      rw [List.drop_left, Option.eq_none_iff_forall_ne_some]
      intro port hread
      exact not_mem_of_parseU16 hread hdigit hplus
        ((List.mem_append.mp hc).resolve_left hflags.2)
    · rw [if_neg hassigns, Option.getD_none]

theorem portOf_of_head (h : arg.head? ≠ some '-') (next : Option Argument) : portOf arg next =
    none := by
  rw [portOf_eq_none]
  refine ⟨?_, ?_⟩
  · rintro rfl
    exact h rfl
  · rw [Bool.eq_false_iff]
    intro hassigns
    obtain ⟨value, rfl⟩ := List.isPrefixOf_iff_prefix.mp hassigns
    exact h rfl

theorem inert_of_head (h : arg.head? ≠ some '-') : Inert arg := by
  refine ⟨?_, ?_, ?_⟩
  · rintro rfl
    exact h rfl
  · rintro rfl
    exact h rfl
  · intro next
    rw [portOf_of_head h next, Option.getD_none]

theorem mem_normalizedEntry {spec : HarnessLaunchSpec}
    (h : harnessPreferencesCliSupported spec = true) : 's' ∈ normalizedEntry spec := by
  have hsplit : ∀ needle : Argument, 's' ∈ needle →
      (splitAtText needle (normalizedEntry spec)).isSome = true → 's' ∈ normalizedEntry spec := by
    intro needle hneedle hsome
    obtain ⟨parts, hparts⟩ := Option.isSome_iff_exists.mp hsome
    rw [splitAtText_eq_some hparts]
    exact List.mem_append_left _ (List.mem_append_right _ hneedle)
  rw [harnessPreferencesCliSupported, Bool.or_eq_true, Bool.or_eq_true] at h
  rcases h with (h | h) | h
  · exact (List.isSuffixOf_iff_suffix.mp h).subset (by decide)
  · exact hsplit _ (by decide) h
  · exact hsplit _ (by decide) h

theorem flags_letter :
    ∀ c ∈ noOpenFlag ++ portAssignment, (if c.toNat = 0x5c then '/' else c.toLower) ≠ 's' := by
  show ∀ c ∈ "--no-open".toList ++ "--port=".toList, _
  simp [Char.toLower]

theorem inert_entry {spec : HarnessLaunchSpec} (h : harnessPreferencesCliSupported spec = true) :
    ∀ arg ∈ spec.args.take (start spec), Inert arg := by
  intro arg harg
  have hmem := mem_normalizedEntry h
  cases hmode : spec.mode with
  | direct => simp [start, hmode] at harg
  | node =>
    have hentry : 's' ∈ arg.map fun c => if c.toNat = 0x5c then '/' else c.toLower := by
      cases hargs : spec.args with
      | nil => simp [hargs] at harg
      | cons first rest =>
        have hfirst : arg = first := by simpa [start, hmode, hargs] using harg
        simpa [normalizedEntry, hmode, hargs, hfirst] using hmem
    obtain ⟨c, hc, hlower⟩ := List.mem_map.mp hentry
    have hletter : ∀ d : Char, d.toNat < 65 → c ≠ d := by
      rintro d hd rfl
      rw [if_neg (by omega), (toLower_eq_iff hd).mpr rfl] at hlower
      rw [hlower] at hd
      exact absurd hd (by decide)
    refine inert_of_char hc ?_ (hletter '+' (by decide)) fun hd => flags_letter c hd hlower
    rw [Bool.eq_false_iff]
    intro hdigit
    have hbound : c.toNat ≤ '9'.toNat := (Char.isDigit_iff_toNat.mp hdigit).2
    exact hletter c (hbound.trans_lt (by decide)) rfl

/-- `--no-open` is given, and not only as the value of a `--port`. -/
def givesNoOpen : List Argument → Bool
  | [] => false
  | arg :: rest =>
      if arg = portFlag then
        match rest with
        | [] => false
        | _ :: rest => givesNoOpen rest
      else arg = noOpenFlag || givesNoOpen rest

theorem givesNoOpen_cons (arg : Argument) (rest : List Argument) :
    givesNoOpen (arg :: rest) =
      if arg = portFlag then givesNoOpen rest.tail
      else decide (arg = noOpenFlag) || givesNoOpen rest := by
  cases rest with
  | nil => rfl
  | cons second rest => rfl

/-- The last port option before the terminator is `--port`, what follows it is a `--no-open`, and
behind all of these there is a port. -/
def Clash (args : List Argument) : Prop :=
  ∃ before rest : List Argument, args = before ++ portFlag :: noOpenFlag :: rest ∧
    terminator ∉ before ∧ portReading rest = none ∧
    ((rest.dropWhile fun arg => arg = noOpenFlag).head?.bind parseU16).isSome = true

theorem mem_strip_noOpenFlag {args : List Argument} :
    noOpenFlag ∈ strip true false args ↔ givesNoOpen args = true := by
  induction args using givesNoOpen.induct with
  | case1 => simp [strip, givesNoOpen]
  | case2 => simp [strip, givesNoOpen]
  | case3 first rest ih =>
    rw [strip_portFlag, List.tail_cons, ih, givesNoOpen, if_pos rfl]
  | case4 arg rest hport ih =>
    rw [givesNoOpen_cons, if_neg hport, Bool.or_eq_true, decide_eq_true_eq, ← ih]
    by_cases hassigns : assignsPort arg = true
    · have hne : arg ≠ noOpenFlag := by
        rintro rfl
        exact absurd hassigns (by decide)
      rw [strip_cons_of_removable (Or.inl ⟨rfl, Or.inr hassigns⟩) fun _ => hport, or_iff_right hne]
    · have hkept : ¬ Removable true false arg := by simp [Removable, hport, hassigns]
      rw [strip_cons_of_not_removable hkept, List.mem_cons, @eq_comm _ noOpenFlag arg]

theorem mem_others_of_mem_strip {browser : Bool} (valued : Argument → Bool) {args : List Argument}
    (hkept : ∀ arg ∈ others valued args, ¬ Removable true browser arg)
    (h : arg ∈ strip true browser args) : arg = noOpenFlag ∨ arg ∈ others valued args := by
  induction args using others.induct valued with
  | case1 => cases h
  | case2 rest =>
    rw [others_cons, if_pos rfl] at hkept ⊢
    rw [strip_eq_self hkept] at h
    exact Or.inr h
  | case3 =>
    rw [strip_portFlag] at h
    cases h
  | case4 value rest hterm ih =>
    rw [others_cons, if_neg hterm, if_pos rfl, List.tail_cons] at hkept ⊢
    rw [strip_portFlag, List.tail_cons] at h
    exact ih hkept h
  | case5 first rest hterm hport hflag ih =>
    rw [others_cons, if_neg hterm, if_neg hport, if_pos hflag] at hkept ⊢
    by_cases hremovable : Removable true browser first
    · rw [strip_cons_of_removable hremovable fun _ => hport] at h
      exact ih hkept h
    · rw [strip_cons_of_not_removable hremovable] at h
      rcases List.mem_cons.mp h with rfl | h
      · exact Or.inl (hflag.resolve_left fun hassigns =>
          hremovable (Or.inl ⟨rfl, Or.inr hassigns⟩))
      · exact ih hkept h
  | case6 first hterm hport hflag hvalued =>
    rw [others_cons, if_neg hterm, if_neg hport, if_neg hflag, if_pos hvalued] at hkept ⊢
    rw [strip_cons_of_not_removable (hkept first List.mem_cons_self)] at h
    exact Or.inr (by simpa [strip, others] using h)
  | case7 first hterm hport hflag hvalued value rest ih =>
    rw [others_cons, if_neg hterm, if_neg hport, if_neg hflag, if_pos hvalued] at hkept ⊢
    rw [strip_cons_of_not_removable (hkept first (by simp)),
      strip_cons_of_not_removable (hkept value (by simp))] at h
    rcases List.mem_cons.mp h with rfl | h
    · exact Or.inr List.mem_cons_self
    rcases List.mem_cons.mp h with rfl | h
    · exact Or.inr (by simp)
    · have hrest : ∀ arg ∈ others valued rest, ¬ Removable true browser arg := fun arg harg =>
        hkept arg (List.mem_cons_of_mem _ (List.mem_cons_of_mem _ harg))
      exact (ih hrest h).imp_right fun hmem =>
        List.mem_cons_of_mem _ (List.mem_cons_of_mem _ hmem)
  | case8 first rest hterm hport hflag hvalued ih =>
    rw [others_cons, if_neg hterm, if_neg hport, if_neg hflag, if_neg hvalued] at hkept ⊢
    rw [strip_cons_of_not_removable (hkept first List.mem_cons_self)] at h
    rcases List.mem_cons.mp h with rfl | h
    · exact Or.inr List.mem_cons_self
    · exact (ih (fun arg harg => hkept arg (List.mem_cons_of_mem _ harg)) h).imp_right
        (List.mem_cons_of_mem _)

/-- What the loop keeps where no port is preferred. -/
abbrev keeps (browser : Bool) (arg : Argument) : Bool :=
  decide ¬ (browser = true ∧ arg = noOpenFlag)

theorem strip_false (browser : Bool) (args : List Argument) :
    strip false browser args = args.filter (keeps browser) := by
  induction args with
  | nil => rfl
  | cons arg rest ih =>
    by_cases h : browser = true ∧ arg = noOpenFlag
    · rw [strip_cons_of_removable (Or.inr h) (by simp), ih,
        List.filter_cons_of_neg (by simpa using h)]
    · have hkept : ¬ Removable false browser arg := by simpa [Removable] using h
      rw [strip_cons_of_not_removable hkept, ih,
        List.filter_cons_of_pos (by rw [decide_eq_true_eq]; exact h)]

theorem decimal_head {port : Nat} : (decimal port).head? ≠ some '-' := fun h =>
  absurd (decimal_digit (List.mem_of_mem_head? h)) (by decide)

theorem beforeTerminator_appended (p : HarnessPreferences) :
    beforeTerminator (appended p) = appended p := by
  refine List.takeWhile_eq_self_iff.mpr fun arg harg => decide_eq_true ?_
  rintro rfl
  rw [appended, List.mem_append] at harg
  rcases harg with harg | harg
  · cases hport : p.port with
    | none => simp [hport] at harg
    | some port =>
      rw [hport] at harg
      rcases List.mem_cons.mp harg with hflag | hvalue
      · exact absurd hflag (by decide)
      · exact (inert_of_head decimal_head).1 (List.mem_singleton.mp hvalue).symm
  · split at harg
    · exact absurd (List.mem_singleton.mp harg) (by decide)
    · cases harg

theorem mem_appended (p : HarnessPreferences) :
    noOpenFlag ∈ appended p ↔ asksNoOpen p = true := by
  rw [appended, List.mem_append]
  constructor
  · rintro (harg | harg)
    · cases hport : p.port with
      | none => simp [hport] at harg
      | some port =>
        rw [hport] at harg
        rcases List.mem_cons.mp harg with hflag | hvalue
        · exact absurd hflag (by decide)
        · exact absurd (List.mem_singleton.mp hvalue).symm (inert_of_head decimal_head).2.1
    · split at harg
      · assumption
      · cases harg
  · intro h
    rw [if_pos h]
    exact Or.inr (List.mem_singleton.mpr rfl)

variable {p : HarnessPreferences}

theorem portReading_appended {port : Nat} (h : p.port = some port) : portReading (appended p) =
    some (some port) := by
  have hrest : portReading (decimal port :: if asksNoOpen p = true then [noOpenFlag] else []) =
      none := by
    rw [portReading, if_neg (inert_of_head decimal_head).1, portOf_of_head decimal_head,
      Option.or_none]
    split
    · rfl
    · rfl
  have happended : appended p =
      portFlag :: decimal port :: if asksNoOpen p = true then [noOpenFlag] else [] := by
    simp [appended, h]
  rw [happended, portReading, if_neg (by decide), hrest, Option.none_or, portOf, if_pos rfl,
    List.head?_cons, Option.bind_some, parseU16_decimal (p.port_lt port h)]

theorem noOpen_read (p : HarnessPreferences) (args : List Argument) :
    (argumentInputs (args ++ appended p)).2 = true ↔
      noOpenFlag ∈ beforeTerminator args ∨ terminator ∉ args ∧ asksNoOpen p = true := by
  rw [argumentInputs_snd, beforeTerminator_append, beforeTerminator_appended]
  by_cases hterm : terminator ∈ args
  · simp [hterm]
  · have hself : beforeTerminator args = args :=
      List.takeWhile_eq_self_iff.mpr fun arg harg => decide_eq_true fun h => hterm (h ▸ harg)
    rw [if_neg hterm, List.mem_append, mem_appended, hself]
    simp [hterm]

theorem port_read {port : Nat} (h : p.port = some port) {args : List Argument}
    (hargs : ∀ arg ∈ args, arg ≠ portFlag ∧ assignsPort arg = false) :
    (argumentInputs (args ++ appended p)).1 = some port ↔ terminator ∉ args := by
  rw [argumentInputs_fst]
  by_cases hterm : terminator ∈ args
  · have hnone : portReading args = none := portReading_eq_none.mpr fun arg harg =>
      hargs arg ((List.takeWhile_prefix _).subset harg)
    rw [portReading_append_of_mem hterm, hnone]
    simp [hterm]
  · rw [portReading_append_of_some hterm (portReading_appended h)]
    simp [hterm]

section NoPort

variable {browser : Bool}

theorem clash_cons {rest : List Argument} (hterm : arg ≠ terminator) : Clash (arg :: rest) ↔
    Clash rest ∨ arg = portFlag ∧ ∃ more, rest = noOpenFlag :: more ∧ portReading more = none ∧
    ((more.dropWhile fun arg => arg = noOpenFlag).head?.bind parseU16).isSome = true := by
  constructor
  · rintro ⟨before, more, heq, hbefore, hnone, hport⟩
    cases before with
    | nil =>
      obtain ⟨rfl, rfl⟩ := List.cons.inj heq
      exact Or.inr ⟨rfl, more, rfl, hnone, hport⟩
    | cons first before =>
      obtain ⟨rfl, rfl⟩ := List.cons.inj heq
      exact Or.inl ⟨before, more, rfl, fun h => hbefore (List.mem_cons_of_mem _ h), hnone, hport⟩
  · rintro (⟨before, more, rfl, hbefore, hnone, hport⟩ | ⟨rfl, more, rfl, hnone, hport⟩)
    · refine ⟨arg :: before, more, rfl, ?_, hnone, hport⟩
      rw [List.mem_cons, not_or]
      exact ⟨Ne.symm hterm, hbefore⟩
    · exact ⟨[], more, rfl, List.not_mem_nil, hnone, hport⟩

theorem Clash.portReading_ne_none {args : List Argument} (h : Clash args) :
    portReading args ≠ none := by
  obtain ⟨before, rest, rfl, hbefore, hnone, -⟩ := h
  have hread : portReading (portFlag :: noOpenFlag :: rest) = some none := by
    rw [portReading, if_neg (by decide), portReading_noOpen, hnone]
    rfl
  rw [portReading_append_of_some hbefore hread]
  exact Option.some_ne_none _

theorem portReading_filter_eq_none {args more : List Argument}
    (hmore : ∀ arg ∈ more, arg = noOpenFlag) :
    portReading (args.filter (keeps browser) ++ more) = none ↔ portReading args = none := by
  induction args with
  | nil =>
    refine iff_of_true (portReading_eq_none.mpr fun arg harg => ?_) rfl
    rw [hmore arg ((List.takeWhile_prefix _).subset harg)]
    decide
  | cons arg rest ih =>
    by_cases hkeeps : keeps browser arg = true
    · rw [List.filter_cons_of_pos hkeeps, List.cons_append]
      by_cases hterm : arg = terminator
      · simp [portReading, hterm]
      · rw [portReading, portReading, if_neg hterm, if_neg hterm, Option.or_eq_none_iff,
          Option.or_eq_none_iff, ih, portOf_eq_none, portOf_eq_none]
    · have hopen : arg = noOpenFlag := by
        simp only [decide_eq_true_eq, not_not] at hkeeps
        exact hkeeps.2
      rw [List.filter_cons_of_neg hkeeps, ih, hopen, portReading_noOpen]

theorem head_filter {args more : List Argument} (hmore : ∀ arg ∈ more, arg = noOpenFlag) :
    (args.filter (keeps true) ++ more).head?.bind parseU16 =
      (args.dropWhile fun arg => arg = noOpenFlag).head?.bind parseU16 := by
  induction args with
  | nil =>
    cases more with
    | nil => rfl
    | cons arg more =>
      rw [hmore arg List.mem_cons_self]
      rfl
  | cons arg rest ih =>
    by_cases hopen : arg = noOpenFlag
    · rw [List.filter_cons_of_neg (by simp [hopen]), ih,
        List.dropWhile_cons_of_pos (by simpa using hopen)]
    · rw [List.filter_cons_of_pos (by simpa using hopen),
        List.dropWhile_cons_of_neg (by simpa using hopen)]
      rfl

theorem portOf_next (h : arg ≠ portFlag) (next next' : Option Argument) : portOf arg next =
    portOf arg next' := by
  rw [portOf, if_neg h, portOf, if_neg h]

theorem value_unread_iff {rest more : List Argument} (hmore : ∀ arg ∈ more, arg = noOpenFlag)
    (hport : arg = portFlag) (hrest : portReading rest = none) :
    (rest.filter (keeps browser) ++ more).head?.bind parseU16 = rest.head?.bind parseU16 ↔
    (browser = true → ¬ (arg = portFlag ∧ ∃ more, rest = noOpenFlag :: more ∧ portReading more =
    none ∧ ((more.dropWhile fun arg => arg = noOpenFlag).head?.bind parseU16).isSome = true)) := by
  cases browser with
  | false =>
    refine iff_of_true ?_ fun h => absurd h (by decide)
    have hself : rest.filter (keeps false) = rest := List.filter_eq_self.mpr (by simp)
    rw [hself]
    cases rest with
    | cons => rfl
    | nil =>
      cases more with
      | nil => rfl
      | cons first more =>
        rw [hmore first List.mem_cons_self]
        show parseU16 noOpenFlag = none
        decide
  | true =>
    rw [head_filter hmore]
    cases rest with
    | nil =>
      refine iff_of_true rfl ?_
      rintro - ⟨-, more, hnil, -⟩
      cases hnil
    | cons first rest =>
      by_cases hopen : first = noOpenFlag
      · rw [hopen, portReading_noOpen] at hrest
        have hnone : parseU16 noOpenFlag = none := by decide
        rw [List.dropWhile_cons_of_pos (by simpa using hopen), List.head?_cons, Option.bind_some,
          hopen, hnone, ← Option.not_isSome_iff_eq_none]
        constructor
        · rintro h - ⟨-, more, heq, -, hsome⟩
          rw [(List.cons.inj heq).2] at h
          exact h hsome
        · intro h hsome
          exact h rfl ⟨hport, rest, rfl, hrest, hsome⟩
      · rw [List.dropWhile_cons_of_neg (by simpa using hopen)]
        refine iff_of_true rfl ?_
        rintro - ⟨-, more, heq, -⟩
        exact hopen (List.cons.inj heq).1

/-- **Without a preferred port, the port that was read before is read after the overlay exactly
where no `--no-open` between a `--port` and a port is taken out.** -/
theorem port_unread_iff {args more : List Argument} (hmore : ∀ arg ∈ more, arg = noOpenFlag) :
    (portReading (args.filter (keeps browser) ++ more)).getD none = (portReading args).getD none ↔
      (browser = true → ¬ Clash args) := by
  induction args with
  | nil =>
    have hnone : portReading (List.filter (keeps browser) [] ++ more) = none :=
      (portReading_filter_eq_none hmore).mpr rfl
    rw [hnone]
    refine iff_of_true rfl fun _ h => ?_
    exact h.portReading_ne_none rfl
  | cons arg rest ih =>
    by_cases hkeeps : keeps browser arg = true
    · rw [List.filter_cons_of_pos hkeeps, List.cons_append]
      by_cases hterm : arg = terminator
      · have hclash : ¬ Clash (arg :: rest) := fun h =>
          h.portReading_ne_none (by rw [portReading, if_pos hterm])
        simp [portReading, hterm, hterm ▸ hclash]
      rw [portReading, portReading, if_neg hterm, if_neg hterm, clash_cons hterm]
      by_cases hrest : portReading rest = none
      · have hkept : portReading (rest.filter (keeps browser) ++ more) = none :=
          (portReading_filter_eq_none hmore).mpr hrest
        have hno : ¬ Clash rest := fun h => h.portReading_ne_none hrest
        rw [hkept, hrest, Option.none_or, Option.none_or, or_iff_right hno]
        by_cases hport : arg = portFlag
        · simp only [portOf, if_pos hport, Option.getD_some]
          exact value_unread_iff hmore hport hrest
        · rw [portOf_next hport _ rest.head?]
          exact iff_of_true rfl fun _ h => hport h.1
      · have hkept : portReading (rest.filter (keeps browser) ++ more) ≠ none :=
          fun h => hrest ((portReading_filter_eq_none hmore).mp h)
        obtain ⟨port, hport⟩ := Option.ne_none_iff_exists'.mp hrest
        obtain ⟨port', hport'⟩ := Option.ne_none_iff_exists'.mp hkept
        have hnot : ¬ (arg = portFlag ∧ ∃ more, rest = noOpenFlag :: more ∧
            portReading more = none ∧
            ((more.dropWhile fun arg => arg = noOpenFlag).head?.bind parseU16).isSome = true) := by
          rintro ⟨-, more, rfl, hnone, -⟩
          exact hrest (by rw [portReading_noOpen, hnone])
        rw [hport, hport'] at ih ⊢
        rw [or_iff_left hnot, Option.some_or, Option.some_or]
        exact ih
    · have hopen : arg = noOpenFlag := by
        simp only [decide_eq_true_eq, not_not] at hkeeps
        exact hkeeps.2
      have hnot : ¬ (arg = portFlag ∧ ∃ more, rest = noOpenFlag :: more ∧ portReading more = none ∧
          ((more.dropWhile fun arg => arg = noOpenFlag).head?.bind parseU16).isSome = true) :=
        fun h => absurd (hopen.symm.trans h.1) (by decide)
      have hread : portReading (arg :: rest) = portReading rest := by
        rw [hopen, portReading_noOpen]
      rw [List.filter_cons_of_neg hkeeps, hread, ih, clash_cons (by rw [hopen]; decide),
        or_iff_left hnot]

end NoPort

/-! ## 6. The overlay and the report -/

/-- The arguments of the application, before the overlay. -/
def ownArgs (spec : HarnessLaunchSpec) : List Argument := spec.args.drop (start spec)

/-- What the overlay makes of a launch is what the report says. -/
structure Agrees (valued : Argument → Bool) (spec : HarnessLaunchSpec) (p : HarnessPreferences)
    (launch : HarnessLaunchSpec) : Prop where
  port : (argumentInputs launch.args).1 = p.port.or (argumentInputs spec.args).1
  no_open : (argumentInputs launch.args).2 = true ↔
    p.openBrowser = some false ∨ p.patches ≠ [] ∨
      p.openBrowser = none ∧ (argumentInputs spec.args).2 = true
  readiness : ∀ port, p.port = some port → launch.readinessUrl =
    if port = 0 then none else some ("tcp://127.0.0.1:".toList ++ decimal port)
  /-- between the patches and what is appended, the other arguments are kept in their order -/
  others : ∃ kept, launch.args =
      spec.args.take (start spec) ++ patchArgs p ++ kept ++ appended p ∧
    (LaunchPreferences.others valued (ownArgs spec)).Sublist kept

/-- The arguments that the overlay and the report read alike. -/
structure Plain (valued : Argument → Bool) (p : HarnessPreferences) (args : List Argument) :
    Prop where
  /-- behind a terminator and as a value there is no flag that is replaced -/
  unremovable : ∀ arg ∈ others valued args, ¬ Removable p.port.isSome p.openBrowser.isSome arg
  /-- the appended port stands behind no terminator -/
  unterminated : p.port.isSome = true → terminator ∉ others valued args
  /-- `--no-open` is no value of a `--port`, and stands behind no such value `--` -/
  loose : p.port.isSome = true → p.openBrowser = none → asksNoOpen p = false →
    (givesNoOpen args = true ↔ noOpenFlag ∈ beforeTerminator args)
  /-- the appended `--no-open` stands behind no terminator, or is given already -/
  asked : p.port = none → asksNoOpen p = true → terminator ∈ args →
    p.openBrowser = none ∧ noOpenFlag ∈ beforeTerminator args
  unclashing : p.port = none → p.openBrowser.isSome = true → ¬ Clash args

theorem asksNoOpen_iff (p : HarnessPreferences) :
    asksNoOpen p = true ↔ p.openBrowser = some false ∨ p.patches ≠ [] := by
  simp [asksNoOpen]

theorem applicationArgs_eq (spec : HarnessLaunchSpec) :
    ∃ before : List Argument, (∀ arg ∈ before, arg = profileFlag) ∧
      applicationArgs spec = before ++ ownArgs spec := by
  unfold applicationArgs ownArgs
  cases spec.args.drop (start spec) with
  | nil => exact ⟨[], by simp, rfl⟩
  | cons first rest =>
    by_cases hweb : first = webCommand
    · exact ⟨[profileFlag], by simp, by simp [hweb]⟩
    · exact ⟨[], by simp, by simp [hweb]⟩

theorem not_removable_profileFlag (ports browser : Bool) :
    ¬ Removable ports browser profileFlag := by
  revert ports browser
  unfold Removable
  decide

theorem strip_append_of_not_removable {ports browser : Bool} {before args : List Argument}
    (h : ∀ arg ∈ before, ¬ Removable ports browser arg) :
    strip ports browser (before ++ args) = before ++ strip ports browser args := by
  induction before with
  | nil => rfl
  | cons arg before ih =>
    rw [List.cons_append, strip_cons_of_not_removable (h arg List.mem_cons_self),
      ih fun arg harg => h arg (List.mem_cons_of_mem _ harg), List.cons_append]

theorem patchArgs_inert (p : HarnessPreferences) : ∀ arg ∈ patchArgs p, Inert arg := by
  intro arg harg
  obtain ⟨patch, hpatch, harg⟩ := List.mem_flatMap.mp harg
  rcases List.mem_cons.mp harg with rfl | harg
  · refine ⟨by decide, by decide, fun next => ?_⟩
    rw [portOf_eq_none.mpr (by decide)]
    rfl
  · rw [List.mem_singleton.mp harg]
    exact inert_of_head (p.patches_paths patch hpatch)

theorem profileFlag_inert : Inert profileFlag := by
  refine ⟨by decide, by decide, fun next => ?_⟩
  rw [portOf_eq_none.mpr (by decide)]
  rfl

section Overlay

variable {spec : HarnessLaunchSpec} {p : HarnessPreferences}

theorem apply_args (h : harnessPreferencesCliSupported spec = true) :
    (applyHarnessPreferences spec p true).args =
      spec.args.take (start spec) ++ patchArgs p ++ keptArgs p true (applicationArgs spec) ++
        appended p := by
  unfold applyHarnessPreferences
  rw [if_neg (ne_of_eq_of_ne h (by decide))]
  rfl

theorem apply_readinessUrl (h : harnessPreferencesCliSupported spec = true) {port : Nat}
    (hport : p.port = some port) :
    (applyHarnessPreferences spec p true).readinessUrl =
      if port = 0 then none else some ("tcp://127.0.0.1:".toList ++ decimal port) := by
  unfold applyHarnessPreferences
  rw [if_neg (ne_of_eq_of_ne h (by decide)), hport]

theorem keptArgs_eq (spec : HarnessLaunchSpec) (p : HarnessPreferences) :
    ∃ before : List Argument, (∀ arg ∈ before, arg = profileFlag) ∧
      keptArgs p true (applicationArgs spec) =
        before ++ strip p.port.isSome p.openBrowser.isSome (ownArgs spec) := by
  obtain ⟨before, hbefore, heq⟩ := applicationArgs_eq spec
  refine ⟨before, hbefore, ?_⟩
  rw [keptArgs, heq, Bool.true_and, Bool.true_and, strip_append_of_not_removable]
  intro arg harg
  rw [hbefore arg harg]
  exact not_removable_profileFlag _ _

theorem apply_read (h : harnessPreferencesCliSupported spec = true) :
    argumentInputs (applyHarnessPreferences spec p true).args =
      argumentInputs (strip p.port.isSome p.openBrowser.isSome (ownArgs spec) ++ appended p) := by
  obtain ⟨before, hbefore, heq⟩ := keptArgs_eq spec p
  rw [apply_args h, heq]
  simp only [List.append_assoc]
  rw [argumentInputs_inert (inert_entry h), argumentInputs_inert (patchArgs_inert p),
    argumentInputs_inert fun arg harg => hbefore arg harg ▸ profileFlag_inert]

theorem original_read (h : harnessPreferencesCliSupported spec = true) :
    argumentInputs spec.args = argumentInputs (ownArgs spec) := by
  conv_lhs => rw [← List.take_append_drop (start spec) spec.args]
  rw [argumentInputs_inert (inert_entry h), ownArgs]

theorem others_kept (h : harnessPreferencesCliSupported spec = true) (valued : Argument → Bool) :
    (∃ kept, (applyHarnessPreferences spec p true).args =
        spec.args.take (start spec) ++ patchArgs p ++ kept ++ appended p ∧
      (others valued (ownArgs spec)).Sublist kept) ↔
      ∀ arg ∈ others valued (ownArgs spec),
        ¬ Removable p.port.isSome p.openBrowser.isSome arg := by
  obtain ⟨before, hbefore, heq⟩ := keptArgs_eq spec p
  rw [apply_args h, heq]
  constructor
  · rintro ⟨kept, hargs, hkept⟩ arg harg
    rw [List.append_cancel_left (List.append_cancel_right hargs) |>.symm] at hkept
    rcases List.mem_append.mp (hkept.subset harg) with hmem | hmem
    · rw [hbefore arg hmem]
      exact not_removable_profileFlag _ _
    · exact not_removable_of_mem_strip hmem
  · intro hothers
    refine ⟨_, rfl, ?_⟩
    exact ((others_sublist_strip valued).mpr hothers).trans (List.sublist_append_right _ _)

end Overlay

theorem appended_of_port_none (h : p.port = none) : ∀ arg ∈ appended p, arg = noOpenFlag := by
  intro arg harg
  simp only [appended, h, List.nil_append] at harg
  split at harg
  · exact List.mem_singleton.mp harg
  · cases harg

theorem terminator_mem_filter {browser : Bool} {args : List Argument} :
    terminator ∈ args.filter (keeps browser) ↔ terminator ∈ args := by
  rw [List.mem_filter]
  exact and_iff_left (decide_eq_true fun h => absurd h.2 (by decide))

theorem port_and_noOpen_iff {port : Nat} (hport : p.port = some port) (valued : Argument → Bool)
    {args : List Argument} (hothers : ∀ arg ∈ others valued args,
    ¬ Removable p.port.isSome p.openBrowser.isSome arg) (read : Option Nat × Bool)
    (hread : read = argumentInputs args) : ((argumentInputs
    (strip p.port.isSome p.openBrowser.isSome args ++ appended p)).1 = p.port.or read.1 ∧
    ((argumentInputs (strip p.port.isSome p.openBrowser.isSome args ++ appended p)).2 = true ↔
    p.openBrowser = some false ∨ p.patches ≠ [] ∨ p.openBrowser = none ∧ read.2 = true)) ↔
    terminator ∉ others valued args ∧ (p.openBrowser = none → asksNoOpen p = false →
    (givesNoOpen args = true ↔ noOpenFlag ∈ beforeTerminator args)) := by
  rw [hport, Option.isSome_some] at hothers
  have hflags : ∀ arg ∈ strip true p.openBrowser.isSome args,
      arg ≠ portFlag ∧ assignsPort arg = false := by
    intro arg harg
    have hkept := not_removable_of_mem_strip harg
    refine ⟨fun h => hkept (Or.inl ⟨rfl, Or.inl h⟩), ?_⟩
    rw [Bool.eq_false_iff]
    exact fun h => hkept (Or.inl ⟨rfl, Or.inr h⟩)
  have hterm : terminator ∈ strip true p.openBrowser.isSome args ↔
      terminator ∈ others valued args := by
    refine ⟨fun h => ?_, fun h => ((others_sublist_strip valued).mpr hothers).subset h⟩
    exact (mem_others_of_mem_strip valued hothers h).resolve_left (by decide)
  rw [hport, Option.some_or, Option.isSome_some, port_read hport hflags, hterm, noOpen_read, hterm,
    hread, argumentInputs_snd, ← or_assoc, ← asksNoOpen_iff]
  refine and_congr_right fun hunterminated => ?_
  have hself : beforeTerminator (strip true p.openBrowser.isSome args) =
      strip true p.openBrowser.isSome args :=
    List.takeWhile_eq_self_iff.mpr fun arg harg =>
      decide_eq_true fun h => hunterminated (hterm.mp (h ▸ harg))
  rw [hself]
  cases hasks : asksNoOpen p with
  | true => simp [hunterminated]
  | false =>
    cases hbrowser : p.openBrowser with
    | none =>
      rw [Option.isSome_none, mem_strip_noOpenFlag]
      simp
    | some browser =>
      have hnot : noOpenFlag ∉ strip true true args := fun h =>
        not_removable_of_mem_strip h (Or.inr ⟨rfl, rfl⟩)
      simp [hnot]

theorem noPort_and_noOpen_iff (hport : p.port = none) {args : List Argument}
    (read : Option Nat × Bool) (hread : read = argumentInputs args) :
    ((argumentInputs (strip p.port.isSome p.openBrowser.isSome args ++ appended p)).1 =
    p.port.or read.1 ∧ ((argumentInputs (strip p.port.isSome p.openBrowser.isSome args ++ appended
    p)).2 = true ↔ p.openBrowser = some false ∨ p.patches ≠ [] ∨ p.openBrowser = none ∧ read.2 =
    true)) ↔ (p.openBrowser.isSome = true → ¬ Clash args) ∧
    (asksNoOpen p = true → terminator ∈ args → p.openBrowser = none ∧
    noOpenFlag ∈ beforeTerminator args) := by
  rw [hport, Option.none_or, Option.isSome_none, strip_false, noOpen_read, terminator_mem_filter,
    hread, argumentInputs_snd, argumentInputs_fst, argumentInputs_fst,
    port_unread_iff (appended_of_port_none hport), ← or_assoc, ← asksNoOpen_iff]
  refine and_congr_right fun _ => ?_
  cases hbrowser : p.openBrowser with
  | none =>
    have hself : args.filter (keeps (none : Option Bool).isSome) = args :=
      List.filter_eq_self.mpr (by simp)
    rw [hself]
    tauto
  | some browser =>
    have hnot : noOpenFlag ∉ beforeTerminator (args.filter (keeps (some browser).isSome)) :=
      fun h => by
        have hkept := List.of_mem_filter ((List.takeWhile_prefix _).subset h)
        simp at hkept
    rw [or_iff_right hnot]
    simp

/-- **The overlay and the report agree exactly on plain arguments.** -/
theorem overlay_agrees_iff (valued : Argument → Bool) (spec : HarnessLaunchSpec)
    (p : HarnessPreferences) (h : harnessPreferencesCliSupported spec = true) :
    Agrees valued spec p (applyHarnessPreferences spec p true) ↔
      Plain valued p (ownArgs spec) := by
  have hread := apply_read (p := p) h
  have horiginal := original_read h
  cases hport : p.port with
  | none =>
    have hkey := noPort_and_noOpen_iff hport _ horiginal
    rw [← hread] at hkey
    have hsome : ¬ p.port.isSome = true := by
      rw [hport]
      exact Bool.false_ne_true
    constructor
    · rintro ⟨hports, hopen, -, hothers⟩
      obtain ⟨hclash, hasked⟩ := hkey.mp ⟨hports, hopen⟩
      exact ⟨(others_kept h valued).mp hothers, fun hs => absurd hs hsome,
        fun hs => absurd hs hsome, fun _ => hasked, fun _ => hclash⟩
    · intro hplain
      obtain ⟨hports, hopen⟩ := hkey.mpr ⟨hplain.unclashing hport, hplain.asked hport⟩
      refine ⟨hports, hopen, fun port hp => ?_, (others_kept h valued).mpr hplain.unremovable⟩
      rw [hport] at hp
      cases hp
  | some port =>
    have hnone : p.port ≠ none := by
      rw [hport]
      exact Option.some_ne_none port
    have hsome : p.port.isSome = true := by rw [hport, Option.isSome_some]
    constructor
    · rintro ⟨hports, hopen, -, hothers⟩
      have hunremovable := (others_kept h valued).mp hothers
      have hkey := port_and_noOpen_iff hport valued hunremovable _ horiginal
      rw [← hread] at hkey
      obtain ⟨hunterminated, hloose⟩ := hkey.mp ⟨hports, hopen⟩
      exact ⟨hunremovable, fun _ => hunterminated, fun _ => hloose,
        fun hn => absurd hn hnone, fun hn => absurd hn hnone⟩
    · intro hplain
      have hkey := port_and_noOpen_iff hport valued hplain.unremovable _ horiginal
      rw [← hread] at hkey
      obtain ⟨hports, hopen⟩ := hkey.mpr ⟨hplain.unterminated hsome, hplain.loose hsome⟩
      exact ⟨hports, hopen, fun _ => apply_readinessUrl h,
        (others_kept h valued).mpr hplain.unremovable⟩

/-- A launch of the program at `dsh-harness/bin.js`. -/
def harnessLaunch (args : List Argument) : HarnessLaunchSpec :=
  { mode := .node, program := none, args := "dsh-harness/bin.js".toList :: args,
    workingDir := none, readinessUrl := none, readinessTimeoutSecs := none,
    readinessTokenRequired := false }

theorem harnessLaunch_supported (args : List Argument) :
    harnessPreferencesCliSupported (harnessLaunch args) = true := by
  have hentry : normalizedEntry (harnessLaunch args) = "dsh-harness/bin.js".toList := by
    simp [normalizedEntry, harnessLaunch, Char.toLower]
  rw [harnessPreferencesCliSupported, hentry]
  simp [splitAtText]

/-- Preferences that ask for the port 4567 and for nothing else. -/
def preferredPort : HarnessPreferences where
  port := some 4567
  openBrowser := none
  patches := []
  port_lt := by simp
  patches_paths := by simp

/-- The overlay replaces the port of a launch that has one. -/
theorem overlay_agrees_small :
    Agrees (fun _ => false) (harnessLaunch ["--port".toList, "80".toList]) preferredPort
      (applyHarnessPreferences (harnessLaunch ["--port".toList, "80".toList]) preferredPort
        true) := by
  refine (overlay_agrees_iff _ _ _ (harnessLaunch_supported _)).mpr ?_
  have hothers : others (fun _ => false) (ownArgs (harnessLaunch ["--port".toList, "80".toList])) =
      [] := by decide
  refine ⟨?_, ?_, fun _ _ _ => by decide, ?_, ?_⟩
  · rw [hothers]
    exact fun arg harg => absurd harg List.not_mem_nil
  · rw [hothers]
    exact fun _ => List.not_mem_nil
  · exact fun h => absurd h (Option.some_ne_none _)
  · exact fun h => absurd h (Option.some_ne_none _)

/-- **Behind a terminator the preferred port is not read**: with the arguments `-- --port 80`, the
port 4567 is appended behind the terminator, and the report reads none. -/
theorem terminated_port_unread :
    ¬ ∀ (valued : Argument → Bool) (spec : HarnessLaunchSpec) (p : HarnessPreferences),
      harnessPreferencesCliSupported spec = true →
        Agrees valued spec p (applyHarnessPreferences spec p true) := by
  intro hall
  have hagrees := hall (fun _ => false) _ preferredPort
    (harnessLaunch_supported ["--".toList, "--port".toList, "80".toList])
  have hport := hagrees.port
  rw [apply_read (harnessLaunch_supported _)] at hport
  have hflags : ∀ arg ∈ strip true false (ownArgs (harnessLaunch
      ["--".toList, "--port".toList, "80".toList])),
      arg ≠ portFlag ∧ assignsPort arg = false := by decide
  exact (port_read rfl hflags).mp hport (by decide)

end DshNexus.LaunchPreferences
