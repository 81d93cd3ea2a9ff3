import DshNexus.Agent.DiagnosticRedaction

/-!
# The tail of a command's output

`newest_command_tail` of `crates/nexus-agent/src/cold.rs`: while a command runs, Nexus shows the
end of its newest log.

1. The listing of the run directory, and the bytes that are read of the newest log.
2. `newestCommandTail`, which cuts the cleaned text 2000 bytes before its end.
3. `newest_command_tail_iff`: the cut succeeds exactly where no character lies across it.
-/

namespace DshNexus.Diagnostics

open Text

/-! ## 1. The newest log -/

/-- A file that is open: its length by its metadata, and its bytes when they are read. -/
structure OpenedLog where
  length : Nat
  content : Bytes

/-- An entry of the run directory.  Its time or its content may not be readable. -/
structure RunEntry where
  name : List Char
  modified : Option Nat
  file : Option OpenedLog

def TAIL_BYTES : Nat := 4096

/-- The name of a command's diagnostics. -/
def isCommandLog (name : List Char) : Bool :=
  "cold-command-".toList.isPrefixOf name && ".stderr.tmp".toList.isSuffixOf name

/-- `max_by_key`: of the entries with the greatest time, the last one. -/
def newest (entries : List RunEntry) : Option RunEntry :=
  let dated := entries.filterMap fun entry => entry.modified.map fun time => (entry, time)
  (dated.foldl
    (fun best entry =>
      match best with
      | some kept => if kept.2 ≤ entry.2 then some entry else some kept
      | none => some entry)
    none).map Prod.fst

/-- The end of a log, as it is read: `TAIL_BYTES` before its length at most. -/
def OpenedLog.window (log : OpenedLog) : Bytes :=
  (log.content.drop (log.length - TAIL_BYTES)).take TAIL_BYTES

/-- The bytes that are read of the newest log, if there is one and it can be read. -/
def newestWindow (runDir : Option (List RunEntry)) : Option Bytes := do
  let entries ← runDir
  let entry ← newest (entries.filter fun entry => isCommandLog entry.name)
  let log ← entry.file
  return log.window

/-! ## 2. The tail -/

inductive Panic where
  | notCharBoundary
  deriving DecidableEq, Repr

def TAIL_LENGTH : Nat := 2000

/-- The text of a log: redacted, and without control characters. -/
def cleanedText (json : JsonCodec) (bytes : Bytes) : List Char :=
  (Utf8.decodeLossy (redactDiagnosticsPayload json bytes).1).filter fun c => !isControl c

def newestCommandTail (json : JsonCodec) (runDir : Option (List RunEntry)) :
    Except Panic (Option (List Char)) :=
  match newestWindow runDir with
  | none => .ok none
  | some bytes =>
      let cleaned := cleanedText json bytes
      let start := Utf8.byteLength cleaned - TAIL_LENGTH
      match Utf8.sliceFrom cleaned start with
      | none => .error .notCharBoundary
      | some tail => .ok (some tail)

/-! ## 3. When the tail is shown -/

/-- **The tail of the newest log is returned, bounded, and a suffix of the cleaned text.** -/
structure BoundedTail (json : JsonCodec) (runDir : Option (List RunEntry)) : Prop where
  returns : ∃ answer, newestCommandTail json runDir = .ok answer
  suffix : ∀ bytes, newestWindow runDir = some bytes →
    ∃ tail, newestCommandTail json runDir = .ok (some tail) ∧
      Utf8.byteLength tail ≤ TAIL_LENGTH ∧ tail <:+ cleanedText json bytes

/-- A character of the text begins more, and ends less, than the length of a tail before the
text's end. -/
def StraddlesCut (text : List Char) : Prop :=
  ∃ before c rest, text = before ++ c :: rest ∧
    Utf8.byteLength rest < TAIL_LENGTH ∧ TAIL_LENGTH < Utf8.byteLength (c :: rest)

theorem sliceFrom_tail_eq_none (text : List Char) :
    Utf8.sliceFrom text (Utf8.byteLength text - TAIL_LENGTH) = none ↔ StraddlesCut text := by
  rw [Utf8.sliceFrom_eq_none (Nat.sub_le _ _)]
  constructor
  · rintro ⟨before, c, rest, htext, hbefore, hafter⟩
    refine ⟨before, c, rest, htext, ?_, ?_⟩ <;>
      rw [htext, Utf8.byteLength_append, Utf8.byteLength_cons] at hbefore hafter
    · omega
    · rw [Utf8.byteLength_cons]
      omega
  · rintro ⟨before, c, rest, htext, hrest, hcut⟩
    refine ⟨before, c, rest, htext, ?_, ?_⟩ <;>
      rw [Utf8.byteLength_cons] at hcut <;>
      rw [htext, Utf8.byteLength_append, Utf8.byteLength_cons] <;> omega

theorem suffix_of_sliceFrom {text tail : List Char}
    (h : Utf8.sliceFrom text (Utf8.byteLength text - TAIL_LENGTH) = some tail) :
    Utf8.byteLength tail ≤ TAIL_LENGTH ∧ tail <:+ text := by
  obtain ⟨before, htext, hlength⟩ := Utf8.sliceFrom_eq_some.mp h
  have hsum : Utf8.byteLength text = Utf8.byteLength before + Utf8.byteLength tail := by
    rw [htext, Utf8.byteLength_append]
  exact ⟨by omega, before, htext.symm⟩

/-- **The tail of a command's log is shown exactly where no character of the cleaned text lies
across the cut.** -/
theorem newest_command_tail_iff (json : JsonCodec) (runDir : Option (List RunEntry)) :
    BoundedTail json runDir ↔
      ∀ bytes, newestWindow runDir = some bytes → ¬ StraddlesCut (cleanedText json bytes) := by
  constructor
  · intro h bytes hbytes hcut
    obtain ⟨tail, htail, _⟩ := h.suffix bytes hbytes
    rw [newestCommandTail, hbytes] at htail
    simp only [(sliceFrom_tail_eq_none _).mpr hcut] at htail
    cases htail
  · intro h
    cases hwindow : newestWindow runDir with
    | none =>
      refine ⟨⟨none, by rw [newestCommandTail, hwindow]⟩, fun bytes hbytes => ?_⟩
      rw [hwindow] at hbytes
      cases hbytes
    | some bytes =>
      have hcut := h bytes hwindow
      rw [← sliceFrom_tail_eq_none] at hcut
      obtain ⟨tail, htail⟩ := Option.ne_none_iff_exists'.mp hcut
      have hanswer : newestCommandTail json runDir = .ok (some tail) := by
        rw [newestCommandTail, hwindow]
        simp only [htail]
      refine ⟨⟨some tail, hanswer⟩, fun bytes' hbytes' => ⟨tail, hanswer, ?_⟩⟩
      rw [hwindow] at hbytes'
      obtain rfl := Option.some.inj hbytes'
      exact suffix_of_sliceFrom htail

theorem cleanedText_of_plain {json : JsonCodec} {text : List Char} (hjson : json.parse text = none)
    (hne : text ≠ []) (hplain : ∀ c ∈ text, PlainChar c ∧ isControl c = false) :
    cleanedText json (Utf8.encode text) = text := by
  have hredact := redactDiagnosticText_of_plain hne fun c hc => (hplain c hc).1
  unfold cleanedText redactDiagnosticsPayload
  rw [Utf8.decode_encode]
  simp only [hjson, Option.filter_none, hredact]
  rw [Utf8.decodeLossy_encode, List.filter_eq_self]
  intro c hc
  rw [(hplain c hc).2]
  rfl

/-- A log of characters of four bytes, and one of one byte. -/
def wideLog (n : Nat) : List Char := List.replicate n (Char.ofNat 0x10000) ++ ['a']

theorem byteLength_wideLog (n : Nat) : Utf8.byteLength (wideLog n) = 4 * n + 1 := by
  have hwide : (Char.ofNat 0x10000).utf8Size = 4 := by decide
  have hlast : 'a'.utf8Size = 1 := by decide
  simp [wideLog, Utf8.byteLength, hwide, hlast]
  omega

theorem wideLog_succ (n : Nat) : wideLog (n + 1) = Char.ofNat 0x10000 :: wideLog n := by
  rw [wideLog, List.replicate_succ, List.cons_append, wideLog]

/-- A platform on which no text is a document. -/
def plainJson : JsonCodec := ⟨fun _ => none, fun _ => none⟩

theorem cleanedText_wideLog (n : Nat) :
    cleanedText plainJson (Utf8.encode (wideLog n)) = wideLog n := by
  refine cleanedText_of_plain rfl ?_ fun c hc => ?_
  · exact List.append_ne_nil_of_right_ne_nil _ (List.cons_ne_nil _ _)
  · unfold PlainChar
    rcases List.mem_append.mp hc with hc | hc
    · rw [List.eq_of_mem_replicate hc]
      decide
    · rw [List.mem_singleton.mp hc]
      decide

def wideRun (n : Nat) : Option (List RunEntry) :=
  some [⟨"cold-command-1.stderr.tmp".toList, some 0,
    some ⟨4 * n + 1, Utf8.encode (wideLog n)⟩⟩]

theorem newestWindow_wideRun {n : Nat} (hn : 4 * n + 1 ≤ TAIL_BYTES) :
    newestWindow (wideRun n) = some (Utf8.encode (wideLog n)) := by
  have hlength : (Utf8.encode (wideLog n)).length = 4 * n + 1 := by
    rw [Utf8.length_encode, byteLength_wideLog]
  have hwindow : OpenedLog.window ⟨4 * n + 1, Utf8.encode (wideLog n)⟩ =
      Utf8.encode (wideLog n) := by
    unfold OpenedLog.window
    rw [Nat.sub_eq_zero_of_le hn, List.drop_zero]
    exact List.take_of_length_le (by rw [hlength]; exact hn)
  have hname : isCommandLog "cold-command-1.stderr.tmp".toList = true := by decide
  unfold newestWindow wideRun
  simp only [Option.bind_eq_bind, Option.bind_some, List.filter_cons, hname, if_true,
    List.filter_nil]
  show some (OpenedLog.window _) = _
  rw [hwindow]

theorem newestCommandTail_wideRun {n : Nat} (hn : 4 * n + 1 ≤ TAIL_BYTES)
    (hcut : StraddlesCut (wideLog n)) :
    newestCommandTail plainJson (wideRun n) = .error .notCharBoundary := by
  rw [newestCommandTail, newestWindow_wideRun hn]
  simp only [cleanedText_wideLog, (sliceFrom_tail_eq_none _).mpr hcut]

/-- The tail of this log of 2001 bytes is not returned: byte 1 of it is inside a character. -/
theorem newest_command_tail_panics :
    newestCommandTail plainJson (wideRun 500) = .error .notCharBoundary ∧
      ¬ BoundedTail plainJson (wideRun 500) := by
  have hcut : StraddlesCut (wideLog 500) := by
    refine ⟨[], Char.ofNat 0x10000, wideLog 499, wideLog_succ 499, ?_, ?_⟩
    · rw [byteLength_wideLog]
      decide
    · rw [← wideLog_succ, byteLength_wideLog]
      decide
  have hpanic := newestCommandTail_wideRun (by decide) hcut
  refine ⟨hpanic, fun h => ?_⟩
  obtain ⟨answer, hanswer⟩ := h.returns
  rw [hpanic] at hanswer
  cases hanswer

end DshNexus.Diagnostics
