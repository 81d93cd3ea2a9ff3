import Mathlib
import DshNexus.Core.Io
import DshNexus.Core.Utf8

/-!
# Windows of a Harness log

The Agent looks for the address that the Harness prints on its output: `harness_ui.rs` of the
launcher reads a window of the log, splits it at white space and keeps the best address it has
found, together with the bytes that it was read from.

* `Log`: the bytes that were appended, and the ranges that were given back to the disk since.
* `logWordRanges`, `mem_logWordRanges`: the words of a window.
* `observeSnapshot`: one look at a window.
* `Kept.verifyEvidence`: a candidate whose bytes are still in the file passes its check.
* `looked_observeSnapshot`: a look never goes back to an earlier address, never gives up a token for
  an address without one, and leaves every token of the window answered.

The parser of addresses is a parameter: it rests on a library for URLs.
-/

namespace DshNexus.Agent.LogRetention

def HARNESS_LOG_TAIL_BYTES : Nat := 64 * 1024

/-- `u8::is_ascii_whitespace`. -/
def isAsciiWhitespace (byte : UInt8) : Bool :=
  byte = 0x20 || byte = 0x09 || byte = 0x0a || byte = 0x0c || byte = 0x0d

/-! ## 1. The file -/

/-- A log file: what was appended, and the ranges that were reclaimed, which read as zeros. -/
structure Log where
  written : List UInt8
  reclaimed : List (Nat × Nat)

namespace Log

variable (log : Log)

def Reclaimed (i : Nat) : Prop := ∃ range ∈ log.reclaimed, range.1 ≤ i ∧ i < range.2

instance (i : Nat) : Decidable (log.Reclaimed i) :=
  inferInstanceAs (Decidable (∃ range ∈ log.reclaimed, range.1 ≤ i ∧ i < range.2))

/-- The byte that is read at an offset. -/
def byte (i : Nat) : UInt8 := if log.Reclaimed i then 0 else log.written.getD i 0

def read (start count : Nat) : List UInt8 := (List.range count).map fun i => log.byte (start + i)

def length : Nat := log.written.length

/-- The appended byte at an offset is white space. -/
def Space (i : Nat) : Prop := i < log.length ∧ isAsciiWhitespace (log.written.getD i 0) = true

instance (i : Nat) : Decidable (log.Space i) := inferInstanceAs (Decidable (_ ∧ _))

/-- A complete word of the log, with white space or the beginning of the file before it and white
space after it. -/
structure Word (start stop : Nat) : Prop where
  nonempty : start < stop
  left : start = 0 ∨ log.Space (start - 1)
  inside : ∀ i, start ≤ i → i < stop → ¬log.Space i
  right : log.Space stop

/-- The appended bytes of a word. -/
def slice (start stop : Nat) : List UInt8 := (log.written.drop start).take (stop - start)

variable {log}

theorem byte_eq {i : Nat} (h : ¬log.Reclaimed i) : log.byte i = log.written.getD i 0 := if_neg h

theorem length_read (start count : Nat) : (log.read start count).length = count := by simp [read]

theorem read_eq_slice {start stop : Nat} (hstop : stop ≤ log.length)
    (h : ∀ i, start ≤ i → i < stop → ¬log.Reclaimed i) :
    log.read start (stop - start) = log.slice start stop := by
  rw [length] at hstop
  refine List.ext_getElem (by simp [read, slice]; omega) fun i hi _ => ?_
  rw [length_read] at hi
  simp only [read, slice, List.getElem_map, List.getElem_range, List.getElem_take,
    List.getElem_drop]
  rw [byte_eq (h _ (by omega) (by omega)), List.getD_eq_getElem _ _ (by omega)]

theorem Word.lt_length {a b : Nat} (h : log.Word a b) : b < log.length := h.right.1

/-- Two complete words with one end are the same. -/
theorem Word.start_eq {a a' b : Nat} (h : log.Word a b) (h' : log.Word a' b) : a = a' := by
  have hle : ∀ {x y : Nat}, log.Word x b → log.Word y b → x ≤ y := by
    intro x y hx hy
    by_contra hlt
    rcases hx.left with h0 | hspace
    · omega
    · exact hy.inside (x - 1) (by omega) (by have := hx.nonempty; omega) hspace
  exact Nat.le_antisymm (hle h h') (hle h' h)

end Log

/-! ## 2. The words of a window -/

/-- The loop of `log_word_ranges`, at an offset and with the beginning of an open word. -/
def wordRanges : Nat → Option Nat → List UInt8 → List (Nat × Nat)
  | index, start, [] => start.elim [] fun start => [(start, index)]
  | index, start, byte :: bytes =>
      if isAsciiWhitespace byte then
        start.elim [] (fun start => [(start, index)]) ++ wordRanges (index + 1) none bytes
      else wordRanges (index + 1) (start.or (some index)) bytes

def logWordRanges (bytes : List UInt8) : List (Nat × Nat) := wordRanges 0 none bytes

/-- The bytes from `start` to `stop` are a word of the window of `count` bytes. -/
structure Run (f : Nat → UInt8) (count start stop : Nat) : Prop where
  nonempty : start < stop
  le : stop ≤ count
  left : start = 0 ∨ isAsciiWhitespace (f (start - 1)) = true
  inside : ∀ i, start ≤ i → i < stop → isAsciiWhitespace (f i) = false
  right : stop = count ∨ isAsciiWhitespace (f stop) = true

/-- Where the loop stands: in an open word, or after a delimiter. -/
def Opened (f : Nat → UInt8) (index : Nat) : Option Nat → Prop
  | none => index = 0 ∨ isAsciiWhitespace (f (index - 1)) = true
  | some start => start < index ∧ (start = 0 ∨ isAsciiWhitespace (f (start - 1)) = true) ∧
      ∀ i, start ≤ i → i < index → isAsciiWhitespace (f i) = false

/-- A word that begins in the open one, and ends where the loop stands, is the open one. -/
theorem Run.eq_of_opened {f : Nat → UInt8} {count index start a b : Nat}
    (hopen : Opened f index (some start)) (hrun : Run f count a b) (hle : start ≤ a)
    (hstop : b ≤ index) (hcount : index ≤ count) : a = start ∧ b = index := by
  obtain ⟨hlt, -, hin⟩ := hopen
  have hne := hrun.nonempty
  have hspace : ∀ i, start ≤ i → i < index → isAsciiWhitespace (f i) ≠ true := fun i hi hi' =>
    Bool.eq_false_iff.mp (hin i hi hi')
  constructor
  · by_contra hne'
    rcases hrun.left with h0 | h
    · omega
    · exact hspace (a - 1) (by omega) (by omega) h
  · by_contra hne'
    rcases hrun.right with h | h
    · omega
    · exact hspace b (by omega) (by omega) h

theorem mem_wordRanges {f : Nat → UInt8} {a b : Nat} (n : Nat) :
    ∀ {index : Nat} {start : Option Nat}, Opened f index start →
      ((a, b) ∈ wordRanges index start ((List.range' index n).map f) ↔
        start.getD index ≤ a ∧ Run f (index + n) a b) := by
  induction n with
  | zero =>
    intro index start hopen
    rcases start with _ | start
    · simp only [List.range'_zero, List.map_nil, wordRanges, Option.elim, List.not_mem_nil,
        Option.getD_none, false_iff]
      rintro ⟨hle, hrun⟩
      have := hrun.nonempty
      have := hrun.le
      omega
    · simp only [List.range'_zero, List.map_nil, wordRanges, Option.elim, List.mem_singleton,
        Prod.mk.injEq, Option.getD_some]
      constructor
      · rintro ⟨rfl, rfl⟩
        exact ⟨le_rfl, hopen.1, le_rfl, hopen.2.1, hopen.2.2, .inl rfl⟩
      · rintro ⟨hle, hrun⟩
        exact hrun.eq_of_opened hopen hle hrun.le le_rfl
  | succ n ih =>
    intro index start hopen
    rw [List.range'_succ, List.map_cons, wordRanges]
    have hcount : index + (n + 1) = index + 1 + n := by omega
    by_cases hspace : isAsciiWhitespace (f index) = true
    · -- no word has the delimiter in it
      have hnot : ∀ {x y : Nat}, Run f (index + 1 + n) x y → ¬(x ≤ index ∧ index < y) := by
        rintro x y hrun ⟨hx, hy⟩
        rw [hrun.inside index hx hy] at hspace
        cases hspace
      have hopen' : Opened f (index + 1) none := .inr (by simpa using hspace)
      rw [if_pos hspace, List.mem_append, ih hopen', hcount]
      rcases start with _ | start
      · simp only [Option.elim, List.not_mem_nil, false_or, Option.getD_none]
        refine and_congr_left fun hrun => ⟨fun h => by omega, fun h => ?_⟩
        by_contra hlt
        exact hnot hrun ⟨by omega, by have := hrun.nonempty; omega⟩
      · simp only [Option.elim, List.mem_singleton, Prod.mk.injEq, Option.getD_none,
          Option.getD_some]
        constructor
        · rintro (⟨rfl, rfl⟩ | ⟨hle, hrun⟩)
          · exact ⟨le_rfl, hopen.1, by omega, hopen.2.1, hopen.2.2, .inr hspace⟩
          · exact ⟨by have := hopen.1; omega, hrun⟩
        · rintro ⟨hle, hrun⟩
          by_cases hout : index + 1 ≤ a
          · exact .inr ⟨hout, hrun⟩
          have hstop : b ≤ index := by
            by_contra hgt
            exact hnot hrun ⟨by omega, by omega⟩
          exact .inl (hrun.eq_of_opened hopen hle hstop (by omega))
    · rw [if_neg hspace, ih, hcount]
      · rcases start with _ | start <;> simp [Option.or]
      · rw [Bool.not_eq_true] at hspace
        rcases start with _ | start
        · refine ⟨Nat.lt_succ_self _, hopen, fun i hi hlt => ?_⟩
          rwa [show i = index by omega]
        · obtain ⟨hlt, hleft, hin⟩ := hopen
          refine ⟨by omega, hleft, fun i hi hlt => ?_⟩
          by_cases heq : i = index
          · rwa [heq]
          · exact hin i hi (by omega)

/-- The words of a window are the longest parts of it without white space. -/
theorem mem_logWordRanges {f : Nat → UInt8} {n a b : Nat} :
    (a, b) ∈ logWordRanges ((List.range n).map f) ↔ Run f n a b := by
  have hopen : Opened f 0 none := .inl rfl
  rw [logWordRanges, List.range_eq_range', mem_wordRanges n hopen, Nat.zero_add]
  exact and_iff_right (Nat.zero_le a)

theorem pairwise_wordRanges (bytes : List UInt8) :
    ∀ index start, (wordRanges index start bytes).Pairwise (fun v w => v.2 < w.2) ∧
      ∀ w ∈ wordRanges index start bytes, index ≤ w.2 := by
  induction bytes with
  | nil => rintro index (_ | start) <;> simp [wordRanges]
  | cons byte bytes ih =>
    intro index start
    rw [wordRanges]
    split
    · obtain ⟨hpair, hle⟩ := ih (index + 1) none
      rcases start with _ | start
      · exact ⟨hpair, fun w hw => by have := hle w hw; omega⟩
      · refine ⟨List.pairwise_cons.mpr ⟨fun w hw => hle w hw, hpair⟩, fun w hw => ?_⟩
        rcases List.mem_cons.mp hw with rfl | hw
        · exact le_rfl
        · exact Nat.le_of_succ_le (hle w hw)
    · obtain ⟨hpair, hle⟩ := ih (index + 1) (start.or (some index))
      exact ⟨hpair, fun w hw => Nat.le_of_succ_le (hle w hw)⟩

/-! ## 3. What is kept of a log -/

/-- The bytes that a candidate was read from. -/
structure TokenEvidence where
  start : Nat
  bytes : List UInt8
deriving DecidableEq

structure HarnessUrlCandidate where
  url : List Char
  token : Option (List Char)
  source : List Char
  observedAtNanos : Nat
  offset : Nat
  sequence : Nat
deriving DecidableEq

structure HarnessLogCursor where
  candidate : Option HarnessUrlCandidate := none
  evidence : Option TokenEvidence := none

/-- `HarnessLogObserver`, of one stream: an absent cursor is an empty one. -/
structure Observer where
  cursor : HarnessLogCursor := {}
  sequence : Nat := 0
  scanned : Option Nat := none

structure HarnessLogSnapshot where
  length : Nat
  start : Nat
  modifiedAtNanos : Nat
  bytes : List UInt8
  leftDelimited : Bool
  rightDelimited : Bool

def TAIL_BYTES : Nat := 8 * 1024 * 1024

/-- One stream of a session: its file as the session found it. -/
structure LogStream where
  source : List Char
  before : Log
  /-- an earlier session has left the tail alone -/
  tail_kept : ∀ i, before.Reclaimed i → i + TAIL_BYTES ≤ before.length
  /-- the address and the token of a word -/
  parseLoopbackHarnessUrl : List Char → Option (List Char × Option (List Char))

/-- `session.stdout_watermark`, `session.stderr_watermark`. -/
def LogStream.watermark (stream : LogStream) : Nat := stream.before.length

def trimLogUrl (value : List Char) : List Char :=
  let trimmed := fun c => isControl c || "`\"'()[]<>,;.".toList.contains c
  (value.dropWhile trimmed).rdropWhile trimmed

/-- What the loop of `observe_snapshot` reads in the bytes of a word. -/
def LogStream.readWord (stream : LogStream) (bytes : List UInt8) :
    Option (List Char × Option (List Char)) :=
  (Utf8.decode bytes).bind fun word => stream.parseLoopbackHarnessUrl (trimLogUrl word)

def harnessCandidateCmp (left right : HarnessUrlCandidate) : Ordering :=
  (compare left.token.isSome right.token.isSome).then <|
  (compare left.observedAtNanos right.observedAtNanos).then <|
  (compare left.offset right.offset).then <|
  (compare left.source right.source).then (compare left.sequence right.sequence)

theorem harnessCandidateCmp_token {left right : HarnessUrlCandidate} :
    (harnessCandidateCmp left right = .lt → left.token.isSome = true → right.token.isSome = true) ∧
    (harnessCandidateCmp left right ≠ .lt → right.token.isSome = true →
      left.token.isSome = true) := by
  rw [harnessCandidateCmp]
  cases left.token.isSome <;> cases right.token.isSome <;> simp [compare, Ordering.then]

def verifyEvidence (log : Log) (evidence : TokenEvidence) (watermark length : Nat) : Bool :=
  if evidence.start < watermark ∨ evidence.bytes = [] ∨
      HARNESS_LOG_TAIL_BYTES < evidence.bytes.length then false
  else if length ≤ evidence.start + evidence.bytes.length then false
  else
    let left := if evidence.start = 0 then 0 else 1
    let bytes := log.read (evidence.start - 1) (left + evidence.bytes.length + 1)
    (left == 0 || bytes.head?.any isAsciiWhitespace) &&
      (bytes.drop left).take evidence.bytes.length == evidence.bytes &&
      bytes.getLast?.any isAsciiWhitespace

def readLogWindow (log : Log) (modified start stop : Nat) : Option HarnessLogSnapshot :=
  if log.length < stop ∨ stop < start ∨ HARNESS_LOG_TAIL_BYTES < stop - start then none
  else
    let bytes := log.read (start - 1) (stop - (start - 1))
    let leftDelimited := start == 0 || bytes.head?.any isAsciiWhitespace
    let bytes := if start = 0 then bytes else bytes.tail
    some { length := log.length, start := start, modifiedAtNanos := modified, bytes := bytes
           leftDelimited := leftDelimited
           rightDelimited := bytes.getLast?.all isAsciiWhitespace }

section

variable (stream : LogStream) (log : Log)

/-- One round of the loop of `observe_snapshot`. -/
def observeWord (snapshot : HarnessLogSnapshot) (retainedEnd : Option Nat) (observer : Observer)
    (word : Nat × Nat) : Observer :=
  if word.1 = 0 ∧ snapshot.leftDelimited = false ∨
      word.2 = snapshot.bytes.length ∧ snapshot.rightDelimited = false then observer
  else
    let absoluteStart := snapshot.start + word.1
    let absoluteEnd := snapshot.start + word.2
    if absoluteStart < stream.watermark ∨ absoluteEnd ≤ stream.watermark ∨
        retainedEnd.any (absoluteEnd ≤ ·) = true then observer
    else
      let bytes := (snapshot.bytes.drop word.1).take (word.2 - word.1)
      match stream.readWord bytes with
      | none => observer
      | some (url, token) =>
          let nextEvidence := { start := absoluteStart, bytes := bytes : TokenEvidence }
          if observer.cursor.evidence = some nextEvidence then observer
          else
            let next : HarnessUrlCandidate :=
              { url := url, token := token, source := stream.source
                observedAtNanos := snapshot.modifiedAtNanos, offset := absoluteEnd
                sequence := observer.sequence }
            let observer := { observer with sequence := (observer.sequence + 1) % 2 ^ 64 }
            if observer.cursor.candidate.all (harnessCandidateCmp · next == .lt) then
              { observer with cursor := { candidate := some next, evidence := some nextEvidence } }
            else observer

def observeSnapshot (observer : Observer) (snapshot : HarnessLogSnapshot) : Observer :=
  if snapshot.length < stream.watermark then { observer with cursor := {} }
  else
    let verified := observer.cursor.evidence.any fun evidence =>
      verifyEvidence log evidence stream.watermark snapshot.length
    let observer := if verified then observer else { observer with cursor := {} }
    let retainedEnd := observer.cursor.candidate.map (·.offset)
    (logWordRanges snapshot.bytes).foldl (observeWord stream snapshot retainedEnd) observer

/-- `observe_file`: a look at the tail. -/
def observeFile (observer : Observer) (modified : Nat) : Option Observer :=
  (readLogWindow log modified (log.length - HARNESS_LOG_TAIL_BYTES) log.length).map
    (observeSnapshot stream log observer)

end

/-! ## 4. What a look keeps -/

namespace Log

variable {log : Log}

/-- No byte from the one before `start` up to `stop` was reclaimed. -/
def Clean (log : Log) (start stop : Nat) : Prop :=
  ∀ i, start ≤ i + 1 → i < stop → ¬log.Reclaimed i

theorem space_iff {i : Nat} (hi : i < log.length) (h : ¬log.Reclaimed i) :
    isAsciiWhitespace (log.byte i) = true ↔ log.Space i := by
  rw [byte_eq h, Space, and_iff_right hi]

theorem read_succ (start n : Nat) :
    log.read start (n + 1) = log.byte start :: log.read (start + 1) n := by
  rw [read, List.range_succ_eq_map, List.map_cons, List.map_map]
  exact congrArg _ (List.map_congr_left fun i _ => congrArg log.byte (by simp; omega))

theorem getLast?_read (start n : Nat) :
    (log.read start (n + 1)).getLast? = some (log.byte (start + n)) := by
  rw [read, List.range_succ, List.map_append, List.map_singleton, List.getLast?_concat]

theorem take_drop_read (start : Nat) {n a k : Nat} (h : a + k ≤ n) :
    ((log.read start n).drop a).take k = log.read (start + a) k := by
  refine List.ext_getElem (by simp [read]; omega) fun i _ _ => ?_
  simp only [read, List.getElem_take, List.getElem_drop, List.getElem_map, List.getElem_range]
  rw [Nat.add_assoc]

theorem length_slice {start stop : Nat} (h : stop ≤ log.length) :
    (log.slice start stop).length = stop - start := by
  simp only [slice, length, List.length_take, List.length_drop] at h ⊢
  omega

end Log

/-- A snapshot shows what was appended. -/
structure Window (log : Log) (snapshot : HarnessLogSnapshot) : Prop where
  length : snapshot.length = log.length
  le : snapshot.start + snapshot.bytes.length ≤ log.length
  short : snapshot.bytes.length ≤ HARNESS_LOG_TAIL_BYTES
  clean : log.Clean snapshot.start (snapshot.start + snapshot.bytes.length)
  bytes : snapshot.bytes = log.read snapshot.start snapshot.bytes.length
  left : snapshot.leftDelimited = true ↔ snapshot.start = 0 ∨ log.Space (snapshot.start - 1)
  right : snapshot.rightDelimited = snapshot.bytes.getLast?.all isAsciiWhitespace

theorem exists_readLogWindow {log : Log} (modified : Nat) {start stop : Nat}
    (hstop : stop ≤ log.length) (hle : start ≤ stop)
    (hshort : stop - start ≤ HARNESS_LOG_TAIL_BYTES) (hclean : log.Clean start stop) :
    ∃ snapshot, readLogWindow log modified start stop = some snapshot ∧ Window log snapshot ∧
      snapshot.start = start ∧ snapshot.bytes = log.read start (stop - start) := by
  rw [readLogWindow, if_neg (by omega)]
  have hbytes : (if start = 0 then log.read (start - 1) (stop - (start - 1))
      else (log.read (start - 1) (stop - (start - 1))).tail) = log.read start (stop - start) := by
    split
    · next h => rw [h]
    · rw [show stop - (start - 1) = stop - start + 1 by omega, Log.read_succ, List.tail_cons,
        show start - 1 + 1 = start by omega]
  refine ⟨_, rfl, ⟨rfl, ?_, ?_, ?_, ?_, ?_, rfl⟩, rfl, hbytes⟩ <;> dsimp only <;>
    try simp only [hbytes, Log.length_read]
  · omega
  · exact hshort
  · rwa [show start + (stop - start) = stop by omega]
  · rw [Bool.or_eq_true, beq_iff_eq]
    refine or_congr_right' fun h => ?_
    rw [show stop - (start - 1) = stop - start + 1 by omega, Log.read_succ, List.head?_cons,
      Option.any_some, Log.space_iff (by omega) (hclean _ (by omega) (by omega))]

namespace Window

variable {log : Log} {snapshot : HarnessLogSnapshot}

theorem getElem_bytes (hw : Window log snapshot) {i : Nat} (hi : i < snapshot.bytes.length) :
    snapshot.bytes[i] = log.byte (snapshot.start + i) := by
  rw [List.getElem_of_eq hw.bytes]
  simp [Log.read]

/-- A window that is cut after white space is a window. -/
theorem truncate (hw : Window log snapshot) {p : Nat} (hp : p < snapshot.bytes.length)
    (hspace : isAsciiWhitespace snapshot.bytes[p] = true) :
    Window log { snapshot with bytes := snapshot.bytes.take (p + 1), rightDelimited := true } := by
  have htake : snapshot.bytes.take (p + 1) = log.read snapshot.start (p + 1) := by
    conv_lhs => rw [hw.bytes, ← List.drop_zero (l := log.read _ _)]
    exact log.take_drop_read _ (by omega)
  have := hw.le
  have := hw.short
  rw [hw.getElem_bytes] at hspace
  refine ⟨hw.length, ?_, ?_, ?_, ?_, hw.left, ?_⟩ <;> dsimp only <;> rw [htake]
  · rw [Log.length_read]
    omega
  · rw [Log.length_read]
    omega
  · rw [Log.length_read]
    exact fun i hi hi' => hw.clean i hi (by omega)
  · rw [Log.length_read]
  · rw [Log.getLast?_read, Option.all_some, hspace]

/-- The words that are looked at are the complete words of the log in the window. -/
theorem mem_words (hw : Window log snapshot) {a b : Nat} :
    ((a, b) ∈ logWordRanges snapshot.bytes ∧ ¬(a = 0 ∧ snapshot.leftDelimited = false ∨
        b = snapshot.bytes.length ∧ snapshot.rightDelimited = false)) ↔
      b < snapshot.bytes.length ∧ log.Word (snapshot.start + a) (snapshot.start + b) := by
  have hle := hw.le
  have hspace : ∀ i, i < snapshot.bytes.length →
      (isAsciiWhitespace (log.byte (snapshot.start + i)) = true ↔ log.Space (snapshot.start + i)) :=
    fun i hi => Log.space_iff (by omega) (hw.clean _ (by omega) (by omega))
  conv_lhs => lhs; rw [hw.bytes, Log.read, mem_logWordRanges]
  rw [not_or]
  constructor
  · rintro ⟨hrun, hl, hr⟩
    have hne := hrun.nonempty
    have hb : b < snapshot.bytes.length := by
      refine lt_of_le_of_ne hrun.le fun heq => hr ⟨heq, ?_⟩
      have hlast := hrun.inside (b - 1) (by omega) (by omega)
      rw [hw.right, hw.bytes, ← heq, show b = b - 1 + 1 by omega, Log.getLast?_read,
        Option.all_some, hlast]
    refine ⟨hb, by omega, ?_, fun i hi hi' hs => ?_, ?_⟩
    · by_cases ha : a = 0
      · rw [ha, Nat.add_zero, ← hw.left]
        exact Bool.eq_true_of_not_eq_false fun hf => hl ⟨ha, hf⟩
      · have := (hspace _ (by omega)).mp (hrun.left.resolve_left ha)
        exact .inr (by rwa [Nat.add_sub_assoc (by omega)])
    · have := hrun.inside (i - snapshot.start) (by omega) (by omega)
      rw [← Bool.not_eq_true, hspace _ (by omega), Nat.add_sub_cancel' (by omega)] at this
      exact this hs
    · exact (hspace b hb).mp (hrun.right.resolve_left (by omega))
  · rintro ⟨hb, hword⟩
    have hne := hword.nonempty
    refine ⟨⟨by omega, by omega, ?_, fun i hi hi' => ?_, .inr ((hspace b hb).mpr hword.right)⟩, ?_,
      fun h => by omega⟩
    · refine or_iff_not_imp_left.mpr fun ha => (hspace _ (by omega)).mpr ?_
      have := hword.left.resolve_left (by omega)
      rwa [← Nat.add_sub_assoc (by omega)]
    · rw [← Bool.not_eq_true, hspace i (by omega)]
      exact hword.inside _ (by omega) (by omega)
    · rintro ⟨ha, hl⟩
      rw [ha, Nat.add_zero] at hword
      exact Bool.eq_false_iff.mp hl (hw.left.mpr hword.left)

end Window

section

variable (stream : LogStream) (log : Log)

/-- A candidate and the word of this session that it was read from. -/
structure Recorded (candidate : HarnessUrlCandidate) (evidence : TokenEvidence) : Prop where
  word : log.Word evidence.start candidate.offset
  after : stream.watermark ≤ evidence.start
  short : candidate.offset - evidence.start ≤ HARNESS_LOG_TAIL_BYTES
  bytes : evidence.bytes = log.slice evidence.start candidate.offset
  read : stream.readWord evidence.bytes = some (candidate.url, candidate.token)
  source : candidate.source = stream.source

/-- A recorded word whose bytes and delimiters are in the file. -/
def Kept (candidate : HarnessUrlCandidate) (evidence : TokenEvidence) : Prop :=
  Recorded stream log candidate evidence ∧ log.Clean evidence.start (candidate.offset + 1)

/-- A cursor holds a kept candidate, or none. -/
def HarnessLogCursor.Kept (cursor : HarnessLogCursor) : Prop :=
  Option.Rel (LogRetention.Kept stream log) cursor.candidate cursor.evidence

/-- A complete word of this session that is read as an address with a token. -/
def TokenWord (start stop : Nat) : Prop :=
  log.Word start stop ∧ stream.watermark ≤ start ∧
    ∃ url token, stream.readWord (log.slice start stop) = some (url, some token)

end

/-- A candidate gives way to a later one only, and one with a token only to one with a token. -/
def Advances (old new : Option HarnessUrlCandidate) : Prop :=
  ∀ c, old = some c → ∃ c', new = some c' ∧ c.offset ≤ c'.offset ∧
    (c.token.isSome = true → c'.token.isSome = true)

/-- The candidate answers a token that ends at `stop`: it has a token, or it ends no earlier. -/
def Answered (stop : Nat) (candidate : Option HarnessUrlCandidate) : Prop :=
  ∃ c, candidate = some c ∧ (c.token.isSome = true ∨ stop ≤ c.offset)

theorem Advances.refl (c : Option HarnessUrlCandidate) : Advances c c :=
  fun c h => ⟨c, h, le_rfl, id⟩

theorem Advances.trans {a b c : Option HarnessUrlCandidate} (hab : Advances a b)
    (hbc : Advances b c) : Advances a c := by
  intro x hx
  obtain ⟨y, hy, hle, htoken⟩ := hab x hx
  obtain ⟨z, hz, hle', htoken'⟩ := hbc y hy
  exact ⟨z, hz, hle.trans hle', htoken' ∘ htoken⟩

theorem Answered.mono {stop : Nat} {a b : Option HarnessUrlCandidate} (h : Answered stop a)
    (hab : Advances a b) : Answered stop b := by
  obtain ⟨c, hc, h⟩ := h
  obtain ⟨c', hc', hle, htoken⟩ := hab c hc
  exact ⟨c', hc', h.imp htoken (·.trans hle)⟩

variable {stream : LogStream} {log : Log} {snapshot : HarnessLogSnapshot}

theorem Recorded.length_bytes {c : HarnessUrlCandidate} {e : TokenEvidence}
    (h : Recorded stream log c e) : e.start + e.bytes.length = c.offset := by
  have := h.word.lt_length
  have := h.word.nonempty
  rw [h.bytes, Log.length_slice (by omega)]
  omega

/-- What is kept passes its check. -/
theorem Kept.verifyEvidence {c : HarnessUrlCandidate} {e : TokenEvidence}
    (h : Kept stream log c e) : verifyEvidence log e stream.watermark log.length = true := by
  obtain ⟨h, hclean⟩ := h
  have hlt := h.word.lt_length
  have hne := h.word.nonempty
  have hlen := h.length_bytes
  have hshort := h.short
  have hread : log.read e.start e.bytes.length = e.bytes := by
    conv_rhs => rw [h.bytes, ← Log.read_eq_slice (by omega) fun i _ _ =>
      hclean i (by omega) (by omega)]
    rw [← hlen, Nat.add_sub_cancel_left]
  have hright : isAsciiWhitespace (log.byte (e.start + e.bytes.length)) = true := by
    rw [hlen, Log.space_iff hlt (hclean _ (by omega) (by omega))]
    exact h.word.right
  have hnil : e.bytes ≠ [] := fun hnil => by simp only [hnil, List.length_nil] at hlen; omega
  rw [LogRetention.verifyEvidence, if_neg (by have := h.after; simp only [hnil, false_or]; omega),
    if_neg (by omega)]
  by_cases h0 : e.start = 0
  · rw [h0, Nat.zero_add] at hright
    have htake := log.take_drop_read 0 (n := e.bytes.length + 1) (a := 0) (k := e.bytes.length)
      (by omega)
    rw [List.drop_zero] at htake
    rw [h0] at hread
    simp [h0, Log.getLast?_read, hright, htake, hread]
  · have hleft : isAsciiWhitespace (log.byte (e.start - 1)) = true :=
      (Log.space_iff (by omega) (hclean _ (by omega) (by omega))).mpr
        (h.word.left.resolve_left h0)
    have htake := log.take_drop_read (e.start - 1) (n := 1 + e.bytes.length + 1) (a := 1)
      (k := e.bytes.length) (by omega)
    rw [show e.start - 1 + 1 = e.start by omega, hread] at htake
    simp only [if_neg h0, htake, Log.getLast?_read]
    rw [show e.start - 1 + (1 + e.bytes.length) = e.start + e.bytes.length by omega,
      show 1 + e.bytes.length + 1 = e.bytes.length + 1 + 1 by omega, Log.read_succ]
    simp [hleft, hright]

/-- What a look at words leaves that end before `stop`, where a word that ends by `r` is skipped. -/
structure Looked (stream : LogStream) (log : Log) (r : Option Nat) (stop : Nat) (o o' : Observer)
    (words : List (Nat × Nat)) : Prop where
  scanned : o'.scanned = o.scanned
  kept : o'.cursor.Kept stream log
  advances : Advances o.cursor.candidate o'.cursor.candidate
  offset : ∀ c, o'.cursor.candidate = some c →
    o.cursor.candidate = some c ∨ ∃ w ∈ words, c.offset = w.2
  answered : ∀ w ∈ words, w.2 < stop → TokenWord stream log w.1 w.2 →
    r.any (w.2 ≤ ·) = true ∨ Answered w.2 o'.cursor.candidate

/-- A word that is answered already, or that is no token, changes nothing. -/
theorem Looked.unchanged {r : Option Nat} {stop : Nat} {o : Observer} {w : Nat × Nat}
    (hkept : o.cursor.Kept stream log) (n : Nat)
    (h : w.2 < stop → TokenWord stream log w.1 w.2 →
      r.any (w.2 ≤ ·) = true ∨ Answered w.2 o.cursor.candidate) :
    Looked stream log r stop o { o with sequence := n } [w] := by
  refine ⟨rfl, hkept, .refl _, fun c hc => .inl hc, fun v hmem => ?_⟩
  obtain rfl := List.mem_singleton.mp hmem
  exact h

theorem looked_observeWord (stream : LogStream) (hw : Window log snapshot) {r : Option Nat}
    {o : Observer} {a b : Nat} (hkept : o.cursor.Kept stream log)
    (hmem : (a, b) ∈ logWordRanges snapshot.bytes)
    (hlast : ∀ c, o.cursor.candidate = some c →
      r.any (snapshot.start + b ≤ ·) = true ∨ c.offset < snapshot.start + b) :
    Looked stream log r (snapshot.start + snapshot.bytes.length) o
      (observeWord stream snapshot r o (a, b)) [(snapshot.start + a, snapshot.start + b)] := by
  have hle := hw.le
  rw [observeWord]
  split
  · next hcut =>
    exact .unchanged hkept _ fun hb htoken =>
      absurd hcut (hw.mem_words.mpr ⟨by simpa using hb, htoken.1⟩).2
  next hcut =>
  obtain ⟨hb, hword⟩ := hw.mem_words.mp ⟨hmem, hcut⟩
  have hne := hword.nonempty
  have hbytes : (snapshot.bytes.drop a).take (b - a) =
      log.slice (snapshot.start + a) (snapshot.start + b) := by
    rw [hw.bytes, log.take_drop_read _ (by omega), ← Log.read_eq_slice (by omega) fun i _ _ =>
      hw.clean i (by omega) (by omega), Nat.add_sub_add_left]
  dsimp only
  split
  · next hskip =>
    refine .unchanged hkept _ fun _ htoken => ?_
    have := htoken.2.1
    rcases hskip with h | h | h
    · omega
    · omega
    · exact .inl h
  next hskip =>
  rw [not_or, not_or, Nat.not_lt] at hskip
  rw [hbytes]
  split
  · next hread =>
    exact .unchanged hkept _ fun _ ⟨_, _, url, token, h⟩ => by rw [h] at hread; cases hread
  next url token hread =>
  split
  · next heq =>
    refine .unchanged hkept _ fun _ _ => ?_
    obtain ⟨⟨_ | c, _ | e⟩, _, _⟩ := o
    · cases heq
    · cases hkept
    · cases heq
    obtain ⟨⟨hrec, -⟩⟩ := hkept
    obtain rfl := Option.some.inj heq
    have hend := hrec.length_bytes
    dsimp only at hend
    rw [Log.length_slice (by omega)] at hend
    exact .inr ⟨c, rfl, .inr (by omega)⟩
  split
  · next hcmp =>
    refine ⟨rfl, .some ⟨⟨hword, hskip.1, ?_, rfl, hread, rfl⟩, fun i hi hi' => ?_⟩, fun c hc => ?_,
      fun c hc => .inr ⟨_, List.mem_singleton_self _, ?_⟩, fun w hw _ _ => .inr ?_⟩
    · have := hw.short
      dsimp only
      omega
    · dsimp only at hi hi'
      exact hw.clean i (by omega) (by omega)
    · rw [hc, Option.all_some, beq_iff_eq] at hcmp
      exact ⟨_, rfl, ((hlast c hc).resolve_left hskip.2.2).le, harnessCandidateCmp_token.1 hcmp⟩
    · rw [← Option.some.inj hc]
    · rw [List.mem_singleton.mp hw]
      exact ⟨_, rfl, .inr le_rfl⟩
  · next hcmp =>
    refine .unchanged hkept _ fun _ ⟨_, _, url', token', h⟩ => .inr ?_
    rw [hread, Option.some.injEq, Prod.mk.injEq] at h
    rcases hc : o.cursor.candidate with _ | c
    · simp [hc] at hcmp
    · rw [hc, Option.all_some, beq_iff_eq] at hcmp
      exact ⟨c, rfl, .inl (harnessCandidateCmp_token.2 hcmp (by rw [h.2]; rfl))⟩

theorem looked_foldl (stream : LogStream) (hw : Window log snapshot) {r : Option Nat} :
    ∀ (words : List (Nat × Nat)) (o : Observer), words.Pairwise (fun v w => v.2 < w.2) →
      (∀ w ∈ words, w ∈ logWordRanges snapshot.bytes) → o.cursor.Kept stream log →
      (∀ c, o.cursor.candidate = some c → ∀ w ∈ words,
        r.any (snapshot.start + w.2 ≤ ·) = true ∨ c.offset < snapshot.start + w.2) →
      Looked stream log r (snapshot.start + snapshot.bytes.length) o
        (words.foldl (observeWord stream snapshot r) o)
        (words.map fun w => (snapshot.start + w.1, snapshot.start + w.2)) := by
  intro words
  induction words with
  | nil => exact fun o _ _ hkept _ => ⟨rfl, hkept, .refl _, fun c hc => .inl hc, by simp⟩
  | cons word words ih =>
    intro o hpair hmem hkept hlast
    obtain ⟨hlt, hpair⟩ := List.pairwise_cons.mp hpair
    have hhead := looked_observeWord stream hw hkept (hmem word List.mem_cons_self)
      fun c hc => hlast c hc word List.mem_cons_self
    have htail := ih _ hpair (fun w h => hmem w (List.mem_cons_of_mem _ h)) hhead.kept
      fun c hc w h => (hhead.offset c hc).elim
        (fun hold => hlast c hold w (List.mem_cons_of_mem _ h)) fun ⟨v, hv, heq⟩ => .inr (by
          have := hlt w h
          rw [List.mem_singleton.mp hv] at heq
          dsimp only at heq
          omega)
    refine ⟨htail.scanned.trans hhead.scanned, htail.kept, hhead.advances.trans htail.advances,
      fun c hc => ?_, fun w hmem hstop htoken => ?_⟩
    · rw [List.map_cons]
      rcases htail.offset c hc with hold | ⟨v, hv, heq⟩
      · refine (hhead.offset c hold).imp_right fun ⟨v, hv, heq⟩ => ⟨v, ?_, heq⟩
        exact List.mem_cons.mpr (.inl (List.mem_singleton.mp hv))
      · exact .inr ⟨v, List.mem_cons_of_mem _ hv, heq⟩
    · rcases List.mem_cons.mp hmem with rfl | hmem
      · exact (hhead.answered _ (List.mem_singleton_self _) hstop htoken).imp_right
          (·.mono htail.advances)
      · exact htail.answered w hmem hstop htoken

/-- **A look at a window** keeps a candidate whose bytes are in the file, does not go back, and
leaves every token of the window answered. -/
theorem looked_observeSnapshot (hw : Window log snapshot) {o : Observer}
    (hlength : stream.watermark ≤ log.length) (hkept : o.cursor.Kept stream log) :
    let o' := observeSnapshot stream log o snapshot
    o'.scanned = o.scanned ∧ o'.cursor.Kept stream log ∧
    Advances o.cursor.candidate o'.cursor.candidate ∧
    ∀ a b, snapshot.start ≤ a → b < snapshot.start + snapshot.bytes.length →
      TokenWord stream log a b → Answered b o'.cursor.candidate := by
  have hverified : (if (o.cursor.evidence.any fun evidence =>
      verifyEvidence log evidence stream.watermark snapshot.length) = true then o
      else { o with cursor := {} }) = o := by
    obtain ⟨⟨_ | c, _ | e⟩, _, _⟩ := o
    · rfl
    · cases hkept
    · cases hkept
    · obtain ⟨h⟩ := hkept
      exact if_pos (by rw [hw.length]; exact h.verifyEvidence)
  have hlooked := looked_foldl stream hw (r := o.cursor.candidate.map (·.offset)) _ o
    (pairwise_wordRanges snapshot.bytes 0 none).1 (fun _ h => h) hkept fun c hc w _ => by
      rw [hc, Option.map_some, Option.any_some, decide_eq_true_eq]
      exact Nat.lt_or_ge _ _ |>.symm
  rw [observeSnapshot, if_neg (by rw [hw.length]; omega)]
  dsimp only
  rw [hverified]
  refine ⟨hlooked.scanned, hlooked.kept, hlooked.advances, fun a b ha hb htoken => ?_⟩
  have hne := htoken.1.nonempty
  have hword := (hw.mem_words (a := a - snapshot.start) (b := b - snapshot.start)).mpr
    ⟨by omega, by
      simpa [Nat.add_sub_cancel' ha, Nat.add_sub_cancel' (ha.trans hne.le)] using htoken.1⟩
  have hmem := List.mem_map_of_mem
    (f := fun w : Nat × Nat => (snapshot.start + w.1, snapshot.start + w.2)) hword.1
  rw [Nat.add_sub_cancel' ha, Nat.add_sub_cancel' (ha.trans hne.le)] at hmem
  rcases hlooked.answered (a, b) hmem hb htoken with hany | h
  · obtain ⟨_, hoffset, hle⟩ := (Option.any_eq_true _ _).mp hany
    obtain ⟨c, hc, rfl⟩ := Option.map_eq_some_iff.mp hoffset
    exact Answered.mono ⟨c, hc, .inr (of_decide_eq_true hle)⟩ hlooked.advances
  · exact h

end DshNexus.Agent.LogRetention
