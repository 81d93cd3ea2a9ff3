import Mathlib
import DshNexus.Agent.LogWindow
import DshNexus.Concurrent.System

/-!
# Retention of the Harness logs

The logs of the Harness only grow.  The Agent gives the disk space of their old parts back, after
it has looked for the address of the Harness in them: `retain_harness_logs` scans the log from
where the last scan stopped, writes what it found to an index on the disk, and only then reclaims.
Several observers, of the Agent and of the launcher, share the index and its lock; each has its own
memory, and the Harness appends at any time.

* `scanWindows`: at most eight windows of 64 KiB, and where the next scan begins.
* `obsoleteRanges`, `maintain`, `mem_maintain`: what is reclaimed.
* `system`: the log, the index and the observers, in any order of their steps.
* `unscanned_words_stay`: what the index has not passed can be read in full.
* `passed_tokens_answered`: a token that the index has passed is answered by the address in it.

One stream is followed.  The number that counts the candidates is shared with the other one, so it
may change at any time.
-/

namespace DshNexus.Agent.LogRetention

open Concurrent Function

/-! ## 1. A scan -/

/-- The last white space of a window. -/
def rposition (bytes : List UInt8) : Option Nat :=
  (bytes.reverse.findIdx? isAsciiWhitespace).map (bytes.length - 1 - ·)

theorem rposition_eq_some {bytes : List UInt8} {p : Nat} (h : rposition bytes = some p) :
    ∃ h : p < bytes.length, isAsciiWhitespace bytes[p] = true := by
  obtain ⟨q, hq, rfl⟩ := Option.map_eq_some_iff.mp h
  obtain ⟨hlt, hspace, -⟩ := List.findIdx?_eq_some_iff_getElem.mp hq
  rw [List.getElem_reverse] at hspace
  rw [List.length_reverse] at hlt
  exact ⟨by omega, hspace⟩

theorem rposition_eq_none {bytes : List UInt8} (h : rposition bytes = none) :
    ∀ byte ∈ bytes, isAsciiWhitespace byte = false := by
  rw [rposition, Option.map_eq_none_iff, List.findIdx?_eq_none_iff] at h
  exact fun byte hmem => h byte (List.mem_reverse.mpr hmem)

section

variable (stream : LogStream) (log : Log)

/-- The loop of `retain_harness_logs` over the windows of one file. -/
def scanWindows (length : Nat) (modified : Nat → Nat) :
    Nat → Nat → Observer → Option (Observer × Nat)
  | 0, start, observer => some (observer, start)
  | left + 1, start, observer =>
      if length ≤ start then some (observer, start)
      else
        let stop := min (start + HARNESS_LOG_TAIL_BYTES) length
        (readLogWindow log (modified left) start stop).bind fun snapshot =>
          match rposition snapshot.bytes with
          | some p =>
              let snapshot :=
                { snapshot with bytes := snapshot.bytes.take (p + 1), rightDelimited := true }
              scanWindows length modified left (start + (p + 1))
                (observeSnapshot stream log observer snapshot)
          | none =>
              if stop - start = HARNESS_LOG_TAIL_BYTES then
                scanWindows length modified left stop (observeSnapshot stream log observer snapshot)
              else some (observer, start)

/-- Where the next scan begins. -/
def Observer.position (observer : Observer) : Nat := observer.scanned.getD stream.watermark

/-- The part of `retain_harness_logs` that scans one file. -/
def scan (observer : Observer) (modified : Nat → Nat) : Option Observer :=
  if log.length < observer.position stream then none
  else (scanWindows stream log log.length modified 8 (observer.position stream) observer).map
    fun (observer, start) => { observer with scanned := some start }

/-! ## 2. The index -/

/-- The index of one stream. -/
structure StreamEvidence where
  scanned : Nat
  candidate : Option HarnessUrlCandidate
  evidence : Option TokenEvidence

/-- What `persist_evidence` writes. -/
def Observer.streamEvidence (observer : Observer) : StreamEvidence :=
  { scanned := observer.position stream
    candidate := observer.cursor.candidate
    evidence := observer.cursor.evidence }

def restoreEvidence (saved : StreamEvidence) (observer : Observer) : Observer :=
  if saved.scanned < stream.watermark ∨ log.length < saved.scanned then observer
  else
    let observer := { observer with
      scanned := some (observer.scanned.elim saved.scanned (max · saved.scanned)) }
    match saved.candidate, saved.evidence with
    | some candidate, some evidence =>
        if HARNESS_LOG_TAIL_BYTES < evidence.bytes.length ∨
            verifyEvidence log evidence stream.watermark log.length = false ∨
            candidate.offset ≠ evidence.start + evidence.bytes.length ∨
            candidate.source ≠ stream.source then observer
        else if stream.readWord evidence.bytes ≠ some (candidate.url, candidate.token) then observer
        else if observer.cursor.candidate.all (·.offset < candidate.offset) then
          { observer with
            sequence := max observer.sequence (min (candidate.sequence + 1) (2 ^ 64 - 1))
            cursor := { candidate := some candidate, evidence := some evidence } }
        else observer
    | _, _ => observer

end

/-! ## 3. What is reclaimed -/

/-- The loop of `obsolete_ranges`. -/
def gaps (stop : Nat) : Nat → List (Nat × Nat) → List (Nat × Nat)
  | cursor, [] => if cursor < stop then [(cursor, stop)] else []
  | cursor, range :: ranges =>
      let start := min range.1 stop
      (if cursor < start then [(cursor, start)] else []) ++ gaps stop (min range.2 stop) ranges

def obsoleteRanges (length : Nat) (protectedRanges : List (Nat × Nat)) :
    Option (List (Nat × Nat)) :=
  if 1 < protectedRanges.length ∨ protectedRanges.any
      (fun range => range.2 ≤ range.1 || length < range.2 || 65538 < range.2 - range.1) = true then
    none
  else some (gaps (length - TAIL_BYTES) 0 protectedRanges)

def wholeBlocks (block : Nat) (range : Nat × Nat) : Option (Nat × Nat) :=
  if block = 0 ∨ 2 ^ 64 ≤ range.1 + (block - 1) then none
  else
    let start := (range.1 + (block - 1)) / block * block
    let stop := range.2 / block * block
    if start < stop then some (start, stop) else none

/-- The ranges that `maintain` asks the system to give back: whole blocks of the volume on macOS,
and the ranges themselves on Windows. -/
def maintain (length : Nat) (protectedRanges : List (Nat × Nat)) (scannedThrough : Option Nat)
    (block : Option Nat) : Option (List (Nat × Nat)) :=
  (obsoleteRanges length protectedRanges).map fun ranges =>
    let ranges := ranges.filterMap fun range =>
      let stop := min range.2 (scannedThrough.getD (2 ^ 64 - 1))
      if range.1 < stop then some (range.1, stop) else none
    block.elim ranges fun block => ranges.filterMap (wholeBlocks block)

theorem wholeBlocks_subset {block : Nat} {range range' : Nat × Nat}
    (h : wholeBlocks block range = some range') : range.1 ≤ range'.1 ∧ range'.2 ≤ range.2 := by
  rw [wholeBlocks] at h
  split at h
  · cases h
  next hblock =>
  dsimp only at h
  split at h
  · obtain rfl := Option.some.inj h
    have hround := Nat.div_add_mod (range.1 + (block - 1)) block
    have hmod := Nat.mod_lt (range.1 + (block - 1)) (show block > 0 by omega)
    refine ⟨?_, Nat.div_mul_le_self _ _⟩
    dsimp only
    rw [Nat.mul_comm]
    omega
  · cases h

/-- What is obsolete lies before the tail and outside of the protected range. -/
theorem mem_obsoleteRanges {length : Nat} {protectedRanges ranges : List (Nat × Nat)}
    (h : obsoleteRanges length protectedRanges = some ranges) {range : Nat × Nat}
    (hrange : range ∈ ranges) {i : Nat} (hi : range.1 ≤ i ∧ i < range.2) :
    i + TAIL_BYTES < length ∧ ∀ kept ∈ protectedRanges, ¬(kept.1 ≤ i ∧ i < kept.2) := by
  rw [obsoleteRanges] at h
  split at h
  · cases h
  next hvalid =>
  obtain rfl := Option.some.inj h
  have hgap : ∀ {cursor stop : Nat}, range ∈ (if cursor < stop then [(cursor, stop)] else []) →
      cursor ≤ i ∧ i < stop := by
    intro cursor stop hmem
    split at hmem
    · obtain rfl := List.mem_singleton.mp hmem
      exact hi
    · cases hmem
  rcases protectedRanges with _ | ⟨kept, _ | _⟩
  · rw [gaps] at hrange
    have := hgap hrange
    exact ⟨by omega, fun _ h => by cases h⟩
  · rw [gaps, gaps, List.mem_append] at hrange
    have hout : i + TAIL_BYTES < length ∧ ¬(kept.1 ≤ i ∧ i < kept.2) := by
      rcases hrange with hmem | hmem
      · have := hgap hmem
        omega
      · have := hgap hmem
        omega
    exact ⟨hout.1, fun k hk => by rw [List.mem_singleton.mp hk]; exact hout.2⟩
  · exact absurd (.inl (by simp)) hvalid

/-- Only what lies before the tail and before the end of the scan, and outside of the protected
range, is reclaimed. -/
theorem mem_maintain {length scanned : Nat} {protectedRanges ranges : List (Nat × Nat)}
    {block : Option Nat} (h : maintain length protectedRanges (some scanned) block = some ranges)
    {range : Nat × Nat} (hrange : range ∈ ranges) {i : Nat} (hi : range.1 ≤ i ∧ i < range.2) :
    i + TAIL_BYTES < length ∧ i < scanned ∧
      ∀ kept ∈ protectedRanges, ¬(kept.1 ≤ i ∧ i < kept.2) := by
  rw [maintain, Option.map_eq_some_iff] at h
  obtain ⟨obsolete, hobsolete, rfl⟩ := h
  have hcut : ∀ r ∈ obsolete.filterMap fun range =>
      let stop := min range.2 ((some scanned).getD (2 ^ 64 - 1))
      if range.1 < stop then some (range.1, stop) else none,
      r.1 ≤ i → i < r.2 → ∃ range' ∈ obsolete, range'.1 ≤ i ∧ i < min range'.2 scanned := by
    intro r hr h1 h2
    obtain ⟨range', hmem, h⟩ := List.mem_filterMap.mp hr
    dsimp only at h
    split at h
    · obtain rfl := Option.some.inj h
      exact ⟨range', hmem, h1, h2⟩
    · cases h
  obtain ⟨range', hmem, hsub⟩ : ∃ range' ∈ obsolete,
      range'.1 ≤ i ∧ i < min range'.2 scanned := by
    rcases block with _ | block
    · exact hcut range hrange hi.1 hi.2
    · obtain ⟨r, hr, h⟩ := List.mem_filterMap.mp hrange
      have := wholeBlocks_subset h
      exact hcut r hr (by omega) (by omega)
  obtain ⟨htail, hout⟩ := mem_obsoleteRanges hobsolete hmem ⟨hsub.1, by omega⟩
  exact ⟨htail, by omega, hout⟩

/-! ## 4. The system -/

/-- Where a call stands that holds the lock. -/
inductive Phase
  /-- it has restored the index and looked at the tail -/
  | observed
  /-- it has written the index -/
  | persisted
deriving DecidableEq

structure State (ι : Type) where
  log : Log
  index : Option StreamEvidence
  observers : ι → Observer
  holder : Option (ι × Phase)

inductive Event (ι : Type)
  /-- the Harness writes -/
  | append (bytes : List UInt8)
  /-- the look at the other stream moves the counter -/
  | sequence (i : ι) (n : Nat)
  /-- a call takes the lock, restores the index and looks at the tail -/
  | observe (i : ι) (modified : Nat)
  /-- a call of the retention worker scans -/
  | scan (i : ι) (modified : Nat → Nat)
  | persist (i : ι)
  | persistFails (i : ι)
  /-- the retention worker reclaims, perhaps not all ranges, and the call ends -/
  | reclaim (i : ι) (block : Option Nat) (count : Nat)
  /-- the call of another observer ends -/
  | release (i : ι)
  /-- the process of the observer is started anew -/
  | restart (i : ι)

section

variable (stream : LogStream) {ι : Type} [DecidableEq ι]

def State.setObserver (s : State ι) (i : ι) (holder : Option (ι × Phase)) (observer : Observer) :
    State ι :=
  { s with observers := Function.update s.observers i observer, holder := holder }

@[simp]
theorem State.observers_setObserver_self (s : State ι) (i : ι) (holder : Option (ι × Phase))
    (o : Observer) : (s.setObserver i holder o).observers i = o := update_self ..

theorem State.observers_setObserver_of_ne {s : State ι} {i j : ι} (h : j ≠ i)
    {holder : Option (ι × Phase)} {o : Observer} :
    (s.setObserver i holder o).observers j = s.observers j := update_of_ne h ..

/-- What an observer knows when it has restored the index. -/
def State.restored (s : State ι) (observer : Observer) : Observer :=
  s.index.elim observer fun saved => restoreEvidence stream s.log saved observer

/-- The range that `retain_harness_logs` protects. -/
def Observer.protectedRanges (observer : Observer) : List (Nat × Nat) :=
  observer.cursor.evidence.toList.map fun evidence =>
    (evidence.start - 1, evidence.start + evidence.bytes.length + 1)

/-- The log after `count` of the ranges that `maintain` has found were given back. -/
def State.reclaim (s : State ι) (observer : Observer) (block : Option Nat) (count : Nat) : Log :=
  let ranges := maintain s.log.length observer.protectedRanges
    (some (observer.scanned.getD 0 - 1)) block
  { s.log with reclaimed := s.log.reclaimed ++ (ranges.getD []).take count }

def step (s : State ι) : Event ι → Option (State ι)
  | .append bytes => some { s with log := { s.log with written := s.log.written ++ bytes } }
  | .sequence i n => some (s.setObserver i s.holder { s.observers i with sequence := n })
  | .observe i modified =>
      if s.holder = none then
        let observer := s.restored stream (s.observers i)
        some (s.setObserver i (some (i, .observed))
          ((observeFile stream s.log observer modified).getD observer))
      else none
  | .scan i modified =>
      if s.holder = some (i, .observed) then
        some ((scan stream s.log (s.observers i) modified).elim { s with holder := none }
          (s.setObserver i s.holder))
      else none
  | .persist i =>
      if s.holder = some (i, .observed) then
        some { s with index := some ((s.observers i).streamEvidence stream)
                      holder := some (i, .persisted) }
      else none
  | .persistFails i =>
      if s.holder = some (i, .observed) then some { s with holder := none } else none
  | .reclaim i block count =>
      if s.holder = some (i, .persisted) then
        some { s with log := s.reclaim (s.observers i) block count, holder := none }
      else none
  | .release i =>
      if s.holder = some (i, .persisted) then some { s with holder := none } else none
  | .restart i => some (s.setObserver i (s.holder.filter fun held => held.1 ≠ i) {})

def system (ι : Type) [DecidableEq ι] : System (State ι) (Event ι) where
  init := { log := stream.before, index := none, observers := fun _ => {}, holder := none }
  step := step stream

end

/-! ## 5. What the index has not passed -/

/-- The log has grown, or parts of it were reclaimed. -/
def Log.Extends (log log' : Log) : Prop := ∃ bytes, log'.written = log.written ++ bytes

namespace Log.Extends

theorem reclaim (log : Log) (ranges : List (Nat × Nat)) :
    log.Extends { log with reclaimed := ranges } := ⟨[], (List.append_nil _).symm⟩

variable {log log' : Log} (h : log.Extends log')

include h

theorem trans {log'' : Log} (h' : log'.Extends log'') : log.Extends log'' := by
  obtain ⟨bytes, h⟩ := h
  obtain ⟨bytes', h'⟩ := h'
  exact ⟨bytes ++ bytes', by rw [h', h, List.append_assoc]⟩

theorem length_le : log.length ≤ log'.length := by
  obtain ⟨bytes, h⟩ := h
  rw [length, length, h, List.length_append]
  exact Nat.le_add_right _ _

theorem space_iff {i : Nat} (hi : i < log.length) : log'.Space i ↔ log.Space i := by
  have hle := h.length_le
  obtain ⟨bytes, h⟩ := h
  rw [Space, Space, h, List.getD_append _ _ _ _ hi, and_iff_right hi, and_iff_right (by omega)]

theorem word_iff {a b : Nat} (hb : b < log.length) : log'.Word a b ↔ log.Word a b := by
  constructor
  · intro hw
    have := hw.nonempty
    exact ⟨hw.nonempty, hw.left.imp_right (h.space_iff (by omega)).mp,
      fun i hi hi' hs => hw.inside i hi hi' ((h.space_iff (by omega)).mpr hs),
      (h.space_iff hb).mp hw.right⟩
  · intro hw
    have := hw.nonempty
    exact ⟨hw.nonempty, hw.left.imp_right (h.space_iff (by omega)).mpr,
      fun i hi hi' hs => hw.inside i hi hi' ((h.space_iff (by omega)).mp hs),
      (h.space_iff hb).mpr hw.right⟩

theorem slice_eq {a b : Nat} (hb : b ≤ log.length) : log'.slice a b = log.slice a b := by
  obtain ⟨bytes, h⟩ := h
  rw [length] at hb
  rw [slice, slice, h, List.drop_append, List.take_append_of_le_length]
  simp only [List.length_drop]
  omega

end Log.Extends

/-- Where a scan may begin: no word of fewer than 64 KiB of this session lies across it. -/
structure ScanPoint (stream : LogStream) (log : Log) (position : Nat) : Prop where
  after : stream.watermark ≤ position
  le : position ≤ log.length
  boundary : position = stream.watermark ∨ log.Space (position - 1) ∨
    stream.watermark + HARNESS_LOG_TAIL_BYTES ≤ position ∧
      ∀ i, position ≤ i + HARNESS_LOG_TAIL_BYTES → i < position → ¬log.Space i

section

variable {stream : LogStream} {log log' : Log}

theorem ScanPoint.extends {position : Nat} (hs : ScanPoint stream log position)
    (h : log.Extends log') : ScanPoint stream log' position := by
  have hle := hs.le
  refine ⟨hs.after, hle.trans h.length_le, ?_⟩
  by_cases h0 : position = 0
  · exact .inl (by have := hs.after; omega)
  · exact hs.boundary.imp_right (Or.imp (h.space_iff (by omega)).mpr fun ⟨hfar, hno⟩ =>
      ⟨hfar, fun i hi hlt hspace => hno i hi hlt ((h.space_iff (by omega)).mp hspace)⟩)

theorem ScanPoint.le_start {position a b : Nat} (hs : ScanPoint stream log position)
    (hword : log.Word a b) (hafter : stream.watermark ≤ a)
    (hshort : b - a < HARNESS_LOG_TAIL_BYTES) (hb : position ≤ b) : position ≤ a := by
  by_contra hlt
  have hne := hword.nonempty
  rcases hs.boundary with heq | hspace | ⟨hfar, hno⟩
  · omega
  · exact hword.inside _ (by omega) (by omega) hspace
  · rcases hword.left with h0 | hleft
    · omega
    · exact hno (a - 1) (by omega) (by omega) hleft

theorem scanned_observeSnapshot (observer : Observer) (snapshot : HarnessLogSnapshot) :
    (observeSnapshot stream log observer snapshot).scanned = observer.scanned := by
  have hword : ∀ r o w, (observeWord stream snapshot r o w).scanned = o.scanned := by
    intro r o w
    rw [observeWord]
    dsimp only
    repeat' split
    all_goals rfl
  have hfold : ∀ words r o,
      (List.foldl (observeWord stream snapshot r) o words).scanned = o.scanned := by
    intro words r
    induction words with
    | nil => exact fun _ => rfl
    | cons w words ih => exact fun o => (ih _).trans (hword r o w)
  rw [observeSnapshot]
  split
  · rfl
  · dsimp only
    rw [hfold]
    split <;> rfl

/-- Every token that ends before `position`, in a word of fewer than 64 KiB, is answered. -/
def Answers (stream : LogStream) (log : Log) (position : Nat)
    (candidate : Option HarnessUrlCandidate) : Prop :=
  ∀ a b, TokenWord stream log a b → b - a < HARNESS_LOG_TAIL_BYTES → b < position →
    Answered b candidate

/-- An observer has scanned up to `position`. -/
def Scanned (stream : LogStream) (log : Log) (position : Nat) (observer : Observer) : Prop :=
  observer.cursor.Kept stream log ∧ Answers stream log position observer.cursor.candidate

/-- A look at the window after a scan goes on with the scan. -/
theorem scanned_look {snapshot : HarnessLogSnapshot} (hw : Window log snapshot) {o : Observer}
    (hs : ScanPoint stream log snapshot.start) (h : Scanned stream log snapshot.start o) :
    let o' := observeSnapshot stream log o snapshot
    Advances o.cursor.candidate o'.cursor.candidate ∧
      Scanned stream log (snapshot.start + snapshot.bytes.length) o' := by
  obtain ⟨-, hkept, hadv, hans⟩ := looked_observeSnapshot hw (hs.after.trans hs.le) h.1
  refine ⟨hadv, hkept, fun a b htoken hshort hb => ?_⟩
  by_cases hlt : b < snapshot.start
  · exact (h.2 a b htoken hshort hlt).mono hadv
  · exact hans a b (hs.le_start htoken.1 htoken.2.1 hshort (by omega)) hb htoken

theorem scanWindows_spec (modified : Nat → Nat) (left : Nat) : ∀ {start : Nat} {o : Observer},
    ScanPoint stream log start → (∀ i, log.Reclaimed i → i + 1 < start) →
    ∃ o' start', scanWindows stream log log.length modified left start o = some (o', start') ∧
      ScanPoint stream log start' ∧ start ≤ start' ∧ (Scanned stream log start o →
        Advances o.cursor.candidate o'.cursor.candidate ∧ Scanned stream log start' o') := by
  induction left with
  | zero => exact fun hs _ => ⟨_, _, rfl, hs, le_rfl, fun h => ⟨.refl _, h⟩⟩
  | succ left ih =>
    intro start o hs hreclaimed
    rw [scanWindows]
    split
    · exact ⟨_, _, rfl, hs, le_rfl, fun h => ⟨.refl _, h⟩⟩
    next hlt =>
    have hcl : log.Clean start (min (start + HARNESS_LOG_TAIL_BYTES) log.length) :=
      fun i hi _ hr => by have := hreclaimed i hr; omega
    obtain ⟨snapshot, hread, hw, rfl, hbytes⟩ := exists_readLogWindow (modified left)
      (Nat.min_le_right _ _) (by omega) (by omega) hcl
    have hlen := congrArg List.length hbytes
    rw [Log.length_read] at hlen
    dsimp only
    rw [hread, Option.bind_some]
    -- the scan goes on after a window that it has looked at
    have hnext : ∀ {window : HarnessLogSnapshot}, Window log window →
        window.start = snapshot.start →
        ScanPoint stream log (snapshot.start + window.bytes.length) →
        ∃ o' start', scanWindows stream log log.length modified left
            (snapshot.start + window.bytes.length) (observeSnapshot stream log o window) =
              some (o', start') ∧
          ScanPoint stream log start' ∧ snapshot.start ≤ start' ∧
          (Scanned stream log snapshot.start o →
            Advances o.cursor.candidate o'.cursor.candidate ∧ Scanned stream log start' o') := by
      intro window hwindow hstart hpoint
      obtain ⟨o', start', hgo, hs', hle, hscanned⟩ := ih hpoint fun i hr => by
        have := hreclaimed i hr
        omega
      refine ⟨o', start', hgo, hs', by omega, fun h => ?_⟩
      rw [← hstart] at h hs
      obtain ⟨hadv, hlook⟩ := scanned_look hwindow hs h
      rw [hstart] at hlook
      obtain ⟨hadv', hend⟩ := hscanned hlook
      exact ⟨hadv.trans hadv', hend⟩
    rcases hp : rposition snapshot.bytes with _ | p
    · dsimp only
      split
      · next hfull =>
        rw [hfull] at hlen
        have hstop : min (snapshot.start + HARNESS_LOG_TAIL_BYTES) log.length =
            snapshot.start + snapshot.bytes.length := by omega
        rw [hstop]
        have hafter := hs.after
        refine hnext hw rfl ⟨by omega, hw.le, .inr (.inr ⟨by omega, fun i hi hi' hspace => ?_⟩)⟩
        have hlt : i - snapshot.start < snapshot.bytes.length := by omega
        have hno := rposition_eq_none hp _ (List.getElem_mem hlt)
        rw [hw.getElem_bytes, Nat.add_sub_cancel' (by omega)] at hno
        rw [← Log.space_iff hspace.1 (hcl i (by omega) (by omega)), hno] at hspace
        cases hspace
      · exact ⟨_, _, rfl, hs, le_rfl, fun h => ⟨.refl _, h⟩⟩
    · obtain ⟨hlt, hspace⟩ := rposition_eq_some hp
      have htake : (snapshot.bytes.take (p + 1)).length = p + 1 := by
        simp only [List.length_take]
        omega
      have := hw.le
      have hgo := hnext (hw.truncate hlt hspace) rfl
      dsimp only at hgo ⊢
      rw [htake] at hgo
      refine hgo ⟨by have := hs.after; omega, by omega, .inr (.inl ?_)⟩
      rw [hw.getElem_bytes] at hspace
      exact (Log.space_iff (by omega) (hcl _ (by omega) (by omega))).mp hspace

theorem scan_spec (modified : Nat → Nat) {o : Observer}
    (hs : ScanPoint stream log (o.position stream))
    (hreclaimed : ∀ i, log.Reclaimed i → i + 1 < o.position stream) :
    ∃ o', scan stream log o modified = some o' ∧
      ScanPoint stream log (o'.position stream) ∧ o.position stream ≤ o'.position stream ∧
      (Scanned stream log (o.position stream) o →
        Advances o.cursor.candidate o'.cursor.candidate ∧
          Scanned stream log (o'.position stream) o') := by
  obtain ⟨o', start', h, hs', hle, hscanned⟩ :=
    scanWindows_spec modified 8 hs hreclaimed
  rw [scan, if_neg (by have := hs.le; omega), h]
  exact ⟨_, rfl, hs', hle, hscanned⟩

theorem position_restoreEvidence {saved : StreamEvidence} (hs : ScanPoint stream log saved.scanned)
    (o : Observer) : (restoreEvidence stream log saved o).position stream =
      max (o.position stream) saved.scanned := by
  have hmax : o.scanned.elim saved.scanned (max · saved.scanned) =
      max (o.position stream) saved.scanned := by
    rcases h : o.scanned with _ | n <;> rw [Observer.position, h]
    · exact (Nat.max_eq_right hs.after).symm
    · rfl
  rw [restoreEvidence, if_neg (by have := hs.after; have := hs.le; omega), ← hmax]
  rcases saved.candidate with _ | candidate
  · rfl
  rcases saved.evidence with _ | evidence
  · rfl
  dsimp only
  repeat' split
  all_goals rfl

theorem position_observeFile (o : Observer) (modified : Nat) :
    ((observeFile stream log o modified).getD o).position stream = o.position stream := by
  rw [observeFile, Observer.position]
  rcases readLogWindow log modified (log.length - HARNESS_LOG_TAIL_BYTES) log.length with
    _ | snapshot
  · rfl
  · rw [Option.map_some, Option.getD_some, scanned_observeSnapshot, Observer.position]

/-! ## 6. The invariant of the scan -/

variable {ι : Type}

/-- Where the scan of the index stopped. -/
def State.passed (stream : LogStream) (s : State ι) : Nat :=
  s.index.elim stream.watermark (·.scanned)

structure Base (stream : LogStream) (s : State ι) : Prop where
  grown : stream.before.Extends s.log
  tail : ∀ i, s.log.Reclaimed i → i + TAIL_BYTES ≤ s.log.length
  passed : ∀ i, s.log.Reclaimed i → i + 1 < s.passed stream
  index : ScanPoint stream s.log (s.passed stream)
  observers : ∀ i, ScanPoint stream s.log ((s.observers i).position stream)
  holding : ∀ i phase, s.holder = some (i, phase) →
    s.passed stream ≤ (s.observers i).position stream
  persisted : ∀ i, s.holder = some (i, .persisted) →
    s.index = some ((s.observers i).streamEvidence stream)

theorem base_init [DecidableEq ι] : Base stream (system stream ι).init := by
  have hpoint : ScanPoint stream stream.before stream.watermark := ⟨le_rfl, le_rfl, .inl rfl⟩
  refine ⟨⟨[], by simp [system]⟩, stream.tail_kept, fun i hr => ?_, hpoint, fun _ => hpoint,
    fun _ _ h => (by cases h), fun _ h => (by cases h)⟩
  have h := stream.tail_kept i hr
  have hsize : 2 ≤ TAIL_BYTES := by decide
  change i + 1 < stream.before.length
  omega

section

variable {s : State ι} (h : Base stream s)

include h

theorem Base.setObserver [DecidableEq ι] {i : ι} {o : Observer} {holder : Option (ι × Phase)}
    (ho : ScanPoint stream s.log (o.position stream))
    (hself : ∀ phase, holder = some (i, phase) → s.passed stream ≤ o.position stream ∧
      (phase = .persisted → s.index = some (o.streamEvidence stream)))
    (hother : ∀ j phase, j ≠ i → holder = some (j, phase) → s.holder = some (j, phase)) :
    Base stream (s.setObserver i holder o) := by
  refine ⟨h.grown, h.tail, h.passed, h.index, fun j => ?_, fun j phase hj => ?_, fun j hj => ?_⟩ <;>
    by_cases hij : j = i
  · subst hij
    rwa [State.observers_setObserver_self]
  · rw [State.observers_setObserver_of_ne hij]
    exact h.observers j
  · subst hij
    rw [State.observers_setObserver_self]
    exact (hself phase hj).1
  · rw [State.observers_setObserver_of_ne hij]
    exact h.holding j phase (hother j phase hij hj)
  · subst hij
    rw [State.observers_setObserver_self]
    exact (hself _ hj).2 rfl
  · rw [State.observers_setObserver_of_ne hij]
    exact h.persisted j (hother j _ hij hj)

theorem Base.release : Base stream { s with holder := none } :=
  ⟨h.grown, h.tail, h.passed, h.index, h.observers, fun _ _ h => (by cases h),
    fun _ h => (by cases h)⟩

theorem Base.position_restored (i : ι) : (s.restored stream (s.observers i)).position stream =
    max ((s.observers i).position stream) (s.passed stream) := by
  have hindex := h.index
  rw [State.restored]
  rcases hs : s.index with _ | saved <;> rw [State.passed, hs] at hindex ⊢
  · exact (max_eq_left (h.observers i).after).symm
  · exact position_restoreEvidence hindex _

/-- What `reclaim` gives back lies before the tail and before the scan of the index. -/
theorem Base.reclaimed {i : ι} (hholder : s.holder = some (i, .persisted)) (block : Option Nat)
    (count j : Nat) (hj : (s.reclaim (s.observers i) block count).Reclaimed j) :
    s.log.Reclaimed j ∨ j + TAIL_BYTES < s.log.length ∧ j + 1 < s.passed stream ∧
      ∀ range ∈ (s.observers i).protectedRanges, ¬(range.1 ≤ j ∧ j < range.2) := by
  obtain ⟨range, hmem, hrange⟩ := hj
  rcases List.mem_append.mp hmem with hmem | hmem
  · exact .inl ⟨range, hmem, hrange⟩
  rcases hranges : maintain s.log.length (s.observers i).protectedRanges
      (some ((s.observers i).scanned.getD 0 - 1)) block with _ | ranges
  · rw [hranges] at hmem
    simp at hmem
  rw [hranges, Option.getD_some] at hmem
  obtain ⟨htail, hscanned, hprotected⟩ := mem_maintain hranges (List.mem_of_mem_take hmem) hrange
  refine .inr ⟨htail, ?_, hprotected⟩
  rw [State.passed, h.persisted i hholder]
  change j + 1 < (s.observers i).scanned.getD stream.watermark
  rcases hs : (s.observers i).scanned with _ | n <;> rw [hs] at hscanned <;>
    simp only [Option.getD] at hscanned ⊢ <;> omega

/-- The look at the tail after the index is restored. -/
theorem Base.observe [DecidableEq ι] (i : ι) (modified : Nat) :
    Base stream (s.setObserver i (some (i, .observed))
      ((observeFile stream s.log (s.restored stream (s.observers i)) modified).getD
        (s.restored stream (s.observers i)))) := by
  have hposition := h.position_restored i
  refine h.setObserver ?_ (fun phase hi => ⟨?_, fun hp => ?_⟩) fun j phase hne hj => ?_
  · rw [position_observeFile, hposition]
    rcases le_total ((s.observers i).position stream) (s.passed stream) with hle | hle
    · rw [max_eq_right hle]
      exact h.index
    · rw [max_eq_left hle]
      exact h.observers i
  · rw [position_observeFile, hposition]
    exact le_max_right _ _
  · cases hp
    cases hi
  · exact absurd (Prod.mk.inj (Option.some.inj hj)).1.symm hne

theorem Base.persist {i : ι} (hholder : s.holder = some (i, .observed)) :
    Base stream { s with index := some ((s.observers i).streamEvidence stream)
                         holder := some (i, .persisted) } := by
  have hle := h.holding i _ hholder
  refine ⟨h.grown, h.tail, fun j hr => (h.passed j hr).trans_le hle, h.observers i, h.observers,
    fun j phase hj => ?_, fun j hj => ?_⟩ <;> obtain rfl := (Prod.mk.inj (Option.some.inj hj)).1
  · exact le_rfl
  · rfl

theorem Base.reclaim {i : ι} (hholder : s.holder = some (i, .persisted)) (block : Option Nat)
    (count : Nat) :
    Base stream { s with log := s.reclaim (s.observers i) block count, holder := none } := by
  have hext : s.log.Extends (s.reclaim (s.observers i) block count) := .reclaim s.log _
  refine ⟨h.grown.trans hext, fun j hj => ?_, fun j hj => ?_, h.index.extends hext,
    fun j => (h.observers j).extends hext, fun _ _ h => (by cases h), fun _ h => (by cases h)⟩
  · rcases h.reclaimed hholder block count j hj with hj | hj
    · exact h.tail j hj
    · exact hj.1.le
  · rcases h.reclaimed hholder block count j hj with hj | hj
    · exact h.passed j hj
    · exact hj.2.1

end

theorem base_step [DecidableEq ι] {s s' : State ι} {e : Event ι} (hstep : step stream s e = some s')
    (h : Base stream s) : Base stream s' := by
  cases e with
  | append bytes =>
    obtain rfl := Option.some.inj hstep
    have hext : s.log.Extends { s.log with written := s.log.written ++ bytes } := ⟨bytes, rfl⟩
    exact ⟨h.grown.trans hext, fun i hr => (h.tail i hr).trans hext.length_le, h.passed,
      h.index.extends hext, fun i => (h.observers i).extends hext, h.holding, h.persisted⟩
  | sequence i n =>
    obtain rfl := Option.some.inj hstep
    exact h.setObserver (h.observers i)
      (fun phase hi => ⟨h.holding i phase hi, fun hp => h.persisted i (by rw [hi, hp])⟩)
      fun _ _ _ => id
  | restart i =>
    obtain rfl := Option.some.inj hstep
    refine h.setObserver ⟨le_rfl, h.grown.length_le, .inl rfl⟩ (fun phase hi => ?_)
      fun j phase _ hj => (Option.filter_eq_some_iff.mp hj).1
    simpa using (Option.filter_eq_some_iff.mp hi).2
  | observe i modified =>
    obtain ⟨-, hstep⟩ := Option.ite_none_right_eq_some.mp hstep
    obtain rfl := Option.some.inj hstep
    exact h.observe i modified
  | scan i modified =>
    obtain ⟨hholder, hstep⟩ := Option.ite_none_right_eq_some.mp hstep
    have hle := h.holding i _ hholder
    obtain ⟨o, hscan, hs, hle', -⟩ := scan_spec modified (h.observers i) fun j hr =>
      (h.passed j hr).trans_le hle
    rw [hscan] at hstep
    obtain rfl := Option.some.inj hstep
    refine h.setObserver hs (fun phase hi => ⟨hle.trans hle', fun hp => ?_⟩) fun _ _ _ => id
    rw [hholder, hp] at hi
    cases hi
  | persist i =>
    obtain ⟨hholder, hstep⟩ := Option.ite_none_right_eq_some.mp hstep
    obtain rfl := Option.some.inj hstep
    exact h.persist hholder
  | reclaim i block count =>
    obtain ⟨hholder, hstep⟩ := Option.ite_none_right_eq_some.mp hstep
    obtain rfl := Option.some.inj hstep
    exact h.reclaim hholder block count
  | persistFails i | release i =>
    obtain ⟨-, hstep⟩ := Option.ite_none_right_eq_some.mp hstep
    obtain rfl := Option.some.inj hstep
    exact h.release

/-- **What the index has not passed stays.**  In every state, however the calls of the observers
and the writes of the Harness follow each other and wherever they fail, every byte of a word of
this session that the scan of the index has not passed, and of its delimiters, is read as it was
written, if the word has fewer than 64 KiB. -/
theorem unscanned_words_stay [DecidableEq ι] {es : List (Event ι)} {s : State ι}
    (h : (system stream ι).run es (system stream ι).init = some s) {a b : Nat}
    (hword : s.log.Word a b) (hafter : stream.watermark ≤ a)
    (hshort : b - a < HARNESS_LOG_TAIL_BYTES) (hunscanned : s.passed stream ≤ b) :
    ∀ i, a ≤ i + 1 → i ≤ b → s.log.byte i = s.log.written.getD i 0 := by
  have hbase : Base stream s := System.invariant (S := system stream ι) base_init
    (fun _ _ _ hs hstep => base_step hstep hs) h
  have hle := hbase.index.le_start hword hafter hshort hunscanned
  intro i hi _
  exact Log.byte_eq fun hr => by have := hbase.passed i hr; omega

/-! A run: the Harness prints its address, and a call looks for it, scans and reclaims. -/

def printedAddress : List Char := "http://localhost/?token=a".toList

def printedLine : List UInt8 := Utf8.encode (printedAddress ++ ['\n'])

/-- A new log, and the parser on the address that is printed to it. -/
def sampleStream : LogStream where
  source := []
  before := { written := [], reclaimed := [] }
  tail_kept := fun _ ⟨_, h, _⟩ => by cases h
  parseLoopbackHarnessUrl := fun raw =>
    if raw = printedAddress then some (raw, some ['a']) else none

theorem word_printed : Log.Word { written := printedLine, reclaimed := [] } 0 25 := by
  have h : ∀ i < 25, ¬Log.Space { written := printedLine, reclaimed := [] } i := by decide +kernel
  exact ⟨by decide, .inl rfl, fun i _ hi => h i hi, by decide +kernel⟩

theorem unscanned_words_stay_printed : ∃ s : State Unit,
    (system sampleStream Unit).run [.append printedLine] (system sampleStream Unit).init = some s ∧
      ∀ i, 0 ≤ i + 1 → i ≤ 25 → s.log.byte i = s.log.written.getD i 0 :=
  ⟨_, rfl, unscanned_words_stay
    (show (system sampleStream Unit).run [.append printedLine] _ = some _ from rfl) word_printed
    (Nat.zero_le _) (by decide) (by decide)⟩

/-! ## 7. The invariant of the candidates -/

theorem Log.Extends.recorded (hext : log.Extends log') {c : HarnessUrlCandidate}
    {e : TokenEvidence} (h : Recorded stream log c e) : Recorded stream log' c e := by
  have hlt := h.word.lt_length
  exact ⟨(hext.word_iff hlt).mpr h.word, h.after, h.short,
    h.bytes.trans (hext.slice_eq hlt.le).symm, h.read, h.source⟩

/-- Candidates that end at one place were read from one word. -/
theorem Recorded.eq_of_offset {c c' : HarnessUrlCandidate} {e e' : TokenEvidence}
    (h : Recorded stream log c e) (h' : Recorded stream log c' e') (hend : c.offset = c'.offset) :
    e.start = e'.start ∧ c.token = c'.token := by
  have hword := h.word
  rw [hend] at hword
  have hstart := hword.start_eq h'.word
  have hbytes : e.bytes = e'.bytes := by rw [h.bytes, h'.bytes, hend, hstart]
  have hread := h.read
  rw [hbytes, h'.read, Option.some.injEq, Prod.mk.injEq] at hread
  exact ⟨hstart, hread.2.symm⟩

theorem Answers.extends {position : Nat} {candidate : Option HarnessUrlCandidate}
    (h : Answers stream log position candidate) (hext : log.Extends log')
    (hle : position ≤ log.length) : Answers stream log' position candidate := by
  rintro a b ⟨hword, hafter, url, token, hread⟩ hshort hb
  have hlt : b < log.length := by omega
  rw [hext.slice_eq hlt.le] at hread
  exact h a b ⟨(hext.word_iff hlt).mp hword, hafter, url, token, hread⟩ hshort hb

theorem rel_mono {α β : Type} {r r' : α → β → Prop} (h : ∀ a b, r a b → r' a b) {a : Option α}
    {b : Option β} (hr : Option.Rel r a b) : Option.Rel r' a b := by
  rcases hr with hr | -
  · exact .some (h _ _ hr)
  · exact .none

/-- The candidate of the index, with its evidence. -/
def State.saved (s : State ι) : HarnessLogCursor :=
  s.index.elim {} fun saved => { candidate := saved.candidate, evidence := saved.evidence }

/-- What an observer knows: less than the index, until it holds the lock and has restored it. -/
structure Knows (stream : LogStream) (s : State ι) (holds : Prop) (o : Observer) : Prop where
  recorded : Option.Rel (Recorded stream s.log) o.cursor.candidate o.cursor.evidence
  behind : ¬holds → Advances o.cursor.candidate s.saved.candidate ∧
    o.position stream ≤ s.passed stream
  ahead : holds → Advances s.saved.candidate o.cursor.candidate ∧
    Scanned stream s.log (o.position stream) o

theorem Knows.congr {s : State ι} {p q : Prop} {o : Observer} (h : Knows stream s p o)
    (hpq : q ↔ p) : Knows stream s q o :=
  ⟨h.recorded, fun hq => h.behind fun hp => hq (hpq.mpr hp), fun hq => h.ahead (hpq.mp hq)⟩

structure Full (stream : LogStream) (s : State ι) : Prop where
  index : s.saved.Kept stream s.log
  answered : Answers stream s.log (s.passed stream) s.saved.candidate
  observers : ∀ i, Knows stream s (s.holder = some (i, .observed)) (s.observers i)

section

variable {s : State ι} (h : Full stream s)

include h

theorem Full.setObserver [DecidableEq ι] {i : ι} {o : Observer} {holder : Option (ι × Phase)}
    (ho : Knows stream s (holder = some (i, .observed)) o)
    (hother : ∀ j, j ≠ i → (holder = some (j, .observed) ↔ s.holder = some (j, .observed))) :
    Full stream (s.setObserver i holder o) := by
  refine ⟨h.index, h.answered, fun j => ?_⟩
  by_cases hij : j = i
  · subst hij
    rw [State.observers_setObserver_self]
    exact ⟨ho.recorded, ho.behind, ho.ahead⟩
  · rw [State.observers_setObserver_of_ne hij]
    have := (h.observers j).congr (hother j hij)
    exact ⟨this.recorded, this.behind, this.ahead⟩

theorem Full.withLog (hbase : Base stream s) {log : Log} {holder : Option (ι × Phase)}
    (hext : s.log.Extends log) (hindex : s.saved.Kept stream log)
    (hkept : ∀ i, holder = some (i, .observed) → (s.observers i).cursor.Kept stream log)
    (hholder : ∀ i, holder = some (i, .observed) ↔ s.holder = some (i, .observed)) :
    Full stream { s with log := log, holder := holder } := by
  refine ⟨hindex, h.answered.extends hext hbase.index.le, fun i => ?_⟩
  have hi := (h.observers i).congr (hholder i)
  refine ⟨?_, hi.behind, fun hholds => ⟨(hi.ahead hholds).1, hkept i hholds,
    (hi.ahead hholds).2.2.extends hext (hbase.observers i).le⟩⟩
  exact rel_mono (fun _ _ => hext.recorded) hi.recorded

/-- A call that has restored the index knows what is in it. -/
theorem Full.restored (hbase : Base stream s) {i : ι} (hfree : s.holder = none) :
    (s.restored stream (s.observers i)).cursor.Kept stream s.log ∧
      Advances s.saved.candidate (s.restored stream (s.observers i)).cursor.candidate := by
  have hindex := h.index
  have hpoint := hbase.index
  have hrecorded := (h.observers i).recorded
  obtain ⟨hbehind, -⟩ := (h.observers i).behind (by rw [hfree]; exact fun h => by cases h)
  rw [State.saved] at hindex hbehind ⊢
  rw [State.passed] at hpoint
  rw [State.restored]
  generalize s.observers i = o at *
  generalize s.index = index at *
  obtain ⟨⟨candidate, evidence⟩, sequence, scanned⟩ := o
  have hvalid : ∀ saved, index = some saved →
      ¬(saved.scanned < stream.watermark ∨ s.log.length < saved.scanned) := by
    rintro saved rfl
    exact not_or.mpr ⟨Nat.not_lt.mpr hpoint.after, Nat.not_lt.mpr hpoint.le⟩
  -- an observer that is behind an index without candidate has none
  have hnone : Advances candidate none → HarnessLogCursor.Kept stream s.log
      { candidate := candidate, evidence := evidence } := by
    intro hadv
    rcases hrecorded with hrec | -
    · obtain ⟨_, hc, -⟩ := hadv _ rfl
      cases hc
    · exact .none
  rcases index with _ | ⟨passed, _ | c, _ | e⟩
  · exact ⟨hnone hbehind, fun _ h => by cases h⟩
  · rw [Option.elim, restoreEvidence, if_neg (hvalid _ rfl)]
    exact ⟨hnone hbehind, fun _ h => by cases h⟩
  · cases hindex
  · cases hindex
  obtain ⟨hkept⟩ := hindex
  obtain ⟨hrec, hclean⟩ := hkept
  have hlen := hrec.length_bytes
  have hshort := hrec.short
  have hpass : ¬(HARNESS_LOG_TAIL_BYTES < e.bytes.length ∨
      verifyEvidence s.log e stream.watermark s.log.length = false ∨
      c.offset ≠ e.start + e.bytes.length ∨ c.source ≠ stream.source) := by
    rw [Kept.verifyEvidence ⟨hrec, hclean⟩, hrec.source]
    simp only [Bool.true_eq_false, ne_eq, not_true_eq_false, false_or, or_false]
    omega
  simp only [Option.elim, restoreEvidence, if_neg hpass, hrec.read, ne_eq, not_true_eq_false,
    if_false]
  rw [if_neg (hvalid _ rfl)]
  split
  · exact ⟨.some ⟨hrec, hclean⟩, .refl _⟩
  next hlater =>
  rcases hrecorded with @⟨c', e', hrec'⟩ | -
  · obtain ⟨_, hc, hle, htoken⟩ := hbehind _ rfl
    obtain rfl := Option.some.inj hc
    have hend : c'.offset = c.offset := by
      simp only [Option.all_some, decide_eq_true_eq] at hlater
      omega
    obtain ⟨hstart, htoken'⟩ := hrec'.eq_of_offset hrec hend
    refine ⟨.some ⟨hrec', ?_⟩, fun _ hc => ⟨c', rfl, ?_⟩⟩
    · rwa [hstart, hend]
    · obtain rfl := Option.some.inj hc
      exact ⟨hend.ge, fun ht => by rwa [htoken']⟩
  · exact absurd rfl hlater

/-- The look at the tail after the index is restored. -/
theorem Full.observe (hbase : Base stream s) {i : ι} (hfree : s.holder = none) (modified : Nat) :
    Knows stream s True ((observeFile stream s.log (s.restored stream (s.observers i))
      modified).getD (s.restored stream (s.observers i))) := by
  obtain ⟨hkept, hadv⟩ := h.restored hbase (i := i) hfree
  have hposition := hbase.position_restored i
  rw [max_eq_right ((h.observers i).behind (by rw [hfree]; exact fun h => by cases h)).2]
    at hposition
  generalize s.restored stream (s.observers i) = o at *
  have hsizes : HARNESS_LOG_TAIL_BYTES + 1 < TAIL_BYTES := by decide
  obtain ⟨snapshot, hread, hw, -, -⟩ := exists_readLogWindow modified le_rfl
    (Nat.sub_le s.log.length HARNESS_LOG_TAIL_BYTES) (by omega)
    fun j hj _ hr => by have := hbase.tail j hr; omega
  obtain ⟨hscanned, hkept', hadv', -⟩ := looked_observeSnapshot hw hbase.grown.length_le hkept
  rw [observeFile, hread, Option.map_some, Option.getD_some]
  refine ⟨rel_mono (fun _ _ h => h.1) hkept', fun hf => absurd trivial hf,
    fun _ => ⟨hadv.trans hadv', hkept', ?_⟩⟩
  rw [Observer.position, hscanned, ← Observer.position, hposition]
  exact fun a b htoken hshort hb => (h.answered a b htoken hshort hb).mono (hadv.trans hadv')

/-- What is protected is kept when the rest is reclaimed. -/
theorem Full.kept_reclaim (hbase : Base stream s) {i : ι}
    (hholder : s.holder = some (i, .persisted)) {block : Option Nat} {count : Nat} :
    s.saved.Kept stream (s.reclaim (s.observers i) block count) := by
  have hindex := h.index
  have hreclaimed := hbase.reclaimed hholder block count
  rw [State.saved, hbase.persisted i hholder] at hindex ⊢
  rw [State.reclaim, Observer.protectedRanges] at *
  change HarnessLogCursor.Kept stream s.log (s.observers i).cursor at hindex
  change HarnessLogCursor.Kept stream _ (s.observers i).cursor
  generalize (s.observers i).cursor = cursor at *
  obtain ⟨_ | c, _ | e⟩ := cursor
  · exact .none
  · cases hindex
  · cases hindex
  obtain ⟨hrec, hclean⟩ := hindex
  refine .some ⟨(Log.Extends.reclaim s.log _).recorded hrec, fun j hj hj' hr => ?_⟩
  rcases hreclaimed j hr with hr | ⟨-, -, hout⟩
  · exact hclean j hj hj' hr
  · have hlen := hrec.length_bytes
    exact hout (e.start - 1, e.start + e.bytes.length + 1) (by simp)
      ⟨by omega, by dsimp only; omega⟩

theorem Full.persist (hbase : Base stream s) {i : ι} (hholder : s.holder = some (i, .observed)) :
    Full stream { s with index := some ((s.observers i).streamEvidence stream)
                         holder := some (i, .persisted) } := by
  obtain ⟨hadv, hkept, hanswers⟩ := (h.observers i).ahead hholder
  refine ⟨hkept, hanswers, fun j => ⟨(h.observers j).recorded, fun _ => ?_, fun h => by cases h⟩⟩
  by_cases hij : j = i
  · subst hij
    exact ⟨.refl _, le_rfl⟩
  · obtain ⟨hadv', hle⟩ := (h.observers j).behind (by
      rw [hholder]
      exact fun heq => hij (Prod.mk.inj (Option.some.inj heq)).1.symm)
    exact ⟨hadv'.trans hadv, hle.trans (hbase.holding i _ hholder)⟩

end

theorem full_init [DecidableEq ι] : Full stream (system stream ι).init :=
  ⟨.none, fun _ b htoken _ hb => absurd htoken.2.1 (by
    have := htoken.1.nonempty
    change b < stream.watermark at hb
    omega), fun _ => ⟨.none, fun _ => ⟨.refl _, le_rfl⟩, fun h => by cases h⟩⟩

theorem full_step [DecidableEq ι] {s s' : State ι} {e : Event ι}
    (hstep : step stream s e = some s') (hbase : Base stream s) (h : Full stream s)
    (hpersists : ∀ i, e ≠ .persistFails i) : Full stream s' := by
  cases e with
  | append bytes =>
    obtain rfl := Option.some.inj hstep
    have hext : s.log.Extends { s.log with written := s.log.written ++ bytes } := ⟨bytes, rfl⟩
    exact h.withLog hbase hext (rel_mono (fun _ _ h => ⟨hext.recorded h.1, h.2⟩) h.index)
      (fun i hi => rel_mono (fun _ _ h => ⟨hext.recorded h.1, h.2⟩)
        ((h.observers i).ahead hi).2.1) fun _ => Iff.rfl
  | sequence i n =>
    obtain rfl := Option.some.inj hstep
    obtain ⟨hrecorded, hbehind, hahead⟩ := h.observers i
    exact h.setObserver ⟨hrecorded, hbehind, hahead⟩ fun _ _ => Iff.rfl
  | observe i modified =>
    obtain ⟨hfree, hstep⟩ := Option.ite_none_right_eq_some.mp hstep
    obtain rfl := Option.some.inj hstep
    refine h.setObserver ((h.observe hbase hfree modified).congr (iff_true_intro rfl))
      fun j hj => ?_
    rw [hfree]
    refine iff_of_false (fun heq => hj ?_) fun h => by cases h
    exact (Prod.mk.inj (Option.some.inj heq)).1.symm
  | scan i modified =>
    obtain ⟨hholder, hstep⟩ := Option.ite_none_right_eq_some.mp hstep
    have hi := (h.observers i).ahead hholder
    have hle := hbase.holding i _ hholder
    obtain ⟨o, hscan, -, -, hscanned⟩ := scan_spec modified (hbase.observers i)
      fun j hr => (hbase.passed j hr).trans_le hle
    rw [hscan] at hstep
    obtain rfl := Option.some.inj hstep
    obtain ⟨hadv, hend⟩ := hscanned hi.2
    exact h.setObserver ⟨rel_mono (fun _ _ h => h.1) hend.1, fun hf => absurd hholder hf,
      fun _ => ⟨hi.1.trans hadv, hend⟩⟩ fun _ _ => Iff.rfl
  | persist i =>
    obtain ⟨hholder, hstep⟩ := Option.ite_none_right_eq_some.mp hstep
    obtain rfl := Option.some.inj hstep
    exact h.persist hbase hholder
  | persistFails i => exact absurd rfl (hpersists i)
  | reclaim i block count =>
    obtain ⟨hholder, hstep⟩ := Option.ite_none_right_eq_some.mp hstep
    obtain rfl := Option.some.inj hstep
    exact h.withLog hbase (.reclaim s.log _) (h.kept_reclaim hbase hholder)
      (fun _ h => by cases h) fun j => by rw [hholder]; simp
  | release i =>
    obtain ⟨hholder, hstep⟩ := Option.ite_none_right_eq_some.mp hstep
    obtain rfl := Option.some.inj hstep
    exact ⟨h.index, h.answered, fun j => by
      obtain ⟨hrecorded, hbehind, -⟩ := h.observers j
      exact ⟨hrecorded, fun _ => hbehind (by rw [hholder]; simp), fun h => by cases h⟩⟩
  | restart i =>
    obtain rfl := Option.some.inj hstep
    refine h.setObserver ⟨.none, fun _ => ⟨fun _ h => (by cases h), hbase.index.after⟩,
      fun hi => ?_⟩ fun j hj => ?_
    · simpa using (Option.filter_eq_some_iff.mp hi).2
    · rw [Option.filter_eq_some_iff]
      simp [hj]

/-- **What the index has passed is answered.**  As long as the index can be written, every token
that the scan of the index has passed, in a word of fewer than 64 KiB, is answered by the
candidate of the index: that one has a token as well, or it comes later in the log.  Its bytes are
still in the log, so a restart takes the index over. -/
theorem passed_tokens_answered [DecidableEq ι] {es : List (Event ι)} {s : State ι}
    (h : (system stream ι).run es (system stream ι).init = some s)
    (hpersists : ∀ e ∈ es, ∀ i, e ≠ .persistFails i) {a b : Nat}
    (htoken : TokenWord stream s.log a b)
    (hshort : b - a < HARNESS_LOG_TAIL_BYTES) (hpassed : b < s.passed stream) :
    ∃ c e, s.index = some { scanned := s.passed stream, candidate := some c, evidence := some e } ∧
      verifyEvidence s.log e stream.watermark s.log.length = true ∧
      stream.readWord e.bytes = some (c.url, c.token) ∧ (c.token.isSome = true ∨ b ≤ c.offset) := by
  have hrun := System.run_invariant (S := system stream ι)
    (I := fun s => Base stream s ∧ Full stream s) (P := fun _ e => ∀ i, e ≠ .persistFails i)
    (fun _ _ _ hs hp hstep => ⟨base_step hstep hs.1, full_step hstep hs.1 hs.2 hp⟩) es _ s
    ⟨base_init, full_init⟩ (System.runMeets_of_forall_mem (fun e he _ => hpersists e he) _) h
  obtain ⟨hbase, hindex, hanswered, -⟩ := hrun
  obtain ⟨c, hc, hans⟩ := hanswered a b htoken hshort hpassed
  rw [State.saved] at hindex hc
  rw [State.passed] at hpassed ⊢
  rcases hs : s.index with _ | ⟨scanned, _ | c', _ | e⟩ <;> rw [hs] at hindex hc
  · cases hc
  · cases hc
  · cases hc
  · cases hindex
  obtain ⟨hkept⟩ := hindex
  obtain rfl := Option.some.inj hc
  exact ⟨c', e, rfl, hkept.verifyEvidence, hkept.1.read, hans⟩

end

def sampleRun : List (Event Unit) :=
  [.append printedLine, .observe () 0, .scan () fun _ => 0, .persist (), .reclaim () none 2]

theorem passed_tokens_answered_printed : ∃ s : State Unit,
    (system sampleStream Unit).run sampleRun (system sampleStream Unit).init = some s ∧
    ∃ c e, s.index = some { scanned := s.passed sampleStream, candidate := some c
                            evidence := some e } ∧
      verifyEvidence s.log e sampleStream.watermark s.log.length = true ∧
      sampleStream.readWord e.bytes = some (c.url, c.token) ∧
      (c.token.isSome = true ∨ 25 ≤ c.offset) := by
  have hends : ((system sampleStream Unit).run sampleRun (system sampleStream Unit).init).map
      (fun s => (s.log.written, s.log.reclaimed, s.passed sampleStream)) =
        some (printedLine, [], 26) := by decide +kernel
  have hread : sampleStream.readWord (Log.slice { written := printedLine, reclaimed := [] } 0 25) =
      some (printedAddress, some ['a']) := by decide +kernel
  obtain ⟨⟨⟨written, reclaimed⟩, index, observers, holder⟩, hrun, h⟩ :=
    Option.map_eq_some_iff.mp hends
  obtain ⟨rfl, h⟩ := Prod.mk.inj h
  obtain ⟨rfl, hpassed⟩ := Prod.mk.inj h
  exact ⟨_, hrun, passed_tokens_answered hrun (by simp [sampleRun])
    ⟨word_printed, Nat.zero_le _, _, _, hread⟩ (by decide)
    (by rw [hpassed]; decide)⟩

end DshNexus.Agent.LogRetention
