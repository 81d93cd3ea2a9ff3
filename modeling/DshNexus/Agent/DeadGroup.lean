import DshNexus.Config.Document
import DshNexus.Core.Text
import DshNexus.Core.Utf8
import DshNexus.Core.Words

/-!
# The verdict on a process group

`crates/nexus-agent/src/process_recovery.rs`, as on Linux: before the files of an owned process
group are removed, `/proc` has to show that every process of the group, and every thread of it,
is a zombie.

A call meets `/proc` through the outcomes of its own reads: the listing, and for every entry its
name, its `stat` file, whether it is still there, and its threads.  All of them are arbitrary.

1. `readLinuxStat`, `linuxDeadGroupSnapshot`, `processGroupIsQuiescent`.
2. `readLinuxStat_render`: the `stat` text of the kernel is read right around any command name.
3. `snapshot_sound`: what a snapshot proves of everything that was read for it.
4. `dead_group_sound`.
-/

namespace DshNexus.Agent.DeadGroup

open Text Config

/-! ## 1. The source -/

def U32_MAX : Nat := 2 ^ 32 - 1

/-- The limit for a `stat` file. -/
def STAT_LIMIT : Nat := 16 * 1024

def PROCESS_LIMIT : Nat := 16384

def THREAD_LIMIT : Nat := 4096

/-- `io::Error::other` of an error of a conversion. -/
def conversionFailed : IoError := ⟨.other, "conversion"⟩

structure LinuxStat where
  pid : Nat
  group : Int
  state : UInt8
  threads : Nat
  started : Nat
  deriving DecidableEq, Repr

def ZOMBIE : UInt8 := 90

def trim (text : List Char) : List Char :=
  ((text.dropWhile isWhitespace).reverse.dropWhile isWhitespace).reverse

/-- The part of `read_linux_stat` after the read. -/
def parseLinuxStat (text : List Char) (expected : Nat) : Except IoError LinuxStat := do
  let (head, tail) ← required ⟨.other, "Invalid proc stat"⟩ (rsplitOnce ')' text)
  let (before, _) ← required ⟨.other, "Invalid proc pid"⟩ (Text.splitOnce '(' head)
  let pid ← required conversionFailed (parseUnsigned U32_MAX (trim before))
  if pid ≠ expected then
    throw ⟨.other, "Process identity changed during inspection"⟩
  let fields := wordsOf isWhitespace tail
  if fields.length < 20 ∨ (Utf8.encode (fields.getD 0 [])).length ≠ 1 then
    throw ⟨.other, "Incomplete proc stat"⟩
  let group ← required conversionFailed (parseSigned 32 (fields.getD 2 []))
  let threads ← required conversionFailed (parseUnsigned U64_MAX (fields.getD 17 []))
  let started ← required conversionFailed (parseUnsigned U64_MAX (fields.getD 19 []))
  pure ⟨pid, group, (Utf8.encode (fields.getD 0 [])).headD 0, threads, started⟩

/-- What reading a file of `/proc` gives; `none` where there is no file. -/
abbrev Reading := Except IoError (Option Bytes)

def readLinuxStat (file : Reading) (expected : Nat) : Except IoError LinuxStat := do
  let bytes ← readRegularFileBounded (← file) STAT_LIMIT
  let bytes ← required ⟨.notFound, "Process disappeared"⟩ bytes
  let text ← required conversionFailed (Utf8.decode bytes)
  parseLinuxStat text expected

/-- An entry of the directory `task`. -/
structure TaskEntry where
  /-- its name, where it is valid text -/
  name : Option (List Char)
  stat : Reading

/-- An entry of `/proc`. -/
structure ProcEntry where
  name : Option (List Char)
  stat : Reading
  /-- `try_exists`, after a `stat` file that was not found -/
  tryExists : Except IoError Bool
  /-- the listing of `task` -/
  tasks : Except IoError (List (Except IoError TaskEntry))

/-- The process id that an entry is named by. -/
def ProcEntry.pid (entry : ProcEntry) : Option Nat := entry.name.bind (parseUnsigned U32_MAX)

/-- The thread id that an entry is named by. -/
def TaskEntry.tid (task : TaskEntry) : Option Nat := task.name.bind (parseUnsigned U32_MAX)

/-- The threads of a process that have been seen. -/
structure Threads where
  count : Nat
  leader : Bool
  snapshot : List (Nat × Nat)

/-- One turn of the loop over the threads; no value where the process is not dead. -/
def visitTask (group : Int) (info : LinuxStat) (seen : Threads) (task : Except IoError TaskEntry) :
    Except IoError (Option Threads) := do
  let task ← task
  let name ← required ⟨.other, "Invalid thread identity"⟩ task.name
  let tid ← required conversionFailed (parseUnsigned U32_MAX name)
  if seen.count + 1 > THREAD_LIMIT then
    throw ⟨.other, "Incomplete thread enumeration"⟩
  let thread ← readLinuxStat task.stat tid
  if thread.group ≠ group ∨ thread.state ≠ ZOMBIE then
    pure none
  else if tid = info.pid ∧ thread.started ≠ info.started then
    pure none
  else
    pure (some ⟨seen.count + 1, seen.leader || tid = info.pid,
      seen.snapshot ++ [(thread.pid, thread.started)]⟩)

def visitAll {σ ι : Type} (visit : σ → ι → Except IoError (Option σ)) :
    List ι → σ → Except IoError (Option σ)
  | [], seen => .ok (some seen)
  | item :: items, seen => do
      match ← visit seen item with
      | none => pure none
      | some seen => visitAll visit items seen

structure Processes where
  count : Nat
  snapshot : List (Nat × Nat)

/-- A process of the group: it and its threads are zombies, and the threads are all there. -/
def visitMember (group : Int) (entry : ProcEntry) (info : LinuxStat) (seen : Processes) :
    Except IoError (Option Processes) := do
  if info.state ≠ ZOMBIE then
    pure none
  else
    match ← visitAll (visitTask group info) (← entry.tasks) ⟨0, false, []⟩ with
    | none => pure none
    | some threads =>
        if threads.leader = false ∨ threads.count ≠ info.threads then
          throw ⟨.other, "Incomplete process thread inspection"⟩
        else pure (some ⟨seen.count, seen.snapshot ++ threads.snapshot⟩)

/-- One turn of the loop over the entries of `/proc`. -/
def visitEntry (group : Int) (seen : Processes) (entry : Except IoError ProcEntry) :
    Except IoError (Option Processes) := do
  let entry ← entry
  match entry.pid with
  | none => pure (some seen)
  | some pid => do
      let seen : Processes := ⟨seen.count + 1, seen.snapshot⟩
      if seen.count > PROCESS_LIMIT then
        throw ⟨.other, "Incomplete process enumeration"⟩
      match readLinuxStat entry.stat pid with
      | .error error => do
          if error.kind = .notFound then
            if ← entry.tryExists then throw error else pure (some seen)
          else throw error
      | .ok info =>
          if info.group ≠ group then pure (some seen) else visitMember group entry info seen

/-- The order of `sort_unstable` on pairs. -/
def pairLe (a b : Nat × Nat) : Bool := a.1 < b.1 || (a.1 = b.1 && a.2 ≤ b.2)

/-- The entries of `/proc` as a call meets them. -/
abbrev Listing := Except IoError (List (Except IoError ProcEntry))

def linuxDeadGroupSnapshot (listing : Listing) (group : Int) :
    Except IoError (Option (List (Nat × Nat))) := do
  match ← visitAll (visitEntry group) (← listing) ⟨0, []⟩ with
  | none => pure none
  | some seen => pure (some (seen.snapshot.mergeSort pairLe))

/-! ### The verdict -/

/-- What `kill` with the signal 0 says about a group. -/
inductive KillOutcome where
  | delivered
  /-- `ESRCH` -/
  | noSuchProcess
  | failed (error : IoError)

/-- What a call reads of `/proc`. -/
structure ProcView where
  selfStat : Reading
  selfStatus : Reading
  mountinfo : Except IoError (List Char)
  first : Listing
  second : Listing

def lines (text : List Char) : List (List Char) :=
  let parts := text.splitOn '\n'
  (if parts.getLast? = some [] then parts.dropLast else parts).map fun line =>
    if line.getLast? = some '\r' then line.dropLast else line

def matchingProcNamespace (status : List Char) (pid : Nat) : Except IoError Unit := do
  let rows := (lines status).filterMap ("NSpid:".toList.isPrefixOf? ·)
  let first ← required ⟨.other, "Unknown proc PID namespace"⟩ rows.head?
  let ids ← (wordsOf isWhitespace first).mapM fun word =>
    required conversionFailed (parseUnsigned U32_MAX word)
  if rows.length > 1 ∨ ids ≠ [pid] then throw ⟨.other, "Foreign proc PID namespace"⟩ else pure ()

/-- The checks of the mount of `/proc`. -/
def checkMount (mountinfo : List Char) : Except IoError Unit := do
  let mount ← required ⟨.other, "Cannot establish complete proc visibility"⟩
    ((lines mountinfo).find? fun line => (wordsOf isWhitespace line)[4]? = some "/proc".toList)
  let kind := (splitAtText " - ".toList mount).bind fun (_, tail) =>
    (wordsOf isWhitespace tail).head?
  if (wordsOf isWhitespace mount)[3]? ≠ some ['/'] ∨ kind ≠ some "proc".toList then
    throw ⟨.other, "Incomplete or substituted proc mount"⟩
  if ((wordsOf isWhitespace mount).flatMap fun part => part.splitOn ',').any (fun option =>
      "hidepid=".toList.isPrefixOf option && option ≠ "hidepid=0".toList) = true then
    throw ⟨.other, "Hidden proc processes cannot prove quiescence"⟩
  else pure ()

/-- `process_group_is_quiescent`, called by the process with the given id. -/
def processGroupIsQuiescent (group : Int) (self : Nat) (kill : KillOutcome) (view : ProcView) :
    Except IoError Bool := do
  if group ≤ 0 then throw ⟨.other, "Invalid owned process group"⟩
  match kill with
  | .noSuchProcess => pure true
  | .failed error => throw error
  | .delivered => do
      let _ ← readLinuxStat view.selfStat self
      let status ← readRegularFileBounded (← view.selfStatus) (64 * 1024)
      let status ← required ⟨.other, "Missing proc namespace identity"⟩ status
      let status ← required conversionFailed (Utf8.decode status)
      matchingProcNamespace status self
      checkMount (← view.mountinfo)
      match ← linuxDeadGroupSnapshot view.first group with
      | none => pure false
      | some first => do
          match ← linuxDeadGroupSnapshot view.second group with
          | none => pure false
          | some second => pure (!(first.isEmpty || first ≠ second))

/-! ## 2. The text of the kernel -/

def processStates : List Char := ['R', 'S', 'D', 'Z', 'T', 't', 'X', 'x', 'K', 'W', 'P', 'I']

/-- What the kernel knows of a process or a thread, in the order of its `stat` file. -/
structure KernelStat where
  pid : Nat
  /-- the command name, any text -/
  comm : List Char
  state : Char
  parent : Int
  group : Int
  /-- the fields from the session to the nice value -/
  middle : List Int
  threads : Nat
  alarm : Int
  started : Nat
  /-- the fields from the size of the memory on -/
  rest : List Int

namespace KernelStat

/-- The values are in the ranges of their types. -/
structure WellFormed (r : KernelStat) : Prop where
  pid : r.pid ≤ U32_MAX
  state : r.state ∈ processStates
  groupLow : -(2 ^ 31 : Int) ≤ r.group
  groupHigh : r.group < 2 ^ 31
  middle : r.middle.length = 14
  threads : r.threads ≤ U64_MAX
  started : r.started ≤ U64_MAX

def words (r : KernelStat) : List (List Char) :=
  [[r.state], signedDigits r.parent, signedDigits r.group] ++ r.middle.map signedDigits ++
    [Nat.toDigits 10 r.threads, signedDigits r.alarm, Nat.toDigits 10 r.started] ++
    r.rest.map signedDigits

/-- The text of the `stat` file. -/
def render (r : KernelStat) : List Char :=
  (Nat.toDigits 10 r.pid ++ [' ']) ++ '(' :: r.comm ++ ')' :: (r.words.flatMap (' ' :: ·) ++ ['\n'])

def info (r : KernelStat) : LinuxStat :=
  ⟨r.pid, r.group, UInt8.ofNat r.state.toNat, r.threads, r.started⟩

end KernelStat

section Render

variable {r : KernelStat}

theorem isWhitespace_of_printable {c : Char} (hlow : 0x21 ≤ c.toNat) (hhigh : c.toNat < 0x7f) :
    isWhitespace c = false := by
  have hlist : c.toNat ∉ [0x20, 0x85, 0xa0, 0x1680, 0x2028, 0x2029, 0x202f, 0x205f, 0x3000] := by
    simp only [List.mem_cons, List.not_mem_nil, or_false]
    omega
  unfold isWhitespace
  rw [List.contains_eq_mem, decide_eq_false hlist]
  simp only [Bool.or_false, Bool.or_eq_false_iff, Bool.and_eq_false_iff, decide_eq_false_iff_not]
  omega

/-- A character that is in a word of the text: printable, and no parenthesis. -/
def isPlain (c : Char) : Bool := 0x21 ≤ c.toNat && c.toNat < 0x7f && c ≠ ')'

theorem isPlain_iff {c : Char} : isPlain c = true → isWhitespace c = false ∧ c ≠ ')' := by
  intro h
  simp only [isPlain, Bool.and_eq_true, decide_eq_true_eq] at h
  exact ⟨isWhitespace_of_printable h.1.1 h.1.2, h.2⟩

theorem isPlain_of_isDigit {c : Char} (h : c.isDigit = true ∨ c = '-') : isPlain c = true := by
  rcases h with h | rfl
  · simp only [Char.isDigit, Bool.and_eq_true, decide_eq_true_eq] at h
    have hlow : 48 ≤ c.toNat := h.1
    have hhigh : c.toNat ≤ 57 := h.2
    have hne : c ≠ ')' := by
      rintro rfl
      exact absurd hlow (by decide)
    simp only [isPlain, Bool.and_eq_true, decide_eq_true_eq]
    exact ⟨by omega, hne⟩
  · decide

theorem state_properties {c : Char} (h : c ∈ processStates) :
    isPlain c = true ∧ Utf8.encode [c] = [UInt8.ofNat c.toNat] := by
  simp only [processStates, List.mem_cons, List.not_mem_nil, or_false] at h
  rcases h with rfl | rfl | rfl | rfl | rfl | rfl | rfl | rfl | rfl | rfl | rfl | rfl <;>
    exact ⟨by decide, by decide⟩

theorem plain_of_mem_words (h : r.WellFormed) {word : List Char} (hword : word ∈ r.words) :
    word ≠ [] ∧ ∀ c ∈ word, isWhitespace c = false ∧ c ≠ ')' := by
  have hdigit : ∀ {c : Char}, c.isDigit = true ∨ c = '-' → isWhitespace c = false ∧ c ≠ ')' :=
    fun h => isPlain_iff (isPlain_of_isDigit h)
  have hsigned : ∀ i, signedDigits i ≠ [] ∧
      ∀ c ∈ signedDigits i, isWhitespace c = false ∧ c ≠ ')' :=
    fun i => ⟨signedDigits_ne_nil i, fun c hc => hdigit (mem_signedDigits hc)⟩
  have hunsigned : ∀ n, Nat.toDigits 10 n ≠ [] ∧
      ∀ c ∈ Nat.toDigits 10 n, isWhitespace c = false ∧ c ≠ ')' :=
    fun n => ⟨Nat.toDigits_ne_nil, fun c hc => hdigit (.inl (isDigit_of_mem_toDigits hc))⟩
  simp only [KernelStat.words, List.mem_append, List.mem_cons, List.mem_map, List.not_mem_nil,
    or_false] at hword
  rcases hword with (((rfl | rfl | rfl) | ⟨i, -, rfl⟩) | (rfl | rfl | rfl)) | ⟨i, -, rfl⟩
  · refine ⟨List.cons_ne_nil _ _, fun c hc => ?_⟩
    rw [List.mem_singleton.mp hc]
    exact isPlain_iff (state_properties h.state).1
  · exact hsigned _
  · exact hsigned _
  · exact hsigned _
  · exact hunsigned _
  · exact hsigned _
  · exact hunsigned _
  · exact hsigned _

theorem trim_digits (n : Nat) : trim (Nat.toDigits 10 n ++ [' ']) = Nat.toDigits 10 n := by
  have hplain : ∀ c ∈ Nat.toDigits 10 n, isWhitespace c = false := fun c hc =>
    (isPlain_iff (isPlain_of_isDigit (.inl (isDigit_of_mem_toDigits hc)))).1
  have hkeep : ∀ (text rest : List Char), text ≠ [] → (∀ c ∈ text, isWhitespace c = false) →
      (text ++ rest).dropWhile isWhitespace = text ++ rest := by
    intro text rest hne htext
    rcases text with _ | ⟨c, text⟩
    · exact absurd rfl hne
    · rw [List.cons_append, List.dropWhile_cons_of_neg]
      rw [htext c List.mem_cons_self]
      decide
  have hblank : isWhitespace ' ' = true := by decide
  have hback := hkeep (Nat.toDigits 10 n).reverse [] (by simp)
    fun c hc => hplain c (List.mem_reverse.mp hc)
  rw [List.append_nil] at hback
  rw [trim, hkeep _ _ Nat.toDigits_ne_nil hplain, List.reverse_append, List.reverse_singleton,
    List.singleton_append, List.dropWhile_cons_of_pos hblank, hback, List.reverse_reverse]

theorem getD_words (h : r.WellFormed) :
    20 ≤ r.words.length ∧ r.words.getD 0 [] = [r.state] ∧
      r.words.getD 2 [] = signedDigits r.group ∧ r.words.getD 17 [] = Nat.toDigits 10 r.threads ∧
      r.words.getD 19 [] = Nat.toDigits 10 r.started := by
  have hmiddle := h.middle
  refine ⟨?_, ?_, ?_, ?_, ?_⟩
  · simp [KernelStat.words, hmiddle]
    omega
  all_goals simp [KernelStat.words, hmiddle, List.getD_eq_getElem?_getD, List.getElem?_append]

/-- **Any command name is passed over.** -/
theorem parseLinuxStat_render (h : r.WellFormed) (expected : Nat) :
    parseLinuxStat r.render expected = if r.pid ≠ expected then
      .error ⟨.other, "Process identity changed during inspection"⟩ else .ok r.info := by
  have hfields : wordsOf isWhitespace (r.words.flatMap (' ' :: ·) ++ ['\n']) = r.words :=
    wordsOf_flatMap_cons (by decide) (by decide) fun word hword =>
      ⟨(plain_of_mem_words h hword).1, fun c hc => ((plain_of_mem_words h hword).2 c hc).1⟩
  have htail : ')' ∉ r.words.flatMap (' ' :: ·) ++ ['\n'] := by
    simp only [List.mem_append, List.mem_flatMap, List.mem_cons, List.not_mem_nil, or_false]
    rintro (⟨word, hword, hblank | hc⟩ | hline)
    · cases hblank
    · exact ((plain_of_mem_words h hword).2 _ hc).2 rfl
    · cases hline
  have hhead : '(' ∉ Nat.toDigits 10 r.pid ++ [' '] := by
    rw [List.mem_append, not_or]
    refine ⟨fun hc => ?_, by simp⟩
    have hdigit := isDigit_of_mem_toDigits hc
    exact absurd hdigit (by decide)
  have hbrackets : rsplitOnce ')' r.render =
      some ((Nat.toDigits 10 r.pid ++ [' ']) ++ '(' :: r.comm,
        r.words.flatMap (' ' :: ·) ++ ['\n']) := by
    rw [rsplitOnce_eq_some, KernelStat.render]
    exact ⟨by simp, htail⟩
  have hstate := (state_properties h.state).2
  obtain ⟨hcount, hfirst, hgroup, hthreads, hstarted⟩ := getD_words h
  rw [parseLinuxStat, hbrackets]
  show (required _
    (Text.splitOnce '(' ((Nat.toDigits 10 r.pid ++ [' ']) ++ '(' :: r.comm)) >>= _) = _
  rw [splitOnce_append _ hhead]
  show (required _ (parseUnsigned U32_MAX (trim (Nat.toDigits 10 r.pid ++ [' ']))) >>= _) = _
  rw [trim_digits, parseUnsigned_toDigits h.pid]
  show (if r.pid ≠ expected then _ else _) = _
  split
  · rfl
  dsimp only
  rw [hfields, hfirst, hgroup, hthreads, hstarted, hstate, if_neg (by simp; omega),
    parseSigned_signedDigits (by simpa using h.groupLow) (by simpa using h.groupHigh),
    parseUnsigned_toDigits h.threads, parseUnsigned_toDigits h.started]
  rfl

end Render

theorem readLinuxStat_eq_ok {file : Reading} {expected : Nat} {info : LinuxStat}
    (h : readLinuxStat file expected = .ok info) :
    ∃ bytes text, file = .ok (some bytes) ∧ bytes.length ≤ STAT_LIMIT ∧
      Utf8.decode bytes = some text ∧ parseLinuxStat text expected = .ok info := by
  rw [readLinuxStat] at h
  simp only [bind_eq_ok_iff] at h
  obtain ⟨content, rfl, read, hread, bytes, hbytes, text, htext, hparse⟩ := h
  obtain rfl := eq_of_readRegularFileBounded hread
  rcases read with _ | content
  · cases hbytes
  · obtain rfl := Except.ok.inj hbytes
    unfold readRegularFileBounded at hread
    dsimp only at hread
    split at hread
    · cases hread
    · next hlength =>
      exact ⟨content, text, rfl, not_lt.mp hlength, required_eq_ok.mp htext, hparse⟩

/-- **What is read of a kernel text is what the kernel knows**, whichever process was expected. -/
theorem readLinuxStat_render {r : KernelStat} (h : r.WellFormed) {expected : Nat}
    {info : LinuxStat}
    (hread : readLinuxStat (.ok (some (Utf8.encode r.render))) expected = .ok info) :
    expected = r.pid ∧ info = r.info := by
  obtain ⟨bytes, text, hfile, -, hdecode, hparse⟩ := readLinuxStat_eq_ok hread
  obtain rfl := Option.some.inj (Except.ok.inj hfile)
  rw [Utf8.decode_encode] at hdecode
  obtain rfl := Option.some.inj hdecode
  rw [parseLinuxStat_render h] at hparse
  split at hparse
  · cases hparse
  · next hpid => exact ⟨(not_not.mp hpid).symm, (Except.ok.inj hparse).symm⟩

/-! ## 3. Snapshots -/

section Loops

variable {σ ι : Type} {visit : σ → ι → Except IoError (Option σ)} {P : List ι → σ → Prop}

theorem visitAll_some
    (hstep : ∀ done seen item seen', P done seen → visit seen item = .ok (some seen') →
      P (done ++ [item]) seen') :
    ∀ {items done seen last}, P done seen → visitAll visit items seen = .ok (some last) →
      P (done ++ items) last := by
  intro items
  induction items with
  | nil =>
    intro done seen last hP h
    obtain rfl := Option.some.inj (Except.ok.inj h)
    rwa [List.append_nil]
  | cons item items ih =>
    intro done seen last hP h
    rw [visitAll] at h
    obtain ⟨next, hvisit, h⟩ := bind_eq_ok h
    rcases next with _ | next
    · cases h
    · have hnext := ih (hstep done seen item next hP hvisit) h
      rwa [List.append_assoc, List.singleton_append] at hnext

end Loops

def ZombieThread (group : Int) (task : Except IoError TaskEntry) (tid : Nat) (thread : LinuxStat) :
    Prop :=
  ∃ entry, task = .ok entry ∧ entry.tid = some tid ∧ readLinuxStat entry.stat tid = .ok thread ∧
    thread.group = group ∧ thread.state = ZOMBIE

/-- A process and its threads are zombies, and all its threads have been seen. -/
structure DeadProcess (group : Int) (entry : ProcEntry) (info : LinuxStat) : Prop where
  state : info.state = ZOMBIE
  threads : ∃ tasks, entry.tasks = .ok tasks ∧ tasks.length = info.threads ∧
    (∀ task ∈ tasks, ∃ tid thread, ZombieThread group task tid thread) ∧
    ∃ task ∈ tasks, ∃ thread, ZombieThread group task info.pid thread ∧
      thread.started = info.started

/-- A process that had ended when its `stat` file was to be read. -/
structure Gone (entry : ProcEntry) (pid : Nat) : Prop where
  notFound : ∃ error, readLinuxStat entry.stat pid = .error error ∧ error.kind = .notFound
  unread : ∀ bytes, entry.stat ≠ .ok (some bytes)
  gone : entry.tryExists = .ok false

section Soundness

variable {group : Int} {entry : ProcEntry} {info : LinuxStat}

/-- What the loop over the threads has established. -/
structure Seen (group : Int) (info : LinuxStat) (done : List (Except IoError TaskEntry))
    (threads : Threads) : Prop where
  count : threads.count = done.length
  zombies : ∀ task ∈ done, ∃ tid thread, ZombieThread group task tid thread
  leader : threads.leader = true → ∃ task ∈ done, ∃ thread,
    ZombieThread group task info.pid thread ∧ thread.started = info.started

theorem seen_visitTask {done : List (Except IoError TaskEntry)} {threads threads' : Threads}
    {task : Except IoError TaskEntry} (hseen : Seen group info done threads)
    (h : visitTask group info threads task = .ok (some threads')) :
    Seen group info (done ++ [task]) threads' := by
  rw [visitTask] at h
  simp only [bind_eq_ok_iff] at h
  obtain ⟨entry, rfl, name, hname, tid, htid, h⟩ := h
  have hentry : entry.tid = some tid := by
    rw [TaskEntry.tid, required_eq_ok.mp hname, Option.bind_some, required_eq_ok.mp htid]
  split at h
  · cases h
  obtain ⟨thread, hthread, h⟩ := bind_eq_ok h
  split at h
  · cases h
  · next halive =>
    rw [not_or, not_not, not_not] at halive
    have hzombie : ZombieThread group (.ok entry) tid thread :=
      ⟨entry, rfl, hentry, hthread, halive⟩
    split at h
    · cases h
    · next hstarted =>
      obtain rfl := Option.some.inj (Except.ok.inj h)
      refine ⟨?_, fun task htask => ?_, fun hleader => ?_⟩
      · rw [List.length_append, List.length_singleton, hseen.count]
      · rcases List.mem_append.mp htask with htask | htask
        · exact hseen.zombies task htask
        · rw [List.mem_singleton.mp htask]
          exact ⟨tid, thread, hzombie⟩
      · rcases Bool.or_eq_true_iff.mp hleader with hbefore | hthis
        · obtain ⟨task, htask, hleads⟩ := hseen.leader hbefore
          exact ⟨task, List.mem_append_left _ htask, hleads⟩
        · have htid : tid = info.pid := decide_eq_true_eq.mp hthis
          refine ⟨.ok entry, List.mem_append_right _ (List.mem_singleton_self _), thread, ?_, ?_⟩
          · rw [← htid]
            exact hzombie
          · by_contra hne
            exact hstarted ⟨htid, hne⟩

theorem kind_required {α : Type} {error error' : IoError} {o : Option α}
    (h : required error o = .error error') : error' = error := by
  rcases o with _ | a
  · exact (Except.error.inj h).symm
  · cases h

theorem kind_parseLinuxStat {text : List Char} {expected : Nat} {error : IoError}
    (h : parseLinuxStat text expected = .error error) : error.kind = .other := by
  rw [parseLinuxStat] at h
  rcases bind_eq_error h with h | ⟨⟨head, tail⟩, -, h⟩
  · rw [kind_required h]
  rcases bind_eq_error h with h | ⟨⟨before, _⟩, -, h⟩
  · rw [kind_required h]
  rcases bind_eq_error h with h | ⟨pid, -, h⟩
  · rw [kind_required h]
    rfl
  split at h
  · obtain rfl := Except.error.inj h
    rfl
  dsimp only at h
  split at h
  · obtain rfl := Except.error.inj h
    rfl
  rcases bind_eq_error h with h | ⟨group, -, h⟩
  · rw [kind_required h]
    rfl
  rcases bind_eq_error h with h | ⟨threads, -, h⟩
  · rw [kind_required h]
    rfl
  rcases bind_eq_error h with h | ⟨started, -, h⟩
  · rw [kind_required h]
    rfl
  · cases h

theorem kind_ne_notFound {bytes : Bytes} {pid : Nat} {error : IoError}
    (h : readLinuxStat (.ok (some bytes)) pid = .error error) : error.kind ≠ .notFound := by
  rw [readLinuxStat] at h
  obtain h | ⟨content, hcontent, h⟩ := bind_eq_error h
  · cases h
  obtain rfl := Except.ok.inj hcontent
  rcases bind_eq_error h with h | ⟨read, hread, h⟩
  · unfold readRegularFileBounded at h
    dsimp only at h
    split at h
    · obtain rfl := Except.error.inj h
      decide
    · cases h
  obtain rfl := eq_of_readRegularFileBounded hread
  rcases bind_eq_error h with h | ⟨_, -, h⟩
  · cases h
  rcases bind_eq_error h with h | ⟨text, -, h⟩
  · rw [kind_required h]
    decide
  · rw [kind_parseLinuxStat h]
    decide

theorem dead_of_visitMember {seen seen' : Processes}
    (h : visitMember group entry info seen = .ok (some seen')) : DeadProcess group entry info := by
  rw [visitMember] at h
  split at h
  · cases h
  · next hstate =>
    simp only [bind_eq_ok_iff] at h
    obtain ⟨tasks, htasks, visited, hvisited, h⟩ := h
    rcases visited with _ | threads
    · cases h
    · dsimp only at h
      split at h
      · cases h
      · next hcomplete =>
        rw [not_or, Bool.not_eq_false, not_not] at hcomplete
        have hseen : Seen group info ([] ++ tasks) threads :=
          visitAll_some (fun _ _ _ _ hseen hvisit => seen_visitTask hseen hvisit)
            ⟨rfl, by simp, by simp⟩ hvisited
        rw [List.nil_append] at hseen
        exact ⟨not_not.mp hstate, tasks, htasks, hseen.count.symm.trans hcomplete.2,
          hseen.zombies, hseen.leader hcomplete.1⟩

/-- What a snapshot proves of an entry: it was read; and a process was gone, belongs to another
group, or is dead with all its threads. -/
def Sound (group : Int) (item : Except IoError ProcEntry) : Prop :=
  ∃ entry, item = .ok entry ∧ ∀ pid, entry.pid = some pid →
    Gone entry pid ∨ ∃ info, readLinuxStat entry.stat pid = .ok info ∧
      (info.group = group → DeadProcess group entry info)

theorem sound_visitEntry {seen seen' : Processes} {item : Except IoError ProcEntry}
    (h : visitEntry group seen item = .ok (some seen')) : Sound group item := by
  rw [visitEntry] at h
  obtain ⟨entry, hitem, h⟩ := bind_eq_ok h
  refine ⟨entry, hitem, fun pid hpid => ?_⟩
  rw [hpid] at h
  dsimp only at h
  split at h
  · cases h
  rcases hread : readLinuxStat entry.stat pid with error | info
  · rw [hread] at h
    dsimp only at h
    split at h
    · next hkind =>
      obtain ⟨there, hthere, h⟩ := bind_eq_ok h
      rcases there with _ | _
      · refine .inl ⟨⟨error, hread, hkind⟩, fun bytes hbytes => ?_, hthere⟩
        rw [hbytes] at hread
        exact kind_ne_notFound hread hkind
      · cases h
    · cases h
  · rw [hread] at h
    dsimp only at h
    refine .inr ⟨info, rfl, fun hgroup => ?_⟩
    rw [if_neg (not_not.mpr hgroup)] at h
    exact dead_of_visitMember h

/-- **What a snapshot proves.**  Every process of the listing was gone, belongs to another group,
or is dead with all its threads. -/
theorem snapshot_sound {entries : List (Except IoError ProcEntry)} {snapshot : List (Nat × Nat)}
    (h : linuxDeadGroupSnapshot (.ok entries) group = .ok (some snapshot)) :
    ∀ item ∈ entries, Sound group item := by
  obtain ⟨listed, hlisted, h⟩ := bind_eq_ok h
  obtain rfl := Except.ok.inj hlisted
  obtain ⟨last, hlast, h⟩ := bind_eq_ok h
  rcases last with _ | last
  · cases h
  · have hstep : ∀ done (seen : Processes) item seen', (∀ item ∈ done, Sound group item) →
        visitEntry group seen item = .ok (some seen') →
        ∀ other ∈ done ++ [item], Sound group other :=
      fun done seen item seen' hdone hvisit other hother => by
        rcases List.mem_append.mp hother with hother | hother
        · exact hdone other hother
        · rw [List.mem_singleton.mp hother]
          exact sound_visitEntry hvisit
    have hall : ∀ item ∈ [] ++ entries, Sound group item :=
      visitAll_some hstep (by simp) hlast
    rwa [List.nil_append] at hall

theorem state_eq_of_zombie {r : KernelStat} (h : r.WellFormed) (hzombie : r.info.state = ZOMBIE) :
    r.state = 'Z' := by
  have hstate := h.state
  simp only [processStates, List.mem_cons, List.not_mem_nil, or_false] at hstate
  unfold KernelStat.info at hzombie
  dsimp only at hzombie
  rcases hstate with hc | hc | hc | hc | hc | hc | hc | hc | hc | hc | hc | hc <;>
    rw [hc] at hzombie ⊢ <;> exact absurd hzombie (by decide)

theorem kernel_zombieThread {task : TaskEntry} {tid : Nat} {thread : LinuxStat} {r : KernelStat}
    (h : ZombieThread group (.ok task) tid thread) (hr : r.WellFormed)
    (htext : task.stat = .ok (some (Utf8.encode r.render))) : r.group = group ∧ r.state = 'Z' := by
  obtain ⟨entry, hentry, -, hread, hgroup, hstate⟩ := h
  obtain rfl := Except.ok.inj hentry
  rw [htext] at hread
  obtain ⟨-, rfl⟩ := readLinuxStat_render hr hread
  exact ⟨hgroup, state_eq_of_zombie hr hstate⟩

end Soundness

/-- **What the verdict rests on**: there is no such group, or two listings in a row gave the same
snapshot, which is not empty. -/
theorem snapshot_of_quiescent {group : Int} {self : Nat} {kill : KillOutcome} {view : ProcView}
    (h : processGroupIsQuiescent group self kill view = .ok true) :
    kill = .noSuchProcess ∨ ∃ snapshot, snapshot ≠ [] ∧
      linuxDeadGroupSnapshot view.first group = .ok (some snapshot) ∧
      linuxDeadGroupSnapshot view.second group = .ok (some snapshot) := by
  rcases kill with _ | _ | error
  · rw [processGroupIsQuiescent] at h
    split at h
    · cases h
    obtain ⟨_, -, h⟩ := bind_eq_ok h
    obtain ⟨status, -, h⟩ := bind_eq_ok h
    obtain ⟨status, -, h⟩ := bind_eq_ok h
    obtain ⟨status, -, h⟩ := bind_eq_ok h
    obtain ⟨status, -, h⟩ := bind_eq_ok h
    obtain ⟨_, -, h⟩ := bind_eq_ok h
    obtain ⟨mounts, -, h⟩ := bind_eq_ok h
    obtain ⟨_, -, h⟩ := bind_eq_ok h
    obtain ⟨first, hfirst, h⟩ := bind_eq_ok h
    rcases first with _ | first
    · cases h
    obtain ⟨second, hsecond, h⟩ := bind_eq_ok h
    rcases second with _ | second
    · cases h
    have hverdict := Except.ok.inj h
    simp only [Bool.not_eq_true', Bool.or_eq_false_iff, decide_eq_false_iff_not, not_not,
      List.isEmpty_eq_false_iff] at hverdict
    obtain ⟨hne, rfl⟩ := hverdict
    exact .inr ⟨first, hne, hfirst, hsecond⟩
  · exact .inl rfl
  · rw [processGroupIsQuiescent] at h
    split at h <;> cases h

/-! ## 4. The verdict -/

/-- **The verdict on a dead group is sound.**

Where a listing gives a snapshot, every process of it was gone, belongs to another group, or is a
zombie with all its threads; in the words of the kernel, whatever the command names are, a process
of the group and every thread listed for it have the state `Z`, and there are as many of them as
the process has threads.  A `stat` file that was read and cannot be parsed gives no snapshot.  And
the group counts as quiescent only where it does not exist or where both listings give the same
snapshot. -/
theorem dead_group_sound {group : Int} {entries : List (Except IoError ProcEntry)}
    {snapshot : List (Nat × Nat)}
    (h : linuxDeadGroupSnapshot (.ok entries) group = .ok (some snapshot)) :
    (∀ item ∈ entries, Sound group item) ∧
      (∀ entry pid (r : KernelStat), .ok entry ∈ entries → entry.pid = some pid → r.WellFormed →
        entry.stat = .ok (some (Utf8.encode r.render)) → r.group = group →
        r.pid = pid ∧ r.state = 'Z' ∧ ∃ tasks, entry.tasks = .ok tasks ∧
          tasks.length = r.threads ∧ ∀ task ∈ tasks, ∃ thread, task = .ok thread ∧
            ∀ t : KernelStat, t.WellFormed →
              thread.stat = .ok (some (Utf8.encode t.render)) → t.group = group ∧ t.state = 'Z') ∧
      (∀ entry pid bytes, .ok entry ∈ entries → entry.pid = some pid →
        entry.stat = .ok (some bytes) → ∃ info, readLinuxStat (.ok (some bytes)) pid = .ok info) ∧
      (∀ self kill view, processGroupIsQuiescent group self kill view = .ok true →
        kill = .noSuchProcess ∨ ∃ snapshot, snapshot ≠ [] ∧
          linuxDeadGroupSnapshot view.first group = .ok (some snapshot) ∧
          linuxDeadGroupSnapshot view.second group = .ok (some snapshot)) := by
  have hsound := snapshot_sound h
  refine ⟨hsound, fun entry pid r hentry hpid hr htext hgroup => ?_,
    fun entry pid bytes hentry hpid htext => ?_, fun self kill view => snapshot_of_quiescent⟩
  · obtain ⟨_, hitem, hcase⟩ := hsound _ hentry
    obtain rfl := Except.ok.inj hitem
    rcases hcase pid hpid with hgone | ⟨info, hread, hdead⟩
    · exact absurd htext (hgone.unread _)
    · rw [htext] at hread
      obtain ⟨rfl, rfl⟩ := readLinuxStat_render hr hread
      obtain ⟨hstate, tasks, htasks, hcount, hzombies, -⟩ := hdead hgroup
      refine ⟨rfl, state_eq_of_zombie hr hstate, tasks, htasks, hcount, fun task htask => ?_⟩
      obtain ⟨tid, thread, hzombie⟩ := hzombies task htask
      obtain ⟨file, rfl, -⟩ := id hzombie
      exact ⟨file, rfl, fun t ht => kernel_zombieThread hzombie ht⟩
  · obtain ⟨_, hitem, hcase⟩ := hsound _ hentry
    obtain rfl := Except.ok.inj hitem
    rcases hcase pid hpid with hgone | ⟨info, hread, -⟩
    · exact absurd htext (hgone.unread _)
    · exact ⟨info, by rw [← htext, hread]⟩

/-- The leader of a group that has ended, with parentheses and a blank in its command name. -/
def endedLeader : KernelStat where
  pid := 21
  comm := "name with ) parentheses".toList
  state := 'Z'
  parent := 0
  group := 20
  middle := List.replicate 14 0
  threads := 1
  alarm := 0
  started := 12345
  rest := []

/-- The entry of `/proc` for it. -/
def endedEntry : ProcEntry where
  name := some "21".toList
  stat := .ok (some (Utf8.encode endedLeader.render))
  tryExists := .ok true
  tasks := .ok [.ok ⟨some "21".toList, .ok (some (Utf8.encode endedLeader.render))⟩]

/-- The process of the example is found dead, and its letter is the one of zombies. -/
theorem dead_group_sound_ended :
    linuxDeadGroupSnapshot (.ok [.ok endedEntry]) 20 = .ok (some [(21, 12345)]) ∧
      endedLeader.state = 'Z' := by
  have hsnapshot :
      linuxDeadGroupSnapshot (.ok [.ok endedEntry]) 20 = .ok (some [(21, 12345)]) := by
    decide +kernel
  have hwell : endedLeader.WellFormed :=
    ⟨by decide, by decide, by decide, by decide, by decide, by decide, by decide⟩
  exact ⟨hsnapshot, ((dead_group_sound hsnapshot).2.1 endedEntry 21 endedLeader
    (List.mem_singleton_self _) (by decide +kernel) hwell rfl rfl).2.1⟩

end DshNexus.Agent.DeadGroup
