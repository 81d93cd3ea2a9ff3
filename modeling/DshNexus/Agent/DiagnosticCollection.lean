import DshNexus.Agent.DiagnosticBundle
import DshNexus.Agent.DiagnosticRedaction
import DshNexus.Core.PrefixCode
import DshNexus.Core.Words

/-!
# Collecting diagnostics

`collect_with_context` of `crates/nexus-core/src/lib.rs`: what Nexus copies of its data root into a
bundle, how every copy is bounded and redacted, and the records that are written of it.

1. What a call finds, and what is read of a file.
2. The files of a bundle: the context, the two startup observations, the sources.
3. `collectWithContext`.
4. `Draft.Shows`: the size and the truncation flag of a copy are those of its source.
5. Names: the sources have names of their own, and when these are safe.
6. Notes: a redacted note is accepted where it was no document, or nothing of it was hidden.
7. `collects_well_iff`.
-/

namespace DshNexus.Diagnostics

open Text Config Document Snapshot Release

def MAX_DIAGNOSTICS_FILE_BYTES : Nat := 512 * 1024

def MAX_DIAGNOSTICS_LOG_BYTES : Nat := 256 * 1024

/-! ## 1. The data root -/

/-- An object or an array with something in it. -/
def isFilled : JsonValue → Bool
  | .mapping members => !members.isEmpty
  | .sequence items => !items.isEmpty
  | _ => false

/-- `serde_json`: every document is printed, and one with something in it over several lines, up to
its closing bracket. -/
structure SerdeJson extends JsonCodec where
  pretty_isSome : ∀ value, (pretty value).isSome = true
  pretty_lines : ∀ value text, isFilled value = true → pretty value = some text →
    ∃ body last, text = body ++ [last] ∧ '\n' ∈ body ∧ isWhitespace last = false

/-- An entry of the directory of logs.  There is no name where it is not text. -/
structure LogEntry where
  name : Option (List Char)
  isFile : Bool
  modified : Option Nat
  content : Bytes

structure DataRoot where
  /-- what is below the root -/
  node : List Char → DataNode
  /-- the root and its directory `run` are ordinary directories -/
  startupParentsRegular : Bool
  /-- `release-identity.json` next to the executable -/
  releaseIdentity : DataNode
  logs : List LogEntry
  /-- the names of the logs of the current session -/
  session : Option (List Char × List Char)
  bundles : List BundleEntry
  /-- the directory of the bundles is no link -/
  ordinary : Bool
  /-- there is a record of a cleanup of the bundle -/
  owned : String → Bool
  logs_nodup : (logs.filterMap LogEntry.name).Nodup
  logs_name : ∀ log ∈ logs, ∀ name, log.name = some name →
    name ≠ [] ∧ name ≠ ".".toList ∧ name ≠ "..".toList ∧ '/' ∉ name ∧ Utf8.byteLength name ≤ 255
  bundles_nodup : (bundles.filterMap fun entry => entry.name.toStr).Nodup

/-- The clock of a call, and the canonical path of its bundle. -/
structure Moment where
  nanos : Nat
  seconds : Nat
  directory : List Char
  nanos_lt : nanos < 2 ^ 128
  absolute : directory ≠ []
  short : Utf8.byteLength directory ≤ 3 * 4096
  seconds_lt : seconds < 2 ^ 64

def readDiagnosticsFile (content : Bytes) (limit : Nat) : Bytes := content.take (limit + 1)

def readDiagnosticsTail (content : Bytes) (limit : Nat) : Bytes :=
  (content.drop (content.length - (limit + 1))).take (limit + 1)

/-- `split_inclusive` at the ends of lines. -/
def byteLines : Bytes → List Bytes
  | [] => []
  | byte :: bytes =>
      if byte = 0x0a then [byte] :: byteLines bytes
      else match byteLines bytes with
        | [] => [[byte]]
        | line :: lines => (byte :: line) :: lines

/-- The lines behind the first boundary of a private key, where that is its end. -/
def afterKeyEnd : List Bytes → Option (List Bytes)
  | [] => none
  | line :: lines =>
      let text := Utf8.decodeLossy line
      if containsText "PRIVATE KEY-----".toList text = true then
        if containsText "-----BEGIN".toList text = true then none
        else if containsText "-----END".toList text = true then some lines
        else afterKeyEnd lines
      else afterKeyEnd lines

def omitTruncatedPrivateKeyPrefix (bytes : Bytes) : Bytes × Bool :=
  match afterKeyEnd (byteLines bytes) with
  | none => (bytes, false)
  | some lines => (lines.flatten, true)

/-! ## 2. The files of a bundle -/

structure Draft where
  relative : List Char
  payload : Bytes
  redacted : Bool
  truncated : Bool

/-- A copy over its bound is replaced by a message. -/
def Draft.bounded (draft : Draft) (limit : Nat) (message : String) : Draft :=
  if draft.payload.length > limit then
    { draft with payload := Utf8.encode message.toList, redacted := true, truncated := true }
  else draft

def EFFECTIVE_CONFIG : List Char := "effective-config.json".toList

/-- The context, of which `bytes` is the printed form. -/
def contextDraft (json : JsonCodec) (bytes : Bytes) : Draft :=
  let shown :=
    if bytes.length ≤ MAX_DIAGNOSTICS_FILE_BYTES then redactDiagnosticsPayload json bytes
    else (Utf8.encode "Configuration context exceeded the diagnostic bound".toList, true)
  let truncated := decide (bytes.length > MAX_DIAGNOSTICS_FILE_BYTES ∨
    shown.1.length > MAX_DIAGNOSTICS_FILE_BYTES)
  Draft.bounded ⟨EFFECTIVE_CONFIG, shown.1, shown.2, truncated⟩ MAX_DIAGNOSTICS_FILE_BYTES
    "Redacted configuration exceeded the diagnostic bound"

def contextDrafts (json : JsonCodec) (context : Option JsonValue) : Except IoError (List Draft) :=
  match context with
  | none => .ok []
  | some context => do
      let text ← required ⟨.other, "serde_json"⟩ (json.pretty context)
      pure [contextDraft json (Utf8.encode text)]

/-- The observations of a start, and their bounds. -/
def STARTUP : List (List Char × Nat) :=
  [("run/host-startup.json".toList, 16384), ("run/browser-health.json".toList, 65536)]

/-- The document that stands for an observation that could not be read. -/
def snapshotError (message : String) : Bytes :=
  Utf8.encode "\x7b\"diagnostic_snapshot_error\":".toList ++
    jsonString (Utf8.encode message.toList) ++ Utf8.encode "\x7d".toList

/-- `serde_json::from_slice(..).is_ok()`. -/
def isJson (json : JsonCodec) (bytes : Bytes) : Bool :=
  ((Utf8.decode bytes).bind json.parse).isSome

/-- An observation of a start; none where there is no file. -/
def startupDraft (json : JsonCodec) (root : DataRoot) (relative : List Char) (limit : Nat) :
    Option Draft :=
  let read :=
    if root.startupParentsRegular = true then (root.node relative).readBounded limit
    else .error (invalidData "Startup diagnostic parent is not an ordinary directory")
  let message := "\x7b\"diagnostic_snapshot_error\":\"Redacted startup observation exceeds " ++
    "bound\"\x7d"
  match read with
  | .ok none => none
  | .ok (some bytes) =>
      if isJson json bytes = true then
        let shown := redactDiagnosticsPayload json bytes
        some (Draft.bounded ⟨relative, shown.1, shown.2, false⟩ limit message)
      else some (Draft.bounded ⟨relative, snapshotError "Invalid startup observation JSON", false,
        true⟩ limit message)
  | .error e => some (Draft.bounded ⟨relative, snapshotError e.message, false, true⟩ limit message)

def startupDrafts (json : JsonCodec) (root : DataRoot) : List Draft :=
  STARTUP.filterMap fun observation => startupDraft json root observation.1 observation.2

structure Source where
  relative : List Char
  limit : Nat
  content : Bytes

/-- The files of the root that are copied, in their order. -/
def FIXED_FILES : List (List Char) :=
  ["state.json", "profiles.json", "release-pointers.json", "update-state.json",
    "install-operation.json", "cold-operation.json", "cold-publication.json",
    "run/harness-log-session.json", "run/checkpoint-restore.json", "run/harness-recovery.json",
    "run/harness-effective.json", "run/last-capture.json", "run/cleanup-result.json",
    "compatibility/latest.json", "canary/latest.json", "run/agent.json",
    "run/launcher-agent.json"].map String.toList

def RELEASE_IDENTITY : List Char := "release-identity.json".toList

/-- A file, where `is_regular_diagnostics_file` holds. -/
def fileSource (relative : List Char) (node : DataNode) : Option Source :=
  match node with
  | .file content => some ⟨relative, MAX_DIAGNOSTICS_FILE_BYTES, content⟩
  | .missing => none
  | .foreign => none

def LOGS : List Char := "logs/".toList

/-- Is the log one of the current session? -/
def isCurrent (root : DataRoot) (log : LogEntry) : Bool :=
  root.session.any fun session => log.name = some session.1 || log.name = some session.2

/-- The order of the logs: those of the current session, then the newest, then by name. -/
def LogBefore (root : DataRoot) (left right : LogEntry) : Prop :=
  let key := fun log : LogEntry => (log.modified.map (· + 1)).getD 0
  (isCurrent root left = true ∧ isCurrent root right = false) ∨
    (isCurrent root left = isCurrent root right ∧ (key right < key left ∨
      (key right = key left ∧ left.name.getD [] ≤ right.name.getD [])))

instance decidableLogBefore (root : DataRoot) : DecidableRel (LogBefore root) := fun _ _ =>
  inferInstanceAs (Decidable (_ ∨ _))

/-- The files among the entries whose name is text. -/
def logFiles (root : DataRoot) : List LogEntry :=
  root.logs.filter fun log => log.isFile && log.name.isSome

def logSource (log : LogEntry) : Source :=
  ⟨LOGS ++ log.name.getD [], MAX_DIAGNOSTICS_LOG_BYTES, log.content⟩

def allSources (root : DataRoot) : List Source :=
  FIXED_FILES.filterMap (fun relative => fileSource relative (root.node relative)) ++
    (fileSource RELEASE_IDENTITY root.releaseIdentity).toList ++
    ((logFiles root).insertionSort (LogBefore root)).map logSource

def sourceDraft (json : JsonCodec) (source : Source) : Draft :=
  let tail := LOGS.isPrefixOf source.relative
  let raw :=
    if tail then readDiagnosticsTail source.content source.limit
    else readDiagnosticsFile source.content source.limit
  let truncated := decide (raw.length > source.limit)
  let bounded :=
    if truncated && tail then
      omitTruncatedPrivateKeyPrefix ((raw.dropWhile fun byte => byte ≠ 0x0a).drop 1)
    else if truncated then (raw.take source.limit, false)
    else (raw, false)
  let shown := redactDiagnosticsPayload json bounded.1
  Draft.bounded ⟨source.relative, shown.1, shown.2 || bounded.2, truncated⟩ source.limit
    "Redacted content exceeded the diagnostic bound"

/-- The sources that are copied, with `count` files in the bundle already. -/
def selectedSources (root : DataRoot) (count : Nat) : List Source :=
  (allSources root).take (MAX_DIAGNOSTICS_FILES - count)

/-! ## 3. The call -/

def BACKSLASH : Char := Char.ofNat 0x5c

/-- `replace` of every backslash. -/
def slashed (relative : List Char) : List Char :=
  relative.map fun c => if c = BACKSLASH then '/' else c

/-- `Map::insert`. -/
def insertFile (name text : List Char) (files : List (List Char × List Char)) :
    List (List Char × List Char) :=
  files.filter (fun file => file.1 ≠ name) ++ [(name, text)]

/-- The files in the directory of the bundle, those of the export and those of the record. -/
structure Written where
  stored : List (List Char × Bytes)
  portable : List (List Char × List Char)
  files : List DiagnosticsFile

/-- A copy is written to a new file.  The names that are not those of logs have no
backslash. -/
def writeDraft (written : Written) (draft : Draft) : Except IoError Written :=
  if (written.stored.any fun file => file.1 = draft.relative) = true then
    .error ⟨.alreadyExists, "File exists"⟩
  else .ok
    { stored := written.stored ++ [(draft.relative, draft.payload)]
      portable :=
        insertFile (slashed draft.relative) (Utf8.decodeLossy draft.payload) written.portable
      files := written.files ++ [⟨slashed draft.relative, draft.payload.length, draft.redacted,
        draft.truncated⟩] }

/-- All copies, in the order in which they are written. -/
def collectDrafts (json : JsonCodec) (root : DataRoot) (context : Option JsonValue) :
    Except IoError (List Draft) := do
  let first ← contextDrafts json context
  let files := first ++ startupDrafts json root
  pure (files ++ (selectedSources root files.length).map (sourceDraft json))

def redactNote (json : JsonCodec) (note : List Char) : List Char :=
  trimEnd (Utf8.decodeLossy (redactDiagnosticsPayload json (Utf8.encode note)).1)

def bundleId (nanos : Nat) : String := "diag-" ++ toString nanos

/-- `export.json`. -/
structure Export where
  bundle : DiagnosticsBundle
  files : List (List Char × List Char)

/-- What a call leaves in the directory of the bundle. -/
structure Collected where
  bundle : DiagnosticsBundle
  stored : List (List Char × Bytes)
  portable : Export

def collectWithContext (json : JsonCodec) (root : DataRoot) (moment : Moment)
    (note : Option (List Char)) (context : Option JsonValue) : Except IoError Collected := do
  validateOptionalDiagnosticsText note "diagnostics note"
  let id := bundleId moment.nanos
  validateReleaseId id
  if (root.bundles.any fun entry => entry.name.toStr = some id) = true then
    throw ⟨.alreadyExists, "File exists"⟩
  let drafts ← collectDrafts json root context
  let written ← drafts.foldlM writeDraft ⟨[], [], []⟩
  let bundle : DiagnosticsBundle :=
    { id
      createdAtUnix := moment.seconds
      directory := moment.directory
      note := note.map (redactNote json)
      files := written.files.insertionSort fun left right => left.name ≤ right.name }
  validateDiagnosticsBundle bundle
  pure ⟨bundle, written.stored, ⟨bundle, written.portable⟩⟩

/-- The entry of the bundle in the directory of the bundles. -/
def Collected.entry (codec : ManifestCodec) (collected : Collected) : BundleEntry where
  name := ⟨collected.bundle.id, true, by simp⟩
  isDir := true
  manifest := .file (codec.encode ⟨DIAGNOSTICS_SCHEMA_VERSION, collected.bundle⟩)

/-! ## 4. Sizes and truncation -/

section Shows

variable {json : JsonCodec} {root : DataRoot} {draft : Draft} {limit : Nat}

/-- **A copy of the whole of a file**: it is within its bound; its flag is off exactly where the
file can be read and neither it nor its redacted form is over the bound; then the copy is the
redacted form of the whole file. -/
structure Shows (json : JsonCodec) (whole : Option Bytes) (limit : Nat) (payload : Bytes)
    (truncated : Bool) : Prop where
  bound : payload.length ≤ limit
  flag : truncated = false ↔ ∃ content, whole = some content ∧ content.length ≤ limit ∧
    (redactDiagnosticsPayload json content).1.length ≤ limit
  full : truncated = false → ∀ content, whole = some content →
    payload = (redactDiagnosticsPayload json content).1

def Draft.Shows (json : JsonCodec) (whole : Option Bytes) (limit : Nat) (draft : Draft) : Prop :=
  Diagnostics.Shows json whole limit draft.payload draft.truncated

@[simp] theorem bounded_relative (limit : Nat) (message : String) :
    (draft.bounded limit message).relative = draft.relative := by
  unfold Draft.bounded
  split <;> rfl

theorem shows_bounded_fits {content : Bytes} {message : String}
    (hpayload : draft.payload = (redactDiagnosticsPayload json content).1)
    (hflag : draft.truncated = true → limit < draft.payload.length)
    (hfits : content.length ≤ limit) (hmessage : (Utf8.encode message.toList).length ≤ limit) :
    (draft.bounded limit message).Shows json (some content) limit := by
  unfold Draft.bounded
  split
  · next hlong =>
    refine ⟨hmessage, iff_of_false (fun h => by cases h) ?_, fun h => by cases h⟩
    rintro ⟨_, ⟨⟩, -, h⟩
    rw [← hpayload] at h
    omega
  · next hshort =>
    have hoff : draft.truncated = false := by
      cases htruncated : draft.truncated with
      | false => rfl
      | true => exact absurd (hflag htruncated) hshort
    refine ⟨by omega, iff_of_true hoff ⟨content, rfl, hfits, ?_⟩, ?_⟩
    · rw [← hpayload]
      omega
    · rintro - _ ⟨⟩
      exact hpayload

theorem shows_bounded_cut {whole : Option Bytes} {message : String}
    (htruncated : draft.truncated = true)
    (hwhole : ∀ content, whole = some content → limit < content.length)
    (hmessage : (Utf8.encode message.toList).length ≤ limit) :
    Draft.Shows json whole limit (draft.bounded limit message) := by
  have hflag : (draft.bounded limit message).truncated = true := by
    unfold Draft.bounded
    split
    · rfl
    · exact htruncated
  refine ⟨?_, ?_, fun h => by rw [hflag] at h; cases h⟩
  · unfold Draft.bounded
    split
    · exact hmessage
    · next hshort => omega
  · rw [hflag]
    refine iff_of_false (fun h => by cases h) ?_
    rintro ⟨content, hcontent, hle, -⟩
    have hlt := hwhole content hcontent
    omega

theorem contextDraft_relative (bytes : Bytes) :
    (contextDraft json bytes).relative = EFFECTIVE_CONFIG :=
  bounded_relative _ _

theorem contextDraft_shows (bytes : Bytes) :
    (contextDraft json bytes).Shows json (some bytes) MAX_DIAGNOSTICS_FILE_BYTES := by
  have hmessage : (Utf8.encode "Redacted configuration exceeded the diagnostic bound".toList).length
      ≤ MAX_DIAGNOSTICS_FILE_BYTES := by decide
  unfold contextDraft
  dsimp only
  by_cases hfits : bytes.length ≤ MAX_DIAGNOSTICS_FILE_BYTES
  · refine shows_bounded_fits (by rw [if_pos hfits]) (fun h => ?_) hfits hmessage
    rcases of_decide_eq_true h with h | h
    · omega
    · exact h
  · refine shows_bounded_cut (decide_eq_true (Or.inl (by omega))) ?_ hmessage
    rintro _ ⟨⟩
    omega

/-- What can be read of an observation of a start. -/
def startupWhole (json : JsonCodec) (root : DataRoot) (relative : List Char) : Option Bytes :=
  match root.node relative with
  | .file content =>
      if root.startupParentsRegular = true ∧ isJson json content = true then some content else none
  | .missing => none
  | .foreign => none

theorem startupDraft_shows {relative : List Char} (hlimit : 100 ≤ limit)
    (h : startupDraft json root relative limit = some draft) :
    draft.relative = relative ∧ draft.Shows json (startupWhole json root relative) limit := by
  have hmessage : (Utf8.encode ("\x7b\"diagnostic_snapshot_error\":\"Redacted startup observation " ++
      "exceeds bound\"\x7d").toList).length ≤ limit := le_trans (by decide) hlimit
  unfold startupDraft at h
  unfold startupWhole
  by_cases hregular : root.startupParentsRegular = true
  · rw [if_pos hregular] at h
    rcases hnode : root.node relative with _ | content | _
    · rw [hnode] at h
      cases h
    · rw [hnode, DataNode.readBounded, readRegularFileBounded] at h
      by_cases hlong : content.length > limit
      · rw [if_pos hlong] at h
        cases h
        refine ⟨bounded_relative _ _, shows_bounded_cut rfl (fun c hc => ?_) hmessage⟩
        dsimp only at hc
        split at hc
        · cases hc
          exact hlong
        · cases hc
      · rw [if_neg hlong] at h
        dsimp only at h ⊢
        by_cases hjson : isJson json content = true
        · rw [if_pos hjson] at h
          cases h
          rw [if_pos ⟨hregular, hjson⟩]
          exact ⟨bounded_relative _ _, shows_bounded_fits rfl (fun h => by cases h) (by omega)
            hmessage⟩
        · rw [if_neg hjson] at h
          cases h
          rw [if_neg fun h => hjson h.2]
          exact ⟨bounded_relative _ _, shows_bounded_cut rfl (fun _ h => by cases h) hmessage⟩
    · rw [hnode] at h
      cases h
      exact ⟨bounded_relative _ _, shows_bounded_cut rfl (fun _ h => by cases h) hmessage⟩
  · rw [if_neg hregular] at h
    cases h
    refine ⟨bounded_relative _ _, shows_bounded_cut rfl (fun c hc => ?_) hmessage⟩
    rcases hnode : root.node relative with _ | content | _
    all_goals rw [hnode] at hc
    · cases hc
    · dsimp only at hc
      rw [if_neg fun h => hregular h.1] at hc
      cases hc
    · cases hc

theorem sourceDraft_shows {source : Source} (hlimit : 100 ≤ source.limit) :
    (sourceDraft json source).relative = source.relative ∧
      (sourceDraft json source).Shows json (some source.content) source.limit := by
  have hmessage : (Utf8.encode "Redacted content exceeded the diagnostic bound".toList).length
      ≤ source.limit := le_trans (by decide) hlimit
  unfold sourceDraft
  dsimp only
  generalize hraw : (if LOGS.isPrefixOf source.relative = true then
    readDiagnosticsTail source.content source.limit
    else readDiagnosticsFile source.content source.limit) = raw
  have hlength : raw.length = min source.content.length (source.limit + 1) := by
    rw [← hraw]
    split
    · simp only [readDiagnosticsTail, List.length_take, List.length_drop]
      omega
    · simp only [readDiagnosticsFile, List.length_take]
      omega
  refine ⟨bounded_relative _ _, ?_⟩
  by_cases hfits : source.content.length ≤ source.limit
  · have hwhole : raw = source.content := by
      rw [← hraw]
      split
      · rw [readDiagnosticsTail, Nat.sub_eq_zero_of_le (by omega), List.drop_zero,
          List.take_of_length_le (by omega)]
      · exact List.take_of_length_le (by omega)
    have hoff : decide (raw.length > source.limit) = false := decide_eq_false (by omega)
    rw [hoff]
    exact shows_bounded_fits (by simp [hwhole]) (fun h => by cases h) hfits hmessage
  · refine shows_bounded_cut (decide_eq_true (by omega)) ?_ hmessage
    rintro _ ⟨⟩
    omega

end Shows

/-! ## 5. Names -/

section Names

variable {json : JsonCodec} {root : DataRoot} {context : Option JsonValue} {drafts : List Draft}

/-- The names that are not those of logs. -/
def constantNames : List (List Char) :=
  EFFECTIVE_CONFIG :: STARTUP.map Prod.fst ++ FIXED_FILES ++ [RELEASE_IDENTITY]

/-- A name as it may be copied: of characters that are shown, and with no backslash. -/
def PlainName (name : List Char) : Prop := ∀ c ∈ name, c ≠ BACKSLASH ∧ isControl c = false

theorem constantNames_nodup : constantNames.Nodup := by decide

theorem constantNames_plain : ∀ name ∈ constantNames, unsafeName name = false ∧
    Utf8.byteLength name ≤ 260 ∧ LOGS.isPrefixOf name = false ∧
    name.all (fun c => c ≠ BACKSLASH && c.toNat < 128) = true := by
  decide +kernel

/-- The names of the logs that may be copied, in their order. -/
def logNames (root : DataRoot) : List (List Char) :=
  ((logFiles root).insertionSort (LogBefore root)).map fun log => LOGS ++ log.name.getD []

theorem logNames_nodup (root : DataRoot) : (logNames root).Nodup := by
  have hsub : ∀ logs : List LogEntry,
      ((logs.filter fun log => log.isFile && log.name.isSome).map fun log => log.name.getD []).Sublist
        (logs.filterMap LogEntry.name) := by
    intro logs
    induction logs with
    | nil => exact List.Sublist.refl _
    | cons log logs ih =>
      rcases hname : log.name with _ | name
      · rw [List.filter_cons_of_neg (by simp [hname]), List.filterMap_cons_none hname]
        exact ih
      · rw [List.filterMap_cons_some hname]
        by_cases hfile : log.isFile = true
        · rw [List.filter_cons_of_pos (by simp [hname, hfile]), List.map_cons, hname]
          exact ih.cons_cons name
        · rw [List.filter_cons_of_neg (by simp [hfile])]
          exact ih.cons name
  have hnames : ((logFiles root).map fun log => log.name.getD []).Nodup :=
    (hsub root.logs).nodup root.logs_nodup
  have hperm := ((logFiles root).perm_insertionSort (LogBefore root)).map fun log : LogEntry =>
    LOGS ++ log.name.getD []
  refine hperm.nodup_iff.mpr ?_
  have hmap := hnames.map (f := fun name : List Char => LOGS ++ name) fun _ _ h =>
    List.append_cancel_left h
  rwa [List.map_map] at hmap

theorem exists_of_mem_logNames {name : List Char} (h : name ∈ logNames root) :
    ∃ own, name = LOGS ++ own ∧ own ≠ [] ∧ own ≠ ".".toList ∧ own ≠ "..".toList ∧ '/' ∉ own ∧
      Utf8.byteLength own ≤ 255 := by
  obtain ⟨log, hlog, rfl⟩ := List.mem_map.mp h
  have hmem := (List.perm_insertionSort _ _).mem_iff.mp hlog
  obtain ⟨hin, hfilter⟩ := List.mem_filter.mp hmem
  rw [Bool.and_eq_true] at hfilter
  obtain ⟨own, hown⟩ := Option.isSome_iff_exists.mp hfilter.2
  exact ⟨own, by rw [hown]; rfl, root.logs_name log hin own hown⟩

theorem names_nodup (root : DataRoot) : (constantNames ++ logNames root).Nodup := by
  refine List.nodup_append'.mpr ⟨constantNames_nodup, logNames_nodup root, ?_⟩
  intro name hconstant hlog
  obtain ⟨own, rfl, -⟩ := exists_of_mem_logNames hlog
  have hprefix := (constantNames_plain _ hconstant).2.2.1
  rw [List.isPrefixOf_iff_prefix.mpr (List.prefix_append LOGS own)] at hprefix
  cases hprefix

theorem map_filterMap_sublist {α β γ : Type} {f : α → Option β} {g : β → γ} {g' : α → γ}
    {items : List α} (h : ∀ a ∈ items, ∀ b, f a = some b → g b = g' a) :
    ((items.filterMap f).map g).Sublist (items.map g') := by
  induction items with
  | nil => exact List.Sublist.refl _
  | cons a items ih =>
    have hrest := ih fun a' ha' => h a' (List.mem_cons_of_mem _ ha')
    rcases hfa : f a with _ | b
    · rw [List.filterMap_cons_none hfa, List.map_cons]
      exact hrest.cons _
    · rw [List.filterMap_cons_some hfa, List.map_cons, List.map_cons, h a List.mem_cons_self b hfa]
      exact hrest.cons_cons _

theorem contextDrafts_names {first : List Draft} (h : contextDrafts json context = .ok first) :
    (first.map Draft.relative).Sublist [EFFECTIVE_CONFIG] := by
  rcases context with _ | context
  · cases h
    exact List.nil_sublist _
  · obtain ⟨text, -, h⟩ := bind_eq_ok h
    cases h
    rw [List.map_singleton, contextDraft_relative]

theorem startupDrafts_names (json : JsonCodec) (root : DataRoot) :
    ((startupDrafts json root).map Draft.relative).Sublist (STARTUP.map Prod.fst) := by
  have hbound : ∀ observation ∈ STARTUP, 100 ≤ observation.2 := by decide
  exact map_filterMap_sublist fun observation hmem draft hdraft =>
    (startupDraft_shows (hbound observation hmem) hdraft).1

theorem fileSource_relative {relative : List Char} {node : DataNode} {source : Source}
    (h : fileSource relative node = some source) :
    source.relative = relative ∧ source.limit = MAX_DIAGNOSTICS_FILE_BYTES := by
  cases node with
  | missing => cases h
  | file content =>
    cases h
    exact ⟨rfl, rfl⟩
  | foreign => cases h

theorem allSources_names (root : DataRoot) : ((allSources root).map Source.relative).Sublist
    (FIXED_FILES ++ [RELEASE_IDENTITY] ++ logNames root) := by
  unfold allSources logNames
  rw [List.map_append, List.map_append, List.map_map]
  refine List.Sublist.append (List.Sublist.append ?_ ?_) (List.Sublist.refl _)
  · have h : ((FIXED_FILES.filterMap fun relative =>
        fileSource relative (root.node relative)).map Source.relative).Sublist
          (FIXED_FILES.map id) :=
      map_filterMap_sublist fun name _ source hsource => (fileSource_relative hsource).1
    rwa [List.map_id] at h
  · rcases hsource : fileSource RELEASE_IDENTITY root.releaseIdentity with _ | source
    · exact List.nil_sublist _
    · rw [Option.toList_some, List.map_singleton, (fileSource_relative hsource).1]

theorem allSources_limit {source : Source} (h : source ∈ allSources root) :
    100 ≤ source.limit ∧ source.limit ≤ MAX_DIAGNOSTICS_FILE_BYTES := by
  unfold allSources at h
  rw [List.mem_append, List.mem_append, List.mem_filterMap, Option.mem_toList, List.mem_map] at h
  rcases h with (⟨name, -, h⟩ | h) | ⟨log, -, rfl⟩
  · rw [(fileSource_relative h).2]
    decide
  · rw [(fileSource_relative h).2]
    decide
  · show 100 ≤ MAX_DIAGNOSTICS_LOG_BYTES ∧ MAX_DIAGNOSTICS_LOG_BYTES ≤ MAX_DIAGNOSTICS_FILE_BYTES
    decide

theorem collectDrafts_eq (h : collectDrafts json root context = .ok drafts) : ∃ first,
    contextDrafts json context = .ok first ∧ drafts = first ++ startupDrafts json root ++
      (selectedSources root (first ++ startupDrafts json root).length).map (sourceDraft json) := by
  obtain ⟨first, hfirst, h⟩ := bind_eq_ok h
  cases h
  exact ⟨first, hfirst, rfl⟩

theorem collectDrafts_names (h : collectDrafts json root context = .ok drafts) :
    (drafts.map Draft.relative).Sublist (constantNames ++ logNames root) ∧
      drafts.length ≤ MAX_DIAGNOSTICS_FILES := by
  obtain ⟨first, hfirst, rfl⟩ := collectDrafts_eq h
  have hcontext := contextDrafts_names hfirst
  have hstartup := startupDrafts_names json root
  have hfiles := (hcontext.append hstartup).length_le
  have hsources : ∀ sources : List Source, (∀ source ∈ sources, 100 ≤ source.limit) →
      (sources.map (sourceDraft json)).map Draft.relative = sources.map Source.relative := by
    intro sources hlimit
    rw [List.map_map]
    exact List.map_congr_left fun source hsource => (sourceDraft_shows (hlimit source hsource)).1
  have htake : ∀ source ∈ selectedSources root (first ++ startupDrafts json root).length,
      source ∈ allSources root := fun source hmem => List.mem_of_mem_take hmem
  constructor
  · rw [List.map_append, List.map_append, hsources _ fun source hmem =>
      (allSources_limit (htake source hmem)).1]
    have hselected : ((selectedSources root _).map Source.relative).Sublist _ :=
      ((List.take_sublist (MAX_DIAGNOSTICS_FILES - (first ++ startupDrafts json root).length)
        (allSources root)).map Source.relative).trans (allSources_names root)
    have hnames : constantNames ++ logNames root = [EFFECTIVE_CONFIG] ++ STARTUP.map Prod.fst ++
        (FIXED_FILES ++ [RELEASE_IDENTITY] ++ logNames root) := by
      simp only [constantNames, List.append_assoc, List.cons_append, List.nil_append]
    rw [hnames]
    exact (hcontext.append hstartup).append hselected
  · simp only [List.length_append, List.length_map, selectedSources, List.length_take] at hfiles ⊢
    have hthree : [EFFECTIVE_CONFIG].length + (STARTUP.map Prod.fst).length ≤ 64 := by decide
    simp only [List.length_map] at hthree
    unfold MAX_DIAGNOSTICS_FILES
    omega

end Names

/-! ## Writing -/

section Writing

variable {json : JsonCodec} {drafts : List Draft} {written : Written}

def Draft.file (draft : Draft) : DiagnosticsFile :=
  ⟨slashed draft.relative, draft.payload.length, draft.redacted, draft.truncated⟩

theorem slashed_of_plain {name : List Char} (h : PlainName name) : slashed name = name := by
  refine (List.map_congr_left fun c hc => ?_).trans (List.map_id name)
  rw [if_neg (h c hc).1, id]

/-- **Files with names of their own are written**: each is stored, listed and exported. -/
theorem foldlM_writeDraft (h : (written.stored.map Prod.fst ++ drafts.map Draft.relative).Nodup) :
    ∃ written', drafts.foldlM writeDraft written = .ok written' ∧
      written'.stored = written.stored ++ drafts.map (fun d => (d.relative, d.payload)) ∧
      written'.files = written.files ++ drafts.map Draft.file ∧
      ((written.portable.map Prod.fst ++ drafts.map fun d => slashed d.relative).Nodup →
        written'.portable = written.portable ++
          drafts.map fun d => (slashed d.relative, Utf8.decodeLossy d.payload)) := by
  induction drafts generalizing written with
  | nil => exact ⟨written, rfl, by simp, by simp, by simp⟩
  | cons draft drafts ih =>
    rw [List.map_cons] at h
    have hnew : draft.relative ∉ written.stored.map Prod.fst := fun hmem =>
      (List.nodup_append'.mp h).2.2 hmem List.mem_cons_self
    have hstep : writeDraft written draft = .ok ⟨written.stored ++ [(draft.relative, draft.payload)],
        insertFile (slashed draft.relative) (Utf8.decodeLossy draft.payload) written.portable,
        written.files ++ [draft.file]⟩ := by
      refine if_neg fun hany => hnew ?_
      obtain ⟨file, hfile, heq⟩ := List.any_eq_true.mp hany
      exact List.mem_map.mpr ⟨file, hfile, of_decide_eq_true heq⟩
    obtain ⟨written', hrun, hstored, hfiles, hportable⟩ :=
      @ih ⟨written.stored ++ [(draft.relative, draft.payload)],
        insertFile (slashed draft.relative) (Utf8.decodeLossy draft.payload) written.portable,
        written.files ++ [draft.file]⟩ (by simpa using h)
    refine ⟨written', ?_, by simpa using hstored, by simpa using hfiles, fun hnodup => ?_⟩
    · rw [List.foldlM_cons, hstep]
      exact hrun
    · have hfilter : written.portable.filter (fun file => file.1 ≠ slashed draft.relative) =
          written.portable := by
        refine List.filter_eq_self.mpr fun file hfile => decide_eq_true fun heq => ?_
        exact (List.nodup_append'.mp hnodup).2.2 (List.mem_map_of_mem hfile)
          (by rw [heq]; exact List.mem_cons_self)
      have hinsert : insertFile (slashed draft.relative) (Utf8.decodeLossy draft.payload)
          written.portable = written.portable ++
            [(slashed draft.relative, Utf8.decodeLossy draft.payload)] := by
        rw [insertFile, hfilter]
      rw [hportable (by rw [hinsert]; simpa using hnodup), hinsert]
      simp

end Writing


/-! ## 6. Texts -/

section Texts

variable {json : JsonCodec} {text : List Char}

def IsText (bytes : Bytes) : Prop := ∃ text, bytes = Utf8.encode text

theorem isText_redactDiagnosticsPayload (payload : Bytes) :
    IsText (redactDiagnosticsPayload json payload).1 := by
  unfold redactDiagnosticsPayload
  split
  · exact ⟨_, rfl⟩
  · next text hdecode =>
    split
    · dsimp only
      split
      · exact ⟨_, rfl⟩
      · exact ⟨text, (Utf8.encode_of_decode hdecode).symm⟩
    · exact ⟨_, rfl⟩

theorem isText_bounded {draft : Draft} {limit : Nat} {message : String} (h : IsText draft.payload) :
    IsText (draft.bounded limit message).payload := by
  unfold Draft.bounded
  split
  · exact ⟨_, rfl⟩
  · exact h

theorem isText_contextDraft (bytes : Bytes) : IsText (contextDraft json bytes).payload := by
  refine isText_bounded ?_
  dsimp only
  split
  · exact isText_redactDiagnosticsPayload bytes
  · exact ⟨_, rfl⟩

theorem isText_sourceDraft (source : Source) : IsText (sourceDraft json source).payload :=
  isText_bounded (isText_redactDiagnosticsPayload _)

theorem isText_snapshotError {message : String} (h : message ∈
    ["Invalid startup observation JSON", "Configuration or backup must be an ordinary bounded file",
      "Startup diagnostic parent is not an ordinary directory"]) :
    IsText (snapshotError message) := by
  refine ⟨"\x7b\"diagnostic_snapshot_error\":\"".toList ++ message.toList ++ "\"\x7d".toList, ?_⟩
  simp only [List.mem_cons, List.not_mem_nil, or_false] at h
  rcases h with rfl | rfl | rfl <;> decide +kernel

theorem message_readBounded {node : DataNode} {limit : Nat} {e : IoError}
    (h : node.readBounded limit = .error e) :
    e.message = "Configuration or backup must be an ordinary bounded file" := by
  cases node with
  | missing => cases h
  | file content =>
    rw [DataNode.readBounded, readRegularFileBounded] at h
    split at h <;> cases h
    rfl
  | foreign =>
    cases h
    rfl

theorem isText_startupDraft {root : DataRoot} {relative : List Char} {limit : Nat} {draft : Draft}
    (h : startupDraft json root relative limit = some draft) : IsText draft.payload := by
  unfold startupDraft at h
  dsimp only at h
  by_cases hregular : root.startupParentsRegular = true
  · rw [if_pos hregular] at h
    rcases hread : (root.node relative).readBounded limit with e | _ | bytes
    · rw [hread] at h
      cases h
      refine isText_bounded (isText_snapshotError ?_)
      rw [message_readBounded hread]
      simp
    · rw [hread] at h
      cases h
    · rw [hread] at h
      dsimp only at h
      split at h
      · cases h
        exact isText_bounded (isText_redactDiagnosticsPayload _)
      · cases h
        exact isText_bounded (isText_snapshotError (by simp))
  · rw [if_neg hregular] at h
    cases h
    exact isText_bounded (isText_snapshotError (by simp [invalidData]))

/-! ### Notes -/

theorem flatten_splitInclusive (p : Char → Bool) (text : List Char) :
    (splitInclusive p text).flatten = text := by
  induction text with
  | nil => rfl
  | cons c cs ih =>
    rw [splitInclusive]
    split
    · rw [List.flatten_cons, ih]
      rfl
    · split
      · next hnil =>
        rw [hnil] at ih
        simp [← ih]
      · next part parts hcons =>
        rw [hcons] at ih
        rw [← ih]
        simp

theorem trimEnd_isPrefixOf (text : List Char) : trimEnd text <+: text :=
  List.rdropWhile_prefix isWhitespace text

theorem afterLast_sublist (c : Char) (text : List Char) : (afterLast c text).Sublist text := by
  have h := (List.takeWhile_prefix (fun d => decide (d ≠ c)) : _ <+: text.reverse).sublist.reverse
  rwa [List.reverse_reverse] at h

theorem safeUrl_sublist {trimmed safe : List Char} (h : safeUrl trimmed = some safe) :
    safe.Sublist trimmed := by
  unfold safeUrl at h
  rcases hsplit : splitAtText "://".toList trimmed with _ | ⟨scheme, rest⟩
  · rw [hsplit] at h
    cases h
  rw [hsplit] at h
  cases h
  generalize hbase : rest.takeWhile (fun c => decide (c ≠ '?' ∧ c ≠ '#')) = base
  have hprefix : base <+: rest := hbase ▸ List.takeWhile_prefix _
  have hauthority : base.takeWhile (fun c => decide (c ≠ '/')) ++
      base.drop (base.takeWhile fun c => decide (c ≠ '/')).length = base :=
    List.prefix_iff_eq_append.mp (List.takeWhile_prefix _)
  have hkept : (afterLast '@' (base.takeWhile fun c => decide (c ≠ '/')) ++
      base.drop (base.takeWhile fun c => decide (c ≠ '/')).length).Sublist rest := by
    refine List.Sublist.trans ?_ hprefix.sublist
    conv_rhs => rw [← hauthority]
    exact (afterLast_sublist _ _).append (List.Sublist.refl _)
  rw [splitAtText_eq_some hsplit, List.append_assoc]
  exact (List.Sublist.refl _).append hkept

theorem redactWord_sublist (word : List Char) : (redactWord word).1.Sublist word := by
  unfold redactWord
  rcases hsafe : safeUrl (trimEnd word) with _ | safe
  · dsimp only
    rw [hsafe]
  · dsimp only
    rw [hsafe]
    conv_rhs => rw [← List.prefix_iff_eq_append.mp (trimEnd_isPrefixOf word)]
    exact (safeUrl_sublist hsafe).append (List.Sublist.refl _)

theorem shownLine_sublist (line : List Char) : (shownLine line).1.Sublist line := by
  have hwords : ∀ words : List (List Char),
      ((words.map redactWord).flatMap Prod.fst).Sublist words.flatten := by
    intro words
    induction words with
    | nil => exact List.Sublist.refl _
    | cons word words ih => exact (redactWord_sublist word).append ih
  have h := hwords (splitInclusive isWhitespace line)
  rwa [flatten_splitInclusive] at h

theorem redactDiagnosticText_line (h : '\n' ∉ text) :
    (redactDiagnosticText text).1 = redactionMark ∨
      (redactDiagnosticText text).1.Sublist text := by
  unfold redactDiagnosticText
  dsimp only
  by_cases hnil : text = []
  · subst hnil
    exact Or.inr (List.Sublist.refl _)
  · have hlines : splitInclusive (fun c => decide (c = '\n')) text = [text] := by
      refine splitInclusive_of_none hnil fun c hc => decide_eq_false ?_
      rintro rfl
      exact h hc
    rw [hlines, List.foldl_cons, List.foldl_nil, redactLine]
    split
    · exact Or.inl (List.nil_append _)
    · refine Or.inr ?_
      rw [List.nil_append]
      exact shownLine_sublist text

theorem byteLength_le_of_sublist {shorter longer : List Char} (h : shorter.Sublist longer) :
    Utf8.byteLength shorter ≤ Utf8.byteLength longer :=
  (h.map Char.utf8Size).sum_le_sum fun _ _ => Nat.zero_le _

/-- Something of a document is hidden: what is printed then is no longer one line. -/
def NoteHides (json : JsonCodec) (note : List Char) : Prop :=
  ∃ value, (json.parse note).filter isContainer = some value ∧ (redactDiagnosticJson value).2 = true

theorem accepted_of_sublist {note shown : List Char} {label : String}
    (h : validateOptionalDiagnosticsText (some note) label = .ok ()) (hsub : shown.Sublist note) :
    validateOptionalDiagnosticsText (some shown) label = .ok () := by
  obtain ⟨hshort, hplain⟩ := validateOptionalDiagnosticsText_eq_ok.mp h note rfl
  refine validateOptionalDiagnosticsText_eq_ok.mpr ?_
  rintro _ ⟨⟩
  exact ⟨(byteLength_le_of_sublist hsub).trans hshort, fun c hc => hplain c (hsub.subset hc)⟩

theorem redactNote_accepted {note : List Char} {label : String}
    (h : validateOptionalDiagnosticsText (some note) label = .ok ()) (hhides : ¬ NoteHides json note) :
    validateOptionalDiagnosticsText (some (redactNote json note)) label = .ok () := by
  have hline : '\n' ∉ note := fun hmem => by
    have hplain := (validateOptionalDiagnosticsText_eq_ok.mp h note rfl).2 _ hmem
    revert hplain
    decide
  unfold redactNote redactDiagnosticsPayload
  rw [Utf8.decode_encode]
  dsimp only
  rcases hparse : (json.parse note).filter isContainer with _ | value
  · dsimp only
    rw [Utf8.decodeLossy_encode]
    rcases redactDiagnosticText_line hline with hmark | hsub
    · rw [hmark]
      refine validateOptionalDiagnosticsText_eq_ok.mpr ?_
      rintro _ ⟨⟩
      have hfits : Utf8.byteLength (trimEnd redactionMark) ≤ MAX_DIAGNOSTICS_NOTE_LEN ∧
          (trimEnd redactionMark).all (fun c => !isControl c) = true := by decide +kernel
      exact ⟨hfits.1, fun c hc => by simpa using List.all_eq_true.mp hfits.2 c hc⟩
    · exact accepted_of_sublist h ((trimEnd_isPrefixOf _).sublist.trans hsub)
  · dsimp only
    rw [if_neg fun hchanged => hhides ⟨value, hparse, hchanged⟩]
    rw [Utf8.decodeLossy_encode]
    exact accepted_of_sublist h (trimEnd_isPrefixOf _).sublist

theorem isFilled_redactDiagnosticJson {value : JsonValue} (hcontainer : isContainer value = true)
    (hchanged : (redactDiagnosticJson value).2 = true) :
    isFilled (redactDiagnosticJson value).1 = true := by
  rcases value with s | items | members | ⟨tag, _⟩
  · cases hcontainer
  · rw [redactDiagnosticJson] at hchanged ⊢
    rcases items with _ | ⟨item, items⟩
    · cases hchanged
    · rw [redactDiagnosticItems]
      rfl
  · rw [redactDiagnosticJson] at hchanged ⊢
    rcases members with _ | ⟨⟨key, value⟩, members⟩
    · cases hchanged
    · rw [redactDiagnosticMembers]
      dsimp only
      split <;> rfl
  · exact tag.elim

/-- **A redacted document is refused as a note**: it is printed over several lines. -/
theorem redactNote_refused {json : SerdeJson} {note : List Char} {label : String}
    (h : NoteHides json.toJsonCodec note) :
    validateOptionalDiagnosticsText (some (redactNote json.toJsonCodec note)) label ≠ .ok () := by
  obtain ⟨value, hparse, hchanged⟩ := h
  have hcontainer : isContainer value = true := (Option.filter_eq_some_iff.mp hparse).2
  obtain ⟨text, htext⟩ := Option.isSome_iff_exists.mp
    (json.pretty_isSome (redactDiagnosticJson value).1)
  obtain ⟨body, last, hbody, hbreak, hlast⟩ := json.pretty_lines _ text
    (isFilled_redactDiagnosticJson hcontainer hchanged) htext
  have htrim : trimEnd text = text := by
    rw [trimEnd, hbody, List.reverse_append, List.reverse_singleton, List.singleton_append,
      List.dropWhile_cons_of_neg (by simp [hlast])]
    simp
  have hnote : redactNote json.toJsonCodec note = text := by
    unfold redactNote redactDiagnosticsPayload
    rw [Utf8.decode_encode]
    dsimp only
    rw [hparse]
    dsimp only
    rw [if_pos hchanged, htext, Option.getD_some, Utf8.decodeLossy_encode, htrim]
  intro haccepted
  have hplain := (validateOptionalDiagnosticsText_eq_ok.mp haccepted _ rfl).2 '\n' (by
    rw [hnote, hbody]
    exact List.mem_append_left _ hbreak)
  revert hplain
  decide

end Texts

/-! ## 7. When collecting goes well -/

section Collects

variable {json : SerdeJson} {codec : ManifestCodec} {root : DataRoot} {moment : Moment}
  {note : Option (List Char)} {context : Option JsonValue} {collected : Collected}

/-- What a file of a bundle is made from, as far as it can be read, and its bound. -/
inductive Origin (json : JsonCodec) (root : DataRoot) (context : Option JsonValue) :
    List Char → Option Bytes → Nat → Prop where
  | context (text : List Char) (h : context.bind json.pretty = some text) :
      Origin json root context EFFECTIVE_CONFIG (some (Utf8.encode text)) MAX_DIAGNOSTICS_FILE_BYTES
  | startup (relative : List Char) (limit : Nat) (h : (relative, limit) ∈ STARTUP) :
      Origin json root context relative (startupWhole json root relative) limit
  | source (source : Source) (h : source ∈ allSources root) :
      Origin json root context source.relative (some source.content) source.limit

/-- **What is asked of a call that succeeds.** -/
structure WellCollected (json : JsonCodec) (codec : ManifestCodec) (root : DataRoot)
    (context : Option JsonValue) (collected : Collected) : Prop where
  valid : validateDiagnosticsBundle collected.bundle = .ok ()
  /-- The bundle is listed without a warning, in whatever order the entries are read. -/
  listed : ∀ listing, listing.Perm (collected.entry codec :: root.bundles) →
    ∃ bundles warnings,
      listWithWarnings codec root.owned root.ordinary listing = .ok (bundles, warnings) ∧
        collected.bundle ∈ bundles ∧ collected.bundle.id ∉ warnings
  /-- The size and the flag of every listed file are those of the file of that name. -/
  files : ∀ file ∈ collected.bundle.files, ∃ payload whole limit,
    (file.name, payload) ∈ collected.stored ∧ file.bytes = payload.length ∧
      Origin json root context file.name whole limit ∧ Shows json whole limit payload file.truncated
  count : collected.bundle.files.length ≤ MAX_DIAGNOSTICS_FILES
  total : (collected.bundle.files.map DiagnosticsFile.bytes).sum ≤
    MAX_DIAGNOSTICS_FILES * MAX_DIAGNOSTICS_FILE_BYTES
  /-- The export is of the bundle, and its files are the stored files that are listed. -/
  exported : collected.portable.bundle = collected.bundle ∧ ∀ name text,
    (name, text) ∈ collected.portable.files ↔ (name, Utf8.encode text) ∈ collected.stored ∧
      ∃ file ∈ collected.bundle.files, file.name = name

/-- The call succeeds, and leaves what is asked. -/
def CollectsWell (json : JsonCodec) (codec : ManifestCodec) (root : DataRoot) (moment : Moment)
    (note : Option (List Char)) (context : Option JsonValue) : Prop :=
  ∃ collected, collectWithContext json root moment note context = .ok collected ∧
    WellCollected json codec root context collected

/-- The number of files that are not sources. -/
def filesBefore (json : JsonCodec) (root : DataRoot) (context : Option JsonValue) : Nat :=
  (if context.isSome then 1 else 0) + (startupDrafts json root).length

structure Collectable (json : JsonCodec) (codec : ManifestCodec) (root : DataRoot) (moment : Moment)
    (note : Option (List Char)) (context : Option JsonValue) : Prop where
  /-- The note is no document of which something is hidden. -/
  note : ∀ text, note = some text → ¬ NoteHides json text
  /-- No log that is copied has a backslash or a control character in its name. -/
  names : ∀ source ∈ selectedSources root (filesBefore json root context),
    PlainName source.relative
  /-- The path of the bundle has no control character. -/
  directory : ∀ c ∈ moment.directory, isControl c = false
  /-- The bundle's directory is new. -/
  fresh : ∀ entry ∈ root.bundles, entry.name.toStr ≠ some (bundleId moment.nanos)
  ordinary : root.ordinary = true
  unowned : root.owned (bundleId moment.nanos) = false
  /-- Fewer than 32 of the bundles there come before one of this id and time. -/
  few : ((root.bundles.filterMap (bundleOf codec root.owned)).filter fun other =>
    ¬ (other.createdAtUnix < moment.seconds ∨ (other.createdAtUnix = moment.seconds ∧
      other.id ≤ bundleId moment.nanos))).length < MAX_DIAGNOSTICS_BUNDLES

theorem validateReleaseId_bundleId (h : moment.nanos < 2 ^ 128) :
    validateReleaseId (bundleId moment.nanos) = .ok () := by
  obtain ⟨hsize, hchars⟩ := number_spec moment.nanos 39 (by omega) (lt_trans h (by norm_num))
  have hlength : (bundleId moment.nanos).utf8ByteSize = 5 + (toString moment.nanos).utf8ByteSize := by
    rw [bundleId, String.utf8ByteSize_append]
    rfl
  have hall : ((bundleId moment.nanos).toList.all fun c =>
      c.isAlphanum || c = '.' || c = '_' || c = '-') = true := by
    rw [bundleId, String.toList_append, List.all_append, Bool.and_eq_true]
    refine ⟨by decide, List.all_eq_true.mpr fun c hc => ?_⟩
    have hchar := hchars c hc
    rw [Bool.or_eq_true] at hchar ⊢
    rcases hchar with h | h
    · exact Or.inl (by simp [h])
    · exact Or.inr h
  unfold validateReleaseId
  dsimp only
  refine if_neg ?_
  rw [hall]
  rintro (h | h | h | h | h)
  · rw [String.isEmpty_iff] at h
    rw [h] at hlength
    have hnone : ("" : String).utf8ByteSize = 0 := rfl
    omega
  · unfold MAX_RELEASE_ID_LEN at h
    omega
  · rw [h] at hlength
    have hone : ("." : String).utf8ByteSize = 1 := by decide
    omega
  · rw [h] at hlength
    have htwo : (".." : String).utf8ByteSize = 2 := by decide
    omega
  · cases h

theorem mem_constantNames_or_logNames {drafts : List Draft}
    (h : collectDrafts json.toJsonCodec root context = .ok drafts) {draft : Draft}
    (hd : draft ∈ drafts) :
    draft.relative ∈ constantNames ∨ draft.relative ∈ logNames root :=
  List.mem_append.mp ((collectDrafts_names h).1.subset (List.mem_map_of_mem hd))

/-- The drafts of a call, and what they show. -/
theorem exists_collectDrafts (json : SerdeJson) (root : DataRoot) (context : Option JsonValue) :
    ∃ drafts, collectDrafts json.toJsonCodec root context = .ok drafts ∧
      (∀ draft ∈ drafts, IsText draft.payload ∧ ∃ whole limit,
        Origin json.toJsonCodec root context draft.relative whole limit ∧
          draft.Shows json.toJsonCodec whole limit ∧ limit ≤ MAX_DIAGNOSTICS_FILE_BYTES) ∧
      (∀ draft ∈ drafts, draft.relative ∈ constantNames ∨
        ∃ source ∈ selectedSources root (filesBefore json.toJsonCodec root context),
          draft.relative = source.relative) ∧
      ∀ source ∈ selectedSources root (filesBefore json.toJsonCodec root context),
        ∃ draft ∈ drafts, draft.relative = source.relative := by
  have hfirst : ∃ first, contextDrafts json.toJsonCodec context = .ok first ∧
      first.length = (if context.isSome then 1 else 0) ∧
      ∀ draft ∈ first, ∃ text, context.bind json.pretty = some text ∧
        draft = contextDraft json.toJsonCodec (Utf8.encode text) := by
    rcases context with _ | context
    · exact ⟨[], rfl, rfl, fun _ h => absurd h List.not_mem_nil⟩
    · obtain ⟨text, htext⟩ := Option.isSome_iff_exists.mp (json.pretty_isSome context)
      refine ⟨[contextDraft json.toJsonCodec (Utf8.encode text)], ?_, rfl, ?_⟩
      · exact bind_eq_ok_iff.mpr ⟨text, required_eq_ok.mpr htext, rfl⟩
      · intro draft hdraft
        exact ⟨text, htext, List.mem_singleton.mp hdraft⟩
  obtain ⟨first, hfirst, hlength, hcontext⟩ := hfirst
  have hcount : (first ++ startupDrafts json.toJsonCodec root).length =
      filesBefore json.toJsonCodec root context := by
    rw [List.length_append, hlength, filesBefore]
  refine ⟨first ++ startupDrafts json.toJsonCodec root ++ (selectedSources root
    (first ++ startupDrafts json.toJsonCodec root).length).map (sourceDraft json.toJsonCodec),
    bind_eq_ok_iff.mpr ⟨first, hfirst, rfl⟩, fun draft hdraft => ?_, fun draft hdraft => ?_,
    fun source hsource => ?_⟩
  · rcases List.mem_append.mp hdraft with hdraft | hdraft
    · rcases List.mem_append.mp hdraft with hdraft | hdraft
      · obtain ⟨text, htext, rfl⟩ := hcontext draft hdraft
        refine ⟨isText_contextDraft _, _, _, ?_, contextDraft_shows _, le_rfl⟩
        rw [contextDraft_relative]
        exact .context text htext
      · obtain ⟨⟨relative, limit⟩, hobservation, hstartup⟩ := List.mem_filterMap.mp hdraft
        have hbound : ∀ observation ∈ STARTUP, 100 ≤ observation.2 ∧
            observation.2 ≤ MAX_DIAGNOSTICS_FILE_BYTES := by decide
        obtain ⟨hlow, hhigh⟩ := hbound _ hobservation
        obtain ⟨hrelative, hshows⟩ := startupDraft_shows hlow hstartup
        refine ⟨isText_startupDraft hstartup, _, _, ?_, hshows, hhigh⟩
        rw [hrelative]
        exact .startup relative limit hobservation
    · obtain ⟨source, hsource, rfl⟩ := List.mem_map.mp hdraft
      have hall : source ∈ allSources root := List.mem_of_mem_take hsource
      obtain ⟨hlow, hhigh⟩ := allSources_limit hall
      obtain ⟨hrelative, hshows⟩ :
          (sourceDraft json.toJsonCodec source).relative = source.relative ∧ _ :=
        sourceDraft_shows hlow
      refine ⟨isText_sourceDraft source, _, _, ?_, hshows, hhigh⟩
      rw [hrelative]
      exact .source source hall
  · rcases List.mem_append.mp hdraft with hdraft | hdraft
    · left
      have hnames := (contextDrafts_names hfirst).append (startupDrafts_names json.toJsonCodec root)
      rw [← List.map_append] at hnames
      have hmem := hnames.subset (List.mem_map_of_mem hdraft)
      unfold constantNames
      rw [List.mem_append, List.mem_append]
      exact Or.inl (Or.inl hmem)
    · right
      obtain ⟨source, hsource, rfl⟩ := List.mem_map.mp hdraft
      refine ⟨source, hcount ▸ hsource, ?_⟩
      exact (sourceDraft_shows (allSources_limit (List.mem_of_mem_take hsource)).1).1
  · rw [← hcount] at hsource
    refine ⟨sourceDraft json.toJsonCodec source,
      List.mem_append_right _ (List.mem_map_of_mem hsource), ?_⟩
    exact (sourceDraft_shows (allSources_limit (List.mem_of_mem_take hsource)).1).1

def madeBundle (json : JsonCodec) (moment : Moment) (note : Option (List Char))
    (drafts : List Draft) : DiagnosticsBundle where
  id := bundleId moment.nanos
  createdAtUnix := moment.seconds
  directory := moment.directory
  note := note.map (redactNote json)
  files := (drafts.map Draft.file).insertionSort fun left right => left.name ≤ right.name

variable (moment) in
/-- **What a call makes**: it fails where the directory of the bundle is there, and where the bundle
does not pass its own checks. -/
theorem collectWithContext_spec {drafts : List Draft}
    (hnote : validateOptionalDiagnosticsText note "diagnostics note" = .ok ())
    (hdrafts : collectDrafts json.toJsonCodec root context = .ok drafts) : ∃ portable,
      ((drafts.map fun d => slashed d.relative).Nodup → portable =
        drafts.map fun d => (slashed d.relative, Utf8.decodeLossy d.payload)) ∧
      ∀ collected, collectWithContext json.toJsonCodec root moment note context = .ok collected ↔
        (∀ entry ∈ root.bundles, entry.name.toStr ≠ some (bundleId moment.nanos)) ∧
        validateDiagnosticsBundle (madeBundle json.toJsonCodec moment note drafts) = .ok () ∧
        collected = ⟨madeBundle json.toJsonCodec moment note drafts,
          drafts.map (fun d => (d.relative, d.payload)),
          ⟨madeBundle json.toJsonCodec moment note drafts, portable⟩⟩ := by
  have hnodup : (drafts.map Draft.relative).Nodup :=
    (collectDrafts_names hdrafts).1.nodup (names_nodup root)
  obtain ⟨written, hwritten, hstored, hfiles, hportable⟩ :=
    @foldlM_writeDraft drafts ⟨[], [], []⟩ (by simpa using hnodup)
  refine ⟨written.portable, fun h => by simpa using hportable (by simpa using h),
    fun collected => ?_⟩
  have hexists : ¬ (root.bundles.any fun entry =>
      entry.name.toStr = some (bundleId moment.nanos)) = true ↔
      ∀ entry ∈ root.bundles, entry.name.toStr ≠ some (bundleId moment.nanos) := by
    simp
  unfold collectWithContext
  rw [hnote, bind_eq_ok_iff, ← hexists]
  constructor
  · rintro ⟨⟨⟩, -, h⟩
    obtain ⟨⟨⟩, -, h⟩ := bind_eq_ok h
    rw [guard_eq_ok, hdrafts] at h
    obtain ⟨hfresh, h⟩ := h
    refine ⟨hfresh, ?_⟩
    obtain ⟨_, hdrafts', h⟩ := bind_eq_ok h
    cases hdrafts'
    obtain ⟨_, hrun, h⟩ := bind_eq_ok h
    cases hwritten.symm.trans hrun
    obtain ⟨⟨⟩, hvalid, h⟩ := bind_eq_ok h
    cases h
    rw [hstored, hfiles] at *
    exact ⟨hvalid, rfl⟩
  · rintro ⟨hfresh, hvalid, rfl⟩
    refine ⟨(), rfl, bind_eq_ok_iff.mpr ⟨(), validateReleaseId_bundleId moment.nanos_lt, ?_⟩⟩
    rw [guard_eq_ok, hdrafts]
    refine ⟨hfresh, bind_eq_ok_iff.mpr ⟨drafts, rfl, bind_eq_ok_iff.mpr ⟨written, hwritten, ?_⟩⟩⟩
    rw [hstored, hfiles]
    exact bind_eq_ok_iff.mpr ⟨(), hvalid, rfl⟩

section Made

variable {drafts : List Draft}

theorem isControl_of_slashed {name : List Char} (h : ∀ c ∈ slashed name, isControl c = false) :
    ∀ c ∈ name, isControl c = false := by
  intro c hc
  by_cases hback : c = BACKSLASH
  · subst hback
    decide
  · refine h c (List.mem_map.mpr ⟨c, hc, ?_⟩)
    rw [if_neg hback]

theorem plainName_constant {name : List Char} (h : name ∈ constantNames) : PlainName name := by
  intro c hc
  obtain ⟨hsafe, -, -, hplain⟩ := constantNames_plain name h
  have hback := List.all_eq_true.mp hplain c hc
  simp only [Bool.and_eq_true, decide_eq_true_eq] at hback
  refine ⟨hback.1, ?_⟩
  unfold unsafeName at hsafe
  simp only [Bool.or_eq_false_iff, List.any_eq_false] at hsafe
  simpa using hsafe.2 c hc

theorem unsafeName_log {name : List Char} (h : name ∈ logNames root) (hplain : PlainName name) :
    unsafeName name = false := by
  obtain ⟨own, rfl, hne, hdot, hdots, hslash, -⟩ := exists_of_mem_logNames h
  have hsegments : (LOGS ++ own).splitOnP (fun c => decide (c = '/')) = ["logs".toList, own] := by
    have hlogs : LOGS ++ own = "logs".toList ++ '/' :: own := rfl
    rw [hlogs, List.splitOnP_append_cons_of_forall_mem (by simp) '/' (by simp),
      List.splitOnP_eq_singleton fun c hc => decide_eq_false (by rintro rfl; exact hslash hc)]
  unfold unsafeName
  rw [hsegments]
  have hcontrol : (LOGS ++ own).any isControl = false := by
    rw [List.any_eq_false]
    intro c hc
    simp [(hplain c hc).2]
  rw [hcontrol]
  have hlogs : unsafeSegment "logs".toList = false := by decide
  have hown : unsafeSegment own = false := by
    unfold unsafeSegment
    rw [decide_eq_false hne, decide_eq_false hdot, decide_eq_false hdots]
    rfl
  rw [List.any_cons, List.any_cons, hlogs, hown]
  rfl

theorem mem_madeBundle_files {json : JsonCodec} {file : DiagnosticsFile} :
    file ∈ (madeBundle json moment note drafts).files ↔ ∃ draft ∈ drafts, draft.file = file := by
  rw [madeBundle, (List.perm_insertionSort _ _).mem_iff, List.mem_map]

/-- **A bundle passes its checks** where the path, the note and the names do. -/
theorem validate_madeBundle (hdrafts : collectDrafts json.toJsonCodec root context = .ok drafts)
    (hdirectory : ∀ c ∈ moment.directory, isControl c = false)
    (hnote : validateOptionalDiagnosticsText (note.map (redactNote json.toJsonCodec))
      "diagnostics note" = .ok ())
    (hplain : ∀ draft ∈ drafts, PlainName draft.relative) :
    validateDiagnosticsBundle (madeBundle json.toJsonCodec moment note drafts) = .ok () := by
  obtain ⟨hnames, hcount⟩ := collectDrafts_names hdrafts
  have hperm := (drafts.map Draft.file).perm_insertionSort fun left right => left.name ≤ right.name
  have hfileNames : (drafts.map Draft.file).map DiagnosticsFile.name =
      drafts.map Draft.relative := by
    rw [List.map_map]
    exact List.map_congr_left fun draft hd => slashed_of_plain (hplain draft hd)
  refine validateDiagnosticsBundle_eq_ok.mpr ⟨validateReleaseId_bundleId moment.nanos_lt,
    ⟨moment.absolute, hdirectory⟩, hnote, ?_, validateFiles_eq_ok.mpr ⟨?_, ?_, ?_⟩⟩
  · rw [madeBundle, hperm.length_eq, List.length_map]
    exact hcount
  · intro file hfile
    obtain ⟨draft, hd, rfl⟩ := mem_madeBundle_files.mp hfile
    show unsafeName (slashed draft.relative) = false
    rw [slashed_of_plain (hplain draft hd)]
    rcases mem_constantNames_or_logNames hdrafts hd with h | h
    · exact (constantNames_plain _ h).1
    · exact unsafeName_log h (hplain draft hd)
  · rintro name ⟨⟩
  · have hsorted := (drafts.map Draft.file).pairwise_insertionSort
      fun left right : DiagnosticsFile => left.name ≤ right.name
    have hnodup : ((drafts.map Draft.file).insertionSort
        fun left right : DiagnosticsFile => left.name ≤ right.name).Pairwise
          fun left right => left.name ≠ right.name := by
      refine List.pairwise_map.mp ?_
      refine (hperm.map DiagnosticsFile.name).nodup_iff.mpr ?_
      rw [hfileNames]
      exact hnames.nodup (names_nodup root)
    exact hsorted.imp₂ (fun _ _ hle hne => lt_of_le_of_ne hle hne) hnodup

theorem byteLength_toList (text : String) : Utf8.byteLength text.toList = text.utf8ByteSize := by
  have hchars : ∀ chars : List Char,
      (String.ofList chars).utf8ByteSize = Utf8.byteLength chars := by
    intro chars
    induction chars with
    | nil => rfl
    | cons c chars ih =>
      rw [String.ofList_cons, String.utf8ByteSize_append, String.utf8ByteSize_singleton, ih,
        Utf8.byteLength_cons]
  rw [← hchars, String.ofList_toList]

theorem byteLength_name {name : List Char} (h : name ∈ constantNames ∨ name ∈ logNames root) :
    Utf8.byteLength name ≤ 260 := by
  rcases h with h | h
  · exact (constantNames_plain name h).2.1
  · obtain ⟨own, rfl, -, -, -, -, hshort⟩ := exists_of_mem_logNames h
    have hlogs : Utf8.byteLength LOGS = 5 := by decide
    rw [Utf8.byteLength_append]
    omega

variable (codec) in
theorem manifest_fits (hdrafts : collectDrafts json.toJsonCodec root context = .ok drafts)
    (hshort : ∀ draft ∈ drafts, draft.payload.length ≤ MAX_DIAGNOSTICS_FILE_BYTES)
    (hplain : ∀ draft ∈ drafts, PlainName draft.relative)
    (hvalid : validateDiagnosticsBundle (madeBundle json.toJsonCodec moment note drafts) = .ok ()) :
    (DiagnosticsDocument.mk DIAGNOSTICS_SCHEMA_VERSION
        (madeBundle json.toJsonCodec moment note drafts)).Fits ∧
      (codec.encode ⟨DIAGNOSTICS_SCHEMA_VERSION,
        madeBundle json.toJsonCodec moment note drafts⟩).length ≤ 4 * 1024 * 1024 := by
  have hfits : (DiagnosticsDocument.mk DIAGNOSTICS_SCHEMA_VERSION
      (madeBundle json.toJsonCodec moment note drafts)).Fits := by
    have hversion : DIAGNOSTICS_SCHEMA_VERSION < 2 ^ 32 := by decide
    refine ⟨hversion, moment.seconds_lt, fun file hfile => ?_⟩
    obtain ⟨draft, hd, rfl⟩ := mem_madeBundle_files.mp hfile
    exact lt_of_le_of_lt (hshort draft hd) (by decide)
  refine ⟨hfits, le_trans (codec.encode_length _ hfits) ?_⟩
  generalize hmade : madeBundle json.toJsonCodec moment note drafts = bundle at hvalid
  obtain ⟨hid, -, hnote, hcount, -⟩ := validateDiagnosticsBundle_eq_ok.mp hvalid
  have hidBytes : Utf8.byteLength bundle.id.toList ≤ 128 := by
    rw [byteLength_toList]
    unfold validateReleaseId at hid
    dsimp only at hid
    split at hid
    · cases hid
    · next h =>
      exact not_lt.mp (not_or.mp (not_or.mp h).2).1
  have hdirectory : Utf8.byteLength bundle.directory ≤ 3 * 4096 := by
    rw [← hmade]
    exact moment.short
  have hnoteBytes : (bundle.note.map Utf8.byteLength).getD 0 ≤ 4096 := by
    rcases htext : bundle.note with _ | text
    · exact Nat.zero_le _
    · rw [htext] at hnote
      exact (validateOptionalDiagnosticsText_eq_ok.mp hnote text rfl).1
  have hnames : (bundle.files.map fun file => Utf8.byteLength file.name).sum ≤
      bundle.files.length * 260 := by
    have hle := List.sum_le_card_nsmul (bundle.files.map fun file => Utf8.byteLength file.name) 260 ?_
    · simpa using hle
    intro length hlength
    obtain ⟨file, hfile, rfl⟩ := List.mem_map.mp hlength
    rw [← hmade] at hfile
    obtain ⟨draft, hd, rfl⟩ := mem_madeBundle_files.mp hfile
    show Utf8.byteLength (slashed draft.relative) ≤ 260
    rw [slashed_of_plain (hplain draft hd)]
    exact byteLength_name (mem_constantNames_or_logNames hdrafts hd)
  unfold MAX_DIAGNOSTICS_FILES at hcount
  unfold DiagnosticsBundle.textLength
  dsimp only
  omega

theorem listed_madeBundle (hdrafts : collectDrafts json.toJsonCodec root context = .ok drafts)
    (hshort : ∀ draft ∈ drafts, draft.payload.length ≤ MAX_DIAGNOSTICS_FILE_BYTES)
    (hplain : ∀ draft ∈ drafts, PlainName draft.relative)
    (hvalid : validateDiagnosticsBundle (madeBundle json.toJsonCodec moment note drafts) = .ok ())
    (hfresh : ∀ entry ∈ root.bundles, entry.name.toStr ≠ some (bundleId moment.nanos))
    (hcollected : collected.bundle = madeBundle json.toJsonCodec moment note drafts) :
    (∀ listing, listing.Perm (collected.entry codec :: root.bundles) → ∃ bundles warnings,
      listWithWarnings codec root.owned root.ordinary listing = .ok (bundles, warnings) ∧
        collected.bundle ∈ bundles ∧ collected.bundle.id ∉ warnings) ↔
      root.ordinary = true ∧ root.owned (bundleId moment.nanos) = false ∧
        ((root.bundles.filterMap (bundleOf codec root.owned)).filter fun other =>
          ¬ (other.createdAtUnix < moment.seconds ∨ (other.createdAtUnix = moment.seconds ∧
            other.id ≤ bundleId moment.nanos))).length < MAX_DIAGNOSTICS_BUNDLES := by
  have hid : collected.bundle.id = bundleId moment.nanos := by rw [hcollected, madeBundle]
  have hvalid' : validateDiagnosticsBundle collected.bundle = .ok () := by rwa [hcollected]
  obtain ⟨hfits, hsize⟩ := manifest_fits codec hdrafts hshort hplain hvalid
  rw [← hcollected] at hfits hsize
  have hfresh' : ∀ e ∈ root.bundles, e.name.toStr ≠ some collected.bundle.id := by rwa [hid]
  have hiff := @listed_iff codec root.owned root.bundles root.ordinary (collected.entry codec)
    collected.bundle hvalid' rfl rfl rfl hfits hsize root.bundles_nodup hfresh'
  rw [hiff, hid, hcollected]
  rfl

theorem plain_of_selected {json : SerdeJson} {drafts : List Draft}
    (hkinds : ∀ draft ∈ drafts, draft.relative ∈ constantNames ∨
      ∃ source ∈ selectedSources root (filesBefore json.toJsonCodec root context),
        draft.relative = source.relative)
    (hselected : ∀ source ∈ selectedSources root (filesBefore json.toJsonCodec root context),
      PlainName source.relative) : ∀ draft ∈ drafts, PlainName draft.relative := by
  intro draft hd
  rcases hkinds draft hd with h | ⟨source, hsource, h⟩
  · exact plainName_constant h
  · rw [h]
    exact hselected source hsource

/-- With names that are shown, the files of the bundle are those that are stored and exported. -/
theorem wellCollected_of_plain {drafts : List Draft}
    {portable : List (List Char × List Char)}
    (hdrafts : collectDrafts json.toJsonCodec root context = .ok drafts)
    (hshows : ∀ draft ∈ drafts, IsText draft.payload ∧ ∃ whole limit,
      Origin json.toJsonCodec root context draft.relative whole limit ∧
        draft.Shows json.toJsonCodec whole limit ∧ limit ≤ MAX_DIAGNOSTICS_FILE_BYTES)
    (hplain : ∀ draft ∈ drafts, PlainName draft.relative)
    (hvalid : validateDiagnosticsBundle (madeBundle json.toJsonCodec moment note drafts) = .ok ())
    (hportable : (drafts.map fun d => slashed d.relative).Nodup → portable =
      drafts.map fun d => (slashed d.relative, Utf8.decodeLossy d.payload))
    (hcollected : collected = ⟨madeBundle json.toJsonCodec moment note drafts,
      drafts.map (fun d => (d.relative, d.payload)),
      ⟨madeBundle json.toJsonCodec moment note drafts, portable⟩⟩)
    (hlisted : ∀ listing, listing.Perm (collected.entry codec :: root.bundles) →
      ∃ bundles warnings,
        listWithWarnings codec root.owned root.ordinary listing = .ok (bundles, warnings) ∧
          collected.bundle ∈ bundles ∧ collected.bundle.id ∉ warnings) :
    WellCollected json.toJsonCodec codec root context collected := by
  have hname : ∀ draft ∈ drafts, slashed draft.relative = draft.relative :=
    fun draft hd => slashed_of_plain (hplain draft hd)
  have hslashed : drafts.map (fun d => slashed d.relative) = drafts.map Draft.relative :=
    List.map_congr_left hname
  have hfiles := hportable (by
    rw [hslashed]
    exact (collectDrafts_names hdrafts).1.nodup (names_nodup root))
  have hcount := (validateDiagnosticsBundle_eq_ok.mp hvalid).2.2.2.1
  subst hcollected
  refine ⟨hvalid, hlisted, fun file hfile => ?_, hcount, ?_, rfl, fun name text => ?_⟩
  · obtain ⟨draft, hd, rfl⟩ := mem_madeBundle_files.mp hfile
    obtain ⟨-, whole, limit, horigin, hshow, -⟩ := hshows draft hd
    refine ⟨draft.payload, whole, limit, ?_, rfl, ?_, hshow⟩
    · exact List.mem_map.mpr ⟨draft, hd, by rw [Draft.file, hname draft hd]⟩
    · rw [Draft.file, hname draft hd]
      exact horigin
  · have hsize := List.sum_le_card_nsmul ((madeBundle json.toJsonCodec moment note drafts).files.map
      DiagnosticsFile.bytes) MAX_DIAGNOSTICS_FILE_BYTES fun bytes hbytes => by
        obtain ⟨file, hfile, rfl⟩ := List.mem_map.mp hbytes
        obtain ⟨draft, hd, rfl⟩ := mem_madeBundle_files.mp hfile
        obtain ⟨-, whole, limit, -, hshow, hlimit⟩ := hshows draft hd
        exact hshow.bound.trans hlimit
    rw [List.length_map, smul_eq_mul] at hsize
    exact hsize.trans (Nat.mul_le_mul_right _ hcount)
  · dsimp only
    rw [hfiles, List.mem_map, List.mem_map]
    constructor
    · rintro ⟨draft, hd, heq⟩
      obtain ⟨hslash, htext⟩ := Prod.mk.inj heq
      obtain ⟨shown, hshown⟩ := (hshows draft hd).1
      rw [hshown, Utf8.decodeLossy_encode] at htext
      refine ⟨⟨draft, hd, ?_⟩, draft.file, mem_madeBundle_files.mpr ⟨draft, hd, rfl⟩, hslash⟩
      rw [← hslash, hname draft hd, hshown, htext]
    · rintro ⟨⟨draft, hd, heq⟩, -⟩
      obtain ⟨hrelative, hpayload⟩ := Prod.mk.inj heq
      refine ⟨draft, hd, ?_⟩
      rw [hname draft hd, hrelative, hpayload, Utf8.decodeLossy_encode]

theorem plainName_of_stored {drafts : List Draft}
    (hdrafts : collectDrafts json.toJsonCodec root context = .ok drafts) {draft : Draft}
    (hd : draft ∈ drafts) (hsafe : unsafeName (slashed draft.relative) = false)
    (hstored : ∃ other ∈ drafts, other.relative = slashed draft.relative) :
    PlainName draft.relative := by
  have hshown : ∀ c ∈ slashed draft.relative, isControl c = false := by
    unfold unsafeName at hsafe
    simp only [Bool.or_eq_false_iff, List.any_eq_false] at hsafe
    exact fun c hc => by simpa using hsafe.2 c hc
  rcases mem_constantNames_or_logNames hdrafts hd with h | h
  · exact plainName_constant h
  intro c hc
  refine ⟨?_, isControl_of_slashed hshown c hc⟩
  rintro rfl
  obtain ⟨other, hother, hrelative⟩ := hstored
  obtain ⟨own, hown, -⟩ := exists_of_mem_logNames h
  have hlogs : slashed (LOGS ++ own) = LOGS ++ slashed own := by
    have hconstant : slashed LOGS = LOGS := by decide
    rw [slashed, List.map_append]
    exact congrArg (· ++ slashed own) hconstant
  have hmem : BACKSLASH ∈ own := by
    rw [hown] at hc
    have hnone : BACKSLASH ∉ LOGS := by decide
    exact (List.mem_append.mp hc).resolve_left hnone
  have hslash : '/' ∈ slashed own := List.mem_map.mpr ⟨BACKSLASH, hmem, if_pos rfl⟩
  rw [hown, hlogs] at hrelative
  rcases mem_constantNames_or_logNames hdrafts hother with hconstant | hlog
  · have hprefix := (constantNames_plain _ hconstant).2.2.1
    rw [hrelative, List.isPrefixOf_iff_prefix.mpr (List.prefix_append LOGS _)] at hprefix
    cases hprefix
  · obtain ⟨own', hown', -, -, -, hnot, -⟩ := exists_of_mem_logNames hlog
    rw [hown'] at hrelative
    rw [List.append_cancel_left hrelative] at hnot
    exact hnot hslash

end Made

theorem not_collectsWell_of_hides (json : SerdeJson) (codec : ManifestCodec) (root : DataRoot)
    (moment : Moment) {text : List Char} (context : Option JsonValue)
    (hnote : validateOptionalDiagnosticsText (some text) "diagnostics note" = .ok ())
    (hhides : NoteHides json.toJsonCodec text) :
    ¬ CollectsWell json.toJsonCodec codec root moment (some text) context := by
  obtain ⟨drafts, hdrafts, -⟩ := exists_collectDrafts json root context
  obtain ⟨portable, -, hspec⟩ := collectWithContext_spec moment hnote hdrafts
  rintro ⟨collected, hrun, -⟩
  obtain ⟨-, hvalid, -⟩ := (hspec collected).mp hrun
  exact redactNote_refused hhides (validateDiagnosticsBundle_eq_ok.mp hvalid).2.2.1

/-- **When collecting diagnostics goes well**, for an accepted note: nothing of the note is hidden as
of a document, the logs that are copied have names without backslashes and control characters, and
the bundle is new and among those that are listed. -/
theorem collects_well_iff (json : SerdeJson) (codec : ManifestCodec) (root : DataRoot)
    (moment : Moment) (note : Option (List Char)) (context : Option JsonValue)
    (hnote : validateOptionalDiagnosticsText note "diagnostics note" = .ok ()) :
    CollectsWell json.toJsonCodec codec root moment note context ↔
      Collectable json.toJsonCodec codec root moment note context := by
  obtain ⟨drafts, hdrafts, hshows, hkinds, hselected⟩ := exists_collectDrafts json root context
  obtain ⟨portable, hportable, hspec⟩ := collectWithContext_spec moment hnote hdrafts
  have hshort : ∀ draft ∈ drafts, draft.payload.length ≤ MAX_DIAGNOSTICS_FILE_BYTES := by
    intro draft hd
    obtain ⟨-, _, _, -, hshow, hlimit⟩ := hshows draft hd
    exact hshow.bound.trans hlimit
  constructor
  · rintro ⟨collected, hrun, hwell⟩
    obtain ⟨hfresh, hvalid, rfl⟩ := (hspec collected).mp hrun
    obtain ⟨-, ⟨-, hdirectory⟩, -, -, hsafe⟩ := validateDiagnosticsBundle_eq_ok.mp hvalid
    have hplain : ∀ draft ∈ drafts, PlainName draft.relative := by
      intro draft hd
      have hfile : draft.file ∈ (madeBundle json.toJsonCodec moment note drafts).files :=
        mem_madeBundle_files.mpr ⟨draft, hd, rfl⟩
      obtain ⟨payload, whole, limit, hstored, -⟩ := hwell.files _ hfile
      obtain ⟨other, hother, heq⟩ := List.mem_map.mp hstored
      exact plainName_of_stored hdrafts hd ((validateFiles_eq_ok.mp hsafe).1 _ hfile)
        ⟨other, hother, (Prod.mk.inj heq).1⟩
    obtain ⟨hordinary, hunowned, hfew⟩ :=
      (listed_madeBundle hdrafts hshort hplain hvalid hfresh rfl).mp hwell.listed
    refine ⟨fun text htext hhides => ?_, fun source hsource => ?_, hdirectory, hfresh, hordinary,
      hunowned, hfew⟩
    · subst htext
      exact not_collectsWell_of_hides json codec root moment context hnote hhides
        ⟨_, (hspec _).mpr ⟨hfresh, hvalid, rfl⟩, hwell⟩
    · obtain ⟨draft, hd, hrelative⟩ := hselected source hsource
      rw [← hrelative]
      exact hplain draft hd
  · intro h
    have hplain := plain_of_selected hkinds h.names
    have hredacted : validateOptionalDiagnosticsText (note.map (redactNote json.toJsonCodec))
        "diagnostics note" = .ok () := by
      rcases note with _ | text
      · rfl
      · exact redactNote_accepted hnote (h.note text rfl)
    have hvalid := validate_madeBundle hdrafts h.directory hredacted hplain
    refine ⟨_, (hspec _).mpr ⟨h.fresh, hvalid, rfl⟩, ?_⟩
    exact wellCollected_of_plain hdrafts hshows hplain hvalid hportable rfl
      ((listed_madeBundle hdrafts hshort hplain hvalid h.fresh rfl).mpr ⟨h.ordinary, h.unowned, h.few⟩)

/-- A printer of documents with one text. -/
def onePretty : JsonValue → List Char
  | .mapping [(key, .scalar (.text value))] =>
      "\x7b\n  \"".toList ++ key.toList ++ "\": \"".toList ++ value.toList ++ "\"\n\x7d".toList
  | value => if isFilled value = true then "[\n]".toList else "[]".toList

def tokenNote : List Char := "\x7b\"token\":\"x\"\x7d".toList

def tokenJson : SerdeJson where
  parse text := if text = tokenNote then some (.mapping [("token", .scalar (.text "x"))]) else none
  pretty value := some (onePretty value)
  pretty_isSome _ := rfl
  pretty_lines value text hfilled hpretty := by
    obtain rfl := Option.some.inj hpretty
    unfold onePretty
    split
    · next key value =>
      exact ⟨"\x7b\n  \"".toList ++ key.toList ++ "\": \"".toList ++ value.toList ++ "\"\n".toList,
        Char.ofNat 0x7d, by simp, by simp, by decide⟩
    · rw [if_pos hfilled]
      exact ⟨"[\n".toList, ']', rfl, by simp, by decide⟩

/-- A data root with nothing to collect. -/
def bareRoot : DataRoot where
  node _ := .missing
  startupParentsRegular := true
  releaseIdentity := .missing
  logs := []
  session := none
  bundles := []
  ordinary := true
  owned _ := false
  logs_nodup := List.nodup_nil
  logs_name _ h := absurd h List.not_mem_nil
  bundles_nodup := List.nodup_nil

def someMoment : Moment where
  nanos := 5
  seconds := 0
  directory := "/data/diagnostics/diag-5".toList
  nanos_lt := by norm_num
  absolute := by simp
  short := by decide +kernel
  seconds_lt := by norm_num

/-- **An accepted note with a token defeats the collection** of an empty data root. -/
theorem token_note_not_collected :
    validateOptionalDiagnosticsText (some tokenNote) "diagnostics note" = .ok () ∧
      ¬ CollectsWell tokenJson.toJsonCodec manifestCodec bareRoot someMoment (some tokenNote) none := by
  have hnote : validateOptionalDiagnosticsText (some tokenNote) "diagnostics note" = .ok () := by
    decide +kernel
  refine ⟨hnote, not_collectsWell_of_hides tokenJson manifestCodec bareRoot someMoment none hnote ?_⟩
  refine ⟨.mapping [("token", .scalar (.text "x"))], rfl, ?_⟩
  have hhidden : hidesMember "token" = true := by decide +kernel
  rw [redactDiagnosticJson, redactDiagnosticMembers, if_pos hhidden]

/-- Without a note the empty data root is collected. -/
theorem collects_well_bare :
    CollectsWell tokenJson.toJsonCodec manifestCodec bareRoot someMoment none none :=
  (collects_well_iff tokenJson manifestCodec bareRoot someMoment none none rfl).mpr
    { note := fun _ h => by cases h
      names := fun source hsource => by
        have hnone : selectedSources bareRoot (filesBefore tokenJson.toJsonCodec bareRoot none) = [] := by
          decide +kernel
        rw [hnone] at hsource
        cases hsource
      directory := fun c hc => by
        have hall : someMoment.directory.all (fun c => !isControl c) = true := by decide +kernel
        simpa using List.all_eq_true.mp hall c hc
      fresh := fun _ h => absurd h List.not_mem_nil
      ordinary := rfl
      unowned := rfl
      few := by decide }

end Collects

end DshNexus.Diagnostics
