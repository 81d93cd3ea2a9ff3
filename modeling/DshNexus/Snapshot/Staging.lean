import DshNexus.Snapshot.Ring

/-!
# What a capture stages, and what the loader asks

A capture bounds and shapes what it writes, and `load_valid_snapshot` bounds and shapes what
it reads.  This file runs the second over the output of the first.

* `captureAllowedFile_eq_ok`: what `capture_allowed_file` makes of a policy file, in three
  cases.
* `captureFiles_eq_ok`: the fold of a capture over the policy.
* `validateFileRecord_captured`: the loader accepts the record of a captured file, if and only
  if no path in it contains a control character.
* `loadValidSnapshot_staged_iff`: the loader accepts what a capture stages, if and only if in
  addition the encoded manifest is within the bound.

Redaction checks the number and the length of the paths, and the loader the same two and the
characters; so the last check is the one that can fail.
-/

namespace DshNexus.Snapshot

open Document (Tree)

/-! ## Redacted paths -/

section Paths

variable {κ τ : Type} (syn : DocumentSyntax κ)

/-- The paths that redaction lists are within the bounds of the loader. -/
def BoundedPaths (redacted : List String) : Prop :=
  redacted.length ≤ MAX_REDACTED_PATHS ∧
    ∀ pointer ∈ redacted, pointer.utf8ByteSize ≤ MAX_REDACTED_PATH_BYTES

theorem boundedPaths_pushRedacted {path redacted redacted' : List String}
    (h : pushRedacted path redacted = .ok redacted') (hr : BoundedPaths redacted) :
    BoundedPaths redacted' := by
  unfold pushRedacted at h
  split at h
  · exact nomatch h
  · next hcount =>
    split at h
    · exact nomatch h
    · next hsize =>
      obtain rfl := Except.ok.inj h
      refine ⟨by rw [List.length_append, List.length_singleton]; omega, fun pointer hp => ?_⟩
      rcases List.mem_append.mp hp with hp | hp
      · exact hr.2 pointer hp
      · rw [List.mem_singleton.mp hp]
        omega

mutual

theorem boundedPaths_redact : ∀ {t t' : Tree κ τ} {path redacted redacted' : List String},
    redact syn t path redacted = .ok (t', redacted') → BoundedPaths redacted →
      BoundedPaths redacted'
  | .scalar s, t', path, redacted, redacted', h, hr => by
    obtain ⟨-, rfl⟩ := Prod.mk.inj (Except.ok.inj h)
    exact hr
  | .sequence items, t', path, redacted, redacted', h, hr => by
    obtain ⟨⟨items', r⟩, hitems, hpure⟩ := bind_eq_ok h
    obtain ⟨-, rfl⟩ := Prod.mk.inj (Except.ok.inj hpure)
    exact boundedPaths_redactItems hitems hr
  | .mapping members, t', path, redacted, redacted', h, hr => by
    obtain ⟨⟨members', r⟩, hmembers, hpure⟩ := bind_eq_ok h
    obtain ⟨-, rfl⟩ := Prod.mk.inj (Except.ok.inj hpure)
    exact boundedPaths_redactMembers hmembers hr
  | .tagged t v, t', path, redacted, redacted', h, hr => by
    obtain ⟨⟨v', r⟩, hv, hpure⟩ := bind_eq_ok h
    obtain ⟨-, rfl⟩ := Prod.mk.inj (Except.ok.inj hpure)
    exact boundedPaths_redact hv hr

theorem boundedPaths_redactItems : ∀ {items items' : List (Tree κ τ)} {index : Nat}
    {path redacted redacted' : List String},
    redactItems syn items index path redacted = .ok (items', redacted') →
      BoundedPaths redacted → BoundedPaths redacted'
  | [], items', index, path, redacted, redacted', h, hr => by
    obtain ⟨-, rfl⟩ := Prod.mk.inj (Except.ok.inj h)
    exact hr
  | item :: items, items', index, path, redacted, redacted', h, hr => by
    obtain ⟨⟨item', r⟩, hitem, h⟩ := bind_eq_ok h
    obtain ⟨⟨rest, r'⟩, hrest, hpure⟩ := bind_eq_ok h
    obtain ⟨-, rfl⟩ := Prod.mk.inj (Except.ok.inj hpure)
    exact boundedPaths_redactItems hrest (boundedPaths_redact hitem hr)

theorem boundedPaths_redactMembers : ∀ {members members' : List (κ × Tree κ τ)}
    {path redacted redacted' : List String},
    redactMembers syn members path redacted = .ok (members', redacted') →
      BoundedPaths redacted → BoundedPaths redacted'
  | [], members', path, redacted, redacted', h, hr => by
    obtain ⟨-, rfl⟩ := Prod.mk.inj (Except.ok.inj h)
    exact hr
  | (key, child) :: members, members', path, redacted, redacted', h, hr => by
    rw [redactMembers] at h
    split at h
    · exact nomatch h
    · split at h
      · obtain ⟨r, hpush, h⟩ := bind_eq_ok h
        exact boundedPaths_redactMembers h (boundedPaths_pushRedacted hpush hr)
      · obtain ⟨⟨child', r⟩, hchild, h⟩ := bind_eq_ok h
        obtain ⟨⟨rest, r'⟩, hrest, hpure⟩ := bind_eq_ok h
        obtain ⟨-, rfl⟩ := Prod.mk.inj (Except.ok.inj hpure)
        exact boundedPaths_redactMembers hrest (boundedPaths_redact hchild hr)

end

/-- No key on the way to a secret contains a control character. -/
def PlainKeys (value : Tree κ τ) : Prop :=
  ∀ path ∈ secretPaths syn value, ∀ segment ∈ path, ∀ c ∈ segment.toList, isControl c = false

mutual

theorem ne_nil_of_mem_secretPaths : ∀ {t : Tree κ τ} {path : List String},
    path ∈ secretPaths syn t → path ≠ []
  | .scalar _, _, h => absurd h List.not_mem_nil
  | .sequence _, _, h => ne_nil_of_mem_secretPathsItems h
  | .mapping _, _, h => ne_nil_of_mem_secretPathsMembers h
  | .tagged _ v, _, h => ne_nil_of_mem_secretPaths (t := v) h

theorem ne_nil_of_mem_secretPathsItems : ∀ {items : List (Tree κ τ)} {index : Nat}
    {path : List String}, path ∈ secretPathsItems syn items index → path ≠ []
  | [], index, path, h => absurd h List.not_mem_nil
  | item :: items, index, path, h => by
    rcases List.mem_append.mp h with h | h
    · obtain ⟨rest, -, rfl⟩ := List.mem_map.mp h
      exact List.cons_ne_nil _ _
    · exact ne_nil_of_mem_secretPathsItems h

theorem ne_nil_of_mem_secretPathsMembers : ∀ {members : List (κ × Tree κ τ)}
    {path : List String}, path ∈ secretPathsMembers syn members → path ≠ []
  | [], path, h => absurd h List.not_mem_nil
  | (key, child) :: members, path, h => by
    rw [secretPathsMembers, List.mem_append] at h
    rcases h with h | h
    · split at h
      · exact absurd h List.not_mem_nil
      · split at h
        · rw [List.mem_singleton.mp h]
          exact List.cons_ne_nil _ _
        · obtain ⟨rest, -, rfl⟩ := List.mem_map.mp h
          exact List.cons_ne_nil _ _
    · exact ne_nil_of_mem_secretPathsMembers h

end

end Paths

theorem any_isControl_escapeSegment (segment : String) :
    (escapeSegment segment).any isControl = segment.toList.any isControl := by
  unfold escapeSegment
  generalize segment.toList = chars
  induction chars with
  | nil => rfl
  | cons c chars ih =>
    rw [escape_cons, List.any_append, ih, List.any_cons]
    congr 1
    split
    · next h => rw [h]; decide
    · split
      · next h => rw [h]; decide
      · rw [List.any_cons, List.any_nil, Bool.or_false]

theorem any_isControl_encodePointer (path : List String) :
    (encodePointer path).toList.any isControl = path.any fun s => s.toList.any isControl := by
  rw [encodePointer, String.toList_ofList]
  induction path with
  | nil => rfl
  | cons segment path ih =>
    rw [List.flatMap_cons, List.any_append, ih, List.any_cons, List.any_cons,
      any_isControl_escapeSegment]
    rfl

/-- **Of an encoded path the loader asks one thing more** than its length. -/
theorem validateRedactedPath_encodePointer_iff {path : List String} (hne : path ≠ [])
    (hsize : (encodePointer path).utf8ByteSize ≤ MAX_REDACTED_PATH_BYTES) :
    validateRedactedPath (encodePointer path) = .ok () ↔
      ∀ segment ∈ path, ∀ c ∈ segment.toList, isControl c = false := by
  obtain ⟨segment, rest, rfl⟩ := List.exists_cons_of_ne_nil hne
  have hlist : (encodePointer (segment :: rest)).toList =
      '/' :: (escapeSegment segment ++ rest.flatMap fun s => '/' :: escapeSegment s) := by
    rw [encodePointer, String.toList_ofList, List.flatMap_cons]
    rfl
  have hempty : (encodePointer (segment :: rest)).isEmpty = false := by
    rw [Bool.eq_false_iff]
    intro h
    rw [String.isEmpty_iff] at h
    rw [h] at hlist
    exact absurd hlist (by simp)
  have hcontrol := any_isControl_encodePointer (segment :: rest)
  have hiff : (encodePointer (segment :: rest)).toList.any isControl = true ↔
      ¬ ∀ s ∈ segment :: rest, ∀ c ∈ s.toList, isControl c = false := by
    rw [hcontrol, List.any_eq_true]
    constructor
    · rintro ⟨s, hs, hany⟩ hall
      obtain ⟨c, hc, hctl⟩ := List.any_eq_true.mp hany
      rw [hall s hs c hc] at hctl
      exact absurd hctl (by simp)
    · intro hnot
      by_contra hnone
      refine hnot fun s hs c hc => ?_
      rw [← Bool.not_eq_true]
      exact fun hctl => hnone ⟨s, hs, List.any_eq_true.mpr ⟨c, hc, hctl⟩⟩
  unfold validateRedactedPath
  rw [hempty, hlist, List.head?_cons]
  rw [hlist] at hiff
  by_cases hplain : ∀ s ∈ segment :: rest, ∀ c ∈ s.toList, isControl c = false
  · rw [if_neg]
    · exact iff_of_true rfl hplain
    · rintro (h | h | h | h)
      · exact absurd h (by simp)
      · exact absurd rfl h
      · omega
      · exact hiff.mp h hplain
  · rw [if_pos (Or.inr (Or.inr (Or.inr (hiff.mpr hplain))))]
    exact iff_of_false (fun h => by cases h) hplain

/-! ## One policy file -/

section File

variable {δ : Type} (codecs : DocumentCodecs) (sha256Hex : Bytes → δ) (policy : SnapshotFilePolicy)

/-- What is captured of a file that is not there. -/
def missingFile : CapturedAllowedFile δ :=
  ⟨⟨policy.manifestPath, policy.scope, .missing, 0, 0, none, none, [], none⟩, none, 0⟩

/-- What is captured of a file that cannot be sanitized. -/
def omittedFile (source : StoredFile) (reason : String) : CapturedAllowedFile δ :=
  ⟨⟨policy.manifestPath, policy.scope, .omitted, source.bytes.length, 0, none, some source.mode, [],
    some reason⟩, none, 0⟩

/-- What is captured of a file that has been sanitized. -/
def presentFile (source : StoredFile) (sanitized : SanitizedContent) : CapturedAllowedFile δ :=
  ⟨⟨policy.manifestPath, policy.scope, .present, source.bytes.length, sanitized.bytes.length,
    some (sha256Hex sanitized.bytes), some source.mode, sanitized.redactedPaths, none⟩,
    some sanitized.bytes, sanitized.bytes.length⟩

def ValidReason (reason : String) : Prop :=
  reason.isEmpty = false ∧ reason.utf8ByteSize ≤ MAX_OMISSION_REASON_BYTES

theorem validReason_omissionReason (error : SnapshotError) :
    ValidReason (truncateString (omissionReason error) MAX_OMISSION_REASON_BYTES) := by
  have hreasons : omissionReason error ∈
      ["invalid JSON; file omitted to avoid unsafe byte copying",
        "invalid YAML; file omitted to avoid unsafe byte copying",
        "structured redaction failed; file omitted to avoid unsafe byte copying"] := by
    unfold omissionReason
    split
    · split
      · simp
      · split <;> simp
    · simp
  have hall : ∀ reason ∈ ["invalid JSON; file omitted to avoid unsafe byte copying",
      "invalid YAML; file omitted to avoid unsafe byte copying",
      "structured redaction failed; file omitted to avoid unsafe byte copying"],
      reason.isEmpty = false ∧ reason.utf8ByteSize ≤ MAX_OMISSION_REASON_BYTES := by decide
  have hvalid := hall _ hreasons
  rw [truncateString, if_pos hvalid.2]
  exact hvalid

/-- **What `capture_allowed_file` makes of a file**: it is missing, or omitted, or present. -/
theorem captureAllowedFile_eq_ok {path : String} {file : Option StoredFile}
    {captured : CapturedAllowedFile δ}
    (h : captureAllowedFile codecs sha256Hex path file policy = .ok captured) :
    (file = none ∧ captured = missingFile policy) ∨
    (∃ source error reason, file = some source ∧ source.bytes.length ≤ policy.maxBytes ∧
      sanitizeStructured codecs policy.format source.bytes policy.manifestPath = .error error ∧
      ValidReason reason ∧ captured = omittedFile policy source reason) ∨
    ∃ source sanitized, file = some source ∧ source.bytes.length ≤ policy.maxBytes ∧
      sanitizeStructured codecs policy.format source.bytes policy.manifestPath = .ok sanitized ∧
      sanitized.bytes.length ≤ policy.maxBytes ∧
      captured = presentFile sha256Hex policy source sanitized := by
  obtain ⟨read, hread, hmatch⟩ := bind_eq_ok h
  obtain ⟨rfl, hbound⟩ := readRegularBounded_eq_ok.mp hread
  rcases read with _ | source
  · exact Or.inl ⟨rfl, (Except.ok.inj hmatch).symm⟩
  · have hsize := hbound source rfl
    dsimp only at hmatch
    split at hmatch
    · next error herror =>
      exact Or.inr (Or.inl ⟨source, error, _, rfl, hsize, herror,
        validReason_omissionReason error, (Except.ok.inj hmatch).symm⟩)
    · next sanitized hsanitized =>
      split at hmatch
      · exact nomatch hmatch
      · next hfits =>
        exact Or.inr (Or.inr ⟨source, sanitized, rfl, hsize, hsanitized, by omega,
          (Except.ok.inj hmatch).symm⟩)

/-- No key on the way to a secret of this file contains a control character.  A file that cannot
be sanitized is omitted, and none of its keys is listed. -/
def PlainSource (source : StoredFile) : Prop :=
  ∀ sanitized, sanitizeStructured codecs policy.format source.bytes policy.manifestPath =
    .ok sanitized →
      match policy.format with
      | .json => ∀ value, codecs.readJson source.bytes = .ok value → PlainKeys jsonSyntax value
      | .yaml => ∀ value, codecs.readYaml source.bytes = .ok value → PlainKeys yamlSyntax value

variable {codecs policy}

theorem sanitizeDocument_paths {κ τ : Type} {syn : DocumentSyntax κ}
    {read : Bytes → Except ReadError (Tree κ τ)} {print : Tree κ τ → Except String Bytes}
    {bytes : Bytes} {displayPath : String} {sanitized : SanitizedContent}
    (h : sanitizeDocument syn read print bytes displayPath = .ok sanitized) :
    sanitized.redactedPaths.length ≤ MAX_REDACTED_PATHS ∧
      ((∀ value, read bytes = .ok value → PlainKeys syn value) ↔
        ∀ pointer ∈ sanitized.redactedPaths, validateRedactedPath pointer = .ok () ∧
          ∃ path, decodePointer pointer = .ok path) := by
  obtain ⟨value, hvalue, hpaths, -⟩ := sanitizeDocument_eq_ok h
  have hbounded : BoundedPaths sanitized.redactedPaths := by
    unfold sanitizeDocument at h
    rw [hvalue] at h
    obtain ⟨⟨value', redacted⟩, hresult, -⟩ := bind_eq_ok h
    obtain ⟨-, hlisted, -⟩ := redact_eq_ok syn hresult
    have hsame : sanitized.redactedPaths = redacted := by rw [hpaths, hlisted]; simp
    rw [hsame]
    exact boundedPaths_redact syn hresult ⟨by simp, by simp⟩
  refine ⟨hbounded.1, ?_⟩
  have hvalid : ∀ path ∈ secretPaths syn value,
      (validateRedactedPath (encodePointer path) = .ok () ↔
        ∀ segment ∈ path, ∀ c ∈ segment.toList, isControl c = false) := fun path hpath =>
    validateRedactedPath_encodePointer_iff (ne_nil_of_mem_secretPaths syn hpath)
      (hbounded.2 _ (by rw [hpaths]; exact List.mem_map_of_mem hpath))
  constructor
  · intro hplain pointer hp
    rw [hpaths] at hp
    obtain ⟨path, hpath, rfl⟩ := List.mem_map.mp hp
    have hok := (hvalid path hpath).mpr (hplain value hvalue path hpath)
    exact ⟨hok, path, decodePointer_encodePointer (ne_nil_of_mem_secretPaths syn hpath) hok⟩
  · intro hall value' hvalue' path hpath
    obtain rfl : value = value' := Except.ok.inj (hvalue.symm.trans hvalue')
    exact (hvalid path hpath).mp
      (hall _ (by rw [hpaths]; exact List.mem_map_of_mem hpath)).1

theorem sanitizeStructured_paths {source : StoredFile} {sanitized : SanitizedContent}
    (h : sanitizeStructured codecs policy.format source.bytes policy.manifestPath =
      .ok sanitized) :
    sanitized.redactedPaths.length ≤ MAX_REDACTED_PATHS ∧
      (PlainSource codecs policy source ↔
        ∀ pointer ∈ sanitized.redactedPaths, validateRedactedPath pointer = .ok () ∧
          ∃ path, decodePointer pointer = .ok path) := by
  have hplain : PlainSource codecs policy source ↔
      match policy.format with
      | .json => ∀ value, codecs.readJson source.bytes = .ok value → PlainKeys jsonSyntax value
      | .yaml => ∀ value, codecs.readYaml source.bytes = .ok value → PlainKeys yamlSyntax value :=
    ⟨fun hp => hp sanitized h, fun hp _ _ => hp⟩
  rw [hplain]
  unfold sanitizeStructured at h
  cases hformat : policy.format <;> rw [hformat] at h <;> exact sanitizeDocument_paths h


end File

/-! ## The fold of a capture -/

section Captured

variable {δ : Type} (env : SnapshotEnvironment δ)

/-- The captured files of a profile: every policy file is captured, and the package is a JSON
object.  The modes are permission bits. -/
structure CapturesProfile (sources : FileIndex → Option StoredFile)
    (captured : FileIndex → CapturedAllowedFile δ) : Prop where
  files : ∀ i, captureAllowedFile env.codecs env.sha256Hex (FILE_POLICY i).manifestPath
    (sources i) (FILE_POLICY i) = .ok (captured i)
  package : ∃ bytes, (captured 0).bytes = some bytes ∧
    validateProfilePackage env.codecs bytes = .ok ()
  modes : ∀ i source, sources i = some source → source.mode ≤ 0o777

def packagePlugins (captured : FileIndex → CapturedAllowedFile δ) : Nat :=
  match (captured 0).bytes with
  | some bytes => pluginCountFromPackageBytes env.codecs bytes
  | none => 0

def addCaptured (captured : FileIndex → CapturedAllowedFile δ) (files : CapturedFiles δ)
    (i : FileIndex) : CapturedFiles δ :=
  ⟨Function.update files.records i (captured i).record,
    files.payloads ++ (captured i).bytes.toList.map fun bytes => (i, bytes),
    files.totalBytes + (captured i).storedSize,
    if i = 0 then packagePlugins env captured else files.pluginCount⟩

/-- What a capture has read when it has been through the policy. -/
def capturedFiles (captured : FileIndex → CapturedAllowedFile δ) : CapturedFiles δ :=
  (List.finRange 7).foldl (addCaptured env captured) CapturedFiles.empty

/-- What the policy allows the files to hold together. -/
def policyBytes (indices : List FileIndex) : Nat :=
  (indices.map fun i => (FILE_POLICY i).maxBytes).sum

theorem policyBytes_cons (i : FileIndex) (indices : List FileIndex) :
    policyBytes (i :: indices) = (FILE_POLICY i).maxBytes + policyBytes indices := by
  rw [policyBytes, List.map_cons, List.sum_cons, policyBytes]

theorem policyBytes_finRange : policyBytes (List.finRange 7) = MAX_TOTAL_SNAPSHOT_BYTES := by
  decide

variable {env} {sources : FileIndex → Option StoredFile}
  {captured : FileIndex → CapturedAllowedFile δ}

theorem CapturesProfile.storedSize_le (h : CapturesProfile env sources captured) (i : FileIndex) :
    (captured i).storedSize ≤ (FILE_POLICY i).maxBytes := by
  rcases captureAllowedFile_eq_ok _ _ _ (h.files i) with
    ⟨-, hi⟩ | ⟨_, _, _, -, -, -, -, hi⟩ | ⟨_, _, -, -, -, hsize, hi⟩ <;> rw [hi]
  · exact Nat.zero_le _
  · exact Nat.zero_le _
  · exact hsize

theorem CapturesProfile.sourceSize_le (h : CapturesProfile env sources captured) (i : FileIndex) :
    (captured i).record.sourceSize ≤ (FILE_POLICY i).maxBytes := by
  rcases captureAllowedFile_eq_ok _ _ _ (h.files i) with
    ⟨-, hi⟩ | ⟨_, _, _, -, hsize, -, -, hi⟩ | ⟨_, _, -, hsize, -, -, hi⟩ <;> rw [hi]
  · exact Nat.zero_le _
  · exact hsize
  · exact hsize

theorem CapturesProfile.state_present_iff (h : CapturesProfile env sources captured)
    (i : FileIndex) : (captured i).record.state = .present ↔ (captured i).bytes.isSome = true := by
  rcases captureAllowedFile_eq_ok _ _ _ (h.files i) with
    ⟨-, hi⟩ | ⟨_, _, _, -, -, -, -, hi⟩ | ⟨_, _, -, -, -, -, hi⟩ <;> rw [hi]
  · simp [missingFile]
  · simp [omittedFile]
  · simp [presentFile]

theorem CapturesProfile.captureFile_eq_ok (h : CapturesProfile env sources captured)
    {files : CapturedFiles δ} {i : FileIndex}
    (hfits : files.totalBytes + (captured i).storedSize ≤ MAX_TOTAL_SNAPSHOT_BYTES) :
    captureFile env sources files i = .ok (addCaptured env captured files i) := by
  have hplugins : capturedPluginCount env i (captured i) files.pluginCount =
      .ok (if i = 0 then packagePlugins env captured else files.pluginCount) := by
    by_cases hi : i = 0
    · subst hi
      obtain ⟨bytes, hbytes, hvalid⟩ := h.package
      have hpresent : (captured 0).record.state = .present :=
        (h.state_present_iff 0).mpr (by rw [hbytes]; rfl)
      rw [capturedPluginCount, if_neg (by simp), if_neg (by simp [hpresent]), hbytes]
      show (validateProfilePackage env.codecs bytes >>= _) = _
      rw [hvalid, packagePlugins, hbytes]
      rfl
    · have hval : i.val ≠ 0 := fun hzero => hi (Fin.ext hzero)
      rw [capturedPluginCount, if_pos hval, if_neg hi]
  rw [captureFile, h.files i]
  show (capturedPluginCount env i (captured i) files.pluginCount >>= _) = _
  rw [hplugins]
  show (if _ then _ else _ : Except SnapshotError (CapturedFiles δ)) = _
  rw [if_neg (by omega)]
  rfl

/-- **A capture of files within their bounds is within the bound of the snapshot.** -/
theorem CapturesProfile.captureFiles_eq_ok (h : CapturesProfile env sources captured) :
    (List.finRange 7).foldlM (captureFile env sources) CapturedFiles.empty =
      .ok (capturedFiles env captured) := by
  refine foldlM_eq_ok
    (P := fun xs files => files.totalBytes + policyBytes xs ≤ MAX_TOTAL_SNAPSHOT_BYTES)
    (fun i xs files hfiles => ?_) _ _ ?_
  · have hsize := h.storedSize_le i
    rw [policyBytes_cons] at hfiles
    refine ⟨h.captureFile_eq_ok (by omega), ?_⟩
    show files.totalBytes + (captured i).storedSize + policyBytes xs ≤ _
    omega
  · rw [policyBytes_finRange]
    exact Nat.le_of_eq (Nat.zero_add _)

/-! ### What the fold has collected -/

theorem foldl_addCaptured_records (xs : List FileIndex) (files : CapturedFiles δ) (i : FileIndex) :
    (xs.foldl (addCaptured env captured) files).records i =
      if i ∈ xs then (captured i).record else files.records i := by
  induction xs generalizing files with
  | nil => simp
  | cons x xs ih =>
    rw [List.foldl_cons, ih]
    by_cases hmem : i ∈ xs
    · rw [if_pos hmem, if_pos (List.mem_cons_of_mem _ hmem)]
    · rw [if_neg hmem]
      by_cases hx : i = x
      · rw [hx, if_pos (List.mem_cons_self ..)]
        exact Function.update_self ..
      · rw [if_neg (by simp [hx, hmem])]
        exact Function.update_of_ne hx ..

theorem foldl_addCaptured_payloads (xs : List FileIndex) (files : CapturedFiles δ) :
    (xs.foldl (addCaptured env captured) files).payloads =
      files.payloads ++ xs.flatMap fun i => (captured i).bytes.toList.map fun bytes => (i, bytes) := by
  induction xs generalizing files with
  | nil => simp
  | cons x xs ih =>
    rw [List.foldl_cons, ih, List.flatMap_cons, ← List.append_assoc]
    rfl

theorem foldl_addCaptured_totalBytes (xs : List FileIndex) (files : CapturedFiles δ) :
    (xs.foldl (addCaptured env captured) files).totalBytes =
      files.totalBytes + (xs.map fun i => (captured i).storedSize).sum := by
  induction xs generalizing files with
  | nil => simp
  | cons x xs ih =>
    rw [List.foldl_cons, ih, List.map_cons, List.sum_cons, ← Nat.add_assoc]
    rfl

theorem foldl_addCaptured_pluginCount (xs : List FileIndex) (files : CapturedFiles δ) :
    (xs.foldl (addCaptured env captured) files).pluginCount =
      if 0 ∈ xs then packagePlugins env captured else files.pluginCount := by
  induction xs generalizing files with
  | nil => simp
  | cons x xs ih =>
    rw [List.foldl_cons, ih]
    show (if 0 ∈ xs then _ else if x = 0 then _ else _) = _
    by_cases hmem : (0 : FileIndex) ∈ xs
    · rw [if_pos hmem, if_pos (List.mem_cons_of_mem _ hmem)]
    · rw [if_neg hmem]
      by_cases hx : x = 0
      · rw [if_pos hx, if_pos (by simp [hx])]
      · rw [if_neg hx, if_neg (by simp [hmem, Ne.symm hx])]

end Captured

/-! ## The fold of the loader -/

section Loader

variable {δ : Type} (env : SnapshotEnvironment δ)

def stagedBlobs (captured : FileIndex → CapturedAllowedFile δ) (indices : List FileIndex) :
    List (String × Bytes) :=
  indices.flatMap fun i => (captured i).bytes.toList.map fun bytes => (toString i.val, bytes)

def addTotals (captured : FileIndex → CapturedAllowedFile δ) (totals : SnapshotTotals)
    (i : FileIndex) : SnapshotTotals :=
  ⟨totals.total + (captured i).storedSize, totals.sourceTotal + (captured i).record.sourceSize,
    totals.presentCount + (captured i).bytes.toList.length,
    if i = 0 then some (packagePlugins env captured) else totals.pluginCount,
    totals.expectedBlobs ++ (captured i).bytes.toList.map fun _ => toString i.val⟩

variable {env} {sources : FileIndex → Option StoredFile}
  {captured : FileIndex → CapturedAllowedFile δ}

theorem blobName_injective : ∀ i j : FileIndex, toString i.val = toString j.val → i = j := by
  decide

theorem lookup_stagedBlobs_of_notMem {indices : List FileIndex} {i : FileIndex}
    (h : i ∉ indices) : (stagedBlobs captured indices).lookup (toString i.val) = none := by
  induction indices with
  | nil => rfl
  | cons j indices ih =>
    obtain ⟨hij, hrest⟩ := List.ne_and_not_mem_of_not_mem_cons h
    have hname : (toString i.val == toString j.val) = false :=
      beq_eq_false_iff_ne.mpr fun heq => hij (blobName_injective i j heq)
    rw [stagedBlobs, List.flatMap_cons]
    rcases (captured j).bytes with _ | bytes
    · exact ih hrest
    · show List.lookup _ ((toString j.val, bytes) :: stagedBlobs captured indices) = none
      rw [List.lookup_cons, hname]
      exact ih hrest

theorem lookup_stagedBlobs {indices : List FileIndex} (hnodup : indices.Nodup) {i : FileIndex}
    (h : i ∈ indices) :
    (stagedBlobs captured indices).lookup (toString i.val) = (captured i).bytes := by
  induction indices with
  | nil => exact absurd h List.not_mem_nil
  | cons j indices ih =>
    obtain ⟨hj, hrest⟩ := List.nodup_cons.mp hnodup
    rw [stagedBlobs, List.flatMap_cons]
    by_cases hij : i = j
    · subst hij
      rcases hbytes : (captured i).bytes with _ | bytes
      · exact lookup_stagedBlobs_of_notMem hj
      · show List.lookup _ ((toString i.val, bytes) :: stagedBlobs captured indices) = some bytes
        rw [List.lookup_cons, beq_self_eq_true]
    · have hname : (toString i.val == toString j.val) = false :=
        beq_eq_false_iff_ne.mpr fun heq => hij (blobName_injective i j heq)
      have hmem := (List.mem_cons.mp h).resolve_left hij
      rcases (captured j).bytes with _ | bytes
      · exact ih hrest hmem
      · show List.lookup _ ((toString j.val, bytes) :: stagedBlobs captured indices) = _
        rw [List.lookup_cons, hname]
        exact ih hrest hmem

theorem length_stagedBlobs (indices : List FileIndex) :
    (stagedBlobs captured indices).length ≤ indices.length := by
  induction indices with
  | nil => exact Nat.le_refl _
  | cons j indices ih =>
    rw [stagedBlobs, List.flatMap_cons, List.length_append, List.length_cons, List.length_map]
    have hone : (captured j).bytes.toList.length ≤ 1 := by cases (captured j).bytes <;> simp
    have hrest : (List.flatMap _ indices).length ≤ indices.length := ih
    omega

variable [DecidableEq δ]

theorem forM_decodePointer_eq_ok {pointers : List String} :
    (pointers.forM fun pointer => do
      validateRedactedPath pointer
      let _ ← decodePointer pointer
      pure () : Except SnapshotError Unit) = .ok () ↔
      ∀ pointer ∈ pointers, validateRedactedPath pointer = .ok () ∧
        ∃ path, decodePointer pointer = .ok path := by
  constructor
  · intro h pointer hp
    have hone := eq_ok_of_forM h pointer hp
    obtain ⟨⟨⟩, hvalid, hdecode⟩ := bind_eq_ok hone
    obtain ⟨path, hpath, -⟩ := bind_eq_ok hdecode
    exact ⟨hvalid, path, hpath⟩
  · intro h
    refine forM_eq_ok fun pointer hp => ?_
    obtain ⟨hvalid, path, hpath⟩ := h pointer hp
    rw [hvalid]
    show (decodePointer pointer >>= _) = _
    rw [hpath]
    rfl

omit [DecidableEq δ] in
theorem validateFileRecord_eq [DecidableEq δ] {manifest : SnapshotManifest δ}
    {entry : SnapshotFileRecord δ} {i : FileIndex} (hentry : manifest.files i = entry)
    (hpath : entry.path = (FILE_POLICY i).manifestPath) (hscope : entry.scope = (FILE_POLICY i).scope)
    (hsource : entry.sourceSize ≤ (FILE_POLICY i).maxBytes)
    (hstored : entry.storedSize ≤ (FILE_POLICY i).maxBytes)
    (hmode : ∀ mode, entry.mode = some mode → mode ≤ 0o777)
    (hcount : entry.redactedPaths.length ≤ MAX_REDACTED_PATHS) (blobs : List (String × Bytes))
    (totals : SnapshotTotals) :
    validateFileRecord env blobs manifest totals i = (do
      entry.redactedPaths.forM fun pointer => do
        validateRedactedPath pointer
        let _ ← decodePointer pointer
        pure ()
      match entry.state with
      | .present => validatePresentRecord env blobs i entry totals
      | .missing =>
          if entry.sourceSize ≠ 0 ∨ entry.storedSize ≠ 0 ∨ entry.sha256 ≠ none ∨
              entry.mode ≠ none ∨ entry.redactedPaths ≠ [] ∨ entry.omittedReason ≠ none then
            .error (.invalidManifest (entry.path ++ " has inconsistent missing metadata"))
          else .ok { totals with sourceTotal := totals.sourceTotal + entry.sourceSize }
      | .omitted =>
          if entry.storedSize ≠ 0 ∨ entry.sha256 ≠ none ∨ entry.redactedPaths ≠ [] ∨
              entry.omittedReason.all (fun reason => reason.isEmpty ||
                decide (reason.utf8ByteSize > MAX_OMISSION_REASON_BYTES)) = true then
            .error (.invalidManifest (entry.path ++ " has inconsistent omitted metadata"))
          else .ok { totals with sourceTotal := totals.sourceTotal + entry.sourceSize }) := by
  subst hentry
  have hany : ¬ (manifest.files i).mode.any (fun mode => decide (mode > 0o777)) = true := by
    rcases hm : (manifest.files i).mode with _ | mode
    · simp
    · have hle := hmode mode hm
      rw [Option.any_some, decide_eq_true_eq]
      omega
  rw [validateFileRecord, if_neg (not_or.mpr ⟨not_not.mpr hpath, not_not.mpr hscope⟩),
    if_neg (not_or.mpr ⟨Nat.not_lt.mpr hsource, Nat.not_lt.mpr hstored⟩), if_neg hany]
  exact if_neg (Nat.not_lt.mpr hcount)

theorem validatePresentRecord_eq {entry : SnapshotFileRecord δ} {i : FileIndex} {bytes : Bytes}
    {blobs : List (String × Bytes)} {totals : SnapshotTotals}
    (hsha256 : entry.sha256 = some (env.sha256Hex bytes)) (hmode : entry.mode ≠ none)
    (hreason : entry.omittedReason = none) (hblob : blobs.lookup (toString i.val) = some bytes)
    (hsize : bytes.length = entry.storedSize) (hbound : bytes.length ≤ (FILE_POLICY i).maxBytes) :
    validatePresentRecord env blobs i entry totals = (do
      let pluginCount ←
        if i.val = 0 then do
          validateProfilePackage env.codecs bytes
          pure (some (pluginCountFromPackageBytes env.codecs bytes))
        else pure totals.pluginCount
      pure ⟨totals.total + entry.storedSize, totals.sourceTotal + entry.sourceSize,
        totals.presentCount + 1, pluginCount, totals.expectedBlobs ++ [toString i.val]⟩) := by
  rw [validatePresentRecord, hsha256]
  show (if _ then _ else _ : Except SnapshotError SnapshotTotals) = _
  rw [if_neg (not_or.mpr ⟨hmode, not_not.mpr hreason⟩), hblob]
  show (if _ then _ else _ : Except SnapshotError SnapshotTotals) = _
  rw [if_neg (Nat.not_lt.mpr hbound), if_neg (not_not.mpr hsize), if_neg (not_not.mpr rfl)]

/-- **The loader on the record of a captured file.**  It accepts the record if and only if no
key on the way to a secret of the file contains a control character. -/
theorem validateFileRecord_captured (h : CapturesProfile env sources captured)
    {manifest : SnapshotManifest δ} {i : FileIndex} (hrecord : manifest.files i = (captured i).record)
    {blobs : List (String × Bytes)} (hblob : blobs.lookup (toString i.val) = (captured i).bytes)
    (totals : SnapshotTotals) :
    ((∀ source, sources i = some source → PlainSource env.codecs (FILE_POLICY i) source) →
      validateFileRecord env blobs manifest totals i = .ok (addTotals env captured totals i)) ∧
    ∀ totals', validateFileRecord env blobs manifest totals i = .ok totals' →
      ∀ source, sources i = some source → PlainSource env.codecs (FILE_POLICY i) source := by
  have hnotPackage : (captured i).bytes = none → i ≠ 0 := by
    rintro hbytes rfl
    obtain ⟨bytes, hpackage, -⟩ := h.package
    rw [hbytes] at hpackage
    exact nomatch hpackage
  rcases captureAllowedFile_eq_ok _ _ _ (h.files i) with
    ⟨hnone, hi⟩ | ⟨source, error, reason, hsome, hsize, herror, hreason, hi⟩ |
      ⟨source, sanitized, hsome, hsize, hsanitized, hfits, hi⟩
  · -- missing: there is no file, and no path
    have hzero := hnotPackage (by rw [hi]; rfl)
    refine ⟨fun _ => ?_, fun _ _ source hs => by rw [hnone] at hs; exact nomatch hs⟩
    rw [hi] at hrecord
    rw [validateFileRecord_eq hrecord rfl rfl (Nat.zero_le _) (Nat.zero_le _) nofun
      (Nat.zero_le _), addTotals, if_neg hzero, hi]
    simp [missingFile]
  · -- omitted: the file cannot be sanitized, and no path is listed
    have hzero := hnotPackage (by rw [hi]; rfl)
    refine ⟨fun _ => ?_, fun _ _ source' hs sanitized hsanitized => ?_⟩
    · have hmode : ∀ mode, some source.mode = some mode → mode ≤ 0o777 := fun mode hm =>
        Option.some.inj hm ▸ h.modes i source hsome
      rw [hi] at hrecord
      rw [validateFileRecord_eq hrecord rfl rfl hsize (Nat.zero_le _) hmode (Nat.zero_le _),
        addTotals, if_neg hzero, hi]
      show (if _ then _ else _ : Except SnapshotError SnapshotTotals) = _
      rw [if_neg (by simp [omittedFile, hreason.1, hreason.2])]
      simp [omittedFile]
    · obtain rfl := Option.some.inj (hsome.symm.trans hs)
      rw [herror] at hsanitized
      exact nomatch hsanitized
  · -- present: every path is checked, and then the blob is compared with the record
    obtain ⟨hcount, hpaths⟩ := sanitizeStructured_paths hsanitized
    have hmode : ∀ mode, some source.mode = some mode → mode ≤ 0o777 := fun mode hm =>
      Option.some.inj hm ▸ h.modes i source hsome
    rw [hi] at hrecord hblob
    rw [validateFileRecord_eq hrecord rfl rfl hsize hfits hmode hcount]
    constructor
    · intro hplain
      have hforM := forM_decodePointer_eq_ok.mpr (hpaths.mp (hplain source hsome))
      show (List.forM sanitized.redactedPaths _ >>= _ : Except SnapshotError SnapshotTotals) = _
      rw [hforM]
      show validatePresentRecord env blobs i (presentFile env.sha256Hex (FILE_POLICY i) source
        sanitized).record totals = _
      rw [validatePresentRecord_eq rfl (Option.some_ne_none source.mode) rfl hblob rfl hfits,
        addTotals, hi]
      by_cases hzero : i = 0
      · subst hzero
        obtain ⟨bytes, hbytes, hvalid⟩ := h.package
        rw [packagePlugins, hbytes]
        rw [hi] at hbytes
        obtain rfl : sanitized.bytes = bytes := Option.some.inj hbytes
        rw [if_pos (show (0 : FileIndex).val = 0 from rfl),
          if_pos (show (0 : FileIndex) = 0 from rfl), hvalid]
        rfl
      · have hval : i.val ≠ 0 := fun hz => hzero (Fin.ext hz)
        rw [if_neg hval, if_neg hzero]
        rfl
    · intro totals' hok source' hs
      obtain rfl := Option.some.inj (hsome.symm.trans hs)
      obtain ⟨⟨⟩, hforM, -⟩ := bind_eq_ok hok
      exact hpaths.mpr (forM_decodePointer_eq_ok.mp hforM)

/-! ### What the loader has added up -/

omit [DecidableEq δ] in
theorem foldl_addTotals (xs : List FileIndex) (totals : SnapshotTotals) :
    xs.foldl (addTotals env captured) totals =
      ⟨totals.total + (xs.map fun i => (captured i).storedSize).sum,
        totals.sourceTotal + (xs.map fun i => (captured i).record.sourceSize).sum,
        totals.presentCount + (stagedBlobs captured xs).length,
        if 0 ∈ xs then some (packagePlugins env captured) else totals.pluginCount,
        totals.expectedBlobs ++ (stagedBlobs captured xs).map Prod.fst⟩ := by
  induction xs generalizing totals with
  | nil => simp [stagedBlobs]
  | cons x xs ih =>
    have hblobs : stagedBlobs captured (x :: xs) =
        ((captured x).bytes.toList.map fun bytes => (toString x.val, bytes)) ++
          stagedBlobs captured xs := by rw [stagedBlobs, List.flatMap_cons, stagedBlobs]
    rw [List.foldl_cons, ih, hblobs]
    refine SnapshotTotals.mk.injEq .. |>.mpr ⟨?_, ?_, ?_, ?_, ?_⟩
    · rw [List.map_cons, List.sum_cons, ← Nat.add_assoc]
      rfl
    · rw [List.map_cons, List.sum_cons, ← Nat.add_assoc]
      rfl
    · rw [List.length_append, List.length_map, ← Nat.add_assoc]
      rfl
    · show (if 0 ∈ xs then _ else if x = 0 then _ else _) = _
      by_cases hmem : (0 : FileIndex) ∈ xs
      · rw [if_pos hmem, if_pos (List.mem_cons_of_mem _ hmem)]
      · rw [if_neg hmem]
        by_cases hx : x = 0
        · rw [if_pos hx, if_pos (by simp [hx])]
        · rw [if_neg hx, if_neg (by simp [hmem, Ne.symm hx])]
    · rw [List.map_append, List.map_map, ← List.append_assoc]
      rfl

omit [DecidableEq δ] in
theorem sum_sourceSize_le (h : CapturesProfile env sources captured) (xs : List FileIndex) :
    (xs.map fun i => (captured i).record.sourceSize).sum ≤ policyBytes xs := by
  induction xs with
  | nil => exact Nat.le_refl _
  | cons x xs ih =>
    have hx := h.sourceSize_le x
    rw [List.map_cons, List.sum_cons, policyBytes_cons]
    omega

omit [DecidableEq δ] in
theorem sum_storedSize_le (h : CapturesProfile env sources captured) (xs : List FileIndex) :
    (xs.map fun i => (captured i).storedSize).sum ≤ policyBytes xs := by
  induction xs with
  | nil => exact Nat.le_refl _
  | cons x xs ih =>
    have hx := h.storedSize_le x
    rw [List.map_cons, List.sum_cons, policyBytes_cons]
    omega

/-! ## The loader on a staged snapshot -/

/-- The manifest that a capture of these files writes. -/
structure DescribesProfile (env : SnapshotEnvironment δ)
    (captured : FileIndex → CapturedAllowedFile δ) (manifest : SnapshotManifest δ) : Prop where
  snapshotId : validateIdentifier manifest.snapshotId = .ok ()
  dshVersion : validateMetadataText "DSH version" manifest.dshVersion MAX_METADATA_TEXT_BYTES =
    .ok ()
  label : ∀ label, manifest.kind = .manual (some label) →
    validateMetadataText "manual label" label MAX_METADATA_TEXT_BYTES = .ok ()
  schema : manifest.schema = SNAPSHOT_SCHEMA_VERSION
  profileName : manifest.profileName = env.profileName
  files : ∀ i, manifest.files i = (captured i).record
  fileCount : manifest.fileCount = (stagedBlobs captured (List.finRange 7)).length
  totalBytes : manifest.totalBytes = ((List.finRange 7).map fun i => (captured i).storedSize).sum
  pluginCount : manifest.pluginCount = packagePlugins env captured

def stagedDirectory (captured : FileIndex → CapturedAllowedFile δ) (encoded : Bytes) :
    SnapshotDirectory :=
  ⟨some encoded, some (stagedBlobs captured (List.finRange 7))⟩

omit [DecidableEq δ] in
theorem label_eq_ok {β : Type} {kind : SnapshotKind} {next : Unit → Except SnapshotError β}
    {b : β} :
    (match kind with
      | .manual (some label) =>
          validateMetadataText "manual label" label MAX_METADATA_TEXT_BYTES >>= next
      | _ => next ()) = .ok b ↔
    (∀ label, kind = .manual (some label) →
      validateMetadataText "manual label" label MAX_METADATA_TEXT_BYTES = .ok ()) ∧
      next () = .ok b := by
  rcases kind with _ | _ | label
  · exact ⟨fun h => ⟨nofun, h⟩, fun h => h.2⟩
  · exact ⟨fun h => ⟨nofun, h⟩, fun h => h.2⟩
  · constructor
    · intro h
      obtain ⟨⟨⟩, hlabel, h⟩ := bind_eq_ok h
      refine ⟨fun label' heq => ?_, h⟩
      cases heq
      exact hlabel
    · rintro ⟨hlabel, h⟩
      exact bind_eq_ok_iff.mpr ⟨(), hlabel label rfl, h⟩

/-- What the loader has checked of a snapshot that it accepts. -/
structure LoadsAs (env : SnapshotEnvironment δ) (directory : SnapshotDirectory)
    (manifest : SnapshotManifest δ) (blobs : List (String × Bytes)) (totals : SnapshotTotals) :
    Prop where
  read : readManifestBounded env directory = .ok manifest
  snapshotId : validateIdentifier manifest.snapshotId = .ok ()
  dshVersion : validateMetadataText "DSH version" manifest.dshVersion MAX_METADATA_TEXT_BYTES =
    .ok ()
  label : ∀ label, manifest.kind = .manual (some label) →
    validateMetadataText "manual label" label MAX_METADATA_TEXT_BYTES = .ok ()
  schema : manifest.schema = SNAPSHOT_SCHEMA_VERSION
  profileName : manifest.profileName = env.profileName
  files : directory.files = some blobs
  records : (List.finRange 7).foldlM (validateFileRecord env blobs manifest)
    ⟨0, 0, 0, none, []⟩ = .ok totals
  aggregates : ¬ (totals.total > MAX_TOTAL_SNAPSHOT_BYTES ∨
    totals.sourceTotal > MAX_TOTAL_SNAPSHOT_BYTES ∨ totals.total ≠ manifest.totalBytes ∨
      totals.presentCount ≠ manifest.fileCount)
  package : (manifest.files 0).state = .present
  plugins : totals.pluginCount = some manifest.pluginCount
  count : blobs.length ≤ 7
  expected : ¬ ((blobs.all fun file => totals.expectedBlobs.contains file.1) = false ∨
    (totals.expectedBlobs.all fun name => (blobs.lookup name).isSome) = false)

/-- **When the loader accepts a directory**, check by check. -/
theorem loadValidSnapshot_eq_ok {directory : SnapshotDirectory} {manifest : SnapshotManifest δ} :
    loadValidSnapshot env directory = .ok manifest ↔
      ∃ blobs totals, LoadsAs env directory manifest blobs totals := by
  constructor
  · intro h
    obtain ⟨read, hread, h⟩ := bind_eq_ok h
    obtain ⟨⟨⟩, hid, h⟩ := bind_eq_ok h
    obtain ⟨⟨⟩, hversion, h⟩ := bind_eq_ok h
    obtain ⟨hlabel, h⟩ := label_eq_ok.mp h
    obtain ⟨hschema, h⟩ := guard_eq_ok.mp h
    obtain ⟨hname, h⟩ := guard_eq_ok.mp h
    rcases hfiles : directory.files with _ | blobs
    · rw [hfiles] at h
      exact nomatch h
    rw [hfiles] at h
    obtain ⟨totals, htotals, h⟩ := bind_eq_ok h
    obtain ⟨haggregates, h⟩ := guard_eq_ok.mp h
    obtain ⟨hpackage, h⟩ := guard_eq_ok.mp h
    obtain ⟨hplugins, h⟩ := guard_eq_ok.mp h
    obtain ⟨hcount, h⟩ := guard_eq_ok.mp h
    obtain ⟨hexpected, h⟩ := guard_eq_ok.mp h
    obtain rfl : read = manifest := Except.ok.inj h
    exact ⟨blobs, totals, hread, hid, hversion, hlabel, not_not.mp hschema, not_not.mp hname,
      hfiles, htotals, haggregates, not_not.mp hpackage, not_not.mp hplugins,
      Nat.not_lt.mp hcount, hexpected⟩
  · rintro ⟨blobs, totals, h⟩
    refine bind_eq_ok_iff.mpr ⟨manifest, h.read, bind_eq_ok_iff.mpr ⟨(), h.snapshotId,
      bind_eq_ok_iff.mpr ⟨(), h.dshVersion, label_eq_ok.mpr ⟨h.label,
        guard_eq_ok.mpr ⟨not_not.mpr h.schema, guard_eq_ok.mpr ⟨not_not.mpr h.profileName, ?_⟩⟩⟩⟩⟩⟩
    rw [h.files]
    exact bind_eq_ok_iff.mpr ⟨totals, h.records, guard_eq_ok.mpr ⟨h.aggregates,
      guard_eq_ok.mpr ⟨not_not.mpr h.package, guard_eq_ok.mpr ⟨not_not.mpr h.plugins,
        guard_eq_ok.mpr ⟨Nat.not_lt.mpr h.count, guard_eq_ok.mpr ⟨h.expected, rfl⟩⟩⟩⟩⟩⟩

theorem readManifestBounded_of_loadValidSnapshot {directory : SnapshotDirectory}
    {manifest : SnapshotManifest δ} (h : loadValidSnapshot env directory = .ok manifest) :
    readManifestBounded env directory = .ok manifest := by
  obtain ⟨_, _, hloads⟩ := loadValidSnapshot_eq_ok.mp h
  exact hloads.read

omit [DecidableEq δ] in
theorem readManifestBounded_staged_iff {manifest : SnapshotManifest δ} {encoded : Bytes}
    (hparse : env.parseManifest encoded = .ok manifest) :
    readManifestBounded env (stagedDirectory captured encoded) = .ok manifest ↔
      encoded.length ≤ MAX_MANIFEST_BYTES := by
  rw [readManifestBounded]
  show (if _ then _ else _ : Except SnapshotError (SnapshotManifest δ)) = _ ↔ _
  split
  · next hlong => exact iff_of_false (fun h => nomatch h) (Nat.not_le.mpr hlong)
  · next hshort =>
    rw [hparse]
    exact iff_of_true rfl (Nat.not_lt.mp hshort)

omit [DecidableEq δ] in
theorem isSome_lookup_of_mem {blobs : List (String × Bytes)} {name : String}
    (h : name ∈ blobs.map Prod.fst) : (blobs.lookup name).isSome = true := by
  obtain ⟨⟨name, bytes⟩, hmem, rfl⟩ := List.mem_map.mp h
  exact List.lookup_isSome_iff.mpr ⟨(name, bytes), hmem, beq_self_eq_true name⟩

/-- **The loader on what a capture stages.**  It accepts the snapshot if and only if the encoded
manifest is within its bound and no key on the way to a secret contains a control character. -/
theorem loadValidSnapshot_staged_iff (h : CapturesProfile env sources captured)
    {manifest : SnapshotManifest δ} (hm : DescribesProfile env captured manifest) {encoded : Bytes}
    (hparse : env.parseManifest encoded = .ok manifest) :
    loadValidSnapshot env (stagedDirectory captured encoded) = .ok manifest ↔
      encoded.length ≤ MAX_MANIFEST_BYTES ∧
        ∀ i source, sources i = some source → PlainSource env.codecs (FILE_POLICY i) source := by
  have hrecord : ∀ i totals, _ := fun i totals =>
    validateFileRecord_captured h (hm.files i)
      (lookup_stagedBlobs (List.nodup_finRange 7) (List.mem_finRange i)) totals
  rw [loadValidSnapshot_eq_ok]
  constructor
  · rintro ⟨blobs, totals, hloads⟩
    obtain rfl : stagedBlobs captured (List.finRange 7) = blobs := Option.some.inj hloads.files
    refine ⟨(readManifestBounded_staged_iff hparse).mp hloads.read, fun i => ?_⟩
    obtain ⟨totals₀, totals₁, hok⟩ := exists_ok_of_foldlM hloads.records i (List.mem_finRange i)
    exact (hrecord i totals₀).2 totals₁ hok
  · rintro ⟨hlength, hplain⟩
    have hfold := foldlM_eq_ok (P := fun _ _ => True) (f := addTotals env captured)
      (g := validateFileRecord env (stagedBlobs captured (List.finRange 7)) manifest)
      (fun i _ totals _ => ⟨(hrecord i totals).1 (hplain i), trivial⟩) (List.finRange 7)
      ⟨0, 0, 0, none, []⟩ trivial
    rw [foldl_addTotals, if_pos (List.mem_finRange 0)] at hfold
    simp only [Nat.zero_add, List.nil_append] at hfold
    obtain ⟨package, hpackage, -⟩ := h.package
    refine ⟨_, _, (readManifestBounded_staged_iff hparse).mpr hlength, hm.snapshotId,
      hm.dshVersion, hm.label, hm.schema, hm.profileName, rfl, hfold, ?_, ?_, ?_, ?_, ?_⟩
    · -- the totals are those of the manifest, and within the bounds of the policy
      have hstored := sum_storedSize_le h (List.finRange 7)
      have hsource := sum_sourceSize_le h (List.finRange 7)
      rw [policyBytes_finRange] at hstored hsource
      rintro (hgt | hgt | hne | hne)
      · exact absurd hstored (Nat.not_le.mpr hgt)
      · exact absurd hsource (Nat.not_le.mpr hgt)
      · exact hne hm.totalBytes.symm
      · exact hne hm.fileCount.symm
    · rw [hm.files 0, h.state_present_iff, hpackage]
      rfl
    · exact congrArg some hm.pluginCount.symm
    · have hcount : (stagedBlobs captured (List.finRange 7)).length ≤ _ := length_stagedBlobs _
      rw [List.length_finRange] at hcount
      exact hcount
    · -- the names of the blobs are exactly the expected ones
      rintro (hunexpected | hmissing)
      · obtain ⟨file, hfile, hname⟩ := List.all_eq_false.mp hunexpected
        exact hname (List.contains_iff_mem.mpr (List.mem_map_of_mem hfile))
      · obtain ⟨name, hmem, hnone⟩ := List.all_eq_false.mp hmissing
        exact hnone (isSome_lookup_of_mem hmem)

end Loader

end DshNexus.Snapshot
