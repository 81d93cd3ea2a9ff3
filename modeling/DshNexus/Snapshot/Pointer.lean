import DshNexus.Snapshot.Policy

/-!
# Redacted paths

`crates/nexus-snapshots/src/validation.rs`: the JSON pointers that name redacted members,
their codec, and the test for sensitive keys.

* `decodePointer_encodePointer`: decoding gives back the segments that were encoded.
* `encodePointer_decodePointer`: encoding gives back the text that was decoded.
* `not_isSensitiveKey_toString`, `parseUsize_of_isSensitiveKey`: a sequence index is never
  a sensitive key, and a sensitive key is never a sequence index.
-/

namespace DshNexus.Snapshot

def MAX_REDACTED_PATHS : Nat := 1024
def MAX_REDACTED_PATH_BYTES : Nat := 512

/-! ## Sensitive keys -/

def sensitiveNames : List String :=
  ["apikey", "apitoken", "token", "authtoken", "accesstoken", "refreshtoken", "password",
    "passphrase", "secret", "secretkey", "clientsecret", "privatekey"]

def isSensitiveKey (key : String) : Bool :=
  sensitiveNames.contains (String.ofList ((key.toList.filter Char.isAlphanum).map Char.toLower))

/-- `str::parse::<usize>`: decimal digits after at most one plus sign, below `2 ^ 64`. -/
def parseUsize (text : String) : Option Nat :=
  let digits := match text.toList with
    | '+' :: rest => rest
    | all => all
  if digits ≠ [] ∧ digits.all Char.isDigit = true ∧ Nat.ofDigitChars 10 digits 0 < 2 ^ 64 then
    some (Nat.ofDigitChars 10 digits 0)
  else none

theorem toLower_of_isDigit {c : Char} (h : c.isDigit = true) : c.toLower = c := by
  rw [Char.toLower, dif_neg]
  rintro ⟨hlow, -⟩
  rw [Char.isDigit, Bool.and_eq_true, decide_eq_true_eq, decide_eq_true_eq] at h
  exact absurd (UInt32.le_trans hlow h.2) (by decide)

theorem exists_letter_of_isSensitiveKey {key : String} (h : isSensitiveKey key = true) :
    ∃ c ∈ key.toList, c.isDigit = false ∧ c ≠ '+' := by
  have hletters : (sensitiveNames.all fun name => name.toList.any fun d => !d.isDigit) = true := by
    decide +kernel
  rw [isSensitiveKey, List.contains_iff_mem] at h
  obtain ⟨d, hd, hdigit⟩ := List.any_eq_true.mp (List.all_eq_true.mp hletters _ h)
  rw [Bool.not_eq_true'] at hdigit
  rw [String.toList_ofList, List.mem_map] at hd
  obtain ⟨c, hc, rfl⟩ := hd
  obtain ⟨hmem, halnum⟩ := List.mem_filter.mp hc
  refine ⟨c, hmem, ?_, ?_⟩
  · by_contra hcd
    rw [Bool.not_eq_false] at hcd
    rw [toLower_of_isDigit hcd, hcd] at hdigit
    exact absurd hdigit (by simp)
  · rintro rfl
    exact absurd halnum (by decide)

theorem parseUsize_of_isSensitiveKey {key : String} (h : isSensitiveKey key = true) :
    parseUsize key = none := by
  obtain ⟨c, hc, hdigit, hplus⟩ := exists_letter_of_isSensitiveKey h
  unfold parseUsize
  rw [if_neg]
  rintro ⟨-, hall, -⟩
  rw [List.all_eq_true] at hall
  have hmem : c ∈ (match key.toList with | '+' :: rest => rest | all => all) := by
    split
    · next rest heq =>
      rw [heq] at hc
      exact (List.mem_cons.mp hc).resolve_left hplus
    · exact hc
  rw [hall c hmem] at hdigit
  exact absurd hdigit (by simp)

theorem toList_toString (n : Nat) : (toString n).toList = Nat.toDigits 10 n :=
  Nat.toList_repr

theorem not_isSensitiveKey_toString (n : Nat) : isSensitiveKey (toString n) = false := by
  by_contra h
  rw [Bool.not_eq_false] at h
  obtain ⟨c, hc, hdigit, -⟩ := exists_letter_of_isSensitiveKey h
  rw [toList_toString] at hc
  rw [Nat.isDigit_of_mem_toDigits (by decide) (by decide) hc] at hdigit
  exact absurd hdigit (by simp)

theorem parseUsize_toString (n : Nat) :
    parseUsize (toString n) = if n < 2 ^ 64 then some n else none := by
  have hplus : '+' ∉ Nat.toDigits 10 n := fun hmem =>
    absurd (Nat.isDigit_of_mem_toDigits (by decide) (by decide) hmem) (by decide)
  have hdigits : (match (toString n).toList with | '+' :: rest => rest | all => all) =
      Nat.toDigits 10 n := by
    rw [toList_toString]
    split
    · next rest heq => exact absurd (heq ▸ List.mem_cons_self ..) hplus
    · rfl
  have hall : (Nat.toDigits 10 n).all Char.isDigit = true :=
    List.all_eq_true.mpr fun c hc => Nat.isDigit_of_mem_toDigits (by decide) (by decide) hc
  unfold parseUsize
  simp only [hdigits, Nat.ofDigitChars_ten_toDigits, hall, Nat.toDigits_ne_nil, true_and, ne_eq,
    not_false_eq_true]

theorem eq_of_parseUsize_toString {n m : Nat} (h : parseUsize (toString n) = some m) : m = n := by
  rw [parseUsize_toString] at h
  split at h
  · exact (Option.some.inj h).symm
  · cases h

/-! ## The pointer codec -/

/-- `str::replace` of one character. -/
def replaceChar (c : Char) (text : List Char) (segment : List Char) : List Char :=
  segment.flatMap fun d => if d = c then text else [d]

def escapeSegment (segment : String) : List Char :=
  replaceChar '/' ['~', '1'] (replaceChar '~' ['~', '0'] segment.toList)

def encodePointer (path : List String) : String :=
  String.ofList (path.flatMap fun segment => '/' :: escapeSegment segment)

def validateRedactedPath (pointer : String) : Except SnapshotError Unit :=
  if pointer.isEmpty ∨ pointer.toList.head? ≠ some '/' ∨
      pointer.utf8ByteSize > MAX_REDACTED_PATH_BYTES ∨ pointer.toList.any isControl = true then
    .error (.invalidManifest ("invalid redacted path: " ++ pointer))
  else .ok ()

def unescapeSegment (pointer : String) : List Char → Except SnapshotError (List Char)
  | [] => .ok []
  | '~' :: '0' :: rest => ('~' :: ·) <$> unescapeSegment pointer rest
  | '~' :: '1' :: rest => ('/' :: ·) <$> unescapeSegment pointer rest
  | '~' :: _ => .error (.invalidManifest ("invalid JSON pointer escape in " ++ pointer))
  | c :: rest => (c :: ·) <$> unescapeSegment pointer rest

def decodePointer (pointer : String) : Except SnapshotError (List String) := do
  validateRedactedPath pointer
  (pointer.toList.tail.splitOn '/').mapM fun segment =>
    String.ofList <$> unescapeSegment pointer segment

theorem escape_cons (c : Char) (segment : List Char) :
    replaceChar '/' ['~', '1'] (replaceChar '~' ['~', '0'] (c :: segment)) =
      (if c = '~' then ['~', '0'] else if c = '/' then ['~', '1'] else [c]) ++
        replaceChar '/' ['~', '1'] (replaceChar '~' ['~', '0'] segment) := by
  unfold replaceChar
  rw [List.flatMap_cons, List.flatMap_append]
  by_cases htilde : c = '~'
  · rw [if_pos htilde, if_pos htilde]
    rfl
  · rw [if_neg htilde, if_neg htilde, List.flatMap_singleton]

theorem unescapeSegment_escape (pointer : String) (segment : List Char) :
    unescapeSegment pointer
      (replaceChar '/' ['~', '1'] (replaceChar '~' ['~', '0'] segment)) = .ok segment := by
  induction segment with
  | nil => rfl
  | cons c segment ih =>
    rw [escape_cons]
    by_cases htilde : c = '~'
    · rw [if_pos htilde, List.cons_append, List.cons_append, List.nil_append, unescapeSegment, ih,
        htilde]
      rfl
    · rw [if_neg htilde]
      by_cases hslash : c = '/'
      · rw [if_pos hslash, List.cons_append, List.cons_append, List.nil_append, unescapeSegment,
          ih, hslash]
        rfl
      · rw [if_neg hslash, List.cons_append, List.nil_append, unescapeSegment, ih]
        · rfl
        · exact fun _ e _ => htilde e
        · exact fun _ e _ => htilde e
        · exact htilde

theorem slash_notMem_escapeSegment (segment : String) : '/' ∉ escapeSegment segment := by
  unfold escapeSegment
  generalize segment.toList = chars
  induction chars with
  | nil => exact List.not_mem_nil
  | cons c chars ih =>
    rw [escape_cons, List.mem_append, not_or]
    refine ⟨?_, ih⟩
    split
    · decide
    · split
      · decide
      · next hslash => simpa using fun h : '/' = c => hslash h.symm

theorem flatMap_slash {segment : String} {path : List String} :
    (segment :: path).flatMap (fun s => '/' :: escapeSegment s) =
      '/' :: List.intercalate ['/'] ((segment :: path).map escapeSegment) := by
  induction path generalizing segment with
  | nil => simp [List.intercalate]
  | cons t path ih =>
    rw [List.flatMap_cons, ih, List.map_cons, List.map_cons, List.map_cons,
      List.intercalate_cons_cons]
    simp

theorem mapM_unescapeSegment (pointer : String) (path : List String) :
    (path.map escapeSegment).mapM (fun segment =>
      String.ofList <$> unescapeSegment pointer segment) = Except.ok path := by
  induction path with
  | nil => rfl
  | cons s path ih =>
    rw [List.map_cons, List.mapM_cons, ih, escapeSegment, unescapeSegment_escape]
    show Except.ok (String.ofList s.toList :: path) = _
    rw [String.ofList_toList]

/-- **Decoding gives back the encoded segments** of every pointer that passes the check. -/
theorem decodePointer_encodePointer {path : List String} (hne : path ≠ [])
    (hvalid : validateRedactedPath (encodePointer path) = .ok ()) :
    decodePointer (encodePointer path) = .ok path := by
  obtain ⟨segment, rest, rfl⟩ := List.exists_cons_of_ne_nil hne
  have hsplit : (encodePointer (segment :: rest)).toList.tail.splitOn '/' =
      (segment :: rest).map escapeSegment := by
    rw [encodePointer, String.toList_ofList, flatMap_slash, List.tail_cons]
    refine List.splitOn_intercalate _ ?_ (by simp)
    rintro l hl
    obtain ⟨s, -, rfl⟩ := List.mem_map.mp hl
    exact slash_notMem_escapeSegment s
  rw [decodePointer, hvalid, hsplit]
  exact mapM_unescapeSegment _ _

theorem validateRedactedPath_of_decodePointer {pointer : String} {path : List String}
    (h : decodePointer pointer = .ok path) : validateRedactedPath pointer = .ok () := by
  unfold decodePointer at h
  cases hv : validateRedactedPath pointer with
  | ok u => rfl
  | error e => rw [hv] at h; exact nomatch h

theorem of_map_eq_ok {ε α β : Type} {f : α → β} {x : Except ε α} {b : β}
    (h : f <$> x = .ok b) : ∃ a, x = .ok a ∧ b = f a := by
  cases x with
  | ok a => exact ⟨a, rfl, (Except.ok.inj h).symm⟩
  | error e => cases h

/-- **Unescaping loses nothing**: a segment that was unescaped is the escaped form of the result. -/
theorem escape_of_unescapeSegment {pointer : String} {segment : List Char} :
    ∀ {chars : List Char}, '/' ∉ segment → unescapeSegment pointer segment = .ok chars →
      replaceChar '/' ['~', '1'] (replaceChar '~' ['~', '0'] chars) = segment := by
  fun_induction unescapeSegment pointer segment with
  | case1 =>
    intro chars _ h
    cases h
    rfl
  | case2 rest ih =>
    intro chars hslash h
    obtain ⟨inner, hinner, rfl⟩ := of_map_eq_ok h
    have hrest : '/' ∉ rest := fun hmem => hslash (by simp [hmem])
    rw [escape_cons, if_pos rfl, ih hrest hinner]
    rfl
  | case3 rest ih =>
    intro chars hslash h
    obtain ⟨inner, hinner, rfl⟩ := of_map_eq_ok h
    have hrest : '/' ∉ rest := fun hmem => hslash (by simp [hmem])
    rw [escape_cons, if_neg (by decide), if_pos rfl, ih hrest hinner]
    rfl
  | case4 rest h₀ h₁ =>
    intro chars _ h
    cases h
  | case5 c rest h₀ h₁ htilde ih =>
    intro chars hslash h
    obtain ⟨inner, hinner, rfl⟩ := of_map_eq_ok h
    rw [List.mem_cons, not_or] at hslash
    rw [escape_cons, if_neg htilde, if_neg fun hc => hslash.1 hc.symm, ih hslash.2 hinner]
    rfl

theorem notMem_of_mem_splitOn {c : Char} {text part : List Char} (h : part ∈ text.splitOn c) :
    c ∉ part := by
  induction text generalizing part with
  | nil =>
    rw [List.splitOn_nil, List.mem_singleton] at h
    rw [h]
    exact List.not_mem_nil
  | cons d text ih =>
    rw [List.splitOn_cons_eq_if_modifyHead] at h
    by_cases hd : d = c
    · rw [if_pos (beq_iff_eq.mpr hd)] at h
      rcases List.mem_cons.mp h with rfl | h
      · exact List.not_mem_nil
      · exact ih h
    · rw [if_neg fun heq => hd (beq_iff_eq.mp heq)] at h
      obtain ⟨first, rest, hsplit⟩ := List.exists_cons_of_ne_nil (List.splitOn_ne_nil c text)
      rw [hsplit, List.modifyHead_cons] at h
      rw [hsplit] at ih
      rcases List.mem_cons.mp h with rfl | h
      · rw [List.mem_cons, not_or]
        exact ⟨fun heq => hd heq.symm, ih List.mem_cons_self⟩
      · exact ih (List.mem_cons_of_mem _ h)

theorem map_escapeSegment_of_mapM {pointer : String} {parts : List (List Char)}
    {path : List String} (hparts : ∀ part ∈ parts, '/' ∉ part)
    (h : parts.mapM (fun segment => String.ofList <$> unescapeSegment pointer segment) = .ok path) :
    path.map escapeSegment = parts := by
  induction parts generalizing path with
  | nil =>
    cases h
    rfl
  | cons part parts ih =>
    rw [List.mapM_cons] at h
    obtain ⟨segment, hsegment, h⟩ := bind_eq_ok h
    obtain ⟨rest, hrest, h⟩ := bind_eq_ok h
    cases h
    obtain ⟨chars, hchars, rfl⟩ := of_map_eq_ok hsegment
    rw [List.map_cons, ih (fun p hp => hparts p (List.mem_cons_of_mem _ hp)) hrest, escapeSegment,
      String.toList_ofList, escape_of_unescapeSegment (hparts part List.mem_cons_self) hchars]

/-- **Encoding gives back every pointer that was decoded.** -/
theorem encodePointer_decodePointer {pointer : String} {path : List String}
    (h : decodePointer pointer = .ok path) : encodePointer path = pointer := by
  obtain ⟨⟨⟩, hvalid, h⟩ := bind_eq_ok h
  have hparts : ∀ part ∈ pointer.toList.tail.splitOn '/', '/' ∉ part :=
    fun part hpart => notMem_of_mem_splitOn hpart
  have hescaped := map_escapeSegment_of_mapM hparts h
  have hslash : pointer.toList = '/' :: pointer.toList.tail := by
    unfold validateRedactedPath at hvalid
    split at hvalid
    · cases hvalid
    · next hnot =>
      have hhead : pointer.toList.head? = some '/' := by
        by_contra hne
        exact hnot (Or.inr (Or.inl hne))
      exact (List.cons_head?_tail (Option.mem_def.mpr hhead)).symm
  have hne : path ≠ [] := by
    rintro rfl
    exact List.splitOn_ne_nil '/' pointer.toList.tail hescaped.symm
  obtain ⟨segment, rest, rfl⟩ := List.exists_cons_of_ne_nil hne
  refine String.toList_injective ?_
  rw [encodePointer, String.toList_ofList, flatMap_slash, hescaped, List.intercalate_splitOn]
  exact hslash.symm

/-- **The codec of pointers is exact.** -/
theorem pointer_codec_exact :
    (∀ path : List String, path ≠ [] → validateRedactedPath (encodePointer path) = .ok () →
      decodePointer (encodePointer path) = .ok path) ∧
    ∀ (pointer : String) (path : List String), decodePointer pointer = .ok path →
      encodePointer path = pointer :=
  ⟨fun _ hne hvalid => decodePointer_encodePointer hne hvalid,
    fun _ _ h => encodePointer_decodePointer h⟩

/-- Segments with both escaped characters, and an empty one. -/
theorem pointer_codec_sample :
    decodePointer (encodePointer ["~1", "", "a/b"]) = .ok ["~1", "", "a/b"] ∧
      encodePointer ["~1", "", "a/b"] = "/~01//a~1b" :=
  ⟨pointer_codec_exact.1 _ (by simp) (by decide +kernel),
    pointer_codec_exact.2 "/~01//a~1b" _ (by decide +kernel)⟩

end DshNexus.Snapshot
