import Mathlib

/-!
# UTF-8

Texts as lists of characters, and their bytes.

* `encode`: the bytes of a text; `decode`: `std::str::from_utf8`; `decodeLossy`:
  `String::from_utf8_lossy`, which puts one replacement character for each maximal part that
  begins no character.
* `decode_encode`, `decodeLossy_encode`: the bytes of a text are read back.
* `toList_toUTF8`: the bytes of a `String`.
* `byteLength`, `sliceFrom`: the length in bytes, and `&text[start..]`, which fails inside a
  character.
* `sliceFrom_eq_some`: what a slice leaves out has the length `start`.
* `sliceFrom_eq_none`: a slice fails exactly where a character lies across `start`.
-/

namespace DshNexus.Utf8

def encode (text : List Char) : List UInt8 := text.flatMap String.utf8EncodeChar

/-- The character that the bytes begin with. -/
def decodeFirst (bytes : List UInt8) : Option Char := bytes.toByteArray.utf8DecodeChar? 0

theorem decodeFirst_append (c : Char) (rest : List UInt8) :
    decodeFirst (String.utf8EncodeChar c ++ rest) = some c := by
  rw [decodeFirst, List.toByteArray_append, ByteArray.utf8DecodeChar?_utf8EncodeChar_append]

/-- `std::str::from_utf8`, with at most `fuel` characters. -/
def decodeFuel : Nat → List UInt8 → Option (List Char)
  | _, [] => some []
  | 0, _ :: _ => none
  | fuel + 1, byte :: bytes =>
      match decodeFirst (byte :: bytes) with
      | none => none
      | some c => (decodeFuel fuel ((byte :: bytes).drop c.utf8Size)).map (c :: ·)

/-- `std::str::from_utf8`.  Every character takes a byte at least. -/
def decode (bytes : List UInt8) : Option (List Char) := decodeFuel bytes.length bytes

/-- A byte that may follow the first byte of a character. -/
def isContinuation (byte : UInt8) : Bool := 0x80 ≤ byte && byte ≤ 0xbf

/-- The second byte of a character of three or four bytes, after its first one. -/
def isSecond (first second : UInt8) : Bool :=
  if first = 0xe0 then 0xa0 ≤ second && second ≤ 0xbf
  else if first = 0xed then 0x80 ≤ second && second ≤ 0x9f
  else if first = 0xf0 then 0x90 ≤ second && second ≤ 0xbf
  else if first = 0xf4 then 0x80 ≤ second && second ≤ 0x8f
  else isContinuation second

/-- The number of bytes that one replacement character stands for, where no character begins:
the first byte, and those after it that could have gone on. -/
def invalidLength : List UInt8 → Nat
  | first :: second :: rest =>
      if 0xe0 ≤ first && first ≤ 0xef && isSecond first second then 2
      else if 0xf0 ≤ first && first ≤ 0xf4 && isSecond first second then
        match rest with
        | third :: _ => if isContinuation third then 3 else 2
        | [] => 2
      else 1
  | _ => 1

def REPLACEMENT_CHARACTER : Char := Char.ofNat 0xfffd

def decodeLossyFuel : Nat → List UInt8 → List Char
  | _, [] => []
  | 0, _ :: _ => []
  | fuel + 1, byte :: bytes =>
      match decodeFirst (byte :: bytes) with
      | none =>
          REPLACEMENT_CHARACTER ::
            decodeLossyFuel fuel ((byte :: bytes).drop (invalidLength (byte :: bytes)))
      | some c => c :: decodeLossyFuel fuel ((byte :: bytes).drop c.utf8Size)

/-- `String::from_utf8_lossy`.  Every step takes a byte at least. -/
def decodeLossy (bytes : List UInt8) : List Char := decodeLossyFuel bytes.length bytes

def byteLength (text : List Char) : Nat := (text.map Char.utf8Size).sum

@[simp] theorem byteLength_nil : byteLength [] = 0 := rfl

@[simp] theorem byteLength_cons (c : Char) (text : List Char) :
    byteLength (c :: text) = c.utf8Size + byteLength text := by
  simp [byteLength]

@[simp] theorem byteLength_append (left right : List Char) :
    byteLength (left ++ right) = byteLength left + byteLength right := by
  simp [byteLength]

theorem length_encode (text : List Char) : (encode text).length = byteLength text := by
  simp [encode, byteLength, List.length_flatMap, String.length_utf8EncodeChar]

theorem encode_cons (c : Char) (text : List Char) :
    encode (c :: text) = String.utf8EncodeChar c ++ encode text := by
  simp [encode]

/-- A text goes on after the bytes of its first character. -/
theorem encode_cons_step (c : Char) (text : List Char) :
    decodeFirst (encode (c :: text)) = some c ∧
      (encode (c :: text)).drop c.utf8Size = encode text ∧ encode (c :: text) ≠ [] := by
  rw [encode_cons]
  refine ⟨decodeFirst_append c _, ?_, ?_⟩
  · rw [← String.length_utf8EncodeChar, List.drop_left]
  · intro h
    have hlength := congrArg List.length h
    rw [List.length_append, String.length_utf8EncodeChar, List.length_nil] at hlength
    have hpos := c.utf8Size_pos
    omega

theorem decodeFuel_encode (text : List Char) :
    ∀ fuel, byteLength text ≤ fuel → decodeFuel fuel (encode text) = some text := by
  induction text with
  | nil =>
    intro fuel _
    show decodeFuel fuel [] = some []
    cases fuel <;> rfl
  | cons c text ih =>
    intro fuel hfuel
    obtain ⟨hfirst, hrest, hne⟩ := encode_cons_step c text
    have hpos := c.utf8Size_pos
    rw [byteLength_cons] at hfuel
    cases fuel with
    | zero => omega
    | succ fuel =>
      cases hbytes : encode (c :: text) with
      | nil => exact absurd hbytes hne
      | cons byte bytes =>
        rw [hbytes] at hfirst hrest
        rw [decodeFuel, hfirst]
        show (decodeFuel fuel ((byte :: bytes).drop c.utf8Size)).map (c :: ·) = _
        rw [hrest, ih fuel (by omega)]
        rfl

/-- The bytes of a text are read back. -/
theorem decode_encode (text : List Char) : decode (encode text) = some text :=
  decodeFuel_encode text _ (by rw [length_encode])

/-- The bytes that begin with a character. -/
theorem eq_append_of_decodeFirst {bytes : List UInt8} {c : Char} (h : decodeFirst bytes = some c) :
    bytes = String.utf8EncodeChar c ++ bytes.drop c.utf8Size := by
  obtain ⟨rest, hrest⟩ := ByteArray.exists_of_utf8DecodeChar?_eq_some h
  have hlist := congrArg (fun b : ByteArray => b.data.toList) hrest
  simp at hlist
  conv_rhs => rw [hlist, ← String.length_utf8EncodeChar, List.drop_left]
  exact hlist

/-- What was read is what is there. -/
theorem encode_of_decodeFuel {text : List Char} :
    ∀ {fuel : Nat} {bytes : List UInt8}, decodeFuel fuel bytes = some text →
      encode text = bytes := by
  induction text with
  | nil =>
    intro fuel bytes h
    rcases bytes with _ | ⟨byte, bytes⟩
    · rfl
    · rcases fuel with _ | fuel
      · cases h
      · rw [decodeFuel] at h
        rcases hfirst : decodeFirst (byte :: bytes) with _ | c
        · rw [hfirst] at h
          cases h
        · rw [hfirst] at h
          simp at h
  | cons c text ih =>
    intro fuel bytes h
    rcases bytes with _ | ⟨byte, bytes⟩
    · cases fuel <;> cases h
    · rcases fuel with _ | fuel
      · cases h
      · rw [decodeFuel] at h
        rcases hfirst : decodeFirst (byte :: bytes) with _ | d
        · rw [hfirst] at h
          cases h
        · rw [hfirst] at h
          obtain ⟨rest, hrest, heq⟩ := Option.map_eq_some_iff.mp h
          obtain ⟨rfl, rfl⟩ := List.cons.inj heq
          rw [encode_cons, ih hrest]
          exact (eq_append_of_decodeFirst hfirst).symm

theorem encode_of_decode {text : List Char} {bytes : List UInt8} (h : decode bytes = some text) :
    encode text = bytes :=
  encode_of_decodeFuel h

theorem decodeLossyFuel_encode (text : List Char) :
    ∀ fuel, byteLength text ≤ fuel → decodeLossyFuel fuel (encode text) = text := by
  induction text with
  | nil =>
    intro fuel _
    show decodeLossyFuel fuel [] = []
    cases fuel <;> rfl
  | cons c text ih =>
    intro fuel hfuel
    obtain ⟨hfirst, hrest, hne⟩ := encode_cons_step c text
    have hpos := c.utf8Size_pos
    rw [byteLength_cons] at hfuel
    cases fuel with
    | zero => omega
    | succ fuel =>
      cases hbytes : encode (c :: text) with
      | nil => exact absurd hbytes hne
      | cons byte bytes =>
        rw [hbytes] at hfirst hrest
        rw [decodeLossyFuel, hfirst]
        show c :: decodeLossyFuel fuel ((byte :: bytes).drop c.utf8Size) = _
        rw [hrest, ih fuel (by omega)]

/-- The bytes of a text need no replacement. -/
theorem decodeLossy_encode (text : List Char) : decodeLossy (encode text) = text :=
  decodeLossyFuel_encode text _ (by rw [length_encode])

/-! ## Slices -/

/-- `&text[start..]`: no text where `start` is inside a character, or behind the end. -/
def sliceFrom : List Char → Nat → Option (List Char)
  | text, 0 => some text
  | [], _ + 1 => none
  | c :: text, start + 1 =>
      if start + 1 < c.utf8Size then none else sliceFrom text (start + 1 - c.utf8Size)

theorem sliceFrom_zero (text : List Char) : sliceFrom text 0 = some text := by
  cases text <;> rfl

/-- A slice leaves out the bytes before its start. -/
theorem sliceFrom_eq_some {text rest : List Char} {start : Nat} :
    sliceFrom text start = some rest ↔
      ∃ before, text = before ++ rest ∧ byteLength before = start := by
  induction text generalizing start with
  | nil =>
    cases start with
    | zero =>
      rw [sliceFrom_zero, Option.some_inj]
      constructor
      · rintro rfl
        exact ⟨[], rfl, rfl⟩
      · rintro ⟨before, htext, _⟩
        exact (List.append_eq_nil_iff.mp htext.symm).2.symm
    | succ start =>
      refine iff_of_false (by simp [sliceFrom]) ?_
      rintro ⟨before, htext, hlength⟩
      rw [(List.append_eq_nil_iff.mp htext.symm).1, byteLength_nil] at hlength
      omega
  | cons c text ih =>
    have hpos := c.utf8Size_pos
    cases start with
    | zero =>
      rw [sliceFrom_zero, Option.some_inj]
      constructor
      · rintro rfl
        exact ⟨[], rfl, rfl⟩
      · rintro ⟨before, htext, hlength⟩
        cases before with
        | nil => exact htext
        | cons d before =>
          rw [byteLength_cons] at hlength
          have hd := d.utf8Size_pos
          omega
    | succ start =>
      rw [sliceFrom]
      by_cases hinside : start + 1 < c.utf8Size
      · rw [if_pos hinside]
        refine iff_of_false (by simp) ?_
        rintro ⟨before, htext, hlength⟩
        cases before with
        | nil => cases hlength
        | cons d before =>
          obtain ⟨rfl, _⟩ := List.cons.inj htext
          rw [byteLength_cons] at hlength
          omega
      · rw [if_neg hinside, ih]
        constructor
        · rintro ⟨before, rfl, hlength⟩
          refine ⟨c :: before, rfl, ?_⟩
          rw [byteLength_cons]
          omega
        · rintro ⟨before, htext, hlength⟩
          cases before with
          | nil => cases hlength
          | cons d before =>
            obtain ⟨rfl, hrest⟩ := List.cons.inj htext
            rw [byteLength_cons] at hlength
            exact ⟨before, hrest, by omega⟩

/-- A slice within the text fails exactly where a character lies across its start. -/
theorem sliceFrom_eq_none {text : List Char} {start : Nat} (hstart : start ≤ byteLength text) :
    sliceFrom text start = none ↔ ∃ before c rest, text = before ++ c :: rest ∧
      byteLength before < start ∧ start < byteLength before + c.utf8Size := by
  induction text generalizing start with
  | nil =>
    obtain rfl : start = 0 := by rw [byteLength_nil] at hstart; omega
    refine iff_of_false (by simp [sliceFrom]) ?_
    rintro ⟨before, c, rest, htext, _⟩
    simp at htext
  | cons c text ih =>
    have hpos := c.utf8Size_pos
    rw [byteLength_cons] at hstart
    cases start with
    | zero =>
      refine iff_of_false (by simp [sliceFrom]) ?_
      rintro ⟨before, d, rest, _, hbefore, _⟩
      omega
    | succ start =>
      rw [sliceFrom]
      by_cases hinside : start + 1 < c.utf8Size
      · rw [if_pos hinside]
        refine iff_of_true rfl ⟨[], c, text, rfl, ?_, ?_⟩
        · rw [byteLength_nil]
          omega
        · rw [byteLength_nil]
          omega
      · rw [if_neg hinside, ih (by omega)]
        constructor
        · rintro ⟨before, d, rest, rfl, hbefore, hafter⟩
          refine ⟨c :: before, d, rest, rfl, ?_, ?_⟩ <;> rw [byteLength_cons] <;> omega
        · rintro ⟨before, d, rest, htext, hbefore, hafter⟩
          cases before with
          | nil =>
            obtain ⟨rfl, _⟩ := List.cons.inj htext
            rw [byteLength_nil] at hafter
            omega
          | cons e before =>
            obtain ⟨rfl, hrest⟩ := List.cons.inj htext
            rw [byteLength_cons] at hbefore hafter
            exact ⟨before, d, rest, hrest, by omega, by omega⟩

/-! ## Strings -/

theorem loop_toList (bytes : ByteArray) : ∀ n i r, bytes.size - i = n →
    ByteArray.toList.loop bytes i r = r.reverse ++ bytes.data.toList.drop i := by
  intro n
  induction n with
  | zero =>
    intro i r hn
    have hsize : bytes.data.toList.length ≤ i := by
      rw [Array.length_toList]
      show bytes.size ≤ i
      omega
    rw [ByteArray.toList.loop, if_neg (by omega), List.drop_eq_nil_of_le hsize, List.append_nil]
  | succ n ih =>
    intro i r hn
    have hi : i < bytes.size := by omega
    have hdrop : bytes.data.toList.drop i = bytes.get! i :: bytes.data.toList.drop (i + 1) := by
      have hlength : i < bytes.data.toList.length := by
        rw [Array.length_toList]
        exact hi
      rw [List.drop_eq_getElem_cons hlength]
      congr 1
      show _ = bytes.data[i]!
      rw [getElem!_pos bytes.data i hi, Array.getElem_toList]
    rw [ByteArray.toList.loop, if_pos hi, ih (i + 1) _ (by omega), hdrop]
    simp

theorem toList_toUTF8 (text : String) : text.toUTF8.toList = encode text.toList := by
  have hlist : text.toUTF8.toList = text.toUTF8.data.toList := by
    rw [ByteArray.toList, loop_toList _ _ 0 [] rfl]
    simp
  rw [hlist, String.toUTF8_eq_toByteArray, ← String.utf8Encode_toList]
  show (List.utf8Encode text.toList).data.toList = _
  rw [List.utf8Encode, List.toList_data_toByteArray, encode]

theorem toList_toUTF8_injective {text text' : String}
    (h : text.toUTF8.toList = text'.toUTF8.toList) : text = text' := by
  rw [toList_toUTF8, toList_toUTF8] at h
  have hlist : text.toList = text'.toList := by
    rw [← decodeLossy_encode text.toList, h, decodeLossy_encode]
  exact String.toList_inj.mp hlist

end DshNexus.Utf8
