import DshNexus.Core.Integer

/-!
# Words and numbers of a text

* `wordsOf`: the nonempty parts of a list between its separators, as `str::split_whitespace`
  takes them; `wordsOf_flatMap_cons` reads back words that each follow a separator.
* `parseUnsigned`, `parseSigned`: `str::parse` of an integer type; `parseUnsigned_toDigits` and
  `parseSigned_signedDigits` read back what was written in decimal.
-/

namespace DshNexus

/-! ## Words -/

section Words

variable {α : Type}

/-- The nonempty parts between separators. -/
def wordsOf (space : α → Bool) (text : List α) : List (List α) :=
  (text.splitOnP space).filter fun word => !word.isEmpty

variable {space : α → Bool}

theorem wordsOf_nil : wordsOf space ([] : List α) = [] := by
  simp [wordsOf]

/-- A separator in front makes no word. -/
theorem wordsOf_cons {c : α} (hc : space c = true) (text : List α) :
    wordsOf space (c :: text) = wordsOf space text := by
  rw [wordsOf, List.splitOnP_cons_eq_if_modifyHead, if_pos hc, List.filter_cons_of_neg (by simp)]
  rfl

/-- A word ends at the first separator. -/
theorem wordsOf_append_cons {word : List α} (hne : word ≠ []) (hword : ∀ c ∈ word, space c = false)
    {c : α} (hc : space c = true) (text : List α) :
    wordsOf space (word ++ c :: text) = word :: wordsOf space text := by
  have hsplit : (word ++ c :: text).splitOnP space = word :: text.splitOnP space := by
    clear hne
    induction word with
    | nil => rw [List.nil_append, List.splitOnP_cons_eq_if_modifyHead, if_pos hc]
    | cons d word ih =>
      rw [List.forall_mem_cons] at hword
      rw [List.cons_append, List.splitOnP_cons_eq_if_modifyHead, hword.1, ih hword.2]
      rfl
  rw [wordsOf, hsplit, List.filter_cons_of_pos (by simpa using hne)]
  rfl

/-- **Words that each follow a separator are read back**, with a separator at the end. -/
theorem wordsOf_flatMap_cons {words : List (List α)} {c d : α} (hc : space c = true)
    (hd : space d = true) (hwords : ∀ word ∈ words, word ≠ [] ∧ ∀ e ∈ word, space e = false) :
    wordsOf space (words.flatMap (c :: ·) ++ [d]) = words := by
  induction words with
  | nil => rw [List.flatMap_nil, List.nil_append, wordsOf_cons hd, wordsOf_nil]
  | cons word words ih =>
    obtain ⟨⟨hne, hword⟩, hrest⟩ := List.forall_mem_cons.mp hwords
    rw [List.flatMap_cons, List.append_assoc, List.cons_append, wordsOf_cons hc]
    -- the next word, or the end, begins with a separator
    rcases words with _ | ⟨next, words⟩
    · rw [List.flatMap_nil, List.nil_append, wordsOf_append_cons hne hword hd, wordsOf_nil]
    · rw [List.flatMap_cons, List.append_assoc, List.cons_append,
        wordsOf_append_cons hne hword hc, ← wordsOf_cons hc, ← List.cons_append,
        ← List.append_assoc]
      congr 1
      exact ih hrest

end Words

/-! ## Numbers -/

/-- `parse` of an unsigned integer with the given maximum: an optional plus sign, then digits. -/
def parseUnsigned (max : Nat) (text : List Char) : Option Nat :=
  let digits := if text.head? = some '+' then text.tail else text
  if digits = [] ∨ digits.all Char.isDigit = false ∨ digitsValue digits > max then none
  else some (digitsValue digits)

/-- `parse` of a signed integer of the given width. -/
def parseSigned (width : Nat) (text : List Char) : Option Int :=
  if text.head? = some '-' then
    if text.tail = [] ∨ text.tail.all Char.isDigit = false ∨
        digitsValue text.tail > 2 ^ (width - 1) then none
    else some (-(digitsValue text.tail : Int))
  else (parseUnsigned (2 ^ (width - 1) - 1) text).map Int.ofNat

def signedDigits : Int → List Char
  | .ofNat n => Nat.toDigits 10 n
  | .negSucc n => '-' :: Nat.toDigits 10 (n + 1)

section Numbers

theorem isDigit_of_mem_toDigits {n : Nat} {c : Char} (h : c ∈ Nat.toDigits 10 n) :
    c.isDigit = true := Nat.isDigit_of_mem_toDigits (by omega) (by omega) h

theorem all_isDigit_toDigits (n : Nat) : (Nat.toDigits 10 n).all Char.isDigit = true := by
  rw [List.all_eq_true]
  intro c hc
  exact isDigit_of_mem_toDigits hc

theorem digitsValue_toDigits (n : Nat) : digitsValue (Nat.toDigits 10 n) = n := by
  have hvalue : digitsValue (Nat.toDigits 10 n) = Nat.ofDigitChars 10 (Nat.toDigits 10 n) 0 := by
    rw [digitsValue, Nat.ofDigitChars_eq_foldl]
    simp only [Nat.mul_comm]
  rw [hvalue, Nat.ofDigitChars_ten_toDigits]

/-- A text of digits has one byte for each. -/
theorem utf8ByteSize_of_digits {cs : List Char} (h : ∀ c ∈ cs, c.isDigit = true) :
    (String.ofList cs).utf8ByteSize = cs.length := by
  induction cs with
  | nil => rfl
  | cons c cs ih =>
    have hc : c.utf8Size = 1 := by
      have hdigit := h c List.mem_cons_self
      simp only [Char.isDigit, Bool.and_eq_true, decide_eq_true_eq] at hdigit
      rw [Char.utf8Size_eq_one_iff, UInt32.le_iff_toNat_le]
      exact (UInt32.le_iff_toNat_le.mp hdigit.2).trans (by decide)
    rw [String.ofList_cons, String.utf8ByteSize_append, String.utf8ByteSize_singleton, hc,
      ih fun c hc => h c (List.mem_cons_of_mem _ hc), List.length_cons]
    omega

/-- The text of a number. -/
theorem number_spec (n digits : Nat) (hpos : 0 < digits) (h : n < 10 ^ digits) :
    (toString n).utf8ByteSize ≤ digits ∧
      ∀ c ∈ (toString n).toList, (c.isAlphanum || c = '-') = true := by
  have htext : toString n = String.ofList (Nat.toDigits 10 n) := rfl
  have hdigits : ∀ c ∈ Nat.toDigits 10 n, c.isDigit = true :=
    fun c hc => Nat.isDigit_of_mem_toDigits (by omega) (by omega) hc
  rw [htext, utf8ByteSize_of_digits hdigits, String.toList_ofList]
  refine ⟨(Nat.length_toDigits_le_iff (by omega) hpos).mpr h, fun c hc => ?_⟩
  rw [Char.isAlphanum, hdigits c hc]
  simp

/-- No number begins with a sign. -/
theorem head?_toDigits_ne (n : Nat) {c : Char} (hc : c.isDigit = false) :
    (Nat.toDigits 10 n).head? ≠ some c := by
  intro h
  rw [isDigit_of_mem_toDigits (List.mem_of_mem_head? h)] at hc
  cases hc

/-- **An unsigned integer is read back.** -/
theorem parseUnsigned_toDigits {max n : Nat} (h : n ≤ max) :
    parseUnsigned max (Nat.toDigits 10 n) = some n := by
  unfold parseUnsigned
  rw [if_neg (head?_toDigits_ne n (by decide))]
  dsimp only
  rw [digitsValue_toDigits, all_isDigit_toDigits, if_neg]
  simp only [Nat.toDigits_ne_nil, Bool.true_eq_false, false_or]
  omega

/-- **A signed integer is read back.** -/
theorem parseSigned_signedDigits {width : Nat} {i : Int} (hlow : -(2 ^ (width - 1) : Int) ≤ i)
    (hhigh : i < 2 ^ (width - 1)) : parseSigned width (signedDigits i) = some i := by
  rcases i with n | n
  · have hn : n ≤ 2 ^ (width - 1) - 1 := by
      have hcast : (n : Int) < ((2 ^ (width - 1) : Nat) : Int) := by simpa using hhigh
      have hlt := Int.ofNat_lt.mp hcast
      omega
    rw [signedDigits, parseSigned, if_neg (head?_toDigits_ne n (by decide)),
      parseUnsigned_toDigits hn]
    rfl
  · have hn : n + 1 ≤ 2 ^ (width - 1) := by
      have hcast : ((n + 1 : Nat) : Int) ≤ ((2 ^ (width - 1) : Nat) : Int) := by
        rw [Int.negSucc_eq] at hlow
        push_cast
        omega
      exact Int.ofNat_le.mp hcast
    rw [signedDigits, parseSigned, if_pos (by simp), List.tail_cons, digitsValue_toDigits,
      all_isDigit_toDigits, if_neg]
    · rfl
    · simp only [Nat.toDigits_ne_nil, Bool.true_eq_false, false_or]
      omega

/-- A number has digits and a minus sign only. -/
theorem mem_signedDigits {i : Int} {c : Char} (h : c ∈ signedDigits i) :
    c.isDigit = true ∨ c = '-' := by
  rcases i with n | n
  · exact .inl (isDigit_of_mem_toDigits h)
  · rcases List.mem_cons.mp h with rfl | h
    · exact .inr rfl
    · exact .inl (isDigit_of_mem_toDigits h)

theorem signedDigits_ne_nil (i : Int) : signedDigits i ≠ [] := by
  rcases i with n | n
  · exact Nat.toDigits_ne_nil
  · exact List.cons_ne_nil _ _

end Numbers

end DshNexus
