import DshNexus.Core.Io

/-!
# A small format for sample stores

A document is a list of fields, and a field a list of numbers, in unary.  It stands for JSON where
a witness needs a codec that can be computed.
-/

namespace DshNexus

/-- Numbers in unary, each followed by a 2; a 0 ends a field. -/
def encodeFields (fields : List (List Nat)) : Bytes :=
  fields.flatMap fun field => (field.flatMap fun n => List.replicate n 1 ++ [2]) ++ [0]

def decodeFields : Bytes → Nat → List Nat → List (List Nat) → List (List Nat)
  | [], _, _, fields => fields.reverse
  | b :: bytes, n, field, fields =>
      if b = 1 then decodeFields bytes (n + 1) field fields
      else if b = 2 then decodeFields bytes 0 (n :: field) fields
      else decodeFields bytes 0 [] (field.reverse :: fields)

theorem decodeFields_replicate (k n : Nat) (rest : Bytes) (field : List Nat)
    (fields : List (List Nat)) : decodeFields (List.replicate k 1 ++ rest) n field fields =
      decodeFields rest (n + k) field fields := by
  induction k generalizing n with
  | zero => rfl
  | succ k ih =>
    rw [List.replicate_succ, List.cons_append, decodeFields, if_pos rfl, ih]
    congr 1
    omega

theorem decodeFields_field (numbers : List Nat) (rest : Bytes) (field : List Nat)
    (fields : List (List Nat)) :
    decodeFields ((numbers.flatMap fun n => List.replicate n 1 ++ [2]) ++ [0] ++ rest) 0 field
      fields = decodeFields rest 0 [] ((field.reverse ++ numbers) :: fields) := by
  induction numbers generalizing field with
  | nil => rw [List.append_nil]; rfl
  | cons n numbers ih =>
    rw [List.flatMap_cons, List.append_assoc, List.append_assoc, List.append_assoc,
      decodeFields_replicate, List.cons_append, decodeFields, if_neg (by decide), if_pos rfl,
      Nat.zero_add, List.nil_append, ← List.append_assoc, ih]
    simp

theorem decodeFields_encodeFields (fields fields' : List (List Nat)) :
    decodeFields (encodeFields fields) 0 [] fields' = fields'.reverse ++ fields := by
  induction fields generalizing fields' with
  | nil => simp [encodeFields, decodeFields]
  | cons field fields ih =>
    rw [encodeFields, List.flatMap_cons, decodeFields_field]
    exact (ih _).trans (by simp)

def textNumbers (text : String) : List Nat := text.toList.map Char.toNat

def numbersText (numbers : List Nat) : String := String.ofList (numbers.map Char.ofNat)

theorem numbersText_textNumbers (text : String) : numbersText (textNumbers text) = text := by
  simp [numbersText, textNumbers, List.map_map, Function.comp_def, Char.ofNat_toNat]

/-- An optional text as a field: nothing, or a 0 and the text. -/
def optionNumbers : Option String → List Nat
  | none => []
  | some text => 0 :: textNumbers text

def numbersOption : List Nat → Option String
  | [] => none
  | _ :: numbers => some (numbersText numbers)

theorem numbersOption_optionNumbers (text : Option String) :
    numbersOption (optionNumbers text) = text := by
  rcases text with _ | text
  · rfl
  · exact congrArg some (numbersText_textNumbers text)

def textDigits (text : String) : List Nat :=
  text.toList.flatMap fun c => [c.toNat / 16, c.toNat % 16]

def charsOfDigits : List Nat → List Char
  | high :: low :: digits => Char.ofNat (16 * high + low) :: charsOfDigits digits
  | _ => []

def digitsText (digits : List Nat) : String := String.ofList (charsOfDigits digits)

theorem digitsText_textDigits (text : String) : digitsText (textDigits text) = text := by
  have hchars : ∀ cs : List Char,
      charsOfDigits (cs.flatMap fun c => [c.toNat / 16, c.toNat % 16]) = cs := by
    intro cs
    induction cs with
    | nil => rfl
    | cons c cs ih =>
      rw [List.flatMap_cons, List.cons_append, List.cons_append, List.nil_append, charsOfDigits,
        Nat.div_add_mod, Char.ofNat_toNat, ih]
  rw [digitsText, textDigits, hchars, String.ofList_toList]

/-- An optional text as a field: nothing, or a 0 and its digits. -/
def optionDigits : Option String → List Nat
  | none => []
  | some text => 0 :: textDigits text

def digitsOption : List Nat → Option String
  | [] => none
  | _ :: digits => some (digitsText digits)

theorem digitsOption_optionDigits (text : Option String) :
    digitsOption (optionDigits text) = text := by
  rcases text with _ | text
  · rfl
  · exact congrArg some (digitsText_textDigits text)

/-- A field with one number takes as many bytes more as it counts. -/
theorem length_encodeFields_number (before after : List (List Nat)) (n : Nat) :
    (encodeFields (before ++ [n] :: after)).length =
      (encodeFields (before ++ [0] :: after)).length + n := by
  simp only [encodeFields, List.flatMap_append, List.flatMap_cons, List.length_append,
    List.length_replicate, List.flatMap_nil, List.length_cons, List.length_nil]
  omega

end DshNexus
