import Mathlib

/-!
# Machine integers

Unsigned integers of 64 bits as the code computes with them, and their texts.

* `saturatingAdd`, `absDiff`: arithmetic of `u64`.
* `parseU64`: `str::parse::<u64>`.
* `validHex`: `agent_auth::valid_hex`.
-/

namespace DshNexus

/-- `u64::MAX`. -/
def U64_MAX : Nat := 2 ^ 64 - 1

def saturatingAdd (a b : Nat) : Nat := min (a + b) U64_MAX

def absDiff (a b : Nat) : Nat := max a b - min a b

def digitsValue (digits : List Char) : Nat :=
  digits.foldl (fun value digit => value * 10 + (digit.toNat - '0'.toNat)) 0

/-- `str::parse::<u64>`: an optional plus sign, then digits, without overflow. -/
def parseU64 (text : String) : Option Nat :=
  let digits := match text.toList with
    | '+' :: digits => digits
    | digits => digits
  if digits.isEmpty = true ∨ digits.all Char.isDigit = false ∨ digitsValue digits > U64_MAX then none
  else some (digitsValue digits)

/-- A character of lower-case hexadecimal. -/
def isLowerHex (c : Char) : Bool := c.isDigit || ('a' ≤ c && c ≤ 'f')

def validHex (value : String) : Bool :=
  value.utf8ByteSize = 64 && value.toList.all isLowerHex

end DshNexus
