import Mathlib

/-!
# Texts of JavaScript

A text of JavaScript is a list of code units.  Here it is the list of its code points; a surrogate
without its partner is one of its own.

* `units`: the code units.
* `isWhiteSpaceCode`: white space and line ends.
-/

namespace DshNexus

/-- A code point of a text of JavaScript: a character, or a surrogate without its partner. -/
inductive JsChar where
  | scalar (c : Char)
  | lone (s : Fin 2048)
  deriving DecidableEq

abbrev JsText := List JsChar

def jsText (text : String) : JsText := text.toList.map JsChar.scalar

def JsChar.units : JsChar → List Nat
  | .scalar c =>
      if c.toNat < 0x10000 then [c.toNat]
      else [0xd800 + (c.toNat - 0x10000) / 0x400, 0xdc00 + (c.toNat - 0x10000) % 0x400]
  | .lone s => [0xd800 + s.val]

/-- The code units of a text; texts are compared by these. -/
def units (text : JsText) : List Nat := text.flatMap JsChar.units

def isWhiteSpaceCode (n : Nat) : Bool :=
  (9 ≤ n && n ≤ 13) || n == 0x20 || n == 0xa0 || n == 0x1680 || (0x2000 ≤ n && n ≤ 0x200a) ||
    n == 0x2028 || n == 0x2029 || n == 0x202f || n == 0x205f || n == 0x3000 || n == 0xfeff

end DshNexus
