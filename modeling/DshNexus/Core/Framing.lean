import DshNexus.Core.Integer
import DshNexus.Core.Io

/-!
# Length-framed messages

Byte strings put behind one another, each with its length of eight bytes in front, and the bytes
of a machine integer, the highest first.

* `toBeBytes_injective`: an integer that fits is read back from its bytes.
* `framed_injective`: any number of parts is read back from their frames.
-/

namespace DshNexus

/-- `isize::MAX`, the most bytes of a value in memory. -/
def ISIZE_MAX : Nat := 2 ^ 63 - 1

/-- `to_be_bytes` of an integer of the given width. -/
def toBeBytes (width n : Nat) : Bytes :=
  (List.range width).reverse.map fun i => UInt8.ofNat (n / 256 ^ i)

@[ext]
structure Slice where
  bytes : Bytes
  bounded : bytes.length ≤ ISIZE_MAX
  deriving DecidableEq

def Slice.frame (part : Slice) : Bytes := toBeBytes 8 part.bytes.length ++ part.bytes

/-- The parts of a message, one frame behind the other. -/
def framed (parts : List Slice) : Bytes := parts.flatMap Slice.frame

/-! ## Integers -/

section Integers

theorem length_toBeBytes (width n : Nat) : (toBeBytes width n).length = width := by
  simp [toBeBytes]

/-- An integer is determined by its digits. -/
theorem eq_of_digits {width n n' : Nat} (hn : n < 256 ^ width) (hn' : n' < 256 ^ width)
    (h : ∀ i < width, n / 256 ^ i % 256 = n' / 256 ^ i % 256) : n = n' := by
  induction width generalizing n n' with
  | zero =>
    rw [Nat.pow_zero] at hn hn'
    omega
  | succ width ih =>
    have hlow : n % 256 = n' % 256 := by
      simpa using h 0 (by omega)
    have hhigh : n / 256 = n' / 256 := by
      refine ih ?_ ?_ fun i hi => ?_
      · rw [Nat.div_lt_iff_lt_mul (by omega)]
        rwa [Nat.pow_succ] at hn
      · rw [Nat.div_lt_iff_lt_mul (by omega)]
        rwa [Nat.pow_succ] at hn'
      · have hdigit := h (i + 1) (by omega)
        rwa [Nat.pow_succ', ← Nat.div_div_eq_div_mul, ← Nat.div_div_eq_div_mul] at hdigit
    omega

/-- **An integer is read back from its bytes**, as long as they hold it. -/
theorem toBeBytes_injective {width n n' : Nat} (hn : n < 256 ^ width) (hn' : n' < 256 ^ width)
    (h : toBeBytes width n = toBeBytes width n') : n = n' := by
  refine eq_of_digits hn hn' fun i hi => ?_
  have hbytes : ∀ i ∈ (List.range width).reverse,
      UInt8.ofNat (n / 256 ^ i) = UInt8.ofNat (n' / 256 ^ i) := List.map_inj_left.mp h
  have hbyte := hbytes i (by simpa using hi)
  have hnat := congrArg UInt8.toNat hbyte
  simpa using hnat

end Integers

/-! ## Frames -/

section Frames

theorem Slice.frame_ne_nil (part : Slice) : part.frame ≠ [] := by
  intro h
  have hlength := congrArg List.length h
  simp [Slice.frame, length_toBeBytes] at hlength

/-- The first part is read back from what begins with its frame. -/
theorem Slice.frame_append_inj {part part' : Slice} {rest rest' : Bytes}
    (h : part.frame ++ rest = part'.frame ++ rest') : part = part' ∧ rest = rest' := by
  rw [Slice.frame, Slice.frame, List.append_assoc, List.append_assoc] at h
  have hwidths : (toBeBytes 8 part.bytes.length).length =
      (toBeBytes 8 part'.bytes.length).length := by
    rw [length_toBeBytes, length_toBeBytes]
  obtain ⟨hlengths, hrest⟩ := List.append_inj h hwidths
  have hfits : ∀ part : Slice, part.bytes.length < 256 ^ 8 := by
    intro part
    have hbounded := part.bounded
    unfold ISIZE_MAX at hbounded
    omega
  have hlength := toBeBytes_injective (hfits part) (hfits part') hlengths
  obtain ⟨hbytes, hrest⟩ := List.append_inj hrest hlength
  exact ⟨Slice.ext hbytes, hrest⟩

/-- **The parts are read back from their frames**, whatever their number. -/
theorem framed_injective : Function.Injective framed := by
  intro parts
  induction parts with
  | nil =>
    intro parts' h
    rcases parts' with _ | ⟨part', parts'⟩
    · rfl
    · rw [framed, framed, List.flatMap_nil, List.flatMap_cons, eq_comm,
        List.append_eq_nil_iff] at h
      exact absurd h.1 (Slice.frame_ne_nil part')
  | cons part parts ih =>
    intro parts' h
    rcases parts' with _ | ⟨part', parts'⟩
    · rw [framed, framed, List.flatMap_nil, List.flatMap_cons, List.append_eq_nil_iff] at h
      exact absurd h.1 (Slice.frame_ne_nil part)
    · rw [framed, framed, List.flatMap_cons, List.flatMap_cons] at h
      obtain ⟨hpart, hparts⟩ := Slice.frame_append_inj h
      rw [hpart, ih hparts]

end Frames

end DshNexus
