import Mathlib
import DshNexus.Core.Io
import DshNexus.Core.Text
import DshNexus.Core.Words

/-!
# Prefix codes

Words put behind one another without their lengths.  They are read back where no word begins
with another one.

* `PrefixCode`: such a code; `prefixCode_iff`, `PrefixCode.append_inj`.
* `PrefixCode.comp`, `.prepend`, `.pair`, `.terminated`, `.flatMap`: codes made of codes.
* `prefixCode_decimal`, `prefixCode_jsonString`: numbers and strings as JSON writes them.
* `exists_first_difference`: two lists of the same text for any code;
  `PrefixCode.flatMap_injective`.
-/

namespace DshNexus

section Codes

variable {α α' β : Type} {code : α → List β} {code' : α' → List β}

/-- The words are told apart by what a text begins with. -/
def PrefixCode (code : α → List β) : Prop :=
  ∀ a b r r', code a ++ r = code b ++ r' → a = b

/-- No word begins with another one. -/
theorem prefixCode_iff : PrefixCode code ↔ ∀ a b, code a <+: code b → a = b := by
  constructor
  · rintro h a b ⟨r, hr⟩
    exact h a b r [] (by rw [hr, List.append_nil])
  · intro h a b r r' heq
    have ha : code a <+: code a ++ r := List.prefix_append _ _
    have hb : code b <+: code a ++ r := by
      rw [heq]
      exact List.prefix_append _ _
    rcases List.prefix_or_prefix_of_prefix ha hb with hab | hba
    · exact h a b hab
    · exact (h b a hba).symm

/-- **The first word and the rest are read back.** -/
theorem PrefixCode.append_inj (h : PrefixCode code) {a b : α} {r r' : List β}
    (heq : code a ++ r = code b ++ r') : a = b ∧ r = r' := by
  obtain rfl := h a b r r' heq
  exact ⟨rfl, List.append_cancel_left heq⟩

/-- Words of one length. -/
theorem PrefixCode.of_length (hinj : Function.Injective code) {n : Nat}
    (hlength : ∀ a, (code a).length = n) : PrefixCode code := by
  rw [prefixCode_iff]
  intro a b hab
  refine hinj (hab.eq_of_length ?_)
  rw [hlength, hlength]

theorem PrefixCode.comp (h : PrefixCode code) {f : α' → α} (hf : Function.Injective f) :
    PrefixCode fun a => code (f a) :=
  fun a b r r' heq => hf (h (f a) (f b) r r' heq)

/-- Every word behind the same beginning. -/
theorem PrefixCode.prepend (h : PrefixCode code) (start : List β) :
    PrefixCode fun a => start ++ code a := by
  intro a b r r' heq
  rw [List.append_assoc, List.append_assoc] at heq
  exact h a b r r' (List.append_cancel_left heq)

/-- A word behind a word. -/
theorem PrefixCode.pair (h : PrefixCode code) (h' : PrefixCode code') :
    PrefixCode fun p : α × α' => code p.1 ++ code' p.2 := by
  rintro ⟨a, a'⟩ ⟨b, b'⟩ r r' heq
  rw [List.append_assoc, List.append_assoc] at heq
  obtain ⟨rfl, hrest⟩ := h.append_inj heq
  obtain ⟨rfl, -⟩ := h'.append_inj hrest
  rfl

/-- Any number of words, ended by what no word begins with. -/
theorem PrefixCode.terminated (h : PrefixCode code) {stop : β}
    (hstop : ∀ a r, code a ++ r ≠ [] ∧ (code a ++ r).head? ≠ some stop) :
    PrefixCode fun as : List α => as.flatMap code ++ [stop] := by
  intro as
  induction as with
  | nil =>
    intro bs r r' heq
    rcases bs with _ | ⟨b, bs⟩
    · rfl
    · have hhead := congrArg List.head? heq
      simp only [List.flatMap_nil, List.nil_append, List.singleton_append, List.head?_cons,
        List.flatMap_cons, List.append_assoc] at hhead
      exact absurd hhead.symm (hstop b _).2
  | cons a as ih =>
    intro bs r r' heq
    rcases bs with _ | ⟨b, bs⟩
    · have hhead := congrArg List.head? heq
      simp only [List.flatMap_nil, List.nil_append, List.singleton_append, List.head?_cons,
        List.flatMap_cons, List.append_assoc] at hhead
      exact absurd hhead (hstop a _).2
    · simp only [List.flatMap_cons, List.append_assoc] at heq
      obtain ⟨rfl, hrest⟩ := h.append_inj heq
      rw [ih bs r r' (by simpa only [List.append_assoc] using hrest)]

/-- Of two texts of words that agree, the words of one are the first words of the other. -/
theorem PrefixCode.prefix_or_prefix (h : PrefixCode code) :
    ∀ {as bs : List α} {r r' : List β}, as.flatMap code ++ r = bs.flatMap code ++ r' →
      as <+: bs ∨ bs <+: as := by
  intro as
  induction as with
  | nil => exact fun _ => Or.inl List.nil_prefix
  | cons a as ih =>
    intro bs r r' heq
    cases bs with
    | nil => exact Or.inr List.nil_prefix
    | cons b bs =>
      simp only [List.flatMap_cons, List.append_assoc] at heq
      obtain ⟨rfl, hrest⟩ := h.append_inj heq
      simpa using ih hrest

/-- Words of words. -/
theorem PrefixCode.flatMap {inner : α' → List α} (h' : PrefixCode inner) (h : PrefixCode code) :
    PrefixCode fun a => (inner a).flatMap code := by
  intro a b r r' heq
  rcases h.prefix_or_prefix heq with hab | hba
  · exact prefixCode_iff.mp h' a b hab
  · exact (prefixCode_iff.mp h' b a hba).symm

/-- **The first difference** of two lists whose words give the same text. -/
theorem exists_first_difference (hne : ∀ a, code a ≠ []) :
    ∀ {as bs : List α}, as.flatMap code = bs.flatMap code → as ≠ bs →
      ∃ common a b rest rest', as = common ++ a :: rest ∧ bs = common ++ b :: rest' ∧ a ≠ b ∧
        code a ++ rest.flatMap code = code b ++ rest'.flatMap code := by
  intro as
  induction as with
  | nil =>
    intro bs heq hdiffer
    rcases bs with _ | ⟨b, bs⟩
    · exact absurd rfl hdiffer
    · rw [List.flatMap_nil, List.flatMap_cons, eq_comm, List.append_eq_nil_iff] at heq
      exact absurd heq.1 (hne b)
  | cons a as ih =>
    intro bs heq hdiffer
    rcases bs with _ | ⟨b, bs⟩
    · rw [List.flatMap_nil, List.flatMap_cons, List.append_eq_nil_iff] at heq
      exact absurd heq.1 (hne a)
    · by_cases hab : a = b
      · subst hab
        rw [List.flatMap_cons, List.flatMap_cons] at heq
        obtain ⟨common, a', b', rest, rest', rfl, rfl, hdiffer', htexts⟩ :=
          ih (List.append_cancel_left heq) fun h => hdiffer (by rw [h])
        exact ⟨a :: common, a', b', rest, rest', rfl, rfl, hdiffer', htexts⟩
      · rw [List.flatMap_cons, List.flatMap_cons] at heq
        exact ⟨[], a, b, as, bs, rfl, rfl, hab, heq⟩

/-- **A text of words is read back.** -/
theorem PrefixCode.flatMap_injective (h : PrefixCode code) (hne : ∀ a, code a ≠ []) :
    Function.Injective fun as : List α => as.flatMap code := by
  intro as bs heq
  by_contra hdiffer
  obtain ⟨_, a, b, rest, rest', -, -, hab, htexts⟩ := exists_first_difference hne heq hdiffer
  exact hab (h a b _ _ htexts)

end Codes

/-! ## Values of JSON -/

section Json

open Text

def asciiBytes (text : List Char) : Bytes := text.map fun c => UInt8.ofNat c.toNat

def decimal (n : Nat) : Bytes := asciiBytes (Nat.toDigits 10 n)

/-- The control bytes and the others that are written with one letter. -/
def shortEscapes : List (UInt8 × UInt8) :=
  [(0x22, 0x22), (0x5c, 0x5c), (0x08, 0x62), (0x09, 0x74), (0x0a, 0x6e), (0x0c, 0x66),
    (0x0d, 0x72)]

def hexDigit (n : Nat) : UInt8 := UInt8.ofNat (if n < 10 then 48 + n else 87 + n)

def escapeByte (byte : UInt8) : Bytes :=
  match shortEscapes.lookup byte with
  | some letter => [0x5c, letter]
  | none =>
      if byte < 0x20 then
        [0x5c, 0x75, 0x30, 0x30, hexDigit (byte.toNat / 16), hexDigit (byte.toNat % 16)]
      else [byte]

def jsonString (text : Bytes) : Bytes := 0x22 :: (text.flatMap escapeByte ++ [0x22])

/-- The three ways to write a byte. -/
theorem escapeByte_cases (byte : UInt8) :
    (∃ letter, (byte, letter) ∈ shortEscapes ∧ escapeByte byte = [0x5c, letter]) ∨
      (byte.toNat < 32 ∧ escapeByte byte =
        [0x5c, 0x75, 0x30, 0x30, hexDigit (byte.toNat / 16), hexDigit (byte.toNat % 16)]) ∨
      (byte ≠ 0x5c ∧ byte ≠ 0x22 ∧ escapeByte byte = [byte]) := by
  rcases hshort : shortEscapes.lookup byte with _ | letter
  · by_cases hcontrol : byte < 0x20
    · refine .inr (.inl ⟨UInt8.lt_iff_toNat_lt.mp hcontrol, ?_⟩)
      rw [escapeByte, hshort]
      exact if_pos hcontrol
    · refine .inr (.inr ⟨?_, ?_, ?_⟩)
      · rintro rfl
        revert hshort
        decide
      · rintro rfl
        revert hshort
        decide
      · rw [escapeByte, hshort]
        exact if_neg hcontrol
  · obtain ⟨before, after, hlist, -⟩ := List.lookup_eq_some_iff.mp hshort
    refine .inl ⟨letter, ?_, by rw [escapeByte, hshort]⟩
    rw [hlist]
    exact List.mem_append_right _ List.mem_cons_self

theorem hexDigit_injective : ∀ {m n : Nat}, m < 16 → n < 16 → hexDigit m = hexDigit n → m = n := by
  have hall : ∀ m : Fin 16, ∀ n : Fin 16, hexDigit m.val = hexDigit n.val → m = n := by
    decide +kernel
  intro m n hm hn h
  exact congrArg Fin.val (hall ⟨m, hm⟩ ⟨n, hn⟩ h)

theorem shortEscapes_properties : ∀ p ∈ shortEscapes, ∀ q ∈ shortEscapes,
    p.2 ≠ 0x75 ∧ (p.2 = q.2 → p.1 = q.1) := by
  have hall : ∀ i j : Fin 7, shortEscapes[i].2 ≠ 0x75 ∧
      (shortEscapes[i].2 = shortEscapes[j].2 → i = j) := by
    decide +kernel
  intro p hp q hq
  obtain ⟨i, hi, rfl⟩ := List.mem_iff_getElem.mp hp
  obtain ⟨j, hj, rfl⟩ := List.mem_iff_getElem.mp hq
  obtain ⟨hletter, hsame⟩ := hall ⟨i, hi⟩ ⟨j, hj⟩
  refine ⟨hletter, fun h => ?_⟩
  obtain rfl : i = j := congrArg Fin.val (hsame h)
  rfl

theorem prefixCode_escapeByte : PrefixCode escapeByte := by
  intro a b r r' heq
  rcases escapeByte_cases a with ⟨letter, hletter, ha⟩ | ⟨hcontrol, ha⟩ | ⟨hplain, -, ha⟩ <;>
    rcases escapeByte_cases b with ⟨letter', hletter', hb⟩ | ⟨hcontrol', hb⟩ | ⟨hplain', -, hb⟩ <;>
      rw [ha, hb] at heq <;>
        simp only [List.cons_append, List.nil_append, List.cons.injEq, true_and] at heq
  · exact (shortEscapes_properties _ hletter _ hletter').2 heq.1
  · exact absurd heq.1 (shortEscapes_properties _ hletter _ hletter).1
  · exact absurd heq.1.symm hplain'
  · exact absurd heq.1.symm (shortEscapes_properties _ hletter' _ hletter').1
  · have hhigh := hexDigit_injective (by omega) (by omega) heq.1
    have hlow := hexDigit_injective (by omega) (by omega) heq.2.1
    exact UInt8.toNat_inj.mp (by omega)
  · exact absurd heq.1.symm hplain'
  · exact absurd heq.1 hplain
  · exact absurd heq.1 hplain
  · exact heq.1

theorem escapeByte_append_head (a : UInt8) (r : Bytes) :
    escapeByte a ++ r ≠ [] ∧ (escapeByte a ++ r).head? ≠ some 0x22 := by
  rcases escapeByte_cases a with ⟨letter, -, ha⟩ | ⟨-, ha⟩ | ⟨-, hquote, ha⟩
  · rw [ha]
    exact ⟨by simp, by simp⟩
  · rw [ha]
    exact ⟨by simp, by simp⟩
  · rw [ha]
    exact ⟨by simp, by simpa using hquote⟩

/-- **A string is read back**, whatever follows it. -/
theorem prefixCode_jsonString : PrefixCode jsonString :=
  (prefixCode_escapeByte.terminated escapeByte_append_head).prepend [0x22]

/-- The characters of a number are digits of ASCII. -/
theorem mem_decimal {n : Nat} {byte : UInt8} (h : byte ∈ decimal n) :
    48 ≤ byte.toNat ∧ byte.toNat ≤ 57 := by
  obtain ⟨c, hc, rfl⟩ := List.mem_map.mp h
  have hdigit := isDigit_of_mem_toDigits hc
  simp only [Char.isDigit, Bool.and_eq_true, decide_eq_true_eq] at hdigit
  have hlow : 48 ≤ c.toNat := hdigit.1
  have hhigh : c.toNat ≤ 57 := hdigit.2
  rw [UInt8.toNat_ofNat']
  omega

theorem decimal_injective : Function.Injective decimal := by
  intro m n h
  have hback : ∀ n, (decimal n).map (fun byte => Char.ofNat byte.toNat) = Nat.toDigits 10 n := by
    intro n
    rw [decimal, asciiBytes, List.map_map]
    refine (List.map_congr_left fun c hc => ?_).trans (List.map_id _)
    have hdigit := isDigit_of_mem_toDigits hc
    simp only [Char.isDigit, Bool.and_eq_true, decide_eq_true_eq] at hdigit
    have hhigh : c.toNat ≤ 57 := hdigit.2
    rw [Function.comp_apply, UInt8.toNat_ofNat', Nat.mod_eq_of_lt (by omega), Char.ofNat_toNat, id]
  have hdigits := congrArg (List.map fun byte : UInt8 => Char.ofNat byte.toNat) h
  rw [hback, hback] at hdigits
  rw [← digitsValue_toDigits m, hdigits, digitsValue_toDigits]

/-- **A number is read back** up to the byte that ends it. -/
theorem prefixCode_decimal {stop : UInt8} (hstop : stop.toNat < 48 ∨ 57 < stop.toNat) :
    PrefixCode fun n => decimal n ++ [stop] := by
  have hread : ∀ n r, splitOnce stop (decimal n ++ [stop] ++ r) = some (decimal n, r) := by
    intro n r
    rw [List.append_assoc, List.singleton_append]
    refine splitOnce_append r fun hmem => ?_
    have hdigit := mem_decimal hmem
    omega
  intro m n r r' heq
  have hsplit := hread m r
  rw [heq, hread n r'] at hsplit
  exact (decimal_injective (Prod.mk.inj (Option.some.inj hsplit)).1).symm

end Json

end DshNexus
