import Mathlib
import DshNexus.Core.JsText
import DshNexus.Core.PrefixCode
import DshNexus.Core.Utf8

/-!
# The canonical text of a value

`stableJson` of `apps/nexus-launcher/src/request-client.ts` writes a value with the members of its
objects in the order of their names.  The body of a request is sent as `JSON.stringify` writes it.

1. The values of JavaScript.
2. `stableJson`.
3. `jsonOf`: the JSON value that is sent.  An object has no order, and a member that is undefined
   is left out.
4. `stableForm`: the JSON value that `stableJson` prints, in which such a member is null.
5. `print_inj`: printing is injective.
6. `stableJson_eq_iff`: two values have one text exactly if they have one form; and of a `Plain`
   value the form is what is sent.
-/

namespace DshNexus.Console

/-! ## 1. Values -/

def isNumberByte (byte : UInt8) : Bool :=
  (48 ≤ byte && byte ≤ 57) || byte == 0x2b || byte == 0x2d || byte == 0x2e || byte == 0x65

structure Literal where
  text : Bytes
  nonempty : text ≠ []
  number : ∀ byte ∈ text, isNumberByte byte = true
  deriving DecidableEq

/-- A value of JavaScript, as `JSON.stringify` sees it: functions and symbols are like
`undefined`. -/
inductive JsValue where
  | undefined
  | null
  /-- an infinity, or not a number -/
  | nonFinite
  | bool (b : Bool)
  | number (literal : Literal)
  | string (text : JsText)
  | array (items : List JsValue)
  /-- the own members, in the order in which they were added -/
  | object (members : List (JsText × JsValue))

/-! ## 2. `stableJson` -/

/-- A code point of a string; a lone surrogate is written in hexadecimal. -/
def escapeChar : JsChar → Bytes
  | .scalar c => (String.utf8EncodeChar c).flatMap escapeByte
  | .lone s =>
      [0x5c, 0x75, hexDigit 13, hexDigit (8 + s.val / 256), hexDigit (s.val / 16 % 16),
        hexDigit (s.val % 16)]

/-- `JSON.stringify` of a string. -/
def quote (text : JsText) : Bytes := 0x22 :: (text.flatMap escapeChar ++ [0x22])

def nullText : Bytes := asciiBytes "null".toList

def boolText (b : Bool) : Bytes := asciiBytes (if b then "true".toList else "false".toList)

/-- `join(",")`. -/
def joinComma : List Bytes → Bytes
  | [] => []
  | text :: texts => text ++ texts.flatMap fun text => 0x2c :: text

/-- `sort` of entries by their names. -/
def sortEntries {β : Type} (entries : List (JsText × β)) : List (JsText × β) :=
  entries.insertionSort fun left right => units left.1 ≤ units right.1

/-- `JSON.stringify(key) + ":" + …`. -/
def member (entry : JsText × Bytes) : Bytes := quote entry.1 ++ 0x3a :: entry.2

mutual

def stableJson : JsValue → Bytes
  | .undefined => nullText
  | .null => nullText
  | .nonFinite => nullText
  | .bool b => boolText b
  | .number literal => literal.text
  | .string text => quote text
  | .array items => 0x5b :: (joinComma (stableItems items) ++ [0x5d])
  | .object members =>
      0x7b :: (joinComma ((sortEntries (stableMembers members)).map member) ++ [0x7d])

def stableItems : List JsValue → List Bytes
  | [] => []
  | item :: items => stableJson item :: stableItems items

def stableMembers : List (JsText × JsValue) → List (JsText × Bytes)
  | [] => []
  | (key, item) :: members => (key, stableJson item) :: stableMembers members

end

/-! ## 3. What is sent -/

/-- A value of JSON; the members of an object are in the order of their names. -/
inductive Json where
  | null
  | bool (b : Bool)
  | number (literal : Literal)
  | string (text : JsText)
  | array (items : List Json)
  | object (members : List (JsText × Json))

mutual

/-- The value that `JSON.stringify` writes: `undefined` is null in an array, and is left out of an
object. -/
def jsonOf : JsValue → Json
  | .undefined => .null
  | .null => .null
  | .nonFinite => .null
  | .bool b => .bool b
  | .number literal => .number literal
  | .string text => .string text
  | .array items => .array (jsonItems items)
  | .object members => .object (sortEntries (jsonMembers members))

def jsonItems : List JsValue → List Json
  | [] => []
  | item :: items => jsonOf item :: jsonItems items

def jsonMembers : List (JsText × JsValue) → List (JsText × Json)
  | [] => []
  | (_, .undefined) :: members => jsonMembers members
  | (key, item) :: members => (key, jsonOf item) :: jsonMembers members

end

/-! ## 4. What `stableJson` prints -/

mutual

/-- The value that `stableJson` prints. -/
def stableForm : JsValue → Json
  | .undefined => .null
  | .null => .null
  | .nonFinite => .null
  | .bool b => .bool b
  | .number literal => .number literal
  | .string text => .string text
  | .array items => .array (formItems items)
  | .object members => .object (sortEntries (formMembers members))

def formItems : List JsValue → List Json
  | [] => []
  | item :: items => stableForm item :: formItems items

def formMembers : List (JsText × JsValue) → List (JsText × Json)
  | [] => []
  | (key, item) :: members => (key, stableForm item) :: formMembers members

end

mutual

def print : Json → Bytes
  | .null => nullText
  | .bool b => boolText b
  | .number literal => literal.text
  | .string text => quote text
  | .array items => 0x5b :: (joinComma (printItems items) ++ [0x5d])
  | .object members => 0x7b :: (joinComma (printMembers members) ++ [0x7d])

def printItems : List Json → List Bytes
  | [] => []
  | item :: items => print item :: printItems items

def printMembers : List (JsText × Json) → List Bytes
  | [] => []
  | (key, item) :: members => member (key, print item) :: printMembers members

end

theorem printMembers_eq_map (members : List (JsText × Json)) :
    printMembers members = members.map fun entry => member (entry.1, print entry.2) := by
  induction members with
  | nil => rfl
  | cons entry members ih => rw [printMembers, ih, List.map_cons]

theorem sortEntries_map {β γ : Type} (f : β → γ) (entries : List (JsText × β)) :
    sortEntries (entries.map fun entry => (entry.1, f entry.2)) =
      (sortEntries entries).map fun entry => (entry.1, f entry.2) := by
  have hsame : ∀ left ∈ entries, ∀ right ∈ entries,
      units left.1 ≤ units right.1 ↔ units left.1 ≤ units right.1 := fun _ _ _ _ => Iff.rfl
  exact (List.map_insertionSort
    (r := fun left right : JsText × β => units left.1 ≤ units right.1)
    (s := fun left right : JsText × γ => units left.1 ≤ units right.1)
    (fun entry => (entry.1, f entry.2)) entries hsame).symm

mutual

theorem stableJson_eq_print : ∀ v : JsValue, stableJson v = print (stableForm v)
  | .undefined => by rw [stableJson, stableForm, print]
  | .null => by rw [stableJson, stableForm, print]
  | .nonFinite => by rw [stableJson, stableForm, print]
  | .bool b => by rw [stableJson, stableForm, print]
  | .number literal => by rw [stableJson, stableForm, print]
  | .string text => by rw [stableJson, stableForm, print]
  | .array items => by rw [stableJson, stableForm, print, stableItems_eq_print items]
  | .object members => by
      rw [stableJson, stableForm, print, stableMembers_eq_print members, sortEntries_map,
        printMembers_eq_map, List.map_map]
      rfl

theorem stableItems_eq_print : ∀ items : List JsValue,
    stableItems items = printItems (formItems items)
  | [] => by rw [stableItems, formItems, printItems]
  | item :: items => by
      rw [stableItems, formItems, printItems, stableJson_eq_print item, stableItems_eq_print items]

theorem stableMembers_eq_print : ∀ members : List (JsText × JsValue),
    stableMembers members = (formMembers members).map fun entry => (entry.1, print entry.2)
  | [] => by
      rw [stableMembers, formMembers]
      rfl
  | (key, item) :: members => by
      rw [stableMembers, formMembers, List.map_cons, stableJson_eq_print item,
        stableMembers_eq_print members]

end

/-! ## 5. Printing -/

theorem prefixCode_utf8EncodeChar : PrefixCode String.utf8EncodeChar := by
  intro c d r r' heq
  have hfirst := congrArg Utf8.decodeFirst heq
  rwa [Utf8.decodeFirst_append, Utf8.decodeFirst_append, Option.some.injEq] at hfirst

theorem escapeChar_scalar_append (c : Char) (r : Bytes) : ∃ first rest,
    escapeChar (.scalar c) ++ r = escapeByte first ++ rest := by
  cases hbytes : String.utf8EncodeChar c with
  | nil =>
    have hlength := String.length_utf8EncodeChar c
    rw [hbytes, List.length_nil] at hlength
    have hpos := c.utf8Size_pos
    omega
  | cons first bytes =>
    refine ⟨first, bytes.flatMap escapeByte ++ r, ?_⟩
    rw [escapeChar, hbytes, List.flatMap_cons, List.append_assoc]

theorem escapeChar_scalar_ne_lone (c : Char) (s : Fin 2048) (r r' : Bytes) :
    escapeChar (.scalar c) ++ r ≠ escapeChar (.lone s) ++ r' := by
  obtain ⟨first, rest, heq⟩ := escapeChar_scalar_append c r
  rw [heq]
  rcases escapeByte_cases first with ⟨letter, hletter, hfirst⟩ | ⟨-, hfirst⟩ | ⟨hplain, -, hfirst⟩
  · rw [hfirst]
    intro h
    simp only [escapeChar, List.cons_append, List.cons.injEq, true_and] at h
    exact (shortEscapes_properties _ hletter _ hletter).1 h.1
  · rw [hfirst]
    intro h
    simp only [escapeChar, List.cons_append, List.cons.injEq, true_and] at h
    exact absurd h.1 (by decide)
  · rw [hfirst]
    intro h
    simp only [escapeChar, List.cons_append, List.cons.injEq] at h
    exact hplain h.1

theorem prefixCode_escapeChar : PrefixCode escapeChar := by
  intro a b r r' heq
  cases a with
  | scalar c =>
    cases b with
    | scalar d =>
      have hcode : PrefixCode fun c => (String.utf8EncodeChar c).flatMap escapeByte :=
        prefixCode_utf8EncodeChar.flatMap prefixCode_escapeByte
      exact congrArg JsChar.scalar (hcode c d r r' heq)
    | lone s => exact absurd heq (escapeChar_scalar_ne_lone c s r r')
  | lone s =>
    cases b with
    | scalar c => exact absurd heq.symm (escapeChar_scalar_ne_lone c s r' r)
    | lone s' =>
      have hs := s.isLt
      have hs' := s'.isLt
      simp only [escapeChar, List.cons_append, List.cons.injEq, true_and] at heq
      have hhigh := hexDigit_injective (by omega) (by omega) heq.1
      have hmiddle := hexDigit_injective (by omega) (by omega) heq.2.1
      have hlow := hexDigit_injective (by omega) (by omega) heq.2.2.1
      exact congrArg JsChar.lone (Fin.ext (by omega))

theorem escapeChar_append_head (a : JsChar) (r : Bytes) :
    escapeChar a ++ r ≠ [] ∧ (escapeChar a ++ r).head? ≠ some 0x22 := by
  cases a with
  | scalar c =>
    obtain ⟨first, rest, heq⟩ := escapeChar_scalar_append c r
    rw [heq]
    exact escapeByte_append_head first rest
  | lone s => exact ⟨by simp [escapeChar], by simp [escapeChar]⟩

theorem prefixCode_quote : PrefixCode quote :=
  (prefixCode_escapeChar.terminated escapeChar_append_head).prepend [0x22]

/-- What follows a value does not go on with its number. -/
def Ends (r : Bytes) : Prop := ∀ byte, r.head? = some byte → isNumberByte byte = false

theorem ends_items (texts : List Bytes) {close : UInt8} (hclose : isNumberByte close = false)
    (r : Bytes) : Ends ((texts.flatMap fun text => 0x2c :: text) ++ close :: r) := by
  intro byte h
  cases texts with
  | nil =>
    rw [List.flatMap_nil, List.nil_append, List.head?_cons, Option.some.injEq] at h
    rw [← h]
    exact hclose
  | cons text texts =>
    simp only [List.flatMap_cons, List.cons_append, List.head?_cons, Option.some.injEq] at h
    rw [← h]
    decide

/-- **A number is read back** up to what ends it. -/
theorem number_append_inj {l l' : Literal} {r r' : Bytes} (hr : Ends r) (hr' : Ends r')
    (heq : l.text ++ r = l'.text ++ r') : l = l' := by
  have htake : ∀ (l : Literal) (r : Bytes), Ends r →
      (l.text ++ r).takeWhile isNumberByte = l.text := by
    intro l r hr
    rw [List.takeWhile_append_of_pos l.number]
    cases r with
    | nil => rw [List.takeWhile_nil, List.append_nil]
    | cons byte rest =>
      rw [List.takeWhile_cons_of_neg, List.append_nil]
      rw [hr byte rfl]
      exact Bool.false_ne_true
  have htext := htake l r hr
  rw [heq, htake l' r' hr'] at htext
  cases l
  cases l'
  simpa using htext.symm

/-- The first byte of a value that is no number: the kind of the value. -/
def kindByte : Json → Option UInt8
  | .null => some 0x6e
  | .bool true => some 0x74
  | .bool false => some 0x66
  | .number _ => none
  | .string _ => some 0x22
  | .array _ => some 0x5b
  | .object _ => some 0x7b

theorem head?_print (v : Json) (r : Bytes) : ∃ byte rest, print v ++ r = byte :: rest ∧
    byte ≠ 0x5d ∧
      ((kindByte v = none ∧ isNumberByte byte = true) ∨
        (kindByte v = some byte ∧ isNumberByte byte = false)) := by
  cases v with
  | null => exact ⟨_, _, by rw [print]; rfl, by decide, Or.inr ⟨rfl, by decide⟩⟩
  | bool b =>
    cases b with
    | false => exact ⟨_, _, by rw [print]; rfl, by decide, Or.inr ⟨rfl, by decide⟩⟩
    | true => exact ⟨_, _, by rw [print]; rfl, by decide, Or.inr ⟨rfl, by decide⟩⟩
  | number l =>
    rw [print]
    cases htext : l.text with
    | nil => exact absurd htext l.nonempty
    | cons byte rest =>
      have hnumber := l.number byte (htext ▸ List.mem_cons_self)
      refine ⟨byte, rest ++ r, rfl, ?_, Or.inl ⟨rfl, hnumber⟩⟩
      rintro rfl
      revert hnumber
      decide
  | string text => exact ⟨_, _, by rw [print]; rfl, by decide, Or.inr ⟨rfl, by decide⟩⟩
  | array items => exact ⟨_, _, by rw [print]; rfl, by decide, Or.inr ⟨rfl, by decide⟩⟩
  | object members => exact ⟨_, _, by rw [print]; rfl, by decide, Or.inr ⟨rfl, by decide⟩⟩

theorem kindByte_eq {v w : Json} {r r' : Bytes} (heq : print v ++ r = print w ++ r') :
    kindByte v = kindByte w := by
  obtain ⟨byte, rest, hv, -, hkind⟩ := head?_print v r
  obtain ⟨byte', rest', hw, -, hkind'⟩ := head?_print w r'
  rw [hv, hw] at heq
  obtain ⟨rfl, -⟩ := List.cons.inj heq
  rcases hkind with ⟨hnone, hnumber⟩ | ⟨hsome, hnumber⟩ <;>
    rcases hkind' with ⟨hnone', hnumber'⟩ | ⟨hsome', hnumber'⟩
  · rw [hnone, hnone']
  · rw [hnumber] at hnumber'
    cases hnumber'
  · rw [hnumber] at hnumber'
    cases hnumber'
  · rw [hsome, hsome']

theorem print_array_append (item : Json) (items : List Json) (r : Bytes) :
    print (.array (item :: items)) ++ r =
      0x5b :: (print item ++
        (((printItems items).flatMap fun text => 0x2c :: text) ++ 0x5d :: r)) := by
  rw [print, printItems, joinComma]
  simp

theorem print_object_append (key : JsText) (item : Json) (members : List (JsText × Json))
    (r : Bytes) :
    print (.object ((key, item) :: members)) ++ r =
      0x7b :: (quote key ++ 0x3a :: (print item ++
        (((printMembers members).flatMap fun text => 0x2c :: text) ++ 0x7d :: r))) := by
  rw [print, printMembers, joinComma, member]
  simp

mutual

/-- **A value is read back**, if what follows does not go on with its number. -/
theorem print_inj : ∀ (v w : Json) {r r' : Bytes}, Ends r → Ends r' →
    print v ++ r = print w ++ r' → v = w
  | .null, w, r, r', hr, hr', heq => by
      have hkind := kindByte_eq heq
      cases w with
      | null => rfl
      | bool b => cases b <;> cases hkind
      | number l => cases hkind
      | string text => cases hkind
      | array items => cases hkind
      | object members => cases hkind
  | .bool b, w, r, r', hr, hr', heq => by
      have hkind := kindByte_eq heq
      cases w with
      | null => cases b <;> cases hkind
      | bool b' => cases b <;> cases b' <;> first | rfl | cases hkind
      | number l => cases b <;> cases hkind
      | string text => cases b <;> cases hkind
      | array items => cases b <;> cases hkind
      | object members => cases b <;> cases hkind
  | .number l, w, r, r', hr, hr', heq => by
      have hkind := kindByte_eq heq
      cases w with
      | null => cases hkind
      | bool b => cases b <;> cases hkind
      | number l' =>
        rw [print, print] at heq
        rw [number_append_inj hr hr' heq]
      | string text => cases hkind
      | array items => cases hkind
      | object members => cases hkind
  | .string text, w, r, r', hr, hr', heq => by
      have hkind := kindByte_eq heq
      cases w with
      | null => cases hkind
      | bool b => cases b <;> cases hkind
      | number l => cases hkind
      | string text' =>
        rw [print, print] at heq
        rw [prefixCode_quote text text' r r' heq]
      | array items => cases hkind
      | object members => cases hkind
  | .array items, w, r, r', hr, hr', heq => by
      have hkind := kindByte_eq heq
      cases w with
      | null => cases hkind
      | bool b => cases b <;> cases hkind
      | number l => cases hkind
      | string text => cases hkind
      | array items' => rw [array_inj items items' heq]
      | object members => cases hkind
  | .object members, w, r, r', hr, hr', heq => by
      have hkind := kindByte_eq heq
      cases w with
      | null => cases hkind
      | bool b => cases b <;> cases hkind
      | number l => cases hkind
      | string text => cases hkind
      | array items => cases hkind
      | object members' => rw [object_inj members members' heq]

theorem array_inj : ∀ (items items' : List Json) {r r' : Bytes},
    print (.array items) ++ r = print (.array items') ++ r' → items = items'
  | [], [], r, r', heq => rfl
  | [], item' :: items', r, r', heq => by
      obtain ⟨byte, rest, hfirst, hne, -⟩ := head?_print item'
        (((printItems items').flatMap fun text => 0x2c :: text) ++ 0x5d :: r')
      rw [print_array_append, hfirst, print, printItems, joinComma] at heq
      exact absurd (List.cons.inj (List.cons.inj heq).2).1.symm hne
  | item :: items, [], r, r', heq => by
      obtain ⟨byte, rest, hfirst, hne, -⟩ := head?_print item
        (((printItems items).flatMap fun text => 0x2c :: text) ++ 0x5d :: r)
      rw [print_array_append, hfirst, print, printItems, joinComma] at heq
      exact absurd (List.cons.inj (List.cons.inj heq).2).1 hne
  | item :: items, item' :: items', r, r', heq => by
      rw [print_array_append, print_array_append] at heq
      have hrest := (List.cons.inj heq).2
      have hitem := print_inj item item' (ends_items _ (by decide) r) (ends_items _ (by decide) r')
        hrest
      subst hitem
      rw [items_inj items items' (List.append_cancel_left hrest)]

theorem items_inj : ∀ (items items' : List Json) {r r' : Bytes},
    ((printItems items).flatMap fun text => 0x2c :: text) ++ 0x5d :: r =
      ((printItems items').flatMap fun text => 0x2c :: text) ++ 0x5d :: r' → items = items'
  | [], [], r, r', heq => rfl
  | [], item' :: items', r, r', heq => by
      rw [printItems, printItems, List.flatMap_nil, List.flatMap_cons] at heq
      exact absurd (List.cons.inj heq).1 (by decide)
  | item :: items, [], r, r', heq => by
      rw [printItems, printItems, List.flatMap_nil, List.flatMap_cons] at heq
      exact absurd (List.cons.inj heq).1 (by decide)
  | item :: items, item' :: items', r, r', heq => by
      simp only [printItems, List.flatMap_cons, List.cons_append, List.append_assoc,
        List.cons.injEq, true_and] at heq
      have hitem := print_inj item item' (ends_items _ (by decide) r) (ends_items _ (by decide) r')
        heq
      subst hitem
      rw [items_inj items items' (List.append_cancel_left heq)]

theorem object_inj : ∀ (members members' : List (JsText × Json)) {r r' : Bytes},
    print (.object members) ++ r = print (.object members') ++ r' → members = members'
  | [], [], r, r', heq => rfl
  | [], (key', item') :: members', r, r', heq => by
      rw [print_object_append, print, printMembers, joinComma] at heq
      exact absurd (List.cons.inj (List.cons.inj heq).2).1 (by decide)
  | (key, item) :: members, [], r, r', heq => by
      rw [print_object_append, print, printMembers, joinComma] at heq
      exact absurd (List.cons.inj (List.cons.inj heq).2).1 (by decide)
  | (key, item) :: members, (key', item') :: members', r, r', heq => by
      rw [print_object_append, print_object_append] at heq
      obtain ⟨hkey, hrest⟩ := prefixCode_quote.append_inj (List.cons.inj heq).2
      have htail := (List.cons.inj hrest).2
      have hitem := print_inj item item' (ends_items _ (by decide) r) (ends_items _ (by decide) r')
        htail
      subst hitem hkey
      rw [members_inj members members' (List.append_cancel_left htail)]

theorem members_inj : ∀ (members members' : List (JsText × Json)) {r r' : Bytes},
    ((printMembers members).flatMap fun text => 0x2c :: text) ++ 0x7d :: r =
      ((printMembers members').flatMap fun text => 0x2c :: text) ++ 0x7d :: r' →
        members = members'
  | [], [], r, r', heq => rfl
  | [], (key', item') :: members', r, r', heq => by
      rw [printMembers, printMembers, List.flatMap_nil, List.flatMap_cons] at heq
      exact absurd (List.cons.inj heq).1 (by decide)
  | (key, item) :: members, [], r, r', heq => by
      rw [printMembers, printMembers, List.flatMap_nil, List.flatMap_cons] at heq
      exact absurd (List.cons.inj heq).1 (by decide)
  | (key, item) :: members, (key', item') :: members', r, r', heq => by
      simp only [printMembers, member, List.flatMap_cons, List.cons_append, List.append_assoc,
        List.cons.injEq, true_and] at heq
      obtain ⟨hkey, hrest⟩ := prefixCode_quote.append_inj heq
      have htail := (List.cons.inj hrest).2
      have hitem := print_inj item item' (ends_items _ (by decide) r) (ends_items _ (by decide) r')
        htail
      subst hitem hkey
      rw [members_inj members members' (List.append_cancel_left htail)]

end

theorem print_injective : Function.Injective print := by
  intro v w heq
  have hnil : Ends [] := by
    intro byte h
    cases h
  refine print_inj v w hnil hnil ?_
  rw [heq]

/-! ## 6. When two values have one text -/

/-- **Two values have one text exactly if they have one form.** -/
theorem stableJson_eq_iff (v w : JsValue) :
    stableJson v = stableJson w ↔ stableForm v = stableForm w := by
  rw [stableJson_eq_print, stableJson_eq_print]
  exact print_injective.eq_iff

mutual

/-- No object of the value has a member that is undefined. -/
def Plain : JsValue → Prop
  | .array items => PlainItems items
  | .object members => PlainMembers members
  | _ => True

def PlainItems : List JsValue → Prop
  | [] => True
  | item :: items => Plain item ∧ PlainItems items

def PlainMembers : List (JsText × JsValue) → Prop
  | [] => True
  | (_, item) :: members => item ≠ .undefined ∧ Plain item ∧ PlainMembers members

end

mutual

theorem stableForm_eq_jsonOf : ∀ v : JsValue, Plain v → stableForm v = jsonOf v
  | .undefined, _ => by rw [stableForm, jsonOf]
  | .null, _ => by rw [stableForm, jsonOf]
  | .nonFinite, _ => by rw [stableForm, jsonOf]
  | .bool b, _ => by rw [stableForm, jsonOf]
  | .number literal, _ => by rw [stableForm, jsonOf]
  | .string text, _ => by rw [stableForm, jsonOf]
  | .array items, h => by
      rw [Plain] at h
      rw [stableForm, jsonOf, formItems_eq_jsonItems items h]
  | .object members, h => by
      rw [Plain] at h
      rw [stableForm, jsonOf, formMembers_eq_jsonMembers members h]

theorem formItems_eq_jsonItems : ∀ items : List JsValue, PlainItems items →
    formItems items = jsonItems items
  | [], _ => by rw [formItems, jsonItems]
  | item :: items, h => by
      rw [PlainItems] at h
      rw [formItems, jsonItems, stableForm_eq_jsonOf item h.1, formItems_eq_jsonItems items h.2]

theorem formMembers_eq_jsonMembers : ∀ members : List (JsText × JsValue), PlainMembers members →
    formMembers members = jsonMembers members
  | [], _ => by rw [formMembers, jsonMembers]
  | (key, item) :: members, h => by
      rw [PlainMembers] at h
      rw [formMembers, jsonMembers, stableForm_eq_jsonOf item h.2.1,
        formMembers_eq_jsonMembers members h.2.2]
      exact h.1

end

/-- **The text is canonical.**  Two values in which no member is undefined have one text exactly
if JSON sends the same value for both, in whatever order their members were added. -/
theorem stableJson_canonical {v w : JsValue} (hv : Plain v) (hw : Plain w) :
    stableJson v = stableJson w ↔ jsonOf v = jsonOf w := by
  rw [stableJson_eq_iff, stableForm_eq_jsonOf v hv, stableForm_eq_jsonOf w hw]

theorem stableJson_canonical_swapped :
    stableJson (.object [(jsText "b", .null), (jsText "a", .bool true)]) =
      stableJson (.object [(jsText "a", .bool true), (jsText "b", .null)]) :=
  (stableJson_canonical (by simp [Plain, PlainMembers]) (by simp [Plain, PlainMembers])).mpr rfl

end DshNexus.Console
