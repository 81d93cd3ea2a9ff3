import DshNexus.Core.Integer
import DshNexus.Core.Text

/-!
# Loopback authorities

Three places of `crates/nexus-agent` decide by the text of an authority whether it names the
loopback interface: the Host header of a request, the Origin of the console, and the readiness
URL of a Harness.

1. `parseU16`, and the names of the interface.
2. The three parsers: `hostHeaderIsLoopback`, `isAllowedConsoleOriginForPort` and
   `ReadinessTarget.parse`.
3. Which texts each of them accepts.
4. What a loopback authority is, and the texts for which a parser departs from it.
-/

namespace DshNexus.Loopback

open Text

/-! ## 1. Ports and names -/

/-- A port: decimal digits, with a value below 65536. -/
def IsPort (digits : List Char) (port : Nat) : Prop :=
  digits ≠ [] ∧ digits.all Char.isDigit = true ∧ digitsValue digits = port ∧ port < 65536

/-- The digits of a number, without the plus sign that may stand before them. -/
def unsigned : List Char → List Char
  | '+' :: digits => digits
  | digits => digits

/-- `str::parse::<u16>`: an optional plus sign, then digits, without overflow. -/
def parseU16 (text : List Char) : Option Nat :=
  if unsigned text = [] ∨ (unsigned text).all Char.isDigit = false ∨
      digitsValue (unsigned text) > 65535 then none
  else some (digitsValue (unsigned text))

def loopbackNames : List (List Char) := ["127.0.0.1".toList, "localhost".toList, "::1".toList]

def isLoopbackHost (host : List Char) : Bool := host.map Char.toLower ∈ loopbackNames

/-! ## 2. The parsers -/

def hostHeaderIsLoopback (host : List Char) : Bool :=
  let hostOnly := match host with
    | '[' :: bracketed => ((splitOnce ']' bracketed).map Prod.fst).getD bracketed
    | host => if host.count ':' > 1 then host else host.takeWhile fun c => c ≠ ':'
  hostOnly.map Char.toLower ∈ loopbackNames

/-- The host and the port of an authority as `is_allowed_console_origin_for_port` takes it apart:
both have to be there. -/
def originParts (authority : List Char) : Option (List Char × List Char) :=
  match authority with
  | '[' :: rest =>
      match splitOnce ']' rest with
      | some (host, ':' :: port) => some (host, port)
      | _ => none
  | authority => rsplitOnce ':' authority

def isAllowedConsoleOriginForPort (origin : List Char) (expectedPort : Nat) : Bool :=
  if expectedPort = 0 then false
  else match "http://".toList.isPrefixOf? origin with
    | none => false
    | some authority =>
        if authority = [] ∨ (∃ c ∈ authority, c ∈ ['/', '?', '#', '@']) ∨
            authority.getLast? = some '.' then false
        else match originParts authority with
          | none => false
          | some (host, port) =>
              match parseU16 port with
              | none => false
              | some port =>
                  port = expectedPort &&
                    (host = "127.0.0.1".toList || host = "::1".toList ||
                      host.map Char.toLower = "localhost".toList)

structure ReadinessTarget where
  host : List Char
  port : Nat
  path : List Char
  tcp : Bool
  tokenRequired : Bool
  ownedWeb : Bool
  startupCommit : Bool
deriving DecidableEq, Repr

/-- The errors of `ReadinessTarget::parse`, each with the text of its report. -/
def unsupportedScheme : String :=
  "only http:// or tcp:// loopback readiness URLs are supported by the cross-platform supervisor"

/-- The host and the port of an authority as `ReadinessTarget::parse` takes it apart. -/
def readinessParts (tcp : Bool) (authority : List Char) : Except String (List Char × Nat) :=
  match authority with
  | '[' :: rest =>
      match splitOnce ']' rest with
      | none => .error "readiness URL has an invalid IPv6 host"
      | some (host, []) =>
          if tcp = true then .error "tcp readiness URLs must include an explicit port"
          else .ok (host, 80)
      | some (host, ':' :: port) =>
          match parseU16 port with
          | none => .error "readiness URL has an invalid port"
          | some port => .ok (host, port)
      | some (_, _ :: _) => .error "readiness URL has an invalid IPv6 port"
  | authority =>
      match rsplitOnce ':' authority with
      | some (host, port) =>
          match parseU16 port with
          | none => .error "readiness URL has an invalid port"
          | some port => .ok (host, port)
      | none =>
          if tcp = true then .error "tcp readiness URLs must include an explicit port"
          else .ok (authority, 80)

/-- The text before the first occurrence of a character, and what follows it if it is there. -/
def splitOff (c : Char) (text : List Char) : List Char × Option (List Char) :=
  match splitOnce c text with
  | some (before, after) => (before, some after)
  | none => (text, none)

def ReadinessTarget.parse (url : List Char) : Except String ReadinessTarget :=
  match splitAtText "://".toList url with
  | none => .error unsupportedScheme
  | some (scheme, authorityAndPath) =>
      let tcp : Bool := scheme.map Char.toLower = "tcp".toList
      if tcp = false ∧ scheme.map Char.toLower ≠ "http".toList then .error unsupportedScheme
      else if '#' ∈ authorityAndPath then .error "readiness URLs cannot contain a fragment"
      else
        let (base, query) := splitOff '?' authorityAndPath
        if tcp = true ∧ query.isSome = true then
          .error "tcp readiness URLs cannot contain a query"
        else
          let (authority, rest) := splitOff '/' base
          let path := '/' :: rest.getD [] ++ (query.map ('?' :: ·)).getD []
          if tcp = true ∧ path ≠ ['/'] then .error "tcp readiness URLs cannot contain a path"
          else if authority = [] then .error "readiness URL has no host"
          else match readinessParts tcp authority with
            | .error reason => .error reason
            | .ok (host, port) =>
                if host = [] then .error "readiness URL has no host"
                else if isLoopbackHost host = false then
                  .error "readiness URL must target localhost, 127.0.0.1, or [::1]"
                else if port = 0 then
                  .error "readiness URL port must be between 1 and 65535"
                else .ok ⟨host, port, path, tcp, false, false, false⟩

/-! ## 3. What the parsers accept -/

def LoopbackName (name : List Char) : Prop :=
  name = "127.0.0.1".toList ∨ name.map Char.toLower = "localhost".toList ∨ name = "::1".toList

theorem digit_of_isPort {digits : List Char} {port : Nat} (h : IsPort digits port) :
    ∀ c ∈ digits, c.isDigit = true := List.all_eq_true.mp h.2.1

theorem not_mem_of_isPort {digits : List Char} {port : Nat} (h : IsPort digits port) {c : Char}
    (hc : c.isDigit = false) : c ∉ digits := by
  intro hmem
  rw [digit_of_isPort h c hmem] at hc
  cases hc

theorem parseU16_eq_some_iff {text : List Char} {port : Nat} :
    parseU16 text = some port ↔ IsPort (unsigned text) port := by
  unfold parseU16 IsPort
  constructor
  · intro h
    split at h
    · cases h
    · next hok =>
      rw [not_or, not_or, Bool.not_eq_false] at hok
      have hport := Option.some.inj h
      exact ⟨hok.1, hok.2.1, hport, by omega⟩
  · rintro ⟨hne, hall, hvalue, hbound⟩
    rw [if_neg, hvalue]
    rw [not_or, not_or, Bool.not_eq_false]
    exact ⟨hne, hall, by omega⟩

theorem parseU16_eq_some {text : List Char} {port : Nat} :
    parseU16 text = some port ↔
      IsPort text port ∨ ∃ digits, text = '+' :: digits ∧ IsPort digits port := by
  rw [parseU16_eq_some_iff]
  by_cases hsign : ∃ digits, text = '+' :: digits
  · obtain ⟨digits, rfl⟩ := hsign
    have hnot : ¬ IsPort ('+' :: digits) port := fun h =>
      absurd (digit_of_isPort h '+' List.mem_cons_self) (by decide)
    show IsPort digits port ↔ _
    simp [hnot]
  · have hplain : unsigned text = text := by
      unfold unsigned
      split
      · next digits => exact absurd ⟨digits, rfl⟩ hsign
      · rfl
    rw [hplain]
    exact ⟨Or.inl, fun h => h.resolve_right fun ⟨digits, hdigits, _⟩ => hsign ⟨digits, hdigits⟩⟩

theorem not_mem_of_parseU16 {text : List Char} {port : Nat} (h : parseU16 text = some port)
    {c : Char} (hc : c.isDigit = false) (hplus : c ≠ '+') : c ∉ text := by
  rcases parseU16_eq_some.mp h with hport | ⟨digits, rfl, hport⟩
  · exact not_mem_of_isPort hport hc
  · rw [List.mem_cons, not_or]
    exact ⟨hplus, not_mem_of_isPort hport hc⟩

theorem toLower_eq_iff {c d : Char} (hd : d.toNat < 65) : c.toLower = d ↔ c = d := by
  unfold Char.toLower
  split
  · next hupper =>
    have hlow : 65 ≤ c.val.toNat ∧ c.val.toNat ≤ 90 := hupper
    constructor
    · intro h
      have hval : d.toNat = c.val.toNat + 32 := by
        rw [← h]
        show (c.val + ('a'.val - 'A'.val)).toNat = _
        rw [UInt32.toNat_add]
        have hshift : ('a'.val - 'A'.val).toNat = 32 := rfl
        rw [hshift]
        omega
      omega
    · rintro rfl
      exact absurd hlow.1 (by show ¬ 65 ≤ c.toNat; omega)
  · exact Iff.rfl

theorem map_toLower_eq {text plain : List Char} (hplain : ∀ c ∈ plain, c.toNat < 65) :
    text.map Char.toLower = plain ↔ text = plain := by
  induction text generalizing plain with
  | nil => rw [List.map_nil]
  | cons c cs ih =>
    cases plain with
    | nil => simp
    | cons d ds =>
      rw [List.map_cons, List.cons.injEq, List.cons.injEq,
        toLower_eq_iff (hplain d List.mem_cons_self),
        ih fun e he => hplain e (List.mem_cons_of_mem _ he)]

theorem isLoopbackHost_iff {host : List Char} : isLoopbackHost host = true ↔ LoopbackName host := by
  have hfour : ∀ c ∈ "127.0.0.1".toList, c.toNat < 65 := by simp
  have hsix : ∀ c ∈ "::1".toList, c.toNat < 65 := by simp
  rw [isLoopbackHost, decide_eq_true_eq, loopbackNames, List.mem_cons, List.mem_cons,
    List.mem_singleton, map_toLower_eq hfour, map_toLower_eq hsix]
  rfl

theorem LoopbackName.not_mem {name : List Char} (h : LoopbackName name) {c : Char}
    (hc : c.toLower ∉ loopbackNames.flatten) : c ∉ name := by
  intro hmem
  refine hc (List.mem_flatten.mpr ⟨name.map Char.toLower, ?_, List.mem_map_of_mem hmem⟩)
  have hname := isLoopbackHost_iff.mpr h
  rwa [isLoopbackHost, decide_eq_true_eq] at hname

theorem LoopbackName.shape {name : List Char} (h : LoopbackName name) :
    '[' ∉ name ∧ ']' ∉ name ∧ name ≠ [] ∧ (':' ∉ name ∨ name = "::1".toList) := by
  refine ⟨h.not_mem (by decide), h.not_mem (by decide), ?_, ?_⟩
  · rintro rfl
    rcases h with h | h | h <;> cases h
  · rcases h with rfl | hlocal | rfl
    · exact Or.inl (by decide)
    · left
      intro hmem
      have hcolon := List.mem_map_of_mem (f := Char.toLower) hmem
      rw [hlocal] at hcolon
      exact absurd hcolon (by decide)
    · exact Or.inr rfl

theorem LoopbackName.head_ne {name : List Char} (h : LoopbackName name) (rest tail : List Char) :
    name ++ tail ≠ '[' :: rest := by
  intro heq
  cases name with
  | nil => exact h.shape.2.2.1 rfl
  | cons c cs =>
    rw [List.cons_append, List.cons.injEq] at heq
    exact h.shape.1 (by rw [heq.1]; exact List.mem_cons_self)

/-- The host guard takes a name in brackets, closed or not, with anything behind them; a name; and
a name without colons with anything but a colon behind its own. -/
theorem hostHeaderIsLoopback_iff {text : List Char} :
    hostHeaderIsLoopback text = true ↔
      (∃ name, LoopbackName name ∧ text = '[' :: name) ∨
      (∃ name rest, LoopbackName name ∧ text = '[' :: (name ++ ']' :: rest)) ∨
      LoopbackName text ∨
      ∃ name suffix, LoopbackName name ∧ ':' ∉ name ∧ ':' ∉ suffix ∧
        text = name ++ ':' :: suffix := by
  have hname : ∀ host : List Char, host.map Char.toLower ∈ loopbackNames ↔ LoopbackName host := by
    intro host
    rw [← isLoopbackHost_iff, isLoopbackHost, decide_eq_true_eq]
  unfold hostHeaderIsLoopback
  rw [decide_eq_true_eq, hname]
  constructor
  · intro h
    split at h
    · next bracketed =>
      cases hsplit : splitOnce ']' bracketed with
      | none =>
        rw [hsplit] at h
        exact Or.inl ⟨bracketed, h, rfl⟩
      | some parts =>
        rw [hsplit] at h
        refine Or.inr (Or.inl ⟨parts.1, parts.2, h, ?_⟩)
        rw [(splitOnce_eq_some hsplit).1]
    · next hhead =>
      split at h
      · exact Or.inr (Or.inr (Or.inl h))
      · next hcount =>
        rw [takeWhile_eq_splitOnce] at h
        cases hsplit : splitOnce ':' text with
        | none =>
          rw [hsplit] at h
          exact Or.inr (Or.inr (Or.inl h))
        | some parts =>
          obtain ⟨name, suffix⟩ := parts
          obtain ⟨htext, hplain⟩ := splitOnce_eq_some hsplit
          rw [hsplit] at h
          refine Or.inr (Or.inr (Or.inr ⟨name, suffix, h, hplain, ?_, htext⟩))
          rw [htext, List.count_append, List.count_cons_self] at hcount
          exact List.count_eq_zero.mp (by omega)
  · rintro (⟨name, h, rfl⟩ | ⟨name, rest, h, rfl⟩ | h | ⟨name, suffix, h, hplain, hsuffix, rfl⟩)
    · show LoopbackName (((splitOnce ']' name).map Prod.fst).getD name)
      rw [splitOnce_eq_none.mpr h.shape.2.1]
      exact h
    · show LoopbackName (((splitOnce ']' (name ++ ']' :: rest)).map Prod.fst).getD _)
      rw [splitOnce_append _ h.shape.2.1]
      exact h
    · split
      · next bracketed => exact absurd (List.append_nil _) (h.head_ne bracketed [])
      · split
        · exact h
        · next hcount =>
          rcases h.shape.2.2.2 with hnone | rfl
          · rw [takeWhile_eq_splitOnce, splitOnce_eq_none.mpr hnone]
            exact h
          · exact absurd (by decide) hcount
    · split
      · next bracketed heq => exact absurd heq (h.head_ne bracketed _)
      · have hcount : ¬ (name ++ ':' :: suffix).count ':' > 1 := by
          rw [List.count_append, List.count_cons_self, List.count_eq_zero.mpr hplain,
            List.count_eq_zero.mpr hsuffix]
          omega
        rw [if_neg hcount, takeWhile_eq_splitOnce, splitOnce_append _ hplain]
        exact h

theorem originParts_eq_some {authority host port : List Char} :
    originParts authority = some (host, port) ↔
      (authority = '[' :: (host ++ ']' :: ':' :: port) ∧ ']' ∉ host) ∨
      ((∀ rest, authority ≠ '[' :: rest) ∧ authority = host ++ ':' :: port ∧ ':' ∉ port) := by
  constructor
  · intro h
    unfold originParts at h
    split at h
    · next rest =>
      split at h
      · next host' port' hsplit =>
        obtain ⟨rfl, rfl⟩ := Prod.mk.inj (Option.some.inj h)
        obtain ⟨rfl, hhost⟩ := splitOnce_eq_some hsplit
        exact Or.inl ⟨rfl, hhost⟩
      · cases h
    · next hopen => exact Or.inr ⟨fun rest => hopen rest, rsplitOnce_eq_some.mp h⟩
  · rintro (⟨rfl, hhost⟩ | ⟨hopen, hparts⟩)
    · simp [originParts, splitOnce_append (':' :: port) hhost]
    · unfold originParts
      split
      · next rest => exact absurd rfl (hopen rest)
      · exact rsplitOnce_eq_some.mpr hparts

theorem ne_nil_of_parseU16 {text : List Char} {port : Nat} (h : parseU16 text = some port) :
    text ≠ [] := by
  rintro rfl
  exact (parseU16_eq_some_iff.mp h).1 rfl

theorem getLast?_ne_dot {digits : List Char} {port : Nat} (h : parseU16 digits = some port)
    (before : List Char) : (before ++ digits).getLast? ≠ some '.' := by
  rw [List.getLast?_append]
  cases hlast : digits.getLast? with
  | none => exact absurd (List.getLast?_eq_none_iff.mp hlast) (ne_nil_of_parseU16 h)
  | some c =>
    rw [Option.some_or]
    rintro hc
    rw [Option.some.inj hc] at hlast
    exact not_mem_of_parseU16 h (by decide) (by decide) (List.mem_of_getLast? hlast)

theorem separator {c : Char} (hc : c ∈ ['/', '?', '#', '@']) :
    c.toLower ∉ loopbackNames.flatten ∧ c.isDigit = false ∧ c ≠ '+' ∧ c ∉ ['[', ']', ':'] := by
  simp only [List.mem_cons, List.not_mem_nil, or_false] at hc
  rcases hc with rfl | rfl | rfl | rfl <;> decide

theorem LoopbackName.not_mem_bare {name digits : List Char} {port : Nat} (h : LoopbackName name)
    (hvalue : parseU16 digits = some port) {c : Char} (hc : c ∈ ['/', '?', '#', '@']) :
    c ∉ name ++ ':' :: digits := by
  obtain ⟨hletter, hdigit, hplus, hbracket⟩ := separator hc
  have hname := h.not_mem hletter
  have hdigits := not_mem_of_parseU16 hvalue hdigit hplus
  simp only [List.mem_append, List.mem_cons, List.not_mem_nil, or_false, not_or] at hbracket ⊢
  exact ⟨hname, hbracket.2.2, hdigits⟩

theorem LoopbackName.not_mem_bracketed {name digits : List Char} {port : Nat}
    (h : LoopbackName name) (hvalue : parseU16 digits = some port) {c : Char}
    (hc : c ∈ ['/', '?', '#', '@']) : c ∉ '[' :: (name ++ ']' :: ':' :: digits) := by
  have hbare := h.not_mem_bare hvalue hc
  have hbracket := (separator hc).2.2.2
  simp only [List.mem_append, List.mem_cons, List.not_mem_nil, or_false, not_or] at hbare hbracket ⊢
  exact ⟨hbracket.1, hbare.1, hbracket.2.1, hbare.2⟩

/-- The console's origin needs a name and the expected port, with brackets or without. -/
theorem isAllowedConsoleOriginForPort_iff {text : List Char} {expectedPort : Nat} :
    isAllowedConsoleOriginForPort ("http://".toList ++ text) expectedPort = true ↔
      expectedPort ≠ 0 ∧ ∃ name digits, LoopbackName name ∧ parseU16 digits = some expectedPort ∧
        (text = '[' :: (name ++ ']' :: ':' :: digits) ∨ text = name ++ ':' :: digits) := by
  have hstrip : "http://".toList.isPrefixOf? ("http://".toList ++ text) = some text := rfl
  have hname : ∀ host : List Char, (host = "127.0.0.1".toList ∨ host = "::1".toList ∨
      host.map Char.toLower = "localhost".toList) ↔ LoopbackName host := by
    intro host
    unfold LoopbackName
    tauto
  unfold isAllowedConsoleOriginForPort
  rw [hstrip]
  constructor
  · intro h
    split at h
    · cases h
    · next hzero =>
      split at h
      · next hnone => cases hnone
      · next authority hsome =>
        obtain rfl := Option.some.inj hsome
        split at h
        · cases h
        · split at h
          · cases h
          · next host port hparts =>
            split at h
            · cases h
            · next value hvalue =>
              rw [Bool.and_eq_true, decide_eq_true_eq, Bool.or_eq_true, Bool.or_eq_true,
                decide_eq_true_eq, decide_eq_true_eq, decide_eq_true_eq, or_assoc, hname] at h
              obtain ⟨rfl, hhost⟩ := h
              refine ⟨hzero, host, port, hhost, hvalue, ?_⟩
              rcases originParts_eq_some.mp hparts with ⟨htext, _⟩ | ⟨_, htext, _⟩
              · exact Or.inl htext
              · exact Or.inr htext
  · rintro ⟨hzero, name, digits, hhost, hvalue, htext⟩
    have hparts : originParts text = some (name, digits) := by
      rw [originParts_eq_some]
      rcases htext with rfl | rfl
      · exact Or.inl ⟨rfl, hhost.shape.2.1⟩
      · exact Or.inr ⟨fun rest => hhost.head_ne rest _, rfl,
          not_mem_of_parseU16 hvalue (by decide) (by decide)⟩
    have hclean : ∀ c ∈ text, c ∉ ['/', '?', '#', '@'] := by
      intro c hc hsep
      rcases htext with rfl | rfl
      · exact hhost.not_mem_bracketed hvalue hsep hc
      · exact hhost.not_mem_bare hvalue hsep hc
    have hlast : text.getLast? ≠ some '.' := by
      rcases htext with rfl | rfl
      · have happend : '[' :: (name ++ ']' :: ':' :: digits) =
            ('[' :: (name ++ [']', ':'])) ++ digits := by simp
        rw [happend]
        exact getLast?_ne_dot hvalue _
      · rw [List.append_cons]
        exact getLast?_ne_dot hvalue _
    have hne : text ≠ [] := by
      rcases htext with rfl | rfl <;> simp
    have hguard : ¬ (text = [] ∨ (∃ c ∈ text, c ∈ ['/', '?', '#', '@']) ∨
        text.getLast? = some '.') := by
      rintro (h | ⟨c, hc, hsep⟩ | h)
      · exact hne h
      · exact hclean c hc hsep
      · exact hlast h
    rw [if_neg hzero]
    simp only [if_neg hguard, hparts, hvalue]
    rw [Bool.and_eq_true, decide_eq_true_eq, Bool.or_eq_true, Bool.or_eq_true,
      decide_eq_true_eq, decide_eq_true_eq, decide_eq_true_eq, or_assoc, hname]
    exact ⟨trivial, hhost⟩

theorem splitOff_fst (c : Char) (text : List Char) :
    (splitOff c text).1 = text.takeWhile fun d => d ≠ c := by
  rw [takeWhile_eq_splitOnce]
  unfold splitOff
  cases splitOnce c text <;> rfl

/-- The authority of a URL's text after the scheme: it ends before the path and the query. -/
def authorityOf (text : List Char) : List Char :=
  text.takeWhile fun c => c ≠ '/' ∧ c ≠ '?'

theorem authorityOf_eq (text : List Char) :
    (splitOff '/' (splitOff '?' text).1).1 = authorityOf text := by
  rw [splitOff_fst, splitOff_fst, List.takeWhile_takeWhile]
  simp [authorityOf]

/-- The readiness parser takes a host and a port out of an authority with brackets or without. -/
theorem readinessParts_eq_ok {authority host : List Char} {port : Nat} :
    readinessParts false authority = .ok (host, port) ↔
      (']' ∉ host ∧ (authority = '[' :: (host ++ [']']) ∧ port = 80 ∨
        ∃ digits, parseU16 digits = some port ∧
          authority = '[' :: (host ++ ']' :: ':' :: digits))) ∨
      ((∀ rest, authority ≠ '[' :: rest) ∧ (':' ∉ authority ∧ authority = host ∧ port = 80 ∨
        ∃ digits, parseU16 digits = some port ∧ ':' ∉ digits ∧
          authority = host ++ ':' :: digits)) := by
  constructor
  · intro h
    unfold readinessParts at h
    split at h
    · next rest =>
      left
      split at h
      · cases h
      · next host' hsplit =>
        obtain ⟨rfl, hhost⟩ := splitOnce_eq_some hsplit
        rw [if_neg (by decide)] at h
        obtain ⟨rfl, rfl⟩ := Prod.mk.inj (Except.ok.inj h)
        exact ⟨hhost, Or.inl ⟨rfl, rfl⟩⟩
      · next host' digits hsplit =>
        obtain ⟨rfl, hhost⟩ := splitOnce_eq_some hsplit
        split at h
        · cases h
        · next value hvalue =>
          obtain ⟨rfl, rfl⟩ := Prod.mk.inj (Except.ok.inj h)
          exact ⟨hhost, Or.inr ⟨digits, hvalue, rfl⟩⟩
      · cases h
    · next hopen =>
      refine Or.inr ⟨fun rest => hopen rest, ?_⟩
      split at h
      · next host' digits hsplit =>
        obtain ⟨htext, hdigits⟩ := rsplitOnce_eq_some.mp hsplit
        split at h
        · cases h
        · next value hvalue =>
          obtain ⟨rfl, rfl⟩ := Prod.mk.inj (Except.ok.inj h)
          exact Or.inr ⟨digits, hvalue, hdigits, htext⟩
      · next hsplit =>
        rw [if_neg (by decide)] at h
        obtain ⟨rfl, rfl⟩ := Prod.mk.inj (Except.ok.inj h)
        exact Or.inl ⟨rsplitOnce_eq_none.mp hsplit, rfl, rfl⟩
  · rintro (⟨hhost, ⟨rfl, rfl⟩ | ⟨digits, hvalue, rfl⟩⟩ |
      ⟨hopen, ⟨hplain, rfl, rfl⟩ | ⟨digits, hvalue, hdigits, htext⟩⟩)
    · simp [readinessParts, splitOnce_append [] hhost]
    · simp [readinessParts, splitOnce_append (':' :: digits) hhost, hvalue]
    · unfold readinessParts
      split
      · next rest => exact absurd rfl (hopen rest)
      · rw [rsplitOnce_eq_none.mpr hplain]
        simp
    · unfold readinessParts
      split
      · next rest => exact absurd rfl (hopen rest)
      · rw [rsplitOnce_eq_some.mpr ⟨htext, hdigits⟩]
        simp [hvalue]

/-- An authority that the readiness parser accepts in an `http` URL. -/
def ReadyAuthority (authority : List Char) : Prop :=
  ∃ name, LoopbackName name ∧
    (authority = '[' :: (name ++ [']']) ∨ (authority = name ∧ ':' ∉ name) ∨
      ∃ digits port, parseU16 digits = some port ∧ port ≠ 0 ∧
        (authority = '[' :: (name ++ ']' :: ':' :: digits) ∨ authority = name ++ ':' :: digits))

/-- The readiness parser accepts a URL without fragment by its authority. -/
theorem readinessTarget_parse_iff {text : List Char} :
    (∃ target, ReadinessTarget.parse ("http://".toList ++ text) = .ok target) ↔
      '#' ∉ text ∧ ReadyAuthority (authorityOf text) := by
  have hscheme : splitAtText "://".toList "http://".toList = some ("http".toList, []) := by decide
  have hsplit : splitAtText "://".toList ("http://".toList ++ text) =
      some ("http".toList, text) := by
    have happend := splitAtText_append hscheme text
    rwa [← (by decide : "http".toList ++ "://".toList = "http://".toList)]
  have hhttp : "http".toList.map Char.toLower = "http".toList := by decide
  have htcp : decide ("http".toList = "tcp".toList) = false := by decide
  unfold ReadinessTarget.parse
  rw [hsplit]
  simp only [hhttp, htcp, Bool.false_eq_true, false_and, if_false, ne_eq, not_true_eq_false,
    and_false, authorityOf_eq]
  constructor
  · rintro ⟨target, h⟩
    split at h
    · cases h
    · next hfragment =>
      refine ⟨hfragment, ?_⟩
      split at h
      · cases h
      · split at h
        · cases h
        · next host port hparts =>
          split at h
          · cases h
          · split at h
            · cases h
            · next hname =>
              rw [Bool.not_eq_false] at hname
              have hhost := isLoopbackHost_iff.mp hname
              split at h
              · cases h
              · next hport =>
                refine ⟨host, hhost, ?_⟩
                rcases readinessParts_eq_ok.mp hparts with
                  ⟨_, ⟨ha, _⟩ | ⟨digits, hvalue, ha⟩⟩ |
                  ⟨_, ⟨hplain, ha, _⟩ | ⟨digits, hvalue, _, ha⟩⟩
                · exact Or.inl ha
                · exact Or.inr (Or.inr ⟨digits, port, hvalue, hport, Or.inl ha⟩)
                · exact Or.inr (Or.inl ⟨ha, by rwa [← ha]⟩)
                · exact Or.inr (Or.inr ⟨digits, port, hvalue, hport, Or.inr ha⟩)
  · rintro ⟨hfragment, name, hname, hshape⟩
    have hready : ∃ port, port ≠ 0 ∧
        readinessParts false (authorityOf text) = .ok (name, port) := by
      simp only [readinessParts_eq_ok]
      rcases hshape with ha | ⟨ha, hplain⟩ | ⟨digits, port, hvalue, hport, ha | ha⟩
      · exact ⟨80, by decide, Or.inl ⟨hname.shape.2.1, Or.inl ⟨ha, rfl⟩⟩⟩
      · refine ⟨80, by decide, Or.inr ⟨fun rest hopen => ?_, Or.inl ⟨by rwa [ha], ha, rfl⟩⟩⟩
        exact hname.head_ne rest [] (by rw [List.append_nil, ← ha, hopen])
      · exact ⟨port, hport, Or.inl ⟨hname.shape.2.1, Or.inr ⟨digits, hvalue, ha⟩⟩⟩
      · refine ⟨port, hport, Or.inr ⟨fun rest hopen => ?_, Or.inr ⟨digits, hvalue, ?_, ha⟩⟩⟩
        · exact hname.head_ne rest _ (ha.symm.trans hopen)
        · exact not_mem_of_parseU16 hvalue (by decide) (by decide)
    obtain ⟨port, hport, hparts⟩ := hready
    have hne : authorityOf text ≠ [] := by
      intro hempty
      rcases hshape with ha | ⟨ha, _⟩ | ⟨_, _, _, _, ha | ha⟩ <;> rw [hempty] at ha
      · cases ha
      · exact hname.shape.2.2.1 ha.symm
      · cases ha
      · exact absurd ha.symm (by simp)
    have hhost : ¬ isLoopbackHost name = false := by
      rw [Bool.not_eq_false]
      exact isLoopbackHost_iff.mpr hname
    rw [if_neg hfragment, if_neg hne, hparts]
    simp only [if_neg hname.shape.2.2.1, if_neg hhost, if_neg hport]
    exact ⟨_, rfl⟩

/-! ## 4. Loopback authorities -/

/-- **An authority of the loopback interface**: one of its names, or `[::1]`, alone or with a
port. -/
def LoopbackAuthority (text : List Char) (port : Option Nat) : Prop :=
  ∃ host, (LoopbackName host ∨ host = "[::1]".toList) ∧
    match port with
    | none => text = host
    | some port => ∃ digits, IsPort digits port ∧ text = host ++ ':' :: digits

/-- **Only loopback authorities are accepted**, and all of them are, for one text. -/
structure OnlyLoopback (text : List Char) : Prop where
  /-- The host guard accepts loopback authorities only. -/
  header : hostHeaderIsLoopback text = true → ∃ port, LoopbackAuthority text port
  /-- The console's origin is a loopback authority with the expected port. -/
  origin : ∀ expectedPort,
    isAllowedConsoleOriginForPort ("http://".toList ++ text) expectedPort = true →
      LoopbackAuthority text (some expectedPort)
  /-- The readiness URL's authority is a loopback authority. -/
  readiness : (∃ target, ReadinessTarget.parse ("http://".toList ++ text) = .ok target) →
    ∃ port, LoopbackAuthority (authorityOf text) port
  /-- The host guard accepts every loopback authority. -/
  header_all : ∀ port, LoopbackAuthority text port → hostHeaderIsLoopback text = true
  /-- The readiness parser accepts every loopback authority with a port other than 0. -/
  readiness_all : ∀ port, port ≠ 0 → LoopbackAuthority text (some port) →
    ∃ target, ReadinessTarget.parse ("http://".toList ++ text) = .ok target

/-- The texts for which a parser departs from the loopback authorities. -/
inductive Malformed : List Char → Prop
  /-- A name behind a bracket that is not closed. -/
  | unclosed {name : List Char} (hname : LoopbackName name) : Malformed ('[' :: name)
  /-- A name in brackets that is not `::1`, or has something other than a port behind it. -/
  | bracketed {name suffix : List Char} (hname : LoopbackName name)
      (hsuffix : name = "::1".toList → suffix ≠ [] ∧
        ∀ digits port, IsPort digits port → suffix ≠ ':' :: digits) :
      Malformed ('[' :: (name ++ ']' :: suffix))
  /-- A name without colons before a colon and a text that is no port. -/
  | port {name suffix : List Char} (hname : LoopbackName name) (hplain : ':' ∉ name)
      (hcolon : ':' ∉ suffix) (hsuffix : ∀ port, ¬ IsPort suffix port) :
      Malformed (name ++ ':' :: suffix)
  /-- `::1` without brackets before a port. -/
  | unbracketed {digits : List Char} {port : Nat} (hport : IsPort digits port) :
      Malformed ("::1".toList ++ ':' :: digits)
  /-- A port other than 0 behind a plus sign, in an authority without fragment behind it. -/
  | signed {text name digits : List Char} {port : Nat} (hfragment : '#' ∉ text)
      (hname : LoopbackName name) (hport : IsPort digits port) (hzero : port ≠ 0)
      (htext : authorityOf text = name ++ ':' :: '+' :: digits) : Malformed text

theorem LoopbackAuthority.of_bracketed {name suffix : List Char} {port : Option Nat}
    (hname : ']' ∉ name) (h : LoopbackAuthority ('[' :: (name ++ ']' :: suffix)) port) :
    name = "::1".toList ∧
      (suffix = [] ∨ ∃ digits port, IsPort digits port ∧ suffix = ':' :: digits) := by
  obtain ⟨host, hhost, hshape⟩ := h
  have hsix : ']' ∉ "::1".toList := by decide
  have hcut : ∀ tail, '[' :: (name ++ ']' :: suffix) = host ++ tail →
      name = "::1".toList ∧ suffix = tail := by
    intro tail heq
    rcases hhost with hhost | rfl
    · exact absurd heq.symm (hhost.head_ne _ _)
    · have hbracket : "[::1]".toList ++ tail = '[' :: ("::1".toList ++ ']' :: tail) := rfl
      rw [hbracket, List.cons.injEq] at heq
      have hleft := splitOnce_append suffix hname
      rw [heq.2, splitOnce_append _ hsix] at hleft
      obtain ⟨h1, h2⟩ := Prod.mk.inj (Option.some.inj hleft)
      exact ⟨h1.symm, h2.symm⟩
  cases port with
  | none =>
    obtain ⟨h1, h2⟩ := hcut [] (by rw [List.append_nil]; exact hshape)
    exact ⟨h1, Or.inl h2⟩
  | some port =>
    obtain ⟨digits, hport, heq⟩ := hshape
    obtain ⟨h1, h2⟩ := hcut _ heq
    exact ⟨h1, Or.inr ⟨digits, port, hport, h2⟩⟩

theorem count_colon {host : List Char} (h : LoopbackName host ∨ host = "[::1]".toList) :
    host.count ':' = 0 ∨ host.count ':' = 2 := by
  rcases h with h | rfl
  · rcases h.shape.2.2.2 with h | rfl
    · exact Or.inl (List.count_eq_zero.mpr h)
    · exact Or.inr (by decide)
  · exact Or.inr (by decide)

theorem LoopbackAuthority.port_of_append {name suffix : List Char} {port : Option Nat}
    (hname : LoopbackName name) (hsuffix : ':' ∉ suffix)
    (h : LoopbackAuthority (name ++ ':' :: suffix) port) : ∃ port, IsPort suffix port := by
  obtain ⟨host, hhost, hshape⟩ := h
  cases port with
  | none =>
    have hcount := congrArg (List.count ':') hshape
    rw [List.count_append, List.count_cons_self, List.count_eq_zero.mpr hsuffix] at hcount
    rcases count_colon hhost with h | h <;> rcases count_colon (Or.inl hname) with h' | h' <;> omega
  | some port =>
    obtain ⟨digits, hport, heq⟩ := hshape
    have hcolon : ':' ∉ digits := not_mem_of_isPort hport (by decide)
    have hleft := rsplitOnce_eq_some.mpr ⟨heq, hcolon⟩
    rw [rsplitOnce_eq_some.mpr ⟨rfl, hsuffix⟩] at hleft
    rw [(Prod.mk.inj (Option.some.inj hleft)).2]
    exact ⟨port, hport⟩

theorem not_isPort_signed (digits : List Char) (port : Nat) : ¬ IsPort ('+' :: digits) port :=
  fun h => absurd (digit_of_isPort h '+' List.mem_cons_self) (by decide)

theorem LoopbackAuthority.not_mem {text : List Char} {port : Option Nat}
    (h : LoopbackAuthority text port) {c : Char} (hc : c ∈ ['/', '?', '#', '@']) : c ∉ text := by
  obtain ⟨host, hhost, hshape⟩ := h
  obtain ⟨hletter, hdigit, _, hbracket⟩ := separator hc
  have hnot : c ∉ host := by
    rcases hhost with hhost | rfl
    · exact hhost.not_mem hletter
    · simp only [List.mem_cons, List.not_mem_nil, or_false] at hc
      rcases hc with rfl | rfl | rfl | rfl <;> decide
  cases port with
  | none =>
    obtain rfl : text = host := hshape
    exact hnot
  | some port =>
    obtain ⟨digits, hport, rfl⟩ := hshape
    simp only [List.mem_append, List.mem_cons, List.not_mem_nil, or_false, not_or] at hbracket ⊢
    exact ⟨hnot, hbracket.2.2, not_mem_of_isPort hport hdigit⟩

theorem authorityOf_of_not_mem {text : List Char} (hslash : '/' ∉ text) (hquery : '?' ∉ text) :
    authorityOf text = text := by
  refine List.takeWhile_eq_self_iff.mpr fun c hc => ?_
  rw [decide_eq_true_eq]
  exact ⟨fun h => hslash (h ▸ hc), fun h => hquery (h ▸ hc)⟩

theorem header_unbracketed {digits : List Char} {port : Nat} (hport : IsPort digits port) :
    ¬ hostHeaderIsLoopback ("::1".toList ++ ':' :: digits) = true := by
  have hcolon : ':' ∉ digits := not_mem_of_isPort hport (by decide)
  have hcount : ("::1".toList ++ ':' :: digits).count ':' = 3 := by
    rw [List.count_append, List.count_cons_self, List.count_eq_zero.mpr hcolon]
    decide
  rw [hostHeaderIsLoopback_iff]
  rintro (⟨_, _, h⟩ | ⟨_, _, _, h⟩ | h | ⟨name, suffix, _, hname, hsuffix, h⟩)
  · cases h
  · cases h
  · rcases count_colon (Or.inl h) with h | h <;> omega
  · rw [h, List.count_append, List.count_cons_self, List.count_eq_zero.mpr hname,
      List.count_eq_zero.mpr hsuffix] at hcount
    omega

/-- The texts that are not malformed keep to the loopback authorities at every parser. -/
theorem onlyLoopback_of_not_malformed {text : List Char} (h : ¬ Malformed text) :
    OnlyLoopback text := by
  have hbracketed : ∀ {name suffix : List Char}, LoopbackName name →
      ¬ Malformed ('[' :: (name ++ ']' :: suffix)) → name = "::1".toList ∧
        (suffix = [] ∨ ∃ digits port, IsPort digits port ∧ suffix = ':' :: digits) := by
    intro name suffix hname hwell
    by_contra hnot
    refine hwell (Malformed.bracketed hname fun hsix => ?_)
    rw [not_and, not_or, not_exists] at hnot
    refine ⟨(hnot hsix).1, fun digits port hport heq => ?_⟩
    exact (hnot hsix).2 digits ⟨port, hport, heq⟩
  refine ⟨?_, ?_, ?_, ?_, ?_⟩
  · intro haccept
    rcases hostHeaderIsLoopback_iff.mp haccept with
      ⟨name, hname, rfl⟩ | ⟨name, suffix, hname, rfl⟩ | hname |
      ⟨name, suffix, hname, hplain, hcolon, rfl⟩
    · exact absurd (Malformed.unclosed hname) h
    · obtain ⟨rfl, rfl | ⟨digits, port, hport, rfl⟩⟩ := hbracketed hname h
      · exact ⟨none, "[::1]".toList, Or.inr rfl, rfl⟩
      · exact ⟨some port, "[::1]".toList, Or.inr rfl, digits, hport, rfl⟩
    · exact ⟨none, text, Or.inl hname, rfl⟩
    · by_cases hport : ∃ port, IsPort suffix port
      · obtain ⟨port, hport⟩ := hport
        exact ⟨some port, name, Or.inl hname, suffix, hport, rfl⟩
      · rw [not_exists] at hport
        exact absurd (Malformed.port hname hplain hcolon hport) h
  · intro expectedPort haccept
    obtain ⟨hzero, name, digits, hname, hvalue, htext⟩ :=
      isAllowedConsoleOriginForPort_iff.mp haccept
    rcases htext with rfl | rfl
    · obtain ⟨rfl, hempty | ⟨digits', port, hport, heq⟩⟩ := hbracketed hname h
      · cases hempty
      · rw [List.cons.injEq] at heq
        obtain ⟨_, rfl⟩ := heq
        rcases parseU16_eq_some.mp hvalue with hport' | ⟨digits', rfl, hport'⟩
        · exact ⟨"[::1]".toList, Or.inr rfl, digits, hport', rfl⟩
        · exact absurd hport (not_isPort_signed _ _)
    · rcases parseU16_eq_some.mp hvalue with hport' | ⟨digits', rfl, hport'⟩
      · exact ⟨name, Or.inl hname, digits, hport', rfl⟩
      · refine absurd (Malformed.signed ?_ hname hport' hzero ?_) h
        · exact hname.not_mem_bare hvalue (by decide)
        · exact authorityOf_of_not_mem (hname.not_mem_bare hvalue (by decide))
            (hname.not_mem_bare hvalue (by decide))
  · intro haccept
    obtain ⟨hfragment, name, hname, hshape⟩ := readinessTarget_parse_iff.mp haccept
    obtain ⟨rest, hrest⟩ : authorityOf text <+: text := List.takeWhile_prefix _
    rcases hshape with ha | ⟨ha, hplain⟩ | ⟨digits, port, hvalue, hzero, ha | ha⟩
    · have htext : text = '[' :: (name ++ ']' :: rest) := by
        rw [← hrest, ha]
        simp
      obtain ⟨rfl, _⟩ := hbracketed hname (by rwa [← htext])
      exact ⟨none, "[::1]".toList, Or.inr rfl, ha⟩
    · exact ⟨none, name, Or.inl hname, ha⟩
    · have htext : text = '[' :: (name ++ ']' :: (':' :: digits ++ rest)) := by
        rw [← hrest, ha]
        simp
      obtain ⟨rfl, hempty | ⟨digits', port', hport', heq⟩⟩ := hbracketed hname (by rwa [← htext])
      · cases hempty
      · rcases parseU16_eq_some.mp hvalue with hport | ⟨unsigned, rfl, _⟩
        · exact ⟨some port, "[::1]".toList, Or.inr rfl, digits, hport, ha⟩
        · rw [List.cons_append, List.cons.injEq] at heq
          rw [← heq.2] at hport'
          exact absurd hport' (not_isPort_signed _ _)
    · rcases parseU16_eq_some.mp hvalue with hport | ⟨unsigned, rfl, hport⟩
      · exact ⟨some port, name, Or.inl hname, digits, hport, ha⟩
      · exact absurd (Malformed.signed hfragment hname hport hzero ha) h
  · rintro port ⟨host, hhost, hshape⟩
    rw [hostHeaderIsLoopback_iff]
    cases port with
    | none =>
      obtain rfl : text = host := hshape
      rcases hhost with hhost | rfl
      · exact Or.inr (Or.inr (Or.inl hhost))
      · exact Or.inr (Or.inl ⟨"::1".toList, [], Or.inr (Or.inr rfl), rfl⟩)
    | some port =>
      obtain ⟨digits, hport, rfl⟩ := hshape
      rcases hhost with hhost | rfl
      · rcases hhost.shape.2.2.2 with hplain | rfl
        · exact Or.inr (Or.inr (Or.inr ⟨host, digits, hhost, hplain,
            not_mem_of_isPort hport (by decide), rfl⟩))
        · exact absurd (Malformed.unbracketed hport) h
      · exact Or.inr (Or.inl ⟨"::1".toList, ':' :: digits, Or.inr (Or.inr rfl), rfl⟩)
  · rintro port hzero hauthority
    have hself := authorityOf_of_not_mem (hauthority.not_mem (by decide))
      (hauthority.not_mem (by decide))
    rw [readinessTarget_parse_iff, hself]
    refine ⟨hauthority.not_mem (by decide), ?_⟩
    obtain ⟨host, hhost, digits, hport, rfl⟩ := hauthority
    have hvalue := parseU16_eq_some.mpr (Or.inl hport)
    rcases hhost with hhost | rfl
    · exact ⟨host, hhost, Or.inr (Or.inr ⟨digits, port, hvalue, hzero, Or.inr rfl⟩)⟩
    · exact ⟨"::1".toList, Or.inr (Or.inr rfl),
        Or.inr (Or.inr ⟨digits, port, hvalue, hzero, Or.inl rfl⟩)⟩

theorem not_onlyLoopback_of_malformed {text : List Char} (h : Malformed text) :
    ¬ OnlyLoopback text := by
  intro honly
  cases h with
  | @unclosed name hname =>
    obtain ⟨port, host, hhost, hshape⟩ :=
      honly.header (hostHeaderIsLoopback_iff.mpr (Or.inl ⟨name, hname, rfl⟩))
    have hbracket : ∀ tail, '[' :: name ≠ host ++ tail := by
      intro tail heq
      rcases hhost with hhost | rfl
      · exact hhost.head_ne _ _ heq.symm
      · refine hname.shape.2.1 ?_
        rw [(List.cons.inj heq).2]
        exact List.mem_append_left _ (by decide)
    cases port with
    | none => exact hbracket [] (by rw [List.append_nil]; exact hshape)
    | some port =>
      obtain ⟨digits, _, heq⟩ := hshape
      exact hbracket _ heq
  | @bracketed name suffix hname hsuffix =>
    obtain ⟨port, hauthority⟩ :=
      honly.header (hostHeaderIsLoopback_iff.mpr (Or.inr (Or.inl ⟨name, suffix, hname, rfl⟩)))
    obtain ⟨hsix, hempty | ⟨digits, port', hport, heq⟩⟩ :=
      hauthority.of_bracketed hname.shape.2.1
    · exact (hsuffix hsix).1 hempty
    · exact (hsuffix hsix).2 digits port' hport heq
  | @port name suffix hname hplain hcolon hsuffix =>
    obtain ⟨port, hauthority⟩ := honly.header (hostHeaderIsLoopback_iff.mpr
      (Or.inr (Or.inr (Or.inr ⟨name, suffix, hname, hplain, hcolon, rfl⟩))))
    obtain ⟨port', hport⟩ := hauthority.port_of_append hname hcolon
    exact hsuffix port' hport
  | @unbracketed digits port hport =>
    refine header_unbracketed hport (honly.header_all (some port) ?_)
    exact ⟨"::1".toList, Or.inl (Or.inr (Or.inr rfl)), digits, hport, rfl⟩
  | @signed _ name digits port hfragment hname hport hzero htext =>
    have hvalue := parseU16_eq_some.mpr (Or.inr ⟨digits, rfl, hport⟩)
    have haccept := readinessTarget_parse_iff.mpr
      ⟨hfragment, name, hname, Or.inr (Or.inr ⟨_, port, hvalue, hzero, Or.inr htext⟩)⟩
    obtain ⟨port', hauthority⟩ := honly.readiness haccept
    rw [htext] at hauthority
    have hcolon : ':' ∉ '+' :: digits := not_mem_of_parseU16 hvalue (by decide) (by decide)
    obtain ⟨port'', hsigned⟩ := hauthority.port_of_append hname hcolon
    exact not_isPort_signed _ _ hsigned

/-- **The three parsers keep to the loopback authorities at exactly the texts that are not
malformed.** -/
theorem only_loopback_iff (text : List Char) : OnlyLoopback text ↔ ¬ Malformed text :=
  ⟨fun honly hmalformed => not_onlyLoopback_of_malformed hmalformed honly,
    onlyLoopback_of_not_malformed⟩

/-- The host guard accepts `[::1]evil`, which is no loopback authority. -/
theorem header_accepts_text_after_bracket :
    hostHeaderIsLoopback "[::1]evil".toList = true ∧ ¬ OnlyLoopback "[::1]evil".toList := by
  refine ⟨by decide, not_onlyLoopback_of_malformed ?_⟩
  have hname : LoopbackName "::1".toList := Or.inr (Or.inr rfl)
  refine @Malformed.bracketed _ "evil".toList hname fun _ => ⟨by decide, ?_⟩
  intro digits port _ h
  exact absurd (List.cons.inj h).1 (by decide)

end DshNexus.Loopback
