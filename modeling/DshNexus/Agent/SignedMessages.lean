import DshNexus.Core.Framing
import DshNexus.Core.Utf8

/-!
# Signed and sealed messages

`crates/nexus-core/src/agent_auth.rs`.  The Agent and its clients sign every message with HMAC and
seal its body with an AEAD cipher.  The authenticated texts are frames of the message's fields, so
that no field can take a byte from another one.

1. `macInput`, `associatedData`: what the code authenticates of a message.
2. `macInput_injective`: the MAC input determines the message and its direction.
3. `associatedData_injective`: the associated data determine everything but the body, which the
   cipher authenticates itself.
4. `signed_message_unique`: a tag is accepted for its own message only.
-/

namespace DshNexus.Agent.SignedMessages

/-! ## Messages -/

@[ext]
structure Text where
  value : String
  bounded : value.toUTF8.toList.length ≤ ISIZE_MAX
  deriving DecidableEq

def Text.asBytes (text : Text) : Slice := ⟨text.value.toUTF8.toList, text.bounded⟩

/-- What a message says beside its body. -/
inductive Header where
  | request (method path nonce time : Text)
  | response (nonce : Text) (status : UInt16)
  deriving DecidableEq

/-- The labels of the parts are byte strings of the program. -/
def label (text : String) (h : text.toUTF8.toList.length ≤ ISIZE_MAX) : Slice :=
  ⟨text.toUTF8.toList, h⟩

namespace Header

def nonce : Header → Text
  | request _ _ nonce _ => nonce
  | response nonce _ => nonce

/-- `direction` of `crypt`. -/
def direction : Header → Slice
  | request .. => label "request" (by decide +kernel)
  | response .. => label "response" (by decide +kernel)

/-- `status.to_be_bytes()`. -/
def statusBytes (status : UInt16) : Slice :=
  ⟨toBeBytes 2 status.toNat, by rw [length_toBeBytes]; decide⟩

/-- `context` of `crypt`. -/
def context : Header → List Slice
  | request method path _ time => [method.asBytes, path.asBytes, time.asBytes]
  | response _ status => [statusBytes status]

end Header

/-- A message as it is signed, with the bytes that go over the wire. -/
structure Message where
  header : Header
  body : Slice
  deriving DecidableEq

structure AgentCredential where
  dataRootId : Text
  instanceId : Text
  secret : Text

/-- The algorithms of the `hmac` and `ring` crates. -/
structure Primitives where
  /-- HMAC with SHA-256 of a key and a message -/
  hmac : Bytes → Bytes → Bytes
  /-- HKDF: the subkey of a secret for the parts of an info -/
  expand : Bytes → List Bytes → Bytes
  /-- ChaCha20-Poly1305 with a key, associated data and a body -/
  sealInPlace : Bytes → Bytes → Bytes → Option Bytes
  openInPlace : Bytes → Bytes → Bytes → Option Bytes
  length_hmac : ∀ key message, (hmac key message).length = 32
  /-- the tag stands behind the sealed body -/
  length_sealInPlace : ∀ key aad body buffer, sealInPlace key aad body = some buffer →
    buffer.length = body.length + 16
  /-- a buffer without room for the tag is refused -/
  openInPlace_short : ∀ key aad buffer, buffer.length < 16 → openInPlace key aad buffer = none

section

variable (P : Primitives) (credential : AgentCredential)

/-- The parts that `request_signature` and `response_signature` hand to `mac`. -/
def macParts (message : Message) : List Slice :=
  match message.header with
  | .request method path nonce time =>
      [label "nexus-agent-request-v2" (by decide +kernel), credential.dataRootId.asBytes,
        credential.instanceId.asBytes, method.asBytes, path.asBytes, nonce.asBytes, time.asBytes,
        message.body]
  | .response nonce status =>
      [label "nexus-agent-response-v2" (by decide +kernel), nonce.asBytes,
        Header.statusBytes status, message.body]

/-- What `mac` updates the HMAC with. -/
def macInput (message : Message) : Bytes := framed (macParts credential message)

def mac (message : Message) : Bytes :=
  P.hmac credential.secret.asBytes.bytes (macInput credential message)

/-- `format!("\x7bb:02x\x7d")`. -/
def hexByte (b : UInt8) : List Char := [Nat.digitChar (b.toNat / 16), Nat.digitChar (b.toNat % 16)]

def hexText (bytes : Bytes) : String := String.ofList (bytes.flatMap hexByte)

/-- The value of a digit of lower-case hexadecimal. -/
def hexValue (c : Char) : Nat := if c.isDigit then c.toNat - 48 else c.toNat - 87

/-- The bytes of a text of hexadecimal digits, two at a time. -/
def hexBytes : List Char → Bytes
  | high :: low :: rest => UInt8.ofNat (hexValue high * 16 + hexValue low) :: hexBytes rest
  | _ => []

/-- `request_signature` and `response_signature`. -/
def signature (message : Message) : String := hexText (mac P credential message)

def verify (tag : Bytes) (signature : String) : Bool :=
  validHex signature && hexBytes signature.toList = tag

/-- The check of a nonce, which `verify_request` makes and `verify_response` does not. -/
def Header.nonceAccepted : Header → Bool
  | request _ _ nonce _ => validHex nonce.value
  | response .. => true

/-- `verify_request` and `verify_response`. -/
def verifyMessage (message : Message) (signature : String) : Bool :=
  message.header.nonceAccepted && verify (mac P credential message) signature

/-- The associated data of `crypt`. -/
def associatedData (header : Header) : Bytes :=
  framed ([label "nexus-agent-v2" (by decide +kernel), header.direction,
    credential.dataRootId.asBytes, credential.instanceId.asBytes, header.nonce.asBytes] ++
    header.context)

/-- The key of `crypt`. -/
def subkey (header : Header) : Bytes :=
  P.expand credential.secret.asBytes.bytes [header.direction.bytes,
    credential.dataRootId.asBytes.bytes, credential.instanceId.asBytes.bytes,
    header.nonce.asBytes.bytes]

/-- `crypt`; `sealing` is its flag `seal`. -/
def crypt (header : Header) (body : Bytes) (sealing : Bool) : Option Bytes :=
  if validHex header.nonce.value = false then none
  else if sealing = true then
    P.sealInPlace (subkey P credential header) (associatedData credential header) body
  else P.openInPlace (subkey P credential header) (associatedData credential header) body

/-- A response that has no body to seal. -/
def Header.isBodyless (header : Header) (body : Bytes) : Bool :=
  match header with
  | .request .. => false
  | .response _ status => status = 204 && body.isEmpty

/-- `seal_request` and `seal_response`. -/
def sealMessage (header : Header) (body : Bytes) : Option Bytes :=
  if header.isBodyless body = true then some [] else crypt P credential header body true

/-- `open_request` and `open_response`. -/
def openMessage (header : Header) (body : Bytes) : Option Bytes :=
  if header.isBodyless body = true then some [] else crypt P credential header body false

end

/-! ## What the authenticated texts determine -/

theorem Text.asBytes_injective : Function.Injective Text.asBytes := by
  intro text text' h
  have hbytes : text.value.toUTF8.toList = text'.value.toUTF8.toList := congrArg Slice.bytes h
  exact Text.ext (Utf8.toList_toUTF8_injective hbytes)

theorem Header.statusBytes_injective : Function.Injective Header.statusBytes := by
  intro status status' h
  have hbytes : toBeBytes 2 status.toNat = toBeBytes 2 status'.toNat := congrArg Slice.bytes h
  have hfits : ∀ status : UInt16, status.toNat < 256 ^ 2 := fun status => status.toNat_lt
  exact UInt16.toNat_inj.mp (toBeBytes_injective (hfits status) (hfits status') hbytes)

variable {credential : AgentCredential}

/-- **The MAC input determines the message.** -/
theorem macInput_injective : Function.Injective (macInput credential) := by
  rintro ⟨header, body⟩ ⟨header', body'⟩ h
  have hparts := framed_injective h
  rcases header with ⟨method, path, nonce, time⟩ | ⟨nonce, status⟩ <;>
    rcases header' with ⟨method', path', nonce', time'⟩ | ⟨nonce', status'⟩
  · simp only [macParts, List.cons.injEq, and_true, true_and] at hparts
    obtain ⟨hmethod, hpath, hnonce, htime, hbody⟩ := hparts
    rw [Text.asBytes_injective hmethod, Text.asBytes_injective hpath,
      Text.asBytes_injective hnonce, Text.asBytes_injective htime, hbody]
  · exact absurd (congrArg List.length hparts) (by simp [macParts])
  · exact absurd (congrArg List.length hparts) (by simp [macParts])
  · simp only [macParts, List.cons.injEq, and_true, true_and] at hparts
    obtain ⟨hnonce, hstatus, hbody⟩ := hparts
    rw [Text.asBytes_injective hnonce, Header.statusBytes_injective hstatus, hbody]

/-- **The associated data determine the header.** -/
theorem associatedData_injective : Function.Injective (associatedData credential) := by
  intro header header' h
  have hparts := framed_injective h
  rcases header with ⟨method, path, nonce, time⟩ | ⟨nonce, status⟩ <;>
    rcases header' with ⟨method', path', nonce', time'⟩ | ⟨nonce', status'⟩
  · simp only [Header.context, Header.nonce, List.cons_append, List.nil_append, List.cons.injEq,
      and_true, true_and] at hparts
    obtain ⟨-, hnonce, hmethod, hpath, htime⟩ := hparts
    rw [Text.asBytes_injective hmethod, Text.asBytes_injective hpath,
      Text.asBytes_injective hnonce, Text.asBytes_injective htime]
  · exact absurd (congrArg List.length hparts) (by simp [Header.context])
  · exact absurd (congrArg List.length hparts) (by simp [Header.context])
  · simp only [Header.context, Header.nonce, List.cons_append, List.nil_append, List.cons.injEq,
      and_true, true_and] at hparts
    obtain ⟨-, hnonce, hstatus⟩ := hparts
    rw [Text.asBytes_injective hnonce, Header.statusBytes_injective hstatus]

/-! ## Signatures -/

section Signatures

theorem hexValue_digitChar {n : Nat} (hn : n < 16) : hexValue (Nat.digitChar n) = n := by
  interval_cases n <;> rfl

theorem isLowerHex_digitChar {n : Nat} (hn : n < 16) : isLowerHex (Nat.digitChar n) = true := by
  interval_cases n <;> rfl

theorem utf8Size_digitChar {n : Nat} (hn : n < 16) : (Nat.digitChar n).utf8Size = 1 := by
  interval_cases n <;> rfl

theorem hexBytes_flatMap (bytes : Bytes) : hexBytes (bytes.flatMap hexByte) = bytes := by
  induction bytes with
  | nil => rfl
  | cons b bytes ih =>
    have hb : b.toNat < 256 := b.toNat_lt
    have hvalue : b.toNat / 16 * 16 + b.toNat % 16 = b.toNat := by omega
    rw [List.flatMap_cons, hexByte, List.cons_append, List.cons_append, List.nil_append, hexBytes,
      hexValue_digitChar (by omega), hexValue_digitChar (by omega), hvalue, ih]
    simp

theorem hexBytes_hexText (bytes : Bytes) : hexBytes (hexText bytes).toList = bytes := by
  rw [hexText, String.toList_ofList, hexBytes_flatMap]

theorem mem_hexByte {b : UInt8} {c : Char} (h : c ∈ hexByte b) :
    ∃ n < 16, c = Nat.digitChar n := by
  have hb : b.toNat < 256 := b.toNat_lt
  simp only [hexByte, List.mem_cons, List.not_mem_nil, or_false] at h
  rcases h with rfl | rfl
  · exact ⟨_, by omega, rfl⟩
  · exact ⟨_, by omega, rfl⟩

theorem utf8ByteSize_hexText (bytes : Bytes) :
    (hexText bytes).utf8ByteSize = 2 * bytes.length := by
  rw [hexText, String.utf8ByteSize_ofList]
  induction bytes with
  | nil => rfl
  | cons b bytes ih =>
    have hb : b.toNat < 256 := b.toNat_lt
    rw [List.flatMap_cons, hexByte, List.cons_append, List.cons_append, List.nil_append,
      String.utf8Len, String.utf8Len, ih, utf8Size_digitChar (by omega),
      utf8Size_digitChar (by omega), List.length_cons]
    omega

theorem validHex_hexText {bytes : Bytes} (h : bytes.length = 32) :
    validHex (hexText bytes) = true := by
  rw [validHex, utf8ByteSize_hexText, h, hexText, String.toList_ofList]
  rw [Bool.and_eq_true, decide_eq_true_eq, List.all_eq_true]
  refine ⟨rfl, fun c hc => ?_⟩
  obtain ⟨b, -, hc⟩ := List.mem_flatMap.mp hc
  obtain ⟨n, hn, rfl⟩ := mem_hexByte hc
  exact isLowerHex_digitChar hn

end Signatures

/-! ## Which messages a tag is accepted for -/

section Acceptance

variable {P : Primitives} {credential : AgentCredential} {a b : Message}

theorem verify_hexText {tag tag' : Bytes} (h : tag'.length = 32) :
    verify tag (hexText tag') = true ↔ tag' = tag := by
  rw [verify, validHex_hexText h, hexBytes_hexText, Bool.true_and, decide_eq_true_eq]

theorem length_mac : (mac P credential a).length = 32 := P.length_hmac _ _

theorem verifyMessage_signature :
    verifyMessage P credential b (signature P credential a) = true ↔
      b.header.nonceAccepted = true ∧ mac P credential a = mac P credential b := by
  rw [verifyMessage, Bool.and_eq_true, signature, verify_hexText length_mac]

theorem verifyMessage_signature_iff
    (hmac : mac P credential a = mac P credential b →
      macInput credential a = macInput credential b) :
    verifyMessage P credential b (signature P credential a) = true ↔
      b = a ∧ a.header.nonceAccepted = true := by
  rw [verifyMessage_signature]
  constructor
  · rintro ⟨hnonce, hequal⟩
    have hmessage := macInput_injective (hmac hequal)
    rw [hmessage]
    exact ⟨rfl, hnonce⟩
  · rintro ⟨rfl, hnonce⟩
    exact ⟨hnonce, rfl⟩

theorem crypt_eq_some {header : Header} {body buffer : Bytes} {sealing : Bool}
    (h : crypt P credential header body sealing = some buffer) :
    if sealing = true then
      P.sealInPlace (subkey P credential header) (associatedData credential header) body =
        some buffer
    else
      P.openInPlace (subkey P credential header) (associatedData credential header) body =
        some buffer := by
  unfold crypt at h
  split at h
  · cases h
  · split at h
    · next hsealing => rwa [if_pos hsealing]
    · next hsealing => rwa [if_neg hsealing]

theorem Header.body_eq_nil {header : Header} {body : Bytes}
    (h : header.isBodyless body = true) : body = [] := by
  rcases header with ⟨method, path, nonce, time⟩ | ⟨nonce, status⟩
  · cases h
  · rw [Header.isBodyless, Bool.and_eq_true] at h
    exact List.isEmpty_iff.mp h.2

theorem openMessage_sealMessage
    (haead : ∀ buffer plain,
      P.sealInPlace (subkey P credential a.header) (associatedData credential a.header)
        a.body.bytes = some buffer →
      P.openInPlace (subkey P credential b.header) (associatedData credential b.header)
        buffer = some plain →
      associatedData credential a.header = associatedData credential b.header ∧
        plain = a.body.bytes)
    {buffer plain : Bytes}
    (hseal : sealMessage P credential a.header a.body.bytes = some buffer)
    (hopen : openMessage P credential b.header buffer = some plain) :
    plain = a.body.bytes ∧ (b.header = a.header ∨
      a.header.isBodyless a.body.bytes = true ∧ b.header.isBodyless [] = true) := by
  unfold sealMessage at hseal
  unfold openMessage at hopen
  by_cases hbodyless : a.header.isBodyless a.body.bytes = true
  · -- nothing is sealed, and only a bodyless response has nothing to open
    rw [if_pos hbodyless, Option.some_inj] at hseal
    subst hseal
    have hnil := Header.body_eq_nil hbodyless
    split at hopen
    · next hempty =>
      exact ⟨hnil ▸ (Option.some_inj.mp hopen).symm, .inr ⟨hbodyless, hempty⟩⟩
    · have hshort := crypt_eq_some hopen
      rw [if_neg Bool.false_ne_true, P.openInPlace_short _ _ _ (by simp)] at hshort
      cases hshort
  · rw [if_neg hbodyless] at hseal
    have hsealed := crypt_eq_some hseal
    rw [if_pos rfl] at hsealed
    have hlength := P.length_sealInPlace _ _ _ _ hsealed
    split at hopen
    · next hempty =>
      rw [Header.body_eq_nil hempty] at hlength
      simp at hlength
    · have hopened := crypt_eq_some hopen
      rw [if_neg Bool.false_ne_true] at hopened
      obtain ⟨hdata, hplain⟩ := haead buffer plain hsealed hopened
      exact ⟨hplain, .inl (associatedData_injective hdata).symm⟩

/-- **Signed messages are framed without ambiguity.**  Of two messages of a credential, requests
or responses, the MAC inputs agree for equal messages only, and the associated data for equal
headers only.  With a MAC that does not collide on the two, a signature made for one is accepted
for the other only if they are equal; with an ideal cipher, a sealed body is opened under its own
header only, to its own body, responses that have none apart. -/
theorem signed_message_unique (P : Primitives) (credential : AgentCredential) (a b : Message)
    (hmac : mac P credential a = mac P credential b →
      macInput credential a = macInput credential b)
    (haead : ∀ buffer plain,
      P.sealInPlace (subkey P credential a.header) (associatedData credential a.header)
        a.body.bytes = some buffer →
      P.openInPlace (subkey P credential b.header) (associatedData credential b.header)
        buffer = some plain →
      associatedData credential a.header = associatedData credential b.header ∧
        plain = a.body.bytes) :
    (macInput credential a = macInput credential b ↔ a = b) ∧
    (associatedData credential a.header = associatedData credential b.header ↔
      a.header = b.header) ∧
    (verifyMessage P credential b (signature P credential a) = true ↔
      b = a ∧ a.header.nonceAccepted = true) ∧
    (∀ buffer plain, sealMessage P credential a.header a.body.bytes = some buffer →
      openMessage P credential b.header buffer = some plain →
      plain = a.body.bytes ∧ (b.header = a.header ∨
        a.header.isBodyless a.body.bytes = true ∧ b.header.isBodyless [] = true)) :=
  ⟨macInput_injective.eq_iff, associatedData_injective.eq_iff, verifyMessage_signature_iff hmac,
    fun _ _ hseal hopen => openMessage_sealMessage haead hseal hopen⟩

/-- Algorithms whose tags are the last bytes of what they authenticate. -/
def suffixPrimitives : Primitives where
  hmac _ message := (message.reverse ++ List.replicate 32 0).take 32
  expand _ _ := []
  sealInPlace _ aad body := some (body ++ (aad.reverse ++ List.replicate 16 0).take 16)
  openInPlace _ aad buffer :=
    if buffer.length < 16 then none
    else if buffer.drop (buffer.length - 16) = (aad.reverse ++ List.replicate 16 0).take 16 then
      some (buffer.take (buffer.length - 16))
    else none
  length_hmac _ message := by simp
  length_sealInPlace _ aad body buffer h := by
    obtain rfl := Option.some_inj.mp h
    simp
  openInPlace_short _ _ buffer h := if_pos h

def sampleCredential : AgentCredential :=
  ⟨⟨"root", by decide +kernel⟩, ⟨"one", by decide +kernel⟩, ⟨"secret", by decide +kernel⟩⟩

def sampleNonce : Text :=
  ⟨"0000000000000000000000000000000000000000000000000000000000000000", by decide +kernel⟩

/-- A request for a path, at a time, with a body of one byte. -/
def sampleRequest (path time : Text) (b : UInt8) : Message :=
  ⟨.request ⟨"POST", by decide +kernel⟩ path sampleNonce time, ⟨[b], by simp [ISIZE_MAX]⟩⟩

theorem signed_message_unique_split :
    verifyMessage suffixPrimitives sampleCredential
        (sampleRequest ⟨"/v1/ab", by decide +kernel⟩ ⟨"1", by decide +kernel⟩ 7)
        (signature suffixPrimitives sampleCredential
          (sampleRequest ⟨"/v1/a", by decide +kernel⟩ ⟨"12", by decide +kernel⟩ 7)) = false := by
  have h := (signed_message_unique suffixPrimitives sampleCredential
    (sampleRequest ⟨"/v1/a", by decide +kernel⟩ ⟨"12", by decide +kernel⟩ 7)
    (sampleRequest ⟨"/v1/ab", by decide +kernel⟩ ⟨"1", by decide +kernel⟩ 7)
    (fun hmac => absurd hmac (by decide +kernel)) (fun buffer plain hseal hopen => by
      obtain rfl := Option.some_inj.mp hseal
      exact absurd hopen (by
        rw [show suffixPrimitives.openInPlace _ _ _ = none by decide +kernel]
        simp))).2.2.1
  rw [Bool.eq_false_iff, ne_eq, h]
  decide +kernel

/-- Two requests that differ in their bodies only have the same associated data. -/
theorem associatedData_without_body :
    sampleRequest ⟨"/v1/a", by decide +kernel⟩ ⟨"1", by decide +kernel⟩ 7 ≠
        sampleRequest ⟨"/v1/a", by decide +kernel⟩ ⟨"1", by decide +kernel⟩ 8 ∧
      associatedData sampleCredential
          (sampleRequest ⟨"/v1/a", by decide +kernel⟩ ⟨"1", by decide +kernel⟩ 7).header =
        associatedData sampleCredential
          (sampleRequest ⟨"/v1/a", by decide +kernel⟩ ⟨"1", by decide +kernel⟩ 8).header := by
  decide +kernel

end Acceptance

end DshNexus.Agent.SignedMessages
