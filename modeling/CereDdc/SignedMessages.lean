import CereDdc.WireContent
import CereDdc.TokenText

/-!
# SignedMessages — what the client signs

Tokens, activity requests, acknowledgments and CNS records are signed in their
binary form, with nothing in front that tells them apart. The bytes still
determine what has been signed, but for one case.
-/

namespace CereDdc

/-! ## Signatures and tokens -/

theorem SignatureAlgorithm.number_inj {a b : SignatureAlgorithm} (h : a.number = b.number) :
    a = b := by
  cases a <;> cases b <;> first | rfl | cases h

theorem AuthTokenOperation.number_inj {a b : AuthTokenOperation} (h : a.number = b.number) :
    a = b := by
  cases a <;> cases b <;> first | rfl | cases h

def Signature.content (signature : Signature) : Nat → List WireValue
  | 1 => varintContent signature.algorithm.number
  | 2 => bytesContent signature.signer
  | 3 => bytesContent signature.value
  | _ => []

theorem Signature.toBinary_eq (signature : Signature) :
    signature.toBinary = contentBinary [1, 2, 3] signature.content := by
  simp only [contentBinary, List.flatMap_cons, List.flatMap_nil, Signature.content,
    flatMap_varintContent, flatMap_bytesContent, List.append_nil, ← List.append_assoc]
  obtain ⟨algorithm, signer, value⟩ := signature
  cases algorithm <;> rfl

theorem Signature.toBinary_inj {a b : Signature} (h : a.toBinary = b.toBinary) : a = b := by
  rw [toBinary_eq, toBinary_eq] at h
  have hcontent := content_eq (by decide) h
  obtain ⟨algorithm, signer, value⟩ := a
  obtain ⟨algorithm', signer', value'⟩ := b
  have halgorithm := SignatureAlgorithm.number_inj (varintContent_inj (hcontent 1 (by simp)))
  have hsigner := bytesContent_inj (hcontent 2 (by simp))
  have hvalue := bytesContent_inj (hcontent 3 (by simp))
  cases halgorithm
  cases hsigner
  cases hvalue
  rfl

/-- The bytes of the operations of a payload. -/
def operationsBinary (operations : List AuthTokenOperation) : Bytes :=
  operations.flatMap fun operation => varint operation.number

theorem operationsBinary_inj {operations operations' : List AuthTokenOperation}
    (h : operationsBinary operations = operationsBinary operations') :
    operations = operations' := by
  have hpos := fun operation : AuthTokenOperation => length_varint_pos operation.number
  unfold operationsBinary at h
  induction operations generalizing operations' with
  | nil =>
    cases operations' with
    | nil => rfl
    | cons operation operations' =>
      have hlength := congrArg List.length h
      have hfirst := hpos operation
      simp only [List.flatMap_nil, List.flatMap_cons, List.length_nil, List.length_append]
        at hlength
      omega
  | cons operation operations ih =>
    cases operations' with
    | nil =>
      have hlength := congrArg List.length h
      have hfirst := hpos operation
      simp only [List.flatMap_nil, List.flatMap_cons, List.length_nil, List.length_append]
        at hlength
      omega
    | cons operation' operations' =>
      rw [List.flatMap_cons, List.flatMap_cons] at h
      obtain ⟨hnumber, hothers⟩ := varint_append_inj h
      rw [AuthTokenOperation.number_inj hnumber, ih hothers]

theorem ofInt_toNat_inj {a b : Int} (ha : isSafeInteger a) (hb : isSafeInteger b)
    (h : (BitVec.ofInt 64 a).toNat = (BitVec.ofInt 64 b).toNat) : a = b := by
  have ha : a.natAbs < 2 ^ 53 := of_decide_eq_true ha
  have hb : b.natAbs < 2 ^ 53 := of_decide_eq_true hb
  rw [BitVec.toNat_ofInt, BitVec.toNat_ofInt] at h
  omega

def Payload.content (payload : Payload) (prev : Option Bytes) : Nat → List WireValue
  | 1 => optionalContent .bytes prev
  | 2 => optionalContent .bytes payload.subject
  | 3 => optionalContent (fun canDelegate => .varint canDelegate.toNat) payload.canDelegate
  | 4 => optionalContent .varint payload.bucketId
  | 5 => bytesContent (operationsBinary payload.operations)
  | 6 => optionalContent (fun expiresAt => .varint (BitVec.ofInt 64 expiresAt).toNat)
    payload.expiresAt
  | 7 => optionalContent .bytes payload.pieceCid
  | _ => []

theorem Payload.toBinary_eq (payload : Payload) (prev : Option Bytes) :
    payload.toBinary prev = contentBinary [1, 2, 3, 4, 5, 6, 7] (payload.content prev) := by
  have hoperations : (if payload.operations = [] then []
      else bytesField 5 (operationsBinary payload.operations))
      = bytesValue 5 (operationsBinary payload.operations) := by
    unfold bytesValue
    by_cases hempty : payload.operations = []
    · rw [if_pos hempty, if_pos (by rw [hempty]; rfl)]
    · have hne : operationsBinary payload.operations ≠ [] := by
        intro h
        exact hempty (operationsBinary_inj h)
      rw [if_neg hempty, if_neg hne]
  simp only [contentBinary, List.flatMap_cons, List.flatMap_nil, Payload.content,
    flatMap_optionalContent, flatMap_bytesContent, List.append_nil, ← List.append_assoc,
    ← hoperations]
  rfl

theorem Payload.toBinary_inj {a b : Payload} {prev prev' : Option Bytes} (ha : a.InRange)
    (hb : b.InRange) (h : a.toBinary prev = b.toBinary prev') : a = b ∧ prev = prev' := by
  rw [toBinary_eq, toBinary_eq] at h
  have hcontent := content_eq (by decide) h
  obtain ⟨subject, canDelegate, bucketId, operations, expiresAt, pieceCid⟩ := a
  obtain ⟨subject', canDelegate', bucketId', operations', expiresAt', pieceCid'⟩ := b
  have hprev := optionalContent_inj (fun _ _ => WireValue.bytes.inj) (hcontent 1 (by simp))
  have hsubject := optionalContent_inj (fun _ _ => WireValue.bytes.inj) (hcontent 2 (by simp))
  have hbool : ∀ x y : Bool, x.toNat = y.toNat → x = y := by decide
  have hcanDelegate := optionalContent_inj
    (fun _ _ heq => hbool _ _ (WireValue.varint.inj heq)) (hcontent 3 (by simp))
  have hbucketId := optionalContent_inj (fun _ _ => WireValue.varint.inj) (hcontent 4 (by simp))
  have hoperations := operationsBinary_inj (bytesContent_inj (hcontent 5 (by simp)))
  have hexpiresAt := optionalContent_inj (fun hx hy heq =>
    ofInt_toNat_inj (ha.expiresAt _ hx) (hb.expiresAt _ hy) (WireValue.varint.inj heq))
    (hcontent 6 (by simp))
  have hpieceCid := optionalContent_inj (fun _ _ => WireValue.bytes.inj) (hcontent 7 (by simp))
  cases hsubject
  cases hcanDelegate
  cases hbucketId
  cases hoperations
  cases hexpiresAt
  cases hpieceCid
  exact ⟨rfl, hprev⟩

namespace AuthToken

/-- The binary form of the payload, if there is one. -/
def payloadBinary : AuthToken → Option Bytes
  | .bare _ => none
  | .root _ payload => some (payload.toBinary none)
  | .linked _ payload prev => some (payload.toBinary (some prev.toBinary))

def content (token : AuthToken) : Nat → List WireValue
  | 1 => optionalContent (.bytes ∘ Signature.toBinary) token.signature
  | 2 => optionalContent .bytes token.payloadBinary
  | _ => []

theorem toBinary_eq_content (token : AuthToken) :
    token.toBinary = contentBinary [1, 2] token.content := by
  simp only [contentBinary, List.flatMap_cons, List.flatMap_nil, content,
    flatMap_optionalContent, List.append_nil]
  cases token with
  | bare signature => exact (List.append_nil _).symm
  | root signature payload => rfl
  | linked signature payload prev => rfl

theorem signature_eq_of_content {a b : Option Signature}
    (h : optionalContent (.bytes ∘ Signature.toBinary) a
      = optionalContent (.bytes ∘ Signature.toBinary) b) : a = b :=
  optionalContent_inj (fun _ _ heq => Signature.toBinary_inj (WireValue.bytes.inj heq)) h

/-- The payload of a token, and the chain in front of it, from their binary form. -/
theorem eq_of_payloadBinary {a b : AuthToken} (ha : a.InRange) (hb : b.InRange)
    (hsignature : a.signature = b.signature) (hpayload : a.payloadBinary = b.payloadBinary) :
    a = b := by
  induction a generalizing b with
  | bare signature =>
    cases b with
    | bare signature' => exact congrArg bare hsignature
    | root signature' payload' => cases hpayload
    | linked signature' payload' prev' => cases hpayload
  | root signature payload =>
    cases b with
    | bare signature' => cases hpayload
    | root signature' payload' =>
      obtain ⟨rfl, -⟩ := Payload.toBinary_inj ha hb (Option.some.inj hpayload)
      cases hsignature
      rfl
    | linked signature' payload' prev' =>
      obtain ⟨-, hprev⟩ := Payload.toBinary_inj ha hb.1 (Option.some.inj hpayload)
      cases hprev
  | linked signature payload prev ih =>
    cases b with
    | bare signature' => cases hpayload
    | root signature' payload' =>
      obtain ⟨-, hprev⟩ := Payload.toBinary_inj ha.1 hb (Option.some.inj hpayload)
      cases hprev
    | linked signature' payload' prev' =>
      obtain ⟨rfl, hprev⟩ := Payload.toBinary_inj ha.1 hb.1 (Option.some.inj hpayload)
      have hbinary := Option.some.inj hprev
      rw [toBinary_eq_content, toBinary_eq_content] at hbinary
      have hcontent := content_eq (by decide) hbinary
      have hprevSignature := signature_eq_of_content (hcontent 1 (by simp))
      have hprevPayload := optionalContent_inj (fun _ _ => WireValue.bytes.inj)
        (hcontent 2 (by simp))
      cases hsignature
      rw [ih ha.2 hb.2 hprevSignature hprevPayload]

end AuthToken

/-! ## The messages -/

/-- A message that the client signs. -/
inductive SignedMessage
  | token (token : AuthToken)
  | request (request : ActivityRequest)
  | ack (ack : ActivityAcknowledgment)
  | record (record : RecordMessage)
  deriving DecidableEq, Repr

namespace SignedMessage

/-- The bytes that are signed. -/
def toBinary : SignedMessage → Bytes
  | .token t => t.toBinary
  | .request r => r.toBinary
  | .ack a => a.toBinary
  | .record r => r.toBinary

/-- The message as it is when it is signed: the numbers of a token are in range, and the others
have no signature yet and come from a clock that is not at 0. -/
def Made : SignedMessage → Prop
  | .token t => t.InRange
  | .request r => r.signature = none ∧ r.timestamp ≠ 0
  | .ack a => a.signature = none ∧ a.timestamp ≠ 0
  | .record r => r.signature = none

def content : SignedMessage → Nat → List WireValue
  | .token t, field => t.content field
  | .request r, field =>
    match field with
    | 2 => bytesContent (utf8 r.requestId)
    | 3 => varintContent r.requestType.number
    | 5 => varintContent r.bucketId
    | 6 => bytesContent r.id
    | 7 => varintContent r.offset
    | 8 => varintContent r.size
    | 9 => varintContent r.timestamp
    | _ => []
  | .ack a, field =>
    match field with
    | 1 => bytesContent (utf8 a.requestId)
    | 2 => varintContent a.bytesStoredOrDelivered
    | 3 => varintContent a.timestamp
    | _ => []
  | .record r, field =>
    match field with
    | 2 => bytesContent r.cid
    | 3 => bytesContent (utf8 r.name)
    | 4 => optionalContent .varint r.ttl
    | _ => []

variable {m m' : SignedMessage}

theorem toBinary_eq (h : m.Made) :
    m.toBinary = contentBinary [1, 2, 3, 4, 5, 6, 7, 8, 9] m.content := by
  cases m with
  | token t =>
    show t.toBinary = contentBinary ([1, 2] ++ [3, 4, 5, 6, 7, 8, 9]) t.content
    rw [t.toBinary_eq_content, contentBinary, contentBinary, List.flatMap_append]
    exact (List.append_nil _).symm
  | request r =>
    simp only [toBinary, ActivityRequest.toBinary, h.1, contentBinary, List.flatMap_cons,
      List.flatMap_nil, content, flatMap_bytesContent, flatMap_varintContent, List.append_nil,
      List.nil_append, ← List.append_assoc]
    exact List.append_nil _
  | ack a =>
    simp only [toBinary, ActivityAcknowledgment.toBinary, h.1, contentBinary, List.flatMap_cons,
      List.flatMap_nil, content, flatMap_bytesContent, flatMap_varintContent, List.append_nil,
      ← List.append_assoc]
    exact List.append_nil _
  | record r =>
    have hsignature : r.signature = none := h
    simp only [toBinary, RecordMessage.toBinary, hsignature, contentBinary, List.flatMap_cons,
      List.flatMap_nil, content, flatMap_bytesContent, flatMap_optionalContent, List.append_nil,
      List.nil_append, ← List.append_assoc]
    rfl

/-- The one case: a record without a name and a TTL, and an unsigned token with a payload that has
the CID of the record as its binary form. -/
def Confusable : SignedMessage → SignedMessage → Prop
  | .record r, .token t =>
    r.name = "" ∧ r.ttl = none ∧ t.signature = none ∧
      t.payloadBinary = if r.cid = [] then none else some r.cid
  | _, _ => False

theorem varintContent_ne_nil {n : Nat} (h : n ≠ 0) : varintContent n ≠ [] := by
  unfold varintContent
  rw [if_neg h]
  simp

theorem varintContent_ne_bytesContent {n : Nat} {value : Bytes} (h : n ≠ 0) :
    varintContent n ≠ bytesContent value := by
  unfold varintContent bytesContent
  rw [if_neg h]
  split <;> simp

theorem optionalContent_eq_bytesContent {binary : Option Bytes} {value : Bytes} :
    optionalContent .bytes binary = bytesContent value ↔
      binary = if value = [] then none else some value := by
  unfold optionalContent bytesContent
  cases binary with
  | none => split <;> simp
  | some bytes => split <;> simp

/-- A record and a token that say the same. -/
theorem confusable_of_content {r : RecordMessage} {t : AuthToken}
    (h : ∀ field ∈ [1, 2, 3, 4, 5, 6, 7, 8, 9], content (.record r) field = t.content field) :
    Confusable (.record r) (.token t) := by
  have hname : bytesContent (utf8 r.name) = bytesContent (utf8 "") := h 3 (by simp)
  have hsignature : [] = optionalContent (.bytes ∘ Signature.toBinary) t.signature := h 1 (by simp)
  have hnone : (none : Option Signature) = t.signature :=
    AuthToken.signature_eq_of_content hsignature
  have httl : optionalContent .varint r.ttl = optionalContent .varint none := h 4 (by simp)
  have hpayload : bytesContent r.cid = optionalContent .bytes t.payloadBinary := h 2 (by simp)
  exact ⟨utf8_inj (bytesContent_inj hname),
    optionalContent_inj (fun _ _ => WireValue.varint.inj) httl, hnone.symm,
    optionalContent_eq_bytesContent.mp hpayload.symm⟩

theorem content_of_confusable {r : RecordMessage} {t : AuthToken}
    (h : Confusable (.record r) (.token t)) (field : Nat) :
    content (.record r) field = t.content field := by
  obtain ⟨hname, httl, hsignature, hpayload⟩ := h
  match field with
  | 1 =>
    show [] = optionalContent _ t.signature
    rw [hsignature]
    rfl
  | 2 => exact (optionalContent_eq_bytesContent.mpr hpayload).symm
  | 3 =>
    show bytesContent (utf8 r.name) = []
    rw [hname]
    rfl
  | 4 =>
    show optionalContent _ r.ttl = []
    rw [httl]
    rfl
  | 0 => rfl
  | field + 5 => rfl

theorem request_eq_of_content {r r' : ActivityRequest} (hr : r.signature = none)
    (hr' : r'.signature = none)
    (h : ∀ field ∈ [1, 2, 3, 4, 5, 6, 7, 8, 9], content (.request r) field
      = content (.request r') field) : r = r' := by
  have htype : ∀ a b : ActivityRequestType, a.number = b.number → a = b := by
    intro a b
    cases a <;> cases b <;> decide
  obtain ⟨requestId, requestType, bucketId, id, offset, size, timestamp, signature⟩ := r
  obtain ⟨requestId', requestType', bucketId', id', offset', size', timestamp', signature'⟩ := r'
  cases hr
  cases hr'
  cases utf8_inj (bytesContent_inj (h 2 (by simp)))
  cases htype _ _ (varintContent_inj (h 3 (by simp)))
  cases varintContent_inj (h 5 (by simp))
  cases bytesContent_inj (h 6 (by simp))
  cases varintContent_inj (h 7 (by simp))
  cases varintContent_inj (h 8 (by simp))
  cases varintContent_inj (h 9 (by simp))
  rfl

theorem ack_eq_of_content {a a' : ActivityAcknowledgment} (ha : a.signature = none)
    (ha' : a'.signature = none)
    (h : ∀ field ∈ [1, 2, 3, 4, 5, 6, 7, 8, 9], content (.ack a) field = content (.ack a') field) :
    a = a' := by
  obtain ⟨requestId, bytesStoredOrDelivered, timestamp, signature⟩ := a
  obtain ⟨requestId', bytesStoredOrDelivered', timestamp', signature'⟩ := a'
  cases ha
  cases ha'
  cases utf8_inj (bytesContent_inj (h 1 (by simp)))
  cases varintContent_inj (h 2 (by simp))
  cases varintContent_inj (h 3 (by simp))
  rfl

theorem record_eq_of_content {r r' : RecordMessage} (hr : r.signature = none)
    (hr' : r'.signature = none)
    (h : ∀ field ∈ [1, 2, 3, 4, 5, 6, 7, 8, 9], content (.record r) field
      = content (.record r') field) : r = r' := by
  obtain ⟨signature, cid, name, ttl⟩ := r
  obtain ⟨signature', cid', name', ttl'⟩ := r'
  cases hr
  cases hr'
  cases bytesContent_inj (h 2 (by simp))
  cases utf8_inj (bytesContent_inj (h 3 (by simp)))
  cases optionalContent_inj (fun _ _ => WireValue.varint.inj) (h 4 (by simp))
  rfl

/-- What is signed is the same for two messages when the messages are the same, and for a record
and a token that can be confused, but never otherwise. -/
theorem toBinary_eq_iff (h : m.Made) (h' : m'.Made) :
    m.toBinary = m'.toBinary ↔ m = m' ∨ Confusable m m' ∨ Confusable m' m := by
  rw [toBinary_eq h, toBinary_eq h']
  constructor
  · intro hbinary
    have hcontent := content_eq (by decide) hbinary
    cases m with
    | token t =>
      cases m' with
      | token t' =>
        have hsignature := AuthToken.signature_eq_of_content (hcontent 1 (by simp))
        have hpayload := optionalContent_inj (fun _ _ => WireValue.bytes.inj)
          (hcontent 2 (by simp))
        exact .inl (congrArg token (AuthToken.eq_of_payloadBinary h h' hsignature hpayload))
      | request r => exact absurd (hcontent 9 (by simp)).symm (varintContent_ne_nil h'.2)
      | ack a => exact absurd (hcontent 3 (by simp)).symm (varintContent_ne_nil h'.2)
      | record r =>
        exact .inr (.inr (confusable_of_content fun field hfield => (hcontent field hfield).symm))
    | request r =>
      cases m' with
      | request r' => exact .inl (congrArg request (request_eq_of_content h.1 h'.1 hcontent))
      | token t => exact absurd (hcontent 9 (by simp)) (varintContent_ne_nil h.2)
      | ack a => exact absurd (hcontent 9 (by simp)) (varintContent_ne_nil h.2)
      | record r' => exact absurd (hcontent 9 (by simp)) (varintContent_ne_nil h.2)
    | ack a =>
      cases m' with
      | ack a' => exact .inl (congrArg ack (ack_eq_of_content h.1 h'.1 hcontent))
      | token t => exact absurd (hcontent 3 (by simp)) (varintContent_ne_nil h.2)
      | request r => exact absurd (hcontent 9 (by simp)).symm (varintContent_ne_nil h'.2)
      | record r => exact absurd (hcontent 3 (by simp)) (varintContent_ne_bytesContent h.2)
    | record r =>
      cases m' with
      | record r' => exact .inl (congrArg record (record_eq_of_content h h' hcontent))
      | token t => exact .inr (.inl (confusable_of_content hcontent))
      | request r' => exact absurd (hcontent 9 (by simp)).symm (varintContent_ne_nil h'.2)
      | ack a => exact absurd (hcontent 3 (by simp)).symm (varintContent_ne_bytesContent h'.2)
  · rintro (rfl | hconfusable | hconfusable)
    · rfl
    · cases m with
      | record r =>
        cases m' with
        | token t =>
          congr 1
          funext field
          exact content_of_confusable hconfusable field
        | _ => cases hconfusable
      | _ => cases hconfusable
    · cases m' with
      | record r =>
        cases m with
        | token t =>
          congr 1
          funext field
          exact (content_of_confusable hconfusable field).symm
        | _ => cases hconfusable
      | _ => cases hconfusable

/-- An unsigned token, and a nameless record with the payload of the token as its CID. -/
example :
    let payload : Payload := { operations := [.get] }
    SignedMessage.toBinary (.record { cid := payload.toBinary none, name := "" })
      = SignedMessage.toBinary (.token (.root none payload)) := by
  intro payload
  have hnonempty : payload.toBinary none ≠ [] := by decide +kernel
  refine (@toBinary_eq_iff (.record ⟨none, payload.toBinary none, "", none⟩)
    (.token (.root none payload)) rfl ⟨by rintro _ ⟨⟩, by rintro _ ⟨⟩⟩).mpr
    (.inr (.inl ⟨rfl, rfl, rfl, ?_⟩))
  rw [if_neg hnonempty]
  rfl

end SignedMessage

end CereDdc
