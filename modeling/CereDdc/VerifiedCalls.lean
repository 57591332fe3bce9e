import CereDdc.ActivityMessages
import CereDdc.ApiSignatures
import CereDdc.Kit.Base64
import CereDdc.SignedMessages
import CereDdc.TokenSignatures
import CereDdc.WireReader

/-!
# VerifiedCalls — what the signatures of a call are for

Every call of the three clients, in any environment. Whoever has a message that was
sent can check its signature, and what was signed for a call is no token.
-/

namespace CereDdc

open Kit Program Api

/-- `base64` of `Buffer`, of which the node needs that it can be read back. -/
structure Base64 where
  encode : Bytes → String
  decode : String → Option Bytes
  decode_encode : ∀ bytes, decode (encode bytes) = some bytes

def Base64.buffer : Base64 where
  encode bytes := String.ofList (Kit.Base64.encode bytes)
  decode text := Kit.Base64.decode text.toList
  decode_encode bytes := by rw [String.toList_ofList, Kit.Base64.decode_encode]

/-- The text of an activity request in the metadata of a call. -/
def ActivityRequest.text (base64 : Base64) (request : ActivityRequest) : String :=
  base64.encode request.toBinary

/-- The activity request in the metadata, as the node reads it. -/
def ActivityMessage.ofText (base64 : Base64) (reader : BinaryReader) (text : String) :
    Option ActivityMessage :=
  (base64.decode text).bind (fromBinary reader)

/-! ## Records -/

def RecordMessage.kept (record : RecordMessage) : KeptRecord where
  signature := record.signature.map (·.toMessage)
  cid := record.cid
  name := record.name
  ttl := record.ttl

/-- The TTL is such that its field can hold it, and the record is less than 2 GiB. -/
structure RecordMessage.Writable (record : RecordMessage) : Prop where
  ttl : ∀ ttl, record.ttl = some ttl → ttl < 2 ^ 32
  length : record.toBinary.length < 2 ^ 31

theorem RecordMessage.toBinary_kept (record : RecordMessage) :
    record.kept.toBinary = record.toBinary := by
  show optionalField _ (record.signature.map (·.toMessage)) ++ _ ++ _ ++ _ ++ [] = _
  rw [List.append_nil, optionalField_signature]
  rfl

/-- A record is read back from its binary form. -/
theorem RecordMessage.fromBinary_eq {reader : BinaryReader} {record : RecordMessage}
    (h : record.Writable) :
    KeptRecord.fromBinary reader record.toBinary = some record.kept := by
  obtain ⟨httl, hlength⟩ := h
  rw [← toBinary_kept] at hlength ⊢
  have hunknown : ∀ u ∈ record.kept.unknown, reader.Skippable [1, 2, 3, 4] u := nofun
  have hsignature : ∀ s, record.kept.signature = some s → s.WellFormed reader := by
    intro s hs
    obtain ⟨signature, -, rfl⟩ := Option.map_eq_some_iff.mp hs
    exact ⟨signature.algorithm.isInt32, nofun⟩
  exact KeptRecord.fromBinary_toBinary ⟨hsignature, httl, hunknown⟩ hlength

/-! ## Signatures in a run -/

section

variable {σ : Type} {env : Environment ApiRequest.Answer σ} {keys : Keys} {account : Account}
  {message : Bytes} {token : Option AuthToken} {signature : Signature} {P : ApiRequest → Prop}

/-- The account has been asked to sign the message, and has answered with this signature. -/
def SignedIn (env : Environment ApiRequest.Answer σ) (account : Account) (message : Bytes)
    (signature : Signature) : Prop :=
  signatureHead account = .ok (signature.algorithm, signature.signer) ∧
    ∃ t, (env t (.sign account message)).1 = .ok signature.value

theorem meetsIn_await {α : Type} {p : ApiProgram (Except JsError α)} {Q : α → Prop}
    (h : MeetsIn env P (fun x => ∀ a, x = .ok a → Q a) p) : MeetsIn env P Q (await p) :=
  h.bind fun _ hx => (meets_ofExcept hx).meetsIn

theorem meetsIn_createSignature (hready : ∀ account, P (.ready account))
    (hsign : P (.sign (keys.account token) message)) :
    MeetsIn env P (SignedIn env (keys.account token) message)
      (Api.createSignature keys message token) := by
  refine .bind (meetsIn_await (.request (hready _) fun _ _ _ => trivial)) fun _ _ => ?_
  refine .bind (Q := fun head => signatureHead (keys.account token) = .ok head)
    (meets_ofExcept fun head hhead => hhead).meetsIn fun head hhead => ?_
  refine .bind (Q := fun value => ∃ t, (env t (.sign (keys.account token) message)).1 = .ok value)
    (meetsIn_await (.request hsign fun s value hvalue => ⟨s, hvalue⟩)) fun value hvalue => ?_
  exact meets_done.mpr ⟨hhead, hvalue⟩ |>.meetsIn

/-- The request has a signature of the account, for its bytes without it. -/
def ActivityRequest.SignedIn (env : Environment ApiRequest.Answer σ) (account : Account)
    (request : ActivityRequest) : Prop :=
  ∃ signature, request.signature = some signature ∧
    CereDdc.SignedIn env account { request with signature := none }.toBinary signature

def ActivityAcknowledgment.SignedIn (env : Environment ApiRequest.Answer σ) (account : Account)
    (ack : ActivityAcknowledgment) : Prop :=
  ∃ signature, ack.signature = some signature ∧
    CereDdc.SignedIn env account { ack with signature := none }.toBinary signature

def RecordMessage.SignedIn (env : Environment ApiRequest.Answer σ) (account : Account)
    (record : RecordMessage) : Prop :=
  ∃ signature, record.signature = some signature ∧
    CereDdc.SignedIn env account { record with signature := none }.toBinary signature

/-- A message that is signed for the call. -/
def SignedMessage.For (call : ApiCall) : SignedMessage → Prop
  | .token _ => False
  | .record r => ∃ bucketId, call = .putRecord bucketId r
  | _ => True

/-- A node that is stored without content is stored without an activity request. -/
def ApiCall.isUnsigned : ApiCall → Bool
  | .putNode _ none _ => true
  | _ => false

/-- The token that the activity request of the call is signed with. -/
def ApiCall.requestToken (call : ApiCall) (params : MetaParams) : Option AuthToken :=
  if call.isPutRecord then none else params.token

/-- The clock of the environment has gone on since 1970. -/
def ClockRuns (env : Environment ApiRequest.Answer σ) : Prop := ∀ s, (env s .now).1 ≠ (0 : Nat)

/-- What a request of a call is to be. -/
def ApiRequest.Proper (env : Environment ApiRequest.Answer σ) (options : ApiOptions)
    (params : MetaParams) (call : ApiCall) : ApiRequest → Prop
  | .sign _ message => ClockRuns env →
    ∃ m : SignedMessage, m.Made ∧ m.For call ∧ m.toBinary = message
  | .rpc info method =>
    (if call.isUnsigned then info.request = none
      else match options.keys with
        | none => info.request = none
        | some keys => ∃ request, info.request = some request ∧
          request.SignedIn env (keys.account (call.requestToken params))) ∧
    match method with
    | .cnsPut _ r => ∃ keys, options.keys = some keys ∧ r.SignedIn env (keys.account params.token)
    | _ => True
  | .ack a => ∃ keys, options.keys = some keys ∧ a.SignedIn env (keys.account params.token)
  | _ => True

end

section

variable {σ : Type} {env : Environment ApiRequest.Answer σ} {options : ApiOptions}
  {params : MetaParams} {call : ApiCall} {keys : Keys} {info : ApiMeta} {bucketId : Nat}
  {hasher : Hasher}

theorem meetsIn_createActivityRequest {fields : ActivityFields} {token : Option AuthToken} :
    MeetsIn env (ApiRequest.Proper env options params call)
      (ActivityRequest.SignedIn env (keys.account token))
      (createActivityRequest keys fields token) := by
  refine .bind (Q := fun timestamp => ClockRuns env → timestamp ≠ (0 : Nat))
    (.request trivial fun s hclock => hclock s) fun timestamp htimestamp => ?_
  refine .bind (Q := fun _ => True) (.request trivial fun _ => trivial) fun requestId _ => ?_
  split
  · exact Meets.meetsIn trivial
  · let request := fields.create timestamp requestId
    have hsign : ApiRequest.Proper env options params call
        (.sign (keys.account token) request.toBinary) :=
      fun hclock => ⟨.request request, ⟨rfl, htimestamp hclock⟩, trivial, rfl⟩
    refine .bind (meetsIn_createSignature (fun _ => trivial) hsign) fun signature hsignature => ?_
    exact Meets.meetsIn (meets_done.mpr ⟨signature, rfl, hsignature⟩)

/-- The metadata of a call with an activity request. -/
def ApiMeta.Signed (env : Environment ApiRequest.Answer σ) (options : ApiOptions)
    (token : Option AuthToken) (info : ApiMeta) : Prop :=
  match options.keys with
  | none => info.request = none
  | some keys => ∃ request, info.request = some request ∧ request.SignedIn env (keys.account token)

theorem meetsIn_create : MeetsIn env (ApiRequest.Proper env options params call)
    (fun info => info.token = params.token ∧ info.request = none) params.create := by
  unfold MetaParams.create createRpcMeta
  cases params.correlationId.filter (· ≠ "") with
  | some id => exact Meets.meetsIn (meets_done.mpr ⟨rfl, rfl⟩)
  | none =>
    refine .bind (Q := fun _ => True) (.request trivial fun _ => trivial) fun id _ => ?_
    exact Meets.meetsIn (meets_done.mpr ⟨rfl, rfl⟩)

theorem meetsIn_signMeta {fields : ActivityFields}
    (h : info.token = params.token ∧ info.request = none) :
    MeetsIn env (ApiRequest.Proper env options params call)
      (fun info => info.Signed env options params.token)
      (signMeta options.keys fields info) := by
  unfold signMeta ApiMeta.Signed
  cases options.keys with
  | none => exact Meets.meetsIn (meets_done.mpr h.2)
  | some keys =>
    refine .bind meetsIn_createActivityRequest fun request hrequest => ?_
    exact Meets.meetsIn (meets_done.mpr ⟨request, rfl, h.1 ▸ hrequest⟩)

/-- A call that goes out with the metadata of its activity request. -/
theorem meetsIn_call {method : RpcMethod} (hput : call.isPutRecord = false)
    (hunsigned : call.isUnsigned = false)
    (hmethod : ∀ bucketId record, method ≠ .cnsPut bucketId record)
    (h : info.Signed env options params.token) :
    MeetsIn env (ApiRequest.Proper env options params call) (fun _ => True) (rpc info method) := by
  refine .request ⟨?_, ?_⟩ fun _ => trivial
  · rw [hunsigned, ApiCall.requestToken, hput]
    exact h
  · cases method with
    | cnsPut bucketId record => exact absurd rfl (hmethod bucketId record)
    | _ => trivial

theorem meetsIn_awaited {α : Type} {p : ApiProgram (Except JsError α)} {P : ApiRequest → Prop}
    (h : MeetsIn env P (fun _ => True) p) : MeetsIn env P (fun _ => True) (await p) :=
  h.bind fun _ _ => (meets_ofExcept fun _ _ => trivial).meetsIn

/-- A program whose result is left out. -/
theorem meetsIn_unit {α : Type} {p : ApiProgram α} {P : ApiRequest → Prop}
    (h : MeetsIn env P (fun _ => True) p) :
    MeetsIn env P (fun _ => True) (p >>= fun _ => pure ()) :=
  h.bind fun _ _ => Meets.meetsIn trivial

theorem meetsIn_sendAck {requestId : String} {bytesStoredOrDelivered : Nat} :
    MeetsIn env (ApiRequest.Proper env options params call) (fun _ => True)
      (FileApi.sendAck options requestId params.token bytesStoredOrDelivered) := by
  unfold FileApi.sendAck
  split
  · refine .bind (Q := fun timestamp => ClockRuns env → timestamp ≠ (0 : Nat))
      (.request trivial fun s hclock => hclock s) fun timestamp htimestamp => ?_
    cases hkeys : options.keys with
    | none => exact Meets.meetsIn trivial
    | some keys =>
      let ack : ActivityAcknowledgment := { requestId, bytesStoredOrDelivered, timestamp }
      have hsign : ApiRequest.Proper env options params call
          (.sign (keys.account params.token) ack.toBinary) :=
        fun hclock => ⟨.ack ack, ⟨rfl, htimestamp hclock⟩, trivial, rfl⟩
      refine .bind (Q := fun signed => ∃ keys, options.keys = some keys ∧
        ActivityAcknowledgment.SignedIn env (keys.account params.token) signed) ?_
        fun signed h => ?_
      · refine .bind (meetsIn_createSignature (fun _ => trivial) hsign) fun signature h => ?_
        exact Meets.meetsIn (meets_done.mpr ⟨keys, hkeys, signature, rfl, h⟩)
      · exact .request h fun _ => trivial
  · exact Meets.meetsIn trivial

theorem meetsIn_readStream {requestId : String} {cid : Cid} {range : Option ReadFileRange}
    {responses : FileResponses} : MeetsIn env (ApiRequest.Proper env options params call)
      (fun _ => True)
      (FileApi.readStream hasher options requestId params.token cid range responses) := by
  have hloop : ∀ messages n (validator : FileValidator hasher),
      MeetsIn env (ApiRequest.Proper env options params call) (fun _ => True)
        (FileApi.toDataStream options requestId params.token messages n validator) := by
    intro messages
    induction messages with
    | nil => exact fun _ _ => Meets.meetsIn trivial
    | cons message messages ih =>
      intro n validator
      cases message with
      | proof proof => exact ih n _
      | undefined => exact ih n _
      | data data =>
        refine .bind (Q := fun _ => True) (.request trivial fun _ => trivial) fun _ _ => ?_
        exact .bind meetsIn_sendAck fun _ _ => ih _ _
  refine .bind (hloop _ _ _) fun validator _ => ?_
  cases responses.error with
  | some e => exact Meets.meetsIn trivial
  | none =>
    refine .bind (meetsIn_awaited (.request trivial fun _ => trivial)) fun _ _ => ?_
    exact (meets_ofExcept fun _ _ => trivial).meetsIn

/-- The record of the call has no signature yet. -/
def ApiCall.Fresh (call : ApiCall) : Prop :=
  ∀ bucketId record, call = .putRecord bucketId record → record.signature = none

/-- Every request of a call is as it is to be. -/
theorem ApiCall.meetsIn_program (hfresh : call.Fresh) :
    MeetsIn env (ApiRequest.Proper env options params call) (fun _ => True)
      (call.program hasher options params) := by
  cases call with
  | putRawPiece bucketId isMultipart offset size content =>
    refine meetsIn_unit (.bind meetsIn_create fun info hinfo => ?_)
    refine .bind (meets_ofExcept fun _ _ => trivial).meetsIn fun size _ => ?_
    refine .bind (meetsIn_signMeta hinfo) fun info hinfo => ?_
    exact meetsIn_awaited (meetsIn_call rfl rfl nofun hinfo)
  | putMultipartPiece request =>
    refine meetsIn_unit (.bind meetsIn_create fun info hinfo => ?_)
    refine .bind (meetsIn_signMeta hinfo) fun info hinfo => ?_
    exact meetsIn_awaited (meetsIn_call rfl rfl nofun hinfo)
  | getFile bucketId cid range =>
    have hstream : MeetsIn env (ApiRequest.Proper env options params (.getFile bucketId cid range))
        (fun stream =>
          MeetsIn env (ApiRequest.Proper env options params (.getFile bucketId cid range))
            (fun _ => True) stream)
        (FileApi.getFile hasher options params bucketId cid range) := by
      refine .bind (Q := fun _ => True) (.request trivial fun _ => trivial) fun requestId _ => ?_
      refine .bind meetsIn_create fun info hinfo => ?_
      refine .bind (meetsIn_signMeta hinfo) fun info hinfo => ?_
      refine .bind (meetsIn_awaited (meetsIn_call rfl rfl nofun hinfo)) fun responses _ => ?_
      exact Meets.meetsIn (meets_done.mpr meetsIn_readStream)
    exact hstream.bind fun stream h => h
  | putNode bucketId node cid =>
    refine meetsIn_unit (.bind meetsIn_create fun info hinfo => ?_)
    cases node with
    | none => exact meetsIn_awaited (.request ⟨hinfo.2, trivial⟩ fun _ => trivial)
    | some node =>
      refine .bind (meetsIn_signMeta hinfo) fun info hinfo => ?_
      exact meetsIn_awaited (meetsIn_call rfl rfl nofun hinfo)
  | getNode request =>
    refine meetsIn_unit (.bind meetsIn_create fun info hinfo => ?_)
    refine .bind (meetsIn_signMeta hinfo) fun info hinfo => ?_
    refine .bind (meetsIn_awaited (meetsIn_call rfl rfl nofun hinfo)) fun node _ => ?_
    exact .bind (meets_ofExcept fun _ _ => trivial).meetsIn fun _ _ => Meets.meetsIn trivial
  | putRecord bucketId record =>
    refine meetsIn_unit (.bind meetsIn_create fun info hinfo => ?_)
    cases hkeys : options.keys with
    | none => exact Meets.meetsIn trivial
    | some keys =>
      have hunsigned := hfresh bucketId record rfl
      have hsign : ApiRequest.Proper env options params (.putRecord bucketId record)
          (.sign (keys.account params.token) record.toBinary) :=
        fun _ => ⟨.record record, hunsigned, ⟨bucketId, rfl⟩, rfl⟩
      refine .bind (meetsIn_createSignature (fun _ => trivial) hsign) fun signature hsignature => ?_
      refine .bind meetsIn_createActivityRequest fun request hrequest => ?_
      refine .bind
        (meetsIn_awaited (.request ⟨?_, keys, hkeys, signature, rfl, ?_⟩ fun _ => trivial))
        fun _ _ => Meets.meetsIn trivial
      · rw [hkeys]
        exact ⟨request, rfl, hrequest⟩
      · rw [← hunsigned]
        exact hsignature
  | getRecord bucketId name cacheControl =>
    refine meetsIn_unit (.bind meetsIn_create fun info hinfo => ?_)
    refine .bind (meetsIn_signMeta hinfo) fun info hinfo => ?_
    refine .bind (meetsIn_call rfl rfl nofun hinfo) fun answer _ => ?_
    cases answer with
    | ok record => exact Meets.meetsIn trivial
    | error e =>
      show MeetsIn env _ _ (if CnsApi.isNotFound e then pure none else .fail e)
      split <;> exact Meets.meetsIn trivial

/-! ## Who gets the messages -/

/-- The signature of a message that was received is one of the account, for the message without
it. -/
def Verifies (env : Environment ApiRequest.Answer σ) (account : Account)
    (signature : Option SignatureMessage) (unsigned : Bytes) : Prop :=
  ∃ made : Signature, signature = some made.toMessage ∧ SignedIn env account unsigned made

/-- What is sent can be read, and its signature checked, by whoever receives it. -/
def ApiRequest.Verifiable (base64 : Base64) (reader : BinaryReader)
    (env : Environment ApiRequest.Answer σ) (options : ApiOptions) (params : MetaParams)
    (call : ApiCall) : ApiRequest → Prop
  | .rpc info method =>
    info.request.isSome = (options.keys.isSome && !call.isUnsigned) ∧
    (∀ request, info.request = some request → request.Writable →
      ∃ keys message, options.keys = some keys ∧
        ActivityMessage.ofText base64 reader (request.text base64) = some message ∧
        Verifies env (keys.account (call.requestToken params)) message.content.signature
          message.unsigned.toBinary) ∧
    ∀ bucketId record, method = .cnsPut bucketId record → record.Writable →
      ∃ keys kept, options.keys = some keys ∧
        KeptRecord.fromBinary reader record.toBinary = some kept ∧
        Verifies env (keys.account params.token) kept.signature
          { kept with signature := none }.toBinary
  | .ack a => a.Writable →
    ∃ keys message, options.keys = some keys ∧
      AckMessage.fromBinary reader a.toBinary = some message ∧
      Verifies env (keys.account params.token) message.signature
        { message with signature := none }.toBinary
  | _ => True

theorem ApiRequest.Proper.verifiable {base64 : Base64} {reader : BinaryReader} {r : ApiRequest}
    (h : r.Proper env options params call) :
    r.Verifiable base64 reader env options params call := by
  cases r with
  | rpc info method =>
    obtain ⟨hrequest, hmethod⟩ := h
    refine ⟨?_, ?_, ?_⟩
    · cases hunsigned : call.isUnsigned with
      | true =>
        rw [hunsigned, if_pos rfl] at hrequest
        rw [hrequest, Bool.not_true, Bool.and_false]
        rfl
      | false =>
        rw [hunsigned, if_neg Bool.false_ne_true] at hrequest
        cases hkeys : options.keys with
        | none =>
          rw [hkeys] at hrequest
          rw [hrequest]
          rfl
        | some keys =>
          rw [hkeys] at hrequest
          obtain ⟨request, hinfo, -⟩ := hrequest
          rw [hinfo]
          rfl
    · intro request hinfo hwritable
      cases hunsigned : call.isUnsigned with
      | true =>
        rw [hunsigned, if_pos rfl, hinfo] at hrequest
        cases hrequest
      | false =>
        rw [hunsigned, if_neg Bool.false_ne_true, hinfo] at hrequest
        cases hkeys : options.keys with
        | none =>
          rw [hkeys] at hrequest
          cases hrequest
        | some keys =>
          rw [hkeys] at hrequest
          obtain ⟨_, ⟨rfl⟩, signature, hsignature, hsigned⟩ := hrequest
          refine ⟨keys, request.toMessage, rfl, ?_, signature, ?_, ?_⟩
          · rw [ActivityMessage.ofText, ActivityRequest.text, base64.decode_encode]
            exact request.fromBinary_eq hwritable
          · show request.signature.map _ = _
            rw [hsignature]
            rfl
          · exact request.toBinary_unsigned.symm ▸ hsigned
    · rintro bucketId record rfl hwritable
      obtain ⟨keys, hkeys, signature, hsignature, hsigned⟩ := hmethod
      refine ⟨keys, record.kept, hkeys, RecordMessage.fromBinary_eq hwritable, signature, ?_, ?_⟩
      · rw [RecordMessage.kept, hsignature]
        rfl
      · exact (RecordMessage.toBinary_kept { record with signature := none }).symm ▸ hsigned
  | ack a =>
    intro hwritable
    obtain ⟨keys, hkeys, signature, hsignature, hsigned⟩ := h
    refine ⟨keys, a.toMessage, hkeys, ActivityAcknowledgment.fromBinary_eq hwritable, signature, ?_,
      ?_⟩
    · rw [ActivityAcknowledgment.toMessage, hsignature]
      rfl
    · exact a.toBinary_unsigned.symm ▸ hsigned
  | _ => trivial

/-- Of every message that a call sends with a signature, the receiver gets back the message, and the
bytes that the account has signed. Only a node without content is stored without one. -/
theorem ApiCall.sent_verifiable (base64 : Base64) (reader : BinaryReader) (hasher : Hasher)
    (env : Environment ApiRequest.Answer σ) (options : ApiOptions) (params : MetaParams)
    (call : ApiCall) (hfresh : call.Fresh) (s : σ) :
    ∀ r ∈ Program.requests env (call.program hasher options params) s,
      r.Verifiable base64 reader env options params call :=
  fun r hr => (((meetsIn_program hfresh) s).1 r hr).verifiable

/-- A client that stores a record under a name. -/
def storingClient : ApiOptions := { keys := some ⟨SignedToken.firstSigner, []⟩ }
def storedRecord : RecordMessage := { cid := [1, 85], name := "name", ttl := some 60 }

theorem ApiCall.sent_verifiable_record :
    let sent := { storedRecord with signature := some ⟨.sr25519, [1], []⟩ }
    let request : ActivityRequest :=
      { requestId := ""
        requestType := .store
        bucketId := 1
        size := storedRecord.toBinary.length
        timestamp := 0
        signature := some ⟨.sr25519, [1], []⟩ }
    let info : ApiMeta := { token := none, correlationId := "", request := some request }
    ApiRequest.Verifiable .buffer wireReader grantingEnv storingClient {}
      (.putRecord 1 storedRecord) (.rpc info (.cnsPut 1 sent)) := by
  intro sent request info
  exact ApiCall.sent_verifiable .buffer wireReader (.buffered id) grantingEnv storingClient {}
    (.putRecord 1 storedRecord) (by rintro _ _ ⟨⟩; rfl) () (.rpc info (.cnsPut 1 sent))
    (.tail _ (.tail _ (.tail _ (.tail _ (.tail _ (.tail _ (.tail _ (.head _))))))))

/-- A message that is signed for a call can be taken for no other message, but for that of a
nameless record, which can be taken for a token that was never signed. -/
theorem ApiCall.signed_meaning (hasher : Hasher) (env : Environment ApiRequest.Answer σ)
    (options : ApiOptions) (params : MetaParams) (call : ApiCall) (hfresh : call.Fresh)
    (hclock : ClockRuns env) (s : σ) (account : Account) (message : Bytes)
    (h : .sign account message ∈ Program.requests env (call.program hasher options params) s) :
    ∃ m : SignedMessage, m.For call ∧ m.toBinary = message ∧
      ∀ other : SignedMessage, other.Made → other.toBinary = message →
        other = m ∨ m.Confusable other := by
  obtain ⟨m, hmade, hfor, rfl⟩ := ((meetsIn_program hfresh) s).1 _ h hclock
  refine ⟨m, hfor, rfl, fun other hother heq => ?_⟩
  rcases (SignedMessage.toBinary_eq_iff hother hmade).mp heq with rfl | hconfusable | hconfusable
  · exact .inl rfl
  · -- only a token can be taken for a record, and none is signed for a call
    cases m with
    | token t => cases hfor
    | _ => cases other <;> cases hconfusable
  · exact .inr hconfusable

/-- The environment where everything is granted, at some time. -/
def clockedEnv : Environment ApiRequest.Answer Unit
  | _, .now => ((1700000000000 : Nat), ())
  | _, _ => (default, ())

theorem clockedEnv_runs : ClockRuns clockedEnv := nofun

theorem ApiCall.signed_meaning_record :
    ∃ m : SignedMessage, m.For (.putRecord 1 storedRecord) ∧ m.toBinary = storedRecord.toBinary ∧
      ∀ other : SignedMessage, other.Made → other.toBinary = storedRecord.toBinary →
        other = m ∨ m.Confusable other :=
  ApiCall.signed_meaning (.buffered id) clockedEnv storingClient {} (.putRecord 1 storedRecord)
    (by rintro _ _ ⟨⟩; rfl) clockedEnv_runs () SignedToken.firstSigner.toAccount _
    (.tail _ (.tail _ (.head _)))

end

end CereDdc
