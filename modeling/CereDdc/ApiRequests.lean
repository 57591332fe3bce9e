import CereDdc.Kit.Program
import CereDdc.ApiMessages
import CereDdc.SdkToken

/-!
# ApiRequests — `signature/createSignature.ts`, `activity`, `auth/createRpcMeta.ts`

The clients of the APIs are programs. Their environment is everything they wait
for: the wallet, the clock, the random identifiers, the node behind the
transport, and the reader of a content stream.
-/

namespace CereDdc

open Kit

/-! ## Requests -/

/-- What a client asks of its environment. -/
inductive ApiRequest
  /-- `isReady()` of a signer -/
  | ready (account : Account)
  /-- `sign(message)` of a signer -/
  | sign (account : Account) (message : Bytes)
  /-- `Date.now()` -/
  | now
  /-- `uuid()` -/
  | uuid
  /-- `StorageNode.createAuthToken` -/
  | authToken (accessToken : Option TokenInput)
  | rpc (info : ApiMeta) (method : RpcMethod)
  /-- a chunk that a content stream yields to its reader -/
  | deliver (data : Bytes)
  /-- an acknowledgment, sent without waiting for it -/
  | ack (ack : ActivityAcknowledgment)
  /-- `call.requests.complete()` -/
  | complete
  deriving DecidableEq

def ApiRequest.Answer : ApiRequest → Type
  | ready _ => Except JsError Unit
  | sign _ _ => Except JsError Bytes
  | now => Nat
  | uuid => String
  | authToken _ => Except JsError AuthToken
  | rpc _ method => Except JsError method.Response
  | deliver _ => Unit
  | ack _ => Unit
  | complete => Except JsError Unit

instance (r : ApiRequest) : Inhabited r.Answer where
  default :=
    match r with
    | .ready _ => .ok ()
    | .sign _ _ => .ok []
    | .now => (0 : Nat)
    | .uuid => ("" : String)
    | .authToken _ => .error (.error "")
    | .rpc _ _ => .error (.error "")
    | .deliver _ => ()
    | .ack _ => ()
    | .complete => .ok ()

/-- A program of the clients. -/
abbrev ApiProgram := Program ApiRequest.Answer JsError

namespace Api

/-- `await` on a request that may be rejected. -/
def await {α : Type} (p : ApiProgram (Except JsError α)) : ApiProgram α :=
  p >>= Program.ofExcept

def ready (account : Account) : ApiProgram Unit := await (.request (ApiRequest.ready account))

def sign (account : Account) (message : Bytes) : ApiProgram Bytes :=
  await (.request (ApiRequest.sign account message))

def now : ApiProgram Nat := .request ApiRequest.now

def uuid : ApiProgram String := .request ApiRequest.uuid

def createAuthToken (accessToken : Option TokenInput) : ApiProgram AuthToken :=
  await (.request (ApiRequest.authToken accessToken))

def rpc (info : ApiMeta) (method : RpcMethod) : ApiProgram (Except JsError method.Response) :=
  .request (ApiRequest.rpc info method)

/-- A call whose failure is a failure of the client. -/
def call (info : ApiMeta) (method : RpcMethod) : ApiProgram method.Response :=
  await (rpc info method)

def deliver (data : Bytes) : ApiProgram Unit := .request (ApiRequest.deliver data)

def ack (ack : ActivityAcknowledgment) : ApiProgram Unit := .request (ApiRequest.ack ack)

def complete : ApiProgram Unit := await (.request ApiRequest.complete)

end Api

/-! ## Signatures -/

/-- `maybeSdkSigner(signer, token)` -/
def maybeSdkSigner (registry : List KeyPair) (signer : Signer) (token : Option AuthToken) :
    Signer :=
  ((token.bind (·.signer)).bind fun key => getSdkSigner registry (encodeAddress key)).getD signer

namespace Api

/-- What the signatures of a call are made from: the signer of the client, and the SDK signers
that are registered for it. -/
structure Keys where
  signer : Signer
  registry : List KeyPair

/-- `createSignature(signer, message, { token })` -/
def createSignature (keys : Keys) (message : Bytes) (token : Option AuthToken) :
    ApiProgram Signature := do
  let account := (maybeSdkSigner keys.registry keys.signer token).toAccount
  ready account
  let (algorithm, publicKey) ← Program.ofExcept (signatureHead account)
  let value ← sign account message
  return ⟨algorithm, publicKey, value⟩

/-- The fields of an activity request that a call fills in; those it leaves out are `none`. -/
structure ActivityFields where
  requestId : Option String := none
  requestType : ActivityRequestType
  bucketId : Nat
  id : Option Bytes := none
  offset : Option Nat := none
  /-- a negative size cannot be encoded -/
  size : Option Int := none
  deriving DecidableEq, Repr

def ActivityFields.create (fields : ActivityFields) (timestamp : Nat) (requestId : String) :
    ActivityRequest :=
  { requestId := fields.requestId.getD requestId
    requestType := fields.requestType
    bucketId := fields.bucketId
    id := fields.id.getD []
    offset := fields.offset.getD 0
    size := (fields.size.getD 0).toNat
    timestamp }

/-- `createActivityRequest(request, { token, signer })` -/
def createActivityRequest (keys : Keys) (fields : ActivityFields) (token : Option AuthToken) :
    ApiProgram ActivityRequest := do
  let timestamp ← now
  let requestId ← uuid
  if fields.size.getD 0 < 0 then
    .fail (.error "signed value for ulong")
  else
    let request := fields.create timestamp requestId
    let signature ← createSignature keys request.toBinary token
    return { request with signature := some signature }

/-- `createAck(ack, { token, signer })` -/
def createAck (keys : Option Keys) (ack : ActivityAcknowledgment) (token : Option AuthToken) :
    ApiProgram ActivityAcknowledgment :=
  match keys with
  | none => .fail (.error "Cannot sign acknowledgment. Signer requred!")
  | some keys => do
    let signature ← createSignature keys ack.toBinary token
    return { ack with signature := some signature }

/-! ## Metadata -/

/-- `createRpcMeta` of `activity` on that of `auth`: an empty correlation id counts as none. -/
def createRpcMeta (correlationId : Option String) (token : Option AuthToken) :
    ApiProgram ApiMeta :=
  match correlationId.filter (· ≠ "") with
  | some correlationId => return { token, correlationId }
  | none => do
    let correlationId ← uuid
    return { token, correlationId }

/-- The metadata once the call is signed, which it is where the client has a signer. -/
def signMeta (keys : Option Keys) (fields : ActivityFields) (info : ApiMeta) :
    ApiProgram ApiMeta :=
  match keys with
  | none => return info
  | some keys => do
    let request ← createActivityRequest keys fields info.token
    return { info with request := some request }

/-! ## What the parts of a call ask -/

/-- The account the signatures of a call come from. -/
def Keys.account (keys : Keys) (token : Option AuthToken) : Account :=
  (maybeSdkSigner keys.registry keys.signer token).toAccount

/-- `P` allows what is asked before a call goes out with `token`. -/
structure Prepares (P : ApiRequest → Prop) (keys : Option Keys) (token : Option AuthToken) :
    Prop where
  now : P .now
  uuid : P .uuid
  ready : ∀ k ∈ keys, P (.ready (k.account token))
  sign : ∀ k ∈ keys, ∀ head, signatureHead (k.account token) = .ok head →
    ∀ message, P (.sign (k.account token) message)

section

variable {P : ApiRequest → Prop} {keys : Option Keys} {k : Keys} {token : Option AuthToken}
  {info : ApiMeta} {α : Type} {r : ApiRequest} {Q : α → Prop}

theorem meets_await {p : ApiProgram (Except JsError α)}
    (h : p.Meets P fun x => ∀ a, x = .ok a → Q a) : (await p).Meets P Q :=
  h.bind fun _ => Program.meets_ofExcept

theorem all_call {method : RpcMethod} (h : P (.rpc info method)) : (call info method).All P :=
  meets_await ⟨h, fun _ _ _ => trivial⟩

theorem all_complete (h : P .complete) : complete.All P := meets_await ⟨h, fun _ _ _ => trivial⟩

theorem all_createSignature (h : Prepares P (some k) token) {message : Bytes} :
    (createSignature k message token).All P := by
  refine .bind (meets_await ⟨h.ready k rfl, fun _ _ _ => trivial⟩) fun _ _ => ?_
  refine .bind (Q := fun head => signatureHead (k.account token) = .ok head)
    (Program.meets_ofExcept fun head hhead => hhead) fun head hhead => ?_
  exact .bind (meets_await ⟨h.sign k rfl head hhead message, fun _ _ _ => trivial⟩)
    fun _ _ => trivial

theorem all_createActivityRequest (h : Prepares P (some k) token) {fields : ActivityFields} :
    (createActivityRequest k fields token).All P := by
  refine .bind ⟨h.now, fun _ => trivial⟩ fun timestamp _ => ?_
  refine .bind ⟨h.uuid, fun _ => trivial⟩ fun requestId _ => ?_
  split
  · trivial
  · exact .bind (all_createSignature h) fun _ _ => trivial

theorem all_createAck (h : Prepares P keys token) {ack : ActivityAcknowledgment} :
    (createAck keys ack token).All P := by
  cases keys with
  | none => trivial
  | some keys => exact .bind (all_createSignature h) fun _ _ => trivial

/-- The id of the caller is in the metadata, and so is the token. -/
theorem meets_createRpcMeta {correlationId : Option String} (h : P .uuid) :
    (createRpcMeta correlationId token).Meets P fun info => info.token = token ∧
      ∀ id, correlationId = some id → id ≠ "" → info.correlationId = id := by
  unfold createRpcMeta
  cases hid : correlationId.filter (· ≠ "") with
  | some id =>
    refine ⟨rfl, fun id' hid' hne => ?_⟩
    rw [hid', Option.filter_some, if_pos (decide_eq_true hne)] at hid
    exact (Option.some.inj hid).symm
  | none =>
    refine ⟨h, fun id => ⟨rfl, fun id' hid' hne => ?_⟩⟩
    rw [hid', Option.filter_some, if_pos (decide_eq_true hne)] at hid
    cases hid

/-- Signing leaves the token and the correlation id as they are. -/
theorem meets_signMeta (h : Prepares P keys info.token) {fields : ActivityFields} :
    (signMeta keys fields info).Meets P fun signed =>
      signed.token = info.token ∧ signed.correlationId = info.correlationId := by
  cases keys with
  | none => exact ⟨rfl, rfl⟩
  | some keys => exact .bind (all_createActivityRequest h) fun _ _ => ⟨rfl, rfl⟩

end

end Api

end CereDdc
