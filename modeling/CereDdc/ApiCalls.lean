import CereDdc.ApiRequests
import CereDdc.Validators

/-!
# ApiCalls — `FileApi.ts`, `DagApi.ts`, `CnsApi.ts`

The methods of the three clients. The exchange of the content messages of
`putRawPiece` is one call here; how it goes is the matter of `FileApi`.
-/

namespace CereDdc

open Kit Api

/-- The options of a client. -/
structure ApiOptions where
  keys : Option Keys
  enableAcks : Option Bool := none
  authenticate : Option Bool := none

/-- Acknowledgments are enabled by default if there is a signer. -/
def ApiOptions.acks (options : ApiOptions) : Bool := options.enableAcks.getD options.keys.isSome

def ApiOptions.authenticates (options : ApiOptions) : Bool := options.authenticate.getD false

/-- The part of a request that is not for the node: `AuthMetaParams & CorrelationMetaParams`. -/
structure MetaParams where
  token : Option AuthToken := none
  correlationId : Option String := none
  deriving DecidableEq

def MetaParams.create (params : MetaParams) : ApiProgram ApiMeta :=
  createRpcMeta params.correlationId params.token

/-! ## `FileApi` -/

namespace FileApi

/-- The size checks of `putRawPiece`. -/
def rawPieceSize (size : Option Nat) : Except JsError Nat :=
  match size.getD 0 with
  | 0 => .error (.error "Cannot determine the raw piece size")
  | n + 1 =>
    if maxPieceSize < n + 1 then
      .error (.error "Raw piece size should not be greather then 128 MB")
    else .ok (n + 1)

/-- `putRawPiece({ token, correlationId, ...metadata }, content)` -/
def putRawPiece (options : ApiOptions) (params : MetaParams) (bucketId : Nat) (isMultipart : Bool)
    (offset size : Option Nat) (content : Except JsError (List Bytes)) : ApiProgram Cid := do
  let info ← params.create
  let size ← Program.ofExcept (rawPieceSize size)
  let info ← signMeta options.keys { size := some size, bucketId, requestType := .store } info
  call info (.putRawPiece { bucketId, isMultipart, offset, size } content)

/-- `putMultipartPiece({ token, correlationId, ...request })` -/
def putMultipartPiece (options : ApiOptions) (params : MetaParams)
    (request : PutMultiPartPieceRequest) : ApiProgram Cid := do
  let info ← params.create
  let size := request.toBinary.length
  let info ← signMeta options.keys
    { bucketId := request.bucketId, size := some size, requestType := .store } info
  call info (.putMultipartPiece (multipartRequest request))

/-- The acknowledgment after a chunk. That it is not waited for does not matter to the stream. -/
def sendAck (options : ApiOptions) (requestId : String) (token : Option AuthToken)
    (bytesStoredOrDelivered : Nat) : ApiProgram Unit :=
  if options.acks then do
    let timestamp ← now
    let signedAck ← createAck options.keys { requestId, bytesStoredOrDelivered, timestamp } token
    ack signedAck
  else pure ()

/-- The loop over the response messages in `toDataStream`. -/
def toDataStream {hasher : Hasher} (options : ApiOptions) (requestId : String)
    (token : Option AuthToken) :
    List GetFileResponse → Nat → FileValidator hasher → ApiProgram (FileValidator hasher)
  | [], _, validator => return validator
  | .data data :: messages, bytesStoredOrDelivered, validator => do
    deliver data
    sendAck options requestId token (bytesStoredOrDelivered + data.length)
    toDataStream options requestId token messages (bytesStoredOrDelivered + data.length)
      (validator.update data)
  | .proof proof :: messages, bytesStoredOrDelivered, validator =>
    toDataStream options requestId token messages bytesStoredOrDelivered (validator.prove proof)
  | .undefined :: messages, bytesStoredOrDelivered, validator =>
    toDataStream options requestId token messages bytesStoredOrDelivered validator

/-- `toDataStream`, read to its end. -/
def readStream (hasher : Hasher) (options : ApiOptions) (requestId : String)
    (token : Option AuthToken) (cid : Cid) (range : Option ReadFileRange)
    (responses : FileResponses) : ApiProgram Unit := do
  let validator ← toDataStream options requestId token responses.messages 0
    (FileValidator.new hasher cid options.authenticates range)
  match responses.error with
  | some e => .fail e
  | none => pure ()
  complete
  Program.ofExcept validator.validate

/-- `getFile({ token, correlationId, ...request })`; the result is the stream. -/
def getFile (hasher : Hasher) (options : ApiOptions) (params : MetaParams) (bucketId : Nat)
    (cid : Cid) (range : Option ReadFileRange) : ApiProgram (ApiProgram Unit) := do
  let requestId ← uuid
  let info ← params.create
  let info ← signMeta options.keys
    { requestId := some requestId
      id := some cid
      bucketId
      offset := range.map (·.start)
      size := range.map fun range => range.end_ - range.start + 1
      requestType := .get } info
  let responses ← call info
    (.getFile { cid, bucketId, range, authenticate := options.authenticates })
  return readStream hasher options requestId params.token cid range responses

/-- A read of a file: `getFile`, and its stream to the end. -/
def readFile (hasher : Hasher) (options : ApiOptions) (params : MetaParams) (bucketId : Nat)
    (cid : Cid) (range : Option ReadFileRange) : ApiProgram Unit := do
  let stream ← getFile hasher options params bucketId cid range
  stream

end FileApi

/-! ## `DagApi` -/

namespace DagApi

/-- `putNode({ token, bucketId, node, cid, correlationId })` -/
def putNode (options : ApiOptions) (params : MetaParams) (bucketId : Nat)
    (node : Option NodeMessage) (cid : Option Bytes) : ApiProgram Cid := do
  let info ← params.create
  let info ←
    match node with
    | some node =>
      signMeta options.keys
        { id := cid, bucketId, size := some node.toBinary.length, requestType := .store } info
    | none => pure info
  call info (.dagPut bucketId node cid)

/-- `getNode({ token, correlationId, ...request })` -/
def getNode (hasher : Hasher) (options : ApiOptions) (params : MetaParams)
    (request : DagGetMessage) : ApiProgram (Option NodeMessage) := do
  -- a node that is asked for by a path has another CID
  let authenticate := options.authenticates && (request.path.filter (· ≠ "")).isNone
  let info ← params.create
  let validator := CidValidator.new hasher request.cid authenticate
  let info ← signMeta options.keys
    { id := some request.cid, bucketId := request.bucketId, requestType := .get } info
  let node ← call info (.dagGet request)
  let validator :=
    match (node : Option NodeMessage), authenticate with
    | some node, true => validator.update node.toBinary
    | _, _ => validator
  Program.ofExcept validator.validate
  return node

end DagApi

/-! ## `CnsApi` -/

namespace CnsApi

/-- `putRecord({ token, bucketId, record, correlationId })` -/
def putRecord (options : ApiOptions) (params : MetaParams) (bucketId : Nat)
    (record : RecordMessage) : ApiProgram RecordMessage := do
  let info ← params.create
  match options.keys with
  | none => .fail (.error "Unnable to store CNS record. Signer required!")
  | some keys => do
    let signature ← Api.createSignature keys record.toBinary params.token
    let size := record.toBinary.length
    -- the options hold no `token`
    let request ← createActivityRequest keys
      { bucketId, size := some size, requestType := .store } none
    let _ ← call { info with request := some request }
      (.cnsPut bucketId { record with signature := some signature })
    return { record with signature := some signature }

/-- The error by which a node says that it has no such record. -/
def isNotFound (e : JsError) : Bool :=
  match e.asRpcError with
  | some e => decide (e.code = GrpcStatus.unknown.name) && decide (e.message = "no result")
  | none => false

/-- `getRecord({ token, name, bucketId, correlationId, cacheControl })` -/
def getRecord (options : ApiOptions) (params : MetaParams) (bucketId : Nat) (name : String)
    (cacheControl : Option String := none) : ApiProgram (Option RecordMessage) := do
  let info ← params.create
  let info := { info with cacheControl := cacheControl.filter (· ≠ "") }
  let info ← signMeta options.keys { bucketId, requestType := .get } info
  match ← rpc info (.cnsGet bucketId name) with
  | .ok record => return (record : Option RecordMessage).filter (·.signature.isSome)
  | .error e => if isNotFound e then return none else .fail e

end CnsApi

/-! ## What a call asks -/

/-- The metadata is for the token and the correlation id of the request. -/
def MetaParams.Carried (params : MetaParams) (info : ApiMeta) : Prop :=
  info.token = params.token ∧
    ∀ id, params.correlationId = some id → id ≠ "" → info.correlationId = id

/-- `P` allows everything that calls with these parameters ask, but for the chunks of a file. -/
structure Permits (P : ApiRequest → Prop) (options : ApiOptions) (params : MetaParams) : Prop
    extends Prepares P options.keys params.token where
  rpc : ∀ info method, params.Carried info → P (.rpc info method)
  ack : ∀ ack, P (.ack ack)
  complete : P .complete

section

variable {P : ApiRequest → Prop} {options : ApiOptions} {params : MetaParams} {info : ApiMeta}
  {hasher : Hasher} {bucketId : Nat}

theorem meets_create (h : P .uuid) : params.create.Meets P params.Carried :=
  meets_createRpcMeta h

theorem meets_sign (h : Permits P options params) (hinfo : params.Carried info)
    {fields : ActivityFields} : (signMeta options.keys fields info).Meets P params.Carried := by
  have hprepares : Prepares P options.keys info.token := hinfo.1 ▸ h.toPrepares
  refine (meets_signMeta hprepares).mono (fun _ h => h) fun signed hsigned => ?_
  exact ⟨hsigned.1.trans hinfo.1, fun id hid hne => hsigned.2.trans (hinfo.2 id hid hne)⟩

theorem all_putRawPiece (h : Permits P options params) {isMultipart : Bool}
    {offset size : Option Nat} {content : Except JsError (List Bytes)} :
    (FileApi.putRawPiece options params bucketId isMultipart offset size content).All P := by
  refine .bind (meets_create h.uuid) fun info hinfo => ?_
  refine .bind (Program.meets_ofExcept fun _ _ => trivial) fun size _ => ?_
  refine .bind (meets_sign h hinfo) fun info hinfo => ?_
  exact all_call (h.rpc info _ hinfo)

theorem all_putMultipartPiece (h : Permits P options params)
    {request : PutMultiPartPieceRequest} :
    (FileApi.putMultipartPiece options params request).All P := by
  refine .bind (meets_create h.uuid) fun info hinfo => ?_
  refine .bind (meets_sign h hinfo) fun info hinfo => ?_
  exact all_call (h.rpc info _ hinfo)

theorem meets_getFile (h : Permits P options params) {cid : Cid} {range : Option ReadFileRange}
    {Q : ApiProgram Unit → Prop} (hstream : ∀ requestId responses,
      Q (FileApi.readStream hasher options requestId params.token cid range responses)) :
    (FileApi.getFile hasher options params bucketId cid range).Meets P Q := by
  refine .bind ⟨h.uuid, fun _ => trivial⟩ fun requestId _ => ?_
  refine .bind (meets_create h.uuid) fun info hinfo => ?_
  refine .bind (meets_sign h hinfo) fun info hinfo => ?_
  exact .bind (all_call (h.rpc info _ hinfo)) fun responses _ => hstream requestId responses

theorem all_sendAck (h : Permits P options params) {requestId : String} {n : Nat} :
    (FileApi.sendAck options requestId params.token n).All P := by
  unfold FileApi.sendAck
  split
  · refine .bind ⟨h.now, fun _ => trivial⟩ fun timestamp _ => ?_
    exact .bind (all_createAck h.toPrepares) fun signedAck _ => ⟨h.ack _, fun _ => trivial⟩
  · trivial

theorem all_toDataStream (h : Permits P options params) (hdeliver : ∀ data, P (.deliver data))
    {requestId : String} {messages : List GetFileResponse} {n : Nat}
    {validator : FileValidator hasher} :
    (FileApi.toDataStream options requestId params.token messages n validator).All P := by
  induction messages generalizing n validator with
  | nil => trivial
  | cons message messages ih =>
    cases message with
    | proof proof => exact ih
    | undefined => exact ih
    | data data =>
      refine .bind ⟨hdeliver data, fun _ => trivial⟩ fun _ _ => ?_
      exact .bind (all_sendAck h) fun _ _ => ih

theorem all_readStream (h : Permits P options params) (hdeliver : ∀ data, P (.deliver data))
    {requestId : String} {cid : Cid} {range : Option ReadFileRange}
    {responses : FileResponses} :
    (FileApi.readStream hasher options requestId params.token cid range responses).All P := by
  refine .bind (all_toDataStream h hdeliver) fun validator _ => ?_
  cases responses.error with
  | some e => trivial
  | none =>
    refine .bind (all_complete h.complete) fun _ _ => ?_
    exact Program.meets_ofExcept fun _ _ => trivial

theorem all_readFile (h : Permits P options params) (hdeliver : ∀ data, P (.deliver data))
    {cid : Cid} {range : Option ReadFileRange} :
    (FileApi.readFile hasher options params bucketId cid range).All P :=
  .bind (meets_getFile h fun _ _ => all_readStream h hdeliver) fun _ hstream => hstream

theorem all_putNode (h : Permits P options params) {node : Option NodeMessage}
    {cid : Option Bytes} : (DagApi.putNode options params bucketId node cid).All P := by
  refine .bind (meets_create h.uuid) fun info hinfo => ?_
  cases node with
  | none => exact all_call (h.rpc info _ hinfo)
  | some node =>
    exact .bind (meets_sign h hinfo) fun info hinfo => all_call (h.rpc info _ hinfo)

theorem all_getNode (h : Permits P options params) {request : DagGetMessage} :
    (DagApi.getNode hasher options params request).All P := by
  refine .bind (meets_create h.uuid) fun info hinfo => ?_
  refine .bind (meets_sign h hinfo) fun info hinfo => ?_
  refine .bind (all_call (h.rpc info _ hinfo)) fun node _ => ?_
  exact .bind (Program.meets_ofExcept fun _ _ => trivial) fun _ _ => trivial

/-- The activity request of a record is signed without a token. -/
theorem all_putRecord (h : Permits P options params) (hnone : Prepares P options.keys none)
    {record : RecordMessage} : (CnsApi.putRecord options params bucketId record).All P := by
  refine .bind (meets_create h.uuid) fun info hinfo => ?_
  have htoken := h.toPrepares
  cases hkeys : options.keys with
  | none => trivial
  | some keys =>
    rw [hkeys] at htoken hnone
    refine .bind (all_createSignature htoken) fun signature _ => ?_
    refine .bind (all_createActivityRequest hnone) fun request _ => ?_
    exact .bind (all_call (h.rpc _ _ hinfo)) fun _ _ => trivial

theorem all_getRecord (h : Permits P options params) {name : String}
    {cacheControl : Option String} :
    (CnsApi.getRecord options params bucketId name cacheControl).All P := by
  refine .bind (meets_create h.uuid) fun info hinfo => ?_
  have hinfo : params.Carried { info with cacheControl := cacheControl.filter (· ≠ "") } := hinfo
  refine .bind (meets_sign h hinfo) fun info hinfo => ?_
  refine .bind ⟨h.rpc info _ hinfo, fun _ => trivial⟩ fun record _ => ?_
  cases record with
  | ok record => trivial
  | error e =>
    dsimp only
    split <;> trivial

end

/-! ## The size checks and the call of `FileApi` -/

/-- A piece that the checks of the client turn away is refused before any call. -/
theorem putRawPiece_of_rawPieceSize_error {fault : Option Fault} {bucketId : Nat}
    {isMultipart : Bool} {offset size : Option Nat} {content : Except JsError (List Bytes)}
    {e : JsError} (h : FileApi.rawPieceSize size = .error e) :
    putRawPiece fault bucketId isMultipart offset size content = .refused e := by
  unfold FileApi.rawPieceSize at h
  unfold putRawPiece
  cases hsize : size.getD 0 with
  | zero =>
    rw [hsize] at h
    cases h
    rfl
  | succ n =>
    simp only [hsize] at h ⊢
    by_cases hmax : maxPieceSize < n + 1
    · rw [if_pos hmax] at h ⊢
      cases h
      rfl
    · rw [if_neg hmax] at h
      cases h

/-- A piece that passes them is sent with the metadata of the program. -/
theorem putRawPiece_of_rawPieceSize_ok {bucketId : Nat} {isMultipart : Bool}
    {offset size : Option Nat} {values : List Bytes} {n : Nat}
    (h : FileApi.rawPieceSize size = .ok n) :
    ∃ reads, putRawPiece none bucketId isMultipart offset size (.ok values) =
      .stored ⟨{ bucketId, isMultipart, offset, size := n }, (sendContent none 0 values).sent, true⟩
        reads := by
  unfold FileApi.rawPieceSize at h
  unfold putRawPiece
  cases hsize : size.getD 0 with
  | zero =>
    rw [hsize] at h
    cases h
  | succ m =>
    simp only [hsize] at h ⊢
    by_cases hmax : maxPieceSize < m + 1
    · rw [if_pos hmax] at h
      cases h
    · rw [if_neg hmax] at h ⊢
      cases h
      exact ⟨_, rfl⟩

end CereDdc
