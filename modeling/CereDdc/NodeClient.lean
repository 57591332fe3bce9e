import CereDdc.ApiCalls
import CereDdc.CidText
import CereDdc.StorageNode

/-!
# NodeClient — `nodes/StorageNode.ts`, the operations as programs

Every operation of a storage node, down to the calls of the three clients. The
signed token of an operation is one answer of the environment.
-/

namespace CereDdc

open Kit Api

/-! ## Data -/

/-- `CnsRecord`, with the text of its CID. -/
structure CnsEntry where
  cid : String
  name : String
  deriving DecidableEq, Repr

/-- `CnsRecordResponse` -/
structure CnsRecordResponse extends CnsEntry where
  signature : Option Signature
  deriving DecidableEq, Repr

/-- `Link`; its CID is a text. -/
structure Link where
  cid : String
  size : Nat
  name : String := ""
  deriving DecidableEq, Repr

/-- `DagNode` -/
structure DagNode where
  data : Bytes := []
  links : List Link := []
  tags : List Tag := []
  deriving DecidableEq, Repr

/-- `DagNodeResponse` -/
structure DagNodeResponse extends DagNode where
  cid : String
  deriving DecidableEq, Repr

/-- `mapCnsRecordToAPI` -/
def mapCnsRecordToAPI (base32 : Base32) (record : CnsEntry) : Except JsError RecordMessage := do
  let cid ← base32.decode record.cid
  return { cid, name := record.name }

def mapLinkToAPI (base32 : Base32) (link : Link) : Except JsError LinkMessage := do
  let cid ← base32.decode link.cid
  return { cid, name := link.name, size := link.size }

/-- `mapDagNodeToAPI` -/
def mapDagNodeToAPI (base32 : Base32) (node : DagNode) : Except JsError NodeMessage := do
  let links ← node.links.mapM (mapLinkToAPI base32)
  return { data := node.data, links, tags := node.tags }

/-- `new DagNodeResponse(cid, node.data, node.links, node.tags)` -/
def DagNodeResponse.new (base32 : Base32) (cid : String) (node : NodeMessage) : DagNodeResponse :=
  { cid, data := node.data, tags := node.tags
    links := node.links.map fun link =>
      { cid := base32.encode link.cid, size := link.size, name := link.name } }

/-- The options of an operation. -/
structure OperationOptions where
  accessToken : Option TokenInput := none
  correlationId : Option String := none

structure StoreOptions extends OperationOptions where
  name : Option String := none

structure PieceReadOptions extends OperationOptions where
  range : Option ReadFileRange := none
  cacheControl : Option String := none

structure DagNodeGetOptions extends OperationOptions where
  path : Option String := none
  cacheControl : Option String := none

structure CnsRecordGetOptions extends OperationOptions where
  cacheControl : Option String := none

/-- A `StorageNode`: its signer, with the SDK signers there are, and the packages it uses. -/
structure NodeClient where
  keys : Keys
  enableAcks : Option Bool := none
  authenticate : Option Bool := none
  base32 : Base32
  hasher : Hasher

namespace NodeClient

/-- The options of the three clients. -/
def options (node : NodeClient) : ApiOptions :=
  { keys := some node.keys, enableAcks := node.enableAcks, authenticate := node.authenticate }

/-- `options?.correlationId || createCorrelationId()` -/
def correlationId (options : OperationOptions) : ApiProgram String :=
  match options.correlationId.filter (· ≠ "") with
  | some correlationId => return correlationId
  | none => uuid

/-- `const { correlationId = createCorrelationId() } = options`, which keeps an empty id. -/
def defaultCorrelationId (options : OperationOptions) : ApiProgram String :=
  match options.correlationId with
  | some correlationId => return correlationId
  | none => uuid

/-- The token and the correlation id that most operations start with. -/
def metaParams (options : OperationOptions) : ApiProgram MetaParams := do
  let token ← Api.createAuthToken options.accessToken
  let correlationId ← correlationId options
  return { token := some token, correlationId := some correlationId }

variable (node : NodeClient)

/-! ## CNS records -/

/-- `storeCnsRecord(bucketId, record, options)` -/
def storeCnsRecord (bucketId : Nat) (record : CnsEntry) (options : OperationOptions := {}) :
    ApiProgram RecordMessage := do
  let params ← metaParams options
  let record ← Program.ofExcept (mapCnsRecordToAPI node.base32 record)
  CnsApi.putRecord node.options params bucketId record

/-- `getCnsRecord(bucketId, name, options)` -/
def getCnsRecord (bucketId : Nat) (name : String) (options : CnsRecordGetOptions := {}) :
    ApiProgram (Option CnsRecordResponse) := do
  let token ← Api.createAuthToken options.accessToken
  let correlationId ← defaultCorrelationId options.toOperationOptions
  let record ← CnsApi.getRecord node.options
    { token := some token, correlationId := some correlationId } bucketId name
    options.cacheControl
  return record.map fun record =>
    { cid := node.base32.encode record.cid, name := record.name, signature := record.signature }

/-- `resolveName(bucketId, cidOrName, options)`; the result is the text of a CID. -/
def resolveName (bucketId : Nat) (cidOrName : String) (options : CnsRecordGetOptions := {}) :
    ApiProgram String :=
  if node.base32.isCid cidOrName then return cidOrName
  else do
    match ← node.getCnsRecord bucketId cidOrName options with
    | none => .fail (.error s!"Cannot resolve CNS name: \"{cidOrName}\"")
    | some record => return record.cid

/-! ## Pieces and DAG nodes -/

/-- The record of something that was stored under a name. -/
def storeName (bucketId : Nat) (cid : String) (options : StoreOptions) : ApiProgram Unit :=
  match options.name.filter (· ≠ "") with
  | some name => do
    let _ ← node.storeCnsRecord bucketId { cid, name } options.toOperationOptions
  | none => return ()

/-- The upload of a piece, by its kind. -/
def putPiece (params : MetaParams) (bucketId : Nat) : StorablePiece → ApiProgram Cid
  | .multipart piece =>
    FileApi.putMultipartPiece node.options params (piece.storeRequest bucketId)
  | .piece piece => do
    let size ← Program.ofExcept piece.size
    FileApi.putRawPiece node.options params bucketId piece.isPart piece.offset (some size)
      piece.read

/-- `storePiece(bucketId, piece, options)` -/
def storePiece (bucketId : Nat) (piece : StorablePiece) (options : StoreOptions := {}) :
    ApiProgram String := do
  let params ← metaParams options.toOperationOptions
  let cidBytes ← node.putPiece params bucketId piece
  let cid := node.base32.encode cidBytes
  node.storeName bucketId cid options
  return cid

/-- `storeDagNode(bucketId, node, options)` -/
def storeDagNode (bucketId : Nat) (dagNode : DagNode) (options : StoreOptions := {}) :
    ApiProgram String := do
  let params ← metaParams options.toOperationOptions
  let message ← Program.ofExcept (mapDagNodeToAPI node.base32 dagNode)
  let cidBytes ← DagApi.putNode node.options params bucketId (some message) none
  let cid := node.base32.encode cidBytes
  node.storeName bucketId cid options
  return cid

/-- `readPiece(bucketId, cidOrName, options)`; the result is the CID and the content stream. -/
def readPiece (bucketId : Nat) (cidOrName : String) (options : PieceReadOptions := {}) :
    ApiProgram (String × ApiProgram Unit) := do
  let params ← metaParams options.toOperationOptions
  let cid ← node.resolveName bucketId cidOrName
    { options.toOperationOptions with cacheControl := options.cacheControl }
  let bytes ← Program.ofExcept (node.base32.decode cid)
  let contentStream ←
    FileApi.getFile node.hasher node.options params bucketId bytes options.range
  return (cid, contentStream)

/-- `getDagNode(bucketId, cidOrName, options)` -/
def getDagNode (bucketId : Nat) (cidOrName : String) (options : DagNodeGetOptions := {}) :
    ApiProgram (Option DagNodeResponse) := do
  let params ← metaParams options.toOperationOptions
  let cid ← node.resolveName bucketId cidOrName
    { options.toOperationOptions with cacheControl := options.cacheControl }
  let bytes ← Program.ofExcept (node.base32.decode cid)
  let message ← DagApi.getNode node.hasher node.options params
    { bucketId, cid := bytes, path := options.path }
  return (message : Option NodeMessage).map (DagNodeResponse.new node.base32 cid)

/-! ## URIs -/

/-- What a read of a URI comes back with. -/
inductive ReadResponse
  | file (cid : String) (body : ApiProgram Unit)
  | dagNode (response : Option DagNodeResponse)

/-- `DdcClient.read(uri, options)` on this node; the options depend on the entity. -/
def read (uri : DdcUri) (fileOptions : PieceReadOptions) (nodeOptions : DagNodeGetOptions) :
    ApiProgram ReadResponse := do
  let cidOrName ← Program.ofExcept uri.cidOrName
  match uri.entity with
  | .file => do
    let (cid, body) ← node.readPiece uri.bucketId cidOrName fileOptions
    return .file cid body
  | .dagNode => do
    let response ← node.getDagNode uri.bucketId cidOrName nodeOptions
    return .dagNode response

end NodeClient

end CereDdc
