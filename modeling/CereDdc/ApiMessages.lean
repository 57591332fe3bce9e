import CereDdc.AuthToken
import CereDdc.FileApi

/-!
# ApiMessages — `activity_report.proto`, `file_api.proto`, `dag_api.proto`, `cns_api.proto`

The messages of the three APIs, as far as the client fills them in or looks at
them, with the binary form of those that are signed, hashed or measured.
-/

namespace CereDdc

/-! ## Fields without presence -/

/-- A number, left out when it is 0. -/
def varintValue (field value : Nat) : Bytes := if value = 0 then [] else varintField field value

/-- A byte string, left out when it is empty. -/
def bytesValue (field : Nat) (value : Bytes) : Bytes :=
  if value = [] then [] else bytesField field value

def utf8 (text : String) : Bytes := text.toUTF8.data.toList

/-- A text, left out when it is empty. -/
def stringValue (field : Nat) (value : String) : Bytes := bytesValue field (utf8 value)

/-! ## Activity -/

inductive ActivityRequestType
  | store | get
  deriving DecidableEq, Repr

def ActivityRequestType.number : ActivityRequestType → Nat
  | store => 0
  | get => 1

/-- `ActivityRequest`. The content type is always `PIECE`, whose number is 0, and there is never
a parent request. -/
structure ActivityRequest where
  requestId : String
  requestType : ActivityRequestType := .store
  bucketId : Nat := 0
  id : Bytes := []
  offset : Nat := 0
  size : Nat := 0
  timestamp : Nat
  signature : Option Signature := none
  deriving DecidableEq, Repr

def ActivityRequest.toBinary (request : ActivityRequest) : Bytes :=
  stringValue 2 request.requestId ++
  varintValue 3 request.requestType.number ++
  varintValue 5 request.bucketId ++
  bytesValue 6 request.id ++
  varintValue 7 request.offset ++
  varintValue 8 request.size ++
  varintValue 9 request.timestamp ++
  optionalField (bytesField 10 ∘ Signature.toBinary) request.signature

structure ActivityAcknowledgment where
  requestId : String
  bytesStoredOrDelivered : Nat
  timestamp : Nat
  signature : Option Signature := none
  deriving DecidableEq, Repr

def ActivityAcknowledgment.toBinary (ack : ActivityAcknowledgment) : Bytes :=
  stringValue 1 ack.requestId ++
  varintValue 2 ack.bytesStoredOrDelivered ++
  varintValue 3 ack.timestamp ++
  optionalField (bytesField 4 ∘ Signature.toBinary) ack.signature

/-! ## Files -/

/-- `GetFileRequest_Request_Range`; both ends belong to the range. -/
structure ReadFileRange where
  start : Nat
  end_ : Nat
  deriving DecidableEq, Repr

/-- `GetFileRequest_Request` -/
structure GetFileMessage where
  cid : Bytes
  bucketId : Nat
  range : Option ReadFileRange
  authenticate : Bool
  deriving DecidableEq, Repr

/-- `GetFileResponse`, by the `oneofKind` of its body. -/
inductive GetFileResponse
  | proof (proof : List Bytes)
  | data (data : Bytes)
  | undefined
  deriving DecidableEq, Repr

/-- `PutMultiPartPieceRequest.toBinary`; the client sets no CID. -/
def PutMultiPartPieceRequest.toBinary (request : PutMultiPartPieceRequest) : Bytes :=
  varintValue 1 request.bucketId ++
  varintValue 3 request.totalSize ++
  varintValue 4 request.partSize ++
  request.partHashes.flatMap (bytesField 5)

/-! ## DAG nodes -/

/-- `Link` of the protocol. -/
structure LinkMessage where
  cid : Bytes
  name : String
  size : Nat
  deriving DecidableEq, Repr

/-- `Tag` -/
structure Tag where
  key : String
  value : String
  deriving DecidableEq, Repr

/-- `Node` of the protocol. -/
structure NodeMessage where
  data : Bytes
  links : List LinkMessage
  tags : List Tag
  deriving DecidableEq, Repr

def LinkMessage.toBinary (link : LinkMessage) : Bytes :=
  bytesValue 1 link.cid ++ stringValue 2 link.name ++ varintValue 3 link.size

def Tag.toBinary (tag : Tag) : Bytes := stringValue 1 tag.key ++ stringValue 2 tag.value

def NodeMessage.toBinary (node : NodeMessage) : Bytes :=
  bytesValue 1 node.data ++
  node.links.flatMap (bytesField 2 ∘ LinkMessage.toBinary) ++
  node.tags.flatMap (bytesField 3 ∘ Tag.toBinary)

/-- `GetRequest` of the DAG API. -/
structure DagGetMessage where
  bucketId : Nat
  cid : Bytes
  path : Option String
  deriving DecidableEq, Repr

/-! ## CNS records -/

/-- `Record` of the protocol. -/
structure RecordMessage where
  signature : Option Signature := none
  cid : Bytes
  name : String
  ttl : Option Nat := none
  deriving DecidableEq, Repr

def RecordMessage.toBinary (record : RecordMessage) : Bytes :=
  optionalField (bytesField 1 ∘ Signature.toBinary) record.signature ++
  bytesValue 2 record.cid ++
  stringValue 3 record.name ++
  optionalField (varintField 4) record.ttl

/-! ## Calls -/

/-- The metadata of a call. The token and the activity request stand for the texts that encode
them. -/
structure ApiMeta where
  token : Option AuthToken
  correlationId : String
  request : Option ActivityRequest := none
  cacheControl : Option String := none
  deriving DecidableEq, Repr

/-- The calls of the three clients. -/
inductive RpcMethod
  | putRawPiece (metadata : PutRawPieceMetadata) (content : Except JsError (List Bytes))
  | putMultipartPiece (request : PutMultiPartPieceRequest)
  | getFile (request : GetFileMessage)
  | dagPut (bucketId : Nat) (node : Option NodeMessage) (cid : Option Bytes)
  | dagGet (request : DagGetMessage)
  | cnsPut (bucketId : Nat) (record : RecordMessage)
  | cnsGet (bucketId : Nat) (name : String)
  deriving DecidableEq

/-- The messages of a response stream, and the error it breaks with, if it does. -/
structure FileResponses where
  messages : List GetFileResponse
  error : Option JsError := none
  deriving DecidableEq, Inhabited

/-- What a call comes back with when it succeeds. For `getFile` that is once the headers are
there, and the messages are those that come in later. -/
def RpcMethod.Response : RpcMethod → Type
  | putRawPiece _ _ => Cid
  | putMultipartPiece _ => Cid
  | getFile _ => FileResponses
  | dagPut _ _ _ => Cid
  | dagGet _ => Option NodeMessage
  | cnsPut _ _ => Unit
  | cnsGet _ _ => Option RecordMessage

end CereDdc
