import CereDdc.FileApi

/-!
# StorageNode — `nodes/StorageNode.ts`, storing a piece

`storePiece` of one storage node: the token, the upload, and the CNS record that
follows when the caller gave the piece a name. What the environment does in one
attempt is a `Turn`.
-/

namespace CereDdc

abbrev NodeId := String

/-- What the environment does in one attempt to store a piece. -/
structure Turn where
  /-- the router: the node it picks for a list of nodes to exclude -/
  getNode : List NodeId → Except JsError NodeId
  fault : Option Fault
  /-- the pulls on a one-shot iterator in the content, from the clone of this attempt on -/
  pulls : PullOrder := []
  /-- the tokens `createAuthToken` comes up with, as they go on the wire -/
  token : Nat → String
  /-- the identifiers `createCorrelationId` makes -/
  freshId : Nat → String
  /-- the CID the node answers an upload with -/
  cidOf : RawPieceCall ⊕ PutMultiPartPieceRequest → Cid

/-- The metadata of an RPC. -/
structure RpcMeta where
  token : String
  correlationId : String
  deriving DecidableEq, Repr

structure CnsRecord where
  cid : Cid
  name : String
  deriving DecidableEq, Repr

inductive RpcRequest
  | putRawPiece (call : RawPieceCall)
  | putMultipartPiece (request : PutMultiPartPieceRequest)
  | putRecord (bucketId : Nat) (record : CnsRecord)
  deriving DecidableEq, Repr

/-- A call a node received, and the CID it answered with. -/
structure RpcCall where
  nodeId : NodeId
  info : RpcMeta
  request : RpcRequest
  answer : Option Cid
  deriving DecidableEq, Repr

structure PieceStoreOptions where
  correlationId : Option String := none
  name : Option String := none
  deriving DecidableEq, Repr

/-- The argument `Piece | MultipartPiece` of `storePiece`. -/
inductive StorablePiece
  | piece (piece : Piece)
  | multipart (piece : MultipartPiece)
  deriving DecidableEq, Repr

/-- `value || fallback` on strings. -/
def orString (value : Option String) (fallback : String) : String :=
  match value with
  | some s => if s = "" then fallback else s
  | none => fallback

/-- The record name of the options; the empty string counts as none. -/
def PieceStoreOptions.recordName (options : PieceStoreOptions) : Option String :=
  options.name.filter (· ≠ "")

/-- The request `storePiece` makes of a multipart piece. -/
def MultipartPiece.storeRequest (bucketId : Nat) (piece : MultipartPiece) :
    PutMultiPartPieceRequest :=
  { bucketId, totalSize := piece.info.totalSize, partSize := piece.info.partSize,
    partHashes := piece.partHashes }

/-- How an attempt on one node ends, with the calls the node received and how far the body of
a raw piece was read. -/
structure StoreAttempt where
  result : Except JsError Cid
  calls : List RpcCall
  reads : Reads := {}
  deriving DecidableEq, Repr

namespace StorageNode

/-- `storeCnsRecord`, when the options name the piece. -/
def storeCnsRecord (nodeId : NodeId) (turn : Turn) (bucketId : Nat) (cid : Cid)
    (options : PieceStoreOptions) : Option JsError × List RpcCall :=
  match options.recordName with
  | none => (none, [])
  | some name =>
    -- the record goes with a token of its own
    let info : RpcMeta := ⟨turn.token 1, orString options.correlationId (turn.freshId 1)⟩
    (brokenAt turn.fault .cnsRecord, [⟨nodeId, info, .putRecord bucketId ⟨cid, name⟩, none⟩])

/-- The end of `storePiece` once the node has answered `call` with a CID. -/
def answered (nodeId : NodeId) (turn : Turn) (bucketId : Nat) (options : PieceStoreOptions)
    (info : RpcMeta) (request : RpcRequest) (cid : Cid) (reads : Reads) : StoreAttempt :=
  let (error, calls) := storeCnsRecord nodeId turn bucketId cid options
  { result := error.elim (.ok cid) .error
    calls := ⟨nodeId, info, request, some cid⟩ :: calls
    reads }

/-- `storePiece` -/
def storePiece (nodeId : NodeId) (turn : Turn) (bucketId : Nat) (piece : StorablePiece)
    (options : PieceStoreOptions) : StoreAttempt :=
  match brokenAt turn.fault .auth with
  | some e => { result := .error e, calls := [] }
  | none =>
    let info : RpcMeta := ⟨turn.token 0, orString options.correlationId (turn.freshId 0)⟩
    match piece with
    | .multipart p =>
      match putMultipartPiece turn.fault (p.storeRequest bucketId) with
      | .refused e => { result := .error e, calls := [] }
      | .failed sent e =>
        { result := .error e, calls := [⟨nodeId, info, .putMultipartPiece sent, none⟩] }
      | .stored sent =>
        answered nodeId turn bucketId options info (.putMultipartPiece sent)
          (turn.cidOf (.inr sent)) {}
    | .piece p =>
      -- the `size` getter throws before `putRawPiece` is entered
      match p.size with
      | .error e => { result := .error e, calls := [] }
      | .ok size =>
        match putRawPiece turn.fault bucketId p.isPart p.offset (some size) p.read with
        | .refused e => { result := .error e, calls := [] }
        | .failed call reads e =>
          { result := .error e, calls := [⟨nodeId, info, .putRawPiece call, none⟩], reads }
        | .stored call reads =>
          answered nodeId turn bucketId options info (.putRawPiece call)
            (turn.cidOf (.inl call)) reads

end StorageNode

end CereDdc
