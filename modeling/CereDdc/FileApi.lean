import CereDdc.Piece
import Mathlib.Algebra.Group.Nat.Defs
import Mathlib.Data.Nat.Log

/-!
# FileApi — `FileApi/FileApi.ts`

`putRawPiece` and `putMultipartPiece`, seen from both ends: what the node gets
on the call, and how far the client got with the content stream when the call
ends. A call breaks at most once; `Fault` says where and with which error.
-/

namespace CereDdc

/-- `Math.pow(2, Math.ceil(Math.log2(n)))`, over the integers. -/
def ceilToPowerOf2 (n : Nat) : Nat := if n = 0 then 0 else 2 ^ Nat.clog 2 n

/-- The place at which an upload attempt breaks. -/
inductive Stage
  /-- the access token cannot be created -/
  | auth
  /-- the activity request cannot be signed -/
  | activity
  /-- the response headers never come -/
  | headers
  /-- the call is over when the loop has sent this many content messages and sends the next: the
  loop is left there, with the lock of the reader held. A node that ends the call later, when the
  client has sent or buffered all of the content, breaks it at `complete` or at `response` -/
  | content (sent : Nat)
  /-- the request stream cannot be completed -/
  | complete
  /-- the completed call gets no response -/
  | response
  /-- the CNS record of the stored piece cannot be stored -/
  | cnsRecord
  deriving DecidableEq, Repr

structure Fault where
  stage : Stage
  error : JsError
  deriving DecidableEq, Repr

/-- Is `stage` where the attempt breaks? -/
def brokenAt (fault : Option Fault) (stage : Stage) : Option JsError :=
  match fault with
  | some f => if f.stage = stage then some f.error else none
  | none => none

/-- The metadata message of `PutRawPieceRequest`. -/
structure PutRawPieceMetadata where
  bucketId : Nat
  isMultipart : Bool
  offset : Option Nat
  size : Nat
  deriving DecidableEq, Repr

/-- One `putRawPiece` call as the node sees it: the metadata message, the content messages,
and whether the client completed the request. -/
structure RawPieceCall where
  metadata : PutRawPieceMetadata
  content : List Bytes
  completed : Bool
  deriving DecidableEq, Repr

structure PutMultiPartPieceRequest where
  bucketId : Nat
  totalSize : Nat
  partSize : Nat
  partHashes : List Bytes
  deriving DecidableEq, Repr

/-! ## `putRawPiece` -/

/-- How the loop over the content stream ends. -/
structure SendLoop where
  sent : List Bytes
  reads : Reads
  /-- the loop was left by an error -/
  broken : Bool
  deriving DecidableEq, Repr

/-- The loop `while (bytesSent < MAX_PIECE_SIZE)`: read, leave when the stream is done, send.
`limit` is the number of content messages after which a send fails; the read of the message
that cannot be sent has taken place. -/
def sendContent : (limit : Option Nat) → (bytesSent : Nat) → List Bytes → SendLoop
  | _, bytesSent, [] =>
    { sent := [], reads := { sawEnd := decide (bytesSent < maxPieceSize) }, broken := false }
  | limit, bytesSent, value :: values =>
    if bytesSent < maxPieceSize then
      -- the read has taken place and the send fails, so `releaseLock` is not reached
      if limit = some 0 then
        { sent := [], reads := { count := 1, holdsLock := true }, broken := true }
      else
        let loop := sendContent (limit.map (· - 1)) (bytesSent + value.length) values
        { loop with
          sent := value :: loop.sent
          reads := { loop.reads with count := loop.reads.count + 1 } }
    else { sent := [], reads := {}, broken := false }

/-- What `putRawPiece` comes to: whether a call was opened, the call as the node sees it,
and how far the content stream was read. -/
inductive PutRawPiece
  /-- an error before any call was opened -/
  | refused (error : JsError)
  | failed (call : RawPieceCall) (reads : Reads) (error : JsError)
  | stored (call : RawPieceCall) (reads : Reads)
  deriving DecidableEq, Repr

/-- The number of content messages after which a send fails. -/
def contentLimit : Option Fault → Option Nat
  | some ⟨.content n, _⟩ => some n
  | _ => none

/-- The errors after the headers have come. A call that would break at a later content message
than there are is noticed when the request is completed. -/
def afterHeaders (fault : Option Fault) : Option JsError :=
  match fault with
  | some ⟨.content _, e⟩ => some e
  | some ⟨.complete, e⟩ => some e
  | some ⟨.response, e⟩ => some e
  | _ => none

/-- `putRawPiece(metadata, content)`; `stream` is what a reader of the content gets, or the
error of the first access to it. -/
def putRawPiece (fault : Option Fault) (bucketId : Nat) (isMultipart : Bool)
    (offset size : Option Nat) (stream : Except JsError (List Bytes)) : PutRawPiece :=
  match size.getD 0 with
  | 0 => .refused (.error "Cannot determine the raw piece size")
  | n + 1 =>
    if maxPieceSize < n + 1 then
      .refused (.error "Raw piece size should not be greather then 128 MB")
    else
      match brokenAt fault .activity with
      | some e => .refused e
      | none =>
        let metadata : PutRawPieceMetadata := { bucketId, isMultipart, offset, size := n + 1 }
        -- the metadata is sent at once, the reader is made only after the headers
        match brokenAt fault .headers, stream with
        | some e, _ => .failed ⟨metadata, [], false⟩ {} e
        | none, .error e => .failed ⟨metadata, [], false⟩ {} e
        | none, .ok values =>
          let loop := sendContent (contentLimit fault) 0 values
          let completed := !loop.broken && (brokenAt fault .complete).isNone
          match afterHeaders fault with
          | some e => .failed ⟨metadata, loop.sent, completed⟩ loop.reads e
          | none => .stored ⟨metadata, loop.sent, true⟩ loop.reads

/-! ## `putMultipartPiece` -/

/-- The request `putMultipartPiece` puts on the wire. -/
def multipartRequest (request : PutMultiPartPieceRequest) : PutMultiPartPieceRequest :=
  { request with partSize := ceilToPowerOf2 request.partSize }

/-- What `putMultipartPiece` comes to. -/
inductive PutMultipartPiece
  /-- an error before the request was sent -/
  | refused (error : JsError)
  | failed (request : PutMultiPartPieceRequest) (error : JsError)
  | stored (request : PutMultiPartPieceRequest)
  deriving DecidableEq, Repr

/-- `putMultipartPiece(request)`: a unary call, which breaks before the request is sent or
at the response. -/
def putMultipartPiece (fault : Option Fault) (request : PutMultiPartPieceRequest) :
    PutMultipartPiece :=
  match fault with
  | some ⟨.activity, e⟩ => .refused e
  | some ⟨.cnsRecord, _⟩ => .stored (multipartRequest request)
  | some ⟨_, e⟩ => .failed (multipartRequest request) e
  | none => .stored (multipartRequest request)

/-! ## What the loop sends -/

section Loop

variable {limit : Option Nat} {bytesSent : Nat} {values : List Bytes}

/-- Content that fits a piece is sent whole: the bound of the loop only cuts off what has
no bytes left. -/
theorem sendContent_flatten (h : bytesSent + values.flatten.length ≤ maxPieceSize) :
    (sendContent none bytesSent values).sent.flatten = values.flatten := by
  induction values generalizing bytesSent with
  | nil => rfl
  | cons value values ih =>
    simp only [List.flatten_cons, List.length_append] at h
    unfold sendContent
    by_cases hlt : bytesSent < maxPieceSize
    · simpa [hlt] using ih (by omega)
    -- the bound is reached, and the content is no longer than that
    · have hnil : (value ++ values.flatten) = [] := by
        apply List.eq_nil_of_length_eq_zero
        rw [List.length_append]
        omega
      simp only [if_neg hlt, List.flatten_nil, List.flatten_cons, hnil]

end Loop

end CereDdc
