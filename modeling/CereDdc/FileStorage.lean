import CereDdc.StorePiece

/-!
# FileStorage — `file-storage/FileStorage.ts`

`store`: a file that fits the buffer goes into one piece, a larger one is cut
into parts and a multipart piece over them.
-/

namespace CereDdc

open Kit

/-- `DEFAULT_BUFFER_SIZE` of `constants.ts`; the bounds `MIN_BUFFER_SIZE` and `MAX_BUFFER_SIZE`
are those of a piece. -/
def defaultBufferSize : Nat := maxPieceSize

/-- `DEFAULT_BUFFER_SIZE` of `constants.web.ts`. -/
def defaultBufferSizeWeb : Nat := 16 * mb

/-- A file: what a reader of its body gets, and its size. -/
structure File where
  body : StreamBody
  size : Nat
  deriving DecidableEq

/-- The constructor; the size of a `Uint8Array` is its own. -/
def File.new (content : Content) (size : Nat) : File :=
  { body :=
      match (Piece.new content).read with
      | .ok chunks => { chunks }
      | .error e => { chunks := [], error := some e }
    size := (getContentSize content (some size)).getD size }

structure FileStoreOptions extends PieceStoreOptions where
  maxBufferSize : Option Nat := none
  deriving DecidableEq, Repr

/-- `options?.maxBufferSize || DEFAULT_BUFFER_SIZE` -/
def FileStoreOptions.partSize (web : Bool) (options : FileStoreOptions) : Nat :=
  let default := if web then defaultBufferSizeWeb else defaultBufferSize
  match options.maxBufferSize with
  | some n => if n = 0 then default else n
  | none => default

/-- The balanced node of a file storage, and what its environment does in the `i`-th call of
`storePiece`. -/
structure FileStorage where
  /-- the build for browsers -/
  web : Bool
  retries : RetriesConfig
  package : AsyncRetry
  bucketId : Nat
  freshId : Nat → String
  turns : Nat → List Turn
  /-- how many parts after the first one are read out of a stream before it fails -/
  readBeforeFailure : Nat := 0

/-- A `storePiece` call of the file storage: the piece it was given, and how it went. -/
structure PieceStore where
  piece : StorablePiece
  run : StoreRun

/-- The result of `store`, with its `storePiece` calls in order. -/
structure FileRun where
  outcome : Outcome JsError Cid
  stores : List PieceStore

namespace FileStorage

variable (storage : FileStorage)

/-- The `i`-th call of `storePiece`. -/
def storePiece (i : Nat) (piece : StorablePiece) (options : PieceStoreOptions) : PieceStore :=
  { piece
    run := BalancedNode.storePiece storage.retries storage.package
      (storage.freshId i) (storage.turns i) storage.bucketId piece options }

/-- `new Piece(data, { multipartOffset: offset })` -/
def dataPiece (data : Bytes) (offset : Option Nat) : StorablePiece :=
  .piece (Piece.new (.uint8Array data) { multipartOffset := offset })

/-- `for await (const part of partsStream)`: the CIDs of the parts, and the calls. -/
def storeParts : (i offset : Nat) → List Bytes → Outcome JsError (List Cid) × List PieceStore
  | _, _, [] => (.resolved [], [])
  | i, offset, part :: parts =>
    -- of the options only the access token goes with the parts
    let store := storage.storePiece i (dataPiece part (some offset)) {}
    match store.run.outcome with
    | .pending => (.pending, [store])
    | .rejected e => (.rejected e, [store])
    | .resolved cid =>
      let (outcome, stores) := storeParts (i + 1) (offset + part.length) parts
      match outcome with
      | .pending => (.pending, store :: stores)
      | .rejected e => (.rejected e, store :: stores)
      | .resolved cids => (.resolved (cid :: cids), store :: stores)

/-- `storeLarge(bucketId, file, { partSize, ...options })` -/
def storeLarge (partSize : ChunkSize) (file : File) (options : PieceStoreOptions) : FileRun :=
  -- the first part goes to the read that waits for it
  let partsStream := file.body.withChunkSize (1 + storage.readBeforeFailure) partSize
  let (outcome, stores) := storage.storeParts 0 0 partsStream.chunks
  match outcome, partsStream.error with
  | .pending, _ => ⟨.pending, stores⟩
  | .rejected e, _ => ⟨.rejected e, stores⟩
  -- the parts in front of a failure are stored by the time the loop meets it
  | .resolved _, some e => ⟨.rejected e, stores⟩
  | .resolved parts, none =>
    let piece := MultipartPiece.new parts { partSize, totalSize := file.size }
    let store := storage.storePiece stores.length (.multipart piece) options
    ⟨store.run.outcome, stores ++ [store]⟩

/-- `storeSmall(bucketId, file, options)` -/
def storeSmall (file : File) (options : PieceStoreOptions) : FileRun :=
  match file.body.error with
  | some e => ⟨.rejected e, []⟩
  | none =>
    let store := storage.storePiece 0 (dataPiece file.body.chunks.flatten none) options
    ⟨store.run.outcome, [store]⟩

def bufferSizeError : JsError :=
  .error s!"Max buffer size must be between {minPieceSize} and {maxPieceSize} bytes"

/-- `store(bucketId, file, options)` -/
def store (file : File) (options : FileStoreOptions := {}) : FileRun :=
  let partSize := options.partSize storage.web
  if h : maxPieceSize < partSize ∨ partSize < minPieceSize then ⟨.rejected bufferSizeError, []⟩
  else
    have hpos : 0 < partSize := by
      have := minPieceSize_pos
      omega
    if partSize < file.size then
      storage.storeLarge ⟨partSize, hpos⟩ file options.toPieceStoreOptions
    else storage.storeSmall file options.toPieceStoreOptions

end FileStorage

/-! ## What is stored -/

/-- The raw pieces that are stored: those whose `storePiece` call resolved, with the request
the node answered and the CID. -/
def storedPieces (stores : List PieceStore) : List (RawPieceCall × Cid) :=
  stores.filterMap fun store =>
    match store.run.outcome, lastAnswer store.run.calls with
    | .resolved _, some (.putRawPiece call, cid) => some (call, cid)
    | _, _ => none

/-- The multipart requests on the wire. -/
def multipartRequests (stores : List PieceStore) : List PutMultiPartPieceRequest :=
  stores.flatMap fun store => store.run.calls.filterMap fun c =>
    match c.request with
    | .putMultipartPiece request => some request
    | _ => none

end CereDdc
