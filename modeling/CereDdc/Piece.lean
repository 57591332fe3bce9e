import CereDdc.Streams

/-!
# Piece — `Piece.ts`, `Cid.ts`

A `Piece` holds its content and a body stream over it. The body is the content
itself when that is a content stream, and otherwise a stream made in the
constructor. A clone made by `Piece.from` shares the content object, and a
one-shot iterator in it with the streams made before.
-/

namespace CereDdc

/-- The bytes of a CID; its text form is an encoding of them. -/
abbrev Cid := Bytes

/-- `Cid.contentHash`: `toBytes().slice(-32)` -/
def Cid.contentHash (cid : Cid) : Bytes := cid.drop (cid.length - 32)

structure PieceMeta where
  multipartOffset : Option Nat := none
  size : Option Nat := none
  deriving DecidableEq, Repr

/-- The `body` stream of a piece. -/
inductive PieceBody
  /-- the content itself -/
  | content
  | wrapper (stream : WrapperStream)
  deriving DecidableEq, Repr

structure Piece where
  content : Content
  body : PieceBody
  contentLength : Option Nat
  offset : Option Nat
  info : PieceMeta
  deriving DecidableEq, Repr

namespace Piece

/-- The constructor. The `content` field of the result is the content object as the
construction of the body leaves it. -/
def new (content : Content) (info : PieceMeta := {}) : Piece :=
  let (body, content') :=
    if content.isContentStream then (.content, content)
    else
      let (stream, content') := createContentStream content
      (.wrapper stream, content')
  { content := content'
    body
    contentLength := getContentSize content info.size
    offset := info.multipartOffset
    info }

def isPart (piece : Piece) : Bool := piece.offset.isSome

/-- The `size` getter. -/
def size (piece : Piece) : Except JsError Nat :=
  match piece.contentLength with
  | some n => if n = 0 then .error (.error "The piece size can not be determined") else .ok n
  | none => .error (.error "The piece size can not be determined")

/-- `Piece.from`: a new piece over the same content object. Its stream and the ones made before
pull as `order` has it. -/
def fromPiece (order : PullOrder) (piece : Piece) : Except JsError Piece :=
  if piece.content.isContentStream && piece.content.locked then
    .error (.error "The content stream is locked and can not be reused")
  else .ok (new (piece.content.leftBy order) piece.info)

/-- What a reader of the body gets when it reads to the end. -/
def read (piece : Piece) : Except JsError (List Bytes) :=
  match piece.body with
  | .content => if piece.content.locked then .error readLocked else .ok piece.content.chunks
  | .wrapper stream => (stream.source piece.content).map (withChunkSize defaultChunkSize)

end Piece

/-- How far a reader got with a stream. -/
structure Reads where
  /-- chunks read -/
  count : Nat := 0
  /-- the reader was told that the stream is done -/
  sawEnd : Bool := false
  /-- the reader still holds its lock -/
  holdsLock : Bool := false
  deriving DecidableEq, Repr

/-- The content object after the body was read so far. Only a body that shares the state of
the content changes it: the content stream itself, or a stream over a one-shot iterator, which
has pulled what was read. What it pulls from then on, as long as its queue has room, it pulls as
one of the older streams of the next clone. -/
def Piece.contentAfter (piece : Piece) (reads : Reads) : Content :=
  match piece.body, piece.content with
  | .content, .contentStream rest locked =>
    .contentStream (rest.drop reads.count) (locked || reads.holdsLock)
  | .wrapper .shared, .iterator rest =>
    -- the end of the stream is the end of the iterator
    if reads.sawEnd then .iterator []
    else .iterator (rest.drop (chunksFor defaultChunkSize reads.count none rest))
  | _, content => content

structure MultipartPieceMeta where
  partSize : Nat
  totalSize : Nat
  deriving DecidableEq, Repr

structure MultipartPiece where
  partHashes : List Bytes
  info : MultipartPieceMeta
  parts : List Cid
  deriving DecidableEq, Repr

/-- The constructor. -/
def MultipartPiece.new (parts : List Cid) (info : MultipartPieceMeta) : MultipartPiece :=
  { partHashes := parts.map Cid.contentHash, info, parts }

/-! ## Pieces over each kind of content -/

section Kinds

variable (info : PieceMeta)

/-- Content that every wrapper reads from the start, whatever earlier wrappers did. -/
def Content.Restartable : Content → Prop
  | .uint8Array _ => True
  | .iterable _ => True
  | _ => False

theorem Piece.new_restartable {content : Content} (h : content.Restartable) :
    (Piece.new content info).content = content
      ∧ (Piece.new content info).read = .ok (withChunkSize defaultChunkSize content.chunks) := by
  cases content with
  | uint8Array data => exact ⟨rfl, rfl⟩
  | iterable chunks => exact ⟨rfl, rfl⟩
  | iterator => exact h.elim
  | inputStream => exact h.elim
  | contentStream => exact h.elim

end Kinds

end CereDdc
