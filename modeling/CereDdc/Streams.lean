import CereDdc.Constants
import CereDdc.Kit.Blocks

/-!
# Streams — `streams/createStream.ts`

The re-chunking transform `withChunkSize` and the streams `createContentStream`
makes. A stream is modelled by what a reader gets from it. A `ReadableStream`
with the default queuing strategy pulls from its source as soon as it is
constructed and whenever its queue has room, so streams over one iterator take
chunks from each other; `PullOrder` says which of them pulls when.
-/

namespace CereDdc

open Kit

abbrev Bytes := List UInt8

/-! ## `withChunkSize` -/

/-- A chunk size the transform terminates for. -/
abbrev ChunkSize := { n : Nat // 0 < n }

/-- The default chunk size of a content stream. -/
def defaultChunkSize : ChunkSize := ⟨contentChunkSize, contentChunkSize_pos⟩

/-- `while (buffer.byteLength >= chunkSize)`: what is enqueued and what stays in the
buffer. Each iteration takes a byte at least, so the length of the buffer bounds
their number. -/
def drainFuel (chunkSize : Nat) : Nat → Bytes → List Bytes × Bytes
  | 0, buffer => ([], buffer)
  | fuel + 1, buffer =>
    if chunkSize ≤ buffer.length then
      let (enqueued, rest) := drainFuel chunkSize fuel (buffer.drop chunkSize)
      (buffer.take chunkSize :: enqueued, rest)
    else ([], buffer)

def drain (chunkSize : ChunkSize) (buffer : Bytes) : List Bytes × Bytes :=
  drainFuel chunkSize buffer.length buffer

/-- `transform(data, controller)`: the chunks enqueued for one input chunk, and the new buffer. -/
def transform (chunkSize : ChunkSize) (buffer : Option Bytes) (data : Bytes) :
    List Bytes × Option Bytes :=
  let (enqueued, rest) := drain chunkSize (buffer.elim data (· ++ data))
  (enqueued, some rest)

/-- `flush(controller)`: what is left in the buffer makes the last chunk. -/
def flush : Option Bytes → List Bytes
  | some buffer => if buffer.length = 0 then [] else [buffer]
  | none => []

/-- The transform over the rest of a stream, from a given buffer. -/
def pipeChunks (chunkSize : ChunkSize) : Option Bytes → List Bytes → List Bytes
  | buffer, [] => flush buffer
  | buffer, data :: chunks =>
    let (enqueued, rest) := transform chunkSize buffer data
    enqueued ++ pipeChunks chunkSize rest chunks

/-- The whole output of a fresh `withChunkSize` transform. -/
def withChunkSize (chunkSize : ChunkSize) (chunks : List Bytes) : List Bytes :=
  pipeChunks chunkSize none chunks

/-- What the transform has put out while its input is open, and its buffer. A stream that fails
never gets to `flush`. -/
def cutChunks (chunkSize : ChunkSize) :
    Option Bytes → List Bytes → List Bytes × Option Bytes
  | buffer, [] => ([], buffer)
  | buffer, data :: chunks =>
    let (enqueued, rest) := transform chunkSize buffer data
    let (later, last) := cutChunks chunkSize rest chunks
    (enqueued ++ later, last)

/-- What a reader of a stream gets: chunks, and the error that it may run into after them. -/
structure StreamBody where
  chunks : List Bytes
  error : Option JsError := none
  deriving DecidableEq, Repr

/-- The stream behind a fresh `withChunkSize` transform. A chunk that can make several blocks
leaves those that nobody has asked for in the queue, which a failure empties: `read` is how many
of the blocks the reader gets then. -/
def StreamBody.withChunkSize (read : Nat) (chunkSize : ChunkSize) (body : StreamBody) :
    StreamBody :=
  match body.error with
  | none => { chunks := CereDdc.withChunkSize chunkSize body.chunks }
  | some e => { chunks := (cutChunks chunkSize none body.chunks).1.take read, error := some e }

section Transform

variable (p : ChunkSize)

theorem drainFuel_spec (fuel : Nat) (buffer : Bytes) (hfuel : buffer.length ≤ fuel) :
    (drainFuel p fuel buffer).1.flatten ++ (drainFuel p fuel buffer).2 = buffer
      ∧ (∀ b ∈ (drainFuel p fuel buffer).1, b.length = p)
      ∧ (drainFuel p fuel buffer).2.length < p := by
  have hp := p.2
  induction fuel generalizing buffer with
  | zero =>
    have hb : buffer = [] := List.eq_nil_of_length_eq_zero (by omega)
    subst hb
    simp [drainFuel, hp]
  | succ fuel ih =>
    unfold drainFuel
    by_cases hlen : (p : Nat) ≤ buffer.length
    · obtain ⟨hflat, hfull, hlt⟩ := ih (buffer.drop p) (by rw [List.length_drop]; omega)
      simp only [if_pos hlen]
      refine ⟨?_, ?_, hlt⟩
      · rw [List.flatten_cons, List.append_assoc, hflat, List.take_append_drop]
      · intro b hb
        rcases List.mem_cons.mp hb with rfl | hb
        · rw [List.length_take]
          omega
        · exact hfull b hb
    · simp only [if_neg hlen]
      exact ⟨by simp, by simp, by omega⟩

theorem drain_flatten (buffer : Bytes) :
    (drain p buffer).1.flatten ++ (drain p buffer).2 = buffer :=
  (drainFuel_spec p _ buffer (Nat.le_refl _)).1

theorem drain_full (buffer : Bytes) : ∀ b ∈ (drain p buffer).1, b.length = p :=
  (drainFuel_spec p _ buffer (Nat.le_refl _)).2.1

theorem drain_rest_lt (buffer : Bytes) : (drain p buffer).2.length < p :=
  (drainFuel_spec p _ buffer (Nat.le_refl _)).2.2

/-- Below the chunk size the loop is not entered. -/
theorem drain_short {buffer : Bytes} (h : buffer.length < p) : drain p buffer = ([], buffer) := by
  unfold drain
  cases hlen : buffer.length with
  | zero => rfl
  | succ n =>
    rw [drainFuel, if_neg (by omega)]

/-- The buffer that is left goes out as one block, unless it is empty. -/
theorem flush_blocks {buffer : Option Bytes} (h : (buffer.getD []).length < p) :
    FixedBlocks p (flush buffer) ∧ (flush buffer).flatten = buffer.getD [] := by
  cases buffer with
  | none => exact ⟨.nil, rfl⟩
  | some b =>
    have hlt : b.length < p := h
    show FixedBlocks p (if b.length = 0 then [] else [b])
      ∧ (if b.length = 0 then [] else [b]).flatten = b
    by_cases hb : b.length = 0
    · rw [if_pos hb, List.eq_nil_of_length_eq_zero hb]
      exact ⟨.nil, rfl⟩
    · rw [if_neg hb]
      exact ⟨.last (by omega) (by omega), by simp⟩

/-- Over any chunking the transform emits blocks of the chunk size that spell the
buffer and the input. -/
theorem pipeChunks_blocks (buffer : Option Bytes) (chunks : List Bytes)
    (h : (buffer.getD []).length < p) :
    FixedBlocks p (pipeChunks p buffer chunks)
      ∧ (pipeChunks p buffer chunks).flatten = buffer.getD [] ++ chunks.flatten := by
  induction chunks generalizing buffer with
  | nil => simpa [pipeChunks] using flush_blocks p h
  | cons data chunks ih =>
    have hbuf : buffer.elim data (· ++ data) = buffer.getD [] ++ data := by
      cases buffer <;> rfl
    -- the loop leaves less than a block in the buffer, as the induction hypothesis asks
    obtain ⟨hblocks, hflat⟩ :=
      ih (some (drain p (buffer.getD [] ++ data)).2) (drain_rest_lt p _)
    simp only [pipeChunks, transform, hbuf]
    constructor
    · exact hblocks.append (drain_full p _) p.2
    · rw [List.flatten_append, hflat, Option.getD_some, ← List.append_assoc, drain_flatten,
        List.append_assoc, List.flatten_cons]

/-- What comes out before the end are full blocks, and less than one stays in the buffer. -/
theorem cutChunks_spec (buffer : Option Bytes) (chunks : List Bytes)
    (h : (buffer.getD []).length < p) :
    (cutChunks p buffer chunks).1.flatten ++ (cutChunks p buffer chunks).2.getD []
        = buffer.getD [] ++ chunks.flatten
      ∧ (∀ b ∈ (cutChunks p buffer chunks).1, b.length = p)
      ∧ ((cutChunks p buffer chunks).2.getD []).length < p := by
  induction chunks generalizing buffer with
  | nil => simpa [cutChunks] using h
  | cons data chunks ih =>
    have hbuf : buffer.elim data (· ++ data) = buffer.getD [] ++ data := by
      cases buffer <;> rfl
    obtain ⟨hflat, hfull, hlt⟩ :=
      ih (some (drain p (buffer.getD [] ++ data)).2) (drain_rest_lt p _)
    simp only [cutChunks, transform, hbuf]
    refine ⟨?_, ?_, hlt⟩
    · rw [List.flatten_append, List.append_assoc, hflat, Option.getD_some, ← List.append_assoc,
        drain_flatten, List.append_assoc, List.flatten_cons]
    · intro b hb
      rcases List.mem_append.mp hb with hb | hb
      · exact drain_full p _ b hb
      · exact hfull b hb

/-- A stream that fails has put out a block exactly if there was enough for one. -/
theorem cutChunks_eq_nil_iff (chunks : List Bytes) :
    (cutChunks p none chunks).1 = [] ↔ chunks.flatten.length < p := by
  obtain ⟨hflat, hfull, hlt⟩ := cutChunks_spec p none chunks p.2
  have hlength := congrArg List.length hflat
  simp only [List.length_append, Option.getD_none, List.length_nil, Nat.zero_add] at hlength
  constructor
  · intro hnil
    rw [hnil, List.flatten_nil, List.length_nil] at hlength
    omega
  · intro hshort
    refine List.eq_nil_iff_forall_not_mem.mpr fun b hb => ?_
    have hb' := (List.sublist_flatten_of_mem hb).length_le
    rw [hfull b hb] at hb'
    omega

theorem StreamBody.withChunkSize_ended (read : Nat) (chunks : List Bytes) :
    StreamBody.withChunkSize read p { chunks } = { chunks := CereDdc.withChunkSize p chunks } := rfl

theorem withChunkSize_blocks (chunks : List Bytes) : FixedBlocks p (withChunkSize p chunks) :=
  (pipeChunks_blocks p none chunks p.2).1

@[simp] theorem withChunkSize_flatten (chunks : List Bytes) :
    (withChunkSize p chunks).flatten = chunks.flatten :=
  (pipeChunks_blocks p none chunks p.2).2

end Transform

/-! ## Content

A `Content` value is an object with state, and everything that wraps it shares
that state. The chunks a source still has to give include the value a generator
returns, which the stream enqueues like a yielded one. -/

/-- `Content`, with the state of the object. -/
inductive Content
  | uint8Array (data : Bytes)
  /-- an array or any other iterable that starts afresh each time it is iterated -/
  | iterable (chunks : List Bytes)
  /-- a generator or iterator, which can be iterated once -/
  | iterator (rest : List Bytes)
  /-- a `ReadableStream` the SDK did not make -/
  | inputStream (rest : List Bytes) (locked : Bool)
  /-- a stream made by `createContentStream` -/
  | contentStream (rest : List Bytes) (locked : Bool)
  deriving DecidableEq, Repr

namespace Content

def isContentStream : Content → Bool
  | .contentStream .. => true
  | _ => false

/-- The `locked` attribute of a stream; other content has none. -/
def locked : Content → Bool
  | .inputStream _ locked => locked
  | .contentStream _ locked => locked
  | _ => false

/-- The chunks the object has still to give. -/
def chunks : Content → List Bytes
  | .uint8Array data => [data]
  | .iterable chunks => chunks
  | .iterator rest => rest
  | .inputStream rest _ => rest
  | .contentStream rest _ => rest

/-- The whole content. -/
def bytes (content : Content) : Bytes := content.chunks.flatten

end Content

/-- `getContentSize`: of the `Content` values only a `Uint8Array` has a `byteLength`. -/
def getContentSize (content : Content) (defaultSize : Option Nat) : Option Nat :=
  match content with
  | .uint8Array data => some data.length
  | _ => defaultSize

def readLocked : JsError := .error "Invalid state: ReadableStream is locked"

/-! ## `createContentStream` -/

/-- A stream made by `createContentStream`, by where it takes its chunks from. -/
inductive WrapperStream
  /-- an iterator or a reader that nothing else uses -/
  | own (rest : List Bytes)
  /-- the one-shot iterator it shares with every other stream made over it -/
  | shared
  /-- `toIterable` threw -/
  | failed (error : JsError)
  deriving DecidableEq, Repr

/-- `createContentStream(input)` with the default chunk size, and the state it leaves the
input in. -/
def createContentStream (input : Content) : WrapperStream × Content :=
  match input with
  | .uint8Array data => (.own [data], input)
  | .iterable chunks => (.own chunks, input)
  | .iterator _ => (.shared, input)
  | .inputStream rest locked =>
    -- `getReader` throws inside the generator, which nobody sees before the first read
    if locked then (.failed readLocked, input) else (.own rest, .inputStream rest true)
  | .contentStream rest locked =>
    if locked then (.failed readLocked, input) else (.own rest, .contentStream rest true)

/-- The chunks a reader of the stream gets when it reads to the end, before re-chunking:
`content` is what the object the stream was made over has left for it. -/
def WrapperStream.source (stream : WrapperStream) (content : Content) :
    Except JsError (List Bytes) :=
  match stream with
  | .own rest => .ok rest
  | .shared => .ok content.chunks
  | .failed error => .error error

/-! ## Streams that share an iterator -/

/-- Whose pull gets the next chunk of a one-shot iterator. -/
inductive Puller
  /-- a stream that was made over it before -/
  | older
  /-- the stream that was made last -/
  | newest
  deriving DecidableEq, Repr

/-- The pulls that reach a one-shot iterator, in order, from the time a stream over it was made
last. The older streams have no reader any more and stop when their queues are full, so the
pulls after the last entry are all of the newest stream. -/
abbrev PullOrder := List Puller

namespace PullOrder

/-- The chunks the newest stream gets when it is read to the end. -/
def left : PullOrder → List Bytes → List Bytes
  | [], rest => rest
  | _ :: _, [] => []
  | .older :: order, _ :: rest => left order rest
  | .newest :: order, chunk :: rest => chunk :: left order rest

/-- The chunks that end up in the queues of the older streams. -/
def taken : PullOrder → List Bytes → List Bytes
  | [], _ => []
  | _ :: _, [] => []
  | .older :: order, chunk :: rest => chunk :: taken order rest
  | .newest :: order, _ :: rest => taken order rest

/-- No chunk is lost on the way, each goes to one of the streams. -/
theorem left_length_add_taken (order : PullOrder) (rest : List Bytes) :
    (order.left rest).flatten.length + (order.taken rest).flatten.length
      = rest.flatten.length := by
  induction order generalizing rest with
  | nil => simp [left, taken]
  | cons puller order ih =>
    cases rest with
    | nil => simp [left, taken]
    | cons chunk rest =>
      have hrest := ih rest
      cases puller with
      | older =>
        simp only [left, taken, List.flatten_cons, List.length_append]
        omega
      | newest =>
        simp only [left, taken, List.flatten_cons, List.length_append]
        omega

/-- The newest stream has all the bytes if the older ones have pulled none. -/
theorem left_flatten_of_taken {order : PullOrder} {rest : List Bytes}
    (h : (order.taken rest).flatten = []) : (order.left rest).flatten = rest.flatten := by
  induction order generalizing rest with
  | nil => rfl
  | cons puller order ih =>
    cases rest with
    | nil => rfl
    | cons chunk rest =>
      cases puller with
      | older =>
        simp only [taken, List.flatten_cons, List.append_eq_nil_iff] at h
        rw [left, ih h.2, List.flatten_cons, h.1, List.nil_append]
      | newest =>
        rw [left, List.flatten_cons, ih h, List.flatten_cons]

end PullOrder

/-- The content as the newest stream over it finds it. Only a one-shot iterator is shared with the
streams made before. -/
def Content.leftBy (order : PullOrder) : Content → Content
  | .iterator rest => .iterator (order.left rest)
  | content => content

/-- How many chunks of its source the transform has to see before `n` chunks are out. -/
def chunksFor (chunkSize : ChunkSize) : Nat → Option Bytes → List Bytes → Nat
  | 0, _, _ => 0
  | _ + 1, _, [] => 0
  | n + 1, buffer, data :: chunks =>
    let (enqueued, rest) := transform chunkSize buffer data
    1 + chunksFor chunkSize (n + 1 - enqueued.length) rest chunks

end CereDdc
