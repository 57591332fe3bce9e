import CereDdc.Kit.Readable
import CereDdc.Kit.Runs
import CereDdc.Streams

/-!
# Content streams — `streams/createStream.ts`

What `withChunkSize` makes of any chunks, and what somebody gets who reads a stream of
`createContentStream` to its end. The stream pulls from its source, the transform takes
from the stream, and the reader reads, each at its own time.
-/

namespace CereDdc

open Kit (Readable ReadResult FixedBlocks)

/-! ## The loop of `withChunkSize` -/

/-- `while (buffer.byteLength >= chunkSize)`, started on a buffer: it comes to its end with what was
enqueued and the buffer that is left. -/
inductive DrainLoop (chunkSize : Nat) : Bytes → List Bytes → Bytes → Prop
  | exit {buffer : Bytes} (h : ¬ chunkSize ≤ buffer.length) : DrainLoop chunkSize buffer [] buffer
  | next {buffer rest : Bytes} {enqueued : List Bytes} (h : chunkSize ≤ buffer.length)
    (hloop : DrainLoop chunkSize (buffer.drop chunkSize) enqueued rest) :
    DrainLoop chunkSize buffer (buffer.take chunkSize :: enqueued) rest

section

variable (p : ChunkSize)

theorem drainLoop_drainFuel (fuel : Nat) (buffer : Bytes) (h : buffer.length ≤ fuel) :
    DrainLoop p buffer (drainFuel p fuel buffer).1 (drainFuel p fuel buffer).2 := by
  have hp := p.2
  induction fuel generalizing buffer with
  | zero =>
    show DrainLoop p buffer [] buffer
    exact .exit (by omega)
  | succ fuel ih =>
    unfold drainFuel
    by_cases hlen : (p : Nat) ≤ buffer.length
    · simp only [if_pos hlen]
      -- an iteration shortens the buffer
      have hshorter : (buffer.drop p).length ≤ fuel := by
        rw [List.length_drop]
        omega
      exact .next hlen (ih _ hshorter)
    · simp only [if_neg hlen]
      exact .exit hlen

/-- The loop ends, on every buffer. -/
theorem drainLoop_drain (buffer : Bytes) :
    DrainLoop p buffer (drain p buffer).1 (drain p buffer).2 :=
  drainLoop_drainFuel p _ buffer (Nat.le_refl _)

/-- There is one list of blocks for each content. -/
theorem withChunkSize_unique {chunks blocks : List Bytes} (hblocks : FixedBlocks p blocks)
    (hflat : blocks.flatten = chunks.flatten) : blocks = withChunkSize p chunks := by
  apply FixedBlocks.unique p.2 hblocks (withChunkSize_blocks p chunks)
  rw [hflat, withChunkSize_flatten]

/-- What the transform makes of any chunks: its loop ends on each of them, and the output is the
one list of blocks that spells the content, whatever the chunks were. -/
theorem withChunkSize_spec (chunks : List Bytes) :
    (∀ buffer, DrainLoop p buffer (drain p buffer).1 (drain p buffer).2) ∧
    FixedBlocks p (withChunkSize p chunks) ∧
    (withChunkSize p chunks).flatten = chunks.flatten ∧
    (∀ blocks, FixedBlocks p blocks → blocks.flatten = chunks.flatten →
      blocks = withChunkSize p chunks) ∧
    (chunks.flatten = [] → withChunkSize p chunks = []) ∧
    ∀ chunks' : List Bytes, chunks'.flatten = chunks.flatten →
      withChunkSize p chunks' = withChunkSize p chunks := by
  refine ⟨drainLoop_drain p, withChunkSize_blocks p chunks, withChunkSize_flatten p chunks,
    fun blocks => withChunkSize_unique p, ?_, ?_⟩
  · intro hempty
    exact (withChunkSize_unique p .nil (by rw [hempty]; rfl)).symm
  · intro chunks' hflat
    apply withChunkSize_unique p (withChunkSize_blocks p chunks')
    rw [withChunkSize_flatten, hflat]

end

/-! ## Sources -/

/-- What passes through a stream: a chunk, or another value, with what `Buffer.from` makes of it. -/
inductive StreamValue
  | chunk (data : Bytes)
  | other (bufferFrom : Except JsError Bytes)
  deriving DecidableEq

/-- How an iteration ends: with the value that a generator returns, unless that is falsy, or with
an error. -/
inductive SourceEnd
  | returned (value : Option StreamValue)
  | thrown (error : JsError)
  deriving DecidableEq

/-- An iterator over chunks. -/
structure ChunkSource where
  yields : List Bytes
  ending : SourceEnd
  deriving DecidableEq

/-- `asyncIterator.next()`: `done`, the `value`, and the iterator after it. -/
def ChunkSource.next (source : ChunkSource) :
    Except JsError (Bool × Option StreamValue × ChunkSource) :=
  match source.yields, source.ending with
  | chunk :: yields, _ => .ok (false, some (.chunk chunk), { source with yields })
  | [], .returned value => .ok (true, value, ⟨[], .returned none⟩)
  | [], .thrown error => .error error

/-- The `Content` of `createContentStream`. -/
inductive ContentInput
  | uint8Array (data : Bytes)
  /-- an iterable or an async iterable, a generator among them -/
  | iterable (source : ChunkSource)
  /-- a stream with a reader, which comes to its end or fails -/
  | inputStream (reads : List Bytes) (failure : Option JsError)

/-- `toIterable(input)`. The loop over a reader returns nothing, and `yield*` returns what the
iterable returns. -/
def toIterable : ContentInput → ChunkSource
  | .uint8Array data => ⟨[data], .returned none⟩
  | .iterable source => source
  | .inputStream reads none => ⟨reads, .returned none⟩
  | .inputStream reads (some error) => ⟨reads, .thrown error⟩

/-! ## The stream, the transform and the reader -/

def notABuffer : JsError :=
  .error "The \"list[1]\" argument must be an instance of Buffer or Uint8Array"

/-- `transform(data, controller)` on any value: `Buffer.concat` takes chunks only. -/
def transformValue (chunkSize : ChunkSize) (buffer : Option Bytes) :
    StreamValue → Except JsError (List Bytes × Option Bytes)
  | .chunk data => .ok (transform chunkSize buffer data)
  | .other bufferFrom =>
    match buffer with
    | some _ => .error notABuffer
    | none => bufferFrom.map (transform chunkSize none)

structure ContentReading where
  source : ChunkSource
  /-- `new ReadableStream({ pull })` -/
  stream : Readable JsError StreamValue := {}
  /-- `buffer` of the transform -/
  buffer : Option Bytes := none
  /-- What comes out of the transform. -/
  output : Readable JsError StreamValue := {}
  /-- What the reader has got. -/
  delivered : List StreamValue := []
  /-- What the reader was told at the end. -/
  finished : Option (Except JsError Unit) := none

inductive ReadingEvent
  | pull
  | pipe
  | read
  deriving DecidableEq

namespace ContentReading

/-- `pull(controller)` -/
def pull (s : ContentReading) : ContentReading :=
  match s.source.next with
  | .error error => { s with stream := s.stream.fail error }
  | .ok (done, value, source) =>
    let stream := s.stream.enqueue value.toList
    { s with source, stream := if done then stream.close else stream }

/-- The transform is told of one value, or of the end. -/
def receive (s : ContentReading) (chunkSize : ChunkSize) :
    ReadResult JsError StreamValue → ContentReading
  | .value value =>
    match transformValue chunkSize s.buffer value with
    | .ok (enqueued, buffer) => { s with buffer, output := s.output.enqueue (enqueued.map .chunk) }
    | .error error => { s with output := s.output.fail error }
  | .done =>
    { s with
      buffer := none
      output := (s.output.enqueue ((flush s.buffer).map .chunk)).close }
  | .failed error => { s with output := s.output.fail error }

/-- The transform takes what the stream has for it. -/
def pipe (s : ContentReading) (chunkSize : ChunkSize) : Option ContentReading :=
  s.stream.read.map fun r => { s with stream := r.2 }.receive chunkSize r.1

/-- The reader is told of one value, or of the end. -/
def take (s : ContentReading) : ReadResult JsError StreamValue → ContentReading
  | .value value => { s with delivered := s.delivered ++ [value] }
  | .done => { s with finished := some (.ok ()) }
  | .failed error => { s with finished := some (.error error) }

variable (chunkSize : Option ChunkSize)

/-- The stream that `createContentStream` returns. -/
def returned (s : ContentReading) : Readable JsError StreamValue :=
  match chunkSize with
  | none => s.stream
  | some _ => s.output

def step (s : ContentReading) : ReadingEvent → Option ContentReading
  | .pull =>
    match s.stream.state with
    | .readable => some s.pull
    | _ => none
  | .pipe =>
    match chunkSize, s.output.state with
    | some chunkSize, .readable => s.pipe chunkSize
    | _, _ => none
  | .read =>
    match s.finished, chunkSize with
    | some _, _ => none
    | none, none => s.stream.read.map fun r => { s with stream := r.2 }.take r.1
    | none, some _ => s.output.read.map fun r => { s with output := r.2 }.take r.1

/-- `createContentStream(input, chunkSize)`, and a reader of the stream. -/
def start (input : ContentInput) : ContentReading := { source := toIterable input }

end ContentReading

/-! ## What a source gives -/

namespace ChunkSource

variable {source source' : ChunkSource} {value : Option StreamValue} {error : JsError}

/-- All that the iterator hands to the stream. -/
def values (source : ChunkSource) : List StreamValue :=
  source.yields.map .chunk ++
    match source.ending with
    | .returned value => value.toList
    | .thrown _ => []

def result (source : ChunkSource) : Except JsError Unit :=
  match source.ending with
  | .returned _ => .ok ()
  | .thrown error => .error error

theorem next_yield (h : source.next = .ok (false, value, source')) :
    source.values = value.toList ++ source'.values ∧ source'.ending = source.ending := by
  obtain ⟨yields, ending⟩ := source
  cases yields with
  | nil => cases ending <;> cases h
  | cons chunk yields =>
    cases h
    exact ⟨rfl, rfl⟩

theorem next_return (h : source.next = .ok (true, value, source')) :
    source.values = value.toList ∧ source.result = .ok () := by
  obtain ⟨yields, ending⟩ := source
  cases yields with
  | nil =>
    cases ending with
    | returned value' =>
      cases h
      exact ⟨rfl, rfl⟩
    | thrown error => cases h
  | cons chunk yields => cases h

theorem next_throw (h : source.next = .error error) : source.result = .error error := by
  obtain ⟨yields, ending⟩ := source
  cases yields with
  | nil =>
    cases ending with
    | returned value' => cases h
    | thrown error' =>
      cases h
      rfl
  | cons chunk yields => cases h

theorem result_congr (h : source'.ending = source.ending) : source'.result = source.result := by
  unfold result
  rw [h]

/-- A source that throws gives nothing but chunks. -/
theorem values_of_error (h : source.result = .error error) :
    source.values = source.yields.map .chunk := by
  obtain ⟨yields, ending⟩ := source
  cases ending with
  | returned value => cases h
  | thrown error => exact List.append_nil _

end ChunkSource

/-- What the transform makes of the values of a stream, and how its own stream ends. -/
def outcome (p : ChunkSize) :
    Option Bytes → List StreamValue → Except JsError Unit → List StreamValue × Except JsError Unit
  | buffer, [], .ok () => ((flush buffer).map .chunk, .ok ())
  | _, [], .error error => ([], .error error)
  | buffer, value :: values, result =>
    match transformValue p buffer value with
    | .ok (enqueued, buffer) =>
      let rest := outcome p buffer values result
      (enqueued.map .chunk ++ rest.1, rest.2)
    | .error error => ([], .error error)

section

variable {p : ChunkSize} {buffer buffer' : Option Bytes} {value : StreamValue}
  {values : List StreamValue} {result : Except JsError Unit} {enqueued : List Bytes}
  {error : JsError}

theorem outcome_of_ok (h : transformValue p buffer value = .ok (enqueued, buffer')) :
    outcome p buffer (value :: values) result
      = (enqueued.map .chunk ++ (outcome p buffer' values result).1,
        (outcome p buffer' values result).2) := by
  simp only [outcome, h]

theorem outcome_of_transform_error (h : transformValue p buffer value = .error error) :
    outcome p buffer (value :: values) result = ([], .error error) := by
  simp only [outcome, h]

end

/-- Chunks alone never make the transform fail. -/
theorem outcome_chunks (p : ChunkSize) (buffer : Option Bytes) (chunks : List Bytes)
    (result : Except JsError Unit) :
    (outcome p buffer (chunks.map .chunk) result).2 = result := by
  induction chunks generalizing buffer with
  | nil => cases result <;> rfl
  | cons data chunks ih => exact ih _

/-- What the reader of the stream should be told, and how it ends. -/
def told (chunkSize : Option ChunkSize) (source : ChunkSource) :
    List StreamValue × Except JsError Unit :=
  match chunkSize with
  | none => (source.values, source.result)
  | some p => outcome p none source.values source.result

namespace ContentReading

variable {source : ChunkSource} {passed : List StreamValue} {s t : ContentReading}
  {chunkSize : Option ChunkSize} {p : ChunkSize} {event : ReadingEvent}
  {events : List ReadingEvent}

/-! ## Pulling -/

/-- The stream has all that its source gives, after what has `passed` it already. -/
structure Pulls (source : ChunkSource) (passed : List StreamValue) (s : ContentReading) : Prop where
  carries : s.stream.Carries passed source.values source.result s.source.values
  ending : s.stream.state = .readable → s.source.ending = source.ending

theorem Pulls.pull (hs : s.Pulls source passed) (hstate : s.stream.state = .readable) :
    s.pull.Pulls source passed := by
  have hcarries := hs.carries
  have hending := ChunkSource.result_congr (hs.ending hstate)
  unfold ContentReading.pull
  split
  · next error hnext =>
    rw [← hending, ChunkSource.next_throw hnext] at hcarries
    refine ⟨?_, fun h => by cases h⟩
    rw [← hending, ChunkSource.next_throw hnext]
    exact hcarries.fail hstate
  · next done value source' hnext =>
    cases done with
    | false =>
      obtain ⟨hvalues, hsame⟩ := ChunkSource.next_yield hnext
      rw [hvalues] at hcarries
      exact ⟨hcarries.enqueue hstate, fun _ => hsame.trans (hs.ending hstate)⟩
    | true =>
      obtain ⟨hvalues, hok⟩ := ChunkSource.next_return hnext
      rw [← hending, hok] at hcarries
      refine ⟨?_, fun h => by cases h⟩
      rw [← hending, hok]
      rw [hvalues, ← List.append_nil value.toList] at hcarries
      exact (hcarries.enqueue hstate).close hstate

@[simp] theorem pull_output : s.pull.output = s.output := by
  unfold pull
  split <;> rfl

@[simp] theorem pull_buffer : s.pull.buffer = s.buffer := by
  unfold pull
  split <;> rfl

@[simp] theorem pull_delivered : s.pull.delivered = s.delivered := by
  unfold pull
  split <;> rfl

@[simp] theorem pull_finished : s.pull.finished = s.finished := by
  unfold pull
  split <;> rfl

/-! ## The transform in between -/

/-- The transform has taken `passed` from the stream, and makes of what is `left` the rest of what
it makes of everything. -/
structure Pipes (p : ChunkSize) (source : ChunkSource) (passed left : List StreamValue)
    (s : ContentReading) : Prop where
  split : passed ++ left = source.values
  pulls : s.Pulls source passed
  result : s.output.state = .readable →
    (outcome p s.buffer left source.result).2 = (outcome p none source.values source.result).2
  carries : s.output.Carries s.delivered (outcome p none source.values source.result).1
    (outcome p none source.values source.result).2 (outcome p s.buffer left source.result).1

theorem pipes_start (p : ChunkSize) (input : ContentInput) :
    (start input).Pipes p (toIterable input) [] (toIterable input).values where
  split := rfl
  pulls := ⟨Readable.carries_initial, fun _ => rfl⟩
  result := fun _ => rfl
  carries := Readable.carries_initial

theorem Pipes.pull {left : List StreamValue} (hs : s.Pipes p source passed left)
    (hstate : s.stream.state = .readable) : s.pull.Pipes p source passed left where
  split := hs.split
  pulls := hs.pulls.pull hstate
  result := by
    rw [pull_output, pull_buffer]
    exact hs.result
  carries := by
    rw [pull_output, pull_buffer, pull_delivered]
    exact hs.carries

/-- What is left of a source that throws are chunks. -/
theorem outcome_of_error {left : List StreamValue} {buffer : Option Bytes} {error : JsError}
    (hsplit : passed ++ left = source.values) (herror : source.result = .error error) :
    (outcome p buffer left (.error error)).2 = .error error := by
  rw [ChunkSource.values_of_error herror] at hsplit
  obtain ⟨first, chunks, -, -, rfl⟩ := List.append_eq_map_iff.mp hsplit
  exact outcome_chunks p buffer chunks _

theorem Pipes.pipe {left : List StreamValue} (hs : s.Pipes p source passed left)
    (hstate : s.output.state = .readable) (h : s.pipe p = some t) :
    ∃ passed' left', t.Pipes p source passed' left' := by
  have hcarries := hs.carries
  have hresult := hs.result hstate
  obtain ⟨⟨result, stream⟩, hread, rfl⟩ := Option.map_eq_some_iff.mp h
  rcases Readable.read_cases hread with ⟨value, queue, rfl, hqueue, rfl⟩ |
    ⟨rfl, hqueue, ⟨rfl, hclosing⟩ | ⟨error, rfl, hfailed⟩⟩
  · -- a value passes
    obtain ⟨left', rfl⟩ := hs.pulls.carries.left hs.split hqueue
    have hsplit : (passed ++ [value]) ++ left' = source.values := by
      rw [← hs.split, List.append_assoc]
      rfl
    have hpulls := hs.pulls.carries.read hqueue
    refine ⟨passed ++ [value], left', ?_⟩
    simp only [receive]
    cases htransform : transformValue p s.buffer value with
    | ok transformed =>
      obtain ⟨enqueued, buffer⟩ := transformed
      rw [outcome_of_ok htransform] at hcarries hresult
      exact ⟨hsplit, ⟨hpulls, hs.pulls.ending⟩, fun _ => hresult, hcarries.enqueue hstate⟩
    | error error =>
      rw [outcome_of_transform_error htransform] at hresult
      refine ⟨hsplit, ⟨hpulls, hs.pulls.ending⟩, fun h => (by cases h), ?_⟩
      rw [← hresult] at hcarries ⊢
      exact hcarries.fail hstate
  · -- the stream ends
    have hnil := hs.pulls.carries.left_nil hs.split hqueue hclosing
    obtain ⟨-, hok, -⟩ := hs.pulls.carries.closing hclosing
    subst hnil
    have hflush : outcome p s.buffer [] source.result
        = ((flush s.buffer).map .chunk ++ [], .ok ()) := by
      rw [hok, List.append_nil]
      rfl
    rw [hflush] at hcarries hresult
    refine ⟨passed, [], hs.split, ⟨hs.pulls.carries, hs.pulls.ending⟩, fun h => (by cases h), ?_⟩
    rw [← hresult] at hcarries ⊢
    exact (hcarries.enqueue hstate).close hstate
  · -- the stream has failed
    obtain ⟨herror, -⟩ := hs.pulls.carries.failed error hfailed
    have hfail : (outcome p s.buffer left source.result).2 = .error error := by
      rw [herror]
      exact outcome_of_error hs.split herror
    rw [hfail] at hresult
    refine ⟨passed, left, hs.split, ⟨hs.pulls.carries, hs.pulls.ending⟩, fun h => (by cases h), ?_⟩
    rw [← hresult] at hcarries ⊢
    exact hcarries.fail hstate

/-! ## Every run -/

/-- What holds of the stream when the reader was told of its end. -/
def EndOf (stream : Readable JsError StreamValue) : Except JsError Unit → Prop
  | .ok _ => stream.queue = [] ∧ stream.state = .closing
  | .error error => stream.queue = [] ∧ stream.state = .failed error

/-- The streams between the source and the reader are in order. -/
structure Kept (chunkSize : Option ChunkSize) (source : ChunkSource) (s : ContentReading) :
    Prop where
  ended : ∀ result, s.finished = some result → EndOf (s.returned chunkSize) result
  streams :
    match chunkSize with
    | none => s.Pulls source s.delivered
    | some p => ∃ passed left, s.Pipes p source passed left

theorem not_readable_of_ended {stream : Readable JsError StreamValue} {result : Except JsError Unit}
    (h : EndOf stream result) : stream.state ≠ .readable := by
  cases result with
  | ok _ => simp [h.2]
  | error error => simp [h.2]

theorem kept_start (chunkSize : Option ChunkSize) (input : ContentInput) :
    (start input).Kept chunkSize (toIterable input) where
  ended := by
    intro result h
    cases h
  streams := by
    cases chunkSize with
    | none => exact ⟨Readable.carries_initial, fun _ => rfl⟩
    | some p => exact ⟨_, _, pipes_start p input⟩

@[simp] theorem receive_finished {result : ReadResult JsError StreamValue} :
    (s.receive p result).finished = s.finished := by
  cases result with
  | value value =>
    simp only [receive]
    split <;> rfl
  | done => rfl
  | failed error => rfl

theorem pipe_finished (h : s.pipe p = some t) : t.finished = s.finished := by
  obtain ⟨⟨result, stream⟩, -, rfl⟩ := Option.map_eq_some_iff.mp h
  exact receive_finished

/-- The reader is told what there is to tell. -/
theorem ended_take {stream stream' : Readable JsError StreamValue}
    {told : ReadResult JsError StreamValue} (hread : stream.read = some (told, stream'))
    (hopen : s.finished = none) (result : Except JsError Unit)
    (h : (s.take told).finished = some result) : EndOf stream' result := by
  rcases Readable.read_cases hread with ⟨value, queue, rfl, hqueue, rfl⟩ |
    ⟨rfl, hqueue, ⟨rfl, hclosing⟩ | ⟨error, rfl, hfailed⟩⟩
  · rw [show (s.take (.value value)).finished = s.finished from rfl, hopen] at h
    cases h
  · cases h
    exact ⟨hqueue, hclosing⟩
  · cases h
    exact ⟨hqueue, hfailed⟩

theorem Kept.pull (hs : s.Kept chunkSize source) (hstate : s.stream.state = .readable) :
    s.pull.Kept chunkSize source := by
  have hstreams := hs.streams
  cases chunkSize with
  | none =>
    refine ⟨?_, ?_⟩
    · intro result h
      rw [pull_finished] at h
      exact absurd hstate (not_readable_of_ended (hs.ended result h))
    · show s.pull.Pulls source s.pull.delivered
      rw [pull_delivered]
      exact hstreams.pull hstate
  | some p =>
    obtain ⟨passed, left, hpipes⟩ := hstreams
    refine ⟨?_, passed, left, hpipes.pull hstate⟩
    intro result h
    rw [pull_finished] at h
    show EndOf s.pull.output result
    rw [pull_output]
    exact hs.ended result h

theorem Kept.pipe (hs : s.Kept (some p) source) (hstate : s.output.state = .readable)
    (h : s.pipe p = some t) : t.Kept (some p) source := by
  obtain ⟨passed, left, hpipes⟩ := hs.streams
  refine ⟨?_, hpipes.pipe hstate h⟩
  intro result hfinished
  rw [pipe_finished h] at hfinished
  exact absurd hstate (not_readable_of_ended (hs.ended result hfinished))

theorem Kept.read (hs : s.Kept chunkSize source) (h : s.step chunkSize .read = some t) :
    t.Kept chunkSize source := by
  have hstreams := hs.streams
  cases chunkSize with
  | none =>
    cases hopen : s.finished with
    | some result => simp [step, hopen] at h
    | none =>
      simp only [step, hopen, Option.map_eq_some_iff] at h
      obtain ⟨⟨told, stream⟩, hread, rfl⟩ := h
      refine ⟨?_, ?_⟩
      · intro result hfinished
        have hended := ended_take hread rfl result hfinished
        cases told <;> exact hended
      · rcases Readable.read_cases hread with ⟨value, queue, rfl, hqueue, rfl⟩ |
          ⟨rfl, hqueue, ⟨rfl, hclosing⟩ | ⟨error, rfl, hfailed⟩⟩
        · exact ⟨hstreams.carries.read hqueue, hstreams.ending⟩
        · exact ⟨hstreams.carries, hstreams.ending⟩
        · exact ⟨hstreams.carries, hstreams.ending⟩
  | some p =>
    cases hopen : s.finished with
    | some result => simp [step, hopen] at h
    | none =>
      simp only [step, hopen, Option.map_eq_some_iff] at h
      obtain ⟨⟨told, output⟩, hread, rfl⟩ := h
      obtain ⟨passed, left, hpipes⟩ := hstreams
      refine ⟨?_, passed, left, ?_⟩
      · intro result hfinished
        have hended := ended_take hread rfl result hfinished
        cases told <;> exact hended
      · have hpulls := hpipes.pulls
        rcases Readable.read_cases hread with ⟨value, queue, rfl, hqueue, rfl⟩ |
          ⟨rfl, hqueue, ⟨rfl, hclosing⟩ | ⟨error, rfl, hfailed⟩⟩
        · exact ⟨hpipes.split, ⟨hpulls.carries, hpulls.ending⟩, hpipes.result,
            hpipes.carries.read hqueue⟩
        · exact ⟨hpipes.split, ⟨hpulls.carries, hpulls.ending⟩, hpipes.result, hpipes.carries⟩
        · exact ⟨hpipes.split, ⟨hpulls.carries, hpulls.ending⟩, hpipes.result, hpipes.carries⟩

theorem Kept.step (hs : s.Kept chunkSize source) (h : s.step chunkSize event = some t) :
    t.Kept chunkSize source := by
  cases event with
  | pull =>
    simp only [ContentReading.step] at h
    split at h
    · next hstate =>
      cases h
      exact hs.pull hstate
    · cases h
  | pipe =>
    simp only [ContentReading.step] at h
    split at h
    · next p hstate => exact hs.pipe hstate h
    · cases h
  | read => exact hs.read h

/-- The reader comes to the end with what it should be told. -/
theorem Kept.told (hs : s.Kept chunkSize source) {result : Except JsError Unit}
    (h : s.finished = some result) :
    (CereDdc.told chunkSize source).2 = result ∧
      (result = .ok () → s.delivered = (CereDdc.told chunkSize source).1 ∧
        (s.returned chunkSize).closings = 1) ∧
      ∀ error, result = .error error → (s.returned chunkSize).closings = 0 := by
  have hcarries : ∃ rest, (s.returned chunkSize).Carries s.delivered
      (CereDdc.told chunkSize source).1 (CereDdc.told chunkSize source).2 rest := by
    have hstreams := hs.streams
    cases chunkSize with
    | none => exact ⟨_, hstreams.carries⟩
    | some p =>
      obtain ⟨passed, left, hpipes⟩ := hstreams
      exact ⟨_, hpipes.carries⟩
  obtain ⟨rest, hcarries⟩ := hcarries
  have hended := hs.ended result h
  cases result with
  | ok _ =>
    obtain ⟨hwhole, hok, hclosings⟩ := hcarries.closing hended.2
    rw [hended.1, List.append_nil] at hwhole
    exact ⟨hok, fun _ => ⟨hwhole, hclosings⟩, fun error herror => by cases herror⟩
  | error error =>
    obtain ⟨herror, -, hclosings, -⟩ := hcarries.failed error hended.2
    exact ⟨herror, fun hok => (by cases hok), fun _ _ => hclosings⟩

/-! ## The reader comes to the end -/

/-- Some events lead from one state to the other. -/
abbrev Leads (chunkSize : Option ChunkSize) (s t : ContentReading) : Prop :=
  Kit.ReachesBy (step chunkSize) (fun _ => True) s t

theorem leads_pulled (chunkSize : Option ChunkSize) (s : ContentReading) :
    ∃ t, s.Leads chunkSize t ∧ t.stream.state ≠ .readable := by
  induction hlength : s.source.yields.length generalizing s with
  | zero =>
    by_cases hstate : s.stream.state = .readable
    · have hpull : s.step chunkSize .pull = some s.pull := by simp [step, hstate]
      refine ⟨s.pull, .single trivial hpull, ?_⟩
      have hyields := List.eq_nil_of_length_eq_zero hlength
      unfold pull ChunkSource.next
      rw [hyields]
      cases s.source.ending <;> simp [Readable.fail, Readable.close]
    · exact ⟨s, .refl s, hstate⟩
  | succ n ih =>
    by_cases hstate : s.stream.state = .readable
    · have hpull : s.step chunkSize .pull = some s.pull := by simp [step, hstate]
      have hshorter : s.pull.source.yields.length = n := by
        obtain ⟨chunk, yields, hyields⟩ := List.exists_cons_of_length_eq_add_one hlength
        unfold pull ChunkSource.next
        rw [hyields] at hlength ⊢
        simpa using hlength
      obtain ⟨t, ht, hended⟩ := ih s.pull hshorter
      exact ⟨t, .trans (.single trivial hpull) ht, hended⟩
    · exact ⟨s, .refl s, hstate⟩

/-- A stream that is not readable any more has something to tell. -/
theorem read_of_not_readable {stream : Readable JsError StreamValue}
    (h : stream.state ≠ .readable) :
    (∃ value queue, stream.queue = value :: queue ∧
      stream.read = some (.value value, { stream with queue })) ∨
    ∃ told, stream.read = some (told, stream) ∧
      (told = .done ∨ ∃ error, told = .failed error) := by
  cases hqueue : stream.queue with
  | cons value queue => exact .inl ⟨value, queue, rfl, Readable.read_of_queue hqueue⟩
  | nil =>
    cases hstate : stream.state with
    | readable => exact absurd hstate h
    | closing => exact .inr ⟨.done, Readable.read_of_closing hqueue hstate, .inl rfl⟩
    | failed error =>
      exact .inr ⟨.failed error, Readable.read_of_failed hqueue hstate, .inr ⟨error, rfl⟩⟩

theorem leads_piped (p : ChunkSize) (s : ContentReading) (hpulled : s.stream.state ≠ .readable) :
    ∃ t, s.Leads (some p) t ∧ t.output.state ≠ .readable := by
  induction hlength : s.stream.queue.length generalizing s with
  | zero =>
    by_cases hstate : s.output.state = .readable
    · rcases read_of_not_readable hpulled with ⟨value, queue, hqueue, -⟩ | ⟨told, hread, htold⟩
      · simp [hqueue] at hlength
      · have hpipe : s.step (some p) .pipe = some (s.receive p told) := by
          simp [step, hstate, pipe, hread]
        refine ⟨_, .single trivial hpipe, ?_⟩
        rcases htold with rfl | ⟨error, rfl⟩ <;>
          simp [receive, Readable.close, Readable.fail]
    · exact ⟨s, .refl s, hstate⟩
  | succ n ih =>
    by_cases hstate : s.output.state = .readable
    · rcases read_of_not_readable hpulled with ⟨value, queue, hqueue, hread⟩ | ⟨told, hread, htold⟩
      · have hpipe : s.step (some p) .pipe
            = some ({ s with stream := { s.stream with queue } }.receive p (.value value)) := by
          simp [step, hstate, pipe, hread]
        have hstream : ({ s with stream := { s.stream with queue } }.receive p
            (.value value)).stream = { s.stream with queue } := by
          simp only [receive]
          split <;> rfl
        have hshorter : queue.length = n := by
          rw [hqueue] at hlength
          simpa using hlength
        obtain ⟨t, ht, hended⟩ :=
          ih _ (by rw [hstream]; exact hpulled) (by rw [hstream]; exact hshorter)
        exact ⟨t, .trans (.single trivial hpipe) ht, hended⟩
      · rcases Readable.read_cases hread with ⟨value, queue, rfl, -, -⟩ | ⟨-, hqueue, -⟩
        · rcases htold with h | ⟨error, h⟩ <;> cases h
        · simp [hqueue] at hlength
    · exact ⟨s, .refl s, hstate⟩

/-- The reader's next event, on a stream that has something to tell. -/
theorem step_read {stream' : Readable JsError StreamValue}
    {told : ReadResult JsError StreamValue} (hopen : s.finished = none)
    (hread : (s.returned chunkSize).read = some (told, stream')) :
    ∃ t, s.step chunkSize .read = some t ∧ t.returned chunkSize = stream' ∧
      (told = .done ∨ (∃ error, told = .failed error) → t.finished.isSome = true) := by
  cases chunkSize with
  | none =>
    change s.stream.read = _ at hread
    refine ⟨_, by simp only [step, hopen, hread]; rfl, ?_, ?_⟩
    · cases told <;> rfl
    · rintro (rfl | ⟨error, rfl⟩) <;> rfl
  | some p =>
    change s.output.read = _ at hread
    refine ⟨_, by simp only [step, hopen, hread]; rfl, ?_, ?_⟩
    · cases told <;> rfl
    · rintro (rfl | ⟨error, rfl⟩) <;> rfl

theorem leads_read (chunkSize : Option ChunkSize) (s : ContentReading)
    (h : (s.returned chunkSize).state ≠ .readable) :
    ∃ t, s.Leads chunkSize t ∧ t.finished.isSome = true := by
  induction hlength : (s.returned chunkSize).queue.length generalizing s with
  | zero =>
    cases hopen : s.finished with
    | some result => exact ⟨s, .refl s, by simp [hopen]⟩
    | none =>
      rcases read_of_not_readable h with ⟨value, queue, hqueue, -⟩ | ⟨told, hread, htold⟩
      · simp [hqueue] at hlength
      · obtain ⟨t, ht, -, hfinished⟩ := step_read hopen hread
        exact ⟨t, .single trivial ht, hfinished htold⟩
  | succ n ih =>
    cases hopen : s.finished with
    | some result => exact ⟨s, .refl s, by simp [hopen]⟩
    | none =>
      rcases read_of_not_readable h with ⟨value, queue, hqueue, hread⟩ | ⟨told, hread, htold⟩
      · obtain ⟨t, ht, hreturned, -⟩ := step_read hopen hread
        have hshorter : queue.length = n := by
          rw [hqueue] at hlength
          simpa using hlength
        obtain ⟨u, hu, hfinished⟩ := ih t (by rw [hreturned]; exact h)
          (by rw [hreturned]; exact hshorter)
        exact ⟨u, .trans (.single trivial ht) hu, hfinished⟩
      · obtain ⟨t, ht, -, hfinished⟩ := step_read hopen hread
        exact ⟨t, .single trivial ht, hfinished htold⟩

/-- From every state the reader comes to the end. -/
theorem leads_finished (chunkSize : Option ChunkSize) (s : ContentReading) :
    ∃ t, s.Leads chunkSize t ∧ t.finished.isSome = true := by
  obtain ⟨pulled, hpulled, hstate⟩ := leads_pulled chunkSize s
  cases chunkSize with
  | none =>
    obtain ⟨t, ht, hfinished⟩ := leads_read none pulled hstate
    exact ⟨t, .trans hpulled ht, hfinished⟩
  | some p =>
    obtain ⟨piped, hpiped, hended⟩ := leads_piped p pulled hstate
    obtain ⟨t, ht, hfinished⟩ := leads_read (some p) piped hended
    exact ⟨t, .trans (.trans hpulled hpiped) ht, hfinished⟩

end ContentReading

/-! ## The chunks of the source and nothing else -/

section

variable {p : ChunkSize} {chunkSize : Option ChunkSize} {source : ChunkSource}

theorem outcome_eq_pipeChunks (buffer : Option Bytes) (chunks : List Bytes) :
    outcome p buffer (chunks.map .chunk) (.ok ())
      = ((pipeChunks p buffer chunks).map .chunk, .ok ()) := by
  induction chunks generalizing buffer with
  | nil => rfl
  | cons data chunks ih =>
    have htransform : transformValue p buffer (.chunk data)
        = .ok ((transform p buffer data).1, (transform p buffer data).2) := rfl
    rw [List.map_cons, outcome_of_ok htransform, ih]
    simp [pipeChunks]

/-- A value that is no chunk makes the transform fail, unless it comes first. -/
theorem outcome_other (buffer : Bytes) (chunks : List Bytes) (bufferFrom : Except JsError Bytes) :
    (outcome p (some buffer) (chunks.map .chunk ++ [.other bufferFrom]) (.ok ())).2
      = .error notABuffer := by
  induction chunks generalizing buffer with
  | nil => rfl
  | cons data chunks ih =>
    rw [List.map_cons, List.cons_append, outcome_of_ok rfl]
    exact ih _

/-- The reader gets the chunks of the source one to one, or with a chunk size their bytes. -/
def DeliversYields (chunkSize : Option ChunkSize) (source : ChunkSource)
    (delivered : List StreamValue) : Prop :=
  match chunkSize with
  | none => delivered = source.yields.map .chunk
  | some _ => ∃ blocks : List Bytes, delivered = blocks.map .chunk ∧
      blocks.flatten = source.yields.flatten

/-- What the reader should be told is what the source yields, and how it ends. -/
def ToldFaithfully (chunkSize : Option ChunkSize) (source : ChunkSource) : Prop :=
  match source.ending with
  | .returned _ => (told chunkSize source).2 = .ok () ∧
      DeliversYields chunkSize source (told chunkSize source).1
  | .thrown error => (told chunkSize source).2 = .error error

/-- The iteration does not end with a value, or that adds nothing: an empty chunk, where the
chunks are cut anew, or another value that makes an empty buffer, where it is all there is. -/
def AddsNothing (chunkSize : Option ChunkSize) (source : ChunkSource) : Prop :=
  match source.ending with
  | .thrown _ => True
  | .returned none => True
  | .returned (some value) =>
    chunkSize.isSome = true ∧
      (value = .chunk [] ∨ value = .other (.ok []) ∧ source.yields = [])

theorem map_chunk_injective {bs cs : List Bytes}
    (h : bs.map StreamValue.chunk = cs.map StreamValue.chunk) : bs = cs :=
  List.map_injective_iff.mpr (fun _ _ hchunk => StreamValue.chunk.inj hchunk) h

/-- With a chunk size, for chunks that are handed over. -/
theorem delivers_chunks_iff {yields chunks : List Bytes} {ending : SourceEnd} :
    DeliversYields (some p) ⟨yields, ending⟩ ((withChunkSize p chunks).map .chunk) ↔
      chunks.flatten = yields.flatten := by
  constructor
  · rintro ⟨blocks, hblocks, hflat⟩
    rw [← hflat, ← map_chunk_injective hblocks, withChunkSize_flatten]
  · intro hflat
    exact ⟨_, rfl, by rw [withChunkSize_flatten, hflat]⟩

theorem told_chunks (yields : List Bytes) :
    told (some p) ⟨yields, .returned none⟩ = ((withChunkSize p yields).map .chunk, .ok ()) := by
  show outcome p none (yields.map .chunk ++ []) (.ok ()) = _
  rw [List.append_nil]
  exact outcome_eq_pipeChunks none yields

theorem told_chunk (yields : List Bytes) (data : Bytes) :
    told (some p) ⟨yields, .returned (some (.chunk data))⟩
      = ((withChunkSize p (yields ++ [data])).map .chunk, .ok ()) := by
  show outcome p none (yields.map .chunk ++ [.chunk data]) (.ok ()) = _
  rw [show yields.map StreamValue.chunk ++ [.chunk data] = (yields ++ [data]).map .chunk by simp]
  exact outcome_eq_pipeChunks none _

/-- Another value that comes first is like the chunk that `Buffer.from` makes of it. -/
theorem told_other_first (data : Bytes) :
    told (some p) ⟨[], .returned (some (.other (.ok data)))⟩
      = ((withChunkSize p [data]).map .chunk, .ok ()) :=
  told_chunk [] data

theorem told_other_error (error : JsError) :
    (told (some p) ⟨[], .returned (some (.other (.error error)))⟩).2 = .error error := rfl

theorem told_other_later (first : Bytes) (yields : List Bytes) (bufferFrom : Except JsError Bytes) :
    (told (some p) ⟨first :: yields, .returned (some (.other bufferFrom))⟩).2
      = .error notABuffer := by
  show (outcome p none (.chunk first :: (yields.map .chunk ++ [.other bufferFrom])) (.ok ())).2 = _
  rw [outcome_of_ok rfl]
  exact outcome_other _ yields bufferFrom

/-- An iteration that ends with another value. -/
theorem toldFaithfully_other_iff {yields : List Bytes} {bufferFrom : Except JsError Bytes} :
    ToldFaithfully (some p) ⟨yields, .returned (some (.other bufferFrom))⟩ ↔
      bufferFrom = .ok [] ∧ yields = [] := by
  show (told (some p) _).2 = .ok () ∧ DeliversYields _ _ (told (some p) _).1 ↔ _
  cases yields with
  | nil =>
    cases bufferFrom with
    | error error =>
      rw [told_other_error]
      simp
    | ok data =>
      rw [told_other_first, delivers_chunks_iff]
      simp
  | cons first yields =>
    rw [told_other_later]
    simp

theorem toldFaithfully_iff : ToldFaithfully chunkSize source ↔ AddsNothing chunkSize source := by
  obtain ⟨yields, ending⟩ := source
  cases ending with
  | thrown error =>
    refine ⟨fun _ => trivial, fun _ => ?_⟩
    cases chunkSize with
    | none => rfl
    | some p =>
      show (outcome p none (yields.map .chunk ++ []) (.error error)).2 = .error error
      rw [List.append_nil]
      exact outcome_chunks p none yields _
  | returned value =>
    cases chunkSize with
    | none =>
      show (.ok () = Except.ok () ∧ yields.map .chunk ++ value.toList = yields.map .chunk) ↔ _
      cases value with
      | none => simp [AddsNothing]
      | some value => simp [AddsNothing]
    | some p =>
      cases value with
      | none =>
        refine ⟨fun _ => trivial, fun _ => ?_⟩
        show (told (some p) _).2 = _ ∧ DeliversYields _ _ (told (some p) _).1
        rw [told_chunks]
        exact ⟨rfl, delivers_chunks_iff.mpr rfl⟩
      | some value =>
        cases value with
        | chunk data =>
          show (told (some p) _).2 = _ ∧ DeliversYields _ _ (told (some p) _).1 ↔ _
          rw [told_chunk, delivers_chunks_iff]
          simp [AddsNothing]
        | other bufferFrom =>
          rw [toldFaithfully_other_iff]
          simp [AddsNothing]

end

namespace ContentReading

variable {chunkSize : Option ChunkSize} {source : ChunkSource} {s t : ContentReading}
  {events : List ReadingEvent}

/-- A reader that was told of the end has got what the source yields and nothing else, and the
stream was closed once; or the source threw, and the stream has failed and was not closed. -/
def Faithful (chunkSize : Option ChunkSize) (source : ChunkSource) (s : ContentReading) : Prop :=
  ∀ result, s.finished = some result →
    match source.ending with
    | .returned _ => result = .ok () ∧ DeliversYields chunkSize source s.delivered ∧
        (s.returned chunkSize).closings = 1
    | .thrown error => result = .error error ∧ (s.returned chunkSize).closings = 0

theorem Kept.faithful (hs : s.Kept chunkSize source) (htold : ToldFaithfully chunkSize source) :
    s.Faithful chunkSize source := by
  intro result hfinished
  obtain ⟨hresult, hok, herror⟩ := hs.told hfinished
  unfold ToldFaithfully at htold
  split at htold
  · next value hending =>
    obtain ⟨hend, hdelivers⟩ := htold
    rw [hresult] at hend
    obtain ⟨hdelivered, hclosings⟩ := hok hend
    refine ⟨hend, ?_, hclosings⟩
    rw [hdelivered]
    exact hdelivers
  · next error hending =>
    rw [hresult] at htold
    exact ⟨htold, herror error htold⟩

/-- What a reader got at the end is what it should be told. -/
theorem Kept.toldFaithfully (hs : s.Kept chunkSize source)
    (hfinished : s.finished.isSome = true) (hfaithful : s.Faithful chunkSize source) :
    ToldFaithfully chunkSize source := by
  obtain ⟨result, hresult⟩ := Option.isSome_iff_exists.mp hfinished
  obtain ⟨htold, hok, -⟩ := hs.told hresult
  have hreader := hfaithful result hresult
  unfold ToldFaithfully
  split
  · next value hending =>
    rw [hending] at hreader
    obtain ⟨hend, hdelivers, -⟩ := hreader
    refine ⟨htold.trans hend, ?_⟩
    rw [← (hok hend).1]
    exact hdelivers
  · next error hending =>
    rw [hending] at hreader
    exact htold.trans hreader.1

/-- Who reads a stream of `createContentStream` to its end, which is always reached, gets what the
source yields, exactly when the iteration of the source ends without a value that adds to it. -/
theorem createContentStream_faithful_iff (input : ContentInput) (chunkSize : Option ChunkSize) :
    (∀ events s, Kit.run (step chunkSize) (start input) events = some s →
      ∃ t, s.Leads chunkSize t ∧ t.finished.isSome = true) ∧
    ((∀ events s, Kit.run (step chunkSize) (start input) events = some s →
        s.Faithful chunkSize (toIterable input)) ↔
      AddsNothing chunkSize (toIterable input)) := by
  have hkept : ∀ events s, Kit.run (step chunkSize) (start input) events = some s →
      s.Kept chunkSize (toIterable input) := by
    intro events s hrun
    exact Kit.run_invariant (fun _ _ _ hs h => hs.step h) (kept_start chunkSize input) hrun
  refine ⟨fun events s _ => leads_finished chunkSize s, ?_⟩
  rw [← toldFaithfully_iff]
  constructor
  · intro hfaithful
    obtain ⟨t, ⟨events, -, hrun⟩, hfinished⟩ := leads_finished chunkSize (start input)
    exact (hkept events t hrun).toldFaithfully hfinished (hfaithful events t hrun)
  · intro htold events s hrun
    exact (hkept events s hrun).faithful htold

/-- A generator that yields one chunk and returns another. -/
def returningGenerator : ContentInput :=
  .iterable ⟨[[1]], .returned (some (.chunk [2]))⟩

/-- The reader gets the chunk that was returned as well. -/
theorem returningGenerator_adds :
    ∃ s, Kit.run (step none) (start returningGenerator)
        [.pull, .pull, .read, .read, .read] = some s ∧
      s.finished = some (.ok ()) ∧ s.delivered = [.chunk [1], .chunk [2]] ∧
      ¬ DeliversYields none (toIterable returningGenerator) s.delivered := by
  refine ⟨_, rfl, rfl, rfl, ?_⟩
  show ¬ [StreamValue.chunk [1], .chunk [2]] = [.chunk [1]]
  decide

end ContentReading

end CereDdc
