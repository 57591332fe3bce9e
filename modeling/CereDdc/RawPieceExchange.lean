import CereDdc.ApiCalls

/-!
# RawPieceExchange — `FileApi.putRawPiece`, message by message

The client opens the call, sends the metadata and waits for the headers. Then it
reads the content and sends what it reads, as long as less than a whole piece has
been sent, and completes the call. The limit is looked at before a chunk is read,
so it cuts between chunks only.
-/

namespace CereDdc

open Kit

/-! ## The content -/

/-- What a reader of the content gets: chunks, and the error that it may run into after them. -/
structure ContentReader where
  values : List Bytes
  error : Option JsError := none
  deriving DecidableEq

/-- `isContentStream(content) ? content : createContentStream(content)`, and its reader. -/
def Content.reader (content : Content) : ContentReader :=
  match content with
  | .contentStream rest locked => if locked then ⟨[], some readLocked⟩ else ⟨rest, none⟩
  | content =>
    let stream := createContentStream content
    match stream.1.source stream.2 with
    | .ok chunks => ⟨withChunkSize defaultChunkSize chunks, none⟩
    | .error e => ⟨[], some e⟩

/-- What `putRawPiece` asks of its environment. -/
inductive RawPieceRequest
  /-- `createActivityRequest` -/
  | activity (size : Nat)
  /-- `this.api.putRawPiece({ meta })` -/
  | opens
  /-- the metadata message, which is not waited for -/
  | metadata (metadata : PutRawPieceMetadata)
  /-- `await call.headers` -/
  | headers
  /-- a content message; it is waited for until it is sent or the call has a status -/
  | content (data : Bytes)
  /-- `await call.requests.complete()` -/
  | complete
  /-- `await call.response` -/
  | response
  deriving DecidableEq

def RawPieceRequest.Answer : RawPieceRequest → Type
  | metadata _ => Unit
  | response => Except JsError Cid
  | _ => Except JsError Unit

/-- A program of the exchange. -/
abbrev RawPieceProgram := Program RawPieceRequest.Answer JsError

namespace RawPieceExchange

def activity (size : Nat) : RawPieceProgram Unit :=
  .request (RawPieceRequest.activity size) >>= Program.ofExcept

def opens : RawPieceProgram Unit := .request RawPieceRequest.opens >>= Program.ofExcept

def metadata (metadata : PutRawPieceMetadata) : RawPieceProgram Unit :=
  .request (RawPieceRequest.metadata metadata)

def headers : RawPieceProgram Unit := .request RawPieceRequest.headers >>= Program.ofExcept

def content (data : Bytes) : RawPieceProgram Unit :=
  .request (RawPieceRequest.content data) >>= Program.ofExcept

def complete : RawPieceProgram Unit := .request RawPieceRequest.complete >>= Program.ofExcept

def response : RawPieceProgram Cid := .request RawPieceRequest.response >>= Program.ofExcept

/-- The loop `while (bytesSent < MAX_PIECE_SIZE)`. -/
def sendLoop (error : Option JsError) : Nat → List Bytes → RawPieceProgram Unit
  | bytesSent, [] =>
    if bytesSent < maxPieceSize then
      match error with
      | some e => .fail e
      | none => pure ()
    else pure ()
  | bytesSent, value :: values =>
    if bytesSent < maxPieceSize then do
      content value
      sendLoop error (bytesSent + value.length) values
    else pure ()

/-- `putRawPiece` up to the headers; `size` is what `getContentSize` says, and `signs` whether
there is a signer. -/
def openCall (signs : Bool) (bucketId : Nat) (isMultipart : Bool) (offset size : Option Nat) :
    RawPieceProgram Unit := do
  let size ← Program.ofExcept (FileApi.rawPieceSize size)
  if signs then activity size
  opens
  metadata { bucketId, isMultipart, offset, size }
  headers

/-- `putRawPiece` after the loop. -/
def closeCall : RawPieceProgram Cid := do
  complete
  response

/-- `putRawPiece(metadata, content)` -/
def putRawPiece (signs : Bool) (bucketId : Nat) (isMultipart : Bool) (offset size : Option Nat)
    (reader : ContentReader) : RawPieceProgram Cid := do
  openCall signs bucketId isMultipart offset size
  sendLoop reader.error 0 reader.values
  closeCall

/-! ## A node that keeps the call open -/

variable {σ : Type} {env : Program.Environment RawPieceRequest.Answer σ} {s t : σ}
  {signs isMultipart : Bool} {bucketId n bytesSent : Nat} {offset size : Option Nat}
  {error : Option JsError} {values : List Bytes} {reader : ContentReader}

/-- The client can sign, and the node takes all that is sent until the client completes the
request. -/
structure KeepsOpen (env : Program.Environment RawPieceRequest.Answer σ) : Prop where
  activity : ∀ s size, (env s (.activity size)).1 = Except.ok ()
  opens : ∀ s, (env s .opens).1 = Except.ok ()
  headers : ∀ s, (env s .headers).1 = Except.ok ()
  content : ∀ s data, (env s (.content data)).1 = Except.ok ()
  complete : ∀ s, (env s .complete).1 = Except.ok ()

theorem traces_openCall (henv : KeepsOpen env) (h : FileApi.rawPieceSize size = .ok n) :
    ∃ t, Program.Traces env (openCall signs bucketId isMultipart offset size) s
      ((if signs then [.activity n] else []) ++
        [.opens, .metadata { bucketId, isMultipart, offset, size := n }, .headers]) () t := by
  have hrest : ∀ s, ∃ t, Program.Traces env (do
      opens
      metadata { bucketId, isMultipart, offset, size := n }
      headers) s
      [.opens, .metadata { bucketId, isMultipart, offset, size := n }, .headers] () t := by
    intro s
    exact ⟨_, .bind (.await (henv.opens _)) (.bind .request (.await (henv.headers _)))⟩
  unfold openCall
  rw [h, Program.ofExcept_ok, Program.done_bind]
  cases signs with
  | true =>
    obtain ⟨t, ht⟩ := hrest (env s (.activity n)).2
    exact ⟨t, .bind (.await (henv.activity _ _)) ht⟩
  | false =>
    obtain ⟨t, ht⟩ := hrest s
    exact ⟨t, ht⟩

/-- The loop sends what the loop of the call sends, and does not fail unless the reader does. -/
theorem traces_sendLoop (henv : KeepsOpen env) :
    Program.requests env (sendLoop error bytesSent values) s
        = (sendContent none bytesSent values).sent.map .content ∧
      ((∃ t, Program.run env (sendLoop error bytesSent values) s = (.ok (), t)) ∨
        error ≠ none ∧ (sendContent none bytesSent values).sent = values) := by
  induction values generalizing bytesSent s with
  | nil =>
    unfold sendLoop sendContent
    split
    · cases error with
      | none => exact ⟨rfl, .inl ⟨s, rfl⟩⟩
      | some e => exact ⟨rfl, .inr ⟨by simp, rfl⟩⟩
    · exact ⟨rfl, .inl ⟨s, rfl⟩⟩
  | cons value values ih =>
    unfold sendLoop sendContent
    split
    · have hsent : Program.Traces env (content value) s [.content value] ()
          (env s (.content value)).2 := .await (henv.content _ _)
      obtain ⟨hrequests, hends⟩ := @ih (env s (.content value)).2 (bytesSent + value.length)
      constructor
      · rw [Program.requests_bind_ok hsent.run, hsent.requests, hrequests]
        rfl
      · rw [Program.run_bind_ok hsent.run]
        rcases hends with hends | hends
        · exact .inl hends
        · exact .inr ⟨hends.1, by simpa using hends.2⟩
    · exact ⟨rfl, .inl ⟨s, rfl⟩⟩

/-- The messages of a call that is kept open. -/
def callRequests (signs : Bool) (call : RawPieceCall) : List RawPieceRequest :=
  (if signs then [.activity call.metadata.size] else []) ++
    [.opens, .metadata call.metadata, .headers] ++ call.content.map .content ++
      [.complete, .response]

/-- What goes over the wire is the call as the node sees it. -/
theorem requests_putRawPiece (henv : KeepsOpen env) (h : FileApi.rawPieceSize size = .ok n) :
    Program.requests env (putRawPiece signs bucketId isMultipart offset size ⟨values, none⟩) s =
      callRequests signs ⟨{ bucketId, isMultipart, offset, size := n },
        (sendContent none 0 values).sent, true⟩ := by
  obtain ⟨t, hopen⟩ := @traces_openCall _ env s signs isMultipart bucketId n offset size henv h
  obtain ⟨hrequests, ⟨u, hends⟩ | ⟨hnone, -⟩⟩ := @traces_sendLoop _ env t 0 none values henv
  · have hclose : Program.requests env closeCall u = [.complete, .response] := by
      have hcomplete : Program.Traces env complete u [.complete] () (env u .complete).2 :=
        .await (henv.complete _)
      have hresponse : Program.requests env response (env u .complete).2 = [.response] :=
        congrArg _ Program.requests_ofExcept
      unfold closeCall
      rw [Program.requests_bind_ok hcomplete.run, hcomplete.requests, hresponse]
      rfl
    unfold putRawPiece
    rw [Program.requests_bind_ok hopen.run, Program.requests_bind_ok hends, hopen.requests,
      hrequests, hclose]
    simp [callRequests]
  · exact absurd rfl hnone

/-- The exchange with a node that keeps the call open is that of `FileApi`. -/
theorem requests_putRawPiece_stored (henv : KeepsOpen env)
    (h : FileApi.rawPieceSize size = .ok n) :
    ∃ call reads,
      CereDdc.putRawPiece none bucketId isMultipart offset size (.ok values) = .stored call reads ∧
      Program.requests env (putRawPiece signs bucketId isMultipart offset size ⟨values, none⟩) s =
        callRequests signs call := by
  obtain ⟨reads, hstored⟩ := putRawPiece_of_rawPieceSize_ok h
  exact ⟨_, reads, hstored, requests_putRawPiece henv h⟩

/-- A size that `FileApi` refuses is refused before anything is asked. -/
theorem run_putRawPiece_refused {fault : Option Fault} {stream : Except JsError (List Bytes)}
    {e : JsError} (h : FileApi.rawPieceSize size = .error e) :
    CereDdc.putRawPiece fault bucketId isMultipart offset size stream = .refused e ∧
      Program.run env (putRawPiece signs bucketId isMultipart offset size reader) s
        = (.error e, s) ∧
      Program.requests env (putRawPiece signs bucketId isMultipart offset size reader) s = [] := by
  have hopen : openCall signs bucketId isMultipart offset size = .fail e := by
    unfold openCall
    rw [h, Program.ofExcept_error, Program.fail_bind]
  unfold putRawPiece
  rw [hopen, Program.fail_bind]
  exact ⟨putRawPiece_of_rawPieceSize_error h, rfl, rfl⟩

/-! ## Content of the declared size -/

/-- A node that takes everything and stores it under `cid`. -/
def openNode (cid : Cid) : Program.Environment RawPieceRequest.Answer Unit := fun _ r =>
  match r with
  | .activity _ => (Except.ok (), ())
  | .opens => (Except.ok (), ())
  | .metadata _ => ((), ())
  | .headers => (Except.ok (), ())
  | .content _ => (Except.ok (), ())
  | .complete => (Except.ok (), ())
  | .response => (Except.ok cid, ())

theorem keepsOpen_openNode (cid : Cid) : KeepsOpen (openNode cid) :=
  ⟨fun _ _ => rfl, fun _ => rfl, fun _ => rfl, fun _ _ => rfl, fun _ => rfl⟩

/-- The data of a content message. -/
def contentData : RawPieceRequest → Option Bytes
  | .content data => some data
  | _ => none

/-- The data of the content messages among the requests. -/
def sentContent (requests : List RawPieceRequest) : List Bytes := requests.filterMap contentData

theorem all_openCall : (openCall signs bucketId isMultipart offset size).All
    fun r => contentData r = none := by
  refine .bind (Program.meets_ofExcept fun _ _ => trivial) fun n _ => ?_
  have hrest : (do
      opens
      metadata { bucketId, isMultipart, offset, size := n }
      headers).All fun r => contentData r = none := by
    refine .bind ⟨rfl, fun _ => Program.meets_ofExcept fun _ _ => trivial⟩ fun _ _ => ?_
    refine .bind ⟨rfl, fun _ => trivial⟩ fun _ _ => ?_
    exact ⟨rfl, fun _ => Program.meets_ofExcept fun _ _ => trivial⟩
  cases signs with
  | true => exact .bind ⟨rfl, fun _ => Program.meets_ofExcept fun _ _ => trivial⟩ fun _ _ => hrest
  | false => exact hrest

theorem all_closeCall : closeCall.All fun r => contentData r = none :=
  .bind ⟨rfl, fun _ => Program.meets_ofExcept fun _ _ => trivial⟩ fun _ _ =>
    ⟨rfl, fun _ => Program.meets_ofExcept fun _ _ => trivial⟩

/-- Whatever the node does, the loop sends the first of the chunks; when it comes to its end, it
has sent what `sendContent` says. -/
theorem sentContent_sendLoop :
    sentContent (Program.requests env (sendLoop error bytesSent values) s) <+: values ∧
      ∀ t, Program.run env (sendLoop error bytesSent values) s = (.ok (), t) →
        sentContent (Program.requests env (sendLoop error bytesSent values) s)
          = (sendContent none bytesSent values).sent := by
  induction values generalizing bytesSent s with
  | nil =>
    unfold sendLoop sendContent
    split
    · cases error with
      | none => exact ⟨List.prefix_rfl, fun _ _ => rfl⟩
      | some e => exact ⟨List.prefix_rfl, fun _ _ => rfl⟩
    · exact ⟨List.prefix_rfl, fun _ _ => rfl⟩
  | cons value values ih =>
    unfold sendLoop sendContent
    split
    · cases hanswer : (env s (.content value)).1 with
      | ok u =>
        have hsent : Program.Traces env (content value) s [.content value] ()
            (env s (.content value)).2 := .await hanswer
        obtain ⟨hfirst, hends⟩ := @ih (env s (.content value)).2 (bytesSent + value.length)
        rw [Program.run_bind_ok hsent.run, Program.requests_bind_ok hsent.run, hsent.requests]
        refine ⟨(List.prefix_cons_inj value).mpr hfirst, fun t ht => ?_⟩
        exact congrArg _ (hends t ht)
      | error e =>
        have hrun : Program.run env (content value) s = (.error e, (env s (.content value)).2) :=
          Program.run_ofExcept.trans (by rw [hanswer])
        have hrequests : Program.requests env (content value) s = [.content value] :=
          congrArg _ Program.requests_ofExcept
        rw [Program.run_bind_error hrun, Program.requests_bind, hrun, hrequests]
        refine ⟨⟨values, rfl⟩, fun t ht => ?_⟩
        cases ht
    · exact ⟨⟨value :: values, rfl⟩, fun _ _ => rfl⟩

/-- Before the loop and after it there is no content, so the chunks are those of the loop. -/
theorem sentContent_putRawPiece :
    (∃ e t, Program.run env (openCall signs bucketId isMultipart offset size) s = (.error e, t) ∧
      sentContent (Program.requests env
        (putRawPiece signs bucketId isMultipart offset size reader) s) = []) ∨
    ∃ t, Program.run env (openCall signs bucketId isMultipart offset size) s = (.ok (), t) ∧
      sentContent (Program.requests env
        (putRawPiece signs bucketId isMultipart offset size reader) s) =
      sentContent (Program.requests env (sendLoop reader.error 0 reader.values) t) := by
  have hopen : ∀ r ∈ Program.requests env (openCall signs bucketId isMultipart offset size) s,
      contentData r = none := Program.Meets.requests all_openCall
  unfold putRawPiece sentContent
  rw [Program.requests_bind, List.filterMap_append, List.filterMap_eq_nil_iff.mpr hopen,
    List.nil_append]
  cases hrun : Program.run env (openCall signs bucketId isMultipart offset size) s with
  | mk result t =>
    cases result with
    | error e => exact .inl ⟨e, t, rfl, rfl⟩
    | ok u => exact .inr ⟨t, rfl, Program.filterMap_requests_bind_eq_left fun _ => all_closeCall⟩

/-- On every call no more than a piece is sent, and a call that succeeds has sent everything. -/
def Complete (signs : Bool) (bucketId : Nat) (isMultipart : Bool) (offset size : Option Nat)
    (reader : ContentReader) : Prop :=
  ∀ (σ : Type) (env : Program.Environment RawPieceRequest.Answer σ) (s : σ),
    (sentContent (Program.requests env
      (putRawPiece signs bucketId isMultipart offset size reader) s)).flatten.length
        ≤ maxPieceSize ∧
    ∀ cid t, Program.run env (putRawPiece signs bucketId isMultipart offset size reader) s
        = (.ok cid, t) →
      (sentContent (Program.requests env
        (putRawPiece signs bucketId isMultipart offset size reader) s)).flatten
          = reader.values.flatten

/-- What fits a piece is never cut, whatever size was declared for it. -/
theorem complete_of_fits (h : reader.values.flatten.length ≤ maxPieceSize) :
    Complete signs bucketId isMultipart offset size reader := by
  intro σ env s
  obtain ⟨e, t, hopen, hsent⟩ | ⟨t, hopen, hsent⟩ := @sentContent_putRawPiece _ env s signs
    isMultipart bucketId offset size reader
  · rw [hsent]
    refine ⟨Nat.zero_le _, fun cid u hrun => ?_⟩
    unfold putRawPiece at hrun
    rw [Program.run_bind_error hopen] at hrun
    cases hrun
  · rw [hsent]
    obtain ⟨hfirst, hends⟩ := @sentContent_sendLoop _ env t 0 reader.error reader.values
    constructor
    · exact (length_flatten_le hfirst).trans h
    · intro cid u hrun
      unfold putRawPiece at hrun
      rw [Program.run_bind_ok hopen] at hrun
      obtain ⟨_, v, hloop, -⟩ := Program.run_bind_eq_ok hrun
      rw [hends v hloop]
      exact sendContent_flatten (by omega)

/-- An open node lets the call succeed when the loop comes to its end. -/
theorem run_putRawPiece_openNode {cid : Cid} (h : FileApi.rawPieceSize size = .ok n)
    (hloop : ∀ t, Program.run (openNode cid) (sendLoop reader.error 0 reader.values) t
      = (.ok (), ())) :
    Program.run (openNode cid) (putRawPiece signs bucketId isMultipart offset size reader) ()
      = (.ok cid, ()) := by
  obtain ⟨t, hopen⟩ := @traces_openCall _ (openNode cid) () signs isMultipart bucketId n offset size
    (keepsOpen_openNode cid) h
  unfold putRawPiece
  rw [Program.run_bind_ok hopen.run, Program.run_bind_ok (hloop t)]
  rfl

/-- The limit cuts between chunks and only looks at what has been sent, so content that is longer
than a piece is either sent beyond the limit or dropped without an error. -/
theorem fits_of_complete (hsize : FileApi.rawPieceSize size = .ok n)
    (h : Complete signs bucketId isMultipart offset size reader) :
    reader.values.flatten.length ≤ maxPieceSize := by
  obtain ⟨hlimit, hwhole⟩ := h Unit (openNode []) ()
  obtain ⟨hrequests, hends⟩ := @traces_sendLoop _ (openNode []) () 0 reader.error reader.values
    (keepsOpen_openNode [])
  obtain ⟨e, t, hopen, -⟩ | ⟨t, -, hsent⟩ := @sentContent_putRawPiece _ (openNode []) () signs
    isMultipart bucketId offset size reader
  · obtain ⟨u, hopen'⟩ := @traces_openCall _ (openNode []) () signs isMultipart bucketId n offset
      size (keepsOpen_openNode []) hsize
    rw [hopen'.run] at hopen
    cases hopen
  have hcontent : sentContent ((sendContent none 0 reader.values).sent.map .content)
      = (sendContent none 0 reader.values).sent := by
    unfold sentContent
    rw [List.filterMap_map]
    exact List.filterMap_some
  rw [hrequests, hcontent] at hsent
  rw [hsent] at hlimit hwhole
  obtain ⟨u, hloop⟩ | ⟨-, hall⟩ := hends
  · rw [hwhole [] () (run_putRawPiece_openNode hsize fun _ => hloop)] at hlimit
    exact hlimit
  · rw [hall] at hlimit
    exact hlimit

/-- The declared size says nothing about it: a call is safe exactly when what the reader gets
fits a piece. -/
theorem complete_iff (h : FileApi.rawPieceSize size = .ok n) :
    Complete signs bucketId isMultipart offset size reader ↔
      reader.values.flatten.length ≤ maxPieceSize :=
  ⟨fits_of_complete h, complete_of_fits⟩

theorem complete_iff_byte : Complete true 1 false none (some 1) ⟨[[5]], none⟩ ↔
    [[(5 : UInt8)]].flatten.length ≤ maxPieceSize :=
  complete_iff rfl

/-- A byte after a full piece of declared size 1 is dropped, and the call succeeds. -/
theorem not_complete : ¬ Complete true 1 false none (some 1)
    (Content.reader (.contentStream [List.replicate maxPieceSize 0, [0]] false)) := by
  intro h
  have hfits := fits_of_complete (n := 1) rfl h
  have hlength : (Content.reader (.contentStream [List.replicate maxPieceSize 0, [0]] false)
      ).values.flatten.length = maxPieceSize + 1 := by
    simp [Content.reader]
  omega

end RawPieceExchange

end CereDdc
