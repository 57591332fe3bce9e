import CereDdc.RetriedContent

/-!
# StorePiece — what a resolved `storePiece` has stored

The upload behind the CID that `BalancedNode.storePiece` resolves with, compared
with the content of the piece.
-/

namespace CereDdc

open Kit

/-- If the run resolves, the upload of its CID is the whole content. -/
def StoresWhole (content : Bytes) (run : StoreRun) : Prop :=
  ∀ cid, run.outcome = .resolved cid →
    ∃ call, lastAnswer run.calls = some (.putRawPiece call, cid) ∧ call.content.flatten = content

/-- The pulls on a shared iterator in the time of each clone, the accepted one included. -/
def AcceptedAttempt.orders (accepted : AcceptedAttempt) : List PullOrder :=
  accepted.failures.map (·.pulls) ++ [accepted.pulls]

/-- Content that is whole again in the accepted attempt, after the failures in front of it. -/
def Content.Resendable (content : Content) (accepted : AcceptedAttempt) : Prop :=
  match content with
  | .uint8Array _ => True
  | .iterable _ => True
  | .inputStream _ _ => True
  | .contentStream rest locked =>
    locked = true ∨ accepted.failures.all (·.beforeContent) = true
      ∨ streamAfter rest accepted.failures = none
  | .iterator rest =>
    accepted.failures.all (·.beforeContent) = true
      ∧ (takenByOlder accepted.orders rest).flatten = []

/-- The stream of the piece pulls as soon as it is made, before there is a clone. Unless it is
empty, the chunk it gets is lost. -/
theorem Content.not_resendable_of_first {accepted : AcceptedAttempt} {order : PullOrder}
    {orders : List PullOrder} {chunk : Bytes} {rest : List Bytes}
    (hfirst : accepted.orders = (.older :: order) :: orders) (hchunk : chunk ≠ []) :
    ¬ (Content.iterator (chunk :: rest)).Resendable accepted := by
  intro ⟨_, htaken⟩
  rw [hfirst, takenByOlder, PullOrder.taken, List.cons_append, List.flatten_cons,
    List.append_eq_nil_iff] at htaken
  exact hchunk htaken.1

section Whole

variable {bucketId : Nat} {info : PieceMeta} {run : StoreRun} {content : Bytes}
  {call : RawPieceCall}

theorem StoreRun.ResolvesWith.of_resolved {upload : Option RawPieceCall} {cid : Cid}
    (h : run.ResolvesWith upload) (hcid : run.outcome = .resolved cid) :
    ∃ call, upload = some call ∧ lastAnswer run.calls = some (.putRawPiece call, cid) := by
  cases upload with
  | none => exact absurd hcid (h cid)
  | some call =>
    obtain ⟨cid', hcid', hlast⟩ := h
    rw [hcid] at hcid'
    cases hcid'
    exact ⟨call, rfl, hlast⟩

theorem StoreRun.ResolvesWith.storesWhole_iff {upload : Option RawPieceCall}
    (h : run.ResolvesWith upload) :
    StoresWhole content run ↔ ∀ call, upload = some call → call.content.flatten = content := by
  constructor
  · intro hwhole call hcall
    subst hcall
    obtain ⟨cid, hcid, hlast⟩ := h
    obtain ⟨call', hlast', hflat⟩ := hwhole cid hcid
    rw [hlast] at hlast'
    cases hlast'
    exact hflat
  · intro hall cid hcid
    obtain ⟨call, hcall, hlast⟩ := h.of_resolved hcid
    exact ⟨call, hlast, hall call hcall⟩

/-- Reading a piece does not change how its size is found. -/
theorem getContentSize_contentAfter (c : Content) (reads : Reads) :
    getContentSize ((Piece.new c info).contentAfter reads) info.size
      = getContentSize c info.size := by
  cases c with
  | uint8Array data => rfl
  | iterable chunks => rfl
  | iterator rest =>
    rw [contentAfter_iterator]
    rfl
  | inputStream rest locked => cases locked <;> rfl
  | contentStream rest locked => rfl

theorem getContentSize_new (c : Content) :
    getContentSize (Piece.new c info).content info.size = getContentSize c info.size := by
  cases c with
  | inputStream rest locked => cases locked <;> rfl
  | _ => rfl

theorem getContentSize_leftBy (c : Content) (order : PullOrder) (info : PieceMeta) :
    getContentSize (c.leftBy order) info.size = getContentSize c info.size := by
  cases c <;> rfl

/-- What is stored has passed the guard of `putRawPiece`. -/
theorem uploads_sizeAccepted {c : Content} {attempts : List NodeAttempt}
    (h : uploads bucketId info c attempts = some call) :
    SizeAccepted (getContentSize c info.size) := by
  induction attempts generalizing c with
  | nil => cases h
  | cons attempt attempts ih =>
    have hleft := getContentSize_leftBy c attempt.pulls info
    cases hlocked : c.isContentStream && c.locked with
    | true =>
      rw [uploads_locked hlocked] at h
      cases h
    | false =>
      cases hraw : rawUpload attempt.fault bucketId (Piece.new (c.leftBy attempt.pulls) info) with
      | mk result reads =>
        cases result with
        | ok call' =>
          rw [← hleft]
          exact rawUpload_refused (by rw [hraw])
        | error e =>
          rw [uploads_failed hlocked hraw] at h
          by_cases hret : e.isRetryable
          · rw [if_pos hret] at h
            rw [← hleft, ← getContentSize_contentAfter]
            exact ih h
          · rw [if_neg hret] at h
            cases h

theorem acceptedCall_flatten {size : Nat} {offset : Option Nat} {values : List Bytes}
    (h : values.flatten.length ≤ maxPieceSize) :
    (acceptedCall bucketId size offset values).content.flatten = values.flatten :=
  sendContent_flatten (by omega)

theorem uploads_restartable_whole {c : Content} {attempts : List NodeAttempt}
    (hc : c.Restartable) (hsize : getContentSize c info.size = some c.bytes.length)
    (hpos : 0 < c.bytes.length) (hle : c.bytes.length ≤ maxPieceSize)
    (h : uploads bucketId info c attempts = some call) : call.content.flatten = c.bytes := by
  rw [uploads_restartable hc hsize hpos hle] at h
  obtain ⟨accepted, _, rfl⟩ := Option.map_eq_some_iff.mp h
  rw [acceptedCall_flatten (by rw [withChunkSize_flatten]; exact hle), withChunkSize_flatten]
  rfl

/-- An iterator: the accepted clone gets all of it only if the failed ones have read nothing and
the streams made before have pulled nothing. -/
theorem uploads_iterator_whole_iff {rest : List Bytes} {attempts : List NodeAttempt}
    (hsize : info.size = some rest.flatten.length) (hpos : 0 < rest.flatten.length)
    (hle : rest.flatten.length ≤ maxPieceSize) :
    (∀ call, uploads bucketId info (.iterator rest) attempts = some call →
        call.content.flatten = rest.flatten) ↔
      ∀ accepted, acceptedAttempt attempts = some accepted →
        (Content.iterator rest).Resendable accepted := by
  -- whatever the clone gets fits a piece, so it is what the node gets
  have hsent : ∀ accepted : AcceptedAttempt, (acceptedCall bucketId rest.flatten.length
      info.multipartOffset (withChunkSize defaultChunkSize
        (accepted.pulls.left (iteratorAfter rest accepted.failures)))).content.flatten
      = (accepted.pulls.left (iteratorAfter rest accepted.failures)).flatten := by
    intro accepted
    have hleft := left_length_le accepted.pulls (iteratorAfter rest accepted.failures)
    have hafter := iteratorAfter_length_le rest accepted.failures
    rw [acceptedCall_flatten (by rw [withChunkSize_flatten]; omega), withChunkSize_flatten]
  rw [uploads_iterator hsize hpos hle]
  constructor
  · intro h accepted haccepted
    have hcall := h _ (by rw [haccepted]; rfl)
    rw [hsent] at hcall
    exact (left_iteratorAfter_whole hpos).mp hcall
  · intro h call hcall
    obtain ⟨accepted, haccepted, rfl⟩ := Option.map_eq_some_iff.mp hcall
    rw [hsent]
    exact (left_iteratorAfter_whole hpos).mpr (h accepted haccepted)

/-- A content stream: a failure that comes after content has been sent leaves nothing that is
accepted as the whole. -/
theorem uploads_contentStream_whole_iff {rest : List Bytes} {attempts : List NodeAttempt}
    (hsize : info.size = some rest.flatten.length) (hpos : 0 < rest.flatten.length)
    (hle : rest.flatten.length ≤ maxPieceSize) :
    (∀ call, uploads bucketId info (.contentStream rest false) attempts = some call →
        call.content.flatten = rest.flatten) ↔
      ∀ accepted, acceptedAttempt attempts = some accepted →
        (Content.contentStream rest false).Resendable accepted := by
  rw [uploads_contentStream hsize hpos hle]
  constructor
  · intro h accepted haccepted
    cases hafter : streamAfter rest accepted.failures with
    | none => exact .inr (.inr hafter)
    | some left =>
      rcases streamAfter_drained hle hafter with ⟨_, hall⟩ | hnil
      · exact .inr (.inl hall)
      · have hcall := h _ (by rw [haccepted, Option.bind_some, hafter]; rfl)
        -- an upload without bytes is not the content, which has some
        rw [acceptedCall_flatten (by rw [hnil]; exact Nat.zero_le _), hnil] at hcall
        rw [← hcall] at hpos
        exact absurd hpos (Nat.lt_irrefl 0)
  · intro h call hcall
    obtain ⟨left, hleft, rfl⟩ := Option.map_eq_some_iff.mp hcall
    obtain ⟨accepted, haccepted, hafter⟩ := Option.bind_eq_some_iff.mp hleft
    rcases h accepted haccepted with hlocked | hall | hnone
    · cases hlocked
    · rw [streamAfter_beforeContent hall] at hafter
      cases hafter
      exact acceptedCall_flatten hle
    · rw [hnone] at hafter
      cases hafter

/-- For a size that is let through: the upload is whole exactly if the content can be sent
again after the failures in front of it. -/
theorem uploads_whole_iff {c : Content} {attempts : List NodeAttempt}
    (hsize : getContentSize c info.size = some c.bytes.length) (hpos : 0 < c.bytes.length)
    (hle : c.bytes.length ≤ maxPieceSize) :
    (∀ call, uploads bucketId info (Piece.new c info).content attempts = some call →
        call.content.flatten = c.bytes) ↔
      ∀ accepted, acceptedAttempt attempts = some accepted → c.Resendable accepted := by
  cases c with
  | uint8Array data =>
    refine ⟨fun _ _ _ => trivial, fun _ call h => ?_⟩
    exact uploads_restartable_whole (c := .uint8Array data) trivial hsize hpos hle h
  | iterable chunks =>
    refine ⟨fun _ _ _ => trivial, fun _ call h => ?_⟩
    exact uploads_restartable_whole (c := .iterable chunks) trivial hsize hpos hle h
  | iterator rest => exact uploads_iterator_whole_iff hsize hpos hle
  | inputStream rest locked =>
    refine ⟨fun _ _ _ => trivial, fun _ call h => ?_⟩
    -- the constructor of the piece has locked the stream, so no clone can read it
    have hcontent : (Piece.new (.inputStream rest locked) info).content
        = .inputStream rest true := by
      cases locked <;> rfl
    rw [hcontent, uploads_inputStream] at h
    cases h
  | contentStream rest locked =>
    cases locked with
    | true =>
      refine ⟨fun _ _ _ => .inl rfl, fun _ call h => ?_⟩
      have h' : uploads bucketId info (.contentStream rest true) attempts = some call := h
      rw [uploads_locked rfl] at h'
      cases h'
    | false => exact uploads_contentStream_whole_iff hsize hpos hle

end Whole

/-- **A resolved upload is whole** exactly if the content can be sent again in the accepted
attempt, after the failures in front of it and what other streams have pulled by then. -/
theorem storePiece_storesWhole_iff (retries : RetriesConfig) (package : AsyncRetry)
    (freshId : String) (turns : List Turn) (bucketId : Nat) (content : Content)
    (info : PieceMeta) (options : PieceStoreOptions)
    (hsize : getContentSize content info.size = some content.bytes.length) :
    StoresWhole content.bytes
        (BalancedNode.storePiece retries package freshId turns bucketId
          (.piece (Piece.new content info)) options) ↔
      (0 < content.bytes.length → content.bytes.length ≤ maxPieceSize →
        ∀ accepted,
          acceptedAttempt (reached (retries.retryOptions.grants package) options.recordName 1 []
            turns) = some accepted →
          content.Resendable accepted) := by
  have hrun := storePiece_uploads bucketId options retries package freshId turns
    (Piece.new content info)
  rw [hrun.storesWhole_iff]
  constructor
  · intro h hpos hle
    exact (uploads_whole_iff hsize hpos hle).mp h
  · intro h call hcall
    have haccepted := uploads_sizeAccepted hcall
    have hinfo : (Piece.new content info).info = info := rfl
    rw [hinfo, getContentSize_new, hsize] at haccepted
    obtain ⟨n, hn, hpos, hle⟩ := haccepted
    cases hn
    exact (uploads_whole_iff hsize hpos hle).mpr (h hpos hle) call hcall

/-! ## A drained stream -/

/-- `async-retry` that never runs out of time and rejects with the last error. -/
def plainRetry : AsyncRetry := ⟨fun _ => 0, fun _ e => e⟩

/-- An attempt on the only node of a router, which answers every upload with one CID. -/
def plainTurn (fault : Option Fault) : Turn where
  getNode _ := .ok "node"
  fault := fault
  token _ := "token"
  freshId _ := "id"
  cidOf _ := [1]

def unavailable : JsError := .rpc { message := "", code := GrpcStatus.unavailable.name }

/-- One byte in a content stream, and a node whose first response is lost. -/
def lostResponse : StoreRun :=
  BalancedNode.storePiece .unset plainRetry "id"
    [plainTurn (some ⟨.response, unavailable⟩), plainTurn none] 1
    (.piece (Piece.new (.contentStream [[7]] false) { size := some 1 }))

/-- The second attempt finds the stream unlocked and drained, sends nothing and resolves. -/
theorem lostResponse_resent_empty :
    lostResponse.outcome = .resolved [1]
      ∧ lastAnswer lostResponse.calls = some (.putRawPiece (acceptedCall 1 1 none []), [1])
      ∧ ¬ StoresWhole (Content.contentStream [[7]] false).bytes lostResponse := by
  have hlast : lastAnswer lostResponse.calls
      = some (.putRawPiece (acceptedCall 1 1 none []), [1]) := by decide +kernel
  refine ⟨rfl, hlast, fun hwhole => ?_⟩
  obtain ⟨call, hcall, hflat⟩ := hwhole [1] rfl
  rw [hlast] at hcall
  cases hcall
  cases hflat

theorem lostResponse_storesWhole_iff :
    StoresWhole (Content.contentStream [[7]] false).bytes lostResponse ↔
      (0 < 1 → 1 ≤ maxPieceSize → ∀ accepted,
        acceptedAttempt (reached ((RetriesConfig.unset).retryOptions.grants plainRetry) none 1 []
          [plainTurn (some ⟨.response, unavailable⟩), plainTurn none]) = some accepted →
        (Content.contentStream [[7]] false).Resendable accepted) :=
  storePiece_storesWhole_iff .unset plainRetry "id"
    [plainTurn (some ⟨.response, unavailable⟩), plainTurn none] 1 (.contentStream [[7]] false)
    { size := some 1 } {} rfl

end CereDdc
