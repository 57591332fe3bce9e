import CereDdc.BalancedNode

/-!
# Uploads — a raw piece through the retries

What `BalancedNode.storePiece` comes to for a raw piece, with the nodes, the
router and the log of calls taken out: of an attempt that reaches a node its
fault stays and the pulls on a shared iterator, and `uploads` follows the
content object through a list of them.
`storePiece_uploads` connects the two.
-/

namespace CereDdc

open Kit

/-! ## One attempt -/

/-- The fault that shows: without a record name there is no record to fail. -/
def effectiveFault (recordName : Option String) (fault : Option Fault) : Option Fault :=
  fault.filter fun f => f.stage ≠ .cnsRecord || recordName.isSome

/-- One attempt to store a raw piece: the call that was answered, and how far the body was read. -/
def rawUpload (fault : Option Fault) (bucketId : Nat) (piece : Piece) :
    Except JsError RawPieceCall × Reads :=
  match brokenAt fault .auth, piece.size with
  | some e, _ => (.error e, {})
  | none, .error e => (.error e, {})
  | none, .ok size =>
    match putRawPiece fault bucketId piece.isPart piece.offset (some size) piece.read with
    | .refused e => (.error e, {})
    | .failed _ reads e => (.error e, reads)
    | .stored call reads =>
      match brokenAt fault .cnsRecord with
      | some e => (.error e, reads)
      | none => (.ok call, reads)

/-- The request of an accepted upload of `values`. -/
def acceptedCall (bucketId size : Nat) (offset : Option Nat) (values : List Bytes) :
    RawPieceCall :=
  { metadata := { bucketId, isMultipart := offset.isSome, offset, size }
    content := (sendContent none 0 values).sent
    completed := true }

/-- Does the fault come before the first read of the content? -/
def Fault.beforeContent (f : Fault) : Bool :=
  f.stage = .auth || f.stage = .activity || f.stage = .headers

section RawUpload

variable {bucketId size : Nat} {piece : Piece} {values : List Bytes} {e : JsError} {f : Fault}

/-- What the guard of `putRawPiece` lets through. -/
def SizeAccepted (contentLength : Option Nat) : Prop :=
  ∃ n, contentLength = some n ∧ 0 < n ∧ n ≤ maxPieceSize

theorem Piece.size_of_accepted (h : piece.contentLength = some size) (hpos : 0 < size) :
    piece.size = .ok size := by
  simp [Piece.size, h, Nat.ne_of_gt hpos]

theorem putRawPiece_accepted {fault : Option Fault} {isMultipart : Bool} {offset : Option Nat}
    {stream : Except JsError (List Bytes)} (hpos : 0 < size) (hle : size ≤ maxPieceSize) :
    putRawPiece fault bucketId isMultipart offset (some size) stream =
      match brokenAt fault .activity with
      | some e => .refused e
      | none =>
        match brokenAt fault .headers, stream with
        | some e, _ => .failed ⟨⟨bucketId, isMultipart, offset, size⟩, [], false⟩ {} e
        | none, .error e => .failed ⟨⟨bucketId, isMultipart, offset, size⟩, [], false⟩ {} e
        | none, .ok values =>
          match afterHeaders fault with
          | some e =>
            .failed ⟨⟨bucketId, isMultipart, offset, size⟩,
              (sendContent (contentLimit fault) 0 values).sent,
              !(sendContent (contentLimit fault) 0 values).broken
                && (brokenAt fault .complete).isNone⟩
              (sendContent (contentLimit fault) 0 values).reads e
          | none =>
            .stored ⟨⟨bucketId, isMultipart, offset, size⟩,
              (sendContent (contentLimit fault) 0 values).sent, true⟩
              (sendContent (contentLimit fault) 0 values).reads := by
  obtain ⟨n, rfl⟩ : ∃ n, size = n + 1 := ⟨size - 1, by omega⟩
  exact if_neg (Nat.not_lt.mpr hle)

/-- An attempt no fault hits is answered, and the node has all the loop sends. -/
theorem rawUpload_none (h : piece.contentLength = some size) (hpos : 0 < size)
    (hle : size ≤ maxPieceSize) (hread : piece.read = .ok values) :
    rawUpload none bucketId piece =
      (.ok (acceptedCall bucketId size piece.offset values),
        (sendContent none 0 values).reads) := by
  rw [rawUpload, Piece.size_of_accepted h hpos]
  simp only [brokenAt, putRawPiece_accepted hpos hle, hread]
  rfl

/-- Nothing is stored of a piece whose body cannot be read. -/
theorem rawUpload_unreadable (bucketId : Nat) (fault : Option Fault)
    (hread : piece.read = .error e) :
    ∃ e', rawUpload fault bucketId piece = (.error e', {}) := by
  unfold rawUpload
  cases brokenAt fault .auth with
  | some e' => exact ⟨e', rfl⟩
  | none =>
    cases piece.size with
    | error e' => exact ⟨e', rfl⟩
    | ok size =>
      dsimp only
      unfold putRawPiece
      cases (some size).getD 0 with
      | zero => exact ⟨_, rfl⟩
      | succ n =>
        dsimp only
        by_cases hle : maxPieceSize < n + 1
        · rw [if_pos hle]
          exact ⟨_, rfl⟩
        · rw [if_neg hle, hread]
          cases brokenAt fault .activity with
          | some e' => exact ⟨e', rfl⟩
          | none =>
            cases brokenAt fault .headers with
            | some e' => exact ⟨e', rfl⟩
            | none => exact ⟨e, rfl⟩

/-- A fault in front of the content leaves the stream unread. -/
theorem rawUpload_beforeContent (h : piece.contentLength = some size) (hpos : 0 < size)
    (hle : size ≤ maxPieceSize) (hf : f.beforeContent) :
    rawUpload (some f) bucketId piece = (.error f.error, {}) := by
  rw [rawUpload, Piece.size_of_accepted h hpos]
  obtain ⟨stage, error⟩ := f
  cases stage with
  | auth => rfl
  | activity => simp [brokenAt, putRawPiece_accepted hpos hle]
  | headers => simp [brokenAt, putRawPiece_accepted hpos hle]
  | content n => simp [Fault.beforeContent] at hf
  | complete => simp [Fault.beforeContent] at hf
  | response => simp [Fault.beforeContent] at hf
  | cnsRecord => simp [Fault.beforeContent] at hf

/-- A later fault lets the loop run, up to the limit it sets. -/
theorem rawUpload_afterContent (h : piece.contentLength = some size) (hpos : 0 < size)
    (hle : size ≤ maxPieceSize) (hread : piece.read = .ok values) (hf : f.beforeContent = false) :
    rawUpload (some f) bucketId piece =
      (.error f.error, (sendContent (contentLimit (some f)) 0 values).reads) := by
  rw [rawUpload, Piece.size_of_accepted h hpos]
  obtain ⟨stage, error⟩ := f
  cases stage with
  | auth => simp [Fault.beforeContent] at hf
  | activity => simp [Fault.beforeContent] at hf
  | headers => simp [Fault.beforeContent] at hf
  | content n => simp [brokenAt, putRawPiece_accepted hpos hle, hread, afterHeaders]
  | complete => simp [brokenAt, putRawPiece_accepted hpos hle, hread, afterHeaders]
  | response => simp [brokenAt, putRawPiece_accepted hpos hle, hread, afterHeaders]
  | cnsRecord => simp [brokenAt, putRawPiece_accepted hpos hle, hread, afterHeaders]

/-- A piece whose size is refused is not stored. -/
theorem rawUpload_refused {fault : Option Fault} {call : RawPieceCall}
    (h : (rawUpload fault bucketId piece).1 = .ok call) : SizeAccepted piece.contentLength := by
  unfold rawUpload at h
  cases hauth : brokenAt fault .auth with
  | some e => simp [hauth] at h
  | none =>
    cases hlen : piece.contentLength with
    | none => simp [hauth, Piece.size, hlen] at h
    | some n =>
      by_cases hn : n = 0
      · simp [hauth, Piece.size, hlen, hn] at h
      · by_cases hle : n ≤ maxPieceSize
        · exact ⟨n, rfl, by omega, hle⟩
        · obtain ⟨m, rfl⟩ : ∃ m, n = m + 1 := ⟨n - 1, by omega⟩
          simp [hauth, Piece.size, hlen, putRawPiece, Nat.not_le.mp hle] at h

end RawUpload

/-! ## All attempts -/

/-- What an attempt that gets a node means for the content. -/
structure NodeAttempt where
  fault : Option Fault
  pulls : PullOrder
  deriving DecidableEq, Repr

def Turn.nodeAttempt (recordName : Option String) (turn : Turn) : NodeAttempt :=
  { fault := effectiveFault recordName turn.fault, pulls := turn.pulls }

/-- The attempts that get a node and are within the retry options. -/
def reached (grants : Nat → Bool) (recordName : Option String) :
    Nat → List NodeId → List Turn → List NodeAttempt
  | _, _, [] => []
  | n, exclude, turn :: turns =>
    let (node, r) := pickNode turn.getNode { exclude }
    let later := if grants n then reached grants recordName (n + 1) r.exclude turns else []
    match node with
    | some _ => turn.nodeAttempt recordName :: later
    | none => later

/-- The upload that resolves `storePiece`, if one does. -/
def uploads (bucketId : Nat) (info : PieceMeta) :
    Content → List NodeAttempt → Option RawPieceCall
  | _, [] => none
  | content, attempt :: attempts =>
    -- `Piece.from` throws, and the error is none that is retried
    if content.isContentStream && content.locked then none
    else
      let clone := Piece.new (content.leftBy attempt.pulls) info
      match rawUpload attempt.fault bucketId clone with
      | (.ok call, _) => some call
      | (.error e, reads) =>
        if e.isRetryable then uploads bucketId info (clone.contentAfter reads) attempts
        else none

section Equations

variable {bucketId : Nat} {info : PieceMeta} {content : Content} {attempt : NodeAttempt}
  {attempts : List NodeAttempt} {call : RawPieceCall} {reads : Reads} {e : JsError}

theorem uploads_locked (h : (content.isContentStream && content.locked) = true) :
    uploads bucketId info content attempts = none := by
  cases attempts with
  | nil => rfl
  | cons attempt attempts => rw [uploads, if_pos h]

theorem uploads_answered (h : (content.isContentStream && content.locked) = false)
    (hraw : rawUpload attempt.fault bucketId (Piece.new (content.leftBy attempt.pulls) info)
      = (.ok call, reads)) :
    uploads bucketId info content (attempt :: attempts) = some call := by
  rw [uploads, h]
  simp [hraw]

theorem uploads_failed (h : (content.isContentStream && content.locked) = false)
    (hraw : rawUpload attempt.fault bucketId (Piece.new (content.leftBy attempt.pulls) info)
      = (.error e, reads)) :
    uploads bucketId info content (attempt :: attempts) =
      if e.isRetryable then
        uploads bucketId info
          ((Piece.new (content.leftBy attempt.pulls) info).contentAfter reads) attempts
      else none := by
  rw [uploads, h]
  simp [hraw]

end Equations

/-- The last upload a node answered, and its answer. -/
def lastAnswer (calls : List RpcCall) : Option (RpcRequest × Cid) :=
  (calls.filterMap fun c => c.answer.map (c.request, ·)).getLast?

/-- `storePiece` resolves with the upload of `call`, the last one a node answered; with no call
it does not resolve. -/
def StoreRun.ResolvesWith (run : StoreRun) : Option RawPieceCall → Prop
  | none => ∀ cid, run.outcome ≠ .resolved cid
  | some call => ∃ cid, run.outcome = .resolved cid
      ∧ lastAnswer run.calls = some (.putRawPiece call, cid)

section Node

variable {nodeId : NodeId} {turn : Turn} {bucketId : Nat} {piece : Piece}
  {options : PieceStoreOptions} {calls later : List RpcCall} {c : RpcCall} {cid : Cid}

theorem lastAnswer_append (hc : c.answer = some cid) (hlater : ∀ d ∈ later, d.answer = none) :
    lastAnswer (calls ++ c :: later) = some (c.request, cid) := by
  have hnil : later.filterMap (fun c => c.answer.map (c.request, ·)) = [] := by
    apply List.filterMap_eq_nil_iff.mpr
    intro d hd
    rw [hlater d hd]
    rfl
  simp [lastAnswer, hc, hnil]

/-- A record call is answered without a CID. -/
theorem storeCnsRecord_unanswered :
    ∀ d ∈ (StorageNode.storeCnsRecord nodeId turn bucketId cid options).2, d.answer = none := by
  intro d hd
  unfold StorageNode.storeCnsRecord at hd
  cases hname : options.recordName with
  | none => simp [hname] at hd
  | some name =>
    simp only [hname, List.mem_singleton] at hd
    rw [hd]

/-- The record step breaks where the fault that shows says so. -/
theorem storeCnsRecord_error :
    (StorageNode.storeCnsRecord nodeId turn bucketId cid options).1
      = brokenAt (effectiveFault options.recordName turn.fault) .cnsRecord := by
  unfold StorageNode.storeCnsRecord effectiveFault
  cases hf : turn.fault with
  | none => cases options.recordName <;> rfl
  | some f =>
    cases hname : options.recordName with
    | some name => simp [Option.filter]
    | none =>
      by_cases hs : f.stage = .cnsRecord
      · simp [Option.filter, brokenAt, hs]
      · simp [Option.filter, brokenAt, hs]

/-- At the other stages every fault shows. -/
theorem brokenAt_effectiveFault {stage : Stage} (h : stage ≠ .cnsRecord) (fault : Option Fault) :
    brokenAt (effectiveFault options.recordName fault) stage = brokenAt fault stage := by
  unfold effectiveFault
  cases fault with
  | none => rfl
  | some f =>
    by_cases hs : f.stage = .cnsRecord
    · have hne : ¬ f.stage = stage := fun heq => h (heq.symm.trans hs)
      by_cases hname : options.recordName.isSome
      · simp [Option.filter, hname]
      · simp [Option.filter, brokenAt, hs, hname, Ne.symm h]
    · simp [Option.filter, hs]

theorem putRawPiece_effectiveFault {isMultipart : Bool} {offset size : Option Nat}
    {stream : Except JsError (List Bytes)} (fault : Option Fault) :
    putRawPiece (effectiveFault options.recordName fault) bucketId isMultipart offset size stream
      = putRawPiece fault bucketId isMultipart offset size stream := by
  have hlimit : contentLimit (effectiveFault options.recordName fault) = contentLimit fault
      ∧ afterHeaders (effectiveFault options.recordName fault) = afterHeaders fault := by
    unfold effectiveFault
    cases fault with
    | none => exact ⟨rfl, rfl⟩
    | some f =>
      obtain ⟨stage, e⟩ := f
      by_cases hs : stage = .cnsRecord
      · subst hs
        by_cases hname : options.recordName.isSome
        · simp [Option.filter, hname]
        · simp [Option.filter, hname, contentLimit, afterHeaders]
      · simp [Option.filter, hs]
  unfold putRawPiece
  rw [hlimit.1, hlimit.2, brokenAt_effectiveFault (by decide), brokenAt_effectiveFault (by decide),
    brokenAt_effectiveFault (by decide)]

/-- An attempt on a node comes to what `raw` says: the same error, or the same call as the last
one with an answer. -/
def StoreAttempt.ComesTo (a : StoreAttempt) : Except JsError RawPieceCall × Reads → Prop
  | (.error e, reads) => a.result = .error e ∧ a.reads = reads
  | (.ok call, reads) => a.reads = reads ∧ ∃ cid, a.result = .ok cid
      ∧ ∀ calls, lastAnswer (calls ++ a.calls) = some (.putRawPiece call, cid)

theorem storePiece_comesTo :
    (StorageNode.storePiece nodeId turn bucketId (.piece piece) options).ComesTo
      (rawUpload (effectiveFault options.recordName turn.fault) bucketId piece) := by
  unfold StorageNode.storePiece rawUpload
  simp only [brokenAt_effectiveFault (by decide : Stage.auth ≠ .cnsRecord),
    putRawPiece_effectiveFault, StorageNode.answered]
  cases brokenAt turn.fault .auth with
  | some e => exact ⟨rfl, rfl⟩
  | none =>
    cases piece.size with
    | error e => exact ⟨rfl, rfl⟩
    | ok size =>
      dsimp only
      cases putRawPiece turn.fault bucketId piece.isPart piece.offset (some size) piece.read with
      | refused e => exact ⟨rfl, rfl⟩
      | failed call reads e => exact ⟨rfl, rfl⟩
      | stored call reads =>
        dsimp only
        cases hcns : brokenAt (effectiveFault options.recordName turn.fault) .cnsRecord with
        | some e => exact ⟨by simp [storeCnsRecord_error, hcns], rfl⟩
        | none =>
          refine ⟨rfl, turn.cidOf (.inl call), ?_, ?_⟩
          · simp [storeCnsRecord_error, hcns]
          · intro calls
            exact lastAnswer_append rfl storeCnsRecord_unanswered

end Node

/-! ## The run -/

section Run

variable {grants : Nat → Bool} {mainError : List JsError → JsError → JsError}
  (bucketId : Nat) (options : PieceStoreOptions) (correlationId : String)

/-- The choice of a node depends on the excluded ones only. -/
theorem pickNode_exclude (getNode : List NodeId → Except JsError NodeId) (r : RetryState) :
    (pickNode getNode { exclude := r.exclude }).1 = (pickNode getNode r).1
      ∧ (pickNode getNode { exclude := r.exclude }).2.exclude = (pickNode getNode r).2.exclude := by
  unfold pickNode
  cases getNode r.exclude with
  | ok node => exact ⟨rfl, rfl⟩
  | error e => exact ⟨rfl, rfl⟩

theorem operationError_retryable (nodeId : NodeId) (e : JsError) :
    (operationError nodeId correlationId e).2 = e.isRetryable := by
  unfold operationError JsError.isRetryable
  cases e.asRpcError with
  | none => rfl
  | some r => rfl

theorem reached_cons (n : Nat) (r : RetryState) (turn : Turn) (turns : List Turn) :
    reached grants options.recordName n r.exclude (turn :: turns) =
      (match (pickNode turn.getNode r).1 with
        | some _ => [turn.nodeAttempt options.recordName]
        | none => [])
      ++ if grants n then
          reached grants options.recordName (n + 1) (pickNode turn.getNode r).2.exclude turns
        else [] := by
  obtain ⟨hnode, hexclude⟩ := pickNode_exclude turn.getNode r
  rw [reached]
  simp only [hnode, hexclude]
  cases (pickNode turn.getNode r).1 with
  | none => rfl
  | some node => rfl

section Attempt

variable {n : Nat} {turn : Turn} {r : RetryState} {node : NodeId} {piece : Piece}

/-- An attempt that gets no node can be retried, and leaves the piece alone. -/
theorem storeAttempt_noNode (t : StoreState)
    (hpick : (pickNode turn.getNode r).1 = none) :
    ∃ e, storeAttempt bucketId options correlationId n turn (r, t)
      = (.failed e, ((pickNode turn.getNode r).2, t)) := by
  cases hpair : pickNode turn.getNode r with
  | mk node r' =>
    rw [hpair] at hpick
    obtain rfl : node = none := hpick
    refine ⟨r'.lastOperationError.getD (r'.lastRouterError.getD noNodes), ?_⟩
    simp only [storeAttempt, withRetryAttempt, hpair]

/-- An attempt that gets a node, when the content cannot be cloned. -/
theorem storeAttempt_locked (calls : List RpcCall) (hn : 0 < n)
    (hpick : (pickNode turn.getNode r).1 = some node)
    (hlocked : (piece.content.isContentStream && piece.content.locked) = true) :
    ∃ e t, storeAttempt bucketId options correlationId n turn (r, ⟨.piece piece, calls⟩)
      = (.bailed e, t) := by
  cases hpair : pickNode turn.getNode r with
  | mk node' r' =>
    rw [hpair] at hpick
    obtain rfl : node' = some node := hpick
    have hfrom : pieceForAttempt turn.pulls n (.piece piece)
        = .error (.error "The content stream is locked and can not be reused") := by
      simp only [pieceForAttempt, if_pos hn, Piece.fromPiece, hlocked]
      rfl
    have hbody : storeBody bucketId options n turn node ⟨.piece piece, calls⟩
        = (.error (.error "The content stream is locked and can not be reused"),
          ⟨.piece piece, calls⟩) := by
      simp only [storeBody, hfrom]
    simp only [storeAttempt, withRetryAttempt, hpair, hbody]
    exact ⟨_, _, rfl⟩

/-- An attempt that gets a node: it resolves, fails or bails out as `rawUpload` of the clone
does, and leaves the content as the clone does. -/
theorem storeAttempt_node (calls : List RpcCall) (hn : 0 < n)
    (hpick : (pickNode turn.getNode r).1 = some node)
    (hclone : (piece.content.isContentStream && piece.content.locked) = false) :
    let clone := Piece.new (piece.content.leftBy turn.pulls) piece.info
    let attempt :=
      storeAttempt bucketId options correlationId n turn (r, ⟨.piece piece, calls⟩)
    match rawUpload (effectiveFault options.recordName turn.fault) bucketId clone with
    | (.ok call, _) => ∃ cid t, attempt = (.resolved cid, t)
        ∧ lastAnswer t.2.calls = some (.putRawPiece call, cid)
    | (.error e, reads) => ∃ e' r' calls',
        attempt = (if e.isRetryable then .failed e' else .bailed e',
            (r', ⟨.piece { piece with content := clone.contentAfter reads }, calls'⟩))
          ∧ r'.exclude = (pickNode turn.getNode r).2.exclude := by
  intro clone attempt
  -- the body of `withRetry` clones, and hands the clone to the node
  have hfrom : pieceForAttempt turn.pulls n (.piece piece) = .ok (.piece clone) := by
    simp only [pieceForAttempt, if_pos hn, Piece.fromPiece, hclone]
    rfl
  have hbody : storeBody bucketId options n turn node ⟨.piece piece, calls⟩
      = let stored := StorageNode.storePiece node turn bucketId (.piece clone) options
        (stored.result, ⟨.piece { piece with content := clone.contentAfter stored.reads },
          calls ++ stored.calls⟩) := by
    simp only [storeBody, hfrom]
    rfl
  have hcomes : (StorageNode.storePiece node turn bucketId (.piece clone) options).ComesTo
      (rawUpload (effectiveFault options.recordName turn.fault) bucketId clone) :=
    storePiece_comesTo
  cases hpair : pickNode turn.getNode r with
  | mk node' r' =>
    rw [hpair] at hpick
    obtain rfl : node' = some node := hpick
    have hattempt : attempt = storeAttempt bucketId options correlationId n turn
      (r, ⟨.piece piece, calls⟩) := rfl
    simp only [storeAttempt, withRetryAttempt, hpair, hbody] at hattempt
    cases hraw : rawUpload (effectiveFault options.recordName turn.fault) bucketId clone with
    | mk result reads =>
      rw [hraw] at hcomes
      cases result with
      | ok call =>
        obtain ⟨_, cid, hok, hlast⟩ := hcomes
        simp only [hok] at hattempt
        exact ⟨cid, _, hattempt, hlast calls⟩
      | error e =>
        obtain ⟨herr, hreads⟩ := hcomes
        simp only [herr, hreads] at hattempt
        have hretry := operationError_retryable correlationId node e
        cases hop : operationError node correlationId e with
        | mk e' retryable =>
          rw [hop] at hretry hattempt
          obtain rfl : retryable = e.isRetryable := hretry
          cases hret : e.isRetryable with
          | true =>
            simp only [hret] at hattempt ⊢
            exact ⟨e', _, _, hattempt, rfl⟩
          | false =>
            simp only [hret] at hattempt ⊢
            exact ⟨e', _, _, hattempt, rfl⟩

end Attempt

/-- The loop of `storePiece`, seen from outside. -/
def storeRun (loop : Outcome JsError Cid × (RetryState × StoreState)) : StoreRun :=
  ⟨loop.1, loop.2.2.calls, loop.2.2.piece⟩

/-- What follows a failed attempt: the loop goes on if it is granted another one, and rejects
otherwise. -/
theorem resolvesWith_later {granted : Bool} {loop : Outcome JsError Cid × (RetryState × StoreState)}
    {info : PieceMeta} {content : Content} {attempts : List NodeAttempt} {error : JsError}
    {state : RetryState × StoreState}
    (h : (storeRun loop).ResolvesWith (uploads bucketId info content attempts)) :
    (storeRun (if granted then loop else (.rejected error, state))).ResolvesWith
      (uploads bucketId info content (if granted then attempts else [])) := by
  cases granted with
  | true => exact h
  | false =>
    intro cid hcid
    cases hcid

/-- The loop of `storePiece` over a raw piece resolves with the call `uploads` names, and not
at all when it names none. -/
theorem retry_uploads (turns : List Turn) (n : Nat) (errors : List JsError) (r : RetryState)
    (piece : Piece) (calls : List RpcCall) (hn : 0 < n) :
    (storeRun (retry grants mainError (storeAttempt bucketId options correlationId)
      n errors turns (r, ⟨.piece piece, calls⟩))).ResolvesWith
        (uploads bucketId piece.info piece.content
          (reached grants options.recordName n r.exclude turns)) := by
  induction turns generalizing n errors r piece calls with
  | nil =>
    intro cid h
    cases h
  | cons turn turns ih =>
    rw [reached_cons]
    cases hpick : (pickNode turn.getNode r).1 with
    | none =>
      obtain ⟨e, hattempt⟩ := storeAttempt_noNode bucketId options correlationId (n := n)
        ⟨.piece piece, calls⟩ hpick
      rw [retry_failed hattempt]
      exact resolvesWith_later _ (ih (n + 1) (errors ++ [e]) _ piece calls (Nat.succ_pos n))
    | some node =>
      rw [List.singleton_append, uploads]
      cases hlocked : piece.content.isContentStream && piece.content.locked with
      | true =>
        obtain ⟨e, t, hattempt⟩ :=
          storeAttempt_locked bucketId options correlationId calls hn hpick hlocked
        rw [retry_bailed hattempt]
        intro cid h
        cases h
      | false =>
        have hattempt :=
          storeAttempt_node bucketId options correlationId calls hn hpick hlocked
        dsimp only at hattempt
        simp only [Bool.false_eq_true, if_false, Turn.nodeAttempt]
        cases hraw : rawUpload (effectiveFault options.recordName turn.fault) bucketId
          (Piece.new (piece.content.leftBy turn.pulls) piece.info) with
        | mk result reads =>
          rw [hraw] at hattempt
          cases result with
          | ok call =>
            obtain ⟨cid, t, hattempt, hlast⟩ := hattempt
            rw [retry_resolved hattempt]
            exact ⟨cid, rfl, hlast⟩
          | error e =>
            obtain ⟨e', r', calls', hattempt, hr'⟩ := hattempt
            cases hret : e.isRetryable with
            | true =>
              simp only [hret, if_true] at hattempt ⊢
              rw [retry_failed hattempt]
              let clone := Piece.new (piece.content.leftBy turn.pulls) piece.info
              rw [← hr']
              exact resolvesWith_later _ (ih (n + 1) (errors ++ [e']) r'
                { piece with content := clone.contentAfter reads } calls' (Nat.succ_pos n))
            | false =>
              simp only [hret] at hattempt ⊢
              rw [retry_bailed hattempt]
              intro cid h
              cases h

/-- `storePiece` on a raw piece resolves exactly if `uploads` names a call, which is then the
last one a node answered. -/
theorem storePiece_uploads (retries : RetriesConfig) (package : AsyncRetry) (freshId : String)
    (turns : List Turn) (piece : Piece) :
    (BalancedNode.storePiece retries package freshId turns bucketId (.piece piece)
      options).ResolvesWith (uploads bucketId piece.info piece.content
        (reached (retries.retryOptions.grants package) options.recordName 1 [] turns)) :=
  retry_uploads bucketId (withCorrelationId freshId options)
    (orString options.correlationId freshId) turns 1 [] {} piece [] (by omega)

end Run

end CereDdc
