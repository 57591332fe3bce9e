import CereDdc.FileStorage

/-!
# FileLayout — what a stored file consists of

The raw pieces and the multipart piece a run of `FileStorage.store` leaves on
the nodes, against the bytes of the file.
-/

namespace CereDdc

open Kit

/-! ## Requests of one `storePiece` call -/

/-- The requests a `storePiece` call for this piece may send. -/
def StorablePiece.Sends (bucketId : Nat) : StorablePiece → RpcRequest → Prop
  | .piece _, .putRawPiece _ => True
  | .multipart p, .putMultipartPiece request => request = multipartRequest (p.storeRequest bucketId)
  | _, .putRecord .. => True
  | _, _ => False

/-- Pieces of one kind; of multipart pieces there is one in a kind. -/
def StorablePiece.SameKind : StorablePiece → StorablePiece → Prop
  | .piece _, .piece _ => True
  | .multipart p, .multipart q => p = q
  | _, _ => False

theorem StorablePiece.SameKind.refl (piece : StorablePiece) : piece.SameKind piece := by
  cases piece with
  | piece p => trivial
  | multipart p => rfl

section Requests

variable {nodeId : NodeId} {turn : Turn} {bucketId : Nat} {options : PieceStoreOptions}
  {piece used : StorablePiece}

theorem answered_sends {info : RpcMeta} {request : RpcRequest} {cid : Cid} {reads : Reads}
    (h : piece.Sends bucketId request) :
    ∀ c ∈ (StorageNode.answered nodeId turn bucketId options info request cid reads).calls,
      piece.Sends bucketId c.request := by
  intro c hc
  unfold StorageNode.answered StorageNode.storeCnsRecord at hc
  cases hname : options.recordName with
  | none =>
    simp only [hname, List.mem_singleton] at hc
    rw [hc]
    exact h
  | some name =>
    simp only [hname, List.mem_cons, List.not_mem_nil, or_false] at hc
    rcases hc with rfl | rfl
    · exact h
    · cases piece <;> trivial

theorem putMultipartPiece_request (fault : Option Fault) (request : PutMultiPartPieceRequest) :
    match putMultipartPiece fault request with
    | .refused _ => True
    | .failed sent _ => sent = multipartRequest request
    | .stored sent => sent = multipartRequest request := by
  cases fault with
  | none => rfl
  | some f =>
    obtain ⟨stage, e⟩ := f
    cases stage with
    | activity => trivial
    | _ => rfl

/-- A node receives the requests that belong to the piece. -/
theorem storePiece_sends :
    ∀ c ∈ (StorageNode.storePiece nodeId turn bucketId piece options).calls,
      piece.Sends bucketId c.request := by
  unfold StorageNode.storePiece
  cases brokenAt turn.fault .auth with
  | some e => simp
  | none =>
    cases piece with
    | multipart p =>
      have hrequest := putMultipartPiece_request turn.fault (p.storeRequest bucketId)
      dsimp only
      cases hput : putMultipartPiece turn.fault (p.storeRequest bucketId) with
      | refused e => simp
      | failed sent e =>
        rw [hput] at hrequest
        intro c hc
        rw [List.mem_singleton.mp hc]
        exact hrequest
      | stored sent =>
        rw [hput] at hrequest
        exact answered_sends hrequest
    | piece p =>
      dsimp only
      cases p.size with
      | error e => simp
      | ok size =>
        dsimp only
        cases putRawPiece turn.fault bucketId p.isPart p.offset (some size) p.read with
        | refused e => simp
        | failed call reads e =>
          intro c hc
          rw [List.mem_singleton.mp hc]
          trivial
        | stored call reads => exact answered_sends trivial

/-- The piece used in an attempt is of the kind of the piece of the caller. -/
theorem pieceForAttempt_sameKind {pulls : PullOrder} {attempt : Nat}
    (h : pieceForAttempt pulls attempt piece = .ok used) :
    piece.SameKind used := by
  cases piece with
  | multipart p =>
    cases h
    rfl
  | piece p =>
    simp only [pieceForAttempt] at h
    by_cases hattempt : 0 < attempt
    · rw [if_pos hattempt] at h
      cases hfrom : p.fromPiece pulls with
      | error e =>
        rw [hfrom] at h
        cases h
      | ok clone =>
        rw [hfrom] at h
        cases h
        trivial
    · rw [if_neg hattempt] at h
      cases h
      trivial

theorem StorablePiece.Sends.sameKind {request : RpcRequest} (h : piece.SameKind used)
    (hsends : used.Sends bucketId request) : piece.Sends bucketId request := by
  cases piece with
  | piece p =>
    cases used with
    | piece q => cases request <;> exact hsends
    | multipart q => exact h.elim
  | multipart p =>
    cases used with
    | piece q => exact h.elim
    | multipart q =>
      obtain rfl : p = q := h
      exact hsends

theorem StorablePiece.SameKind.trans {third : StorablePiece} (h : piece.SameKind used)
    (h' : used.SameKind third) : piece.SameKind third := by
  cases piece with
  | piece p =>
    cases used with
    | piece q =>
      cases third with
      | piece r => trivial
      | multipart r => exact h'.elim
    | multipart q => exact h.elim
  | multipart p =>
    cases used with
    | piece q => exact h.elim
    | multipart q =>
      obtain rfl : p = q := h
      exact h'

theorem StorablePiece.after_sameKind (reads : Reads) : piece.SameKind (piece.after used reads) := by
  cases piece with
  | piece p =>
    cases used with
    | piece q => trivial
    | multipart q => trivial
  | multipart p => rfl

/-- What the body of `storePiece` adds to the calls are requests of the piece. -/
theorem storeBody_sends {attempt : Nat} {node : NodeId} {s : StoreState}
    (hkind : piece.SameKind s.piece) (hcalls : ∀ c ∈ s.calls, piece.Sends bucketId c.request) :
    let t := (storeBody bucketId options attempt turn node s).2
    piece.SameKind t.piece ∧ ∀ c ∈ t.calls, piece.Sends bucketId c.request := by
  unfold storeBody
  cases hused : pieceForAttempt turn.pulls attempt s.piece with
  | error e => exact ⟨hkind, hcalls⟩
  | ok used =>
    refine ⟨hkind.trans (StorablePiece.after_sameKind _), fun c hc => ?_⟩
    rcases List.mem_append.mp hc with hc | hc
    · exact hcalls c hc
    · exact .sameKind (hkind.trans (pieceForAttempt_sameKind hused)) (storePiece_sends c hc)

/-- The calls of a run are requests of its piece, whatever becomes of the attempts. -/
theorem balanced_sends (retries : RetriesConfig) (package : AsyncRetry)
    (freshId : String) (turns : List Turn) (bucketId : Nat) (piece : StorablePiece)
    (options : PieceStoreOptions) :
    ∀ c ∈ (BalancedNode.storePiece retries package freshId turns bucketId piece
      options).calls, piece.Sends bucketId c.request := by
  -- the caller's piece stays of its kind, which is what fixes the requests of the next clone
  let I : StoreState → Prop := fun s =>
    piece.SameKind s.piece ∧ ∀ c ∈ s.calls, piece.Sends bucketId c.request
  have hI : I (retry (retries.retryOptions.grants package) package.mainError
      (storeAttempt bucketId (withCorrelationId freshId options)
        (orString options.correlationId freshId)) 1 [] turns ({}, { piece })).2.2 := by
    apply retry_invariant (I := fun t : RetryState × StoreState => I t.2)
    · intro n turn s hs
      exact withRetryAttempt_keeps (fun _ _ h => storeBody_sends h.1 h.2) hs
    · exact ⟨.refl piece, by simp⟩
  exact hI.2

end Requests

/-! ## What one `storePiece` call adds -/

theorem storedPieces_append (stores stores' : List PieceStore) :
    storedPieces (stores ++ stores') = storedPieces stores ++ storedPieces stores' :=
  List.filterMap_append

theorem multipartRequests_append (stores stores' : List PieceStore) :
    multipartRequests (stores ++ stores') = multipartRequests stores ++ multipartRequests stores' :=
  List.flatMap_append

theorem lastAnswer_mem {calls : List RpcCall} {request : RpcRequest} {cid : Cid}
    (h : lastAnswer calls = some (request, cid)) : ∃ c ∈ calls, c.request = request := by
  obtain ⟨c, hc, hanswer⟩ := List.mem_filterMap.mp (List.mem_of_getLast? h)
  obtain ⟨a, _, heq⟩ := Option.map_eq_some_iff.mp hanswer
  exact ⟨c, hc, congrArg Prod.fst heq⟩

/-- The request of an accepted upload of a `Uint8Array`. -/
def dataCall (bucketId : Nat) (data : Bytes) (offset : Option Nat) : RawPieceCall :=
  acceptedCall bucketId data.length offset (withChunkSize defaultChunkSize [data])

theorem dataCall_flatten {bucketId : Nat} {data : Bytes} {offset : Option Nat}
    (h : data.length ≤ maxPieceSize) : (dataCall bucketId data offset).content.flatten = data := by
  have hflat : (withChunkSize defaultChunkSize [data]).flatten = data := by simp
  rw [dataCall, acceptedCall_flatten (by rw [hflat]; exact h), hflat]

/-- The requests of the parts, in order. -/
def partCalls (bucketId : Nat) : (offset : Nat) → List Bytes → List RawPieceCall
  | _, [] => []
  | offset, part :: parts =>
    dataCall bucketId part (some offset) :: partCalls bucketId (offset + part.length) parts

namespace FileStorage

variable (storage : FileStorage) (i : Nat) (options : PieceStoreOptions)

/-- `balanced_sends` for a call of the file storage. -/
theorem run_sends (piece : StorablePiece) :
    ∀ c ∈ (storage.storePiece i piece options).run.calls, piece.Sends storage.bucketId c.request :=
  balanced_sends storage.retries storage.package (storage.freshId i) (storage.turns i)
    storage.bucketId piece options

theorem storedPieces_multipart (p : MultipartPiece) :
    storedPieces [storage.storePiece i (.multipart p) options] = [] := by
  have hsends := storage.run_sends i options (.multipart p)
  apply List.filterMap_eq_nil_iff.mpr
  intro store hstore
  rw [List.mem_singleton.mp hstore]
  cases houtcome : (storage.storePiece i (.multipart p) options).run.outcome with
  | pending => rfl
  | rejected e => rfl
  | resolved cid =>
    cases hlast : lastAnswer (storage.storePiece i (.multipart p) options).run.calls with
    | none => rfl
    | some answer =>
      obtain ⟨request, cid'⟩ := answer
      obtain ⟨c, hc, rfl⟩ := lastAnswer_mem hlast
      have hc' := hsends c hc
      cases hrequest : c.request with
      | putRawPiece call =>
        rw [hrequest] at hc'
        exact hc'.elim
      | putMultipartPiece request => rfl
      | putRecord bucketId record => rfl

theorem multipartRequests_piece (p : Piece) :
    multipartRequests [storage.storePiece i (.piece p) options] = [] := by
  have hsends := storage.run_sends i options (.piece p)
  rw [multipartRequests, List.flatMap_singleton]
  apply List.filterMap_eq_nil_iff.mpr
  intro c hc
  have hc' := hsends c hc
  cases hrequest : c.request with
  | putRawPiece call => rfl
  | putMultipartPiece request =>
    rw [hrequest] at hc'
    exact hc'.elim
  | putRecord bucketId record => rfl

/-- Every multipart request of the call is the one that belongs to the piece. -/
theorem multipartRequests_multipart (p : MultipartPiece) :
    ∀ request ∈ multipartRequests [storage.storePiece i (.multipart p) options],
      request = multipartRequest (p.storeRequest storage.bucketId) := by
  have hsends := storage.run_sends i options (.multipart p)
  intro request hrequest
  rw [multipartRequests, List.flatMap_singleton] at hrequest
  obtain ⟨c, hc, heq⟩ := List.mem_filterMap.mp hrequest
  have hc' := hsends c hc
  cases hreq : c.request with
  | putRawPiece call => simp [hreq] at heq
  | putMultipartPiece request' =>
    rw [hreq] at hc'
    simp only [hreq, Option.some.injEq] at heq
    rw [← heq]
    exact hc'
  | putRecord bucketId record => simp [hreq] at heq

variable {i : Nat} {options : PieceStoreOptions} {data : Bytes} {offset : Option Nat} {cid : Cid}

/-- A `Uint8Array` whose call resolves is stored whole, and has passed the guard on sizes. -/
theorem storePiece_data
    (h : (storage.storePiece i (dataPiece data offset) options).run.outcome
      = .resolved cid) :
    0 < data.length ∧ data.length ≤ maxPieceSize
      ∧ storedPieces [storage.storePiece i (dataPiece data offset) options]
        = [(dataCall storage.bucketId data offset, cid)] := by
  have hrun := storePiece_uploads storage.bucketId options storage.retries
    storage.package (storage.freshId i) (storage.turns i)
    (Piece.new (.uint8Array data) { multipartOffset := offset })
  obtain ⟨call, hcall, hlast⟩ := hrun.of_resolved h
  have hcall' : uploads storage.bucketId { multipartOffset := offset }
      (.uint8Array data) _ = some call := hcall
  obtain ⟨size, hsize, hpos, hle⟩ := uploads_sizeAccepted hcall'
  cases hsize
  have hrestart : (Content.uint8Array data).Restartable := trivial
  rw [uploads_restartable hrestart rfl hpos hle] at hcall'
  obtain ⟨_, _, rfl⟩ := Option.map_eq_some_iff.mp hcall'
  refine ⟨hpos, hle, ?_⟩
  have hlast' : lastAnswer (storage.storePiece i (dataPiece data offset)
      options).run.calls = some (.putRawPiece (dataCall storage.bucketId data offset), cid) := hlast
  simp only [storedPieces, List.filterMap_cons, List.filterMap_nil, h, hlast']

/-! ## The parts -/

/-- No part sends a multipart request, however the parts go. -/
theorem storeParts_requests (parts : List Bytes) (i offset : Nat) :
    multipartRequests (storage.storeParts i offset parts).2 = [] := by
  induction parts generalizing i offset with
  | nil => rfl
  | cons part parts ih =>
    have hpart : multipartRequests [storage.storePiece i (dataPiece part (some offset)) {}]
        = [] := storage.multipartRequests_piece i {} _
    unfold storeParts
    dsimp only
    cases (storage.storePiece i (dataPiece part (some offset)) {}).run.outcome with
    | pending => exact hpart
    | rejected e => exact hpart
    | resolved cid =>
      have hrest := ih (i + 1) (offset + part.length)
      have hstores : multipartRequests (storage.storePiece i (dataPiece part (some offset)) {}
          :: (storage.storeParts (i + 1) (offset + part.length) parts).2) = [] := by
        rw [← List.singleton_append, multipartRequests_append, hpart, hrest]
        rfl
      cases hlater : storage.storeParts (i + 1) (offset + part.length) parts with
      | mk outcome stores =>
        rw [hlater] at hstores
        cases outcome <;> exact hstores

/-- If all parts are stored, the stored pieces are the parts, with their offsets and CIDs. -/
theorem storeParts_resolved {parts : List Bytes} {cids : List Cid} {stores : List PieceStore}
    {offset : Nat} (h : storage.storeParts i offset parts = (.resolved cids, stores)) :
    (storedPieces stores).map Prod.fst = partCalls storage.bucketId offset parts
      ∧ (storedPieces stores).map Prod.snd = cids
      ∧ ∀ part ∈ parts, part.length ≤ maxPieceSize := by
  induction parts generalizing i offset cids stores with
  | nil =>
    cases h
    exact ⟨rfl, rfl, by simp⟩
  | cons part parts ih =>
    unfold storeParts at h
    cases houtcome : (storage.storePiece i (dataPiece part (some offset)) {}).run.outcome with
    | pending => simp [houtcome] at h
    | rejected e => simp [houtcome] at h
    | resolved cid =>
      obtain ⟨_, hle, hstored⟩ := storage.storePiece_data houtcome
      cases hrest : storage.storeParts (i + 1) (offset + part.length) parts with
      | mk outcome stores' =>
        cases outcome with
        | pending => simp [houtcome, hrest] at h
        | rejected e => simp [houtcome, hrest] at h
        | resolved cids' =>
          simp only [houtcome, hrest, Prod.mk.injEq, Outcome.resolved.injEq] at h
          obtain ⟨rfl, rfl⟩ := h
          obtain ⟨hcalls, hcids, hparts⟩ := ih hrest
          refine ⟨?_, ?_, ?_⟩
          · rw [← List.singleton_append, storedPieces_append, hstored, List.map_append, hcalls]
            rfl
          · rw [← List.singleton_append, storedPieces_append, hstored, List.map_append, hcids]
            rfl
          · intro part' hpart'
            rcases List.mem_cons.mp hpart' with rfl | hpart'
            · exact hle
            · exact hparts part' hpart'

/-! ## Nodes that accept -/

/-- In every `storePiece` call the first node that is asked for is there and nothing breaks. -/
def Accepts : Prop :=
  ∀ i, ∃ turn turns node, storage.turns i = turn :: turns ∧ turn.getNode [] = .ok node
    ∧ turn.fault = none

variable {storage}

theorem storePiece_data_accepted (h : storage.Accepts) (i : Nat) (offset : Option Nat)
    (options : PieceStoreOptions) (hpos : 0 < data.length) (hle : data.length ≤ maxPieceSize) :
    ∃ cid, (storage.storePiece i (dataPiece data offset) options).run.outcome
      = .resolved cid := by
  obtain ⟨turn, turns, node, hturns, hnode, hfault⟩ := h i
  have hrun := storePiece_uploads storage.bucketId options storage.retries
    storage.package (storage.freshId i) (storage.turns i)
    (Piece.new (.uint8Array data) { multipartOffset := offset })
  have hreached : acceptedAttempt (reached (storage.retries.retryOptions.grants storage.package)
      options.recordName 1 [] (storage.turns i)) = some ⟨[], turn.pulls⟩ := by
    rw [hturns, reached]
    simp only [pickNode, hnode, Turn.nodeAttempt, hfault]
    rfl
  have hrestart : (Content.uint8Array data).Restartable := trivial
  have hupload : uploads storage.bucketId { multipartOffset := offset }
      (.uint8Array data) (reached (storage.retries.retryOptions.grants storage.package)
        options.recordName 1 [] (storage.turns i))
      = some (dataCall storage.bucketId data offset) := by
    have hrestart : (Content.uint8Array data).Restartable := trivial
    rw [uploads_restartable hrestart rfl hpos hle, hreached]
    rfl
  have hstored : (storage.storePiece i (dataPiece data offset) options).run.ResolvesWith
      (some (dataCall storage.bucketId data offset)) := by
    rw [← hupload]
    exact hrun
  obtain ⟨cid, hcid, _⟩ := hstored
  exact ⟨cid, hcid⟩

theorem storePiece_multipart_accepted (h : storage.Accepts) (i : Nat) (p : MultipartPiece)
    (options : PieceStoreOptions) :
    (∃ cid, (storage.storePiece i (.multipart p) options).run.outcome = .resolved cid)
      ∧ multipartRequest (p.storeRequest storage.bucketId)
        ∈ multipartRequests [storage.storePiece i (.multipart p) options] := by
  obtain ⟨turn, turns, node, hturns, hnode, hfault⟩ := h i
  let sent := multipartRequest (p.storeRequest storage.bucketId)
  let stored := StorageNode.storePiece node turn storage.bucketId (.multipart p)
    (withCorrelationId (storage.freshId i) options)
  have hstored : stored.result = .ok (turn.cidOf (.inr sent))
      ∧ ∃ c ∈ stored.calls, c.request = .putMultipartPiece sent := by
    simp only [stored, StorageNode.storePiece, hfault, brokenAt, putMultipartPiece,
      StorageNode.answered, storeCnsRecord_error]
    exact ⟨rfl, _, List.mem_cons_self, rfl⟩
  have hattempt : storeAttempt storage.bucketId
      (withCorrelationId (storage.freshId i) options)
      (orString options.correlationId (storage.freshId i)) 1 turn ({}, { piece := .multipart p })
      = (.resolved (turn.cidOf (.inr sent)),
        ({ exclude := [node] }, { piece := .multipart p, calls := stored.calls })) := by
    have hbody : storeBody storage.bucketId
        (withCorrelationId (storage.freshId i) options) 1 turn node { piece := .multipart p }
        = (stored.result, { piece := .multipart p, calls := stored.calls }) := rfl
    simp only [storeAttempt, withRetryAttempt, pickNode, hnode, hbody, hstored.1]
  have hrun : (storage.storePiece i (.multipart p) options).run.outcome
        = .resolved (turn.cidOf (.inr sent))
      ∧ (storage.storePiece i (.multipart p) options).run.calls = stored.calls := by
    simp only [storePiece, hturns, BalancedNode.storePiece, retry_resolved hattempt, and_self]
  refine ⟨⟨_, hrun.1⟩, ?_⟩
  obtain ⟨c, hc, hrequest⟩ := hstored.2
  rw [multipartRequests, List.flatMap_singleton, hrun.2]
  exact List.mem_filterMap.mpr ⟨c, hc, by rw [hrequest]⟩

theorem storeParts_accepted (h : storage.Accepts) (parts : List Bytes)
    (hparts : ∀ part ∈ parts, 0 < part.length ∧ part.length ≤ maxPieceSize) (i offset : Nat) :
    ∃ cids, (storage.storeParts i offset parts).1 = .resolved cids := by
  induction parts generalizing i offset with
  | nil => exact ⟨[], rfl⟩
  | cons part parts ih =>
    obtain ⟨hpos, hle⟩ := hparts part (by simp)
    obtain ⟨cid, hcid⟩ := storePiece_data_accepted h i (some offset) {} hpos hle
    obtain ⟨cids, hcids⟩ := ih (fun part hpart => hparts part (by simp [hpart])) (i + 1)
      (offset + part.length)
    refine ⟨cid :: cids, ?_⟩
    cases hrest : storage.storeParts (i + 1) (offset + part.length) parts with
    | mk outcome stores =>
      rw [hrest] at hcids
      obtain rfl : outcome = .resolved cids := hcids
      simp only [storeParts, hcid, hrest]

end FileStorage

end CereDdc
