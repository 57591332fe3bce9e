import CereDdc.StoredFile

/-!
# AcceptedFiles — files that go to nodes which accept

Whether a file is stored, what the nodes have of it then, and where its CID comes
from. The one file that nodes have nothing against and that is still refused is
the empty one.
-/

namespace CereDdc

open Kit

/-! ## Where a CID comes from -/

/-- A loop that resolves has an attempt that does. -/
theorem exists_attempt_of_retry {ε α β σ : Type*} {grants : Nat → Bool}
    {mainError : List ε → ε → ε} {body : Nat → β → σ → Attempt ε α × σ} {n : Nat}
    {errors : List ε} {bs : List β} {s : σ} {a : α}
    (h : (retry grants mainError body n errors bs s).1 = .resolved a) :
    ∃ n b s, b ∈ bs ∧ (body n b s).1 = .resolved a := by
  induction bs generalizing n errors s with
  | nil => cases h
  | cons b bs ih =>
    cases hb : body n b s with
    | mk result t =>
      cases result with
      | resolved a' =>
        rw [retry_resolved hb] at h
        cases h
        exact ⟨n, b, s, List.mem_cons_self, by rw [hb]⟩
      | bailed e =>
        rw [retry_bailed hb] at h
        cases h
      | failed e =>
        rw [retry_failed hb] at h
        split at h
        · obtain ⟨n', b', s', hmem, hresolved⟩ := ih h
          exact ⟨n', b', s', List.mem_cons_of_mem b hmem, hresolved⟩
        · cases h

/-- An attempt that resolves has a body that does. -/
theorem exists_body_of_attempt {α σ : Type} {correlationId : String}
    {getNode : List NodeId → Except JsError NodeId} {body : NodeId → σ → Except JsError α × σ}
    {s : RetryState × σ} {a : α}
    (h : (withRetryAttempt correlationId getNode body s).1 = .resolved a) :
    ∃ node s, (body node s).1 = .ok a := by
  unfold withRetryAttempt at h
  split at h
  · cases h
  · next node r _ =>
    split at h
    · next a' t hbody =>
      cases h
      exact ⟨node, s.2, by rw [hbody]⟩
    · split at h <;> cases h

theorem answered_result {nodeId : NodeId} {turn : Turn} {bucketId : Nat}
    {options : PieceStoreOptions} {info : RpcMeta} {request : RpcRequest} {answer cid : Cid}
    {reads : Reads} (h : (StorageNode.answered nodeId turn bucketId options info request answer
      reads).result = .ok cid) : cid = answer := by
  unfold StorageNode.answered at h
  dsimp only at h
  cases herror : (StorageNode.storeCnsRecord nodeId turn bucketId answer options).1 with
  | none =>
    rw [herror] at h
    exact (Except.ok.inj h).symm
  | some e =>
    rw [herror] at h
    cases h

/-- A node answers with a CID of its own. -/
theorem storePiece_result {nodeId : NodeId} {turn : Turn} {bucketId : Nat} {piece : StorablePiece}
    {options : PieceStoreOptions} {cid : Cid}
    (h : (StorageNode.storePiece nodeId turn bucketId piece options).result = .ok cid) :
    ∃ request, cid = turn.cidOf request := by
  unfold StorageNode.storePiece at h
  split at h
  · cases h
  · split at h
    · split at h
      · cases h
      · cases h
      · exact ⟨_, answered_result h⟩
    · split at h
      · cases h
      · split at h
        · cases h
        · cases h
        · exact ⟨_, answered_result h⟩

/-- The CID of a stored piece is one that a node answered with. -/
theorem exists_cidOf {retries : RetriesConfig} {package : AsyncRetry}
    {freshId : String} {turns : List Turn} {bucketId : Nat} {piece : StorablePiece}
    {options : PieceStoreOptions} {cid : Cid}
    (h : (BalancedNode.storePiece retries package freshId turns bucketId piece
      options).outcome = .resolved cid) :
    ∃ turn ∈ turns, ∃ request, cid = turn.cidOf request := by
  obtain ⟨n, turn, s, hmem, hattempt⟩ := exists_attempt_of_retry h
  obtain ⟨node, t, hbody⟩ := exists_body_of_attempt hattempt
  refine ⟨turn, hmem, ?_⟩
  unfold storeBody at hbody
  split at hbody
  · cases hbody
  · exact storePiece_result hbody

namespace FileStorage

variable {storage : FileStorage} {file : File} {options : FileStoreOptions} {chunks : List Bytes}
  {cid : Cid}

/-- The CID of a stored file is one that a node answered with. -/
theorem exists_cidOf_store (h : (storage.store file options).outcome = .resolved cid) :
    ∃ i, ∃ turn ∈ storage.turns i, ∃ request, cid = turn.cidOf request := by
  unfold store at h
  dsimp only at h
  split at h
  · cases h
  · split at h
    · unfold storeLarge at h
      dsimp only at h
      split at h
      · cases h
      · cases h
      · cases h
      · exact ⟨_, exists_cidOf h⟩
    · unfold storeSmall at h
      split at h
      · cases h
      · exact ⟨_, exists_cidOf h⟩

/-! ## The empty file -/

def emptyPieceError : JsError := .error "The piece size can not be determined"

/-- A piece without bytes is refused before a node is asked, and not tried again. -/
theorem storePiece_empty (h : storage.Accepts) (i : Nat) (offset : Option Nat)
    (options : PieceStoreOptions) :
    (storage.storePiece i (dataPiece [] offset) options).run.outcome
      = .rejected emptyPieceError := by
  obtain ⟨turn, turns, node, hturns, hnode, hfault⟩ := h i
  let piece := Piece.new (.uint8Array []) { multipartOffset := offset }
  have hclone : pieceForAttempt turn.pulls 1 (.piece piece) = .ok (.piece piece) := rfl
  have hstored : (StorageNode.storePiece node turn storage.bucketId (.piece piece)
      (withCorrelationId (storage.freshId i) options)).result = .error emptyPieceError := by
    simp only [StorageNode.storePiece, hfault, brokenAt]
    rfl
  obtain ⟨t, hbody⟩ : ∃ t, storeBody storage.bucketId
      (withCorrelationId (storage.freshId i) options) 1 turn node { piece := .piece piece }
        = (.error emptyPieceError, t) := by
    unfold storeBody
    rw [hclone]
    dsimp only
    rw [hstored]
    exact ⟨_, rfl⟩
  have hattempt : storeAttempt storage.bucketId
      (withCorrelationId (storage.freshId i) options)
      (orString options.correlationId (storage.freshId i)) 1 turn ({}, { piece := .piece piece })
        = (.bailed emptyPieceError, ({ exclude := [node] }, t)) := by
    simp only [storeAttempt, withRetryAttempt, pickNode, hnode, hbody]
    rfl
  simp only [storePiece, dataPiece, hturns, BalancedNode.storePiece]
  rw [retry_bailed hattempt]

/-! ## Files -/

theorem defaultPartSize_bounds (web : Bool) (options : PieceStoreOptions) :
    minPieceSize ≤ FileStoreOptions.partSize web { toPieceStoreOptions := options } ∧
      FileStoreOptions.partSize web { toPieceStoreOptions := options } ≤ maxPieceSize := by
  cases web with
  | true =>
    show minPieceSize ≤ defaultBufferSizeWeb ∧ defaultBufferSizeWeb ≤ maxPieceSize
    decide
  | false =>
    show minPieceSize ≤ defaultBufferSize ∧ defaultBufferSize ≤ maxPieceSize
    decide

/-- What the nodes have of a stored file are its bytes, in one piece or in parts. -/
theorem flatten_bodies_store {options : FileStoreOptions}
    (hmin : minPieceSize ≤ options.partSize storage.web)
    (hmax : options.partSize storage.web ≤ maxPieceSize) (hbody : file.body = { chunks })
    (h : (storage.store file options).outcome = .resolved cid) :
    (bodies (storage.store file options).stores).flatten = chunks.flatten := by
  have hp : 0 < options.partSize storage.web := Nat.lt_of_lt_of_le minPieceSize_pos hmin
  rw [FileStorage.store_eq (p := ⟨_, hp⟩) hmin hmax rfl] at h ⊢
  by_cases hlarge : options.partSize storage.web < file.size
  · rw [if_pos hlarge] at h ⊢
    rcases storeLarge_spec hbody with ⟨-, hnone⟩ | ⟨cids, hparts, -⟩
    · exact absurd h (hnone cid)
    · rw [hparts.bodies_eq, withChunkSize_flatten]
  · rw [if_neg hlarge, storeSmall, hbody] at h ⊢
    obtain ⟨-, hle, hstored⟩ := storage.storePiece_data h
    rw [bodies, hstored, List.map_singleton, dataCall_flatten hle, List.flatten_singleton]

/-- A file with content is stored, and what is stored of it are its bytes. -/
theorem store_accepts (h : storage.Accepts) (options : PieceStoreOptions)
    (hbody : file.body = { chunks }) (hsize : file.size = chunks.flatten.length)
    (hne : chunks.flatten ≠ []) :
    ∃ cid, (storage.store file { toPieceStoreOptions := options }).outcome = .resolved cid ∧
      (bodies (storage.store file { toPieceStoreOptions := options }).stores).flatten
        = chunks.flatten := by
  obtain ⟨hmin, hmax⟩ := defaultPartSize_bounds storage.web options
  obtain ⟨cid, hcid⟩ := store_accepted h hmin hmax hbody hsize
    (by rw [hsize]; exact List.length_pos_iff.mpr hne)
  exact ⟨cid, hcid, flatten_bodies_store hmin hmax hbody hcid⟩

/-- An empty file is refused. -/
theorem store_empty (h : storage.Accepts) {options : PieceStoreOptions}
    (hbody : file.body = { chunks }) (hsize : file.size = 0) (hempty : chunks.flatten = []) :
    (storage.store file { toPieceStoreOptions := options }).outcome
      = .rejected emptyPieceError := by
  obtain ⟨hmin, hmax⟩ := defaultPartSize_bounds storage.web options
  have hp : 0 < FileStoreOptions.partSize storage.web { toPieceStoreOptions := options } :=
    Nat.lt_of_lt_of_le minPieceSize_pos hmin
  rw [FileStorage.store_eq (p := ⟨_, hp⟩) hmin hmax rfl, if_neg (by omega), storeSmall, hbody]
  dsimp only
  rw [hempty]
  exact storePiece_empty h 0 none options

end FileStorage

end CereDdc
