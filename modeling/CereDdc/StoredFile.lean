import CereDdc.FileLayout

/-!
# StoredFile — the bytes of a file in its pieces

The layout `FileStorage.store` gives a file, and the part size it announces on
the wire.
-/

namespace CereDdc

open Kit

/-- What the nodes received of each stored raw piece. -/
def bodies (stores : List PieceStore) : List Bytes :=
  (storedPieces stores).map fun stored => stored.1.content.flatten

/-- A file in one raw piece. -/
structure SmallLayout (w : Bytes) (stores : List PieceStore) : Prop where
  single : bodies stores = [w]
  no_offset : ∀ stored ∈ storedPieces stores, stored.1.metadata.offset = none

/-- A file in parts of `p` bytes and a multipart piece over them. -/
structure LargeLayout (p : Nat) (w : Bytes) (stores : List PieceStore) : Prop where
  bodies_flatten : (bodies stores).flatten = w
  offset : ∀ (i : Nat) (hi : i < (storedPieces stores).length),
    ((storedPieces stores)[i]).1.metadata.offset = some (i * p)
  full : ∀ (i : Nat) (hi : i + 1 < (bodies stores).length), (bodies stores)[i].length = p
  last : ∃ b, (bodies stores).getLast? = some b ∧ 1 ≤ b.length ∧ b.length ≤ p
  multipart : stores.getLast?.map (·.piece) = some (.multipart
    (MultipartPiece.new ((storedPieces stores).map (·.2)) { partSize := p, totalSize := w.length }))

/-- Every stored raw piece is announced with its length, within the bounds of `putRawPiece`. -/
def Guarded (stores : List PieceStore) : Prop :=
  ∀ stored ∈ storedPieces stores, stored.1.metadata.size = stored.1.content.flatten.length
    ∧ 0 < stored.1.metadata.size ∧ stored.1.metadata.size ≤ maxPieceSize

/-- The part size of the request is that of the stored parts. -/
structure WireMatches (request : PutMultiPartPieceRequest) (stores : List PieceStore) : Prop where
  full : ∀ (i : Nat) (hi : i + 1 < (bodies stores).length),
    (bodies stores)[i].length = request.partSize
  offset : ∀ (i : Nat) (hi : i < (storedPieces stores).length),
    ((storedPieces stores)[i]).1.metadata.offset = some (i * request.partSize)
  count : request.partHashes.length
    = (request.totalSize + request.partSize - 1) / request.partSize

/-! ## The calls of the parts -/

section PartCalls

variable {bucketId : Nat} {parts : List Bytes}

theorem partCalls_length (offset : Nat) :
    (partCalls bucketId offset parts).length = parts.length := by
  induction parts generalizing offset with
  | nil => rfl
  | cons part parts ih => rw [partCalls, List.length_cons, List.length_cons, ih]

/-- Each part is stored at the number of bytes in front of it. -/
theorem partCalls_offset (offset i : Nat) (hi : i < (partCalls bucketId offset parts).length) :
    ((partCalls bucketId offset parts)[i]).metadata.offset
      = some (offset + (parts.take i).flatten.length) := by
  induction parts generalizing offset i with
  | nil => exact absurd hi (Nat.not_lt_zero i)
  | cons part parts ih =>
    cases i with
    | zero => rfl
    | succ i =>
      have hi' : i < (partCalls bucketId (offset + part.length) parts).length := by
        simpa [partCalls] using hi
      have hrest := ih (offset + part.length) i hi'
      simp only [partCalls, List.getElem_cons_succ, List.take_succ_cons, List.flatten_cons,
        List.length_append] at hrest ⊢
      rw [hrest, Nat.add_assoc]

theorem partCalls_bodies (offset : Nat) (h : ∀ part ∈ parts, part.length ≤ maxPieceSize) :
    (partCalls bucketId offset parts).map (·.content.flatten) = parts := by
  induction parts generalizing offset with
  | nil => rfl
  | cons part parts ih =>
    rw [partCalls, List.map_cons, dataCall_flatten (h part (by simp)),
      ih _ (fun part hpart => h part (by simp [hpart]))]

theorem partCalls_size (offset : Nat) (h : ∀ part ∈ parts, part.length ≤ maxPieceSize) :
    ∀ call ∈ partCalls bucketId offset parts, call.content.flatten ∈ parts
      ∧ call.metadata.size = call.content.flatten.length := by
  induction parts generalizing offset with
  | nil => simp [partCalls]
  | cons part parts ih =>
    intro call hcall
    rw [partCalls] at hcall
    rcases List.mem_cons.mp hcall with rfl | hcall
    · rw [dataCall_flatten (h part (by simp))]
      exact ⟨by simp, rfl⟩
    · obtain ⟨hmem, hsize⟩ := ih _ (fun part hpart => h part (by simp [hpart])) call hcall
      exact ⟨List.mem_cons_of_mem _ hmem, hsize⟩

end PartCalls

/-! ## Files in parts -/

section Parts

variable {bucketId : Nat} {p : ChunkSize} {chunks : List Bytes} {stores : List PieceStore}

/-- The stored pieces are the blocks of the file, in order. -/
structure PartsStored (bucketId : Nat) (p : ChunkSize) (chunks : List Bytes)
    (stores : List PieceStore) : Prop where
  calls : (storedPieces stores).map Prod.fst = partCalls bucketId 0 (withChunkSize p chunks)
  le : ∀ part ∈ withChunkSize p chunks, part.length ≤ maxPieceSize

namespace PartsStored

theorem bodies_eq (h : PartsStored bucketId p chunks stores) :
    bodies stores = withChunkSize p chunks := by
  rw [← partCalls_bodies 0 h.le, ← h.calls, List.map_map]
  rfl

theorem offset (h : PartsStored bucketId p chunks stores) (i : Nat)
    (hi : i < (storedPieces stores).length) :
    ((storedPieces stores)[i]).1.metadata.offset = some (i * p) := by
  have hlen : (storedPieces stores).length = (withChunkSize p chunks).length := by
    rw [← List.length_map (f := Prod.fst), h.calls, partCalls_length]
  have hcall : i < (partCalls bucketId 0 (withChunkSize p chunks)).length := by
    rw [partCalls_length, ← hlen]
    exact hi
  have heq : ((storedPieces stores)[i]).1 = (partCalls bucketId 0 (withChunkSize p chunks))[i] := by
    rw [← List.getElem_of_eq h.calls (by rw [List.length_map]; exact hi), List.getElem_map]
  rw [heq, partCalls_offset 0 i hcall, Nat.zero_add,
    (withChunkSize_blocks p chunks).offset (by rw [← hlen]; exact hi)]

theorem full (h : PartsStored bucketId p chunks stores) (i : Nat)
    (hi : i + 1 < (bodies stores).length) : (bodies stores)[i].length = p := by
  have hblock : ∀ (l : List Bytes), l = withChunkSize p chunks → ∀ (hi : i + 1 < l.length),
      l[i].length = p := by
    intro l hl hi
    subst hl
    exact (withChunkSize_blocks p chunks).getElem_length (by omega) hi
  exact hblock _ h.bodies_eq hi

theorem last (h : PartsStored bucketId p chunks stores) (hne : 0 < chunks.flatten.length) :
    ∃ b, (bodies stores).getLast? = some b ∧ 1 ≤ b.length ∧ b.length ≤ p := by
  rw [h.bodies_eq]
  have hblocks : withChunkSize p chunks ≠ [] := by
    intro hnil
    have hflat := withChunkSize_flatten p chunks
    rw [hnil] at hflat
    rw [← hflat] at hne
    exact absurd hne (Nat.lt_irrefl 0)
  refine ⟨(withChunkSize p chunks).getLast hblocks, List.getLast?_eq_some_getLast hblocks, ?_, ?_⟩
  · exact (withChunkSize_blocks p chunks).length_pos_of_mem p.2 (List.getLast_mem hblocks)
  · exact (withChunkSize_blocks p chunks).length_le_of_mem (List.getLast_mem hblocks)

theorem guarded (h : PartsStored bucketId p chunks stores) : Guarded stores := by
  intro stored hstored
  have hmem : stored.1 ∈ partCalls bucketId 0 (withChunkSize p chunks) := by
    rw [← h.calls]
    exact List.mem_map_of_mem hstored
  obtain ⟨hpart, hsize⟩ := partCalls_size 0 h.le _ hmem
  refine ⟨hsize, ?_, ?_⟩
  · rw [hsize]
    exact (withChunkSize_blocks p chunks).length_pos_of_mem p.2 hpart
  · rw [hsize]
    exact h.le _ hpart

end PartsStored

end Parts

namespace FileStorage

variable {storage : FileStorage} {file : File} {options : PieceStoreOptions} {p : ChunkSize}
  {chunks : List Bytes}

/-- A file in parts gets to its multipart piece only when all parts are stored, and then sends
the multipart request that goes with their CIDs. -/
theorem storeLarge_spec (hbody : file.body = { chunks }) :
    let run := storage.storeLarge p file options
    (multipartRequests run.stores = [] ∧ ∀ cid, run.outcome ≠ .resolved cid)
      ∨ ∃ cids,
        PartsStored storage.bucketId p chunks run.stores
          ∧ (storedPieces run.stores).map Prod.snd = cids
          ∧ run.stores.getLast?.map (·.piece) = some (.multipart
            (MultipartPiece.new cids { partSize := p, totalSize := file.size }))
          ∧ ∀ request ∈ multipartRequests run.stores, request = multipartRequest
            ((MultipartPiece.new cids { partSize := p, totalSize := file.size }).storeRequest
              storage.bucketId) := by
  intro run
  have hrun : run = storage.storeLarge p file options := rfl
  have hrequests := storage.storeParts_requests (withChunkSize p chunks) 0 0
  rw [storeLarge, hbody, StreamBody.withChunkSize_ended] at hrun
  cases hparts : storage.storeParts 0 0 (withChunkSize p chunks) with
  | mk outcome stores =>
    rw [hparts] at hrequests
    cases outcome with
    | pending =>
      simp only [hparts] at hrun
      exact .inl ⟨by rw [hrun]; exact hrequests, fun cid h => by rw [hrun] at h; cases h⟩
    | rejected e =>
      simp only [hparts] at hrun
      exact .inl ⟨by rw [hrun]; exact hrequests, fun cid h => by rw [hrun] at h; cases h⟩
    | resolved cids =>
      obtain ⟨hcalls, hcids, hle⟩ := storage.storeParts_resolved hparts
      simp only [hparts] at hrun
      -- the call of the multipart piece stores no raw piece
      have hstored : storedPieces run.stores = storedPieces stores := by
        rw [hrun, storedPieces_append, storedPieces_multipart, List.append_nil]
      refine .inr ⟨cids, ⟨?_, hle⟩, ?_, ?_, ?_⟩
      · rw [hstored, hcalls]
      · rw [hstored, hcids]
      · rw [hrun, List.getLast?_append_of_ne_nil _ (List.cons_ne_nil _ _)]
        rfl
      · have hmultipart : multipartRequests stores = [] := hrequests
        rw [hrun, multipartRequests_append, hmultipart, List.nil_append]
        exact storage.multipartRequests_multipart _ _ _

/-- What `store` comes to for a part size it accepts. -/
theorem store_eq {options : FileStoreOptions} (hmin : minPieceSize ≤ options.partSize storage.web)
    (hmax : options.partSize storage.web ≤ maxPieceSize)
    (hp : (p : Nat) = options.partSize storage.web) :
    storage.store file options =
      if options.partSize storage.web < file.size then
        storage.storeLarge p file options.toPieceStoreOptions
      else storage.storeSmall file options.toPieceStoreOptions := by
  obtain ⟨n, hn⟩ := p
  obtain rfl : n = options.partSize storage.web := hp
  rw [store]
  exact dif_neg (by omega)

end FileStorage

/-! ## The layout of a stored file -/

/-- **A stored file is whole**: if `store` resolves, the stored raw pieces are the file, in one
piece or in parts of the buffer size, and the multipart piece lists the parts. -/
theorem store_layout (storage : FileStorage) (file : File) (options : FileStoreOptions)
    (chunks : List Bytes) (cid : Cid) (hbody : file.body = { chunks })
    (hsize : file.size = chunks.flatten.length)
    (h : (storage.store file options).outcome = .resolved cid) :
    (if chunks.flatten.length ≤ options.partSize storage.web then
        SmallLayout chunks.flatten (storage.store file options).stores
      else
        LargeLayout (options.partSize storage.web) chunks.flatten
          (storage.store file options).stores)
      ∧ Guarded (storage.store file options).stores := by
  by_cases hrange : maxPieceSize < options.partSize storage.web
      ∨ options.partSize storage.web < minPieceSize
  · rw [FileStorage.store, dif_pos hrange] at h
    cases h
  · have hpos := minPieceSize_pos
    rw [FileStorage.store_eq (p := ⟨options.partSize storage.web, by omega⟩) (by omega) (by omega)
      rfl] at h ⊢
    by_cases hlarge : options.partSize storage.web < file.size
    · rw [if_pos hlarge] at h ⊢
      rw [if_neg (by omega)]
      rcases FileStorage.storeLarge_spec hbody with ⟨_, hnone⟩ | ⟨cids, hparts, hcids, hlast, _⟩
      · exact absurd h (hnone cid)
      · refine ⟨⟨?_, hparts.offset, hparts.full, hparts.last (by omega), ?_⟩, hparts.guarded⟩
        · rw [hparts.bodies_eq, withChunkSize_flatten]
        · rw [hlast, hcids, hsize]
    · rw [if_neg hlarge] at h ⊢
      rw [if_pos (by omega)]
      rw [FileStorage.storeSmall, hbody] at h ⊢
      obtain ⟨hdata, hle, hstored⟩ := storage.storePiece_data h
      refine ⟨⟨?_, ?_⟩, ?_⟩
      · rw [bodies, hstored, List.map_singleton, dataCall_flatten hle]
      · rw [hstored]
        simp [dataCall, acceptedCall]
      · intro stored hmem
        rw [hstored] at hmem
        rw [List.mem_singleton.mp hmem, dataCall_flatten hle]
        exact ⟨rfl, hdata, hle⟩

/-! ## The part size on the wire -/

theorem ceilToPowerOf2_eq_self_iff {n : Nat} (hn : 0 < n) :
    ceilToPowerOf2 n = n ↔ ∃ k, n = 2 ^ k := by
  rw [ceilToPowerOf2, if_neg (by omega)]
  constructor
  · intro h
    exact ⟨Nat.clog 2 n, h.symm⟩
  · rintro ⟨k, rfl⟩
    rw [Nat.clog_pow 2 k (by omega)]

/-- With more than one part, the request has the part size of the stored parts if and only if
that is a power of two. -/
theorem PartsStored.wireMatches_iff {bucketId : Nat} {p : ChunkSize} {chunks : List Bytes}
    {stores : List PieceStore} {cids : List Cid} (h : PartsStored bucketId p chunks stores)
    (hcids : (storedPieces stores).map Prod.snd = cids) (hlarge : p < chunks.flatten.length) :
    WireMatches (multipartRequest ((MultipartPiece.new cids
        { partSize := p, totalSize := chunks.flatten.length }).storeRequest bucketId)) stores ↔
      ∃ k, (p : Nat) = 2 ^ k := by
  rw [← ceilToPowerOf2_eq_self_iff p.2]
  have hblocks := withChunkSize_blocks p chunks
  have hlen : (bodies stores).length = (withChunkSize p chunks).length := by rw [h.bodies_eq]
  constructor
  · intro hwire
    -- there are two parts at least, and the first of them is full
    have hone : 0 + 1 < (bodies stores).length := by
      rw [hlen]
      exact hblocks.one_lt_length (by rw [withChunkSize_flatten]; exact hlarge)
    have hpart := h.full 0 hone
    rw [hwire.full 0 hone] at hpart
    exact hpart
  · intro hceil
    have hsize : (multipartRequest ((MultipartPiece.new cids
        { partSize := p, totalSize := chunks.flatten.length }).storeRequest bucketId)).partSize
        = p := hceil
    refine ⟨?_, ?_, ?_⟩
    · rw [hsize]
      exact h.full
    · rw [hsize]
      exact h.offset
    · rw [hsize]
      have hcount := hblocks.length_eq p.2
      rw [withChunkSize_flatten] at hcount
      show (cids.map Cid.contentHash).length = (chunks.flatten.length + p - 1) / p
      rw [List.length_map, ← hcids, List.length_map, ← hcount, ← hlen, bodies, List.length_map]

/-- **The part size on the wire** is that of the stored parts exactly if the buffer size is a
power of two. -/
theorem store_wireMatches_iff (storage : FileStorage) (file : File) (options : FileStoreOptions)
    (chunks : List Bytes) (request : PutMultiPartPieceRequest) (hbody : file.body = { chunks })
    (hsize : file.size = chunks.flatten.length) (hlarge : options.partSize storage.web < file.size)
    (hrequest : request ∈ multipartRequests (storage.store file options).stores) :
    WireMatches request (storage.store file options).stores ↔
      ∃ k, options.partSize storage.web = 2 ^ k := by
  by_cases hrange : maxPieceSize < options.partSize storage.web
      ∨ options.partSize storage.web < minPieceSize
  · rw [FileStorage.store, dif_pos hrange] at hrequest
    cases hrequest
  · have hpos := minPieceSize_pos
    rw [FileStorage.store_eq (p := ⟨options.partSize storage.web, by omega⟩) (by omega) (by omega)
      rfl, if_pos hlarge] at hrequest ⊢
    rcases FileStorage.storeLarge_spec hbody with ⟨hnil, _⟩ | ⟨cids, hparts, hcids, _, hrequests⟩
    · rw [hnil] at hrequest
      cases hrequest
    · rw [hrequests request hrequest, hsize]
      exact hparts.wireMatches_iff hcids (by rw [← hsize]; exact hlarge)

/-! ## Nodes that accept -/

section Accepted

variable {storage : FileStorage} {file : File} {options : FileStoreOptions} {chunks : List Bytes}

/-- Where the nodes accept, a large file gets to its multipart request. -/
theorem storeLarge_accepted (h : storage.Accepts) (p : ChunkSize) (hp : p ≤ maxPieceSize)
    (hbody : file.body = { chunks }) (options : PieceStoreOptions) :
    (∃ cid, (storage.storeLarge p file options).outcome = .resolved cid)
      ∧ ∃ request, request ∈ multipartRequests (storage.storeLarge p file options).stores := by
  have hblocks := withChunkSize_blocks p chunks
  obtain ⟨cids, hcids⟩ := FileStorage.storeParts_accepted h (withChunkSize p chunks)
    (fun part hpart => ⟨hblocks.length_pos_of_mem p.2 hpart,
      Nat.le_trans (hblocks.length_le_of_mem hpart) hp⟩) 0 0
  cases hparts : storage.storeParts 0 0 (withChunkSize p chunks) with
  | mk outcome stores =>
    rw [hparts] at hcids
    obtain rfl : outcome = .resolved cids := hcids
    obtain ⟨houtcome, hrequest⟩ := FileStorage.storePiece_multipart_accepted h stores.length
      (MultipartPiece.new cids { partSize := p, totalSize := file.size }) options
    rw [FileStorage.storeLarge, hbody, StreamBody.withChunkSize_ended]
    simp only [hparts]
    have hmem := List.mem_append_right (multipartRequests stores) hrequest
    rw [← multipartRequests_append] at hmem
    exact ⟨houtcome, _, hmem⟩

/-- **A file is stored** where the nodes accept, if it is not empty and the buffer size is one
the storage allows. -/
theorem store_accepted (h : storage.Accepts) (hmin : minPieceSize ≤ options.partSize storage.web)
    (hmax : options.partSize storage.web ≤ maxPieceSize) (hbody : file.body = { chunks })
    (hsize : file.size = chunks.flatten.length) (hpos : 0 < file.size) :
    ∃ cid, (storage.store file options).outcome = .resolved cid := by
  have hp : 0 < options.partSize storage.web := Nat.lt_of_lt_of_le minPieceSize_pos hmin
  rw [FileStorage.store_eq (p := ⟨_, hp⟩) hmin hmax rfl]
  by_cases hlarge : options.partSize storage.web < file.size
  · rw [if_pos hlarge]
    exact (storeLarge_accepted h ⟨_, hp⟩ hmax hbody _).1
  · rw [if_neg hlarge, FileStorage.storeSmall, hbody]
    dsimp only
    exact FileStorage.storePiece_data_accepted h 0 none _ (by omega) (by omega)

end Accepted

/-- A storage over nodes that accept. -/
def plainStorage : FileStorage where
  web := false
  retries := .unset
  package := plainRetry
  bucketId := 1
  freshId _ := "id"
  turns _ := [plainTurn none]

theorem plainStorage_accepts : plainStorage.Accepts :=
  fun _ => ⟨plainTurn none, [], "node", rfl, rfl, rfl⟩

/-- A file of `n` zero bytes, given in one chunk. -/
def zeroFile (n : Nat) : File := ⟨{ chunks := [List.replicate n 0] }, n⟩

theorem zeroFile_size (n : Nat) :
    (zeroFile n).size = [List.replicate n (0 : UInt8)].flatten.length := by
  rw [List.flatten_singleton, List.length_replicate]
  rfl

theorem partSize_some (web : Bool) {p : Nat} (hmin : minPieceSize ≤ p) :
    ({ maxBufferSize := some p } : FileStoreOptions).partSize web = p :=
  if_neg (Nat.ne_of_gt (Nat.lt_of_lt_of_le minPieceSize_pos hmin))

/-- A file of more than one part is stored, with a multipart request. -/
theorem zeroFile_stored {n p : Nat} (hmin : minPieceSize ≤ p) (hmax : p ≤ maxPieceSize)
    (hlarge : p < n) :
    (∃ cid, (plainStorage.store (zeroFile n) { maxBufferSize := some p }).outcome = .resolved cid)
      ∧ ∃ request, request ∈ multipartRequests
        (plainStorage.store (zeroFile n) { maxBufferSize := some p }).stores := by
  have hp : 0 < p := Nat.lt_of_lt_of_le minPieceSize_pos hmin
  have hsize : ({ maxBufferSize := some p } : FileStoreOptions).partSize plainStorage.web = p :=
    partSize_some plainStorage.web hmin
  rw [FileStorage.store_eq (p := ⟨p, hp⟩) (by rw [hsize]; exact hmin) (by rw [hsize]; exact hmax)
    hsize.symm, if_pos (by rw [hsize]; exact hlarge)]
  exact storeLarge_accepted plainStorage_accepts ⟨p, hp⟩ hmax rfl {}

theorem zeroFile_layout :
    LargeLayout minPieceSize [List.replicate (2 * minPieceSize + 1) 0].flatten
        (plainStorage.store (zeroFile (2 * minPieceSize + 1))
          { maxBufferSize := some minPieceSize }).stores := by
  have hlarge : minPieceSize < 2 * minPieceSize + 1 := by omega
  generalize 2 * minPieceSize + 1 = n at hlarge
  obtain ⟨⟨cid, hcid⟩, _⟩ := zeroFile_stored (Nat.le_refl _) (by decide) hlarge
  obtain ⟨h, _⟩ := store_layout plainStorage (zeroFile n) { maxBufferSize := some minPieceSize }
    [List.replicate n 0] cid rfl (zeroFile_size n) hcid
  have hnot : ¬ (zeroFile n).size ≤ minPieceSize := Nat.not_le_of_gt hlarge
  rw [partSize_some plainStorage.web (Nat.le_refl _), ← zeroFile_size, if_neg hnot] at h
  exact h

theorem ceilToPowerOf2_five_mb : ceilToPowerOf2 (5 * mb) = 8 * mb := by
  have hclog : Nat.clog 2 (5 * mb) = 23 := by
    apply Nat.le_antisymm
    · exact (Nat.clog_le_iff_le_pow (by decide)).mpr (by decide)
    · exact (Nat.lt_clog_iff_pow_lt (by decide)).mpr (by decide)
  rw [ceilToPowerOf2, hclog]
  decide

/-- With a buffer of 5 MB and a file of one byte more, the request announces parts of 8 MB. -/
theorem zeroFile_wireMismatch :
    ∃ request ∈ multipartRequests (plainStorage.store (zeroFile (5 * mb + 1))
        { maxBufferSize := some (5 * mb) }).stores,
      request.partSize = 8 * mb
        ∧ ¬ WireMatches request (plainStorage.store (zeroFile (5 * mb + 1))
          { maxBufferSize := some (5 * mb) }).stores := by
  have hmin : minPieceSize ≤ 5 * mb := by decide
  have hmax : 5 * mb ≤ maxPieceSize := by decide
  have hp : 0 < 5 * mb := by decide
  have hlarge : 5 * mb < 5 * mb + 1 := Nat.lt_succ_self _
  obtain ⟨_, request, hrequest⟩ := zeroFile_stored hmin hmax hlarge
  have hsize := partSize_some plainStorage.web hmin
  rw [FileStorage.store_eq (p := ⟨5 * mb, hp⟩) (by rw [hsize]; exact hmin)
    (by rw [hsize]; exact hmax) hsize.symm, if_pos (by rw [hsize]; exact hlarge)] at hrequest ⊢
  have hbody : (zeroFile (5 * mb + 1)).body = { chunks := [List.replicate (5 * mb + 1) 0] } := rfl
  rcases FileStorage.storeLarge_spec hbody with
    ⟨hnil, _⟩ | ⟨cids, hparts, hcids, _, hrequests⟩
  · rw [hnil] at hrequest
    cases hrequest
  · have heq := hrequests request hrequest
    refine ⟨request, hrequest, ?_, ?_⟩
    · rw [heq]
      exact ceilToPowerOf2_five_mb
    · rw [heq, zeroFile_size]
      intro hwire
      obtain ⟨k, hk⟩ :=
        (hparts.wireMatches_iff hcids (by rw [← zeroFile_size]; exact hlarge)).mp hwire
      have hceil := (ceilToPowerOf2_eq_self_iff hp).mpr ⟨k, hk⟩
      rw [ceilToPowerOf2_five_mb] at hceil
      revert hceil
      decide

/-- With the smallest buffer size, a power of two, the request is right. -/
theorem zeroFile_wireMatches :
    ∃ request ∈ multipartRequests (plainStorage.store (zeroFile (2 * minPieceSize + 1))
        { maxBufferSize := some minPieceSize }).stores,
      WireMatches request (plainStorage.store (zeroFile (2 * minPieceSize + 1))
        { maxBufferSize := some minPieceSize }).stores := by
  have hlarge : minPieceSize < 2 * minPieceSize + 1 := by omega
  generalize 2 * minPieceSize + 1 = n at hlarge
  obtain ⟨_, request, hrequest⟩ := zeroFile_stored (Nat.le_refl _) (by decide) hlarge
  have hsize := partSize_some plainStorage.web (Nat.le_refl minPieceSize)
  refine ⟨request, hrequest, ?_⟩
  refine (store_wireMatches_iff plainStorage (zeroFile n) { maxBufferSize := some minPieceSize }
    [List.replicate n 0] request rfl (zeroFile_size n) (by rw [hsize]; exact hlarge)
    hrequest).mpr ?_
  exact ⟨22, by rw [hsize]; decide⟩

end CereDdc
