import CereDdc.Uploads

/-!
# RetriedContent — what the failed attempts leave of the content

`uploads` for each kind of content: content that starts afresh, a stream of the
platform, a content stream, a one-shot iterator. The failed attempts in front of
the attempt that is accepted decide what that attempt has left to send.
-/

namespace CereDdc

/-- A failed attempt on a node. -/
structure FailedAttempt extends Fault where
  pulls : PullOrder
  deriving DecidableEq, Repr

/-- The first attempt that nothing breaks, with the failures in front of it. -/
structure AcceptedAttempt where
  failures : List FailedAttempt
  pulls : PullOrder
  deriving DecidableEq, Repr

/-- The accepted one of the attempts, if all failures in front of it may be retried. -/
def acceptedAttempt : List NodeAttempt → Option AcceptedAttempt
  | [] => none
  | ⟨none, pulls⟩ :: _ => some ⟨[], pulls⟩
  | ⟨some f, pulls⟩ :: attempts =>
    if f.error.isRetryable then
      (acceptedAttempt attempts).map fun accepted =>
        { accepted with failures := ⟨f, pulls⟩ :: accepted.failures }
    else none

/-- The chunks the failed attempts leave in an unlocked content stream; `none` when one of them
leaves it locked. -/
def streamAfter : List Bytes → List FailedAttempt → Option (List Bytes)
  | rest, [] => some rest
  | rest, f :: failures =>
    if f.beforeContent then streamAfter rest failures
    else
      let reads := (sendContent (contentLimit (some f.toFault)) 0 rest).reads
      if reads.holdsLock then none else streamAfter (rest.drop reads.count) failures

/-- The chunks a failed attempt leaves in a one-shot iterator: the older streams have pulled
theirs, and the clone of the attempt what was read of it. -/
def FailedAttempt.leaves (f : FailedAttempt) (rest : List Bytes) : List Bytes :=
  let left := f.pulls.left rest
  if f.beforeContent then left
  else
    let reads :=
      (sendContent (contentLimit (some f.toFault)) 0 (withChunkSize defaultChunkSize left)).reads
    if reads.sawEnd then [] else left.drop (chunksFor defaultChunkSize reads.count none left)

/-- The chunks the failed attempts leave in a one-shot iterator. -/
def iteratorAfter : List Bytes → List FailedAttempt → List Bytes
  | rest, [] => rest
  | rest, f :: failures => iteratorAfter (f.leaves rest) failures

/-- What the streams made before the last one pull out of an iterator that no attempt has read:
`orders` are the pulls in the time of each clone. -/
def takenByOlder : List PullOrder → List Bytes → List Bytes
  | [], _ => []
  | order :: orders, rest => order.taken rest ++ takenByOlder orders (order.left rest)

section Kinds

variable {bucketId size : Nat} {info : PieceMeta}

/-! ## Content that starts afresh -/

section Restartable

variable {content : Content}

theorem contentAfter_restartable (h : content.Restartable) (reads : Reads) :
    (Piece.new content info).contentAfter reads = content := by
  cases content with
  | uint8Array data => rfl
  | iterable chunks => rfl
  | iterator => exact h.elim
  | inputStream => exact h.elim
  | contentStream => exact h.elim

theorem isContentStream_restartable (h : content.Restartable) :
    content.isContentStream = false := by
  cases content with
  | contentStream => exact h.elim
  | _ => rfl

theorem leftBy_restartable (h : content.Restartable) (order : PullOrder) :
    content.leftBy order = content := by
  cases content with
  | iterator => exact h.elim
  | _ => rfl

/-- Every attempt has the whole content to send, whatever the attempts before it did. -/
theorem uploads_restartable (h : content.Restartable)
    (hsize : getContentSize content info.size = some size) (hpos : 0 < size)
    (hle : size ≤ maxPieceSize) (attempts : List NodeAttempt) :
    uploads bucketId info content attempts =
      (acceptedAttempt attempts).map fun _ =>
        acceptedCall bucketId size info.multipartOffset
          (withChunkSize defaultChunkSize content.chunks) := by
  have hread := (Piece.new_restartable info h).2
  have hlen : (Piece.new content info).contentLength = some size := hsize
  induction attempts with
  | nil => rfl
  | cons attempt attempts ih =>
    have hlocked : (content.isContentStream && content.locked) = false := by
      rw [isContentStream_restartable h]
      rfl
    have hleft := leftBy_restartable h attempt.pulls
    obtain ⟨fault, pulls⟩ := attempt
    cases fault with
    | none =>
      exact uploads_answered hlocked (by rw [hleft]; exact rawUpload_none hlen hpos hle hread)
    | some f =>
      obtain ⟨reads, hraw⟩ : ∃ reads, rawUpload (some f) bucketId
          (Piece.new content info) = (.error f.error, reads) := by
        cases hf : f.beforeContent with
        | true => exact ⟨_, rawUpload_beforeContent hlen hpos hle hf⟩
        | false => exact ⟨_, rawUpload_afterContent hlen hpos hle hread hf⟩
      rw [uploads_failed hlocked (by rw [hleft]; exact hraw), hleft, contentAfter_restartable h, ih,
        acceptedAttempt]
      by_cases hret : f.error.isRetryable
      · simp [hret, Option.map_map, Function.comp_def]
      · simp [hret]

end Restartable

/-! ## Streams of the platform -/

/-- The body of the first piece holds the lock, so no clone can read the stream. -/
theorem uploads_inputStream (rest : List Bytes) (attempts : List NodeAttempt) :
    uploads bucketId info (.inputStream rest true) attempts = none := by
  have hread : (Piece.new (.inputStream rest true) info).read = .error readLocked := rfl
  induction attempts with
  | nil => rfl
  | cons attempt attempts ih =>
    obtain ⟨e, hraw⟩ := rawUpload_unreadable bucketId attempt.fault hread
    rw [uploads_failed rfl hraw]
    by_cases hret : e.isRetryable
    · rw [if_pos hret]
      exact ih
    · rw [if_neg hret]

/-! ## Content streams -/

/-- The accepted attempt has what the failed ones leave in the stream. -/
theorem uploads_contentStream (hsize : info.size = some size) (hpos : 0 < size)
    (hle : size ≤ maxPieceSize) (rest : List Bytes) (attempts : List NodeAttempt) :
    uploads bucketId info (.contentStream rest false) attempts =
      ((acceptedAttempt attempts).bind fun accepted => streamAfter rest accepted.failures).map
        (acceptedCall bucketId size info.multipartOffset) := by
  induction attempts generalizing rest with
  | nil => rfl
  | cons attempt attempts ih =>
    have hlen : (Piece.new (.contentStream rest false) info).contentLength = some size := hsize
    have hread : (Piece.new (.contentStream rest false) info).read = .ok rest := rfl
    obtain ⟨fault, pulls⟩ := attempt
    cases fault with
    | none => exact uploads_answered rfl (rawUpload_none hlen hpos hle hread)
    | some f =>
      rw [acceptedAttempt]
      cases hf : f.beforeContent with
      | true =>
        -- nothing was read, the next clone finds the stream as it was
        have hafter : ∀ failures, streamAfter rest (⟨f, pulls⟩ :: failures)
            = streamAfter rest failures := by
          intro failures
          simp [streamAfter, hf]
        rw [uploads_failed rfl (rawUpload_beforeContent hlen hpos hle hf)]
        by_cases hret : f.error.isRetryable
        · rw [if_pos hret, if_pos hret, Option.bind_map]
          simp only [Function.comp_def, hafter]
          exact ih rest
        · rw [if_neg hret, if_neg hret]
          rfl
      | false =>
        rw [uploads_failed rfl (rawUpload_afterContent hlen hpos hle hread hf)]
        by_cases hret : f.error.isRetryable
        · rw [if_pos hret, if_pos hret, Option.bind_map]
          show uploads bucketId info (.contentStream (rest.drop _) (false || _)) attempts = _
          rw [Bool.false_or]
          cases hlock : (sendContent (contentLimit (some f)) 0 rest).reads.holdsLock with
          | true =>
            -- the reader was never released, so the next clone is refused
            have hafter : ∀ failures, streamAfter rest (⟨f, pulls⟩ :: failures) = none := by
              intro failures
              simp [streamAfter, hf, hlock]
            simp only [Function.comp_def, hafter]
            rw [uploads_locked rfl]
            simp
          | false =>
            have hafter : ∀ failures, streamAfter rest (⟨f, pulls⟩ :: failures) = streamAfter
                (rest.drop (sendContent (contentLimit (some f)) 0 rest).reads.count) failures := by
              intro failures
              simp [streamAfter, hf, hlock]
            simp only [Function.comp_def, hafter]
            exact ih _
        · rw [if_neg hret, if_neg hret]
          rfl

/-! ## One-shot iterators -/

theorem contentAfter_iterator (rest : List Bytes) (reads : Reads) :
    (Piece.new (.iterator rest) info).contentAfter reads =
      .iterator (if reads.sawEnd then []
        else rest.drop (chunksFor defaultChunkSize reads.count none rest)) := by
  show (if reads.sawEnd then Content.iterator []
    else .iterator (rest.drop (chunksFor defaultChunkSize reads.count none rest))) = _
  by_cases h : reads.sawEnd
  · rw [if_pos h, if_pos h]
  · rw [if_neg h, if_neg h]

/-- The accepted attempt has what the failed ones and the older streams leave in the iterator. -/
theorem uploads_iterator (hsize : info.size = some size) (hpos : 0 < size)
    (hle : size ≤ maxPieceSize) (rest : List Bytes) (attempts : List NodeAttempt) :
    uploads bucketId info (.iterator rest) attempts =
      (acceptedAttempt attempts).map fun accepted =>
        acceptedCall bucketId size info.multipartOffset
          (withChunkSize defaultChunkSize
            (accepted.pulls.left (iteratorAfter rest accepted.failures))) := by
  induction attempts generalizing rest with
  | nil => rfl
  | cons attempt attempts ih =>
    obtain ⟨fault, pulls⟩ := attempt
    have hlen : (Piece.new (.iterator (pulls.left rest)) info).contentLength = some size := hsize
    have hread : (Piece.new (.iterator (pulls.left rest)) info).read
        = .ok (withChunkSize defaultChunkSize (pulls.left rest)) := rfl
    cases fault with
    | none => exact uploads_answered rfl (rawUpload_none hlen hpos hle hread)
    | some f =>
      -- both kinds of failure leave an iterator, with more or fewer chunks gone
      obtain ⟨reads, hraw, hafter⟩ : ∃ reads,
          rawUpload (some f) bucketId (Piece.new (.iterator (pulls.left rest)) info)
            = (.error f.error, reads)
          ∧ (if reads.sawEnd then [] else (pulls.left rest).drop
              (chunksFor defaultChunkSize reads.count none (pulls.left rest)))
            = FailedAttempt.leaves ⟨f, pulls⟩ rest := by
        cases hf : f.beforeContent with
        | true =>
          refine ⟨_, rawUpload_beforeContent hlen hpos hle hf, ?_⟩
          simp [FailedAttempt.leaves, hf, chunksFor]
        | false =>
          refine ⟨_, rawUpload_afterContent hlen hpos hle hread hf, ?_⟩
          simp [FailedAttempt.leaves, hf]
      have hleft : (Content.iterator rest).leftBy pulls = .iterator (pulls.left rest) := rfl
      rw [acceptedAttempt, uploads_failed rfl hraw, hleft, contentAfter_iterator, hafter]
      by_cases hret : f.error.isRetryable
      · rw [if_pos hret, if_pos hret, ih, Option.map_map]
        rfl
      · rw [if_neg hret, if_neg hret]
        rfl

end Kinds

/-! ## What is lost -/

section Lost

variable {limit : Option Nat} {bytesSent : Nat} {values : List Bytes}

/-- A loop that is not broken off has read everything but empty chunks. -/
theorem sendContent_drained (h : bytesSent + values.flatten.length ≤ maxPieceSize)
    (hlock : (sendContent limit bytesSent values).reads.holdsLock = false) :
    (values.drop (sendContent limit bytesSent values).reads.count).flatten = [] := by
  induction values generalizing limit bytesSent with
  | nil => simp
  | cons value values ih =>
    simp only [List.flatten_cons, List.length_append] at h
    unfold sendContent at hlock ⊢
    by_cases hlt : bytesSent < maxPieceSize
    · simp only [if_pos hlt] at hlock ⊢
      by_cases hlim : limit = some 0
      · simp [hlim] at hlock
      · simp only [if_neg hlim, List.drop_succ_cons] at hlock ⊢
        exact ih (by omega) hlock
    · simp only [if_neg hlt, List.drop_zero]
      -- the loop stopped at the bound, so what it has not read is empty
      apply List.eq_nil_of_length_eq_zero
      rw [List.flatten_cons, List.length_append]
      omega

/-- Once an attempt has got into the content of a stream, nothing of it is left to send. -/
theorem streamAfter_drained {rest left : List Bytes} {failures : List FailedAttempt}
    (hlen : rest.flatten.length ≤ maxPieceSize) (h : streamAfter rest failures = some left) :
    left = rest ∧ failures.all (·.beforeContent) ∨ left.flatten = [] := by
  induction failures generalizing rest with
  | nil =>
    cases h
    exact .inl ⟨rfl, rfl⟩
  | cons f failures ih =>
    rw [streamAfter] at h
    cases hf : f.beforeContent with
    | true =>
      rw [hf, if_pos rfl] at h
      simpa [hf] using ih hlen h
    | false =>
      simp only [hf, Bool.false_eq_true, if_false] at h
      cases hlock : (sendContent (contentLimit (some f.toFault)) 0 rest).reads.holdsLock with
      | true => simp [hlock] at h
      | false =>
        simp only [hlock, Bool.false_eq_true, if_false] at h
        have hnil := sendContent_drained (by omega) hlock
        refine .inr ?_
        rcases ih (by simp [hnil]) h with ⟨rfl, _⟩ | hleft
        · exact hnil
        · exact hleft

/-- If nothing fails after the headers, the stream is as it was. -/
theorem streamAfter_beforeContent {rest : List Bytes} {failures : List FailedAttempt}
    (h : failures.all (·.beforeContent)) : streamAfter rest failures = some rest := by
  induction failures with
  | nil => rfl
  | cons f failures ih =>
    obtain ⟨hf, hfs⟩ : f.beforeContent = true ∧ failures.all (·.beforeContent) = true := by
      simpa using h
    rw [streamAfter, if_pos hf]
    exact ih hfs

theorem flatten_take_drop_length (chunks : List Bytes) (n : Nat) :
    (chunks.take n).flatten.length + (chunks.drop n).flatten.length = chunks.flatten.length := by
  rw [← List.length_append, ← List.flatten_append, List.take_append_drop]

/-- A chunk only gets out of the transform when bytes have gone in. -/
theorem chunksFor_pos (p : ChunkSize) (n : Nat) (buffer : Option Bytes) (chunks : List Bytes)
    (hbuffer : (buffer.getD []).length < p) (h : 0 < chunks.flatten.length) :
    0 < (chunks.take (chunksFor p (n + 1) buffer chunks)).flatten.length := by
  induction chunks generalizing buffer n with
  | nil => simp at h
  | cons data chunks ih =>
    rw [chunksFor]
    simp only [Nat.add_comm 1, List.take_succ_cons, List.flatten_cons, List.length_append]
    by_cases hdata : data = []
    · subst hdata
      have hbuf : buffer.elim [] (· ++ []) = buffer.getD [] := by
        cases buffer <;> simp
      have htransform : transform p buffer [] = ([], some (buffer.getD [])) := by
        rw [transform, hbuf, drain_short p hbuffer]
      rw [htransform]
      have := ih n (some (buffer.getD [])) hbuffer (by simpa using h)
      simpa using this
    · have := List.length_pos_of_ne_nil hdata
      omega

/-- A loop over content that is there reads a chunk at least. -/
theorem sendContent_count_pos (h : values ≠ []) :
    0 < (sendContent limit 0 values).reads.count := by
  cases values with
  | nil => exact absurd rfl h
  | cons value values =>
    have hpos : 0 < maxPieceSize := by decide
    rw [sendContent, if_pos hpos]
    by_cases hlim : limit = some 0
    · simp [hlim]
    · simp [hlim]

variable {rest : List Bytes} {failures : List FailedAttempt}

/-- A failure after the headers takes bytes out of the iterator that no later attempt sees. -/
theorem drop_chunksFor_lt (h : 0 < rest.flatten.length) (reads : Reads)
    (hcount : 0 < reads.count) :
    (if reads.sawEnd then []
      else rest.drop (chunksFor defaultChunkSize reads.count none rest)).flatten.length
        < rest.flatten.length := by
  by_cases hend : reads.sawEnd
  · simpa [hend] using h
  · obtain ⟨n, hn⟩ : ∃ n, reads.count = n + 1 := ⟨reads.count - 1, by omega⟩
    have hpos := chunksFor_pos defaultChunkSize n none rest defaultChunkSize.2 h
    have hsplit := flatten_take_drop_length rest (chunksFor defaultChunkSize (n + 1) none rest)
    rw [if_neg hend, hn]
    omega

theorem withChunkSize_ne_nil (h : 0 < rest.flatten.length) :
    withChunkSize defaultChunkSize rest ≠ [] := by
  intro hnil
  have hflat := withChunkSize_flatten defaultChunkSize rest
  rw [hnil] at hflat
  rw [← hflat] at h
  simp at h

theorem left_length_le (order : PullOrder) (rest : List Bytes) :
    (order.left rest).flatten.length ≤ rest.flatten.length := by
  have hsplit := order.left_length_add_taken rest
  omega

/-- The clone of the attempt sees what the older streams leave, and takes from that. -/
theorem FailedAttempt.leaves_length_le (f : FailedAttempt) (rest : List Bytes) :
    (f.leaves rest).flatten.length ≤ (f.pulls.left rest).flatten.length := by
  rw [FailedAttempt.leaves]
  cases hf : f.beforeContent with
  | true => exact Nat.le_refl _
  | false =>
    simp only [Bool.false_eq_true, if_false]
    by_cases hend : (sendContent (contentLimit (some f.toFault)) 0
        (withChunkSize defaultChunkSize (f.pulls.left rest))).reads.sawEnd
    · simp [hend]
    · rw [if_neg hend]
      have := flatten_take_drop_length (f.pulls.left rest) (chunksFor defaultChunkSize
        (sendContent (contentLimit (some f.toFault)) 0
          (withChunkSize defaultChunkSize (f.pulls.left rest))).reads.count none
        (f.pulls.left rest))
      omega

theorem FailedAttempt.leaves_lt {f : FailedAttempt} (h : 0 < rest.flatten.length)
    (hf : f.beforeContent = false) : (f.leaves rest).flatten.length < rest.flatten.length := by
  have hleft := left_length_le f.pulls rest
  by_cases hpos : 0 < (f.pulls.left rest).flatten.length
  · refine Nat.lt_of_lt_of_le ?_ hleft
    simp only [FailedAttempt.leaves, hf, Bool.false_eq_true, if_false]
    exact drop_chunksFor_lt hpos _ (sendContent_count_pos (withChunkSize_ne_nil hpos))
  · -- the older streams have pulled all the bytes there were
    have := f.leaves_length_le rest
    omega

theorem iteratorAfter_length_le (rest : List Bytes) (failures : List FailedAttempt) :
    (iteratorAfter rest failures).flatten.length ≤ rest.flatten.length := by
  induction failures generalizing rest with
  | nil => exact Nat.le_refl _
  | cons f failures ih =>
    calc (iteratorAfter (f.leaves rest) failures).flatten.length
        ≤ (f.leaves rest).flatten.length := ih _
      _ ≤ (f.pulls.left rest).flatten.length := f.leaves_length_le rest
      _ ≤ rest.flatten.length := left_length_le f.pulls rest

/-- Once an attempt has got into the content of an iterator, something of it is lost. -/
theorem iteratorAfter_lt (h : 0 < rest.flatten.length)
    (hf : failures.all (·.beforeContent) = false) :
    (iteratorAfter rest failures).flatten.length < rest.flatten.length := by
  induction failures generalizing rest with
  | nil => simp at hf
  | cons f failures ih =>
    rw [iteratorAfter]
    have hlater := iteratorAfter_length_le (f.leaves rest) failures
    have hle := Nat.le_trans (f.leaves_length_le rest) (left_length_le f.pulls rest)
    cases hfb : f.beforeContent with
    | true =>
      by_cases hpos : 0 < (f.leaves rest).flatten.length
      · exact Nat.lt_of_lt_of_le (ih hpos (by simpa [hfb] using hf)) hle
      · omega
    | false =>
      have := f.leaves_lt h hfb
      omega

/-- If no attempt has read of the iterator, what is not left of it is with the older streams. -/
theorem takenByOlder_length (order : PullOrder) (rest : List Bytes)
    (h : failures.all (·.beforeContent)) :
    (order.left (iteratorAfter rest failures)).flatten.length
        + (takenByOlder (failures.map (·.pulls) ++ [order]) rest).flatten.length
      = rest.flatten.length := by
  induction failures generalizing rest with
  | nil =>
    have hsplit := order.left_length_add_taken rest
    simpa [iteratorAfter, takenByOlder] using hsplit
  | cons f failures ih =>
    obtain ⟨hf, hfs⟩ : f.beforeContent = true ∧ failures.all (·.beforeContent) = true := by
      simpa using h
    have hleaves : f.leaves rest = f.pulls.left rest := by simp [FailedAttempt.leaves, hf]
    have hlater := ih (f.pulls.left rest) hfs
    have hsplit := f.pulls.left_length_add_taken rest
    rw [iteratorAfter, hleaves, List.map_cons, List.cons_append, takenByOlder, List.flatten_append,
      List.length_append]
    omega

theorem left_flatten_of_takenByOlder {order : PullOrder} (h : failures.all (·.beforeContent))
    (htaken : (takenByOlder (failures.map (·.pulls) ++ [order]) rest).flatten = []) :
    (order.left (iteratorAfter rest failures)).flatten = rest.flatten := by
  induction failures generalizing rest with
  | nil =>
    have hnil : (order.taken rest ++ []).flatten = [] := htaken
    rw [List.append_nil] at hnil
    exact PullOrder.left_flatten_of_taken hnil
  | cons f failures ih =>
    obtain ⟨hf, hfs⟩ : f.beforeContent = true ∧ failures.all (·.beforeContent) = true := by
      simpa using h
    have hleaves : f.leaves rest = f.pulls.left rest := by simp [FailedAttempt.leaves, hf]
    rw [List.map_cons, List.cons_append, takenByOlder, List.flatten_append,
      List.append_eq_nil_iff] at htaken
    rw [iteratorAfter, hleaves, ih hfs htaken.2, PullOrder.left_flatten_of_taken htaken.1]

/-- The last clone of a piece over an iterator has all the bytes exactly if no attempt got into
the content and the streams made before have pulled nothing but empty chunks. -/
theorem left_iteratorAfter_whole {order : PullOrder} (h : 0 < rest.flatten.length) :
    (order.left (iteratorAfter rest failures)).flatten = rest.flatten ↔
      failures.all (·.beforeContent)
        ∧ (takenByOlder (failures.map (·.pulls) ++ [order]) rest).flatten = [] := by
  constructor
  · intro hwhole
    cases hf : failures.all (·.beforeContent) with
    | true =>
      have hlength := takenByOlder_length order rest hf
      rw [hwhole] at hlength
      exact ⟨rfl, List.eq_nil_of_length_eq_zero (by omega)⟩
    | false =>
      have hlt := iteratorAfter_lt h hf
      have hle := left_length_le order (iteratorAfter rest failures)
      rw [hwhole] at hle
      omega
  · intro ⟨hf, htaken⟩
    exact left_flatten_of_takenByOlder hf htaken

end Lost

end CereDdc
