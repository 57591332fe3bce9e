import CereDdc.FileAuthentication
import CereDdc.Kit.Monitor

/-!
# FileAcknowledgments — the acknowledgments of `getFile`

A machine that yields the chunks of the node and acknowledges each before it
yields the next. The stream of `getFile` is followed by it, so what its runs keep
true holds wherever the reader stops.
-/

namespace CereDdc

open Kit Program Api

/-! ## What can be seen of a read -/

/-- The acknowledgment that a request sends. -/
def ApiRequest.acknowledgment : ApiRequest → Option ActivityAcknowledgment
  | ack acknowledgment => some acknowledgment
  | _ => none

/-- The acknowledgments handed to the request stream. -/
def acknowledgments (requests : List ApiRequest) : List ActivityAcknowledgment :=
  requests.filterMap (·.acknowledgment)

/-- The bytes that the last acknowledgment is for. -/
def acknowledgedBytes (requests : List ApiRequest) : Nat :=
  ((acknowledgments requests).getLast?.map (·.bytesStoredOrDelivered)).getD 0

/-- Each chunk is acknowledged, with all bytes so far, before the next one is yielded. -/
structure Acknowledged (requestId : String) (chunks : List Bytes) (requests : List ApiRequest) :
    Prop where
  yields : delivered requests <+: chunks
  acks : ∀ k ack, (acknowledgments requests)[k]? = some ack → ack.requestId = requestId ∧
    ack.bytesStoredOrDelivered = ((delivered requests).take (k + 1)).flatten.length
  length_le : (acknowledgments requests).length ≤ (delivered requests).length
  /-- a reader that stops at a chunk has not gone past it -/
  stopped : ∀ data, requests.getLast? = some (.deliver data) →
    (acknowledgments requests).length + 1 = (delivered requests).length
  le_length : (delivered requests).length ≤ (acknowledgments requests).length + 1

/-! ## The machine -/

/-- How far a read has got. -/
structure ReadProgress where
  /-- the chunks that have not been yielded -/
  rest : List Bytes
  bytesStoredOrDelivered : Nat
  /-- the chunk yielded last, until it is acknowledged -/
  unacknowledged : Option Bytes

namespace ReadProgress

def step (requestId : String) (progress : ReadProgress) : ApiRequest → Option ReadProgress
  | .deliver data =>
    match progress.unacknowledged, progress.rest with
    | none, chunk :: rest =>
      if chunk = data then some { progress with rest, unacknowledged := some data } else none
    | _, _ => none
  | .ack sent =>
    match progress.unacknowledged with
    | some data =>
      if sent.requestId = requestId ∧
          sent.bytesStoredOrDelivered = progress.bytesStoredOrDelivered + data.length then
        some ⟨progress.rest, sent.bytesStoredOrDelivered, none⟩
      else none
    | none => none
  | _ => some progress

variable {requestId : String} {progress next : ReadProgress} {r : ApiRequest}
  {chunks : List Bytes} {requests : List ApiRequest}

/-- What neither yields a chunk nor acknowledges one. -/
def Quiet (r : ApiRequest) : Prop := r.delivered = none ∧ r.acknowledgment = none

theorem step_quiet (h : Quiet r) : step requestId progress r = some progress := by
  cases r with
  | deliver data => cases h.1
  | ack acknowledgment => cases h.2
  | ready account => rfl
  | sign account message => rfl
  | now => rfl
  | uuid => rfl
  | authToken accessToken => rfl
  | rpc info method => rfl
  | complete => rfl

/-- What a step can be. -/
theorem step_cases (h : step requestId progress r = some next) :
    (∃ data, r = .deliver data ∧ progress.unacknowledged = none ∧
      progress.rest = data :: next.rest ∧ next.unacknowledged = some data ∧
      next.bytesStoredOrDelivered = progress.bytesStoredOrDelivered) ∨
    (∃ ack data, r = .ack ack ∧ progress.unacknowledged = some data ∧
      ack.requestId = requestId ∧
      ack.bytesStoredOrDelivered = progress.bytesStoredOrDelivered + data.length ∧
      next = ⟨progress.rest, ack.bytesStoredOrDelivered, none⟩) ∨
    Quiet r ∧ next = progress := by
  cases r with
  | deliver data =>
    obtain ⟨rest, bytes, unacknowledged⟩ := progress
    refine .inl ⟨data, rfl, ?_⟩
    cases unacknowledged with
    | some pending => cases h
    | none =>
      cases rest with
      | nil => cases h
      | cons chunk rest =>
        simp only [step, Option.ite_none_right_eq_some, Option.some.injEq] at h
        obtain ⟨rfl, rfl⟩ := h
        exact ⟨rfl, rfl, rfl, rfl⟩
  | ack acknowledgment =>
    obtain ⟨rest, bytes, unacknowledged⟩ := progress
    cases unacknowledged with
    | none => cases h
    | some data =>
      simp only [step, Option.ite_none_right_eq_some, Option.some.injEq] at h
      obtain ⟨⟨hid, hbytes⟩, rfl⟩ := h
      exact .inr (.inl ⟨acknowledgment, data, rfl, rfl, hid, hbytes, rfl⟩)
  | ready account => exact .inr (.inr ⟨⟨rfl, rfl⟩, (Option.some.inj h).symm⟩)
  | sign account message => exact .inr (.inr ⟨⟨rfl, rfl⟩, (Option.some.inj h).symm⟩)
  | now => exact .inr (.inr ⟨⟨rfl, rfl⟩, (Option.some.inj h).symm⟩)
  | uuid => exact .inr (.inr ⟨⟨rfl, rfl⟩, (Option.some.inj h).symm⟩)
  | authToken accessToken => exact .inr (.inr ⟨⟨rfl, rfl⟩, (Option.some.inj h).symm⟩)
  | rpc info method => exact .inr (.inr ⟨⟨rfl, rfl⟩, (Option.some.inj h).symm⟩)
  | complete => exact .inr (.inr ⟨⟨rfl, rfl⟩, (Option.some.inj h).symm⟩)

/-- What the requests so far and the progress have to do with each other. -/
structure Tracks (requestId : String) (chunks : List Bytes) (requests : List ApiRequest)
    (progress : ReadProgress) : Prop where
  yields : delivered requests ++ progress.rest = chunks
  acks : ∀ k ack, (acknowledgments requests)[k]? = some ack → ack.requestId = requestId ∧
    ack.bytesStoredOrDelivered = ((delivered requests).take (k + 1)).flatten.length
  /-- all chunks but the last are acknowledged for sure -/
  consumed : ∃ consumed, delivered requests = consumed ++ progress.unacknowledged.toList ∧
    consumed.length = (acknowledgments requests).length ∧
    consumed.flatten.length = progress.bytesStoredOrDelivered
  stopped : ∀ data, requests.getLast? = some (.deliver data) →
    progress.unacknowledged = some data

theorem tracks_start : Tracks requestId chunks [] ⟨chunks, 0, none⟩ where
  yields := rfl
  acks := nofun
  consumed := ⟨[], rfl, rfl, rfl⟩
  stopped := nofun

theorem delivered_snoc : delivered (requests ++ [r]) = delivered requests ++ r.delivered.toList := by
  unfold delivered
  rw [List.filterMap_append]
  cases h : r.delivered <;> simp [h]

theorem acknowledgments_snoc : acknowledgments (requests ++ [r])
    = acknowledgments requests ++ r.acknowledgment.toList := by
  unfold acknowledgments
  rw [List.filterMap_append]
  cases h : r.acknowledgment <;> simp [h]

/-- A chunk is yielded while all before it are acknowledged. -/
theorem Tracks.deliver {data : Bytes} (h : Tracks requestId chunks requests progress)
    (hnone : progress.unacknowledged = none) (hrest : progress.rest = data :: next.rest)
    (hsome : next.unacknowledged = some data)
    (hsame : next.bytesStoredOrDelivered = progress.bytesStoredOrDelivered) :
    Tracks requestId chunks (requests ++ [.deliver data]) next := by
  obtain ⟨hyields, hacks, ⟨consumed, hconsumed, hlength, hbytes⟩, -⟩ := h
  rw [hnone, Option.toList_none, List.append_nil] at hconsumed
  have hdelivered : delivered (requests ++ [.deliver data]) = consumed ++ [data] := by
    rw [delivered_snoc, hconsumed]
    rfl
  have hsent : acknowledgments (requests ++ [.deliver data]) = acknowledgments requests := by
    rw [acknowledgments_snoc]
    exact List.append_nil _
  refine ⟨?_, ?_, ⟨consumed, ?_, ?_, ?_⟩, ?_⟩
  · rw [hdelivered, ← hyields, hconsumed, hrest, List.append_assoc]
    rfl
  · intro k ack hk
    rw [hsent] at hk
    obtain ⟨hkid, hkbytes⟩ := hacks k ack hk
    have hlt := (List.getElem?_eq_some_iff.mp hk).1
    refine ⟨hkid, ?_⟩
    rw [hkbytes, hdelivered, hconsumed, List.take_append_of_le_length (by omega)]
  · rw [hdelivered, hsome]
    rfl
  · rw [hsent]
    exact hlength
  · rw [hsame]
    exact hbytes
  · intro data' hlast
    rw [List.getLast?_concat] at hlast
    cases hlast
    exact hsome

/-- An acknowledgment is for everything that has been yielded. -/
theorem Tracks.acknowledge {ack : ActivityAcknowledgment} {data : Bytes}
    (h : Tracks requestId chunks requests progress) (hsome : progress.unacknowledged = some data)
    (hid : ack.requestId = requestId)
    (hack : ack.bytesStoredOrDelivered = progress.bytesStoredOrDelivered + data.length) :
    Tracks requestId chunks (requests ++ [.ack ack])
      ⟨progress.rest, ack.bytesStoredOrDelivered, none⟩ := by
  obtain ⟨hyields, hacks, ⟨consumed, hconsumed, hlength, hbytes⟩, -⟩ := h
  rw [hsome, Option.toList_some] at hconsumed
  have hdelivered : delivered (requests ++ [.ack ack]) = consumed ++ [data] := by
    rw [delivered_snoc, hconsumed]
    exact List.append_nil _
  have hsent : acknowledgments (requests ++ [.ack ack]) = acknowledgments requests ++ [ack] := by
    rw [acknowledgments_snoc]
    rfl
  have htotal : (consumed ++ [data]).flatten.length = ack.bytesStoredOrDelivered := by
    rw [List.flatten_append, List.length_append, hbytes, hack]
    simp
  refine ⟨?_, ?_, ⟨consumed ++ [data], ?_, ?_, htotal⟩, ?_⟩
  · rw [hdelivered, ← hyields, hconsumed]
  · intro k ack' hk
    rw [hsent] at hk
    rw [hdelivered]
    rcases Nat.lt_or_ge k (acknowledgments requests).length with hlt | hge
    · rw [List.getElem?_append_left hlt] at hk
      obtain ⟨hkid, hkbytes⟩ := hacks k ack' hk
      exact ⟨hkid, by rw [hkbytes, hconsumed]⟩
    · rw [List.getElem?_append_right hge, List.getElem?_singleton,
        Option.ite_none_right_eq_some] at hk
      obtain ⟨-, hk⟩ := hk
      cases hk
      refine ⟨hid, ?_⟩
      rw [List.take_of_length_le (by rw [List.length_append, List.length_singleton]; omega), htotal]
  · rw [hdelivered]
    exact (List.append_nil _).symm
  · rw [hsent, List.length_append, List.length_append, hlength]
    rfl
  · intro data' hlast
    rw [List.getLast?_concat] at hlast
    cases hlast

theorem Tracks.quiet (h : Tracks requestId chunks requests progress) (hr : Quiet r) :
    Tracks requestId chunks (requests ++ [r]) progress := by
  obtain ⟨hquiet, hquiet'⟩ := hr
  have hdelivered : delivered (requests ++ [r]) = delivered requests := by
    rw [delivered_snoc, hquiet]
    exact List.append_nil _
  have hsent : acknowledgments (requests ++ [r]) = acknowledgments requests := by
    rw [acknowledgments_snoc, hquiet']
    exact List.append_nil _
  refine ⟨?_, ?_, ?_, fun data hlast => ?_⟩
  · rw [hdelivered]
    exact h.yields
  · rw [hdelivered, hsent]
    exact h.acks
  · rw [hdelivered, hsent]
    exact h.consumed
  · rw [List.getLast?_concat] at hlast
    cases hlast
    cases hquiet

/-- Every step keeps the requests and the progress together. -/
theorem Tracks.step (h : Tracks requestId chunks requests progress)
    (hstep : ReadProgress.step requestId progress r = some next) :
    Tracks requestId chunks (requests ++ [r]) next := by
  obtain ⟨data, rfl, hnone, hrest, hsome, hsame⟩ | ⟨ack, data, rfl, hsome, hid, hack, rfl⟩ |
    ⟨hquiet, rfl⟩ := step_cases hstep
  · exact h.deliver hnone hrest hsome hsame
  · exact h.acknowledge hsome hid hack
  · exact h.quiet hquiet

/-- Every run of the machine. -/
theorem run_tracks (h : Kit.run (step requestId) ⟨chunks, 0, none⟩ requests = some progress) :
    Tracks requestId chunks requests progress :=
  run_history (P := Tracks requestId chunks) (fun _ _ _ _ htracks hstep => htracks.step hstep)
    tracks_start h

theorem Tracks.acknowledged (h : Tracks requestId chunks requests progress) :
    Acknowledged requestId chunks requests := by
  obtain ⟨consumed, hconsumed, hlength, -⟩ := h.consumed
  have hdelivered : (delivered requests).length
      = (acknowledgments requests).length + progress.unacknowledged.toList.length := by
    rw [hconsumed, List.length_append, hlength]
  refine ⟨⟨progress.rest, h.yields⟩, h.acks, by omega, fun data hlast => ?_, ?_⟩
  · rw [hdelivered, h.stopped data hlast]
    rfl
  · cases hpending : progress.unacknowledged with
    | none =>
      rw [hpending, Option.toList_none, List.length_nil] at hdelivered
      omega
    | some data =>
      rw [hpending, Option.toList_some, List.length_singleton] at hdelivered
      omega

end ReadProgress

/-! ### Bytes -/

section

variable {requestId : String} {chunks : List Bytes} {requests : List ApiRequest}

/-- What is acknowledged are the chunks that have an acknowledgment. -/
theorem Acknowledged.acknowledgedBytes_eq (h : Acknowledged requestId chunks requests) :
    acknowledgedBytes requests =
      ((delivered requests).take (acknowledgments requests).length).flatten.length := by
  unfold acknowledgedBytes
  rw [List.getLast?_eq_getElem?]
  cases hlast : (acknowledgments requests)[(acknowledgments requests).length - 1]? with
  | none =>
    have hnil := List.getElem?_eq_none_iff.mp hlast
    have hzero : (acknowledgments requests).length = 0 := by omega
    rw [hzero]
    rfl
  | some ack =>
    have hlt := (List.getElem?_eq_some_iff.mp hlast).1
    have hsucc : (acknowledgments requests).length - 1 + 1 = (acknowledgments requests).length := by
      omega
    obtain ⟨-, hbytes⟩ := h.acks _ ack hlast
    rw [hsucc] at hbytes
    exact hbytes

/-- No byte is acknowledged that has not been yielded. -/
theorem Acknowledged.acknowledgedBytes_le (h : Acknowledged requestId chunks requests) :
    acknowledgedBytes requests ≤ (delivered requests).flatten.length := by
  rw [h.acknowledgedBytes_eq]
  exact length_flatten_le (List.take_prefix _ _)

/-- All bytes are acknowledged but for those of the last chunk. -/
theorem Acknowledged.le_acknowledgedBytes (h : Acknowledged requestId chunks requests) :
    (delivered requests).dropLast.flatten.length ≤ acknowledgedBytes requests := by
  rw [h.acknowledgedBytes_eq, List.dropLast_eq_take]
  have hle := h.le_length
  exact length_flatten_le (List.take_prefix_take_left (by omega))

end

/-! ## The stream -/

section

variable {σ : Type} {env : Environment ApiRequest.Answer σ} {s t : σ} {hasher : Hasher}
  {options : ApiOptions} {params : MetaParams} {requestId : String} {token : Option AuthToken}
  {bucketId : Nat} {cid : Cid} {range : Option ReadFileRange} {messages : List GetFileResponse}
  {responses : FileResponses} {requests : List ApiRequest} {keys : Option Keys}

theorem ReadProgress.prepares_quiet : Prepares ReadProgress.Quiet keys token where
  now := ⟨rfl, rfl⟩
  uuid := ⟨rfl, rfl⟩
  ready := fun _ _ => ⟨rfl, rfl⟩
  sign := fun _ _ _ _ _ => ⟨rfl, rfl⟩

/-- Signing leaves the fields of an acknowledgment as they are. -/
theorem meets_createAck {ack : ActivityAcknowledgment} :
    (createAck keys ack token).Meets ReadProgress.Quiet fun signedAck =>
      signedAck.requestId = ack.requestId ∧
        signedAck.bytesStoredOrDelivered = ack.bytesStoredOrDelivered := by
  cases keys with
  | none => trivial
  | some keys => exact .bind (all_createSignature ReadProgress.prepares_quiet) fun _ _ => ⟨rfl, rfl⟩

/-- After a chunk comes its acknowledgment. -/
theorem watched_sendAck {rest : List Bytes} {n : Nat} {data : Bytes} (hacks : options.acks) :
    (FileApi.sendAck options requestId token (n + data.length)).Watched
      (ReadProgress.step requestId) (fun _ progress => progress = ⟨rest, n + data.length, none⟩)
      ⟨rest, n, some data⟩ := by
  unfold FileApi.sendAck
  rw [if_pos hacks]
  refine .request (ReadProgress.step_quiet ⟨rfl, rfl⟩) fun timestamp => ?_
  refine .bind (meets_createAck.watched fun r hr => ReadProgress.step_quiet hr) ?_
  rintro signedAck _ ⟨⟨hid, hbytes⟩, rfl⟩
  refine ⟨⟨rest, n + data.length, none⟩, ?_, fun _ => rfl⟩
  simp [ReadProgress.step, hid, hbytes]

/-- The loop over the messages, by its data chunks. -/
theorem watched_toDataStream {n : Nat} {validator : FileValidator hasher} (hacks : options.acks) :
    (FileApi.toDataStream options requestId token messages n validator).Watched
      (ReadProgress.step requestId)
      (fun _ progress => progress.rest = [] ∧ progress.unacknowledged = none)
      ⟨dataChunks messages, n, none⟩ := by
  induction messages generalizing n validator with
  | nil => exact ⟨rfl, rfl⟩
  | cons message messages ih =>
    cases message with
    | proof proof => exact ih
    | undefined => exact ih
    | data data =>
      have hstep : ReadProgress.step requestId ⟨data :: dataChunks messages, n, none⟩
          (.deliver data) = some ⟨dataChunks messages, n, some data⟩ := by
        simp [ReadProgress.step]
      refine .request hstep fun _ => ?_
      refine .bind (watched_sendAck hacks) ?_
      rintro _ _ rfl
      exact ih

theorem watched_readStream (hacks : options.acks) :
    (FileApi.readStream hasher options requestId token cid range responses).Watched
      (ReadProgress.step requestId)
      (fun _ progress => progress.rest = [] ∧ progress.unacknowledged = none)
      ⟨dataChunks responses.messages, 0, none⟩ := by
  refine .bind (watched_toDataStream hacks) fun validator progress hended => ?_
  cases responses.error with
  | some e => trivial
  | none =>
    have hquiet : complete.All ReadProgress.Quiet := all_complete ⟨rfl, rfl⟩
    refine .bind (hquiet.watched fun r hr => ReadProgress.step_quiet hr) ?_
    rintro _ _ ⟨-, rfl⟩
    exact watched_ofExcept fun _ _ => hended

/-- Wherever the reader of a stream stops, the acknowledgments are up to date. -/
theorem acknowledged_readStream (hacks : options.acks) (hrequests : requests <+: Program.requests env
      (FileApi.readStream hasher options requestId token cid range responses) s) :
    Acknowledged requestId (dataChunks responses.messages) requests := by
  obtain ⟨progress, hrun, -⟩ := (watched_readStream hacks).follows
  obtain ⟨progress, hrun⟩ := run_prefix hrun hrequests
  exact (ReadProgress.run_tracks hrun).acknowledged

/-- A stream that ends normally has everything delivered and acknowledged. -/
theorem acknowledgedBytes_readStream (hacks : options.acks) (hrun : Program.run env
      (FileApi.readStream hasher options requestId token cid range responses) s = (.ok (), t)) :
    delivered (Program.requests env
        (FileApi.readStream hasher options requestId token cid range responses) s)
      = dataChunks responses.messages ∧
    acknowledgedBytes (Program.requests env
        (FileApi.readStream hasher options requestId token cid range responses) s)
      = (dataChunks responses.messages).flatten.length := by
  obtain ⟨progress, hfollows, hends⟩ := (watched_readStream hacks).follows
  obtain ⟨hrest, hnone⟩ := hends () t hrun
  have htracks := ReadProgress.run_tracks hfollows
  have hyields := htracks.yields
  obtain ⟨consumed, hconsumed, hlength, -⟩ := htracks.consumed
  rw [hrest, List.append_nil] at hyields
  rw [hnone, Option.toList_none, List.append_nil] at hconsumed
  refine ⟨hyields, ?_⟩
  rw [htracks.acknowledged.acknowledgedBytes_eq, ← hlength, hconsumed, List.take_length,
    ← hconsumed, hyields]

/-! ### The call -/

/-- A signer signs the activity request of a call under the request id of the call. -/
theorem meets_signMeta_requestId {keys : Keys} {fields : ActivityFields} {info : ApiMeta}
    (h : fields.requestId = some requestId) :
    (signMeta (some keys) fields info).Meets (fun _ => True) fun signed =>
      ∃ request, signed.request = some request ∧ request.requestId = requestId := by
  have hquiet : (createActivityRequest keys fields info.token).Meets (fun _ => True)
      fun request => request.requestId = requestId := by
    refine .bind ⟨trivial, fun _ => trivial⟩ fun timestamp _ => ?_
    refine .bind ⟨trivial, fun _ => trivial⟩ fun other _ => ?_
    split
    · trivial
    · refine .bind (all_createSignature ⟨trivial, trivial, fun _ _ => trivial,
        fun _ _ _ _ _ => trivial⟩) fun signature _ => ?_
      show fields.requestId.getD other = requestId
      rw [h]
      rfl
  exact .bind hquiet fun request hid => ⟨request, rfl, hid⟩

/-- A stream is that of the messages that came back from a call, for the id of its activity
request. -/
theorem run_getFile_call {stream : ApiProgram Unit} (hkeys : options.keys ≠ none)
    (h : Program.run env (FileApi.getFile hasher options params bucketId cid range) s
      = (.ok stream, t)) :
    ∃ info request responses u,
      ApiRequest.rpc info (.getFile ⟨cid, bucketId, range, options.authenticates⟩) ∈
        Program.requests env (FileApi.getFile hasher options params bucketId cid range) s ∧
      info.request = some request ∧
      env u (.rpc info (.getFile ⟨cid, bucketId, range, options.authenticates⟩))
        = (Except.ok responses, t) ∧
      stream = FileApi.readStream hasher options request.requestId params.token cid range
        responses := by
  obtain ⟨keys, hsome⟩ := Option.ne_none_iff_exists'.mp hkeys
  unfold FileApi.getFile at h ⊢
  obtain ⟨requestId, a, huuid, h⟩ := run_bind_eq_ok h
  obtain ⟨info, b, hinfo, h⟩ := run_bind_eq_ok h
  obtain ⟨info', c, hsign, h⟩ := run_bind_eq_ok h
  obtain ⟨responses, d, hcall, h⟩ := run_bind_eq_ok h
  have hrpc : Program.requests env
      (call info' (.getFile ⟨cid, bucketId, range, options.authenticates⟩)) c
        = [.rpc info' (.getFile ⟨cid, bucketId, range, options.authenticates⟩)] :=
    congrArg _ requests_ofExcept
  rw [requests_bind_ok huuid, requests_bind_ok hinfo, requests_bind_ok hsign,
    requests_bind_ok hcall, hrpc]
  rw [hsome] at hsign
  obtain ⟨request, hrequest, hid⟩ := (meets_signMeta_requestId rfl).result hsign
  obtain ⟨hanswer, hstate⟩ := run_ofExcept_eq_ok hcall
  cases h
  exact ⟨info', request, responses, c, by simp, hrequest, Prod.ext hanswer hstate, by rw [hid]⟩

/-- A file is read under the acknowledgments of the chunks that the node has sent: wherever the
reader stops, they are in order, complete and at most one chunk behind. -/
theorem FileApi.getFile_acknowledged {stream : ApiProgram Unit} (hkeys : options.keys ≠ none)
    (hacks : options.acks)
    (hget : Program.run env (getFile hasher options params bucketId cid range) s
      = (.ok stream, t)) :
    ∃ info request responses u,
      ApiRequest.rpc info (.getFile ⟨cid, bucketId, range, options.authenticates⟩) ∈
        Program.requests env (getFile hasher options params bucketId cid range) s ∧
      info.request = some request ∧
      env u (.rpc info (.getFile ⟨cid, bucketId, range, options.authenticates⟩))
        = (Except.ok responses, t) ∧
      (∀ requests, requests <+: Program.requests env stream t →
        Acknowledged request.requestId (dataChunks (FileResponses.messages responses)) requests ∧
        acknowledgedBytes requests ≤ (delivered requests).flatten.length ∧
        (delivered requests).dropLast.flatten.length ≤ acknowledgedBytes requests) ∧
      ∀ v, Program.run env stream t = (.ok (), v) →
        delivered (Program.requests env stream t)
          = dataChunks (FileResponses.messages responses) ∧
        acknowledgedBytes (Program.requests env stream t)
          = (delivered (Program.requests env stream t)).flatten.length := by
  obtain ⟨info, request, responses, u, hrpc, hrequest, hanswer, rfl⟩ :=
    run_getFile_call hkeys hget
  refine ⟨info, request, responses, u, hrpc, hrequest, hanswer, ?_, ?_⟩
  · intro requests hrequests
    have hacknowledged := acknowledged_readStream hacks hrequests
    exact ⟨hacknowledged, hacknowledged.acknowledgedBytes_le, hacknowledged.le_acknowledgedBytes⟩
  · intro v hrun
    obtain ⟨hdelivered, hbytes⟩ := acknowledgedBytes_readStream hacks hrun
    exact ⟨hdelivered, by rw [hbytes, hdelivered]⟩

end

/-- A client that signs, and that acknowledges for it. -/
def acknowledgingClient : ApiOptions :=
  { keys := some ⟨UriSigner (plainPair .sr25519 1), []⟩ }

theorem FileApi.getFile_acknowledged_read :
    let node := sendingNode [.data [1, 2], .proof [], .data [3]]
    ∃ stream,
      Program.run node (getFile (.buffered plainHash) acknowledgingClient {} 0 [] none) ()
        = (.ok stream, ()) ∧
      delivered (Program.requests node stream ()) = [[1, 2], [3]] ∧
      acknowledgedBytes (Program.requests node stream ()) = 3 := by
  intro node
  have hget : Program.run node (getFile (.buffered plainHash) acknowledgingClient {} 0 [] none) ()
      = (.ok (readStream (.buffered plainHash) acknowledgingClient "" none [] none
          ⟨[.data [1, 2], .proof [], .data [3]], none⟩), ()) := rfl
  have hkeys : acknowledgingClient.keys ≠ none := by simp [acknowledgingClient]
  refine ⟨_, hget, ?_⟩
  obtain ⟨_, _, responses, _, _, _, hanswer, _, hends⟩ := getFile_acknowledged hkeys rfl hget
  cases hanswer
  obtain ⟨hdelivered, hbytes⟩ := hends () rfl
  exact ⟨hdelivered, by rw [hbytes, hdelivered]; rfl⟩

end CereDdc
