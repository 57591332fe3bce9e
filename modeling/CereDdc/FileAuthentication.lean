import CereDdc.ApiCalls

/-!
# FileAuthentication — what an authenticated read accepts

A read of a whole file by a client that has `authenticate` enabled, from a node
that may send any messages.
-/

namespace CereDdc

open Kit Program Api

/-! ## A read and what it delivers -/

/-- The chunk that a request hands to the reader. -/
def ApiRequest.delivered : ApiRequest → Option Bytes
  | deliver data => some data
  | _ => none

/-- The chunks that the reader of the stream gets. -/
def delivered (requests : List ApiRequest) : List Bytes := requests.filterMap (·.delivered)

/-- A stream that ends normally has delivered the content of the CID, and a stream that has
delivered anything else has ended with an error. -/
def Authentic (hasher : Hasher) (cid : Cid) (result : Except JsError Unit)
    (chunks : List Bytes) : Prop :=
  (result = .ok () → hasher.hash chunks.flatten = cid.contentHash) ∧
    (hasher.hash chunks.flatten ≠ cid.contentHash → ∃ e, result = .error e)

theorem authentic_iff {hasher : Hasher} {cid : Cid} {result : Except JsError Unit}
    {chunks : List Bytes} :
    Authentic hasher cid result chunks ↔
      (result = .ok () → hasher.hash chunks.flatten = cid.contentHash) := by
  refine ⟨And.left, fun h => ⟨h, fun hne => ?_⟩⟩
  cases result with
  | ok _ => exact absurd (h rfl) hne
  | error e => exact ⟨e, rfl⟩

section

variable {σ : Type} {env : Environment ApiRequest.Answer σ} {s t : σ} {hasher : Hasher}
  {options : ApiOptions} {params : MetaParams} {requestId : String} {token : Option AuthToken}
  {bucketId : Nat} {cid : Cid} {range : Option ReadFileRange} {messages : List GetFileResponse}
  {responses : FileResponses} {requests : List ApiRequest}

theorem delivered_append {requests' : List ApiRequest} :
    delivered (requests ++ requests') = delivered requests ++ delivered requests' := by
  simp [delivered]

theorem delivered_eq_nil (h : ∀ r ∈ requests, r.delivered = none) : delivered requests = [] := by
  simpa [delivered] using h

/-- A call delivers nothing before the stream is read. -/
theorem permits_silent : Permits (fun r => r.delivered = none) options params where
  now := rfl
  uuid := rfl
  ready := fun _ _ => rfl
  sign := fun _ _ _ _ _ => rfl
  rpc := fun _ _ _ => rfl
  ack := fun _ => rfl
  complete := rfl

/-! ### The loop over the messages -/

/-- A loop that comes through has delivered the data of the messages, and shown every message to
the validator. -/
theorem run_toDataStream {validator last : FileValidator hasher} {n : Nat}
    (h : run env (FileApi.toDataStream options requestId token messages n validator) s
      = (.ok last, t)) :
    last = messages.foldl FileValidator.receive validator ∧
      delivered (Program.requests env
        (FileApi.toDataStream options requestId token messages n validator) s)
        = dataChunks messages := by
  induction messages generalizing n validator s with
  | nil =>
    cases h
    exact ⟨rfl, rfl⟩
  | cons message messages ih =>
    cases message with
    | proof proof => exact ih h
    | undefined => exact ih h
    | data data =>
      obtain ⟨_, u, hdeliver, hrest⟩ := run_bind_eq_ok h
      obtain ⟨_, v, hack, hrest⟩ := run_bind_eq_ok hrest
      obtain ⟨hlast, hchunks⟩ := ih hrest
      refine ⟨hlast, ?_⟩
      -- the acknowledgment comes between the delivery and the next message
      rw [FileApi.toDataStream, requests_bind_ok hdeliver, requests_bind_ok hack,
        delivered_append, delivered_append, hchunks,
        delivered_eq_nil (all_sendAck (@permits_silent _ ⟨token, none⟩)).requests]
      rfl

/-- A stream that ends normally: its validator has passed the data it delivered. -/
theorem run_readStream
    (h : run env (FileApi.readStream hasher options requestId token cid range responses) s
      = (.ok (), t)) :
    (responses.messages.foldl FileValidator.receive
        (FileValidator.new hasher cid options.authenticates range)).validate = .ok () ∧
      delivered (Program.requests env
        (FileApi.readStream hasher options requestId token cid range responses) s)
        = dataChunks responses.messages := by
  unfold FileApi.readStream at h ⊢
  obtain ⟨last, u, hloop, hrest⟩ := run_bind_eq_ok h
  obtain ⟨rfl, hchunks⟩ := run_toDataStream hloop
  rw [requests_bind_ok hloop, delivered_append, hchunks]
  cases herror : responses.error with
  | some e =>
    rw [herror] at hrest
    cases hrest
  | none =>
    rw [herror] at hrest
    obtain ⟨_, v, -, hvalidate⟩ := run_bind_eq_ok hrest
    have hsilent : (complete >>= fun _ => Program.ofExcept
        (responses.messages.foldl FileValidator.receive
          (FileValidator.new hasher cid options.authenticates range)).validate).All
        fun r => r.delivered = none :=
      .bind (all_complete rfl) fun _ _ => meets_ofExcept fun _ _ => trivial
    refine ⟨(run_ofExcept_eq_ok hvalidate).1, ?_⟩
    exact (congrArg _ (delivered_eq_nil hsilent.requests)).trans (List.append_nil _)

/-! ### Nodes that send given messages -/

/-- The messages of every response stream of the environment are `messages`. -/
def Serves (env : Environment ApiRequest.Answer σ) (messages : List GetFileResponse) : Prop :=
  ∀ s info request responses, (env s (.rpc info (.getFile request))).1 = .ok responses →
    FileResponses.messages responses = messages

theorem run_call {info : ApiMeta} {method : RpcMethod} {a : method.Response}
    (h : run env (call info method) s = (.ok a, t)) : (env s (.rpc info method)).1 = .ok a :=
  (run_ofExcept_eq_ok h).1

/-- The stream that `getFile` comes up with is that of the messages of the node. -/
theorem run_getFile {stream : ApiProgram Unit} (hserves : Serves env messages)
    (h : run env (FileApi.getFile hasher options params bucketId cid range) s = (.ok stream, t)) :
    ∃ requestId responses, FileResponses.messages responses = messages ∧
      stream = FileApi.readStream hasher options requestId params.token cid range responses := by
  obtain ⟨requestId, _, -, h⟩ := run_bind_eq_ok h
  obtain ⟨info, _, -, h⟩ := run_bind_eq_ok h
  obtain ⟨info, u, -, h⟩ := run_bind_eq_ok h
  obtain ⟨responses, _, hcall, h⟩ := run_bind_eq_ok h
  refine ⟨requestId, responses, hserves _ _ _ _ (run_call hcall), ?_⟩
  cases h
  rfl

/-- An authenticated read of a whole file that ends normally has delivered the data of the
messages, and either that is the content of the CID or the last proof was not empty. -/
theorem run_readFile (hserves : Serves env messages) (hauth : options.authenticates)
    (h : run env (FileApi.readFile hasher options params bucketId cid none) s = (.ok (), t)) :
    delivered (Program.requests env
        (FileApi.readFile hasher options params bucketId cid none) s) = dataChunks messages ∧
      (lastProofShown messages = true ∨
        hasher.hash (dataChunks messages).flatten = cid.contentHash) := by
  obtain ⟨stream, u, hget, hstream⟩ := run_bind_eq_ok h
  obtain ⟨requestId, responses, rfl, rfl⟩ := run_getFile hserves hget
  obtain ⟨hvalidate, hchunks⟩ := run_readStream hstream
  rw [hauth] at hvalidate
  refine ⟨?_, FileValidator.validate_receive_eq_ok.mp hvalidate⟩
  rw [FileApi.readFile, requests_bind_ok hget, delivered_append, hchunks,
    delivered_eq_nil
      (meets_getFile permits_silent (Q := fun _ => True) fun _ _ => trivial).requests, List.nil_append]

end

/-! ## When authentication holds -/

/-- A node that sends the messages and then ends the stream normally. -/
def sendingNode (messages : List GetFileResponse) : Environment ApiRequest.Answer Unit
  | _, .rpc _ (.getFile _) => (.ok ⟨messages, none⟩, ())
  | _, _ => (default, ())

theorem sendingNode_serves (messages : List GetFileResponse) :
    Serves (sendingNode messages) messages := by
  intro s info request responses h
  cases h
  rfl

/-- A client without a signer, with `authenticate` enabled. -/
def readingClient : ApiOptions := { keys := none, authenticate := some true }

/-- Without acknowledgments nothing keeps the loop from going through the messages. -/
theorem run_toDataStream_reading {hasher : Hasher} {served messages : List GetFileResponse}
    {requestId : String} {n : Nat} {validator : FileValidator hasher} :
    run (sendingNode served)
        (FileApi.toDataStream readingClient requestId none messages n validator) ()
      = (.ok (messages.foldl FileValidator.receive validator), ()) := by
  induction messages generalizing n validator with
  | nil => rfl
  | cons message messages ih =>
    cases message with
    | proof proof => exact ih
    | undefined => exact ih
    | data data => exact ih

theorem run_readFile_reading {hasher : Hasher} {messages : List GetFileResponse} {bucketId : Nat}
    {cid : Cid} :
    run (sendingNode messages) (FileApi.readFile hasher readingClient {} bucketId cid none) ()
      = ((messages.foldl FileValidator.receive
          (FileValidator.new hasher cid true none)).validate, ()) := by
  change run _ (FileApi.readStream hasher readingClient "" none cid none ⟨messages, none⟩) () = _
  unfold FileApi.readStream
  rw [run_bind_ok run_toDataStream_reading]
  change run _ (Program.ofExcept (FileValidator.validate
    (messages.foldl FileValidator.receive (FileValidator.new hasher cid true none)))) () = _
  cases FileValidator.validate _ <;> rfl

/-- An authenticated read can be trusted exactly when the last proof among the messages is empty,
or there is none, or the data is the content of the CID anyway. -/
theorem FileApi.getFile_authentic_iff (hasher : Hasher) (cid : Cid)
    (messages : List GetFileResponse) :
    (∀ (options : ApiOptions) (params : MetaParams) (bucketId : Nat) (σ : Type)
        (env : Environment ApiRequest.Answer σ) (s : σ),
        options.authenticates = true → Serves env messages →
        Authentic hasher cid (run env (readFile hasher options params bucketId cid none) s).1
          (delivered (Program.requests env
            (readFile hasher options params bucketId cid none) s))) ↔
      lastProofShown messages = false ∨
        hasher.hash (dataChunks messages).flatten = cid.contentHash := by
  constructor
  · intro h
    cases hshown : lastProofShown messages with
    | false => exact .inl rfl
    | true =>
      have hread := h readingClient {} 0 Unit (sendingNode messages) () rfl
        (sendingNode_serves messages)
      have hok : run (sendingNode messages) (readFile hasher readingClient {} 0 cid none) ()
          = (.ok (), ()) := by
        rw [run_readFile_reading, FileValidator.validate_receive_eq_ok.mpr (.inl hshown)]
      have hdelivered := (run_readFile (sendingNode_serves messages) rfl hok).1
      rw [authentic_iff, hok, hdelivered] at hread
      exact .inr (hread rfl)
  · intro h options params bucketId σ env s hauth hserves
    rw [authentic_iff]
    intro hresult
    obtain ⟨hdelivered, hcases⟩ := run_readFile hserves hauth
      (t := (run env (readFile hasher options params bucketId cid none) s).2)
      (Prod.ext hresult rfl)
    rw [hdelivered]
    cases hcases with
    | inr hhash => exact hhash
    | inl hshown =>
      cases h with
      | inl hnone =>
        rw [hshown] at hnone
        cases hnone
      | inr hhash => exact hhash

/-- A hash of 32 bytes that keeps the start of the input. -/
def plainHash (bytes : Bytes) : Bytes := (bytes ++ List.replicate 32 0).take 32

/-- The content `1`, and `2` under a proof that nobody looks at. -/
def forgedMessages : List GetFileResponse := [.proof [[0]], .data [2]]

/-- The stream of the forged messages ends normally. -/
theorem FileApi.getFile_forged :
    let hasher := Hasher.buffered plainHash
    let read := readFile hasher readingClient {} 0 (plainHash [1]) none
    ¬ Authentic hasher (plainHash [1]) (run (sendingNode forgedMessages) read ()).1
        (delivered (Program.requests (sendingNode forgedMessages) read ())) := by
  intro hasher read h
  have hforged : hasher.hash [2] = plainHash [1] := h.1 rfl
  have hne : plainHash [2] ≠ plainHash [1] := by decide
  exact hne hforged

end CereDdc
