import CereDdc.Fallback
import CereDdc.NodeClient
import CereDdc.StoredFile

/-!
# Correlation — the correlation ids of a call

A caller may give an operation a correlation id. `BalancedNode` fills one in
where there is none and hands it to the nodes, `StorageNode` puts it into the
metadata of its calls. A file that is uploaded in parts loses it on the way.
-/

namespace CereDdc

open Kit Program Api

/-! ## The operations of `BalancedNode` -/

/-- What the environment does in one attempt of an operation. -/
structure NodeTurn (σ : Type) where
  getNode : List NodeId → Except JsError NodeId
  node : NodeId → NodeClient
  env : Environment ApiRequest.Answer σ

/-- A `BalancedNode`, and what its environment does in one call. -/
structure BalancedCall (σ : Type) where
  retries : RetriesConfig
  package : AsyncRetry
  freshId : String
  turns : List (NodeTurn σ)
  state : σ

namespace BalancedCall

variable {σ α : Type} (call : BalancedCall σ)

/-- `withCorrelationId(options)` -/
def withCorrelationId (options : OperationOptions) : OperationOptions :=
  { options with correlationId := some (orString options.correlationId call.freshId) }

/-- The operation on the node of an attempt, with a log of what it asks. -/
def body (program : NodeClient → ApiProgram α) (turn : NodeTurn σ) (node : NodeId)
    (s : σ × List ApiRequest) : Except JsError α × (σ × List ApiRequest) :=
  let (result, t) := run turn.env (program (turn.node node)) s.1
  (result, (t, s.2 ++ Program.requests turn.env (program (turn.node node)) s.1))

/-- `this.withRetry(bucketId, operation, options, body)`: the outcome, and all that is asked. -/
def withRetry (options : OperationOptions) (program : NodeClient → ApiProgram α) :
    Outcome JsError α × List ApiRequest :=
  let run := BalancedNode.withRetry call.retries.retryOptions call.package
    (orString options.correlationId "") NodeTurn.getNode (fun _ => body program) call.turns
    (call.state, [])
  (run.1, run.2.2.2)

def readPiece (bucketId : Nat) (cidOrName : String) (readOptions : PieceReadOptions := {}) :
    Outcome JsError (String × ApiProgram Unit) × List ApiRequest :=
  let options := call.withCorrelationId readOptions.toOperationOptions
  call.withRetry options fun node =>
    node.readPiece bucketId cidOrName { readOptions with toOperationOptions := options }

def storeDagNode (bucketId : Nat) (dagNode : DagNode) (storeOptions : StoreOptions := {}) :
    Outcome JsError String × List ApiRequest :=
  let options := call.withCorrelationId storeOptions.toOperationOptions
  call.withRetry options fun node =>
    node.storeDagNode bucketId dagNode { storeOptions with toOperationOptions := options }

def getDagNode (bucketId : Nat) (cidOrName : String) (getOptions : DagNodeGetOptions := {}) :
    Outcome JsError (Option DagNodeResponse) × List ApiRequest :=
  let options := call.withCorrelationId getOptions.toOperationOptions
  call.withRetry options fun node =>
    node.getDagNode bucketId cidOrName { getOptions with toOperationOptions := options }

def storeCnsRecord (bucketId : Nat) (record : CnsEntry) (storeOptions : OperationOptions := {}) :
    Outcome JsError RecordMessage × List ApiRequest :=
  let options := call.withCorrelationId storeOptions
  call.withRetry options fun node => node.storeCnsRecord bucketId record options

def getCnsRecord (bucketId : Nat) (name : String) (getOptions : CnsRecordGetOptions := {}) :
    Outcome JsError (Option CnsRecordResponse) × List ApiRequest :=
  let options := call.withCorrelationId getOptions.toOperationOptions
  call.withRetry options fun node =>
    node.getCnsRecord bucketId name { getOptions with toOperationOptions := options }

def resolveName (bucketId : Nat) (cidOrName : String) (resolveOptions : CnsRecordGetOptions := {}) :
    Outcome JsError String × List ApiRequest :=
  let options := call.withCorrelationId resolveOptions.toOperationOptions
  call.withRetry options fun node =>
    node.resolveName bucketId cidOrName { resolveOptions with toOperationOptions := options }

/-- `FileStorage.read(bucketId, cidOrName, options)`; its response is the CID and the body of the
piece. -/
def read (bucketId : Nat) (cidOrName : String) (options : PieceReadOptions := {}) :
    Outcome JsError (String × ApiProgram Unit) × List ApiRequest :=
  call.readPiece bucketId cidOrName options

end BalancedCall

/-! ## Calls with the id -/

/-- A call of a client has this correlation id. -/
def ApiRequest.Correlated (id : String) : ApiRequest → Prop
  | rpc info _ => info.correlationId = id
  | _ => True

section

variable {id : String} {options : OperationOptions} {params : MetaParams} {node : NodeClient}
  {bucketId : Nat}

theorem orString_of_ne (h : id ≠ "") (fallback : String) : orString (some id) fallback = id := by
  rw [orString, if_neg h]

theorem permits_correlated (h : params.correlationId = some id) (hid : id ≠ "")
    {options : ApiOptions} : Permits (ApiRequest.Correlated id) options params where
  now := trivial
  uuid := trivial
  ready := fun _ _ => trivial
  sign := fun _ _ _ _ _ => trivial
  rpc := fun _ _ hcarried => hcarried.2 id h hid
  ack := fun _ => trivial
  complete := trivial

theorem prepares_correlated {keys : Option Keys} {token : Option AuthToken} :
    Prepares (ApiRequest.Correlated id) keys token where
  now := trivial
  uuid := trivial
  ready := fun _ _ => trivial
  sign := fun _ _ _ _ _ => trivial

theorem meets_createAuthToken {accessToken : Option TokenInput} :
    (Api.createAuthToken accessToken).All (ApiRequest.Correlated id) :=
  meets_await ⟨trivial, fun _ _ _ => trivial⟩

theorem meets_metaParams (h : options.correlationId = some id) (hid : id ≠ "") :
    (NodeClient.metaParams options).Meets (ApiRequest.Correlated id)
      fun params => params.correlationId = some id := by
  refine .bind meets_createAuthToken fun token _ => ?_
  unfold NodeClient.correlationId
  rw [h, Option.filter_some, if_pos (decide_eq_true hid)]
  exact rfl

theorem all_storeCnsRecord (h : options.correlationId = some id) (hid : id ≠ "")
    {record : CnsEntry} :
    (node.storeCnsRecord bucketId record options).All (ApiRequest.Correlated id) := by
  refine .bind (meets_metaParams h hid) fun params hparams => ?_
  refine .bind (meets_ofExcept fun _ _ => trivial) fun record _ => ?_
  exact all_putRecord (permits_correlated hparams hid) prepares_correlated

theorem all_getCnsRecord {options : CnsRecordGetOptions} (h : options.correlationId = some id)
    (hid : id ≠ "") {name : String} :
    (node.getCnsRecord bucketId name options).All (ApiRequest.Correlated id) := by
  refine .bind meets_createAuthToken fun token _ => ?_
  unfold NodeClient.defaultCorrelationId
  rw [h]
  refine .bind (Q := fun given => given = id) rfl fun given hgiven => ?_
  exact .bind (all_getRecord (permits_correlated (congrArg some hgiven) hid)) fun _ _ => trivial

theorem all_resolveName {options : CnsRecordGetOptions} (h : options.correlationId = some id)
    (hid : id ≠ "") {cidOrName : String} :
    (node.resolveName bucketId cidOrName options).All (ApiRequest.Correlated id) := by
  unfold NodeClient.resolveName
  cases node.base32.isCid cidOrName with
  | true => trivial
  | false =>
    refine .bind (all_getCnsRecord h hid) fun record _ => ?_
    cases record <;> trivial

theorem all_storeName {options : StoreOptions} (h : options.correlationId = some id)
    (hid : id ≠ "") {cid : String} :
    (node.storeName bucketId cid options).All (ApiRequest.Correlated id) := by
  unfold NodeClient.storeName
  cases options.name.filter (· ≠ "") with
  | some name => exact .bind (all_storeCnsRecord h hid) fun _ _ => trivial
  | none => trivial

theorem all_storeDagNode {options : StoreOptions} (h : options.correlationId = some id)
    (hid : id ≠ "") {dagNode : DagNode} :
    (node.storeDagNode bucketId dagNode options).All (ApiRequest.Correlated id) := by
  refine .bind (meets_metaParams h hid) fun params hparams => ?_
  refine .bind (meets_ofExcept fun _ _ => trivial) fun message _ => ?_
  refine .bind (all_putNode (permits_correlated hparams hid)) fun cidBytes _ => ?_
  exact .bind (all_storeName h hid) fun _ _ => trivial

theorem all_readPiece {options : PieceReadOptions} (h : options.correlationId = some id)
    (hid : id ≠ "") {cidOrName : String} :
    (node.readPiece bucketId cidOrName options).All (ApiRequest.Correlated id) := by
  refine .bind (meets_metaParams h hid) fun params hparams => ?_
  refine .bind (all_resolveName h hid) fun cid _ => ?_
  refine .bind (meets_ofExcept fun _ _ => trivial) fun bytes _ => ?_
  exact .bind (meets_getFile (Q := fun _ => True) (permits_correlated hparams hid)
    fun _ _ => trivial) fun _ _ => trivial

theorem all_getDagNode {options : DagNodeGetOptions} (h : options.correlationId = some id)
    (hid : id ≠ "") {cidOrName : String} :
    (node.getDagNode bucketId cidOrName options).All (ApiRequest.Correlated id) := by
  refine .bind (meets_metaParams h hid) fun params hparams => ?_
  refine .bind (all_resolveName h hid) fun cid _ => ?_
  refine .bind (meets_ofExcept fun _ _ => trivial) fun bytes _ => ?_
  exact .bind (all_getNode (permits_correlated hparams hid)) fun _ _ => trivial

/-- What no program of an operation asks without the id, no attempt does. -/
theorem BalancedCall.withRetry_correlated {σ α : Type} {call : BalancedCall σ}
    {program : NodeClient → ApiProgram α}
    (h : ∀ node, (program node).All (ApiRequest.Correlated id)) :
    ∀ r ∈ (call.withRetry options program).2, r.Correlated id := by
  refine BalancedNode.withRetry_keeps
    (I := fun s : σ × List ApiRequest => ∀ r ∈ s.2, r.Correlated id) ?_ (by simp)
  intro n turn node s hs r hr
  rcases List.mem_append.mp hr with hr | hr
  · exact hs r hr
  · exact (h (turn.node node)).requests r hr

end

/-! ## `storePiece` and `store` -/

/-- Every call carries the id. -/
def CallsCarry (id : String) (calls : List RpcCall) : Prop :=
  ∀ c ∈ calls, c.info.correlationId = id

section

variable {id : String} {options : PieceStoreOptions} {bucketId : Nat} {turn : Turn}
  {nodeId : NodeId} {piece : StorablePiece}

theorem answered_carry (h : options.correlationId = some id) (hid : id ≠ "") {info : RpcMeta}
    (hinfo : info.correlationId = id) {request : RpcRequest} {cid : Cid} {reads : Reads} :
    CallsCarry id
      (StorageNode.answered nodeId turn bucketId options info request cid reads).calls := by
  intro c hc
  unfold StorageNode.answered StorageNode.storeCnsRecord at hc
  cases hname : options.recordName with
  | none =>
    simp only [hname, List.mem_singleton] at hc
    rw [hc]
    exact hinfo
  | some name =>
    simp only [hname, List.mem_cons, List.not_mem_nil, or_false] at hc
    rcases hc with rfl | rfl
    · exact hinfo
    · rw [h]
      exact orString_of_ne hid _

/-- A node that gets the id puts it into all its calls. -/
theorem storePiece_carry (h : options.correlationId = some id) (hid : id ≠ "") :
    CallsCarry id (StorageNode.storePiece nodeId turn bucketId piece options).calls := by
  have hinfo : orString options.correlationId (turn.freshId 0) = id := by
    rw [h]
    exact orString_of_ne hid _
  unfold StorageNode.storePiece
  cases brokenAt turn.fault .auth with
  | some e => simp [CallsCarry]
  | none =>
    cases piece with
    | multipart p =>
      dsimp only
      cases putMultipartPiece turn.fault (p.storeRequest bucketId) with
      | refused e => simp [CallsCarry]
      | failed sent e => simpa [CallsCarry] using hinfo
      | stored sent => exact answered_carry h hid hinfo
    | piece p =>
      dsimp only
      cases p.size with
      | error e => simp [CallsCarry]
      | ok size =>
        dsimp only
        cases putRawPiece turn.fault bucketId p.isPart p.offset (some size) p.read with
        | refused e => simp [CallsCarry]
        | failed call reads e => simpa [CallsCarry] using hinfo
        | stored call reads => exact answered_carry h hid hinfo

/-- All attempts get the same id: that of the caller, or the one that is filled in. -/
theorem balanced_carry {retries : RetriesConfig} {package : AsyncRetry}
    {freshId : String} {turns : List Turn}
    (h : orString options.correlationId freshId = id) (hid : id ≠ "") :
    CallsCarry id (BalancedNode.storePiece retries package freshId turns bucketId piece
      options).calls := by
  have hoptions : (withCorrelationId freshId options).correlationId = some id := congrArg some h
  rw [BalancedNode.storePiece_eq_withRetry]
  refine BalancedNode.withRetry_keeps (I := fun s : StoreState => CallsCarry id s.calls) ?_
    (by simp [CallsCarry])
  intro n turn node s hs
  unfold storeBody
  cases pieceForAttempt turn.pulls n s.piece with
  | error e => exact hs
  | ok used =>
    intro c hc
    rcases List.mem_append.mp hc with hc | hc
    · exact hs c hc
    · exact storePiece_carry hoptions hid c hc

end

/-- The calls of a run of `store`. -/
def FileRun.calls (run : FileRun) : List RpcCall := run.stores.flatMap (·.run.calls)

/-- A part of the body is there to be sent: any byte of a body that ends, and a full part of one
that fails. -/
def StreamBody.HasPart (partSize : Nat) (body : StreamBody) : Prop :=
  match body.error with
  | none => 0 < body.chunks.flatten.length
  | some _ => partSize ≤ body.chunks.flatten.length

/-- The file is cut into parts, and there is one. -/
def SendsParts (web : Bool) (file : File) (options : FileStoreOptions) : Prop :=
  minPieceSize ≤ options.partSize web ∧ options.partSize web ≤ maxPieceSize ∧
    options.partSize web < file.size ∧ file.body.HasPart (options.partSize web)

section

variable {id : String} {storage : FileStorage} {file : File} {options : FileStoreOptions}

theorem withChunkSize_eq_nil_iff {p : ChunkSize} {chunks : List Bytes} :
    withChunkSize p chunks = [] ↔ chunks.flatten = [] := by
  constructor
  · intro h
    rw [← withChunkSize_flatten p, h, List.flatten_nil]
  · intro h
    refine List.eq_nil_iff_forall_not_mem.mpr fun block hblock => ?_
    have hpos := (withChunkSize_blocks p chunks).length_pos_of_mem p.2 hblock
    rw [← withChunkSize_flatten p] at h
    rw [List.flatten_eq_nil_iff.mp h block hblock] at hpos
    simp at hpos

/-- Of a body without a part the loop of `storeLarge` sees none, however far it reads. -/
theorem StreamBody.withChunkSize_eq_nil_iff {read : Nat} {p : ChunkSize} {body : StreamBody} :
    (body.withChunkSize (1 + read) p).chunks = [] ↔ ¬ body.HasPart p := by
  obtain ⟨chunks, error⟩ := body
  cases error with
  | none =>
    show CereDdc.withChunkSize p chunks = [] ↔ ¬ 0 < chunks.flatten.length
    rw [CereDdc.withChunkSize_eq_nil_iff, List.length_pos_iff, not_not]
  | some e =>
    show (cutChunks p none chunks).1.take (1 + read) = [] ↔ ¬ (p : Nat) ≤ chunks.flatten.length
    rw [List.take_eq_nil_iff, cutChunks_eq_nil_iff]
    omega

theorem storeSmall_carry {options : PieceStoreOptions} (h : options.correlationId = some id)
    (hid : id ≠ "") : CallsCarry id (storage.storeSmall file options).calls := by
  unfold FileStorage.storeSmall
  cases file.body.error with
  | some e => simp [CallsCarry, FileRun.calls]
  | none =>
    have hstore : CallsCarry id (storage.storePiece 0
        (FileStorage.dataPiece file.body.chunks.flatten none) options).run.calls :=
      balanced_carry (by rw [h]; exact orString_of_ne hid _) hid
    simpa [FileRun.calls] using hstore

theorem storeLarge_carry {options : PieceStoreOptions} {partSize : ChunkSize}
    (h : options.correlationId = some id) (hid : id ≠ "")
    (hparts : ¬ file.body.HasPart partSize) :
    CallsCarry id (storage.storeLarge partSize file options).calls := by
  unfold FileStorage.storeLarge
  dsimp only
  rw [StreamBody.withChunkSize_eq_nil_iff.mpr hparts]
  cases (file.body.withChunkSize (1 + storage.readBeforeFailure) partSize).error with
  | some e => simp [CallsCarry, FileRun.calls, FileStorage.storeParts]
  | none =>
    have hstore : ∀ piece, CallsCarry id (storage.storePiece 0 piece options).run.calls :=
      fun piece => balanced_carry (by rw [h]; exact orString_of_ne hid _) hid
    simpa [FileRun.calls, FileStorage.storeParts] using hstore _

/-- A file that is not cut into parts is stored with the id of the caller. -/
theorem store_carry (h : options.correlationId = some id) (hid : id ≠ "")
    (hparts : ¬ SendsParts storage.web file options) :
    CallsCarry id (storage.store file options).calls := by
  unfold FileStorage.store
  dsimp only
  split
  · simp [CallsCarry, FileRun.calls]
  · rename_i hsize
    split
    · rename_i hlarge
      refine storeLarge_carry h hid fun hpart => ?_
      exact hparts ⟨by omega, by omega, hlarge, hpart⟩
    · exact storeSmall_carry h hid

/-! ## Parts -/

theorem exists_call_of_storedPieces {store : PieceStore} {stored : RawPieceCall × Cid}
    (h : storedPieces [store] = [stored]) : ∃ c, c ∈ store.run.calls := by
  by_contra hnone
  have hcalls : store.run.calls = [] :=
    List.eq_nil_iff_forall_not_mem.mpr fun c hc => hnone ⟨c, hc⟩
  cases houtcome : store.run.outcome <;> simp [storedPieces, hcalls, houtcome, lastAnswer] at h

theorem storeParts_head {i offset : Nat} {part : Bytes} {parts : List Bytes} :
    storage.storePiece i (FileStorage.dataPiece part (some offset)) {} ∈
      (storage.storeParts i offset (part :: parts)).2 := by
  unfold FileStorage.storeParts
  dsimp only
  cases (storage.storePiece i (FileStorage.dataPiece part (some offset)) {}).run.outcome with
  | pending => simp
  | rejected e => simp
  | resolved cid =>
    dsimp only
    cases storage.storeParts (i + 1) (offset + part.length) parts with
    | mk outcome stores => cases outcome <;> simp

/-- The parts are no longer than the part size, and none is empty. -/
theorem StreamBody.withChunkSize_length {read : Nat} {p : ChunkSize} {body : StreamBody} :
    ∀ part ∈ (body.withChunkSize read p).chunks, 0 < part.length ∧ part.length ≤ p := by
  obtain ⟨chunks, error⟩ := body
  intro part hpart
  cases error with
  | none =>
    have hblocks := withChunkSize_blocks p chunks
    exact ⟨hblocks.length_pos_of_mem p.2 hpart, hblocks.length_le_of_mem hpart⟩
  | some e =>
    have hlength := (cutChunks_spec p none chunks p.2).2.1 part (List.mem_of_mem_take hpart)
    have hp := p.2
    omega

/-- The first part goes out with the id that is filled in for it, whatever becomes of the rest. -/
theorem storeLarge_part {options : PieceStoreOptions} {partSize : ChunkSize}
    (haccepts : storage.Accepts) (hle : partSize.1 ≤ maxPieceSize)
    (hpart : file.body.HasPart partSize) (hfresh : storage.freshId 0 ≠ "") :
    ∃ c ∈ (storage.storeLarge partSize file options).calls,
      c.info.correlationId = storage.freshId 0 := by
  cases hparts : (file.body.withChunkSize (1 + storage.readBeforeFailure) partSize).chunks with
  | nil => exact absurd hpart (StreamBody.withChunkSize_eq_nil_iff.mp hparts)
  | cons part parts =>
    obtain ⟨hpos, hlength⟩ := StreamBody.withChunkSize_length part (by rw [hparts]; simp)
    obtain ⟨cid, hcid⟩ := FileStorage.storePiece_data_accepted haccepts 0 (some 0) {} hpos
      (by omega)
    obtain ⟨-, -, hstored⟩ := storage.storePiece_data hcid
    obtain ⟨c, hc⟩ := exists_call_of_storedPieces hstored
    have hcarry : CallsCarry (storage.freshId 0)
        (storage.storePiece 0 (FileStorage.dataPiece part (some 0)) {}).run.calls :=
      balanced_carry rfl hfresh
    refine ⟨c, List.mem_flatMap.mpr ⟨_, ?_, hc⟩, hcarry c hc⟩
    have hhead : storage.storePiece 0 (FileStorage.dataPiece part (some 0)) {} ∈
        (storage.storeParts 0 0 (part :: parts)).2 := storeParts_head
    unfold FileStorage.storeLarge
    dsimp only
    rw [hparts]
    cases hrun : storage.storeParts 0 0 (part :: parts) with
    | mk outcome stores =>
      rw [hrun] at hhead
      cases outcome with
      | pending => exact hhead
      | rejected e => exact hhead
      | resolved cids =>
        cases (file.body.withChunkSize (1 + storage.readBeforeFailure) partSize).error with
        | some e => exact hhead
        | none => exact List.mem_append_left _ hhead

end

/-! ## All operations -/

/-- The operations that take a correlation id. -/
inductive CorrelatedCall
  /-- `FileStorage.store`, in the build for browsers or not -/
  | store (web : Bool) (file : File) (options : FileStoreOptions)
  /-- `FileStorage.read` -/
  | read (cidOrName : String) (options : PieceReadOptions)
  | storePiece (piece : StorablePiece) (options : PieceStoreOptions)
  | readPiece (cidOrName : String) (options : PieceReadOptions)
  | storeDagNode (dagNode : DagNode) (options : StoreOptions)
  | getDagNode (cidOrName : String) (options : DagNodeGetOptions)
  | storeCnsRecord (record : CnsEntry) (options : OperationOptions)
  | getCnsRecord (name : String) (options : CnsRecordGetOptions)
  | resolveName (cidOrName : String) (options : CnsRecordGetOptions)

/-- Whatever the environment does, every RPC of the operation carries `id`, which is put into
its options. -/
def CorrelatedCall.Carries (bucketId : Nat) (id : String) : CorrelatedCall → Prop
  | store web file options =>
    ∀ storage : FileStorage, storage.web = web → storage.bucketId = bucketId →
      CallsCarry id (storage.store file { options with correlationId := some id }).calls
  | storePiece piece options =>
    ∀ retries package freshId turns,
      CallsCarry id (BalancedNode.storePiece retries package freshId turns bucketId piece
        { options with correlationId := some id }).calls
  | read cidOrName options =>
    ∀ (σ : Type) (call : BalancedCall σ), ∀ r ∈
      (call.read bucketId cidOrName { options with correlationId := some id }).2, r.Correlated id
  | readPiece cidOrName options =>
    ∀ (σ : Type) (call : BalancedCall σ), ∀ r ∈
      (call.readPiece bucketId cidOrName { options with correlationId := some id }).2,
        r.Correlated id
  | storeDagNode dagNode options =>
    ∀ (σ : Type) (call : BalancedCall σ), ∀ r ∈
      (call.storeDagNode bucketId dagNode { options with correlationId := some id }).2,
        r.Correlated id
  | getDagNode cidOrName options =>
    ∀ (σ : Type) (call : BalancedCall σ), ∀ r ∈
      (call.getDagNode bucketId cidOrName { options with correlationId := some id }).2,
        r.Correlated id
  | storeCnsRecord record options =>
    ∀ (σ : Type) (call : BalancedCall σ), ∀ r ∈
      (call.storeCnsRecord bucketId record { options with correlationId := some id }).2,
        r.Correlated id
  | getCnsRecord name options =>
    ∀ (σ : Type) (call : BalancedCall σ), ∀ r ∈
      (call.getCnsRecord bucketId name { options with correlationId := some id }).2,
        r.Correlated id
  | resolveName cidOrName options =>
    ∀ (σ : Type) (call : BalancedCall σ), ∀ r ∈
      (call.resolveName bucketId cidOrName { options with correlationId := some id }).2,
        r.Correlated id

/-- The operation uploads parts of a file. -/
def CorrelatedCall.SendsParts : CorrelatedCall → Prop
  | store web file options => CereDdc.SendsParts web file options
  | _ => False

/-- A storage whose nodes accept everything, with ids of its own. -/
def freshStorage (web : Bool) (bucketId : Nat) (freshId : String) : FileStorage where
  web := web
  retries := .unset
  package := ⟨fun _ => 0, fun _ e => e⟩
  bucketId := bucketId
  freshId := fun _ => freshId
  turns := fun _ =>
    [{ getNode := fun _ => .ok "node", fault := none, token := fun _ => "",
       freshId := fun _ => freshId, cidOf := fun _ => [] }]

theorem freshStorage_accepts (web : Bool) (bucketId : Nat) (freshId : String) :
    (freshStorage web bucketId freshId).Accepts := fun _ => ⟨_, [], "node", rfl, rfl, rfl⟩

theorem append_quote_ne (id : String) : id ++ "'" ≠ id ∧ id ++ "'" ≠ "" := by
  have hlength : (id ++ "'").length = id.length + 1 := String.length_append id "'"
  constructor
  · intro heq
    rw [heq] at hlength
    omega
  · intro heq
    rw [heq] at hlength
    have hzero : "".length = 0 := rfl
    omega

theorem store_large {storage : FileStorage} {file : File} {options : FileStoreOptions}
    (h : SendsParts storage.web file options) :
    ∃ partSize : ChunkSize, partSize.1 ≤ maxPieceSize ∧ file.body.HasPart partSize ∧
      storage.store file options
        = storage.storeLarge partSize file options.toPieceStoreOptions := by
  obtain ⟨hmin, hmax, hlarge, hpart⟩ := h
  have hpos : 0 < options.partSize storage.web := by
    have := minPieceSize_pos
    omega
  refine ⟨⟨options.partSize storage.web, hpos⟩, hmax, hpart, ?_⟩
  rw [FileStorage.store_eq (p := ⟨_, hpos⟩) hmin hmax rfl, if_pos hlarge]

/-- A file that is cut into parts is not stored with the id of the caller. -/
theorem not_carries_store {id : String} {bucketId : Nat} {web : Bool} {file : File}
    {options : FileStoreOptions} (h : SendsParts web file options) :
    ¬ CorrelatedCall.Carries bucketId id (.store web file options) := by
  intro hcarries
  obtain ⟨hother, hnonempty⟩ := append_quote_ne id
  have hcalls := hcarries (freshStorage web bucketId (id ++ "'")) rfl rfl
  have hsends : SendsParts (freshStorage web bucketId (id ++ "'")).web file
      { options with correlationId := some id } := h
  obtain ⟨partSize, hle, hpart, hstore⟩ := store_large hsends
  rw [hstore] at hcalls
  obtain ⟨c, hc, hfresh⟩ := storeLarge_part
    (freshStorage_accepts web bucketId (id ++ "'")) hle hpart hnonempty
  exact hother (hfresh.symm.trans (hcalls c hc))

/-- Every RPC of an operation carries the correlation id that was given exactly when the operation
does not upload a file in parts. -/
theorem CorrelatedCall.carries_iff (bucketId : Nat) (id : String) (call : CorrelatedCall)
    (hid : id ≠ "") : call.Carries bucketId id ↔ ¬ call.SendsParts := by
  cases call with
  | store web file options =>
    constructor
    · exact fun h hsends => not_carries_store hsends h
    · intro h storage hweb _
      subst hweb
      exact store_carry rfl hid h
  | storePiece piece options =>
    refine ⟨fun _ h => h, fun _ _ _ _ _ => ?_⟩
    exact balanced_carry (orString_of_ne hid _) hid
  | read cidOrName options =>
    refine ⟨fun _ h => h, fun _ σ call => ?_⟩
    exact BalancedCall.withRetry_correlated fun node =>
      all_readPiece (congrArg some (orString_of_ne hid _)) hid
  | readPiece cidOrName options =>
    refine ⟨fun _ h => h, fun _ σ call => ?_⟩
    exact BalancedCall.withRetry_correlated fun node =>
      all_readPiece (congrArg some (orString_of_ne hid _)) hid
  | storeDagNode dagNode options =>
    refine ⟨fun _ h => h, fun _ σ call => ?_⟩
    exact BalancedCall.withRetry_correlated fun node =>
      all_storeDagNode (congrArg some (orString_of_ne hid _)) hid
  | getDagNode cidOrName options =>
    refine ⟨fun _ h => h, fun _ σ call => ?_⟩
    exact BalancedCall.withRetry_correlated fun node =>
      all_getDagNode (congrArg some (orString_of_ne hid _)) hid
  | storeCnsRecord record options =>
    refine ⟨fun _ h => h, fun _ σ call => ?_⟩
    exact BalancedCall.withRetry_correlated fun node =>
      all_storeCnsRecord (congrArg some (orString_of_ne hid _)) hid
  | getCnsRecord name options =>
    refine ⟨fun _ h => h, fun _ σ call => ?_⟩
    exact BalancedCall.withRetry_correlated fun node =>
      all_getCnsRecord (congrArg some (orString_of_ne hid _)) hid
  | resolveName cidOrName options =>
    refine ⟨fun _ h => h, fun _ σ call => ?_⟩
    exact BalancedCall.withRetry_correlated fun node =>
      all_resolveName (congrArg some (orString_of_ne hid _)) hid

theorem CorrelatedCall.carries_iff_read :
    (CorrelatedCall.read "photos/cat" {}).Carries 1 "id" ↔
      ¬ (CorrelatedCall.read "photos/cat" {}).SendsParts :=
  CorrelatedCall.carries_iff 1 "id" (.read "photos/cat" {}) (by decide)

/-- A file of a little more than the smallest part size. -/
def twoPartFile : File :=
  ⟨{ chunks := [List.replicate (minPieceSize + 1) 0] }, minPieceSize + 1⟩

/-- Its parts carry another id. -/
theorem CorrelatedCall.store_parts_uncorrelated :
    ¬ (CorrelatedCall.store false twoPartFile { maxBufferSize := some minPieceSize }).Carries 1
      "id" := by
  refine not_carries_store ⟨?_, ?_, ?_, ?_⟩
  · decide
  · decide
  · decide
  · show 0 < [List.replicate (minPieceSize + 1) (0 : UInt8)].flatten.length
    rw [List.flatten_singleton, List.length_replicate]
    omega

end CereDdc
