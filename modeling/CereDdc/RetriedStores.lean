import CereDdc.Kit.Effects
import CereDdc.Correlation
import CereDdc.RetriedOperation
import CereDdc.NodeScripts

/-!
# RetriedStores — stores that are tried again

What the operations of `nodes/BalancedNode.ts` leave in the buckets where calls may
fail before or after they took effect, and are tried again on this or another node.
However many attempts there were, the operation took effect once.
-/

namespace CereDdc

open Kit Program Api

/-! ## Buckets -/

/-- The DAG nodes and the names of all buckets. -/
@[ext]
structure Buckets where
  nodes : Nat → Cid → Option NodeMessage
  names : Nat → String → Option Cid

namespace Buckets

def putNode (bucketId : Nat) (cid : Cid) (message : NodeMessage) (v : Buckets) : Buckets :=
  { v with nodes := fun b c => if b = bucketId ∧ c = cid then some message else v.nodes b c }

def putName (bucketId : Nat) (name : String) (cid : Cid) (v : Buckets) : Buckets :=
  { v with names := fun b n => if b = bucketId ∧ n = name then some cid else v.names b n }

variable {bucketId bucketId' : Nat} {cid cid' : Cid} {name : String} {message : NodeMessage}
  {v : Buckets}

theorem putNode_again :
    putNode bucketId cid message (putNode bucketId cid message v)
      = putNode bucketId cid message v := by
  ext1
  · funext b c
    simp only [putNode]
    split <;> rfl
  · rfl

theorem putName_again :
    putName bucketId name cid (putName bucketId name cid v) = putName bucketId name cid v := by
  ext1
  · rfl
  · funext b n
    simp only [putName]
    split <;> rfl

theorem putName_putNode :
    putName bucketId' name cid' (putNode bucketId cid message v)
      = putNode bucketId cid message (putName bucketId' name cid' v) := rfl

end Buckets

/-! ## Operations -/

/-- An operation on the DAG nodes and the names of a bucket. -/
inductive BucketOperation
  | storeDagNode (bucketId : Nat) (node : DagNode) (options : StoreOptions)
  | storeCnsRecord (bucketId : Nat) (record : CnsEntry) (options : OperationOptions)
  | getDagNode (bucketId : Nat) (cidOrName : String) (options : DagNodeGetOptions)
  | getCnsRecord (bucketId : Nat) (name : String) (options : CnsRecordGetOptions)
  | resolveName (bucketId : Nat) (cidOrName : String) (options : CnsRecordGetOptions)

/-- What an operation comes back with. -/
inductive BucketResult
  | cid (text : String)
  | record (record : RecordMessage)
  | node (response : Option DagNodeResponse)
  | found (response : Option CnsRecordResponse)

namespace BucketOperation

def options : BucketOperation → OperationOptions
  | storeDagNode _ _ options => options.toOperationOptions
  | storeCnsRecord _ _ options => options
  | getDagNode _ _ options => options.toOperationOptions
  | getCnsRecord _ _ options => options.toOperationOptions
  | resolveName _ _ options => options.toOperationOptions

/-- The operation on a node, with the options that `BalancedNode` has filled in. -/
def program (operation : BucketOperation) (filled : OperationOptions) (node : NodeClient) :
    ApiProgram BucketResult :=
  match operation with
  | storeDagNode bucketId dagNode options => do
    let text ← node.storeDagNode bucketId dagNode { options with toOperationOptions := filled }
    return .cid text
  | storeCnsRecord bucketId record _ => do
    let stored ← node.storeCnsRecord bucketId record filled
    return .record stored
  | getDagNode bucketId cidOrName options => do
    let response ← node.getDagNode bucketId cidOrName { options with toOperationOptions := filled }
    return .node response
  | getCnsRecord bucketId name options => do
    let response ← node.getCnsRecord bucketId name { options with toOperationOptions := filled }
    return .found response
  | resolveName bucketId cidOrName options => do
    let text ← node.resolveName bucketId cidOrName { options with toOperationOptions := filled }
    return .cid text

/-- The updates that the operation is for. -/
def updates (base32 : Base32) (address : NodeMessage → Cid) :
    BucketOperation → List (Buckets → Buckets)
  | storeDagNode bucketId node options =>
    match mapDagNodeToAPI base32 node with
    | .ok message =>
      .putNode bucketId (address message) message ::
        (options.name.filter (· ≠ "")).toList.map fun name =>
          .putName bucketId name (address message)
    | .error _ => []
  | storeCnsRecord bucketId record _ =>
    match base32.decode record.cid with
    | .ok cid => [.putName bucketId record.name cid]
    | .error _ => []
  | _ => []

/-- The result says what was stored. -/
def Reports (base32 : Base32) (address : NodeMessage → Cid) :
    BucketOperation → BucketResult → Prop
  | storeDagNode _ node _, result => ∃ message, mapDagNodeToAPI base32 node = .ok message ∧
      result = .cid (base32.encode (address message))
  | storeCnsRecord _ record _, result => ∃ cid signature, base32.decode record.cid = .ok cid ∧
      result = .record { cid, name := record.name, signature := some signature }
  | _, _ => True

theorem replayable_nil : Replayable ([] : List (Buckets → Buckets)) where
  again := fun _ hf => absurd hf List.not_mem_nil
  swap := fun _ hf => absurd hf List.not_mem_nil

theorem replayable_updates {base32 : Base32} {address : NodeMessage → Cid}
    {operation : BucketOperation} : Replayable (operation.updates base32 address) := by
  cases operation with
  | storeDagNode bucketId node options =>
    simp only [updates]
    cases mapDagNodeToAPI base32 node with
    | error e => exact replayable_nil
    | ok message =>
      cases options.name.filter (· ≠ "") with
      | none => constructor <;> simp [Buckets.putNode_again]
      | some name =>
        constructor <;> simp [Buckets.putNode_again, Buckets.putName_again, Buckets.putName_putNode]
  | storeCnsRecord bucketId record options =>
    simp only [updates]
    cases base32.decode record.cid with
    | error e => exact replayable_nil
    | ok cid => constructor <;> simp [Buckets.putName_again]
  | _ => exact replayable_nil

end BucketOperation

/-! ## Nodes that lose calls -/

/-- An environment with nodes that store into the buckets. A call that stores may fail before it
took effect or after; other calls may come to anything. -/
structure LossyNode {σ : Type} (env : Environment ApiRequest.Answer σ) (view : σ → Buckets)
    (address : NodeMessage → Cid) : Prop where
  dagPut : ∀ s info bucketId message cid,
    let r := env s (.rpc info (.dagPut bucketId (some message) cid))
    (view r.2 = (view s).putNode bucketId (address message) message ∧
        ∀ cid, r.1 = .ok cid → cid = address message) ∨
      view r.2 = view s ∧ ∃ e, r.1 = .error e
  cnsPut : ∀ s info bucketId record,
    let r := env s (.rpc info (.cnsPut bucketId record))
    view r.2 = (view s).putName bucketId record.name record.cid ∨
      view r.2 = view s ∧ ∃ e, r.1 = .error e
  keep : ∀ s r, r.Reads → view (env s r).2 = view s

section

variable {σ : Type} {env : Environment ApiRequest.Answer σ} {view : σ → Buckets}
  {address : NodeMessage → Cid} {base32 : Base32} {node : NodeClient} {bucketId : Nat}
  {name : String} {message : NodeMessage}

theorem run_call_eq {info : ApiMeta} {method : RpcMethod} {s : σ} :
    run env (call info method) s
      = ((env s (.rpc info method)).1, (env s (.rpc info method)).2) := run_ofExcept

theorem LossyNode.does_cnsPut (h : LossyNode env view address) (info : ApiMeta)
    (record : RecordMessage) :
    Does env view (call info (.cnsPut bucketId record))
      (Makes [.putName bucketId record.name record.cid] fun _ => True) := by
  intro s
  rw [run_call_eq]
  rcases h.cnsPut s info bucketId record with hput | ⟨hlost, e, he⟩
  · exact ⟨1, hput, fun _ _ => ⟨Nat.le_refl 1, trivial⟩⟩
  · exact ⟨0, hlost, fun a ha => by cases he.symm.trans ha⟩

theorem LossyNode.does_dagPut (h : LossyNode env view address) (info : ApiMeta)
    (message : NodeMessage) (cid : Option Cid) :
    Does env view (call info (.dagPut bucketId (some message) cid))
      (Makes [.putNode bucketId (address message) message] (· = address message)) := by
  intro s
  have hrun := @run_call_eq _ env info (.dagPut bucketId (some message) cid) s
  rcases h.dagPut s info bucketId message cid with ⟨hput, hcid⟩ | ⟨hlost, e, he⟩
  · refine ⟨1, ?_, fun a ha => ⟨Nat.le_refl 1, hcid a ?_⟩⟩
    · rw [hrun]
      exact hput
    · rw [hrun] at ha
      exact ha
  · refine ⟨0, ?_, fun a ha => ?_⟩
    · rw [hrun]
      exact hlost
    · rw [hrun] at ha
      cases he.symm.trans ha

theorem LossyNode.does_putRecord (h : LossyNode env view address) {options : ApiOptions}
    {params : MetaParams} {record : RecordMessage} :
    Does env view (CnsApi.putRecord options params bucketId record)
      (Makes [.putName bucketId record.name record.cid] fun stored =>
        ∃ signature, stored = { record with signature := some signature }) := by
  refine .after reads_create h.keep fun info _ => ?_
  cases options.keys with
  | none => exact does_fail
  | some keys =>
    refine .after (all_createSignature prepares_reads) h.keep fun signature _ => ?_
    refine .after (all_createActivityRequest prepares_reads) h.keep fun request _ => ?_
    exact (h.does_cnsPut _ { record with signature := some signature }).map
      fun _ _ => ⟨signature, rfl⟩

theorem LossyNode.does_storeCnsRecord (h : LossyNode env view address) {record : CnsEntry}
    {options : OperationOptions} {cid : Cid} (hcid : node.base32.decode record.cid = .ok cid) :
    Does env view (node.storeCnsRecord bucketId record options)
      (Makes [.putName bucketId record.name cid] fun stored =>
        ∃ signature, stored = { cid, name := record.name, signature := some signature }) := by
  have hmessage : mapCnsRecordToAPI node.base32 record = .ok { cid, name := record.name } := by
    unfold mapCnsRecordToAPI
    rw [hcid]
    rfl
  refine .after reads_metaParams h.keep fun params _ => ?_
  rw [hmessage, ofExcept_ok, done_bind]
  exact h.does_putRecord

theorem LossyNode.does_storeName (h : LossyNode env view address) {cid : Cid}
    {options : StoreOptions} :
    Does env view (node.storeName bucketId (node.base32.encode cid) options)
      (Makes ((options.name.filter (· ≠ "")).toList.map fun name =>
        .putName bucketId name cid) fun _ => True) := by
  unfold NodeClient.storeName
  cases options.name.filter (· ≠ "") with
  | none => exact does_done trivial
  | some name =>
    exact (h.does_storeCnsRecord (node.base32.decode_encode cid)).map fun _ _ => trivial

theorem LossyNode.does_storeDagNode (h : LossyNode env view address) {dagNode : DagNode}
    {options : StoreOptions} (hmessage : mapDagNodeToAPI node.base32 dagNode = .ok message) :
    Does env view (node.storeDagNode bucketId dagNode options)
      (Makes (.putNode bucketId (address message) message ::
        (options.name.filter (· ≠ "")).toList.map fun name =>
          .putName bucketId name (address message))
        (· = node.base32.encode (address message))) := by
  refine .after reads_metaParams h.keep fun params _ => ?_
  rw [hmessage, ofExcept_ok, done_bind]
  have hput : Does env view (DagApi.putNode node.options params bucketId (some message) none)
      (Makes [.putNode bucketId (address message) message] (· = address message)) := by
    refine .after reads_create h.keep fun info _ => ?_
    refine .after reads_signMeta h.keep fun info _ => ?_
    exact h.does_dagPut info message none
  refine hput.append fun cid hcid => ?_
  rw [hcid]
  exact h.does_storeName.map fun _ _ => rfl

theorem LossyNode.does_program (h : LossyNode env view address) (operation : BucketOperation)
    (filled : OperationOptions) :
    Does env view (operation.program filled node)
      (Makes (operation.updates node.base32 address)
        (operation.Reports node.base32 address)) := by
  cases operation with
  | storeDagNode bucketId dagNode options =>
    simp only [BucketOperation.updates]
    cases hmessage : mapDagNodeToAPI node.base32 dagNode with
    | ok message =>
      refine (h.does_storeDagNode hmessage).map fun text htext => ?_
      exact ⟨message, hmessage, congrArg BucketResult.cid htext⟩
    | error e =>
      have hnone : Does env view
          (node.storeDagNode bucketId dagNode { options with toOperationOptions := filled })
          (Makes [] fun _ => False) := by
        refine .after reads_metaParams h.keep fun params _ => ?_
        rw [hmessage, ofExcept_error]
        exact does_fail
      exact hnone.map fun _ => False.elim
  | storeCnsRecord bucketId record options =>
    simp only [BucketOperation.updates]
    cases hcid : node.base32.decode record.cid with
    | ok cid =>
      refine (h.does_storeCnsRecord hcid).map fun stored hstored => ?_
      obtain ⟨signature, rfl⟩ := hstored
      exact ⟨cid, signature, hcid, rfl⟩
    | error e =>
      have hnone : Does env view (node.storeCnsRecord bucketId record filled)
          (Makes [] fun _ => False) := by
        refine .after reads_metaParams h.keep fun params _ => ?_
        unfold mapCnsRecordToAPI
        rw [hcid]
        exact does_fail
      exact hnone.map fun _ => False.elim
  | getDagNode bucketId cidOrName options =>
    exact (reads_getDagNode.makes h.keep).map fun _ _ => trivial
  | getCnsRecord bucketId name options =>
    exact (reads_getCnsRecord.makes h.keep).map fun _ _ => trivial
  | resolveName bucketId cidOrName options =>
    exact (reads_resolveName.makes h.keep).map fun _ _ => trivial

end

/-! ## Operations that are tried again -/

namespace BalancedCall

variable {σ α : Type}

/-- `withRetry` as above: the outcome, and the state that the attempts leave. -/
def leaves (call : BalancedCall σ) (options : OperationOptions)
    (program : NodeClient → ApiProgram α) : Outcome JsError α × σ :=
  let run := BalancedNode.withRetry call.retries.retryOptions call.package
    (orString options.correlationId "") NodeTurn.getNode (fun _ => body program) call.turns
    (call.state, [])
  (run.1, run.2.2.1)

/-- The operation of `BalancedNode`. -/
def perform (call : BalancedCall σ) (operation : BucketOperation) :
    Outcome JsError BucketResult × σ :=
  let options := call.withCorrelationId operation.options
  call.leaves options (operation.program options)

/-- The operations one after the other; none is begun before the one in front of it has settled. -/
def performAll : List (BalancedCall σ × BucketOperation) → σ →
    List (Outcome JsError BucketResult) × σ
  | [], s => ([], s)
  | (call, operation) :: rest, s =>
    match { call with state := s }.perform operation with
    | (.pending, t) => ([.pending], t)
    | (outcome, t) =>
      let (outcomes, u) := performAll rest t
      (outcome :: outcomes, u)

end BalancedCall

/-- Every operation took effect once: in full if it resolved, and then its result says so, else
perhaps in part. -/
inductive TookEffect (base32 : Base32) (address : NodeMessage → Cid) :
    Buckets → List (BucketOperation × Outcome JsError BucketResult) → Buckets → Prop
  | nil {v : Buckets} : TookEffect base32 address v [] v
  | full {v w : Buckets} {operation : BucketOperation} {result : BucketResult}
    {rest : List (BucketOperation × Outcome JsError BucketResult)} :
    operation.Reports base32 address result →
    TookEffect base32 address (applyAll (operation.updates base32 address) v) rest w →
    TookEffect base32 address v ((operation, .resolved result) :: rest) w
  | part {v w : Buckets} {operation : BucketOperation} {outcome : Outcome JsError BucketResult}
    {rest : List (BucketOperation × Outcome JsError BucketResult)} (k : Nat) :
    (∀ result, outcome ≠ .resolved result) →
    TookEffect base32 address (applyAll ((operation.updates base32 address).take k) v) rest w →
    TookEffect base32 address v ((operation, outcome) :: rest) w

section

variable {σ α : Type} {view : σ → Buckets} {address : NodeMessage → Cid} {base32 : Base32}
  {us : List (Buckets → Buckets)} {Q : α → Prop} {program : NodeClient → ApiProgram α}
  {call : BalancedCall σ} {v : Buckets}

/-- An attempt makes some of the updates again, and all of them if it resolves. -/
theorem withRetryAttempt_leaves (hus : Replayable us) {turn : NodeTurn σ} {correlationId : String}
    (hturn : ∀ id, Does turn.env view (program (turn.node id)) (Makes us Q))
    {s : RetryState × (σ × List ApiRequest)} (hs : ∃ k, view s.2.1 = applyAll (us.take k) v) :
    let r := withRetryAttempt correlationId turn.getNode (BalancedCall.body program turn) s
    (∃ k, view r.2.2.1 = applyAll (us.take k) v) ∧
      ∀ a, r.1 = .resolved a → view r.2.2.1 = applyAll us v ∧ Q a := by
  have hbody : ∀ id, (∃ k, view (BalancedCall.body program turn id s.2).2.1
      = applyAll (us.take k) v) ∧ ∀ a, (BalancedCall.body program turn id s.2).1 = .ok a →
        view (BalancedCall.body program turn id s.2).2.1 = applyAll us v ∧ Q a :=
    fun id => (hturn id s.2.1).again hus hs
  dsimp only
  obtain ⟨id, a, -, ha, hrun⟩ | ⟨id, e, -, -, -, hrun⟩ | ⟨id, e, -, -, -, hrun⟩ | ⟨-, hrun⟩ :=
    @withRetryAttempt_cases _ _ correlationId turn.getNode (BalancedCall.body program turn) s
  · rw [hrun]
    refine ⟨(hbody id).1, fun b hb => ?_⟩
    cases hb
    exact (hbody id).2 a ha
  · rw [hrun]
    exact ⟨(hbody id).1, nofun⟩
  · rw [hrun]
    exact ⟨(hbody id).1, nofun⟩
  · rw [hrun]
    exact ⟨hs, nofun⟩

/-- However often an operation is tried, its updates are made once. -/
theorem BalancedCall.leaves_once (hus : Replayable us) {options : OperationOptions}
    (hturns : ∀ turn ∈ call.turns, ∀ id,
      Does turn.env view (program (turn.node id)) (Makes us Q)) :
    (∃ k, view (call.leaves options program).2 = applyAll (us.take k) (view call.state)) ∧
      ∀ a, (call.leaves options program).1 = .resolved a →
        view (call.leaves options program).2 = applyAll us (view call.state) ∧ Q a :=
  retry_leaves
    (I := fun s : RetryState × (σ × List ApiRequest) =>
      ∃ k, view s.2.1 = applyAll (us.take k) (view call.state))
    (Q := fun a s => view s.2.1 = applyAll us (view call.state) ∧ Q a)
    (fun _ turn _ hturn hs => withRetryAttempt_leaves hus (hturns turn hturn) hs) ⟨0, rfl⟩

/-! ## What the operations leave -/

/-- The calls of the operations go to nodes that may lose them. -/
def BalancedCall.Lossy (view : σ → Buckets) (address : NodeMessage → Cid) (base32 : Base32)
    (call : BalancedCall σ) : Prop :=
  ∀ turn ∈ call.turns, LossyNode turn.env view address ∧ ∀ id, (turn.node id).base32 = base32

theorem BalancedCall.perform_once (hcall : call.Lossy view address base32)
    (operation : BucketOperation) :
    let us := operation.updates base32 address
    let r := call.perform operation
    (∃ k, view r.2 = applyAll (us.take k) (view call.state)) ∧
      ∀ result, r.1 = .resolved result →
        view r.2 = applyAll us (view call.state) ∧ operation.Reports base32 address result := by
  refine BalancedCall.leaves_once BucketOperation.replayable_updates fun turn hturn id => ?_
  obtain ⟨hlossy, hbase⟩ := hcall turn hturn
  rw [← hbase id]
  exact hlossy.does_program operation _

theorem BalancedCall.performAll_pending {operation : BucketOperation} {s t : σ}
    {rest : List (BalancedCall σ × BucketOperation)}
    (h : { call with state := s }.perform operation = (.pending, t)) :
    performAll ((call, operation) :: rest) s = ([.pending], t) := by
  unfold performAll
  rw [h]

theorem BalancedCall.performAll_settled {operation : BucketOperation} {s t : σ}
    {rest : List (BalancedCall σ × BucketOperation)} {outcome : Outcome JsError BucketResult}
    (h : { call with state := s }.perform operation = (outcome, t))
    (hsettled : outcome ≠ .pending) :
    performAll ((call, operation) :: rest) s
      = (outcome :: (performAll rest t).1, (performAll rest t).2) := by
  conv => lhs; unfold performAll
  rw [h]
  cases outcome with
  | pending => exact absurd rfl hsettled
  | _ => rfl

/-- Operations that store or read DAG nodes and names, each tried as often as `withRetry` tries it,
on nodes that may lose a call before it took effect or after: every operation takes effect once, and
one that resolves has taken effect in full. If all of them resolve, the buckets are as if each had
been made once, in order. -/
theorem BalancedCall.stores_once (view : σ → Buckets) (address : NodeMessage → Cid)
    (base32 : Base32) (calls : List (BalancedCall σ × BucketOperation)) (s : σ)
    (hcalls : ∀ c ∈ calls, c.1.Lossy view address base32) :
    let r := performAll calls s
    TookEffect base32 address (view s) ((calls.map Prod.snd).zip r.1) (view r.2) ∧
      ((∀ outcome ∈ r.1, ∃ result, outcome = .resolved result) → r.1.length = calls.length ∧
        view r.2 = applyAll (calls.flatMap fun c => c.2.updates base32 address) (view s)) := by
  induction calls generalizing s with
  | nil => exact ⟨.nil, fun _ => ⟨rfl, rfl⟩⟩
  | cons c calls ih =>
    obtain ⟨call, operation⟩ := c
    have hcall : BalancedCall.Lossy view address base32 { call with state := s } :=
      hcalls _ List.mem_cons_self
    have hrest := fun t => ih t fun c hc => hcalls c (List.mem_cons_of_mem _ hc)
    obtain ⟨⟨k, hpart⟩, hfull⟩ := BalancedCall.perform_once hcall operation
    cases hrun : { call with state := s }.perform operation with
    | mk outcome t =>
      rw [hrun] at hpart hfull
      cases outcome with
      | pending =>
        rw [performAll_pending hrun]
        refine ⟨.part k nofun ?_, fun hdone => ?_⟩
        · rw [← hpart, List.zipWith_nil_right]
          exact .nil
        · obtain ⟨result, hresult⟩ := hdone _ List.mem_cons_self
          cases hresult
      | rejected e =>
        rw [performAll_settled hrun nofun]
        refine ⟨.part k nofun ?_, fun hdone => ?_⟩
        · rw [← hpart]
          exact (hrest t).1
        · obtain ⟨result, hresult⟩ := hdone _ List.mem_cons_self
          cases hresult
      | resolved result =>
        obtain ⟨hview, hreports⟩ := hfull result rfl
        rw [performAll_settled hrun nofun]
        refine ⟨.full hreports ?_, fun hdone => ?_⟩
        · rw [← hview]
          exact (hrest t).1
        · obtain ⟨hlength, hafter⟩ := (hrest t).2 fun o ho => hdone o (List.mem_cons_of_mem _ ho)
          refine ⟨congrArg (· + 1) hlength, ?_⟩
          rw [List.flatMap_cons, applyAll_append, ← hview]
          exact hafter

end

/-- The node of `bucketNode`, out of reach once it has done what it was asked. -/
def silentNode : Environment ApiRequest.Answer BucketContents :=
  fun s r =>
    match r with
    | .rpc info method => (.error unavailable, (bucketNode s (.rpc info method)).2)
    | r => bucketNode s r

def bucketsOf (s : BucketContents) : Buckets := ⟨s.2, fun b n => (s.1 b n).map (·.cid)⟩

theorem bucketsOf_dagPut (s : BucketContents) (info : ApiMeta) {bucketId : Nat}
    {message : NodeMessage} (cid : Option Cid) :
    bucketsOf (bucketNode s (.rpc info (.dagPut bucketId (some message) cid))).2
      = (bucketsOf s).putNode bucketId (shortAddress message) message := rfl

theorem bucketsOf_cnsPut (s : BucketContents) {info : ApiMeta} {bucketId : Nat}
    {record : RecordMessage} :
    bucketsOf (bucketNode s (.rpc info (.cnsPut bucketId record))).2
      = (bucketsOf s).putName bucketId record.name record.cid := by
  ext1
  · rfl
  · funext b n
    show Option.map _ (if b = bucketId ∧ n = record.name then some record else s.1 b n)
      = if b = bucketId ∧ n = record.name then some record.cid else (s.1 b n).map (·.cid)
    split <;> rfl

theorem bucketsOf_keep (s : BucketContents) {r : ApiRequest} (hr : r.Reads) :
    bucketsOf (bucketNode s r).2 = bucketsOf s := by
  cases r with
  | rpc info method =>
    cases method with
    | dagPut bucketId message cid => exact absurd rfl (hr.2 info bucketId message cid)
    | cnsPut bucketId record => exact absurd ⟨rfl, rfl⟩ (hr.1 bucketId record.name)
    | _ => rfl
  | _ => rfl

theorem bucketNode_lossy : LossyNode bucketNode bucketsOf shortAddress where
  dagPut := fun s info bucketId message cid => .inl ⟨bucketsOf_dagPut s info cid, fun cid hcid => by
    cases hcid
    rfl⟩
  cnsPut := fun s info bucketId record => .inl (bucketsOf_cnsPut s)
  keep := fun s r hr => bucketsOf_keep s hr

theorem silentNode_lossy : LossyNode silentNode bucketsOf shortAddress where
  dagPut := fun s info bucketId message cid => .inl ⟨bucketsOf_dagPut s info cid, nofun⟩
  cnsPut := fun s info bucketId record => .inl (bucketsOf_cnsPut s)
  keep := fun s r hr => by
    cases r with
    | rpc info method => exact bucketsOf_keep s hr
    | _ => exact bucketsOf_keep s hr

/-- Two nodes of a cluster, of which the first does not answer. -/
def silentCall : BalancedCall BucketContents where
  retries := .unset
  package := plainRetry
  freshId := "id"
  turns := [⟨fun _ => .ok "node-1", fun _ => bucketClient, silentNode⟩,
    ⟨fun _ => .ok "node-2", fun _ => bucketClient, bucketNode⟩]
  state := (fun _ _ => none, fun _ _ => none)

/-- The text of the CID that an operation resolves with. -/
def storedText : Outcome JsError BucketResult → Option String
  | .resolved (.cid text) => some text
  | _ => none

theorem resolved_of_storedText {outcome : Outcome JsError BucketResult} {text : String}
    (h : storedText outcome = some text) : outcome = .resolved (.cid text) := by
  unfold storedText at h
  split at h
  · cases h
    rfl
  · cases h

/-- A DAG node that is stored twice under a name is there once. -/
theorem BalancedCall.stores_once_album :
    let store : BucketOperation := .storeDagNode 1 { data := [7] } { name := some "album" }
    let message : NodeMessage := ⟨[7], [], []⟩
    let r := BalancedCall.performAll [(silentCall, store)] silentCall.state
    (∃ text, r.1 = [.resolved (.cid text)]) ∧ bucketsOf r.2 =
      ((bucketsOf silentCall.state).putNode 1 (shortAddress message) message).putName 1 "album"
        (shortAddress message) := by
  intro store message r
  have hlossy : silentCall.Lossy bucketsOf shortAddress .rfc4648 := by
    intro turn hturn
    rcases List.mem_pair.mp hturn with rfl | rfl
    · exact ⟨silentNode_lossy, fun _ => rfl⟩
    · exact ⟨bucketNode_lossy, fun _ => rfl⟩
  have honce := BalancedCall.stores_once bucketsOf shortAddress .rfc4648 [(silentCall, store)]
    silentCall.state (by simpa using hlossy)
  have htexts : r.1.map storedText = [some (Base32.rfc4648.encode (shortAddress message))] := by
    decide +kernel
  obtain ⟨outcome, houtcome, htext⟩ := List.map_eq_singleton_iff.mp htexts
  have hresolved := houtcome.trans (congrArg (fun o => [o]) (resolved_of_storedText htext))
  exact ⟨⟨_, hresolved⟩, (honce.2 fun o ho => ⟨_, List.mem_singleton.mp (hresolved ▸ ho)⟩).2⟩

end CereDdc
