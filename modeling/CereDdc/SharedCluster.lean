import CereDdc.LossyCluster

/-!
# SharedCluster — `BalancedNode` side by side

The operations of `BalancedNode` as programs that take turns, request by request. Alone
they are the operations as they were; side by side with those of other clients they
come to results that can be relied on, however many attempts are lost.
-/

namespace CereDdc

open Kit Program Api

/-! ## The operations as programs -/

/-- A program at the nodes of a cluster: each request names the environment of its attempt. -/
abbrev ClusterProgram (σ α : Type) := Program (Routed ApiRequest.Answer σ) JsError α

/-- What an attempt comes to on its node. -/
def attemptEnd {α : Type} (correlationId : String) (nodeId : NodeId) (r : RetryState) :
    Except JsError α → Attempt JsError α × RetryState
  | .ok a => (.resolved a, r)
  | .error e =>
    match operationError nodeId correlationId e with
    | (e', true) => (.failed e', { r with lastOperationError := some e' })
    | (e', false) => (.bailed e', r)

/-- `withRetryAttempt`, with a program as its body. -/
def attemptProgram {σ α : Type} (correlationId : String)
    (getNode : List NodeId → Except JsError NodeId) (body : NodeId → ClusterProgram σ α)
    (r : RetryState) : ClusterProgram σ (Attempt JsError α × RetryState) :=
  match pickNode getNode r with
  | (none, r) => done (.failed (r.lastOperationError.getD (r.lastRouterError.getD noNodes)), r)
  | (some nodeId, r) => do
    let result ← attempt (body nodeId)
    return attemptEnd correlationId nodeId r result

namespace BalancedCall

variable {σ α : Type}

/-- The operation on the node of an attempt. -/
def bodyProgram (program : NodeClient → ApiProgram α) (turn : NodeTurn σ) (nodeId : NodeId) :
    ClusterProgram σ α :=
  (program (turn.node nodeId)).via turn.env

/-- `withRetry` -/
def retryProgram (call : BalancedCall σ) (options : OperationOptions)
    (program : NodeClient → ApiProgram α) : ClusterProgram σ (Outcome JsError α) :=
  Program.retry (call.retries.retryOptions.grants call.package) call.package.mainError
    (fun _ turn => attemptProgram (orString options.correlationId "") turn.getNode
      (bodyProgram program turn)) 1 [] call.turns {}

/-- The operation of `BalancedNode`. -/
def performProgram (call : BalancedCall σ) (operation : BucketOperation) :
    ClusterProgram σ (Outcome JsError BucketResult) :=
  let options := call.withCorrelationId operation.options
  call.retryProgram options (operation.program options)

/-- The operations of a client, one after the other. -/
def clientProgram : List (BalancedCall σ × BucketOperation) →
    ClusterProgram σ (List (Outcome JsError BucketResult))
  | [] => done []
  | (call, operation) :: rest => do
    match ← call.performProgram operation with
    | .pending => return [.pending]
    | outcome =>
      let outcomes ← clientProgram rest
      return outcome :: outcomes

/-! ## One client alone -/

variable {program : NodeClient → ApiProgram α} {call : BalancedCall σ} {s : σ}

theorem run_attemptProgram {turn : NodeTurn σ} {correlationId : String}
    {s : RetryState × (σ × List ApiRequest)} :
    let whole := withRetryAttempt correlationId turn.getNode (body program turn) s
    run dispatch (attemptProgram correlationId turn.getNode (bodyProgram program turn) s.1) s.2.1
      = (.ok (whole.1, whole.2.1), whole.2.2.1) := by
  intro whole
  unfold attemptProgram
  cases hpick : pickNode turn.getNode s.1 with
  | mk picked r =>
    cases picked with
    | none =>
      simp only [whole, withRetryAttempt, hpick]
      rfl
    | some nodeId =>
      have hrun : run dispatch (attempt (bodyProgram program turn nodeId)) s.2.1
          = (.ok (body program turn nodeId s.2).1, (body program turn nodeId s.2).2.1) := by
        rw [run_attempt, bodyProgram, run_via]
        rfl
      dsimp only
      rw [run_bind_ok hrun]
      cases hbody : body program turn nodeId s.2 with
      | mk result t =>
        cases result with
        | ok a =>
          simp only [whole, withRetryAttempt, hpick, hbody]
          rfl
        | error e =>
          simp only [whole, withRetryAttempt, hpick, hbody, attemptEnd]
          cases operationError nodeId correlationId e with
          | mk e' retryable => cases retryable <;> rfl

theorem run_retryProgram {options : OperationOptions} :
    run dispatch (call.retryProgram options program) call.state
      = (.ok (call.leaves options program).1, (call.leaves options program).2) :=
  run_retry Prod.fst (fun v : RetryState × (σ × List ApiRequest) => v.2.1)
    (fun _ _ _ _ => run_attemptProgram) ({}, (call.state, []))

theorem run_performProgram (call : BalancedCall σ) {operation : BucketOperation} :
    run dispatch (call.performProgram operation) call.state
      = (.ok (call.perform operation).1, (call.perform operation).2) :=
  run_retryProgram

/-- A client that is alone at the nodes does what it did without taking turns. -/
theorem run_clientProgram {calls : List (BalancedCall σ × BucketOperation)} :
    run dispatch (clientProgram calls) s
      = (.ok (performAll calls s).1, (performAll calls s).2) := by
  induction calls generalizing s with
  | nil => rfl
  | cons c rest ih =>
    obtain ⟨call, operation⟩ := c
    have hrun : run dispatch (call.performProgram operation) s = _ :=
      run_performProgram { call with state := s }
    unfold clientProgram
    rw [run_bind_ok hrun]
    cases hperform : { call with state := s }.perform operation with
    | mk outcome t =>
      by_cases hpending : outcome = .pending
      · subst hpending
        rw [performAll_pending hperform]
        rfl
      · rw [performAll_settled hperform hpending]
        cases outcome with
        | pending => exact absurd rfl hpending
        | resolved a => exact run_bind_ok ih
        | rejected e => exact run_bind_ok ih

end BalancedCall

/-! ## Side by side -/

section

variable {σ α : Type} {R : σ → σ → Prop} {A : σ → Prop} {Q : α → σ → Prop}
  {view : σ → Buckets} {cached : σ → Nat → String → Option Cid → Prop}
  {address : NodeMessage → Cid} {sources : Sources} {base32 : Base32} {earlier : Earlier}
  {call : BalancedCall σ} {operation : BucketOperation}

/-- What an attempt keeps, and what holds where it resolves. -/
theorem triple_attemptProgram (hrefl : ∀ s, R s s) (hA : Stable R A) (hQ : ∀ a, Stable R (Q a))
    {correlationId : String} {getNode : List NodeId → Except JsError NodeId}
    {body : NodeId → ClusterProgram σ α} (hbody : ∀ nodeId, Tries dispatch R A (body nodeId) Q)
    (r : RetryState) :
    Triple dispatch R A (attemptProgram correlationId getNode body r) fun x s =>
      A s ∧ ∀ a, x.1 = .resolved a → Q a s := by
  have hend : ∀ x : Attempt JsError α × RetryState, Stable R fun s =>
      A s ∧ ∀ a, x.1 = .resolved a → Q a s :=
    fun x => hA.and fun s t hst hs a ha => hQ a s t hst (hs a ha)
  unfold attemptProgram
  cases pickNode getNode r with
  | mk picked r' =>
    cases picked with
    | none => exact .done (hend _) fun s hs => ⟨hs, nofun⟩
    | some nodeId =>
      have hkept : Triple dispatch R A (attempt (body nodeId)) fun x s =>
          (∀ a, x = .ok a → Q a s) ∧ A s :=
        (Triple.frame (hbody nodeId) hA).imp (fun _ hs => ⟨hs, hs⟩) fun _ _ h => h
      refine .bind hrefl hkept fun result => .done (hend _) fun s hs => ⟨hs.2, fun a ha => ?_⟩
      cases result with
      | ok b =>
        cases ha
        exact hs.1 a rfl
      | error e =>
        unfold attemptEnd at ha
        dsimp only at ha
        split at ha <;> cases ha

/-- The calls of an operation go to nodes whose answers are true, but for what is in a cache. -/
def BalancedCall.Truthful (view : σ → Buckets) (cached : σ → Nat → String → Option Cid → Prop)
    (address : NodeMessage → Cid) (base32 : Base32) (call : BalancedCall σ) : Prop :=
  ∀ turn ∈ call.turns, LossyCluster turn.env view cached address ∧
    ∀ id, (turn.node id).base32 = base32

/-- An operation of `BalancedNode`, after the earlier ones of its client. -/
theorem triple_performProgram (earlier : Earlier)
    (hcall : call.Truthful view cached address base32)
    (hdistinct : sources.Distinct address) (hwithin : operation.Within base32 sources) :
    Triple dispatch (Leaves view cached address sources)
      (Remains view cached address sources base32 earlier) (call.performProgram operation)
      fun outcome s =>
        (∀ result, outcome = .resolved result →
          operation.Safe address sources base32 earlier result) ∧
        Remains view cached address sources base32 (earlier ++ [(operation, outcome)]) s := by
  let Q (result : BucketResult) (s : σ) : Prop :=
    (operation.Safe address sources base32 earlier result ∧
      Stands view address base32 operation s) ∧ Remains view cached address sources base32 earlier s
  have hretry : Triple dispatch (Leaves view cached address sources)
      (Remains view cached address sources base32 earlier) (call.performProgram operation)
      fun outcome s => Remains view cached address sources base32 earlier s ∧
        ∀ result, outcome = .resolved result → Q result s := by
    refine Triple.retry Leaves.refl stable_remains (fun _ => stable_outcome)
      fun _ turn hturn r => ?_
    obtain ⟨hcluster, hbase⟩ := hcall turn hturn
    exact triple_attemptProgram Leaves.refl stable_remains (fun _ => stable_outcome)
      (fun nodeId => (tries_program hcluster hdistinct (hbase nodeId) hwithin _).via) r
  refine hretry.imp (fun _ hs => hs) fun outcome s hs => ⟨fun result h => ?_, ?_⟩
  · exact (hs.2 result h).1.1
  · exact hs.1.add fun result h => (hs.2 result h).1.2

/-- Every operation that has resolved has a result that can be relied on. -/
def AllSafe (address : NodeMessage → Cid) (sources : Sources) (base32 : Base32)
    (earlier made : Earlier) : Prop :=
  ∀ (k : Nat) (operation : BucketOperation) result,
    made[k]? = some (operation, Outcome.resolved result) →
      operation.Safe address sources base32 (earlier ++ made.take k) result

theorem AllSafe.nil : AllSafe address sources base32 earlier [] := by
  intro k operation result hk
  cases hk

theorem AllSafe.cons {outcome : Outcome JsError BucketResult} {made : Earlier}
    (hfirst : ∀ result, outcome = .resolved result →
      operation.Safe address sources base32 earlier result)
    (hmade : AllSafe address sources base32 (earlier ++ [(operation, outcome)]) made) :
    AllSafe address sources base32 earlier ((operation, outcome) :: made) := by
  intro k operation' result hk
  cases k with
  | zero =>
    cases hk
    rw [List.take_zero, List.append_nil]
    exact hfirst result rfl
  | succ k =>
    have hlater := hmade k operation' result hk
    rwa [List.append_assoc, List.singleton_append] at hlater

/-- What has come of the operations of a client: all of them have settled, or the last of them that
was begun is pending. -/
structure Came (view : σ → Buckets) (cached : σ → Nat → String → Option Cid → Prop)
    (address : NodeMessage → Cid) (sources : Sources) (base32 : Base32) (earlier : Earlier)
    (operations : List BucketOperation) (outcomes : List (Outcome JsError BucketResult)) (s : σ) :
    Prop where
  settled : outcomes.length = operations.length ∨ outcomes.getLast? = some .pending
  safe : AllSafe address sources base32 earlier (operations.zip outcomes)
  remains : Remains view cached address sources base32 (earlier ++ operations.zip outcomes) s

theorem stable_came {operations : List BucketOperation}
    {outcomes : List (Outcome JsError BucketResult)} : Stable (Leaves view cached address sources)
    (Came view cached address sources base32 earlier operations outcomes) :=
  fun s t hst hs => ⟨hs.settled, hs.safe, stable_remains s t hst hs.remains⟩

theorem Came.cons {operations : List BucketOperation} {s : σ}
    {outcome : Outcome JsError BucketResult} {outcomes : List (Outcome JsError BucketResult)}
    (hfirst : ∀ result, outcome = .resolved result →
      operation.Safe address sources base32 earlier result)
    (h : Came view cached address sources base32 (earlier ++ [(operation, outcome)]) operations
      outcomes s) :
    Came view cached address sources base32 earlier (operation :: operations)
      (outcome :: outcomes) s where
  settled := by
    rcases h.settled with hlength | hlast
    · exact .inl (by rw [List.length_cons, List.length_cons, hlength])
    · exact .inr (by rw [List.getLast?_cons, hlast]; rfl)
  safe := AllSafe.cons hfirst h.safe
  remains := by
    have hremains := h.remains
    rwa [List.append_assoc, List.singleton_append] at hremains

/-- The operations of a client, whatever the others do in between. -/
theorem triple_clientProgram {calls : List (BalancedCall σ × BucketOperation)}
    (hcalls : ∀ c ∈ calls, c.1.Truthful view cached address base32)
    (hdistinct : sources.Distinct address) (hwithin : ∀ c ∈ calls, c.2.Within base32 sources) :
    Triple dispatch (Leaves view cached address sources)
      (Remains view cached address sources base32 earlier) (BalancedCall.clientProgram calls)
      (Came view cached address sources base32 earlier (calls.map Prod.snd)) := by
  induction calls generalizing earlier with
  | nil =>
    refine .done stable_came fun s hs => ⟨.inl rfl, .nil, ?_⟩
    rwa [List.map_nil, List.zip_nil_left, List.append_nil]
  | cons c calls ih =>
    obtain ⟨call, operation⟩ := c
    have hperform := triple_performProgram earlier (hcalls _ List.mem_cons_self)
      hdistinct (hwithin _ List.mem_cons_self)
    refine .bind Leaves.refl hperform fun outcome => ?_
    have hrest : Triple dispatch (Leaves view cached address sources)
        (fun s => (∀ result, outcome = .resolved result →
            operation.Safe address sources base32 earlier result) ∧
          Remains view cached address sources base32 (earlier ++ [(operation, outcome)]) s)
        (BalancedCall.clientProgram calls >>= fun outcomes => done (outcome :: outcomes))
        (Came view cached address sources base32 earlier (operation :: calls.map Prod.snd)) := by
      have hcame := (@ih (earlier ++ [(operation, outcome)])
        (fun c hc => hcalls c (List.mem_cons_of_mem _ hc))
        fun c hc => hwithin c (List.mem_cons_of_mem _ hc)).frame
          (Stable.pure (P := ∀ result, outcome = .resolved result →
            operation.Safe address sources base32 earlier result))
      refine .bind Leaves.refl (hcame.imp (fun s hs => ⟨hs.2, hs.1⟩) fun _ _ h => h) ?_
      exact fun outcomes => .done stable_came fun s hs => .cons hs.2 hs.1
    cases outcome with
    | pending =>
      have hzip : (operation :: calls.map Prod.snd).zip [Outcome.pending (ε := JsError)]
          = [(operation, .pending (α := BucketResult))] := by
        rw [List.zip_cons_cons, List.zip_nil_right]
      refine .done stable_came fun s hs => ⟨.inr rfl, ?_, ?_⟩
      · exact hzip ▸ AllSafe.cons hs.1 .nil
      · exact hzip ▸ hs.2
    | resolved result => exact hrest
    | rejected e => exact hrest

/-! ## Any number of clients -/

/-- The DAG nodes, names and records that are there in `s`, or that one of the clients stores. -/
def Sources.of (view : σ → Buckets) (cached : σ → Nat → String → Option Cid → Prop)
    (base32 : Base32) (clients : List (List (BalancedCall σ × BucketOperation))) (s : σ) :
    Sources where
  known bucketId message := (∃ cid, (view s).nodes bucketId cid = some message) ∨
    ∃ calls ∈ clients, ∃ c ∈ calls, c.2.Puts base32 bucketId message
  named bucketId name message :=
    (∃ cid, ((view s).names bucketId name = some cid ∨ cached s bucketId name (some cid)) ∧
      (view s).nodes bucketId cid = some message) ∨
    ∃ calls ∈ clients, ∃ c ∈ calls, c.2.Names base32 bucketId name message
  recorded bucketId name cid :=
    (((view s).names bucketId name = some cid ∨ cached s bucketId name (some cid)) ∧
      (view s).nodes bucketId cid = none) ∨
    ∃ calls ∈ clients, ∃ c ∈ calls, c.2.Records base32 bucketId name cid

/-- The clients with their operations, side by side. -/
def sharedClients (clients : List (List (BalancedCall σ × BucketOperation))) :
    List (ClusterProgram σ (List (Outcome JsError BucketResult))) :=
  clients.map BalancedCall.clientProgram

/-- What is there is where its content has it. -/
def Buckets.Sound (address : NodeMessage → Cid) (v : Buckets) : Prop :=
  ∀ bucketId cid message, v.nodes bucketId cid = some message → cid = address message

theorem sourced_of {clients : List (List (BalancedCall σ × BucketOperation))} {s : σ}
    (hsound : (view s).Sound address) :
    Sourced view cached address (.of view cached base32 clients s) s := by
  have hleads : ∀ bucketId name cid,
      (view s).names bucketId name = some cid ∨ cached s bucketId name (some cid) →
        (Sources.of view cached base32 clients s).Leads address (view s) bucketId name cid := by
    intro bucketId name cid hname
    cases hthere : (view s).nodes bucketId cid with
    | none => exact .inl (.inl ⟨hname, hthere⟩)
    | some message =>
      have hcid := hsound bucketId cid message hthere
      exact .inr ⟨message, hcid, .inl ⟨cid, hname, hthere⟩, hthere⟩
  exact ⟨fun bucketId cid message hthere =>
      ⟨hsound bucketId cid message hthere, .inl ⟨cid, hthere⟩⟩,
    fun bucketId name cid h => hleads bucketId name cid (.inl h),
    fun bucketId name cid h => hleads bucketId name cid (.inr h)⟩

end

/-- However clients of a cluster take turns and whatever calls get lost on the way, no client is
ever stuck, and what the operations of a client have come to can be relied on. -/
theorem BucketOperation.clients_safe {σ : Type} (view : σ → Buckets)
    (cached : σ → Nat → String → Option Cid → Prop) (address : NodeMessage → Cid) (base32 : Base32)
    (clients : List (List (BalancedCall σ × BucketOperation))) (s : σ)
    (hclients : ∀ calls ∈ clients, ∀ c ∈ calls, c.1.Truthful view cached address base32)
    (hsound : (view s).Sound address)
    (hdistinct : (Sources.of view cached base32 clients s).Distinct address) (is : List Nat) :
    (∃ more, (results (turns dispatch (is ++ more) (sharedClients clients) s).1).isSome) ∧
    ∀ (i : Nat) calls outcomes, clients[i]? = some calls →
      (turns dispatch is (sharedClients clients) s).1[i]? = some (done outcomes) →
      Came view cached address (.of view cached base32 clients s) base32 [] (calls.map Prod.snd)
        outcomes (turns dispatch is (sharedClients clients) s).2 := by
  let sources := Sources.of view cached base32 clients s
  have hstart : Remains view cached address sources base32 [] s :=
    ⟨sourced_of hsound, fun _ _ ⟨_, _, hmem, _⟩ => absurd hmem List.not_mem_nil,
      fun _ _ ⟨_, _, hmem, _⟩ => absurd hmem List.not_mem_nil⟩
  have hclient : ∀ calls ∈ clients, Sure dispatch (Leaves view cached address sources)
      (Came view cached address sources base32 [] (calls.map Prod.snd))
      (BalancedCall.clientProgram calls) s := by
    intro calls hmem
    refine triple_clientProgram (hclients calls hmem) hdistinct (fun c hc => ?_) s hstart
    exact ⟨fun b m h => .inr ⟨calls, hmem, c, hc, h⟩, fun b n m h => .inr ⟨calls, hmem, c, hc, h⟩,
      fun b n cid h => .inr ⟨calls, hmem, c, hc, h⟩⟩
  have hsure : AllSure dispatch (Leaves view cached address sources)
      (fun i outcomes t => ∃ calls, clients[i]? = some calls ∧
        Came view cached address sources base32 [] (calls.map Prod.snd) outcomes t)
      (sharedClients clients) s := by
    intro i p hp
    rw [sharedClients, List.getElem?_map] at hp
    obtain ⟨calls, hcalls, rfl⟩ := Option.map_eq_some_iff.mp hp
    exact (hclient calls (List.mem_of_getElem? hcalls)).imp fun _ _ h => ⟨calls, hcalls, h⟩
  obtain ⟨-, hafter⟩ := hsure.turns Leaves.refl Leaves.trans is
  constructor
  · obtain ⟨more, hmore⟩ := hafter.exists_results Leaves.refl Leaves.trans
    exact ⟨more, by rwa [turns_append]⟩
  · intro i calls outcomes hi hend
    obtain ⟨calls', hcalls, hcame⟩ := hafter i _ hend _ (Leaves.refl _)
    cases hi.symm.trans hcalls
    exact hcame

/-- A node that keeps DAG nodes and names, with everything granted. -/
def truthfulNode : Environment ApiRequest.Answer Buckets :=
  fun v r =>
    match r with
    | .rpc _ (.dagPut bucketId (some message) _) =>
      (.ok (shortAddress message), v.putNode bucketId (shortAddress message) message)
    | .rpc _ (.dagGet request) => (.ok (v.nodes request.bucketId request.cid), v)
    | .rpc _ (.cnsPut bucketId record) => (.ok (), v.putName bucketId record.name record.cid)
    | .rpc _ (.cnsGet bucketId name) =>
      (.ok ((v.names bucketId name).map fun cid =>
        { cid, name, signature := some ⟨.sr25519, [2], []⟩ }), v)
    | .authToken _ => (.ok (.root none { operations := [] }), v)
    | _ => (default, v)

/-- That node, out of reach once it has done what it was asked. -/
def losingNode : Environment ApiRequest.Answer Buckets :=
  fun v r =>
    match r with
    | .rpc info method => (.error unavailable, (truthfulNode v (.rpc info method)).2)
    | r => truthfulNode v r

theorem truthfulNode_keep (v : Buckets) {r : ApiRequest} (hr : r.Reads) :
    (truthfulNode v r).2 = v := by
  cases r with
  | rpc info method =>
    cases method with
    | dagPut bucketId message cid => exact absurd rfl (hr.2 info bucketId message cid)
    | cnsPut bucketId record => exact absurd ⟨rfl, rfl⟩ (hr.1 bucketId record.name)
    | _ => rfl
  | _ => rfl

theorem truthfulNode_cluster :
    LossyCluster truthfulNode id (fun _ _ _ _ => False) shortAddress where
  dagPut := fun v info bucketId message cid => .inl ⟨rfl, fun cid hcid => by
    cases hcid
    rfl⟩
  cnsPut := fun v info bucketId record => .inl rfl
  keep := fun v r hr => truthfulNode_keep v hr
  dagGet := fun v info request found _ hfound => (Except.ok.inj hfound).symm
  cnsGet := by
    intro v info bucketId name found hfound
    cases hfound
    refine ⟨fun record hrecord => ?_, .inl ?_⟩
    · obtain ⟨cid, -, rfl⟩ := Option.map_eq_some_iff.mp hrecord
      rfl
    · show v.names bucketId name = _
      rw [Option.map_map]
      exact (congrFun Option.map_id _).symm
  cnsMissing := by
    intro v info bucketId name e he
    cases he
  caches := fun _ _ _ _ _ h => h.elim

theorem losingNode_cluster :
    LossyCluster losingNode id (fun _ _ _ _ => False) shortAddress where
  dagPut := fun v info bucketId message cid => .inl ⟨rfl, nofun⟩
  cnsPut := fun v info bucketId record => .inl rfl
  keep := fun v r hr => by
    cases r with
    | rpc info method => exact truthfulNode_keep v hr
    | _ => exact truthfulNode_keep v hr
  dagGet := by
    intro v info request found _ hfound
    cases hfound
  cnsGet := by
    intro v info bucketId name found hfound
    cases hfound
  cnsMissing := by
    intro v info bucketId name e he hmissing
    cases he
    exact absurd hmissing (by decide)
  caches := fun _ _ _ _ _ h => h.elim

/-- Two nodes of a cluster, of which the first does not answer. -/
def losingCall : BalancedCall Buckets where
  retries := .unset
  package := plainRetry
  freshId := "id"
  turns := [⟨fun _ => .ok "node-1", fun _ => bucketClient, losingNode⟩,
    ⟨fun _ => .ok "node-2", fun _ => bucketClient, truthfulNode⟩]
  state := ⟨fun _ _ => none, fun _ _ => none⟩

theorem losingCall_truthful :
    losingCall.Truthful id (fun _ _ _ _ => False) shortAddress .rfc4648 := by
  intro turn hturn
  rcases List.mem_pair.mp hturn with rfl | rfl
  · exact ⟨losingNode_cluster, fun _ => rfl⟩
  · exact ⟨truthfulNode_cluster, fun _ => rfl⟩

/-- The operation has resolved. -/
def hasResolved : Outcome JsError BucketResult → Bool
  | .resolved _ => true
  | _ => false

/-- Which operations of a client have resolved, once it has ended. -/
def endedWith : ClusterProgram Buckets (List (Outcome JsError BucketResult)) → Option (List Bool)
  | .done outcomes => some (outcomes.map hasResolved)
  | _ => none

theorem eq_done_of_endedWith
    {p : ClusterProgram Buckets (List (Outcome JsError BucketResult))}
    (h : endedWith p = some [true]) : ∃ result, p = done [.resolved result] := by
  cases p with
  | done outcomes =>
    obtain ⟨outcome, rfl, houtcome⟩ := List.map_eq_singleton_iff.mp (Option.some.inj h)
    cases outcome with
    | resolved result => exact ⟨result, rfl⟩
    | pending => cases houtcome
    | rejected e => cases houtcome
  | fail e => cases h
  | ask r next => cases h

/-- A client reads what another has stored under a name, although the first attempt of each got
lost. -/
theorem BucketOperation.clients_safe_album :
    let store : BucketOperation := .storeDagNode 1 { data := [7] } { name := some "album" }
    let get : BucketOperation := .getDagNode 1 "album" {}
    let clients := [[(losingCall, store)], [(losingCall, get)]]
    let is := List.replicate 40 0 ++ List.replicate 40 1
    ∃ text, (turns dispatch is (sharedClients clients) losingCall.state).1[1]?
      = some (done [.resolved (.node (some (.new .rfc4648 text ⟨[7], [], []⟩)))]) := by
  intro store get clients is
  let cached : Buckets → Nat → String → Option Cid → Prop := fun _ _ _ _ => False
  let sources := Sources.of id cached .rfc4648 clients losingCall.state
  have hputs : ∀ calls ∈ clients, ∀ c ∈ calls, c = (losingCall, store) ∨ c = (losingCall, get) := by
    intro calls hcalls c hc
    rcases List.mem_pair.mp hcalls with rfl | rfl
    · exact .inl (List.mem_singleton.mp hc)
    · exact .inr (List.mem_singleton.mp hc)
  have hknown : ∀ bucketId message, sources.known bucketId message → message = ⟨[7], [], []⟩ := by
    rintro bucketId message (⟨cid, hthere⟩ | ⟨calls, hcalls, c, hc, node, options, heq, hmap⟩)
    · cases hthere
    · rcases hputs calls hcalls c hc with rfl | rfl
      · cases heq
        exact (Except.ok.inj hmap).symm
      · cases heq
  have hshared := BucketOperation.clients_safe id cached shortAddress .rfc4648 clients
    losingCall.state (fun calls hcalls c hc => by
      rcases hputs calls hcalls c hc with rfl | rfl <;> exact losingCall_truthful) nofun
    (fun b m m' hm hm' _ => (hknown b m hm).trans (hknown b m' hm').symm) is
  have hended : ((turns dispatch is (sharedClients clients) losingCall.state).1[1]?).bind endedWith
      = some [true] := by decide +kernel
  obtain ⟨p, hp, hbind⟩ := Option.bind_eq_some_iff.mp hended
  obtain ⟨result, rfl⟩ := eq_done_of_endedWith hbind
  have hcame := hshared.2 1 _ _ rfl hp
  obtain ⟨text, cid, found, hread, rfl⟩ := hcame.safe 0 get result rfl rfl
  rcases hread.asName (by decide +kernel) with
    (⟨⟨hname | hcache, -⟩ | ⟨calls, hcalls, c, hc, _, _, heq, -⟩⟩) | ⟨message, hnamed, rfl⟩
  · cases hname
  · cases hcache
  · rcases hputs calls hcalls c hc with rfl | rfl <;> cases heq
  · rw [hknown 1 message (hread.source message rfl).2] at hp
    exact ⟨text, hp⟩

end CereDdc
