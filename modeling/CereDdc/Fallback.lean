import CereDdc.Kit.Exclusion
import CereDdc.Routing

/-!
# Fallback — the nodes `withRetry` tries an operation on

`withRetry` asks the router for a node and leaves out those that were tried
before. The operation is what it comes to on the node of an attempt; the
environment has the shuffles, the pings and those results.
-/

namespace CereDdc

open Kit

/-! ## A run of `withRetry` -/

namespace BalancedNode

/-- `withRetry(bucketId, operation, { correlationId }, body)` -/
def withRetry {α σ : Type} {β : Type*} (retries : RetryOptions) (package : AsyncRetry)
    (correlationId : String) (getNode : β → List NodeId → Except JsError NodeId)
    (body : Nat → β → NodeId → σ → Except JsError α × σ) (turns : List β) (s : σ) :
    Outcome JsError α × (RetryState × σ) :=
  retry (retries.grants package) package.mainError
    (fun attempt turn => withRetryAttempt correlationId (getNode turn) (body attempt turn))
    1 [] turns ({}, s)

/-- What the operation keeps in every attempt, the run keeps. -/
theorem withRetry_keeps {α σ : Type} {β : Type*} {retries : RetryOptions} {package : AsyncRetry}
    {correlationId : String} {getNode : β → List NodeId → Except JsError NodeId}
    {body : Nat → β → NodeId → σ → Except JsError α × σ} {turns : List β} {s : σ} {I : σ → Prop}
    (hbody : ∀ n turn node s, I s → I (body n turn node s).2) (hs : I s) :
    I (withRetry retries package correlationId getNode body turns s).2.2 :=
  retry_invariant (I := fun t : RetryState × σ => I t.2)
    (fun n turn _ ht => withRetryAttempt_keeps (hbody n turn) ht) hs

/-- `storePiece` is such a run. -/
theorem storePiece_eq_withRetry {retries : RetriesConfig} {package : AsyncRetry}
    {freshId : String} {turns : List Turn} {bucketId : Nat}
    {piece : StorablePiece} {options : PieceStoreOptions} :
    storePiece retries package freshId turns bucketId piece options =
      let run := withRetry retries.retryOptions package (orString options.correlationId freshId)
        Turn.getNode (storeBody bucketId (withCorrelationId freshId options)) turns
        { piece }
      ⟨run.1, run.2.2.calls, run.2.2.piece⟩ := rfl

end BalancedNode

/-- The nodes of a bucket, and what they are needed for. -/
structure NodePool where
  sslRequired : Bool
  operation : RouterOperation
  nodes : List RouterNode

/-- The ids of the nodes that support the operation. -/
def NodePool.ids (pool : NodePool) : List NodeId :=
  (pool.nodes.filter (·.supports pool.sslRequired pool.operation)).map (·.id)

/-- What the environment does in one attempt. -/
structure RetryTurn (α : Type) where
  draws : Draws
  latency : Url → Option Int
  uuid : String
  /-- what the operation comes to on each node -/
  answer : NodeId → Except JsError α

variable {α : Type} {pool : NodePool} {turn : RetryTurn α} {turns : List (RetryTurn α)}

/-- The id of the `StorageNode` that the router comes up with in the attempt. -/
def RetryTurn.getNode (pool : NodePool) (turn : RetryTurn α) (exclude : List NodeId) :
    Except JsError NodeId :=
  (Router.getNode pool.sslRequired pool.operation turn.draws turn.latency pool.nodes exclude).map
    (·.storageNodeId turn.uuid)

/-- An attempt: the node it was made on, and how it ended. -/
abbrev TriedNode (α : Type) := NodeId × Except JsError α

/-- The operation on a node, with a log of the attempts. -/
def loggedAnswer (turn : RetryTurn α) (node : NodeId) (log : List (TriedNode α)) :
    Except JsError α × List (TriedNode α) :=
  (turn.answer node, log ++ [(node, turn.answer node)])

/-- One attempt of an operation on the nodes of the pool. -/
def poolAttempt (correlationId : String) (pool : NodePool) (turn : RetryTurn α) :
    RetryState × List (TriedNode α) → Attempt JsError α × (RetryState × List (TriedNode α)) :=
  withRetryAttempt correlationId (turn.getNode pool) (loggedAnswer turn)

namespace BalancedNode

/-- A run of an operation on the nodes of the pool, with the log of its attempts. -/
def tryNodes (retries : RetryOptions) (package : AsyncRetry) (correlationId : String)
    (pool : NodePool) (turns : List (RetryTurn α)) :
    Outcome JsError α × List (TriedNode α) :=
  let run := withRetry retries package correlationId (RetryTurn.getNode pool)
    (fun _ => loggedAnswer) turns []
  (run.1, run.2.2)

end BalancedNode

/-! ## The router as a chooser -/

/-- The choice of the router in an attempt. -/
def RetryTurn.choose (pool : NodePool) (turn : RetryTurn α) (exclude : List NodeId) :
    Option NodeId :=
  match turn.getNode pool exclude with
  | .ok node => some node
  | .error _ => none

theorem RetryTurn.chooses : Chooses pool.ids (turn.choose pool) where
  mem := by
    intro exclude id h
    unfold choose getNode at h
    cases hget : Router.getNode pool.sslRequired pool.operation turn.draws turn.latency pool.nodes
        exclude with
    | error e =>
      rw [hget] at h
      cases h
    | ok node =>
      rw [hget] at h
      obtain ⟨hmem, hsupports, hout⟩ := Router.getNode_ok hget
      have hid : node.storageNodeId turn.uuid = id := Option.some.inj h
      rw [RouterNode.storageNodeId_eq] at hid
      subst hid
      exact ⟨List.mem_map_of_mem (List.mem_filter.mpr ⟨hmem, hsupports⟩), hout⟩
  exhausted := by
    intro exclude h id hid
    unfold choose getNode at h
    cases hget : Router.getNode pool.sslRequired pool.operation turn.draws turn.latency pool.nodes
        exclude with
    | ok node =>
      rw [hget] at h
      cases h
    | error e =>
      obtain ⟨node, hnode, rfl⟩ := List.mem_map.mp hid
      obtain ⟨hmem, hsupports⟩ := List.mem_filter.mp hnode
      by_contra hout
      exact (Router.getNode_error_iff.mp hget).2 node ⟨hmem, hsupports, hout⟩

/-- `pickNode` makes the choice, with the excluded nodes as they are. -/
theorem pickNode_eq {s : RetryState} :
    (pickNode (turn.getNode pool) s).1 = (choice (turn.choose pool) s.exclude).1 ∧
      (pickNode (turn.getNode pool) s).2.exclude = (choice (turn.choose pool) s.exclude).2 := by
  unfold pickNode choice RetryTurn.choose
  cases turn.getNode pool s.exclude <;> exact ⟨rfl, rfl⟩

/-! ## One attempt -/

/-- The attempt failed with an error that is retried. -/
def RetryableFailure (result : Except JsError α) : Prop :=
  ∃ e, result = .error e ∧ e.isRetryable = true

/-- The attempt failed with an error that ends the operation. -/
def FinalFailure (result : Except JsError α) : Prop :=
  ∃ e, result = .error e ∧ e.isRetryable = false

theorem operationError_snd {node correlationId : String} {e : JsError} :
    (operationError node correlationId e).2 = e.isRetryable := by
  unfold operationError JsError.isRetryable
  cases e.asRpcError <;> rfl

/-- How an attempt ends that was made on `node`, or on no node. -/
def EndsLike (turn : RetryTurn α) (picked : Option NodeId) : Attempt JsError α → Prop
  | .resolved a => ∃ node, picked = some node ∧ turn.answer node = .ok a
  | .bailed _ => ∃ node, picked = some node ∧ FinalFailure (turn.answer node)
  | .failed _ => ∀ node, picked = some node → RetryableFailure (turn.answer node)

/-- An attempt makes the choice of a node, and enters the node into the log. -/
theorem poolAttempt_cases {correlationId : String} {s : RetryState} {log : List (TriedNode α)} :
    ∃ result s', poolAttempt correlationId pool turn (s, log) = (result,
        (s', log ++ (choice (turn.choose pool) s.exclude).1.toList.map
          fun node => (node, turn.answer node))) ∧
      s'.exclude = (choice (turn.choose pool) s.exclude).2 ∧
      EndsLike turn (choice (turn.choose pool) s.exclude).1 result := by
  obtain ⟨hnode, hexclude⟩ := @pickNode_eq α pool turn s
  cases hpick : pickNode (turn.getNode pool) s with
  | mk picked r =>
    rw [hpick] at hnode hexclude
    dsimp only at hnode hexclude
    rw [← hnode, ← hexclude]
    cases picked with
    | none =>
      refine ⟨.failed (r.lastOperationError.getD (r.lastRouterError.getD noNodes)), r, ?_, rfl, ?_⟩
      · simp [poolAttempt, withRetryAttempt, hpick]
      · intro node h
        cases h
    | some node =>
      cases hanswer : turn.answer node with
      | ok a =>
        refine ⟨.resolved a, r, ?_, rfl, node, rfl, hanswer⟩
        simp [poolAttempt, withRetryAttempt, hpick, loggedAnswer, hanswer]
      | error e =>
        have hsnd := @operationError_snd node correlationId e
        cases hop : operationError node correlationId e with
        | mk e' retryable =>
          rw [hop] at hsnd
          cases retryable with
          | true =>
            refine ⟨.failed e', { r with lastOperationError := some e' }, ?_, rfl, ?_⟩
            · simp [poolAttempt, withRetryAttempt, hpick, loggedAnswer, hanswer, hop]
            · intro node' h
              cases h
              exact ⟨e, hanswer, hsnd.symm⟩
          | false =>
            refine ⟨.bailed e', r, ?_, rfl, node, rfl, e, hanswer, hsnd.symm⟩
            simp [poolAttempt, withRetryAttempt, hpick, loggedAnswer, hanswer, hop]

/-! ## All attempts -/

/-- From attempt `n` on, `m` attempts are made of `count` that could be: the last of them is the
first that no other attempt follows. -/
structure Attempted (grants : Nat → Bool) (n count m : Nat) : Prop where
  le : m ≤ count
  stops : m = count ∨ (1 ≤ m ∧ grants (n + m - 1) = false)
  granted : ∀ k, k + 1 < m → grants (n + k) = true

/-- What a run has entered into the log, and how it ends. -/
structure PoolRun (grants : Nat → Bool) (pool : NodePool) (n : Nat) (turns : List (RetryTurn α))
    (excluded : List NodeId) (outcome : Outcome JsError α) (log : List (TriedNode α)) (m : Nat) :
    Prop where
  made : m ≤ turns.length
  /-- the nodes are those of the choices -/
  nodes : log.map Prod.fst = chosen ((turns.take m).map (·.choose pool)) excluded
  answers : ∀ entry ∈ log, ∃ turn ∈ turns, entry.2 = turn.answer entry.1
  ends : (∃ a, outcome = .resolved a) ∨ (∃ entry ∈ log, FinalFailure entry.2) ∨
    ∀ entry ∈ log, RetryableFailure entry.2
  /-- as long as every attempt fails, the retry options alone say how many there are -/
  attempted : (∀ entry ∈ log, RetryableFailure entry.2) → Attempted grants n turns.length m

theorem not_retryable_of_final {result : Except JsError α} (h : FinalFailure result) :
    ¬ RetryableFailure result := by
  obtain ⟨e, rfl, he⟩ := h
  intro ⟨e', heq, he'⟩
  cases heq
  rw [he] at he'
  cases he'

theorem poolRun_nil {grants : Nat → Bool} {n : Nat} {excluded : List NodeId} :
    PoolRun grants pool n [] excluded (.pending : Outcome JsError α) [] 0 where
  made := Nat.le_refl 0
  nodes := rfl
  answers := fun _ h => by cases h
  ends := .inr (.inr fun _ h => by cases h)
  attempted := fun _ => ⟨Nat.le_refl 0, .inl rfl, fun k h => by omega⟩

/-- A run that ends with its first attempt. -/
theorem poolRun_one {grants : Nat → Bool} {n : Nat} {excluded : List NodeId}
    {outcome : Outcome JsError α}
    (hends : (∃ a, outcome = .resolved a) ∨
      (∃ node, (choice (turn.choose pool) excluded).1 = some node ∧
        FinalFailure (turn.answer node)) ∨
      ∀ node, (choice (turn.choose pool) excluded).1 = some node →
        RetryableFailure (turn.answer node))
    (hattempted : (∀ node, (choice (turn.choose pool) excluded).1 = some node →
      RetryableFailure (turn.answer node)) → grants n = false) :
    PoolRun grants pool n (turn :: turns) excluded outcome
      ((choice (turn.choose pool) excluded).1.toList.map fun node => (node, turn.answer node)) 1
    where
  made := by simp
  nodes := by simp [chosen_cons, Function.comp_def]
  answers := by
    intro entry h
    obtain ⟨node, -, rfl⟩ := List.mem_map.mp h
    exact ⟨turn, by simp, rfl⟩
  ends := by
    rcases hends with h | ⟨node, hnode, hfinal⟩ | h
    · exact .inl h
    · exact .inr (.inl ⟨(node, turn.answer node), by simp [hnode], hfinal⟩)
    · refine .inr (.inr fun entry hentry => ?_)
      obtain ⟨node, hnode, rfl⟩ := List.mem_map.mp hentry
      exact h node (Option.mem_toList.mp hnode)
  attempted := by
    intro h
    have hgrants : grants n = false := hattempted fun node hnode =>
      h (node, turn.answer node) (List.mem_map.mpr ⟨node, by simp [hnode], rfl⟩)
    exact ⟨by simp, .inr ⟨Nat.le_refl 1, by simpa using hgrants⟩, fun k hk => by omega⟩

/-- A failed attempt in front of a run. -/
theorem PoolRun.cons {grants : Nat → Bool} {n m : Nat} {excluded : List NodeId}
    {outcome : Outcome JsError α} {log : List (TriedNode α)} (hgrants : grants n = true)
    (hfailed : ∀ node, (choice (turn.choose pool) excluded).1 = some node →
      RetryableFailure (turn.answer node))
    (h : PoolRun grants pool (n + 1) turns (choice (turn.choose pool) excluded).2 outcome log m) :
    PoolRun grants pool n (turn :: turns) excluded outcome
      ((choice (turn.choose pool) excluded).1.toList.map (fun node => (node, turn.answer node)) ++
        log) (m + 1) where
  made := by simpa using h.made
  nodes := by
    rw [List.map_append, h.nodes, List.take_succ_cons, List.map_cons, chosen_cons]
    simp [Function.comp_def]
  answers := by
    intro entry hentry
    rcases List.mem_append.mp hentry with hentry | hentry
    · obtain ⟨node, -, rfl⟩ := List.mem_map.mp hentry
      exact ⟨turn, by simp, rfl⟩
    · obtain ⟨t, ht, hanswer⟩ := h.answers entry hentry
      exact ⟨t, by simp [ht], hanswer⟩
  ends := by
    rcases h.ends with hresolved | ⟨entry, hentry, hfinal⟩ | hall
    · exact .inl hresolved
    · exact .inr (.inl ⟨entry, by simp [hentry], hfinal⟩)
    · refine .inr (.inr fun entry hentry => ?_)
      rcases List.mem_append.mp hentry with hentry | hentry
      · obtain ⟨node, hnode, rfl⟩ := List.mem_map.mp hentry
        exact hfailed node (Option.mem_toList.mp hnode)
      · exact hall entry hentry
  attempted := by
    intro hall
    have hrest := h.attempted fun entry hentry => hall entry (List.mem_append_right _ hentry)
    refine ⟨by simpa using hrest.le, ?_, ?_⟩
    · rcases hrest.stops with hcount | ⟨hm, hstop⟩
      · exact .inl (by simp [hcount])
      · refine .inr ⟨by omega, ?_⟩
        rwa [show n + (m + 1) - 1 = n + 1 + m - 1 by omega]
    · intro k hk
      cases k with
      | zero => exact hgrants
      | succ k =>
        rw [show n + (k + 1) = n + 1 + k by omega]
        exact hrest.granted k (by omega)

/-- The attempts of a run are those of the choices. -/
theorem retry_poolRun {grants : Nat → Bool} {mainError : List JsError → JsError → JsError}
    {correlationId : String} {n : Nat} {errors : List JsError} {s : RetryState}
    {log : List (TriedNode α)} :
    ∃ outcome s' log' m, retry grants mainError (fun _ turn => poolAttempt correlationId pool turn)
        n errors turns (s, log) = (outcome, (s', log ++ log')) ∧
      PoolRun grants pool n turns s.exclude outcome log' m := by
  induction turns generalizing n errors s log with
  | nil => exact ⟨.pending, s, [], 0, by simp, poolRun_nil⟩
  | cons turn turns ih =>
    obtain ⟨result, s', hattempt, hexclude, hends⟩ :=
      @poolAttempt_cases α pool turn correlationId s log
    cases result with
    | resolved a =>
      obtain ⟨node, hnode, hanswer⟩ := hends
      refine ⟨_, s', _, 1, retry_resolved hattempt, poolRun_one (.inl ⟨a, rfl⟩) fun h => ?_⟩
      obtain ⟨e, he, -⟩ := h node hnode
      rw [hanswer] at he
      cases he
    | bailed e =>
      obtain ⟨node, hnode, hfinal⟩ := hends
      refine ⟨_, s', _, 1, retry_bailed hattempt,
        poolRun_one (.inr (.inl ⟨node, hnode, hfinal⟩)) fun h => ?_⟩
      exact absurd (h node hnode) (not_retryable_of_final hfinal)
    | failed e =>
      rw [retry_failed hattempt]
      cases hgrants : grants n with
      | false => exact ⟨_, s', _, 1, rfl, poolRun_one (.inr (.inr hends)) fun _ => hgrants⟩
      | true =>
        obtain ⟨outcome, s'', log', m, hretry, hrun⟩ := @ih (n + 1) (errors ++ [e]) s'
          (log ++ (choice (turn.choose pool) s.exclude).1.toList.map
            fun node => (node, turn.answer node))
        rw [hexclude] at hrun
        exact ⟨outcome, s'', _, m + 1, by rw [if_pos rfl, hretry, List.append_assoc],
          hrun.cons hgrants hends⟩

/-- The log of an operation. -/
theorem tryNodes_poolRun (retries : RetryOptions) (package : AsyncRetry) (correlationId : String)
    (pool : NodePool) (turns : List (RetryTurn α)) :
    ∃ m, PoolRun (retries.grants package) pool 1 turns []
      (BalancedNode.tryNodes retries package correlationId pool turns).1
      (BalancedNode.tryNodes retries package correlationId pool turns).2 m := by
  obtain ⟨outcome, s', log', m, hretry, hrun⟩ := @retry_poolRun α pool turns
    (retries.grants package) package.mainError correlationId 1 [] {} []
  have hrun' : BalancedNode.withRetry retries package correlationId (RetryTurn.getNode pool)
      (fun _ => loggedAnswer) turns [] = (outcome, (s', log')) := hretry
  refine ⟨m, ?_⟩
  rw [BalancedNode.tryNodes, hrun']
  exact hrun

/-! ## Distinct nodes, and all of them -/

theorem chooses_of_mem (turns : List (RetryTurn α)) (m : Nat) :
    ∀ choose ∈ (turns.take m).map (·.choose pool), Chooses pool.ids choose := by
  intro choose h
  obtain ⟨turn, -, rfl⟩ := List.mem_map.mp h
  exact turn.chooses

theorem grants_number {r k : Nat} {package : AsyncRetry} :
    (RetriesConfig.number r).retryOptions.grants package k = decide (k ≤ r) := by
  change ((false || decide (k ≤ r)) && true) = decide (k ≤ r)
  rw [Bool.false_or, Bool.and_true]

section Runs

variable {grants : Nat → Bool} {outcome : Outcome JsError α} {log : List (TriedNode α)} {m : Nat}

theorem PoolRun.take (h : PoolRun grants pool 1 turns [] outcome log m)
    (hids : pool.ids.Nodup) :
    ((log.map Prod.fst).take pool.ids.length).Nodup ∧
      (log.map Prod.fst).take pool.ids.length ⊆ pool.ids ∧
      ((log.map Prod.fst).take pool.ids.length).length = min pool.ids.length m := by
  have htake := chosen_take hids (@chooses_of_mem α pool turns m)
  have hlen : ((turns.take m).map (·.choose pool)).length = m := by
    rw [List.length_map, List.length_take, Nat.min_eq_left h.made]
  rw [h.nodes]
  rwa [hlen] at htake

/-- A run with as many attempts as there are nodes has tried them all. -/
theorem PoolRun.mem_log (h : PoolRun grants pool 1 turns [] outcome log m)
    (hids : pool.ids.Nodup) (hm : pool.ids.length ≤ m) {id : NodeId} (hid : id ∈ pool.ids) :
    id ∈ log.map Prod.fst := by
  obtain ⟨hnodup, hsubset, hlen⟩ := h.take hids
  have hperm : ((log.map Prod.fst).take pool.ids.length).Perm pool.ids :=
    (List.subperm_of_subset hnodup hsubset).perm_of_length_le (by omega)
  exact List.mem_of_mem_take (hperm.mem_iff.mpr hid)

/-- A failing run goes on until the budget is used up. -/
theorem Attempted.min_le {r count : Nat} (h : Attempted grants 1 count m)
    (hgrants : ∀ k, grants k = decide (k ≤ r)) : min count (r + 1) ≤ m := by
  rcases h.stops with hcount | ⟨-, hstop⟩
  · omega
  · rw [hgrants, decide_eq_false_iff_not] at hstop
    omega

theorem Attempted.le_iff {count bound : Nat} (h : Attempted grants 1 count m) :
    m ≤ bound ↔ count ≤ bound ∨ ∃ k, 1 ≤ k ∧ k ≤ bound ∧ grants k = false := by
  constructor
  · intro hm
    rcases h.stops with hcount | ⟨hpos, hstop⟩
    · exact .inl (by omega)
    · refine .inr ⟨m, hpos, hm, ?_⟩
      rwa [Nat.add_sub_cancel_left] at hstop
  · intro hcases
    rcases hcases with hcount | ⟨k, hpos, hk, hstop⟩
    · exact Nat.le_trans h.le hcount
    · by_contra hlong
      have hgranted := h.granted (k - 1) (by omega)
      rw [Nat.add_sub_cancel' hpos, hstop] at hgranted
      cases hgranted

/-- A node that always answers is reached once there is an attempt for every node. -/
theorem PoolRun.resolved {r : Nat} (h : PoolRun grants pool 1 turns [] outcome log m)
    (hids : pool.ids.Nodup) (hgrants : ∀ k, grants k = decide (k ≤ r)) {healthy : NodeId}
    (hhealthy : healthy ∈ pool.ids) (hbudget : pool.ids.length ≤ r + 1)
    (hturns : pool.ids.length ≤ turns.length)
    (hanswers : ∀ turn ∈ turns, ∃ a, turn.answer healthy = .ok a)
    (hothers : ∀ turn ∈ turns, ∀ node, ¬ FinalFailure (turn.answer node)) :
    ∃ a, outcome = .resolved a := by
  rcases h.ends with hresolved | ⟨entry, hentry, hfinal⟩ | hall
  · exact hresolved
  · obtain ⟨turn, hturn, hanswer⟩ := h.answers entry hentry
    rw [hanswer] at hfinal
    exact absurd hfinal (hothers turn hturn entry.1)
  · have hm := (h.attempted hall).min_le hgrants
    obtain ⟨entry, hentry, hnode⟩ :=
      List.mem_map.mp (h.mem_log hids (by omega) hhealthy)
    obtain ⟨turn, hturn, hanswer⟩ := h.answers entry hentry
    obtain ⟨a, ha⟩ := hanswers turn hturn
    obtain ⟨e, he, -⟩ := hall entry hentry
    rw [hanswer, hnode, ha] at he
    cases he

/-- A failing run keeps the nodes in balance for one attempt more than there are nodes. -/
theorem PoolRun.balanced_iff (h : PoolRun grants pool 1 turns [] outcome log m)
    (hids : pool.ids.Nodup) (htwo : 2 ≤ pool.ids.length) :
    Balanced pool.ids (log.map Prod.fst) ↔ m ≤ pool.ids.length + 1 := by
  have hmade := h.made
  rw [h.nodes, balanced_chosen_iff hids htwo (chooses_of_mem turns m), List.length_map,
    List.length_take, Nat.min_eq_left hmade]

end Runs

namespace BalancedNode

/-- The first attempts of an operation are made on different nodes, until every eligible node was
tried; while they fail with errors that are retried they are made; and a node that answers is
reached if the budget has an attempt for every node. -/
theorem tryNodes_distinct (r : Nat) (package : AsyncRetry) (correlationId : String)
    (pool : NodePool) (turns : List (RetryTurn α)) (hids : pool.ids.Nodup) :
    let run := tryNodes (RetriesConfig.number r).retryOptions package correlationId pool turns
    let asked := run.2.map Prod.fst
    (asked.take pool.ids.length).Nodup ∧
      asked.take pool.ids.length ⊆ pool.ids ∧
      ((∀ attempt ∈ run.2, RetryableFailure attempt.2) →
        min (min pool.ids.length (r + 1)) turns.length ≤ asked.length) ∧
      ∀ healthy ∈ pool.ids, pool.ids.length ≤ r + 1 → pool.ids.length ≤ turns.length →
        (∀ turn ∈ turns, ∃ a, turn.answer healthy = .ok a) →
        (∀ turn ∈ turns, ∀ node, ¬ FinalFailure (turn.answer node)) →
        ∃ a, run.1 = .resolved a := by
  intro run asked
  obtain ⟨m, hrun⟩ := tryNodes_poolRun (RetriesConfig.number r).retryOptions package
    correlationId pool turns
  obtain ⟨hnodup, hsubset, hlen⟩ : (asked.take pool.ids.length).Nodup ∧
      asked.take pool.ids.length ⊆ pool.ids ∧
      (asked.take pool.ids.length).length = min pool.ids.length m := hrun.take hids
  refine ⟨hnodup, hsubset, fun hall => ?_, fun healthy hhealthy hbudget hturns => ?_⟩
  · have hm := (hrun.attempted hall).min_le fun k => grants_number
    have hle : (asked.take pool.ids.length).length ≤ asked.length := by
      rw [List.length_take]
      exact Nat.min_le_right _ _
    omega
  · exact hrun.resolved hids (fun k => grants_number) hhealthy hbudget hturns

/-- Two storage nodes. -/
def twoNodes : NodePool where
  sslRequired := false
  operation := .storePiece
  nodes :=
    [{ mode := .storage, httpUrl := ⟨"http://a", by decide⟩, grpcUrl := ⟨"grpc://a", by decide⟩ },
      { mode := .full, httpUrl := ⟨"http://b", by decide⟩, grpcUrl := ⟨"grpc://b", by decide⟩ }]

/-- An attempt in which every node is unavailable. -/
def downTurn : RetryTurn Cid where
  draws := fun _ => 0
  latency := fun _ => none
  uuid := "id"
  answer := fun _ => .error (.rpc { message := "down", code := "UNAVAILABLE" })

theorem tryNodes_distinct_two :
    let run := tryNodes (RetriesConfig.number 1).retryOptions ⟨fun _ => 0, fun _ e => e⟩ "id"
      twoNodes [downTurn, downTurn]
    let asked := run.2.map Prod.fst
    (asked.take twoNodes.ids.length).Nodup ∧
      asked.take twoNodes.ids.length ⊆ twoNodes.ids ∧
      ((∀ attempt ∈ run.2, RetryableFailure attempt.2) →
        min (min twoNodes.ids.length (1 + 1)) [downTurn, downTurn].length ≤ asked.length) ∧
      ∀ healthy ∈ twoNodes.ids, twoNodes.ids.length ≤ 1 + 1 →
        twoNodes.ids.length ≤ [downTurn, downTurn].length →
        (∀ turn ∈ [downTurn, downTurn], ∃ a, turn.answer healthy = .ok a) →
        (∀ turn ∈ [downTurn, downTurn], ∀ node, ¬ FinalFailure (turn.answer node)) →
        ∃ a, run.1 = .resolved a :=
  tryNodes_distinct 1 ⟨fun _ => 0, fun _ e => e⟩ "id" twoNodes [downTurn, downTurn] (by decide)

/-! ## After all nodes have failed -/

/-- A run whose attempts all fail asks the nodes equally often, up to one, at every point of it
exactly when it has at most one attempt more than there are nodes. -/
theorem tryNodes_balanced_iff (retries : RetryOptions) (package : AsyncRetry)
    (correlationId : String) (pool : NodePool) (turns : List (RetryTurn α))
    (hids : pool.ids.Nodup) (htwo : 2 ≤ pool.ids.length)
    (hfail : ∀ attempt ∈ (tryNodes retries package correlationId pool turns).2,
      RetryableFailure attempt.2) :
    Balanced pool.ids ((tryNodes retries package correlationId pool turns).2.map Prod.fst) ↔
      turns.length ≤ pool.ids.length + 1 ∨
        ∃ k, 1 ≤ k ∧ k ≤ pool.ids.length + 1 ∧ retries.grants package k = false := by
  obtain ⟨m, hrun⟩ := tryNodes_poolRun retries package correlationId pool turns
  rw [hrun.balanced_iff hids htwo]
  exact (hrun.attempted hfail).le_iff

theorem downTurn_fails {n : Nat} {retries : RetryOptions} {package : AsyncRetry} :
    ∀ attempt ∈ (tryNodes retries package "id" twoNodes (List.replicate n downTurn)).2,
      RetryableFailure attempt.2 := by
  intro attempt hattempt
  obtain ⟨m, hrun⟩ := tryNodes_poolRun retries package "id" twoNodes (List.replicate n downTurn)
  obtain ⟨turn, hturn, hanswer⟩ := hrun.answers attempt hattempt
  rw [List.eq_of_mem_replicate hturn] at hanswer
  exact ⟨_, hanswer, by decide⟩

theorem tryNodes_balanced_two :
    Balanced twoNodes.ids ((tryNodes { retries := 2 } ⟨fun _ => 0, fun _ e => e⟩ "id" twoNodes
        (List.replicate 5 downTurn)).2.map Prod.fst) ↔
      (List.replicate 5 downTurn).length ≤ twoNodes.ids.length + 1 ∨
        ∃ k, 1 ≤ k ∧ k ≤ twoNodes.ids.length + 1 ∧
          RetryOptions.grants { retries := 2 } ⟨fun _ => 0, fun _ e => e⟩ k = false :=
  tryNodes_balanced_iff { retries := 2 } ⟨fun _ => 0, fun _ e => e⟩ "id" twoNodes
    (List.replicate 5 downTurn) (by decide) (by decide) downTurn_fails

/-- With the default budget the third and the fourth attempt are made on the node of the first
one, while the other node was tried once. -/
theorem tryNodes_unbalanced :
    let log := (tryNodes RetriesConfig.unset.retryOptions ⟨fun _ => 0, fun _ e => e⟩ "id" twoNodes
      (List.replicate 4 downTurn)).2
    (∀ attempt ∈ log, RetryableFailure attempt.2) ∧
      ¬ Balanced twoNodes.ids (log.map Prod.fst) := by
  intro log
  refine ⟨downTurn_fails, ?_⟩
  obtain ⟨m, hrun⟩ := tryNodes_poolRun RetriesConfig.unset.retryOptions ⟨fun _ => 0, fun _ e => e⟩
    "id" twoNodes (List.replicate 4 downTurn)
  have hids : twoNodes.ids.length = 2 := by decide
  rw [hrun.balanced_iff (by decide) (by decide), hids]
  have hm := (hrun.attempted downTurn_fails).min_le (r := 5) fun k => grants_number (r := 5)
  rw [List.length_replicate] at hm
  omega

end BalancedNode

end CereDdc
