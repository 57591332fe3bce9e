import CereDdc.Fallback
import Mathlib.Algebra.Order.BigOperators.Group.List
import Mathlib.Algebra.Order.Group.Nat

/-!
# RetriedOperation — the calls of `withRetry`

What a run of `withRetry` asks of the router and of the nodes, call by call, and
what its result has to do with them. The router and the body are arbitrary, and
so is the retry package but for what its documentation says.
-/

namespace CereDdc

open Kit

/-! ## Calls -/

/-- A call that an attempt makes, and what it comes to. -/
inductive RetryCall (α : Type)
  /-- `this.router.getNode(operation, bucketId, { logErrors: false }, exclude)` -/
  | router (exclude : List NodeId) (result : Except JsError NodeId)
  /-- `body(node, bail, attempt)` -/
  | body (attempt : Nat) (node : NodeId) (result : Except JsError α)

namespace RetryCall

variable {α : Type}

def isBody : RetryCall α → Bool
  | body _ _ _ => true
  | router _ _ => false

/-- The call ends the operation: the body has resolved, or failed for good. -/
def Final : RetryCall α → Prop
  | body _ _ (.ok _) => True
  | body _ _ (.error e) => e.isRetryable = false
  | router _ _ => False

end RetryCall

/-- The calls of one attempt, which begins in the state `s`. -/
def attemptCalls {σ α : Type} (getNode : List NodeId → Except JsError NodeId)
    (body : NodeId → σ → Except JsError α × σ) (attempt : Nat) (s : RetryState × σ) :
    List (RetryCall α) :=
  .router s.1.exclude (getNode s.1.exclude) ::
    (pickNode getNode s.1).1.toList.map fun node => .body attempt node (body node s.2).1

/-- The error that an operation on `node` shows to the caller when it failed with `thrown`. -/
def Surfaces (correlationId : String) (node : NodeId) (thrown e : JsError) : Prop :=
  match thrown.asRpcError with
  | some r => ∃ nodeError : NodeError, e = .node nodeError ∧ nodeError.code = r.code ∧
      nodeError.message = r.message ∧ nodeError.nodeId = some node ∧
      nodeError.correlationId = some correlationId
  | none => e = thrown

/-- The error is that of a body call. -/
def BodyFailure {α : Type} (correlationId : String) (calls : List (RetryCall α)) (e : JsError) :
    Prop :=
  ∃ attempt node thrown, .body attempt node (.error thrown) ∈ calls ∧
    Surfaces correlationId node thrown e

/-- The error is that of a router call, or stands for one that came with no `Error` object. -/
def RouterFailure {α : Type} (calls : List (RetryCall α)) (e : JsError) : Prop :=
  (∃ exclude, .router exclude (.error e) ∈ calls) ∨
    e = noNodes ∧ ∃ exclude value, .router exclude (.error value) ∈ calls ∧ value.isError = false

section

variable {σ α : Type} {correlationId : String} {node : NodeId} {thrown e : JsError}
  {calls calls' : List (RetryCall α)}

theorem operationError_surfaces :
    Surfaces correlationId node thrown (operationError node correlationId thrown).1 := by
  unfold Surfaces operationError
  cases thrown.asRpcError with
  | some r => exact ⟨_, rfl, rfl, rfl, rfl, rfl⟩
  | none => rfl

theorem BodyFailure.mono (h : BodyFailure correlationId calls e) (hsub : calls ⊆ calls') :
    BodyFailure correlationId calls' e := by
  obtain ⟨attempt, node, thrown, hmem, hsurfaces⟩ := h
  exact ⟨attempt, node, thrown, hsub hmem, hsurfaces⟩

theorem RouterFailure.mono (h : RouterFailure calls e) (hsub : calls ⊆ calls') :
    RouterFailure calls' e := by
  rcases h with ⟨exclude, hmem⟩ | ⟨he, exclude, value, hmem, hvalue⟩
  · exact .inl ⟨exclude, hsub hmem⟩
  · exact .inr ⟨he, exclude, value, hsub hmem, hvalue⟩

/-! ## One attempt -/

variable {getNode : List NodeId → Except JsError NodeId} {body : NodeId → σ → Except JsError α × σ}
  {attempt : Nat} {s t : RetryState × σ} {result : Attempt JsError α}

/-- What an attempt can be. -/
theorem withRetryAttempt_cases :
    let r := (pickNode getNode s.1).2
    (∃ node a, (pickNode getNode s.1).1 = some node ∧ (body node s.2).1 = .ok a ∧
      withRetryAttempt correlationId getNode body s = (.resolved a, (r, (body node s.2).2))) ∨
    (∃ node thrown, (pickNode getNode s.1).1 = some node ∧ (body node s.2).1 = .error thrown ∧
      thrown.isRetryable = true ∧
      withRetryAttempt correlationId getNode body s =
        (.failed (operationError node correlationId thrown).1,
          ({ r with lastOperationError := some (operationError node correlationId thrown).1 },
            (body node s.2).2))) ∨
    (∃ node thrown, (pickNode getNode s.1).1 = some node ∧ (body node s.2).1 = .error thrown ∧
      thrown.isRetryable = false ∧
      withRetryAttempt correlationId getNode body s =
        (.bailed (operationError node correlationId thrown).1, (r, (body node s.2).2))) ∨
    (pickNode getNode s.1).1 = none ∧
      withRetryAttempt correlationId getNode body s =
        (.failed (r.lastOperationError.getD (r.lastRouterError.getD noNodes)), (r, s.2)) := by
  unfold withRetryAttempt
  cases pickNode getNode s.1 with
  | mk picked r =>
    cases picked with
    | none => exact .inr (.inr (.inr ⟨rfl, rfl⟩))
    | some node =>
      dsimp only
      cases hresult : body node s.2 with
      | mk result t =>
        cases result with
        | ok a => exact .inl ⟨node, a, rfl, by rw [hresult], by rw [hresult]⟩
        | error thrown =>
          have hretryable := @operationError_snd node correlationId thrown
          cases hop : operationError node correlationId thrown with
          | mk e retryable =>
            rw [hop] at hretryable
            cases retryable with
            | true =>
              refine .inr (.inl ⟨node, thrown, rfl, by rw [hresult], hretryable.symm, ?_⟩)
              simp only [hresult, hop]
            | false =>
              refine .inr (.inr (.inl ⟨node, thrown, rfl, by rw [hresult], hretryable.symm, ?_⟩))
              simp only [hresult, hop]

theorem attemptCalls_some (h : (pickNode getNode s.1).1 = some node) :
    attemptCalls getNode body attempt s =
      [.router s.1.exclude (getNode s.1.exclude), .body attempt node (body node s.2).1] := by
  simp [attemptCalls, h]

theorem attemptCalls_none (h : (pickNode getNode s.1).1 = none) :
    attemptCalls getNode body attempt s = [.router s.1.exclude (getNode s.1.exclude)] := by
  simp [attemptCalls, h]

theorem mem_attemptCalls {number : Nat} {result : Except JsError α} :
    .body number node result ∈ attemptCalls getNode body attempt s ↔
      number = attempt ∧ (pickNode getNode s.1).1 = some node ∧ (body node s.2).1 = result := by
  cases hpicked : (pickNode getNode s.1).1 with
  | none => simp [attemptCalls_none hpicked]
  | some node' =>
    simp only [attemptCalls_some hpicked, List.mem_cons, List.not_mem_nil, reduceCtorEq, false_or,
      or_false, RetryCall.body.injEq, Option.some.injEq]
    constructor
    · rintro ⟨rfl, rfl, rfl⟩
      exact ⟨rfl, rfl, rfl⟩
    · rintro ⟨rfl, rfl, rfl⟩
      exact ⟨rfl, rfl, rfl⟩

/-- The body is called last, and once at most. -/
theorem attemptCalls_body_last {pre post : List (RetryCall α)} {number : Nat}
    {result : Except JsError α}
    (h : attemptCalls getNode body attempt s = pre ++ .body number node result :: post) :
    post = [] := by
  cases hpicked : (pickNode getNode s.1).1 with
  | none =>
    have hmem : .body number node result ∈ attemptCalls getNode body attempt s := by simp [h]
    rw [mem_attemptCalls, hpicked] at hmem
    cases hmem.2.1
  | some node' =>
    rw [attemptCalls_some hpicked] at h
    cases pre with
    | nil => simp at h
    | cons first pre =>
      have hlength := congrArg List.length h
      simp only [List.length_append, List.length_cons, List.length_nil] at hlength
      exact List.eq_nil_of_length_eq_zero (by omega)

theorem countP_attemptCalls_le :
    (attemptCalls getNode body attempt s).countP RetryCall.isBody ≤ 1 := by
  cases hpicked : (pickNode getNode s.1).1 with
  | none => simp [attemptCalls_none hpicked, RetryCall.isBody]
  | some node => simp [attemptCalls_some hpicked, List.countP_cons, RetryCall.isBody]

/-- An attempt resolves with what its body call resolves with. -/
theorem withRetryAttempt_resolved_iff {a : α} :
    (withRetryAttempt correlationId getNode body s).1 = .resolved a ↔
      ∃ node, .body attempt node (.ok a) ∈ attemptCalls getNode body attempt s := by
  simp only [mem_attemptCalls, true_and]
  obtain ⟨node, b, hnode, hb, hrun⟩ | ⟨node, thrown, hnode, hthrown, -, hrun⟩ |
    ⟨node, thrown, hnode, hthrown, -, hrun⟩ | ⟨hnone, hrun⟩ :=
      @withRetryAttempt_cases σ α correlationId getNode body s
  · simp [hrun, hnode, hb, eq_comm]
  · simp [hrun, hnode, hthrown]
  · simp [hrun, hnode, hthrown]
  · simp [hrun, hnone]

/-- An attempt that fails, so that it may be repeated, makes no final call. -/
theorem not_final_of_failed (h : (withRetryAttempt correlationId getNode body s).1 = .failed e) :
    ∀ call ∈ attemptCalls getNode body attempt s, ¬ call.Final := by
  intro call hcall hfinal
  cases call with
  | router exclude result => exact hfinal
  | body number node result =>
    obtain ⟨-, hnode, hresult⟩ := mem_attemptCalls.mp hcall
    obtain ⟨node', b, -, -, hrun⟩ | ⟨node', thrown, hnode', hthrown, hretryable, -⟩ |
      ⟨node', thrown, -, -, -, hrun⟩ | ⟨hnone, -⟩ :=
        @withRetryAttempt_cases σ α correlationId getNode body s
    · simp [hrun] at h
    · rw [hnode'] at hnode
      cases hnode
      rw [hthrown] at hresult
      subst hresult
      exact absurd hretryable (by simp [show thrown.isRetryable = false from hfinal])
    · simp [hrun] at h
    · rw [hnone] at hnode
      cases hnode

/-- The variables that `withRetry` keeps hold errors and nodes of the calls so far. -/
structure Remembers (correlationId : String) (calls : List (RetryCall α)) (s : RetryState) :
    Prop where
  operation : ∀ e, s.lastOperationError = some e → BodyFailure correlationId calls e
  router : ∀ e, s.lastRouterError = some e → ∃ exclude, .router exclude (.error e) ∈ calls
  exclude : ∀ node ∈ s.exclude, ∃ exclude, .router exclude (.ok node) ∈ calls

theorem remembers_start : Remembers correlationId calls {} := ⟨nofun, nofun, nofun⟩

theorem Remembers.mono {s : RetryState} (h : Remembers correlationId calls s)
    (hsub : calls ⊆ calls') : Remembers correlationId calls' s where
  operation := fun e he => (h.operation e he).mono hsub
  router := fun e he => (h.router e he).imp fun _ hmem => hsub hmem
  exclude := fun node hnode => (h.exclude node hnode).imp fun _ hmem => hsub hmem

/-- The choice of a node, on top of the router call. -/
theorem Remembers.pickNode {s : RetryState} (h : Remembers correlationId calls s)
    (hcall : .router s.exclude (getNode s.exclude) ∈ calls) :
    Remembers correlationId calls (CereDdc.pickNode getNode s).2 ∧
      ∀ node, (CereDdc.pickNode getNode s).1 = some node →
        ∃ exclude, .router exclude (.ok node) ∈ calls := by
  unfold CereDdc.pickNode
  cases hget : getNode s.exclude with
  | ok node =>
    rw [hget] at hcall
    refine ⟨⟨h.operation, h.router, fun node' hnode => ?_⟩, fun node' hnode => ?_⟩
    · rcases List.mem_cons.mp hnode with rfl | hnode
      · exact ⟨_, hcall⟩
      · exact h.exclude node' hnode
    · cases hnode
      exact ⟨_, hcall⟩
  | error e =>
    rw [hget] at hcall
    refine ⟨⟨h.operation, fun e' he' => ?_, fun node hnode => ?_⟩, fun node hnode => ?_⟩
    · dsimp only at he'
      by_cases herror : e.isError = true
      · rw [if_pos herror] at he'
        cases he'
        exact ⟨_, hcall⟩
      · rw [if_neg herror] at he'
        exact h.router e' he'
    · exact h.exclude node (List.dropLast_subset _ hnode)
    · exact h.exclude node (List.mem_of_getLast? hnode)

/-- An attempt without a node throws what is remembered, and otherwise the router has failed with
no `Error` object. -/
theorem Remembers.noNode {s : RetryState} (h : Remembers correlationId calls s)
    (hcall : .router s.exclude (getNode s.exclude) ∈ calls)
    (hnone : (CereDdc.pickNode getNode s).1 = none) :
    let r := (CereDdc.pickNode getNode s).2
    BodyFailure correlationId calls (r.lastOperationError.getD (r.lastRouterError.getD noNodes)) ∨
      RouterFailure calls (r.lastOperationError.getD (r.lastRouterError.getD noNodes)) := by
  intro r
  obtain ⟨hr, -⟩ := h.pickNode hcall
  cases hoperation : r.lastOperationError with
  | some e => exact .inl (hr.operation e hoperation)
  | none =>
    cases hrouter : r.lastRouterError with
    | some e => exact .inr (.inl (hr.router e hrouter))
    | none =>
      refine .inr (.inr ⟨rfl, ?_⟩)
      unfold r CereDdc.pickNode at hrouter
      unfold CereDdc.pickNode at hnone
      cases hget : getNode s.exclude with
      | ok node =>
        rw [hget] at hnone
        cases hnone
      | error e =>
        rw [hget] at hcall hrouter
        refine ⟨_, e, hcall, ?_⟩
        by_contra herror
        rw [Bool.not_eq_false] at herror
        simp [herror] at hrouter

/-- What an attempt leaves behind, and what it fails with. -/
theorem Remembers.attempted (h : Remembers correlationId calls s.1) :
    let after := calls ++ attemptCalls getNode body attempt s
    let run := withRetryAttempt correlationId getNode body s
    Remembers correlationId after run.2.1 ∧
      ∀ e, run.1 = .failed e ∨ run.1 = .bailed e →
        BodyFailure correlationId after e ∨ RouterFailure after e := by
  intro after run
  have hcall : .router s.1.exclude (getNode s.1.exclude) ∈ after := by
    simp [after, attemptCalls]
  have hbefore : Remembers correlationId after s.1 := h.mono (List.subset_append_left _ _)
  have hr := (hbefore.pickNode hcall).1
  have hfailure : ∀ node thrown, (CereDdc.pickNode getNode s.1).1 = some node →
      (body node s.2).1 = .error thrown →
      BodyFailure correlationId after (operationError node correlationId thrown).1 := by
    intro node thrown hnode hthrown
    refine ⟨attempt, node, thrown, ?_, operationError_surfaces⟩
    simp [after, attemptCalls_some hnode, hthrown]
  obtain ⟨node, a, -, -, hrun⟩ | ⟨node, thrown, hnode, hthrown, -, hrun⟩ |
    ⟨node, thrown, hnode, hthrown, -, hrun⟩ | ⟨hnone, hrun⟩ :=
      @withRetryAttempt_cases σ α correlationId getNode body s
  · refine ⟨by simpa only [run, hrun] using hr, fun e he => ?_⟩
    simp [run, hrun] at he
  · have hthis := hfailure node thrown hnode hthrown
    refine ⟨?_, fun e he => ?_⟩
    · simp only [run, hrun]
      refine ⟨fun e he => ?_, hr.router, hr.exclude⟩
      cases he
      exact hthis
    · simp only [run, hrun, Attempt.failed.injEq, reduceCtorEq, or_false] at he
      exact .inl (he ▸ hthis)
  · refine ⟨by simpa only [run, hrun] using hr, fun e he => ?_⟩
    simp only [run, hrun, Attempt.bailed.injEq, reduceCtorEq, false_or] at he
    exact .inl (he ▸ hfailure node thrown hnode hthrown)
  · refine ⟨by simpa only [run, hrun] using hr, fun e he => ?_⟩
    simp only [run, hrun, Attempt.failed.injEq, reduceCtorEq, or_false] at he
    exact he ▸ hbefore.noNode hcall hnone

/-- The body is only called on nodes that the router has come up with. -/
theorem Remembers.obtained (h : Remembers correlationId calls s.1) {number : Nat}
    {result : Except JsError α}
    (hmem : .body number node result ∈ attemptCalls getNode body attempt s) :
    ∃ exclude, .router exclude (.ok node) ∈ calls ++ attemptCalls getNode body attempt s := by
  have hbefore := h.mono (List.subset_append_left calls (attemptCalls getNode body attempt s))
  have hcall : .router s.1.exclude (getNode s.1.exclude)
      ∈ calls ++ attemptCalls getNode body attempt s := by
    simp [attemptCalls]
  exact (hbefore.pickNode hcall).2 node (mem_attemptCalls.mp hmem).2.1

end

/-! ## All attempts -/

namespace BalancedNode

/-- The attempts of a run of `withRetry`. -/
def withRetryAttempts {α σ : Type} {β : Type*} (retries : RetryOptions) (package : AsyncRetry)
    (correlationId : String) (getNode : β → List NodeId → Except JsError NodeId)
    (body : Nat → β → NodeId → σ → Except JsError α × σ) (turns : List β) (s : σ) :
    List (AttemptMade JsError α β (RetryState × σ)) :=
  attempts (retries.grants package)
    (fun attempt turn => withRetryAttempt correlationId (getNode turn) (body attempt turn))
    1 turns ({}, s)

/-- The calls of the run, in their order. -/
def withRetryCalls {α σ : Type} {β : Type*} (retries : RetryOptions) (package : AsyncRetry)
    (correlationId : String) (getNode : β → List NodeId → Except JsError NodeId)
    (body : Nat → β → NodeId → σ → Except JsError α × σ) (turns : List β) (s : σ) :
    List (RetryCall α) :=
  (withRetryAttempts retries package correlationId getNode body turns s).flatMap fun made =>
    attemptCalls (getNode made.turn) (body made.number made.turn) made.number made.before

variable {α σ : Type} {β : Type*} {retries : RetryOptions} {package : AsyncRetry}
  {correlationId : String} {getNode : β → List NodeId → Except JsError NodeId}
  {body : Nat → β → NodeId → σ → Except JsError α × σ} {turns : List β} {s : σ} {e : JsError}
  {a : α}

/-- An attempt of the run: its calls among those of the run, and what it remembers of the earlier
ones. -/
theorem attempt_of_run {made : AttemptMade JsError α β (RetryState × σ)}
    (hmade : made ∈ withRetryAttempts retries package correlationId getNode body turns s) :
    ∃ earlier, Remembers correlationId earlier made.before.1 ∧
      earlier ++ attemptCalls (getNode made.turn) (body made.number made.turn) made.number
        made.before ⊆ withRetryCalls retries package correlationId getNode body turns s ∧
      made.result = (withRetryAttempt correlationId (getNode made.turn)
        (body made.number made.turn) made.before).1 := by
  obtain ⟨pre, post, hsplit⟩ := List.append_of_mem hmade
  obtain ⟨hremembers, hresult⟩ := attempts_history
    (P := fun ms t => Remembers correlationId (ms.flatMap fun made =>
      attemptCalls (getNode made.turn) (body made.number made.turn) made.number made.before) t.1)
    (fun ms n b t ht => by
      rw [List.flatMap_append, List.flatMap_singleton]
      exact ht.attempted.1)
    remembers_start hsplit
  refine ⟨_, hremembers, ?_, hresult⟩
  unfold withRetryCalls
  rw [hsplit, List.flatMap_append, List.flatMap_cons, ← List.append_assoc]
  exact List.subset_append_left _ _

/-- A call of the run belongs to an attempt of it. -/
theorem mem_withRetryCalls {call : RetryCall α} :
    call ∈ withRetryCalls retries package correlationId getNode body turns s ↔
      ∃ made ∈ withRetryAttempts retries package correlationId getNode body turns s,
        call ∈ attemptCalls (getNode made.turn) (body made.number made.turn) made.number
          made.before :=
  List.mem_flatMap

/-- The attempts are those of a retry loop, and decide how the run ends. -/
theorem withRetry_ended : Ended package.mainError []
    (withRetryAttempts retries package correlationId getNode body turns s)
    (withRetry retries package correlationId getNode body turns s).1 :=
  retry_ended

/-- An attempt calls the body once at most, so the budget bounds the body calls. -/
theorem countP_withRetryCalls_le (hforever : retries.forever = false) :
    (withRetryCalls retries package correlationId getNode body turns s).countP RetryCall.isBody
      ≤ retries.retries + 1 := by
  have hgrants : ∀ k, retries.grants package k → k ≤ retries.retries := by
    intro k hk
    unfold RetryOptions.grants at hk
    rw [hforever, Bool.false_or, Bool.and_eq_true, decide_eq_true_eq] at hk
    exact hk.1
  have hlength : (withRetryAttempts retries package correlationId getNode body turns s).length
      ≤ retries.retries + 1 := length_attempts_le hgrants (Nat.le_add_left 1 _)
  refine Nat.le_trans ?_ hlength
  unfold withRetryCalls
  rw [List.countP_flatMap]
  refine (List.sum_le_card_nsmul _ 1 ?_).trans (by simp)
  intro count hcount
  obtain ⟨made, -, rfl⟩ := List.mem_map.mp hcount
  exact countP_attemptCalls_le

/-- Nothing is called after a final call. -/
theorem final_last {pre post : List (RetryCall α)} {call : RetryCall α}
    (h : withRetryCalls retries package correlationId getNode body turns s = pre ++ call :: post)
    (hfinal : call.Final) : post = [] := by
  refine withRetry_ended.final_last (fun made _ pre c post hsplit hc => ?_)
    (fun made hmade e hresult => ?_) h hfinal
  · cases c with
    | router exclude result => exact absurd hc id
    | body number node result => exact attemptCalls_body_last hsplit
  · obtain ⟨earlier, -, -, hmade⟩ := attempt_of_run hmade
    exact not_final_of_failed (hmade.symm.trans hresult)

/-- The run resolves exactly with what a body call resolves with. -/
theorem withRetry_resolved_iff :
    (withRetry retries package correlationId getNode body turns s).1 = .resolved a ↔
      ∃ number node, .body number node (.ok a)
        ∈ withRetryCalls retries package correlationId getNode body turns s := by
  constructor
  · intro h
    have hended := @withRetry_ended α σ β retries package correlationId getNode body turns s
    rw [h] at hended
    obtain ⟨made, hmade, hresult⟩ := hended.mem_of_resolved
    obtain ⟨earlier, -, -, hrun⟩ := attempt_of_run hmade
    obtain ⟨node, hcall⟩ := withRetryAttempt_resolved_iff.mp (hrun.symm.trans hresult)
    exact ⟨made.number, node, mem_withRetryCalls.mpr ⟨made, hmade, hcall⟩⟩
  · rintro ⟨number, node, hcall⟩
    obtain ⟨made, hmade, hcall⟩ := mem_withRetryCalls.mp hcall
    obtain ⟨earlier, -, -, hrun⟩ := attempt_of_run hmade
    have hnumber : number = made.number := (mem_attemptCalls.mp hcall).1
    subst hnumber
    exact withRetry_ended.resolved_of_mem hmade
      (hrun.trans (withRetryAttempt_resolved_iff.mpr ⟨node, hcall⟩))

/-- The run rejects with the failure of a body call or of a router call. -/
theorem withRetry_rejected
    (hmain : ∀ errors e, package.mainError errors e ∈ errors ++ [e])
    (h : (withRetry retries package correlationId getNode body turns s).1 = .rejected e) :
    BodyFailure correlationId
        (withRetryCalls retries package correlationId getNode body turns s) e ∨
      RouterFailure (withRetryCalls retries package correlationId getNode body turns s) e := by
  have hended := @withRetry_ended α σ β retries package correlationId getNode body turns s
  rw [h] at hended
  obtain hnil | ⟨made, hmade, hresult⟩ := hended.mem_of_rejected hmain
  · cases hnil
  · obtain ⟨earlier, hremembers, hsub, hrun⟩ := attempt_of_run hmade
    rw [hrun] at hresult
    exact (hremembers.attempted.2 e hresult).imp (·.mono hsub) (·.mono hsub)

/-- The body is only called on nodes that the router came up with in the run. -/
theorem obtained_of_body {number : Nat} {node : NodeId} {result : Except JsError α}
    (h : .body number node result
      ∈ withRetryCalls retries package correlationId getNode body turns s) :
    ∃ exclude, .router exclude (.ok node)
      ∈ withRetryCalls retries package correlationId getNode body turns s := by
  obtain ⟨made, hmade, hcall⟩ := mem_withRetryCalls.mp h
  obtain ⟨earlier, hremembers, hsub, -⟩ := attempt_of_run hmade
  exact (hremembers.obtained hcall).imp fun _ hmem => hsub hmem

/-- An operation is tried as often as the options say, and not after it is complete; its result
is that of a body call, and its error is one of the run: that of a body call, for the caller, or
that of the router, if no node was obtained. -/
theorem withRetry_calls (retries : RetryOptions) (package : AsyncRetry)
    (hmain : ∀ errors e, package.mainError errors e ∈ errors ++ [e]) (correlationId : String)
    (getNode : β → List NodeId → Except JsError NodeId)
    (body : Nat → β → NodeId → σ → Except JsError α × σ) (turns : List β) (s : σ) :
    let outcome := (withRetry retries package correlationId getNode body turns s).1
    let calls := withRetryCalls retries package correlationId getNode body turns s
    (retries.forever = false → calls.countP RetryCall.isBody ≤ retries.retries + 1) ∧
      (∀ pre call post, calls = pre ++ call :: post → call.Final → post = []) ∧
      (∀ a, outcome = .resolved a ↔ ∃ number node, .body number node (.ok a) ∈ calls) ∧
      ∀ e, outcome = .rejected e →
        (BodyFailure correlationId calls e ∨ RouterFailure calls e) ∧
        ((∀ exclude node, .router exclude (.ok node) ∉ calls) → RouterFailure calls e) := by
  intro outcome calls
  refine ⟨countP_withRetryCalls_le, fun _ _ _ => final_last, fun a => withRetry_resolved_iff, ?_⟩
  intro e he
  have hrejected := withRetry_rejected hmain he
  refine ⟨hrejected, fun hnone => ?_⟩
  rcases hrejected with ⟨number, node, thrown, hcall, -⟩ | hrouter
  · obtain ⟨exclude, hobtained⟩ := obtained_of_body hcall
    exact absurd hobtained (hnone exclude node)
  · exact hrouter

/-- A body that finds the first node down and gets an answer from the next. -/
def secondTry (attempt : Nat) (_ : Unit) (_ : NodeId) (s : Unit) : Except JsError Nat × Unit :=
  if attempt = 1 then (.error (.rpc { message := "down", code := "UNAVAILABLE" }), s) else (.ok 7, s)

theorem withRetry_calls_second :
    let calls := withRetryCalls { retries := 1 } ⟨fun _ => 0, fun _ e => e⟩ "id"
      (fun _ exclude => .ok (if exclude = [] then "a" else "b")) secondTry [(), ()] ()
    calls.countP RetryCall.isBody ≤ 1 + 1 ∧
      (withRetry { retries := 1 } ⟨fun _ => 0, fun _ e => e⟩ "id"
        (fun _ exclude => .ok (if exclude = [] then "a" else "b")) secondTry [(), ()] ()).1
          = .resolved 7 := by
  intro calls
  obtain ⟨hcount, -, hresolved, -⟩ := withRetry_calls { retries := 1 } ⟨fun _ => 0, fun _ e => e⟩
    (by simp) "id" (fun _ exclude => .ok (if exclude = [] then "a" else "b")) secondTry [(), ()] ()
  refine ⟨hcount rfl, (hresolved 7).mpr ⟨2, "b", ?_⟩⟩
  have hcalls : calls = [.router [] (.ok "a"),
      .body 1 "a" (.error (.rpc { message := "down", code := "UNAVAILABLE" })),
      .router ["a"] (.ok "b"), .body 2 "b" (.ok 7)] := rfl
  change _ ∈ calls
  simp [hcalls]

end BalancedNode

end CereDdc
