import CereDdc.NodeSelection

/-!
# RoutedNodes — what comes of the calls of a router

In every state that a router and its strategy can reach: the calls of
`marshalNodes` return the nodes that support their operations, the lists of the
strategy stay as they are, and the calls of `getNode` find a node if there is one.
-/

namespace CereDdc

open Kit (Heap Ref Outcome)

namespace RoutingState

variable {sslRequired : Bool} {s t : RoutingState} {event : RoutingEvent}
  {events : List RoutingEvent} {request : NodeRequest} {i : Nat} {allNodes r : Ref}

/-! ## The arrays over a run -/

/-- An array that no call of `marshalNodes` sorts is the same after any run. -/
theorem Sound.run_untouched (hs : s.Sound sslRequired) (hr : s.strategy.ping.Untouched r)
    (h : Kit.run (RoutingState.step sslRequired) s events = some t) :
    t.strategy.ping.arrays.read r = s.strategy.ping.arrays.read r := by
  have hall := Kit.run_invariant (P := fun u : RoutingState => u.Sound sslRequired ∧
      u.strategy.ping.Untouched r ∧
      u.strategy.ping.arrays.read r = s.strategy.ping.arrays.read r) ?_ ⟨hs, hr, rfl⟩ h
  · exact hall.2.2
  · intro u event v hu hstep
    obtain ⟨hsound, huntouched, hread⟩ := hu
    obtain ⟨pings, hrun⟩ := (hsound.movesOn hstep).pings
    obtain ⟨huntouched', hread'⟩ := huntouched.run hrun
    exact ⟨hsound.step hstep, huntouched', hread'.trans hread⟩

end RoutingState

/-! ## Results -/

/-- The result is a node that supports the operation and is not excluded, if there is one, and
otherwise the error that there are no nodes. -/
structure NodeRequest.SelectsFrom (sslRequired : Bool) (request : NodeRequest)
    (nodes : List RouterNode) (result : Except JsError SelectedNode) : Prop where
  resolves : (∃ node, Eligible sslRequired request.operation nodes request.exclude node) →
    ∃ selected, result = .ok selected ∧
      Eligible sslRequired request.operation nodes request.exclude selected.node
  rejects : result = .error noNodes ↔
    ∀ node, ¬ Eligible sslRequired request.operation nodes request.exclude node

section

variable {sslRequired : Bool} {request : NodeRequest} {nodes : List RouterNode}

theorem NodeRequest.Chooses.selectsFrom_ok {selected : SelectedNode}
    (h : request.Chooses sslRequired nodes (.ok selected.node)) :
    request.SelectsFrom sslRequired nodes (.ok selected) where
  resolves := by
    obtain ⟨latency, hget⟩ := h
    exact fun _ => ⟨selected, rfl, Router.getNode_ok hget⟩
  rejects := by
    obtain ⟨latency, hget⟩ := h
    constructor
    · intro h
      cases h
    · intro h
      exact absurd (Router.getNode_ok hget) (h _)

theorem NodeRequest.Chooses.selectsFrom_error {e : JsError}
    (h : request.Chooses sslRequired nodes (.error e)) :
    request.SelectsFrom sslRequired nodes (.error e) := by
  obtain ⟨latency, hget⟩ := h
  obtain ⟨rfl, hnone⟩ := Router.getNode_error_iff.mp hget
  constructor
  · intro ⟨node, hnode⟩
    exact absurd hnode (hnone node)
  · exact ⟨fun _ => hnone, fun _ => rfl⟩

end

namespace RoutingState

/-- `getNodes` has resolved for the call. -/
def GotNodes (s : RoutingState) (request : NodeRequest) (allNodes : Ref) : Prop :=
  request.allNodes = some allNodes ∨
    ∃ get call, request.phase = .getting get ∧ s.strategy.gets[get]? = some call ∧
      call.phase = .done (.ok allNodes)

/-- What a call needs to get on: that it is resumed, and that pings end, each of them as `ok`
has it. -/
inductive Helps (ok : Url → Bool) : RoutingEvent → Prop
  | ping (i : Nat) (event : PingEvent) (h : PingState.Helps ok i event) :
    Helps ok (.strategy (.ping event))
  | resume (i : Nat) : Helps ok (.resume i)

variable (sslRequired : Bool) (s : RoutingState)

/-- A call of `marshalNodes` is given the nodes of an array. Every call ends, and what it returns
are the nodes it was given that support its operation. -/
def MarshalsExactly : Prop :=
  (∀ operation r draws t,
    s.step sslRequired (.strategy (.ping (.marshalNodes operation r draws))) = some t →
    ∃ call, t.strategy.ping.calls = s.strategy.ping.calls ++ [call] ∧
      call.operation = operation ∧ call.given = s.strategy.ping.arrays.read r) ∧
  ∀ (i : Nat) call, s.strategy.ping.calls[i]? = some call →
    (∀ result, call.phase = .done result → (s.strategy.ping.arrays.read result).Perm
      (call.given.filter (·.supports sslRequired call.operation))) ∧
    ∀ ok, ∃ t result, Kit.ReachesBy (step sslRequired) (Helps ok) s t ∧
      t.strategy.ping.calls[i]? = some { call with phase := .done result }

/-- The lists of the strategy are the same after any run, and the calls of `marshalNodes` leave it
to the strategy which lists it has. -/
def LeavesLists : Prop :=
  (∀ events t, Kit.run (step sslRequired) s events = some t → ∀ r, s.strategy.source.Owns r →
    t.strategy.ping.arrays.read r = s.strategy.ping.arrays.read r) ∧
  ∀ event t, s.step sslRequired (.strategy (.ping event)) = some t →
    t.strategy.source = s.strategy.source

/-- Every call of `getNode` that has the nodes of the strategy and the SDK token ends, and selects
from those nodes. -/
def SelectsNodes : Prop :=
  ∀ (i : Nat) request allNodes token, s.requests[i]? = some request →
    s.GotNodes request allNodes → request.sdkToken = .resolved token →
    (∀ result, request.phase = .done result →
      request.SelectsFrom sslRequired (s.strategy.ping.arrays.read allNodes) result) ∧
    ∀ ok, ∃ t result, Kit.ReachesBy (step sslRequired) (Helps ok) s t ∧
      t.requests[i]? = some { request with allNodes := some allNodes, phase := .done result } ∧
      request.SelectsFrom sslRequired (s.strategy.ping.arrays.read allNodes) result

variable {sslRequired : Bool} {s t : RoutingState} {event : RoutingEvent}
  {events : List RoutingEvent} {request : NodeRequest} {i : Nat} {allNodes r : Ref}
  {nodes : List RouterNode} {ok : Url → Bool}

theorem Sound.untouched_of_gotNodes (hs : s.Sound sslRequired)
    (hrequest : s.requests[i]? = some request) (hgot : s.GotNodes request allNodes) :
    s.strategy.ping.Untouched allNodes := by
  rcases hgot with hall | ⟨get, call, -, hcall, hdone⟩
  · exact (hs.requests i request hrequest).untouched allNodes hall
  · refine hs.strategy.gets get call allNodes hcall ?_
    rw [hdone]
    rfl

/-- A call that is done has selected. -/
theorem Sound.selectsFrom {result : Except JsError SelectedNode} {token : AuthToken}
    (hs : s.Sound sslRequired) (hrequest : s.requests[i]? = some request)
    (hall : request.allNodes = some allNodes) (htoken : request.sdkToken = .resolved token)
    (hdone : request.phase = .done result) :
    request.SelectsFrom sslRequired (s.strategy.ping.arrays.read allNodes) result := by
  have hfollows := (hs.requests i request hrequest).follows allNodes hall
  unfold NodeRequest.Follows at hfollows
  rw [hdone] at hfollows
  cases result with
  | ok selected => exact hfollows.selectsFrom_ok
  | error e =>
    rcases hfollows with hchooses | hrejected
    · exact hchooses.selectsFrom_error
    · rw [htoken] at hrejected
      cases hrejected

/-! ## Every call ends -/

/-- The pings go on below the router. -/
theorem reachesBy_ping {ping : PingState}
    (h : Kit.ReachesBy (PingState.step sslRequired) (PingState.Helps ok i) s.strategy.ping ping) :
    Kit.ReachesBy (step sslRequired) (Helps ok) s
      { s with strategy := { s.strategy with ping } } := by
  obtain ⟨pings, hok, hrun⟩ := h
  induction pings generalizing s with
  | nil =>
    cases hrun
    exact .refl s
  | cons event pings ih =>
    obtain ⟨ping', hstep, hrun⟩ := Kit.run_cons_eq_some.mp hrun
    have hnext : s.step sslRequired (.strategy (.ping event))
        = some { s with strategy := { s.strategy with ping := ping' } } := by
      simp [RoutingState.step, StrategyState.step, hstep]
    refine .trans (.single (.ping i event (hok event (by simp))) hnext) ?_
    exact ih (fun event h => hok event (by simp [h])) hrun

theorem Sound.marshalsExactly (hs : s.Sound sslRequired) : s.MarshalsExactly sslRequired := by
  constructor
  · intro operation r draws t h
    obtain ⟨strategy, hstrategy, rfl⟩ := Option.map_eq_some_iff.mp h
    obtain ⟨ping, hping, rfl⟩ := Option.map_eq_some_iff.mp hstrategy
    simp only [PingState.step, Option.ite_none_right_eq_some, Option.some.injEq] at hping
    obtain ⟨-, rfl⟩ := hping
    obtain ⟨call, hcalls, -, hoperation, -, hgiven, -⟩ := @PingState.marshalNodes_call
      sslRequired s.strategy.ping r operation draws
    exact ⟨call, hcalls, hoperation, hgiven⟩
  · intro i call hcall
    refine ⟨fun result hdone => hs.strategy.ping.result_perm hcall hdone, fun ok => ?_⟩
    obtain ⟨ping, result, hreaches, hdone⟩ := PingState.ends ok hcall
    exact ⟨_, result, reachesBy_ping hreaches, hdone⟩

theorem Sound.leavesLists (hs : s.Sound sslRequired) : s.LeavesLists sslRequired := by
  constructor
  · intro events t h r hr
    exact hs.run_untouched (hs.strategy.owned r hr) h
  · intro event t h
    obtain ⟨strategy, hstrategy, rfl⟩ := Option.map_eq_some_iff.mp h
    obtain ⟨ping, -, rfl⟩ := Option.map_eq_some_iff.mp hstrategy
    rfl

/-- The call can be resumed. -/
theorem resume_of_advance (sslRequired : Bool) (ok : Url → Bool) {strategy : StrategyState}
    {request' : NodeRequest} (hrequest : s.requests[i]? = some request)
    (h : advance sslRequired s.strategy request = some (strategy, request')) :
    Kit.ReachesBy (step sslRequired) (Helps ok) s ({ s with strategy }.setRequest i request') ∧
      ({ s with strategy }.setRequest i request').requests[i]? = some request' := by
  refine ⟨.single (.resume i) (by simp [RoutingState.step, hrequest, h]), ?_⟩
  have hlt := (List.getElem?_eq_some_iff.mp hrequest).1
  simp [setRequest, hlt]

/-- The call has come to its end, with the list. -/
def Ends (sslRequired : Bool) (ok : Url → Bool) (i : Nat) (request : NodeRequest) (allNodes : Ref)
    (s : RoutingState) : Prop :=
  ∃ t result, Kit.ReachesBy (step sslRequired) (Helps ok) s t ∧
    t.requests[i]? = some { request with allNodes := some allNodes, phase := .done result }

theorem ends_of_selected (sslRequired : Bool) (ok : Url → Bool) {token : AuthToken} {node : RouterNode}
    (htoken : request.sdkToken = .resolved token)
    (hrequest : s.requests[i]? = some
      { request with allNodes := some allNodes, phase := .selected node }) :
    Ends sslRequired ok i request allNodes s := by
  have hadvance : advance sslRequired s.strategy
        { request with allNodes := some allNodes, phase := .selected node }
      = some (s.strategy, { request with
          allNodes := some allNodes, phase := .done (.ok ⟨node, node.id, token⟩) }) := by
    simp only [advance, htoken]
  exact ⟨_, _, resume_of_advance sslRequired ok hrequest hadvance⟩

theorem ends_of_marshalling (sslRequired : Bool) (ok : Url → Bool) {token : AuthToken} {call : Nat}
    (htoken : request.sdkToken = .resolved token)
    (hrequest : s.requests[i]? = some
      { request with allNodes := some allNodes, phase := .marshalling call })
    (hmarshals : request.Marshals s.strategy.ping nodes call) :
    Ends sslRequired ok i request allNodes s := by
  obtain ⟨phase, hcall⟩ := hmarshals
  obtain ⟨ping, finalNodes, hreaches, hdone⟩ :=
    @PingState.ends sslRequired _ _ _ ok hcall
  have hping := reachesBy_ping hreaches
  cases hselected : selected (selectNode (ping.arrays.read finalNodes)) with
  | error e =>
    obtain ⟨hresume, hnext⟩ := @resume_of_advance
      { s with strategy := { s.strategy with ping } } _ _ sslRequired ok _ _ hrequest
      (by simp only [advance, hdone, Option.bind_eq_bind, Option.bind_some, hselected]; rfl)
    exact ⟨_, _, hping.trans hresume, hnext⟩
  | ok node =>
    obtain ⟨hresume, hnext⟩ := @resume_of_advance
      { s with strategy := { s.strategy with ping } } _ _ sslRequired ok _ _ hrequest
      (by simp only [advance, hdone, Option.bind_eq_bind, Option.bind_some, hselected]; rfl)
    obtain ⟨t, result, hrest, hend⟩ := ends_of_selected sslRequired ok htoken hnext
    exact ⟨t, result, hping.trans (hresume.trans hrest), hend⟩

theorem Sound.ends {token : AuthToken} (hs : s.Sound sslRequired) (ok : Url → Bool)
    (hrequest : s.requests[i]? = some request) (hgot : s.GotNodes request allNodes)
    (htoken : request.sdkToken = .resolved token) :
    Ends sslRequired ok i request allNodes s := by
  rcases hgot with hall | ⟨get, call, hphase, hcall, hdone⟩
  · have hfollows := (hs.requests i request hrequest).follows allNodes hall
    unfold NodeRequest.Follows at hfollows
    obtain ⟨operation, bucketId, exclude, draws, sdkToken, _, phase⟩ := request
    cases hall
    cases phase with
    | readying => exact hfollows.elim
    | getting get => exact hfollows.elim
    | marshalling call => exact ends_of_marshalling sslRequired ok htoken hrequest hfollows
    | selected node => exact ends_of_selected sslRequired ok htoken hrequest
    | done result => exact ⟨s, result, .refl s, hrequest⟩
  · obtain ⟨-, -, hmarshals⟩ := run_marshalNotExcluded sslRequired s.strategy.ping request allNodes
    obtain ⟨hresume, hnext⟩ := resume_of_advance sslRequired ok hrequest
      (by simp only [advance, hphase, hcall, hdone, Option.bind_eq_bind, Option.bind_some]; rfl)
    obtain ⟨t, result, hrest, hend⟩ := ends_of_marshalling sslRequired ok htoken hnext
      hmarshals
    exact ⟨t, result, hresume.trans hrest, hend⟩

theorem Sound.selectsNodes (hs : s.Sound sslRequired) : s.SelectsNodes sslRequired := by
  intro i request allNodes token hrequest hgot htoken
  refine ⟨fun result hdone => ?_, fun ok => ?_⟩
  · rcases hgot with hall | ⟨get, call, hphase, -⟩
    · exact hs.selectsFrom hrequest hall htoken hdone
    · rw [hdone] at hphase
      cases hphase
  · obtain ⟨t, result, hreaches, hend⟩ := hs.ends ok hrequest hgot htoken
    refine ⟨t, result, hreaches, hend, ?_⟩
    obtain ⟨events, -, hrun⟩ := hreaches
    rw [← hs.run_untouched (hs.untouched_of_gotNodes hrequest hgot) hrun]
    have hselects := (hs.run hrun).selectsFrom hend rfl htoken rfl
    exact ⟨hselects.resolves, hselects.rejects⟩

/-- In every state that a router can reach. -/
theorem routes_of_run {config : RouterConfig} {now : Int}
    (h : Kit.run (step sslRequired) (new now config) events = some s) :
    s.MarshalsExactly sslRequired ∧ s.LeavesLists sslRequired ∧ s.SelectsNodes sslRequired :=
  have hs : s.Sound sslRequired := sound_new.run h
  ⟨hs.marshalsExactly, hs.leavesLists, hs.selectsNodes⟩

/-- `getNode` and a direct call of `marshalNodes` are at work on the list of a static strategy. -/
theorem routes_of_run_static :
    let node (mode : StorageNodeMode) (name : String) (h : name ≠ "") : RouterNode :=
      { mode, httpUrl := ⟨name, h⟩, grpcUrl := ⟨name, h⟩ }
    let nodes := [node .full "a" (by decide), node .cache "b" (by decide)]
    let draws : Draws := fun _ => 0
    let events : List RoutingEvent :=
      [.getNode .storePiece 1 ["b"] draws, .ready 0 (.ok ()), .resume 0,
        .strategy (.ping (.marshalNodes .readPiece 0 draws)), .strategy (.ping (.resume 1)),
        .strategy (.ping (.resume 0))]
    ∃ s, Kit.run (step false) (new 0 (.nodes nodes)) events = some s ∧
      s.strategy.ping.calls.length = 2 ∧
      (∃ request, s.requests[0]? = some request ∧ s.GotNodes request 0) ∧
      s.MarshalsExactly false ∧ s.LeavesLists false ∧ s.SelectsNodes false := by
  intro node nodes draws events
  refine ⟨_, rfl, rfl, ⟨_, rfl, .inl rfl⟩, ?_⟩
  exact @routes_of_run false _ events (.nodes nodes) 0 rfl

end RoutingState

end CereDdc
