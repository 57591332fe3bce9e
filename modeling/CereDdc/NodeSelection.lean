import CereDdc.BlockchainStrategy
import CereDdc.Kit.Promise
import CereDdc.Token

/-!
# NodeSelection — `routing/Router.ts`, `getNode`

A call of `getNode` waits for the strategy, for its list of nodes, for
`marshalNodes`, and for the SDK token. The machine has any number of such calls
at work on one strategy, together with calls of `marshalNodes` on lists of other
code.
-/

namespace CereDdc

open Kit (Heap Ref Outcome)

/-! ## State -/

/-- The `StorageNode` that `getNode` makes of a node. -/
structure SelectedNode where
  node : RouterNode
  nodeId : NodeId
  authToken : AuthToken
  deriving DecidableEq

/-- Where a call of `getNode` waits. -/
inductive RequestPhase
  /-- `strategy.isReady()` -/
  | readying
  /-- `strategy.getNodes(bucketId)`, the call with this number -/
  | getting (get : Nat)
  /-- `strategy.marshalNodes(operation, nodes)`, the call with this number -/
  | marshalling (call : Nat)
  /-- `sdkTokenPromise` -/
  | selected (node : RouterNode)
  | done (result : Except JsError SelectedNode)

/-- A call of `getNode`. -/
structure NodeRequest where
  operation : RouterOperation
  bucketId : Nat
  exclude : List NodeId
  /-- The numbers that the shuffle is going to draw. -/
  draws : Draws
  sdkToken : Outcome JsError AuthToken := .pending
  /-- What `getNodes` resolved with. -/
  allNodes : Option Ref := none
  phase : RequestPhase := .readying

structure RoutingState where
  strategy : StrategyState
  requests : List NodeRequest := []

inductive RoutingEvent
  | strategy (event : StrategyEvent)
  | getNode (operation : RouterOperation) (bucketId : Nat) (exclude : List NodeId) (draws : Draws)
  /-- The SDK token of call `i` is there, or its creation has failed. -/
  | sdkToken (i : Nat) (result : Except JsError AuthToken)
  /-- `isReady()` of the strategy settles. -/
  | ready (i : Nat) (result : Except JsError Unit)
  /-- Call `i` goes on after the promise it awaits. -/
  | resume (i : Nat)

/-- The part of `RouterConfig` that decides on the strategy. -/
inductive RouterConfig
  | nodes (nodes : List RouterNode)
  | blockchain

/-! ## Steps -/

namespace RoutingState

/-- The constructor of `Router`. -/
def new (now : Int) : RouterConfig → RoutingState
  | .nodes nodes =>
    { strategy := { ping := { now, arrays := ⟨[nodes]⟩ }, source := .static 0 } }
  | .blockchain => { strategy := { ping := { now }, source := .blockchain {} } }

def setRequest (s : RoutingState) (i : Nat) (request : NodeRequest) : RoutingState :=
  { s with requests := s.requests.set i request }

variable (sslRequired : Bool)

/-- The nodes that are not excluded are marshalled, as an array of their own. -/
def marshalNotExcluded (ping : PingState) (request : NodeRequest) (allNodes : Ref) : PingState :=
  let nodes := ping.arrays.alloc (notExcluded request.exclude (ping.arrays.read allNodes))
  { ping with arrays := nodes.1 }.marshalNodes sslRequired request.operation nodes.2 request.draws

/-- The call goes on to its next await. -/
def advance (strategy : StrategyState) (request : NodeRequest) :
    Option (StrategyState × NodeRequest) :=
  match request.phase with
  | .readying => none
  | .getting get => do
    let call ← strategy.gets[get]?
    match call.phase with
    | .done (.ok allNodes) =>
      return ({ strategy with
          ping := marshalNotExcluded sslRequired strategy.ping request allNodes },
        { request with
          allNodes := some allNodes, phase := .marshalling strategy.ping.calls.length })
    | .done (.error e) => return (strategy, { request with phase := .done (.error e) })
    | _ => none
  | .marshalling call => do
    let call ← strategy.ping.calls[call]?
    match call.phase with
    | .done finalNodes =>
      match CereDdc.selected (selectNode (strategy.ping.arrays.read finalNodes)) with
      | .ok node => return (strategy, { request with phase := .selected node })
      | .error e => return (strategy, { request with phase := .done (.error e) })
    | _ => none
  | .selected node =>
    match request.sdkToken with
    | .resolved authToken =>
      some (strategy, { request with phase := .done (.ok ⟨node, node.id, authToken⟩) })
    | .rejected e => some (strategy, { request with phase := .done (.error e) })
    | .pending => none
  | .done _ => none

/-- `isReady()` of the strategy has settled for call `i`. -/
def ready (s : RoutingState) (i : Nat) (request : NodeRequest) :
    Except JsError Unit → Option RoutingState
  | .ok () => some ({ s with strategy := s.strategy.getNodes request.bucketId }.setRequest i
      { request with phase := .getting s.strategy.gets.length })
  | .error e =>
    match s.strategy.source with
    | .static _ => none
    | .blockchain _ => some (s.setRequest i { request with phase := .done (.error e) })

def step (s : RoutingState) : RoutingEvent → Option RoutingState
  | .strategy event => (s.strategy.step sslRequired event).map ({ s with strategy := · })
  | .getNode operation bucketId exclude draws =>
    some { s with requests := s.requests ++ [{ operation, bucketId, exclude, draws }] }
  | .sdkToken i result => do
    let request ← s.requests[i]?
    match request.sdkToken with
    | .pending => return s.setRequest i { request with sdkToken := Outcome.settle .pending result }
    | _ => none
  | .ready i result => do
    let request ← s.requests[i]?
    match request.phase with
    | .readying => s.ready i request result
    | _ => none
  | .resume i => do
    let request ← s.requests[i]?
    let (strategy, request) ← advance sslRequired s.strategy request
    return { s with strategy }.setRequest i request

end RoutingState

/-! ## One call -/

section

variable {sslRequired : Bool} {ping ping' : PingState} {strategy strategy' : StrategyState}
  {request request' : NodeRequest} {allNodes : Ref}

/-- The choice that the router makes from the nodes of an array, for some state of the pings. -/
def NodeRequest.Chooses (sslRequired : Bool) (request : NodeRequest) (nodes : List RouterNode)
    (result : Except JsError RouterNode) : Prop :=
  ∃ latency, Router.getNode sslRequired request.operation request.draws latency nodes
    request.exclude = result

/-- A call of `marshalNodes` is at work for the request. -/
def NodeRequest.Marshals (request : NodeRequest) (ping : PingState) (nodes : List RouterNode)
    (i : Nat) : Prop :=
  ∃ phase, ping.calls[i]? = some {
    operation := request.operation, draws := request.draws
    given := notExcluded request.exclude nodes, phase }

/-- How far the call has come with the list that `getNodes` resolved with. -/
def NodeRequest.Follows (sslRequired : Bool) (request : NodeRequest) (ping : PingState)
    (nodes : List RouterNode) : Prop :=
  match request.phase with
  | .readying => False
  | .getting _ => False
  | .marshalling i => request.Marshals ping nodes i
  | .selected node => request.Chooses sslRequired nodes (.ok node)
  | .done (.ok selected) => request.Chooses sslRequired nodes (.ok selected.node)
  | .done (.error e) =>
    request.Chooses sslRequired nodes (.error e) ∨ request.sdkToken = .rejected e

/-- How far the call has come before `getNodes` has resolved. -/
def NodeRequest.Waits (request : NodeRequest) : Prop :=
  match request.phase with
  | .readying => True
  | .getting _ => True
  | .done (.error _) => True
  | _ => False

structure NodeRequest.Sound (sslRequired : Bool) (ping : PingState) (request : NodeRequest) :
    Prop where
  waits : request.allNodes = none → request.Waits
  untouched : ∀ allNodes, request.allNodes = some allNodes → ping.Untouched allNodes
  follows : ∀ allNodes, request.allNodes = some allNodes →
    request.Follows sslRequired ping (ping.arrays.read allNodes)

/-- A call of `getNode` does not care what happens to the pings. -/
theorem NodeRequest.Sound.run {events : List PingEvent}
    (h : request.Sound sslRequired ping)
    (hrun : Kit.run (PingState.step sslRequired) ping events = some ping') :
    request.Sound sslRequired ping' where
  waits := h.waits
  untouched := fun allNodes hall => ((h.untouched allNodes hall).run hrun).1
  follows := by
    intro allNodes hall
    rw [((h.untouched allNodes hall).run hrun).2]
    have hfollows := h.follows allNodes hall
    unfold NodeRequest.Follows at hfollows ⊢
    split at hfollows
    · exact hfollows
    · exact hfollows
    · obtain ⟨phase, hcall⟩ := hfollows
      obtain ⟨phase', hcall'⟩ := PingState.run_call hcall hrun
      exact ⟨phase', hcall'⟩
    · exact hfollows
    · exact hfollows
    · exact hfollows

/-- Marshalling the nodes is two events of the pings: the array is made, and the call begins. -/
theorem run_marshalNotExcluded (sslRequired : Bool) (ping : PingState) (request : NodeRequest)
    (allNodes : Ref) :
    ∃ events, Kit.run (PingState.step sslRequired) ping events
        = some (RoutingState.marshalNotExcluded sslRequired ping request allNodes) ∧
      request.Marshals (RoutingState.marshalNotExcluded sslRequired ping request allNodes)
        (ping.arrays.read allNodes) ping.calls.length := by
  let nodes := notExcluded request.exclude (ping.arrays.read allNodes)
  let made : PingState := { ping with arrays := (ping.arrays.alloc nodes).1 }
  obtain ⟨call, hcalls, -, hoperation, hdraws, hgiven, -, -, -⟩ :=
    @PingState.marshalNodes_call sslRequired made ping.arrays.size request.operation request.draws
  refine ⟨[.array nodes, .marshalNodes request.operation ping.arrays.size request.draws], ?_, ?_⟩
  · have hlt : ping.arrays.size < made.arrays.size := by simp [made]
    simp only [Kit.run_cons, Kit.run_nil, PingState.step, Option.bind_some]
    rw [if_pos hlt]
    rfl
  · refine ⟨call.phase, ?_⟩
    change (made.marshalNodes sslRequired request.operation ping.arrays.size
      request.draws).calls[ping.calls.length]? = _
    rw [hcalls]
    have hread : made.arrays.read ping.arrays.size = nodes := Heap.read_alloc_self
    rw [hread] at hgiven
    obtain ⟨operation, draws, given, phase⟩ := call
    change operation = _ at hoperation
    change draws = _ at hdraws
    change given = nodes at hgiven
    rw [hoperation, hdraws, hgiven]
    exact List.getElem?_concat_length

theorem StrategyState.Sound.run {events : List PingEvent} (hs : strategy.Sound sslRequired)
    (hrun : Kit.run (PingState.step sslRequired) strategy.ping events = some ping') :
    ({ strategy with ping := ping' } : StrategyState).Sound sslRequired :=
  Kit.run_invariant (P := fun ping => ({ strategy with ping } : StrategyState).Sound sslRequired)
    (fun _ _ _ hs hstep => hs.ping_step hstep) hs hrun

/-- Whether a call has the list of `getNodes`, by where it waits. -/
theorem NodeRequest.Sound.allNodes_eq_none (h : request.Sound sslRequired ping) {get : Nat}
    (hphase : request.phase = .getting get) : request.allNodes = none := by
  cases hall : request.allNodes with
  | none => rfl
  | some allNodes =>
    have hfollows := h.follows allNodes hall
    unfold NodeRequest.Follows at hfollows
    rw [hphase] at hfollows
    exact hfollows.elim

/-- The call goes on with the same list. -/
theorem NodeRequest.Sound.follow (h : request.Sound sslRequired ping)
    (hall : request'.allNodes = request.allNodes) (hwaits : request.Waits → request'.Waits)
    (hfollows : ∀ nodes, request.Follows sslRequired ping nodes →
      request'.Follows sslRequired ping nodes) : request'.Sound sslRequired ping where
  waits := by
    rw [hall]
    exact fun hnone => hwaits (h.waits hnone)
  untouched := by
    rw [hall]
    exact h.untouched
  follows := by
    rw [hall]
    exact fun allNodes hsome => hfollows _ (h.follows allNodes hsome)

/-- The SDK token comes in while the call waits for something, or for nothing any more. -/
theorem NodeRequest.Sound.settle {sdkToken : Outcome JsError AuthToken}
    (h : request.Sound sslRequired ping) (hpending : request.sdkToken = .pending) :
    { request with sdkToken }.Sound sslRequired ping := by
  refine h.follow rfl id fun nodes hfollows => ?_
  obtain ⟨operation, bucketId, exclude, draws, _, allNodes, phase⟩ := request
  cases phase with
  | readying => exact hfollows
  | getting get => exact hfollows
  | marshalling call => exact hfollows
  | selected node => exact hfollows
  | done result =>
    cases result with
    | ok selected => exact hfollows
    | error e =>
      rcases hfollows with hchooses | hrejected
      · exact .inl hchooses
      · have hne : Outcome.pending = .rejected e := hpending.symm.trans hrejected
        cases hne

/-- The result of `marshalNodes` makes the choice of the router. -/
theorem chooses_of_marshals {call : MarshalCall} {i : Nat} {nodes : List RouterNode}
    {finalNodes : Ref} (hs : ping.Sound sslRequired) (hcall : ping.calls[i]? = some call)
    (hdone : call.phase = .done finalNodes) (h : request.Marshals ping nodes i) :
    request.Chooses sslRequired nodes
      (CereDdc.selected (selectNode (ping.arrays.read finalNodes))) := by
  obtain ⟨phase, hmarshals⟩ := h
  rw [hcall] at hmarshals
  cases hmarshals
  cases hdone
  obtain ⟨latency, hread⟩ := (hs.calls i _ hcall).holds
  exact ⟨latency, by rw [Router.getNode, ← hread]; rfl⟩

/-- A step leaves the strategy to its pings and the call sound. -/
structure SoundStep (sslRequired : Bool) (strategy strategy' : StrategyState)
    (request' : NodeRequest) : Prop where
  pings : ∃ events ping, Kit.run (PingState.step sslRequired) strategy.ping events = some ping ∧
    strategy' = { strategy with ping }
  request : request'.Sound sslRequired strategy'.ping

/-- A step that leaves the pings alone. -/
theorem SoundStep.of_request (h : request'.Sound sslRequired strategy.ping) :
    SoundStep sslRequired strategy strategy request' := ⟨⟨[], strategy.ping, rfl, rfl⟩, h⟩

/-- The list has come in: the nodes that are not excluded are marshalled. -/
theorem advance_getting {get : Nat} (hs : strategy.Sound sslRequired)
    (hrequest : request.Sound sslRequired strategy.ping) (hphase : request.phase = .getting get)
    (h : RoutingState.advance sslRequired strategy request = some (strategy', request')) :
    SoundStep sslRequired strategy strategy' request' := by
  simp only [RoutingState.advance, hphase, Option.bind_eq_bind, Option.bind_eq_some_iff] at h
  obtain ⟨call, hcall, h⟩ := h
  have hnone := hrequest.allNodes_eq_none hphase
  split at h
  · next allNodes hdone =>
    cases h
    obtain ⟨events, hrun, hmarshals⟩ := run_marshalNotExcluded sslRequired
      strategy.ping request allNodes
    have huntouched := (hs.gets get call allNodes hcall (by rw [hdone]; rfl)).run hrun
    refine ⟨⟨events, _, hrun, rfl⟩, nofun, ?_, ?_⟩
    · intro r hr
      cases hr
      exact huntouched.1
    · intro r hr
      cases hr
      rw [huntouched.2]
      exact hmarshals
  · cases h
    refine .of_request (hrequest.follow rfl (fun _ => trivial) fun nodes hfollows => ?_)
    unfold NodeRequest.Follows at hfollows
    rw [hphase] at hfollows
    exact hfollows.elim
  · cases h

/-- The nodes are marshalled: the first of them is selected. -/
theorem advance_marshalling {i : Nat} (hs : strategy.Sound sslRequired)
    (hrequest : request.Sound sslRequired strategy.ping) (hphase : request.phase = .marshalling i)
    (h : RoutingState.advance sslRequired strategy request = some (strategy', request')) :
    SoundStep sslRequired strategy strategy' request' := by
  simp only [RoutingState.advance, hphase, Option.bind_eq_bind, Option.bind_eq_some_iff] at h
  obtain ⟨call, hcall, h⟩ := h
  have hwaits : ¬ request.Waits := by
    unfold NodeRequest.Waits
    simp [hphase]
  split at h
  · next finalNodes hdone =>
    have hchooses : ∀ nodes, request.Follows sslRequired strategy.ping nodes →
        request.Chooses sslRequired nodes
          (CereDdc.selected (selectNode (strategy.ping.arrays.read finalNodes))) := by
      intro nodes hfollows
      unfold NodeRequest.Follows at hfollows
      rw [hphase] at hfollows
      exact chooses_of_marshals hs.ping hcall hdone hfollows
    split at h
    · next node hnode =>
      cases h
      rw [hnode] at hchooses
      exact .of_request (hrequest.follow rfl (fun hw => absurd hw hwaits) hchooses)
    · next e hnone =>
      cases h
      rw [hnone] at hchooses
      exact .of_request (hrequest.follow rfl (fun hw => absurd hw hwaits) fun nodes hfollows =>
        .inl (hchooses nodes hfollows))
  · cases h

/-- The SDK token has come in for the node that is selected. -/
theorem advance_selected {node : RouterNode} (hrequest : request.Sound sslRequired strategy.ping)
    (hphase : request.phase = .selected node)
    (h : RoutingState.advance sslRequired strategy request = some (strategy', request')) :
    SoundStep sslRequired strategy strategy' request' := by
  simp only [RoutingState.advance, hphase] at h
  have hwaits : ¬ request.Waits := by
    unfold NodeRequest.Waits
    simp [hphase]
  split at h
  · cases h
    refine .of_request (hrequest.follow rfl (fun hw => absurd hw hwaits) fun nodes hfollows => ?_)
    unfold NodeRequest.Follows at hfollows
    rw [hphase] at hfollows
    exact hfollows
  · next e htoken =>
    cases h
    exact .of_request (hrequest.follow rfl (fun hw => absurd hw hwaits) fun nodes _ => .inr htoken)
  · cases h

/-- What a call of `getNode` does on its way from one await to the next. -/
theorem advance_sound (hs : strategy.Sound sslRequired)
    (hrequest : request.Sound sslRequired strategy.ping)
    (h : RoutingState.advance sslRequired strategy request = some (strategy', request')) :
    SoundStep sslRequired strategy strategy' request' := by
  cases hphase : request.phase with
  | readying => simp [RoutingState.advance, hphase] at h
  | getting get => exact advance_getting hs hrequest hphase h
  | marshalling i => exact advance_marshalling hs hrequest hphase h
  | selected node => exact advance_selected hrequest hphase h
  | done result => simp [RoutingState.advance, hphase] at h

end

/-! ## Every reachable state -/

namespace RoutingState

variable {sslRequired : Bool} {s t : RoutingState} {event : RoutingEvent}
  {events : List RoutingEvent} {request : NodeRequest} {i : Nat}

structure Sound (sslRequired : Bool) (s : RoutingState) : Prop where
  strategy : s.strategy.Sound sslRequired
  requests : ∀ (i : Nat) request, s.requests[i]? = some request →
    request.Sound sslRequired s.strategy.ping

theorem sound_new {now : Int} {config : RouterConfig} : (new now config).Sound sslRequired := by
  have hgets : (new now config).strategy.gets = [] := by cases config <;> rfl
  have hrequests : (new now config).requests = [] := by cases config <;> rfl
  have hping : ∃ arrays, (new now config).strategy.ping = { now, arrays } := by
    cases config <;> exact ⟨_, rfl⟩
  obtain ⟨arrays, hping⟩ := hping
  refine ⟨⟨?_, ?_, by simp [hgets]⟩, by simp [hrequests]⟩
  · rw [hping]
    exact PingState.sound_initial
  · intro r hr
    cases config with
    | nodes nodes =>
      cases hr
      exact PingState.untouched_initial Nat.zero_lt_one
    | blockchain =>
      obtain ⟨clusterId, hr⟩ := hr
      cases hr

/-- What an event can do: the pings go on, and the calls that it does not leave alone are sound. -/
structure MovesOn (sslRequired : Bool) (s t : RoutingState) : Prop where
  pings : ∃ events, Kit.run (PingState.step sslRequired) s.strategy.ping events
    = some t.strategy.ping
  strategy : t.strategy.Sound sslRequired
  requests : ∀ (i : Nat) request, t.requests[i]? = some request →
    s.requests[i]? = some request ∨ request.Sound sslRequired t.strategy.ping

/-- Of the calls, one is set. -/
theorem MovesOn.set {strategy : StrategyState} (hstrategy : strategy.Sound sslRequired)
    (hpings : ∃ events, Kit.run (PingState.step sslRequired) s.strategy.ping events
      = some strategy.ping)
    (hrequest : request.Sound sslRequired strategy.ping) :
    MovesOn sslRequired s ({ s with strategy }.setRequest i request) where
  pings := hpings
  strategy := hstrategy
  requests := by
    intro j request' hj
    change (s.requests.set i request)[j]? = some request' at hj
    rw [List.getElem?_set] at hj
    split at hj
    · split at hj
      · cases hj
        exact .inr hrequest
      · cases hj
    · exact .inl hj

theorem Sound.ready {result : Except JsError Unit} (hs : s.Sound sslRequired)
    (hrequest : s.requests[i]? = some request) (hphase : request.phase = .readying)
    (h : s.ready i request result = some t) : MovesOn sslRequired s t := by
  have hsound := hs.requests i request hrequest
  have hnever : ∀ nodes, ¬ request.Follows sslRequired s.strategy.ping nodes := by
    intro nodes
    unfold NodeRequest.Follows
    simp [hphase]
  cases result with
  | ok ready =>
    cases h
    have hping : (s.strategy.getNodes request.bucketId).ping = s.strategy.ping := by
      unfold StrategyState.getNodes
      split <;> rfl
    refine .set hs.strategy.getNodes ⟨[], by rw [hping]; rfl⟩ ?_
    rw [hping]
    exact hsound.follow rfl (fun _ => trivial) fun nodes h => absurd h (hnever nodes)
  | error e =>
    simp only [RoutingState.ready] at h
    split at h
    · cases h
    · cases h
      exact .set hs.strategy ⟨[], rfl⟩
        (hsound.follow rfl (fun _ => trivial) fun nodes h => absurd h (hnever nodes))

theorem Sound.movesOn (hs : s.Sound sslRequired) (h : s.step sslRequired event = some t) :
    MovesOn sslRequired s t := by
  cases event with
  | strategy event =>
    obtain ⟨strategy, hstrategy, rfl⟩ := Option.map_eq_some_iff.mp h
    refine ⟨?_, hs.strategy.step hstrategy, fun j request hj => .inl hj⟩
    rcases StrategyState.step_ping hstrategy with hping | ⟨event, hping⟩
    · exact ⟨[], congrArg some hping.symm⟩
    · exact ⟨[event], by simp [Kit.run_cons, hping]⟩
  | getNode operation bucketId exclude draws =>
    cases h
    refine ⟨⟨[], rfl⟩, hs.strategy, fun j request hj => ?_⟩
    rw [List.getElem?_append] at hj
    split at hj
    · exact .inl hj
    · rw [List.getElem?_singleton] at hj
      split at hj
      · cases hj
        exact .inr ⟨fun _ => trivial, nofun, nofun⟩
      · cases hj
  | sdkToken i result =>
    simp only [RoutingState.step, Option.bind_eq_bind, Option.bind_eq_some_iff] at h
    obtain ⟨request, hrequest, h⟩ := h
    split at h
    · next hpending =>
      cases h
      exact .set hs.strategy ⟨[], rfl⟩ ((hs.requests i request hrequest).settle hpending)
    · cases h
  | ready i result =>
    simp only [RoutingState.step, Option.bind_eq_bind, Option.bind_eq_some_iff] at h
    obtain ⟨request, hrequest, h⟩ := h
    split at h
    · next hphase => exact hs.ready hrequest hphase h
    · cases h
  | resume i =>
    simp only [RoutingState.step, Option.bind_eq_bind, Option.bind_eq_some_iff, Option.pure_def,
      Option.some.injEq] at h
    obtain ⟨request, hrequest, ⟨strategy, request'⟩, hadvance, rfl⟩ := h
    obtain ⟨⟨pings, ping, hrun, rfl⟩, hsound⟩ :=
      advance_sound hs.strategy (hs.requests i request hrequest) hadvance
    exact .set (hs.strategy.run hrun) ⟨pings, hrun⟩ hsound

theorem Sound.step (hs : s.Sound sslRequired) (h : s.step sslRequired event = some t) :
    t.Sound sslRequired := by
  have hmoves := hs.movesOn h
  obtain ⟨pings, hrun⟩ := hmoves.pings
  refine ⟨hmoves.strategy, fun i request hi => ?_⟩
  rcases hmoves.requests i request hi with hold | hsound
  · exact (hs.requests i request hold).run hrun
  · exact hsound

theorem Sound.run (hs : s.Sound sslRequired)
    (h : Kit.run (RoutingState.step sslRequired) s events = some t) : t.Sound sslRequired :=
  Kit.run_invariant (fun _ _ _ hs h => hs.step h) hs h

end RoutingState

end CereDdc
