import CereDdc.BlockchainStrategy

/-!
# Node recovery — `routing/BlockchainStrategy.ts`

The strategy together with the blockchain it asks. The chain changes at any time, and
what it answers is what it has when it answers, which may be outdated when the call
goes on. A bucket stays in the cluster it was created in, and its number is not given
again.
-/

namespace CereDdc

open Kit (Heap Ref)

/-! ## The chain and the strategy -/

/-- What `getNodes` reads of the chain. -/
structure ChainData where
  hasBucket : Nat → Bool
  nodes : List BCStorageNode

/-- `ddcCustomers.getBucket(bucketId)`, with the cluster of each bucket. -/
def ChainData.getBucket (clusterOf : Nat → ClusterId) (chain : ChainData) (bucketId : Nat) :
    Option Bucket :=
  if chain.hasBucket bucketId then some ⟨clusterOf bucketId⟩ else none

structure ChainedState where
  strategy : StrategyState
  chain : ChainData
  /-- The chain as it was when it answered the call. -/
  answers : Nat → Option ChainData := fun _ => none

inductive ChainedEvent
  | change (chain : ChainData)
  | getNodes (bucketId : Nat)
  /-- The chain answers the request of call `i`. -/
  | answer (i : Nat)
  /-- Call `i` goes on with the answer. -/
  | deliver (i : Nat)
  /-- The request of call `i` fails. -/
  | fail (i : Nat) (e : JsError)
  /-- Call `i` goes on after another promise. -/
  | resume (i : Nat)
  | ping (event : PingEvent)

/-- Whether the call waits for the chain. -/
def GetNodesPhase.asks : GetNodesPhase → Bool
  | .bucket => true
  | .listing _ => true
  | _ => false

/-- What the answer of the chain is to the call. -/
def GetNodesCall.reply (clusterOf : Nat → ClusterId) (call : GetNodesCall) (i : Nat)
    (answer : Except JsError ChainData) : StrategyEvent :=
  match call.phase with
  | .bucket => .bucket i (answer.map (·.getBucket clusterOf call.bucketId))
  | _ => .listed i (answer.map (·.nodes))

/-- The list that the call has, or has returned, meets `P`; without one it may still come to it. -/
def GetNodesPhase.Leads (P : List RouterNode → Prop) (arrays : Heap RouterNode) :
    GetNodesPhase → Prop
  | .nodes _ found => P (arrays.read found)
  | .done (.ok found) => P (arrays.read found)
  | .done (.error _) => False
  | _ => True

theorem GetNodesPhase.leads_congr {P : List RouterNode → Prop} {arrays arrays' : Heap RouterNode}
    {phase : GetNodesPhase} (h : ∀ r, phase.Holds r → arrays'.read r = arrays.read r) :
    phase.Leads P arrays' ↔ phase.Leads P arrays := by
  cases phase with
  | nodes _ nodes =>
    show P _ ↔ P _
    rw [h nodes rfl]
  | done result =>
    cases result with
    | ok nodes =>
      show P _ ↔ P _
      rw [h nodes rfl]
    | error e => exact Iff.rfl
  | bucket => exact Iff.rfl
  | cluster _ => exact Iff.rfl
  | listing _ => exact Iff.rfl

/-- The bucket is on chain, and the nodes of its cluster meet `P`. -/
def ChainData.Serves (P : List RouterNode → Prop) (clusterOf : Nat → ClusterId) (bucketId : Nat)
    (chain : ChainData) : Prop :=
  chain.hasBucket bucketId = true ∧ P (clusterNodesOf (clusterOf bucketId) chain.nodes)

/-- The cluster that the call has found is this one. -/
def GetNodesPhase.InCluster (clusterId : ClusterId) : GetNodesPhase → Prop
  | .cluster found => found = clusterId
  | .listing found => found = clusterId
  | .nodes found _ => found = clusterId
  | _ => True

/-- The call that goes on with the event. -/
def StrategyEvent.goesOn : StrategyEvent → Option Nat
  | .bucket i _ => some i
  | .listed i _ => some i
  | .resume i => some i
  | _ => none

namespace ChainedState

/-- The constructor of `BlockchainStrategy`. -/
def new (now : Int) (chain : ChainData) : ChainedState where
  strategy := { ping := { now }, source := .blockchain {} }
  chain := chain

variable (sslRequired : Bool) (clusterOf : Nat → ClusterId)

/-- The request of call `i` has come to its end. -/
def settle (s : ChainedState) (i : Nat) (answer : Except JsError ChainData) :
    Option ChainedState := do
  let call ← s.strategy.gets[i]?
  let strategy ← s.strategy.step sslRequired (call.reply clusterOf i answer)
  return { s with strategy, answers := Function.update s.answers i none }

def step (s : ChainedState) : ChainedEvent → Option ChainedState
  | .change chain => some { s with chain }
  | .getNodes bucketId =>
    (s.strategy.step sslRequired (.getNodes bucketId)).map ({ s with strategy := · })
  | .answer i => do
    let call ← s.strategy.gets[i]?
    if call.phase.asks = true ∧ (s.answers i).isNone then
      return { s with answers := Function.update s.answers i (some s.chain) }
    else none
  | .deliver i => (s.answers i).bind fun chain => s.settle sslRequired clusterOf i (.ok chain)
  | .fail i e => s.settle sslRequired clusterOf i (.error e)
  | .resume i => (s.strategy.step sslRequired (.resume i)).map ({ s with strategy := · })
  | .ping event => (s.strategy.step sslRequired (.ping event)).map ({ s with strategy := · })

end ChainedState

/-! ## What a step does to one call -/

namespace StrategyState

variable {sslRequired : Bool} {s t : StrategyState} {event : StrategyEvent} {i j : Nat}
  {phase : GetNodesPhase} {call : GetNodesCall} {caches : Caches} {r : Ref}

theorem setGet_self (h : s.gets[i]? = some call) :
    (s.setGet i phase).gets[i]? = some { call with phase } := by
  simp [setGet, h]

theorem setGet_of_ne (hne : i ≠ j) : (s.setGet i phase).gets[j]? = s.gets[j]? := by
  simp [setGet, hne]

theorem addGet_of_some (h : s.gets[j]? = some call) {new : GetNodesCall} :
    (s.addGet new).gets[j]? = some call :=
  List.getElem?_append_left (List.getElem?_eq_some_iff.mp h).1 ▸ h

/-- Where `getBucket` leaves the call. -/
def afterBucket (bucketId : Nat) : Except JsError (Option Bucket) → GetNodesPhase
  | .ok (some bucket) => .cluster bucket.clusterId
  | .ok none => .done (.error (bucketNotFound bucketId))
  | .error e => .done (.error e)

theorem gotBucket_gets {bucketId : Nat} {result : Except JsError (Option Bucket)} :
    (s.gotBucket caches i bucketId result).gets
      = (s.setGet i (afterBucket bucketId result)).gets := by
  cases result with
  | error e => rfl
  | ok bucket => cases bucket <;> rfl

/-- Where the emptiness check leaves the call. -/
def checked (s : StrategyState) (clusterId : ClusterId) (nodes : Ref) : GetNodesPhase :=
  if (s.ping.arrays.read nodes).isEmpty then .done (.error (noClusterNodes clusterId))
  else .done (.ok nodes)

/-- What an event does to call `j`. -/
inductive CallStep (s : StrategyState) (caches : Caches) (j : Nat) (call : GetNodesCall)
    (t : StrategyState) : StrategyEvent → GetNodesPhase → Prop
  | other {event : StrategyEvent} (h : event ≠ .resume j) :
    CallStep s caches j call t event call.phase
  | bucket {result : Except JsError (Option Bucket)} (h : call.phase = .bucket) :
    CallStep s caches j call t (.bucket j result) (afterBucket call.bucketId result)
  | lookup {clusterId : ClusterId} (h : call.phase = .cluster clusterId) :
    CallStep s caches j call t (.resume j) (caches.getClusterNodes clusterId)
  | listed {clusterId : ClusterId} {allNodes : List BCStorageNode} {nodes : Ref}
    (h : call.phase = .listing clusterId)
    (hread : t.ping.arrays.read nodes = clusterNodesOf clusterId allNodes) :
    CallStep s caches j call t (.listed j (.ok allNodes)) (.nodes clusterId nodes)
  | listedError {clusterId : ClusterId} {e : JsError} (h : call.phase = .listing clusterId) :
    CallStep s caches j call t (.listed j (.error e)) (.done (.error e))
  | check {clusterId : ClusterId} {nodes : Ref} (h : call.phase = .nodes clusterId nodes) :
    CallStep s caches j call t (.resume j) (s.checked clusterId nodes)

/-- An event of another call leaves call `j` where it is. -/
theorem step_get_of_ne (h : s.step sslRequired event = some t)
    (hsource : s.source = .blockchain caches) (hcall : s.gets[j]? = some call)
    (hne : event.goesOn ≠ some j) : t.gets[j]? = some call := by
  cases event with
  | ping event =>
    obtain ⟨ping, -, rfl⟩ := Option.map_eq_some_iff.mp h
    exact hcall
  | getNodes bucketId =>
    cases h
    simp only [StrategyState.getNodes, hsource]
    exact addGet_of_some hcall
  | bucket i result =>
    have hij : i ≠ j := fun heq => hne (congrArg some heq)
    simp only [StrategyState.step] at h
    split at h
    · cases h
      rw [gotBucket_gets, setGet_of_ne hij]
      exact hcall
    · cases h
  | listed i result =>
    have hij : i ≠ j := fun heq => hne (congrArg some heq)
    simp only [StrategyState.step] at h
    split at h
    · cases h
      unfold StrategyState.gotNodes
      split <;> rw [setGet_of_ne hij] <;> exact hcall
    · cases h
  | resume i =>
    have hij : i ≠ j := fun heq => hne (congrArg some heq)
    simp only [StrategyState.step] at h
    split at h
    · cases h
      rw [setGet_of_ne hij]
      exact hcall
    · split at h <;> cases h <;> rw [setGet_of_ne hij] <;> exact hcall
    · cases h

theorem step_get (h : s.step sslRequired event = some t) (hsource : s.source = .blockchain caches)
    (hcall : s.gets[j]? = some call) :
    ∃ phase, t.gets[j]? = some { call with phase } ∧ CallStep s caches j call t event phase := by
  by_cases hgoesOn : event.goesOn = some j
  · cases event with
    | ping event => cases hgoesOn
    | getNodes bucketId => cases hgoesOn
    | bucket i result =>
      cases hgoesOn
      simp only [StrategyState.step] at h
      split at h
      · next caches' bucketId hsource' hget =>
        cases h
        rw [hcall] at hget
        cases hget
        refine ⟨afterBucket bucketId result, ?_, .bucket rfl⟩
        rw [gotBucket_gets]
        exact setGet_self hcall
      · cases h
    | listed i result =>
      cases hgoesOn
      simp only [StrategyState.step] at h
      split at h
      · next caches' _ clusterId hsource' hget =>
        cases h
        rw [hcall] at hget
        cases hget
        cases result with
        | error e => exact ⟨_, setGet_self hcall, .listedError rfl⟩
        | ok allNodes => exact ⟨_, setGet_self hcall, .listed rfl Kit.Heap.read_alloc_self⟩
      · cases h
    | resume i =>
      cases hgoesOn
      simp only [StrategyState.step, hsource, hcall] at h
      split at h
      · next clusterId hcaches hget =>
        cases hcaches
        cases hget
        cases h
        exact ⟨_, setGet_self hcall, .lookup rfl⟩
      · next clusterId nodes hcaches hget =>
        cases hcaches
        cases hget
        refine ⟨s.checked clusterId nodes, ?_, .check rfl⟩
        unfold checked
        split at h <;> cases h
        · next hempty =>
          rw [if_pos hempty]
          exact setGet_self hcall
        · next hempty =>
          rw [if_neg hempty]
          exact setGet_self hcall
      · cases h
  · refine ⟨call.phase, step_get_of_ne h hsource hcall hgoesOn, .other ?_⟩
    rintro rfl
    exact hgoesOn rfl

/-- A list that no call of `marshalNodes` touches is the same after an event. -/
theorem read_step (h : s.step sslRequired event = some t) (hr : s.ping.Untouched r) :
    t.ping.arrays.read r = s.ping.arrays.read r := by
  rcases step_ping h with heq | ⟨event, hstep⟩
  · rw [heq]
  · exact (hr.step hstep).2

theorem step_length (h : s.step sslRequired event = some t)
    (hevent : ∀ bucketId, event ≠ .getNodes bucketId) : t.gets.length = s.gets.length := by
  cases event with
  | ping event =>
    obtain ⟨ping, -, rfl⟩ := Option.map_eq_some_iff.mp h
    rfl
  | getNodes bucketId => exact absurd rfl (hevent bucketId)
  | bucket i result =>
    simp only [StrategyState.step] at h
    split at h
    · cases h
      rw [gotBucket_gets]
      exact List.length_modify _ _ _
    · cases h
  | listed i result =>
    simp only [StrategyState.step] at h
    split at h
    · cases h
      unfold StrategyState.gotNodes
      split <;> exact List.length_modify _ _ _
    · cases h
  | resume i =>
    simp only [StrategyState.step] at h
    split at h
    · cases h
      exact List.length_modify _ _ _
    · split at h <;> cases h <;> exact List.length_modify _ _ _
    · cases h

theorem getNodes_gets {bucketId : Nat} (hsource : s.source = .blockchain caches) :
    (s.getNodes bucketId).gets = s.gets ++ [{ bucketId, phase := caches.getBucket bucketId }] := by
  simp only [StrategyState.getNodes, hsource]
  rfl

/-! ### Buckets and clusters -/

/-- The calls have the clusters of their buckets, and so has the cache. -/
structure Placed (clusterOf : Nat → ClusterId) (s : StrategyState) : Prop where
  caches : ∃ caches, s.source = .blockchain caches ∧
    ∀ bucketId bucket, caches.bucketCache bucketId = some bucket →
      bucket.clusterId = clusterOf bucketId
  gets : ∀ (j : Nat) call, s.gets[j]? = some call →
    call.phase.InCluster (clusterOf call.bucketId)

variable {clusterOf : Nat → ClusterId}

/-- The chain tells the cluster of the bucket as it is. -/
def Truthful (clusterOf : Nat → ClusterId) (s : StrategyState) (event : StrategyEvent) : Prop :=
  ∀ i call bucket, event = .bucket i (.ok (some bucket)) → s.gets[i]? = some call →
    bucket.clusterId = clusterOf call.bucketId

theorem Placed.source_step (hs : s.Placed clusterOf) (h : s.step sslRequired event = some t)
    (hevent : s.Truthful clusterOf event) :
    ∃ caches, t.source = .blockchain caches ∧
      ∀ bucketId bucket, caches.bucketCache bucketId = some bucket →
        bucket.clusterId = clusterOf bucketId := by
  obtain ⟨caches, hsource, hcaches⟩ := hs.caches
  cases event with
  | ping event =>
    obtain ⟨ping, -, rfl⟩ := Option.map_eq_some_iff.mp h
    exact hs.caches
  | getNodes bucketId =>
    cases h
    simp only [StrategyState.getNodes, hsource]
    exact ⟨caches, hsource, hcaches⟩
  | bucket i result =>
    simp only [StrategyState.step, hsource] at h
    split at h
    · next caches' bucketId heq hget =>
      cases heq
      cases h
      cases result with
      | error e => exact ⟨caches, hsource, hcaches⟩
      | ok bucket =>
        cases bucket with
        | none => exact ⟨caches, hsource, hcaches⟩
        | some bucket =>
          refine ⟨caches.setBucket bucketId bucket, rfl, ?_⟩
          intro bucketId' bucket' hcached
          by_cases hid : bucketId' = bucketId
          · subst hid
            simp only [Caches.setBucket, Function.update_self, Option.some.injEq] at hcached
            subst hcached
            exact hevent i _ bucket rfl hget
          · simp only [Caches.setBucket, Function.update_of_ne hid] at hcached
            exact hcaches bucketId' bucket' hcached
    · cases h
  | listed i result =>
    simp only [StrategyState.step, hsource] at h
    split at h
    · next caches' _ clusterId heq hget =>
      cases heq
      cases h
      cases result with
      | error e => exact ⟨caches, hsource, hcaches⟩
      | ok allNodes => exact ⟨_, rfl, hcaches⟩
    · cases h
  | resume i =>
    simp only [StrategyState.step, hsource] at h
    split at h
    · cases h
      exact ⟨caches, hsource, hcaches⟩
    · split at h <;> cases h <;> exact ⟨caches, hsource, hcaches⟩
    · cases h

theorem Placed.step (hs : s.Placed clusterOf) (h : s.step sslRequired event = some t)
    (hevent : s.Truthful clusterOf event) : t.Placed clusterOf where
  caches := hs.source_step h hevent
  gets := by
    obtain ⟨caches, hsource, hcaches⟩ := hs.caches
    intro j call' hcall'
    cases hcall : s.gets[j]? with
    | none =>
      -- only `getNodes` makes a call
      have hlength := List.getElem?_eq_none_iff.mp hcall
      have hlength' := (List.getElem?_eq_some_iff.mp hcall').1
      by_cases hget : ∃ bucketId, event = .getNodes bucketId
      · obtain ⟨bucketId, rfl⟩ := hget
        cases h
        rw [getNodes_gets hsource, List.getElem?_append_right hlength,
          List.getElem?_singleton] at hcall'
        split at hcall'
        · cases hcall'
          show (caches.getBucket bucketId).InCluster (clusterOf bucketId)
          unfold Caches.getBucket
          split
          · next bucket hbucket => exact hcaches bucketId bucket hbucket
          · trivial
        · cases hcall'
      · have hsame := step_length h (by simpa using hget)
        omega
    | some call =>
      have hphase := hs.gets j call hcall
      obtain ⟨phase, hnext, hstep⟩ := step_get h hsource hcall
      rw [hnext] at hcall'
      cases hcall'
      show phase.InCluster (clusterOf call.bucketId)
      cases hstep with
      | other _ => exact hphase
      | @bucket result hbucket =>
        cases result with
        | error e => trivial
        | ok bucket =>
          cases bucket with
          | none => trivial
          | some bucket => exact hevent j call bucket rfl hcall
      | @lookup clusterId hcluster =>
        rw [hcluster] at hphase
        unfold Caches.getClusterNodes
        split <;> exact hphase
      | listed hlisting _ =>
        rw [hlisting] at hphase
        exact hphase
      | listedError _ => trivial
      | check hnodes =>
        unfold checked
        split <;> trivial

end StrategyState

/-! ## Runs with the chain -/

namespace ChainedState

variable {sslRequired : Bool} {clusterOf : Nat → ClusterId} {s t : ChainedState}
  {event : ChainedEvent} {i j bucketId : Nat} {P : List RouterNode → Prop}

/-- The events that are the strategy's own. -/
inductive Own : ChainedEvent → StrategyEvent → Prop
  | getNodes (bucketId : Nat) : Own (.getNodes bucketId) (.getNodes bucketId)
  | resume (i : Nat) : Own (.resume i) (.resume i)
  | ping (event : PingEvent) : Own (.ping event) (.ping event)

/-- What an event of the chain and the strategy comes to. -/
inductive Moves (sslRequired : Bool) (clusterOf : Nat → ClusterId) (s : ChainedState) :
    ChainedEvent → ChainedState → Prop
  | change (chain : ChainData) : Moves sslRequired clusterOf s (.change chain) { s with chain }
  | answer {i : Nat} {call : GetNodesCall} (hcall : s.strategy.gets[i]? = some call) :
    Moves sslRequired clusterOf s (.answer i)
      { s with answers := Function.update s.answers i (some s.chain) }
  | deliver {i : Nat} {chain : ChainData} {call : GetNodesCall} {strategy : StrategyState}
    (hanswer : s.answers i = some chain) (hcall : s.strategy.gets[i]? = some call)
    (hstep : s.strategy.step sslRequired (call.reply clusterOf i (.ok chain)) = some strategy) :
    Moves sslRequired clusterOf s (.deliver i)
      { s with strategy, answers := Function.update s.answers i none }
  | fail {i : Nat} {e : JsError} {call : GetNodesCall} {strategy : StrategyState}
    (hcall : s.strategy.gets[i]? = some call)
    (hstep : s.strategy.step sslRequired (call.reply clusterOf i (.error e)) = some strategy) :
    Moves sslRequired clusterOf s (.fail i e)
      { s with strategy, answers := Function.update s.answers i none }
  | own {event : ChainedEvent} {own : StrategyEvent} {strategy : StrategyState}
    (hown : Own event own) (hstep : s.strategy.step sslRequired own = some strategy) :
    Moves sslRequired clusterOf s event { s with strategy }

theorem settle_eq_some {answer : Except JsError ChainData}
    (h : s.settle sslRequired clusterOf i answer = some t) :
    ∃ call strategy, s.strategy.gets[i]? = some call ∧
      s.strategy.step sslRequired (call.reply clusterOf i answer) = some strategy ∧
      t = { s with strategy, answers := Function.update s.answers i none } := by
  simp only [settle, Option.bind_eq_bind, Option.bind_eq_some_iff, Option.pure_def,
    Option.some.injEq] at h
  obtain ⟨call, hcall, strategy, hstep, rfl⟩ := h
  exact ⟨call, strategy, hcall, hstep, rfl⟩

theorem step_moves (h : s.step sslRequired clusterOf event = some t) :
    Moves sslRequired clusterOf s event t := by
  cases event with
  | change chain =>
    cases h
    exact .change chain
  | getNodes bucketId =>
    simp only [step, Option.map_eq_some_iff] at h
    obtain ⟨strategy, hstep, rfl⟩ := h
    exact .own (.getNodes bucketId) hstep
  | resume i =>
    obtain ⟨strategy, hstep, rfl⟩ := Option.map_eq_some_iff.mp h
    exact .own (.resume i) hstep
  | ping event =>
    obtain ⟨strategy, hstep, rfl⟩ := Option.map_eq_some_iff.mp h
    exact .own (.ping event) hstep
  | answer i =>
    simp only [step, Option.bind_eq_bind, Option.bind_eq_some_iff] at h
    obtain ⟨call, hcall, h⟩ := h
    split at h
    · cases h
      exact .answer hcall
    · cases h
  | deliver i =>
    obtain ⟨chain, hanswer, h⟩ := Option.bind_eq_some_iff.mp h
    obtain ⟨call, strategy, hcall, hstep, rfl⟩ := settle_eq_some h
    exact .deliver hanswer hcall hstep
  | fail i e =>
    obtain ⟨call, strategy, hcall, hstep, rfl⟩ := settle_eq_some h
    exact .fail hcall hstep

/-- What the calls have is in order, and no answer is there before its call. -/
structure Sound (sslRequired : Bool) (clusterOf : Nat → ClusterId) (s : ChainedState) : Prop where
  strategy : s.strategy.Sound sslRequired
  placed : s.strategy.Placed clusterOf
  fresh : ∀ i, s.strategy.gets.length ≤ i → s.answers i = none

theorem sound_new {now : Int} {chain : ChainData} :
    (new now chain).Sound sslRequired clusterOf where
  strategy :=
    { ping := PingState.sound_initial
      owned := by
        rintro r ⟨clusterId, h⟩
        cases h
      gets := by
        intro i call r h
        cases h }
  placed :=
    { caches := ⟨{}, rfl, by
        intro bucketId bucket h
        cases h⟩
      gets := by
        intro i call h
        cases h }
  fresh := fun _ _ => rfl

/-- The answers of the chain are as the chain is. -/
theorem truthful_reply {call : GetNodesCall} {answer : Except JsError ChainData}
    (hcall : s.strategy.gets[i]? = some call) :
    s.strategy.Truthful clusterOf (call.reply clusterOf i answer) := by
  intro k other bucket hreply hother
  unfold GetNodesCall.reply at hreply
  split at hreply
  · cases hreply' : answer with
    | error e =>
      rw [hreply'] at hreply
      cases hreply
    | ok chain =>
      rw [hreply'] at hreply
      simp only [Except.map, StrategyEvent.bucket.injEq, Except.ok.injEq] at hreply
      obtain ⟨rfl, hbucket⟩ := hreply
      rw [hcall] at hother
      cases hother
      unfold ChainData.getBucket at hbucket
      split at hbucket
      · cases hbucket
        rfl
      · cases hbucket
  · cases hreply

theorem truthful_own {own : StrategyEvent} (h : Own event own) :
    s.strategy.Truthful clusterOf own := by
  intro k other bucket hown _
  cases h <;> cases hown

/-- Calls are never given up. -/
theorem step_length_le {strategy : StrategyState} {own : StrategyEvent}
    (hplaced : s.strategy.Placed clusterOf) (h : s.strategy.step sslRequired own = some strategy) :
    s.strategy.gets.length ≤ strategy.gets.length := by
  obtain ⟨caches, hsource, -⟩ := hplaced.caches
  by_cases hget : ∃ bucketId, own = .getNodes bucketId
  · obtain ⟨bucketId, rfl⟩ := hget
    cases h
    rw [StrategyState.getNodes_gets hsource, List.length_append]
    exact Nat.le_add_right _ _
  · exact Nat.le_of_eq (StrategyState.step_length h (by simpa using hget)).symm

theorem Sound.step (hs : s.Sound sslRequired clusterOf)
    (h : s.step sslRequired clusterOf event = some t) : t.Sound sslRequired clusterOf := by
  cases step_moves h with
  | change chain => exact ⟨hs.strategy, hs.placed, hs.fresh⟩
  | @answer i call hcall =>
    refine ⟨hs.strategy, hs.placed, fun k hk => ?_⟩
    have hlt := (List.getElem?_eq_some_iff.mp hcall).1
    have hne : k ≠ i := fun heq => absurd hk (Nat.not_le_of_lt (heq ▸ hlt))
    show Function.update s.answers i _ k = none
    rw [Function.update_of_ne hne]
    exact hs.fresh k hk
  | @deliver i chain call strategy hanswer hcall hstep =>
    refine ⟨hs.strategy.step hstep, hs.placed.step hstep (truthful_reply hcall), fun k hk => ?_⟩
    show Function.update s.answers i none k = none
    rw [Function.update_apply]
    split
    · rfl
    · exact hs.fresh k (Nat.le_trans (step_length_le hs.placed hstep) hk)
  | @fail i e call strategy hcall hstep =>
    refine ⟨hs.strategy.step hstep, hs.placed.step hstep (truthful_reply hcall), fun k hk => ?_⟩
    show Function.update s.answers i none k = none
    rw [Function.update_apply]
    split
    · rfl
    · exact hs.fresh k (Nat.le_trans (step_length_le hs.placed hstep) hk)
  | own hown hstep =>
    exact ⟨hs.strategy.step hstep, hs.placed.step hstep (truthful_own hown),
      fun k hk => hs.fresh k (Nat.le_trans (step_length_le hs.placed hstep) hk)⟩

/-! ## One call -/

/-- The list that call `j` finds in the cache, if there is one, meets `P`. -/
def FindsNodes (P : List RouterNode → Prop) (j : Nat) (s : ChainedState) (event : ChainedEvent) :
    Prop :=
  event = .resume j → ∀ bucketId clusterId caches nodes,
    s.strategy.gets[j]? = some ⟨bucketId, .cluster clusterId⟩ →
    s.strategy.source = .blockchain caches → caches.clusterNodes clusterId = some nodes →
    P (s.strategy.ping.arrays.read nodes)

/-- What the chain has answered to call `j` serves the bucket. -/
def WellAnswered (P : List RouterNode → Prop) (clusterOf : Nat → ClusterId) (bucketId j : Nat)
    (s : ChainedState) : Prop :=
  ∀ chain, s.answers j = some chain → chain.Serves P clusterOf bucketId

theorem findsNodes_of_ne (h : event ≠ .resume j) : FindsNodes P j s event :=
  fun heq => absurd heq h

theorem findsNodes_of_phase {phase : GetNodesPhase}
    (hcall : s.strategy.gets[j]? = some ⟨bucketId, phase⟩)
    (hphase : ∀ clusterId, phase ≠ .cluster clusterId) : FindsNodes P j s event := by
  intro _ bucketId' clusterId caches nodes hget
  rw [hcall] at hget
  cases hget
  exact absurd rfl (hphase clusterId)

theorem findsNodes_resume_iff {clusterId : ClusterId} {caches : Caches}
    (hcall : s.strategy.gets[j]? = some ⟨bucketId, .cluster clusterId⟩)
    (hsource : s.strategy.source = .blockchain caches) :
    FindsNodes P j s (.resume j) ↔
      ∀ nodes, caches.clusterNodes clusterId = some nodes →
        P (s.strategy.ping.arrays.read nodes) := by
  constructor
  · intro hfinds nodes hnodes
    exact hfinds rfl bucketId clusterId caches nodes hcall hsource hnodes
  · intro hcached _ bucketId' clusterId' caches' nodes hget hsource' hnodes
    rw [hcall] at hget
    cases hget
    rw [hsource] at hsource'
    cases hsource'
    exact hcached nodes hnodes

/-- How far call `j` is from a list that meets `P`, before and after an event of the strategy. -/
theorem leads_own {own : StrategyEvent} {strategy : StrategyState} {phase : GetNodesPhase}
    (hs : s.Sound sslRequired clusterOf) (hP : ¬ P [])
    (hstep : s.strategy.step sslRequired own = some strategy)
    (hcall : s.strategy.gets[j]? = some ⟨bucketId, phase⟩)
    (hresume : own = .resume j ↔ event = .resume j)
    (hbucket : ∀ result, own = .bucket j result → ∃ bucket, result = .ok (some bucket))
    (hlisted : ∀ result, own = .listed j result →
      ∃ allNodes, result = .ok allNodes ∧ P (clusterNodesOf (clusterOf bucketId) allNodes)) :
    ∃ phase', strategy.gets[j]? = some ⟨bucketId, phase'⟩ ∧
      (phase'.Leads P strategy.ping.arrays ↔
        FindsNodes P j s event ∧ phase.Leads P s.strategy.ping.arrays) := by
  obtain ⟨caches, hsource, -⟩ := hs.placed.caches
  have hcluster := hs.placed.gets j _ hcall
  have hread : ∀ r, s.strategy.ping.Untouched r →
      strategy.ping.arrays.read r = s.strategy.ping.arrays.read r :=
    fun r hr => StrategyState.read_step hstep hr
  obtain ⟨phase', hnext, hcallStep⟩ := StrategyState.step_get hstep hsource hcall
  refine ⟨phase', hnext, ?_⟩
  cases hcallStep with
  | other hne =>
    have hfinds : FindsNodes P j s event := findsNodes_of_ne fun heq => hne (hresume.mpr heq)
    rw [GetNodesPhase.leads_congr fun r hr => hread r (hs.strategy.gets j _ r hcall hr)]
    simp [hfinds]
  | @bucket result hphase =>
    have hfinds : FindsNodes P j s event := findsNodes_of_ne fun heq => by
      cases hresume.mpr heq
    obtain ⟨bucket, rfl⟩ := hbucket result rfl
    change phase = .bucket at hphase
    subst hphase
    exact ⟨fun _ => ⟨hfinds, trivial⟩, fun _ => trivial⟩
  | @lookup clusterId hphase =>
    change phase = .cluster clusterId at hphase
    subst hphase
    rw [hresume.mp rfl, findsNodes_resume_iff hcall hsource]
    unfold Caches.getClusterNodes
    cases hcached : caches.clusterNodes clusterId with
    | none =>
      refine ⟨fun _ => ⟨?_, trivial⟩, fun _ => trivial⟩
      intro nodes hnodes
      cases hnodes
    | some nodes =>
      show P (strategy.ping.arrays.read nodes) ↔ _
      rw [hread nodes (hs.strategy.owned nodes (hsource ▸ ⟨clusterId, hcached⟩))]
      constructor
      · intro hnodes
        refine ⟨?_, trivial⟩
        rintro _ ⟨⟩
        exact hnodes
      · rintro ⟨hfinds, -⟩
        exact hfinds nodes rfl
  | @listed clusterId allNodes nodes hphase hnodes =>
    have hfinds : FindsNodes P j s event := findsNodes_of_ne fun heq => by
      cases hresume.mpr heq
    change phase = .listing clusterId at hphase
    subst hphase
    change clusterId = clusterOf bucketId at hcluster
    obtain ⟨_, hall, hmeets⟩ := hlisted _ rfl
    cases hall
    refine ⟨fun _ => ⟨hfinds, trivial⟩, fun _ => ?_⟩
    show P (strategy.ping.arrays.read nodes)
    rw [hnodes, hcluster]
    exact hmeets
  | listedError hphase =>
    obtain ⟨_, hall, -⟩ := hlisted _ rfl
    cases hall
  | @check clusterId nodes hphase =>
    change phase = .nodes clusterId nodes at hphase
    subst hphase
    have hsame := hread nodes (hs.strategy.gets j _ nodes hcall rfl)
    have hfinds : FindsNodes P j s event := findsNodes_of_phase hcall (by simp)
    unfold StrategyState.checked
    by_cases hempty : (s.strategy.ping.arrays.read nodes).isEmpty = true
    · rw [if_pos hempty]
      refine ⟨fun h => h.elim, ?_⟩
      rintro ⟨-, hleads⟩
      change P (s.strategy.ping.arrays.read nodes) at hleads
      rw [List.isEmpty_iff.mp hempty] at hleads
      exact hP hleads
    · rw [if_neg hempty]
      show P (strategy.ping.arrays.read nodes) ↔ _ ∧ P (s.strategy.ping.arrays.read nodes)
      rw [hsame]
      simp [hfinds]

theorem reply_ne_resume {call : GetNodesCall} {answer : Except JsError ChainData} :
    call.reply clusterOf i answer ≠ .resume j := by
  unfold GetNodesCall.reply
  split <;> simp

/-- The same for an event of the chain or the strategy, while the chain serves the bucket. -/
theorem step_leads {phase : GetNodesPhase} (hs : s.Sound sslRequired clusterOf) (hP : ¬ P [])
    (hanswers : s.WellAnswered P clusterOf bucketId j) (hfail : ∀ e, event ≠ .fail j e)
    (h : s.step sslRequired clusterOf event = some t)
    (hcall : s.strategy.gets[j]? = some ⟨bucketId, phase⟩) :
    ∃ phase', t.strategy.gets[j]? = some ⟨bucketId, phase'⟩ ∧
      (phase'.Leads P t.strategy.ping.arrays ↔
        FindsNodes P j s event ∧ phase.Leads P s.strategy.ping.arrays) := by
  cases step_moves h with
  | change chain =>
    have hfinds : FindsNodes P j s (.change chain) := findsNodes_of_ne (by simp)
    exact ⟨phase, hcall, by simp [hfinds]⟩
  | @answer i call hcall' =>
    have hfinds : FindsNodes P j s (.answer i) := findsNodes_of_ne (by simp)
    exact ⟨phase, hcall, by simp [hfinds]⟩
  | @deliver i chain call strategy hanswer hcall' hstep =>
    refine leads_own hs hP hstep hcall ?_ ?_ ?_
    · exact ⟨fun heq => absurd heq reply_ne_resume, fun heq => by cases heq⟩
    · intro result hreply
      unfold GetNodesCall.reply at hreply
      split at hreply <;> cases hreply
      rw [hcall] at hcall'
      cases hcall'
      refine ⟨⟨clusterOf bucketId⟩, ?_⟩
      show Except.ok (ChainData.getBucket clusterOf chain bucketId) = _
      rw [ChainData.getBucket, if_pos (hanswers chain hanswer).1]
    · intro result hreply
      unfold GetNodesCall.reply at hreply
      split at hreply <;> cases hreply
      exact ⟨chain.nodes, rfl, (hanswers chain hanswer).2⟩
  | @fail i e call strategy hcall' hstep =>
    have hij : i ≠ j := fun heq => hfail e (heq ▸ rfl)
    refine leads_own hs hP hstep hcall ?_ ?_ ?_
    · exact ⟨fun heq => absurd heq reply_ne_resume, fun heq => by cases heq⟩
    · intro result hreply
      unfold GetNodesCall.reply at hreply
      split at hreply <;> cases hreply
      exact absurd rfl hij
    · intro result hreply
      unfold GetNodesCall.reply at hreply
      split at hreply <;> cases hreply
      exact absurd rfl hij
  | own hown hstep =>
    refine leads_own hs hP hstep hcall ?_ ?_ ?_
    · cases hown <;> simp
    · intro result heq
      subst heq
      cases hown
    · intro result heq
      subst heq
      cases hown

theorem WellAnswered.step (hanswers : s.WellAnswered P clusterOf bucketId j)
    (hserves : s.chain.Serves P clusterOf bucketId)
    (h : s.step sslRequired clusterOf event = some t) : t.WellAnswered P clusterOf bucketId j := by
  cases step_moves h with
  | change chain => exact hanswers
  | @answer i call hcall =>
    intro chain hanswer
    change Function.update s.answers i (some s.chain) j = some chain at hanswer
    rw [Function.update_apply] at hanswer
    split at hanswer
    · cases hanswer
      exact hserves
    · exact hanswers chain hanswer
  | @deliver i chain' call strategy _ hcall hstep =>
    intro chain hanswer
    change Function.update s.answers i none j = some chain at hanswer
    rw [Function.update_apply] at hanswer
    split at hanswer
    · cases hanswer
    · exact hanswers chain hanswer
  | @fail i e call strategy hcall hstep =>
    intro chain hanswer
    change Function.update s.answers i none j = some chain at hanswer
    rw [Function.update_apply] at hanswer
    split at hanswer
    · cases hanswer
    · exact hanswers chain hanswer
  | own hown hstep => exact hanswers

/-- The chain serves the bucket of call `j`, and no request of the call fails. -/
def Served (P : List RouterNode → Prop) (clusterOf : Nat → ClusterId) (bucketId j : Nat)
    (s : ChainedState) (event : ChainedEvent) : Prop :=
  s.chain.Serves P clusterOf bucketId ∧ ∀ e, event ≠ .fail j e

theorem run_leads {events : List ChainedEvent} {phase : GetNodesPhase}
    (hs : s.Sound sslRequired clusterOf) (hP : ¬ P [])
    (hanswers : s.WellAnswered P clusterOf bucketId j)
    (hserved : Kit.EachStep (step sslRequired clusterOf) (Served P clusterOf bucketId j) s events)
    (hcall : s.strategy.gets[j]? = some ⟨bucketId, phase⟩)
    (hrun : Kit.run (step sslRequired clusterOf) s events = some t) :
    ∃ phase', t.strategy.gets[j]? = some ⟨bucketId, phase'⟩ ∧
      (phase'.Leads P t.strategy.ping.arrays ↔
        Kit.EachStep (step sslRequired clusterOf) (FindsNodes P j) s events ∧
          phase.Leads P s.strategy.ping.arrays) := by
  induction events generalizing s phase with
  | nil =>
    cases hrun
    exact ⟨phase, hcall, by simp [Kit.EachStep]⟩
  | cons event events ih =>
    obtain ⟨u, hu, hrest⟩ := Kit.run_cons_eq_some.mp hrun
    obtain ⟨⟨hserves, hfail⟩, hserved'⟩ := hserved
    rw [hu] at hserved'
    obtain ⟨phase₁, hcall₁, hleads₁⟩ := step_leads hs hP hanswers hfail hu hcall
    obtain ⟨phase₂, hcall₂, hleads₂⟩ := ih (hs.step hu) (hanswers.step hserves hu) hserved' hcall₁
      hrest
    refine ⟨phase₂, hcall₂, ?_⟩
    rw [hleads₂, hleads₁]
    simp only [Kit.EachStep, hu]
    constructor
    · rintro ⟨heach, hfinds, hleads⟩
      exact ⟨⟨hfinds, heach⟩, hleads⟩
    · rintro ⟨⟨hfinds, heach⟩, hleads⟩
      exact ⟨heach, hfinds, hleads⟩

/-- When a call of `getNodes` comes to the nodes that the chain has, whatever has happened before:
`P` is what holds of the nodes of the cluster as long as the call is under way. -/
theorem getNodes_recovers_iff {now : Int} {chain : ChainData} {before after : List ChainedEvent}
    {result : Except JsError Ref} (hP : ¬ P [])
    (hbefore : Kit.run (step sslRequired clusterOf) (new now chain) before = some s)
    (hafter : Kit.run (step sslRequired clusterOf) s (.getNodes bucketId :: after) = some t)
    (hserved : Kit.EachStep (step sslRequired clusterOf)
      (Served P clusterOf bucketId s.strategy.gets.length) s (.getNodes bucketId :: after))
    (hdone : t.strategy.gets[s.strategy.gets.length]? = some ⟨bucketId, .done result⟩) :
    (∃ nodes, result = .ok nodes ∧ P (t.strategy.ping.arrays.read nodes)) ↔
      Kit.EachStep (step sslRequired clusterOf) (FindsNodes P s.strategy.gets.length) s
        (.getNodes bucketId :: after) := by
  have hs : s.Sound sslRequired clusterOf :=
    Kit.run_invariant (fun _ _ _ hs h => hs.step h) sound_new hbefore
  obtain ⟨caches, hsource, -⟩ := hs.placed.caches
  obtain ⟨u, hu, hrest⟩ := Kit.run_cons_eq_some.mp hafter
  obtain ⟨⟨hserves, -⟩, hserved'⟩ := hserved
  rw [hu] at hserved'
  have hanswers : s.WellAnswered P clusterOf bucketId s.strategy.gets.length := by
    intro chain hanswer
    rw [hs.fresh _ (Nat.le_refl _)] at hanswer
    cases hanswer
  have hcall : u.strategy.gets[s.strategy.gets.length]?
      = some ⟨bucketId, caches.getBucket bucketId⟩ := by
    simp only [step, Option.map_eq_some_iff] at hu
    obtain ⟨strategy, hstep, rfl⟩ := hu
    cases hstep
    show (s.strategy.getNodes bucketId).gets[s.strategy.gets.length]? = _
    rw [StrategyState.getNodes_gets hsource]
    simp
  obtain ⟨phase, hcall', hleads⟩ := run_leads (hs.step hu) hP (hanswers.step hserves hu) hserved'
    hcall hrest
  rw [hdone] at hcall'
  cases hcall'
  have hstart : (caches.getBucket bucketId).Leads P u.strategy.ping.arrays := by
    unfold Caches.getBucket
    split <;> trivial
  have hfirst : FindsNodes P s.strategy.gets.length s (.getNodes bucketId) :=
    findsNodes_of_ne (by simp)
  simp only [Kit.EachStep, hu]
  constructor
  · rintro ⟨nodes, rfl, hnodes⟩
    exact ⟨hfirst, (hleads.mp hnodes).1⟩
  · rintro ⟨-, heach⟩
    have hresult := hleads.mpr ⟨heach, hstart⟩
    cases result with
    | error e => exact hresult.elim
    | ok nodes => exact ⟨nodes, rfl, hresult⟩

/-! ## Progress -/

/-- How far a call is from its end. -/
def stepsLeft : GetNodesPhase → Nat
  | .bucket => 4
  | .cluster _ => 3
  | .listing _ => 2
  | .nodes _ _ => 1
  | .done _ => 0

/-- The chain answers call `j`, or the call goes on. -/
def Attends (j : Nat) (event : ChainedEvent) : Prop :=
  event = .answer j ∨ event = .deliver j ∨ event = .resume j

/-- A call that waits for the chain gets an answer. -/
theorem exists_answer (sslRequired : Bool) (clusterOf : Nat → ClusterId) {call : GetNodesCall}
    (hcall : s.strategy.gets[j]? = some call)
    (hasks : call.phase.asks = true) :
    ∃ events u chain, (∀ event ∈ events, Attends j event) ∧
      Kit.run (step sslRequired clusterOf) s events = some u ∧ u.strategy = s.strategy ∧
      u.answers j = some chain := by
  cases hanswer : s.answers j with
  | some chain => exact ⟨[], s, chain, by simp, rfl, rfl, hanswer⟩
  | none =>
    have hstep : s.step sslRequired clusterOf (.answer j)
        = some { s with answers := Function.update s.answers j (some s.chain) } := by
      simp [ChainedState.step, hcall, hasks, hanswer]
    refine ⟨[.answer j], _, s.chain, ?_, Kit.run_cons_eq_some.mpr ⟨_, hstep, rfl⟩, rfl,
      Function.update_self ..⟩
    intro event hevent
    exact .inl (List.mem_singleton.mp hevent)

/-- The answer that a call waits for gets it on. -/
theorem exists_deliver {call : GetNodesCall} {phase : GetNodesPhase}
    (hcall : s.strategy.gets[j]? = some call) (hasks : call.phase.asks = true)
    (hnext : ∀ chain, ∃ strategy phase',
      s.strategy.step sslRequired (call.reply clusterOf j (.ok chain)) = some strategy ∧
        strategy.gets[j]? = some { call with phase := phase' } ∧
          stepsLeft phase' < stepsLeft phase) :
    ∃ events t phase', (∀ event ∈ events, Attends j event) ∧
      Kit.run (step sslRequired clusterOf) s events = some t ∧
      t.strategy.gets[j]? = some { call with phase := phase' } ∧
      stepsLeft phase' < stepsLeft phase := by
  obtain ⟨events, u, chain, hevents, hu, hsame, hanswer⟩ :=
    exists_answer sslRequired clusterOf hcall hasks
  obtain ⟨strategy, phase', hstep, hget, hless⟩ := hnext chain
  have hdeliver : u.step sslRequired clusterOf (.deliver j)
      = some { u with strategy, answers := Function.update u.answers j none } := by
    simp [ChainedState.step, hanswer, settle, hsame, hcall, hstep]
  refine ⟨events ++ [.deliver j], _, phase', ?_, Kit.run_append_eq_some.mpr
    ⟨u, hu, Kit.run_cons_eq_some.mpr ⟨_, hdeliver, rfl⟩⟩, hget, hless⟩
  intro event hevent
  rcases List.mem_append.mp hevent with hevent | hevent
  · exact hevents event hevent
  · exact .inr (.inl (List.mem_singleton.mp hevent))

/-- A call that does not wait for the chain goes on by itself. -/
theorem exists_resume {call : GetNodesCall} {phase : GetNodesPhase} (phase' : GetNodesPhase)
    (hcall : s.strategy.gets[j]? = some call)
    (hstep : s.strategy.step sslRequired (.resume j) = some (s.strategy.setGet j phase'))
    (hless : stepsLeft phase' < stepsLeft phase) :
    ∃ events t phase', (∀ event ∈ events, Attends j event) ∧
      Kit.run (step sslRequired clusterOf) s events = some t ∧
      t.strategy.gets[j]? = some { call with phase := phase' } ∧
      stepsLeft phase' < stepsLeft phase := by
  have hresume : s.step sslRequired clusterOf (.resume j)
      = some { s with strategy := s.strategy.setGet j phase' } := by
    simp [ChainedState.step, hstep]
  refine ⟨[.resume j], _, phase', ?_, Kit.run_cons_eq_some.mpr ⟨_, hresume, rfl⟩,
    StrategyState.setGet_self hcall, hless⟩
  intro event hevent
  exact .inr (.inr (List.mem_singleton.mp hevent))

/-- A call that has not come to its end can be brought nearer to it. -/
theorem exists_nearer {phase : GetNodesPhase} (hs : s.Sound sslRequired clusterOf)
    (hcall : s.strategy.gets[j]? = some ⟨bucketId, phase⟩)
    (hleft : stepsLeft phase ≠ 0) :
    ∃ events t phase', (∀ event ∈ events, Attends j event) ∧
      Kit.run (step sslRequired clusterOf) s events = some t ∧
      t.strategy.gets[j]? = some ⟨bucketId, phase'⟩ ∧ stepsLeft phase' < stepsLeft phase := by
  obtain ⟨caches, hsource, -⟩ := hs.placed.caches
  cases phase with
  | bucket =>
    refine exists_deliver hcall rfl fun chain => ?_
    let found := chain.getBucket clusterOf bucketId
    refine ⟨s.strategy.gotBucket caches j bucketId (.ok found),
      StrategyState.afterBucket bucketId (.ok found), ?_, ?_, ?_⟩
    · simp only [GetNodesCall.reply, StrategyState.step, hsource, hcall]
      rfl
    · rw [StrategyState.gotBucket_gets]
      exact StrategyState.setGet_self hcall
    · cases found <;> simp [StrategyState.afterBucket, stepsLeft]
  | cluster clusterId =>
    refine exists_resume (caches.getClusterNodes clusterId) hcall ?_ ?_
    · simp only [StrategyState.step, hsource, hcall]
    · unfold Caches.getClusterNodes
      split <;> simp [stepsLeft]
  | listing clusterId =>
    refine exists_deliver hcall rfl fun chain => ?_
    refine ⟨s.strategy.gotNodes caches j clusterId (.ok chain.nodes), _, ?_,
      StrategyState.setGet_self hcall, Nat.one_lt_two⟩
    simp only [GetNodesCall.reply, StrategyState.step, hsource, hcall]
    rfl
  | nodes clusterId nodes =>
    refine exists_resume (s.strategy.checked clusterId nodes) hcall ?_ ?_
    · simp only [StrategyState.step, hsource, hcall, StrategyState.checked]
      split <;> rfl
    · unfold StrategyState.checked
      split <;> exact Nat.one_pos
  | done result => exact absurd rfl hleft

/-- A call of `getNodes` whose requests the chain answers comes to its end, from wherever it is. -/
theorem getNodes_ends {phase : GetNodesPhase} (hs : s.Sound sslRequired clusterOf)
    (hcall : s.strategy.gets[j]? = some ⟨bucketId, phase⟩) :
    ∃ events t result, (∀ event ∈ events, Attends j event) ∧
      Kit.run (step sslRequired clusterOf) s events = some t ∧
      t.strategy.gets[j]? = some ⟨bucketId, .done result⟩ := by
  induction hleft : stepsLeft phase using Nat.strong_induction_on generalizing s phase with
  | _ n ih =>
    by_cases hzero : stepsLeft phase = 0
    · cases phase with
      | done result => exact ⟨[], s, result, by simp, rfl, hcall⟩
      | _ => cases hzero
    · obtain ⟨events, u, phase', hevents, hu, hget, hless⟩ := exists_nearer hs hcall hzero
      have hsu : u.Sound sslRequired clusterOf :=
        Kit.run_invariant (fun _ _ _ hs h => hs.step h) hs hu
      obtain ⟨more, t, result, hmore, ht, hdone⟩ := ih _ (hleft ▸ hless) hsu hget rfl
      refine ⟨events ++ more, t, result, ?_, Kit.run_append_eq_some.mpr ⟨u, hu, ht⟩, hdone⟩
      intro event hevent
      exact (List.mem_append.mp hevent).elim (hevents event) (hmore event)

/-! A cluster without nodes, which later gets one. -/

def joinedNode : BCStorageNode :=
  ⟨some "cluster", { host := "node", httpPort := 8080, grpcPort := 9090, mode := .full }⟩

def chainWith (hasBucket : Bool) (nodes : List BCStorageNode) : ChainData :=
  ⟨fun _ => hasBucket, nodes⟩

/-- Call `i`, which asks the chain for the bucket and for the nodes. -/
def askingCall (i : Nat) : List ChainedEvent :=
  [.getNodes 1, .answer i, .deliver i, .resume i, .answer i, .deliver i, .resume i]

/-- A call that has found no bucket leaves nothing in the caches: a later one comes to the nodes. -/
theorem missingBucket_recovers :
    ∃ s t, Kit.run (step false fun _ => "cluster") (new 0 (chainWith false []))
        [.getNodes 1, .answer 0, .deliver 0, .change (chainWith true [joinedNode])] = some s ∧
      s.strategy.gets[0]? = some ⟨1, .done (.error (bucketNotFound 1))⟩ ∧
      Kit.run (step false fun _ => "cluster") s (askingCall 1) = some t ∧
      Kit.EachStep (step false fun _ => "cluster") (FindsNodes (· = [mapNodeProps joinedNode]) 1) s
        (askingCall 1) := by
  have hbefore : Kit.run (step false fun _ => "cluster") (new 0 (chainWith false []))
      [.getNodes 1, .answer 0, .deliver 0, .change (chainWith true [joinedNode])] = some _ := rfl
  refine ⟨_, _, hbefore, rfl, rfl, ?_⟩
  have hserved : ∀ event, event ∈ askingCall 1 → ∀ e, event ≠ .fail 1 e := by
    simp [askingCall]
  have hnodes : ¬ ([] : List RouterNode) = [mapNodeProps joinedNode] := by simp
  apply (getNodes_recovers_iff (P := (· = [mapNodeProps joinedNode])) hnodes hbefore rfl ?_ rfl).mp
  · exact ⟨0, rfl, rfl⟩
  refine .cons ⟨⟨rfl, rfl⟩, hserved _ (by simp [askingCall])⟩ rfl ?_
  refine .cons ⟨⟨rfl, rfl⟩, hserved _ (by simp [askingCall])⟩ rfl ?_
  refine .cons ⟨⟨rfl, rfl⟩, hserved _ (by simp [askingCall])⟩ rfl ?_
  refine .cons ⟨⟨rfl, rfl⟩, hserved _ (by simp [askingCall])⟩ rfl ?_
  refine .cons ⟨⟨rfl, rfl⟩, hserved _ (by simp [askingCall])⟩ rfl ?_
  refine .cons ⟨⟨rfl, rfl⟩, hserved _ (by simp [askingCall])⟩ rfl ?_
  exact .cons ⟨⟨rfl, rfl⟩, hserved _ (by simp [askingCall])⟩ rfl trivial

/-- A call that has found no nodes leaves its empty list in the cache, and a later one rejects like
it, although there is a node by then. -/
theorem emptyCluster_fails_again :
    ∃ s t, Kit.run (step false fun _ => "cluster") (new 0 (chainWith true []))
        (askingCall 0 ++ [.change (chainWith true [joinedNode])]) = some s ∧
      s.strategy.gets[0]? = some ⟨1, .done (.error (noClusterNodes "cluster"))⟩ ∧
      Kit.run (step false fun _ => "cluster") s [.getNodes 1, .resume 1, .resume 1] = some t ∧
      t.chain = chainWith true [joinedNode] ∧
      t.strategy.gets[1]? = some ⟨1, .done (.error (noClusterNodes "cluster"))⟩ :=
  ⟨_, _, rfl, rfl, rfl, rfl, rfl⟩

end ChainedState

end CereDdc
