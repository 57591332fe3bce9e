import CereDdc.MarshalledNodes

/-!
# BlockchainStrategy — `routing/BlockchainStrategy.ts`, `routing/StaticStrategy.ts`

Where a `PingStrategy` has its nodes from: a list that it was given, or the cluster
of the bucket as the blockchain has it. What comes from the blockchain is kept in
caches, and the list in the cache is the very array that is handed out.
-/

namespace CereDdc

open Kit (Heap Ref)

/-! ## What the blockchain has -/

abbrev ClusterId := String

/-- `Bucket`, of the `blockchain` package -/
structure Bucket where
  clusterId : ClusterId
  deriving DecidableEq, Repr

structure StorageNodeProps where
  host : String
  httpPort : Nat
  grpcPort : Nat
  mode : StorageNodeMode
  domain : Option String := none
  ssl : Option Bool := none
  deriving DecidableEq, Repr

/-- `StorageNode`, of the `blockchain` package -/
structure BCStorageNode where
  clusterId : Option ClusterId
  props : StorageNodeProps
  deriving DecidableEq, Repr

/-- A URL with a scheme. -/
def Url.ofScheme (scheme rest : String) (h : scheme ≠ "") : Url where
  text := scheme ++ rest
  nonempty := by
    intro hempty
    exact h (String.append_eq_empty_iff.mp hempty).1

/-- `mapNodeProps` -/
def mapNodeProps (node : BCStorageNode) : RouterNode :=
  let props := node.props
  let httpHost := orString props.domain props.host
  { ssl := props.ssl
    httpUrl := if props.ssl = some true then .ofScheme "https://" httpHost (by decide)
      else .ofScheme "http://" s!"{httpHost}:{props.httpPort}" (by decide)
    grpcUrl := .ofScheme "grpc://" s!"{props.host}:{props.grpcPort}" (by decide)
    mode := props.mode }

/-! ## State -/

/-- `bucketCache` and `clusterNodes` -/
structure Caches where
  bucketCache : Nat → Option Bucket := fun _ => none
  clusterNodes : ClusterId → Option Ref := fun _ => none

/-- Where the strategy has its nodes from. -/
inductive NodeSource
  /-- `StaticStrategy` -/
  | static (nodes : Ref)
  /-- `BlockchainStrategy` -/
  | blockchain (caches : Caches)

/-- Where a call of `getNodes` waits. -/
inductive GetNodesPhase
  /-- The blockchain looks for the bucket. -/
  | bucket
  /-- `getBucket` is done. -/
  | cluster (clusterId : ClusterId)
  /-- The blockchain lists its nodes. -/
  | listing (clusterId : ClusterId)
  /-- `getClusterNodes` is done. -/
  | nodes (clusterId : ClusterId) (nodes : Ref)
  | done (result : Except JsError Ref)

/-- A call of `getNodes`. -/
structure GetNodesCall where
  bucketId : Nat
  phase : GetNodesPhase

structure StrategyState where
  ping : PingState
  source : NodeSource
  gets : List GetNodesCall := []

inductive StrategyEvent
  | ping (event : PingEvent)
  | getNodes (bucketId : Nat)
  /-- The blockchain answers call `i` with the bucket, if there is one. -/
  | bucket (i : Nat) (result : Except JsError (Option Bucket))
  /-- The blockchain answers call `i` with all its nodes. -/
  | listed (i : Nat) (result : Except JsError (List BCStorageNode))
  /-- Call `i` goes on after the promise it awaits. -/
  | resume (i : Nat)

/-! ## Steps -/

def bucketNotFound (bucketId : Nat) : JsError :=
  .error s!"Failed to get bucket {bucketId} on blockchain"

def noClusterNodes (clusterId : ClusterId) : JsError :=
  .error s!"No nodes found in the cluster: {clusterId}"

namespace Caches

def setBucket (caches : Caches) (bucketId : Nat) (bucket : Bucket) : Caches :=
  { caches with bucketCache := Function.update caches.bucketCache bucketId (some bucket) }

def setNodes (caches : Caches) (clusterId : ClusterId) (nodes : Ref) : Caches :=
  { caches with clusterNodes := Function.update caches.clusterNodes clusterId (some nodes) }

/-- The start of `getBucket(bucketId)`. -/
def getBucket (caches : Caches) (bucketId : Nat) : GetNodesPhase :=
  match caches.bucketCache bucketId with
  | some bucket => .cluster bucket.clusterId
  | none => .bucket

/-- The start of `getClusterNodes(clusterId)`. -/
def getClusterNodes (caches : Caches) (clusterId : ClusterId) : GetNodesPhase :=
  match caches.clusterNodes clusterId with
  | some nodes => .nodes clusterId nodes
  | none => .listing clusterId

end Caches

/-- The nodes of the cluster among those of the blockchain. -/
def clusterNodesOf (clusterId : ClusterId) (allNodes : List BCStorageNode) : List RouterNode :=
  (allNodes.filter (·.clusterId = some clusterId)).map mapNodeProps

namespace StrategyState

def addGet (s : StrategyState) (call : GetNodesCall) : StrategyState :=
  { s with gets := s.gets ++ [call] }

def setGet (s : StrategyState) (i : Nat) (phase : GetNodesPhase) : StrategyState :=
  { s with gets := s.gets.modify i fun call => { call with phase } }

/-- `getNodes(bucketId)`, up to its first await. -/
def getNodes (s : StrategyState) (bucketId : Nat) : StrategyState :=
  match s.source with
  | .static nodes => s.addGet { bucketId, phase := .done (.ok nodes) }
  | .blockchain caches => s.addGet { bucketId, phase := caches.getBucket bucketId }

/-- `getBucket` has the answer of the blockchain. -/
def gotBucket (s : StrategyState) (caches : Caches) (i bucketId : Nat) :
    Except JsError (Option Bucket) → StrategyState
  | .ok (some bucket) =>
    { s with source := .blockchain (caches.setBucket bucketId bucket) }.setGet i
      (.cluster bucket.clusterId)
  | .ok none => s.setGet i (.done (.error (bucketNotFound bucketId)))
  | .error e => s.setGet i (.done (.error e))

/-- `getClusterNodes` has the answer of the blockchain. -/
def gotNodes (s : StrategyState) (caches : Caches) (i : Nat) (clusterId : ClusterId) :
    Except JsError (List BCStorageNode) → StrategyState
  | .ok allNodes =>
    let clusterNodes := s.ping.arrays.alloc (clusterNodesOf clusterId allNodes)
    { s with
      ping := { s.ping with arrays := clusterNodes.1 }
      source := .blockchain (caches.setNodes clusterId clusterNodes.2) }.setGet i
      (.nodes clusterId clusterNodes.2)
  | .error e => s.setGet i (.done (.error e))

variable (sslRequired : Bool)

def step (s : StrategyState) : StrategyEvent → Option StrategyState
  | .ping event => (s.ping.step sslRequired event).map ({ s with ping := · })
  | .getNodes bucketId => some (s.getNodes bucketId)
  | .bucket i result =>
    match s.source, s.gets[i]? with
    | .blockchain caches, some { bucketId, phase := .bucket } =>
      some (s.gotBucket caches i bucketId result)
    | _, _ => none
  | .listed i result =>
    match s.source, s.gets[i]? with
    | .blockchain caches, some { phase := .listing clusterId, .. } =>
      some (s.gotNodes caches i clusterId result)
    | _, _ => none
  | .resume i =>
    match s.source, s.gets[i]? with
    | .blockchain caches, some { phase := .cluster clusterId, .. } =>
      some (s.setGet i (caches.getClusterNodes clusterId))
    | .blockchain _, some { phase := .nodes clusterId nodes, .. } =>
      if (s.ping.arrays.read nodes).isEmpty then
        some (s.setGet i (.done (.error (noClusterNodes clusterId))))
      else some (s.setGet i (.done (.ok nodes)))
    | _, _ => none

end StrategyState

/-! ## The lists of the strategy -/

/-- The array is a list of the strategy: the one that it was given, or one in its cache. -/
def NodeSource.Owns : NodeSource → Ref → Prop
  | .static nodes, r => r = nodes
  | .blockchain caches, r => ∃ clusterId, caches.clusterNodes clusterId = some r

/-- The array is the one the call comes up with. -/
def GetNodesPhase.Holds : GetNodesPhase → Ref → Prop
  | .nodes _ found, r => r = found
  | .done (.ok found), r => r = found
  | _, _ => False

theorem Caches.owns_setBucket {caches : Caches} {bucketId : Nat} {bucket : Bucket} {r : Ref} :
    (NodeSource.blockchain (caches.setBucket bucketId bucket)).Owns r ↔
      (NodeSource.blockchain caches).Owns r := Iff.rfl

theorem Caches.owns_setNodes {caches : Caches} {clusterId : ClusterId} {nodes r : Ref}
    (h : (NodeSource.blockchain (caches.setNodes clusterId nodes)).Owns r) :
    r = nodes ∨ (NodeSource.blockchain caches).Owns r := by
  obtain ⟨clusterId', h⟩ := h
  by_cases hid : clusterId' = clusterId
  · subst hid
    simp only [setNodes, Function.update_self, Option.some.injEq] at h
    exact .inl h.symm
  · simp only [setNodes, Function.update_of_ne hid] at h
    exact .inr ⟨clusterId', h⟩

namespace StrategyState

variable {sslRequired : Bool} {s t : StrategyState} {event : StrategyEvent} {i : Nat}
  {phase : GetNodesPhase} {call : GetNodesCall} {r : Ref}

/-- No call of `marshalNodes` touches the lists of the strategy, nor those that `getNodes` has come
up with. -/
structure Sound (sslRequired : Bool) (s : StrategyState) : Prop where
  ping : s.ping.Sound sslRequired
  owned : ∀ r, s.source.Owns r → s.ping.Untouched r
  gets : ∀ (i : Nat) call r, s.gets[i]? = some call → call.phase.Holds r → s.ping.Untouched r

theorem Sound.addGet (hs : s.Sound sslRequired)
    (hcall : ∀ r, call.phase.Holds r → s.ping.Untouched r) : (s.addGet call).Sound sslRequired where
  ping := hs.ping
  owned := hs.owned
  gets := by
    intro j call' r hj hr
    change (s.gets ++ [call])[j]? = some call' at hj
    rw [List.getElem?_append] at hj
    split at hj
    · exact hs.gets j call' r hj hr
    · rw [List.getElem?_singleton] at hj
      split at hj
      · cases hj
        exact hcall r hr
      · cases hj

theorem Sound.setGet (hs : s.Sound sslRequired)
    (hphase : ∀ r, phase.Holds r → s.ping.Untouched r) : (s.setGet i phase).Sound sslRequired where
  ping := hs.ping
  owned := hs.owned
  gets := by
    intro j call' r hj hr
    change (s.gets.modify i _)[j]? = some call' at hj
    rw [List.getElem?_modify] at hj
    obtain ⟨before, hbefore, rfl⟩ := Option.map_eq_some_iff.mp hj
    split at hr
    · exact hphase r hr
    · exact hs.gets j before r hbefore hr

/-- The pings go on while `getNodes` waits. -/
theorem Sound.ping_step {event : PingEvent} {ping : PingState} (hs : s.Sound sslRequired)
    (h : s.ping.step sslRequired event = some ping) :
    ({ s with ping } : StrategyState).Sound sslRequired where
  ping := hs.ping.step h
  owned := fun r hr => ((hs.owned r hr).step h).1
  gets := fun j call r hj hr => ((hs.gets j call r hj hr).step h).1

theorem Sound.getNodes {bucketId : Nat} (hs : s.Sound sslRequired) :
    (s.getNodes bucketId).Sound sslRequired := by
  unfold StrategyState.getNodes
  split
  · next nodes hsource =>
    refine hs.addGet fun r hr => hs.owned r ?_
    rw [hsource]
    exact hr
  · next caches hsource =>
    refine hs.addGet fun r hr => ?_
    unfold Caches.getBucket at hr
    split at hr <;> cases hr

theorem Sound.gotBucket {caches : Caches} {bucketId : Nat}
    {result : Except JsError (Option Bucket)} (hs : s.Sound sslRequired)
    (hsource : s.source = .blockchain caches) :
    (s.gotBucket caches i bucketId result).Sound sslRequired := by
  cases result with
  | error e => exact hs.setGet fun r hr => hr.elim
  | ok bucket =>
    cases bucket with
    | none => exact hs.setGet fun r hr => hr.elim
    | some bucket =>
      refine Sound.setGet ⟨hs.ping, fun r hr => hs.owned r ?_, hs.gets⟩ fun r hr => hr.elim
      rw [hsource]
      exact Caches.owns_setBucket.mp hr

theorem Sound.gotNodes {caches : Caches} {clusterId : ClusterId}
    {result : Except JsError (List BCStorageNode)} (hs : s.Sound sslRequired)
    (hsource : s.source = .blockchain caches) :
    (s.gotNodes caches i clusterId result).Sound sslRequired := by
  cases result with
  | error e => exact hs.setGet fun r hr => hr.elim
  | ok allNodes =>
    -- the list that comes into the cache is a new array
    have hstep : s.ping.step sslRequired (.array (clusterNodesOf clusterId allNodes)) = some
        { s.ping with arrays := (s.ping.arrays.alloc (clusterNodesOf clusterId allNodes)).1 } := rfl
    have hnew := hs.ping.untouched_array hstep
    have hping := hs.ping_step hstep
    refine Sound.setGet ⟨hping.ping, ?_, hping.gets⟩ ?_
    · intro r hr
      rcases Caches.owns_setNodes hr with rfl | hold
      · exact hnew
      · refine hping.owned r ?_
        rw [show s.source = .blockchain caches from hsource]
        exact hold
    · intro r hr
      rw [show r = s.ping.arrays.size from hr]
      exact hnew

theorem Sound.step (hs : s.Sound sslRequired) (h : s.step sslRequired event = some t) :
    t.Sound sslRequired := by
  cases event with
  | ping event =>
    obtain ⟨ping, hping, rfl⟩ := Option.map_eq_some_iff.mp h
    exact hs.ping_step hping
  | getNodes bucketId =>
    cases h
    exact hs.getNodes
  | bucket i result =>
    simp only [StrategyState.step] at h
    split at h
    · next hsource _ =>
      cases h
      exact hs.gotBucket hsource
    · cases h
  | listed i result =>
    simp only [StrategyState.step] at h
    split at h
    · next hsource _ =>
      cases h
      exact hs.gotNodes hsource
    · cases h
  | resume i =>
    simp only [StrategyState.step] at h
    split at h
    · next caches _ clusterId hsource _ =>
      cases h
      refine hs.setGet fun r hr => hs.owned r ?_
      rw [hsource]
      unfold Caches.getClusterNodes at hr
      split at hr
      · next nodes hnodes =>
        cases hr
        exact ⟨clusterId, hnodes⟩
      · cases hr
    · next _ _ clusterId nodes _ hget =>
      split at h
      · cases h
        exact hs.setGet fun r hr => hr.elim
      · cases h
        exact hs.setGet fun r hr => hs.gets i _ r hget hr
    · cases h

/-- An event of the strategy is about the pings, or an array that is made, or nothing of that. -/
theorem step_ping (h : s.step sslRequired event = some t) :
    t.ping = s.ping ∨ ∃ event, s.ping.step sslRequired event = some t.ping := by
  cases event with
  | ping event =>
    obtain ⟨ping, hping, rfl⟩ := Option.map_eq_some_iff.mp h
    exact .inr ⟨event, hping⟩
  | getNodes bucketId =>
    cases h
    unfold StrategyState.getNodes
    split <;> exact .inl rfl
  | bucket i result =>
    simp only [StrategyState.step] at h
    split at h
    · cases h
      unfold StrategyState.gotBucket
      split <;> exact .inl rfl
    · cases h
  | listed i result =>
    simp only [StrategyState.step] at h
    split at h
    · next clusterId _ _ =>
      cases h
      cases result with
      | error e => exact .inl rfl
      | ok allNodes => exact .inr ⟨.array (clusterNodesOf _ allNodes), rfl⟩
    · cases h
  | resume i =>
    simp only [StrategyState.step] at h
    split at h
    · cases h
      exact .inl rfl
    · split at h <;> cases h <;> exact .inl rfl
    · cases h

end StrategyState

end CereDdc
