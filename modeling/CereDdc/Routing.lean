import CereDdc.BalancedNode
import Mathlib.Data.List.Perm.Subperm

/-!
# Routing — `routing/NodeTypeStrategy.ts`, `routing/RandomStrategy.ts`, `routing/Router.ts`

Which node the router picks for an operation: the nodes of the bucket are
shuffled, filtered by what they support, and sorted by priority and by the
latency of their pings. Here the strategies are functions on lists; how they work
on shared arrays while pings come in is the matter of `PingStrategy`.
-/

namespace CereDdc

/-! ## Nodes -/

inductive StorageNodeMode
  | full | storage | cache
  deriving DecidableEq, Repr

inductive RouterOperation
  | readDagNode | storeDagNode | readPiece | storePiece | storeCnsRecord | readCnsRecord
  deriving DecidableEq, Repr

/-- The text of a URL, which is never empty. -/
structure Url where
  text : String
  nonempty : text ≠ ""
  deriving DecidableEq, Repr

/-- `RouterNode` -/
structure RouterNode where
  mode : StorageNodeMode
  httpUrl : Url
  grpcUrl : Url
  nodeId : Option String := none
  ssl : Option Bool := none
  priority : Option Int := none
  deriving DecidableEq, Repr

/-- `getNodeId` of the router -/
def RouterNode.id (node : RouterNode) : NodeId := orString node.nodeId node.grpcUrl.text

/-- The `nodeId` of the `StorageNode` that the router makes of a node: the constructor takes the
one of its configuration, or else a random one. -/
def RouterNode.storageNodeId (node : RouterNode) (uuid : String) : NodeId :=
  orString (some (orString node.nodeId node.grpcUrl.text)) uuid

/-! ## Strategies -/

/-- `priorityMap`; a mode without an entry does not support the operation. -/
def priorityMap : RouterOperation → StorageNodeMode → Option Int
  | .readDagNode, .full => some 1
  | .readDagNode, .cache => some 1
  | .readDagNode, .storage => some 2
  | .storeDagNode, .full => some 1
  | .storeDagNode, .storage => some 2
  | .storeDagNode, .cache => none
  | .readPiece, .full => some 1
  | .readPiece, .cache => some 1
  | .readPiece, .storage => some 2
  | .storePiece, .full => some 1
  | .storePiece, .storage => some 2
  | .storePiece, .cache => none
  | .readCnsRecord, .full => some 1
  | .readCnsRecord, .cache => some 1
  | .readCnsRecord, .storage => some 2
  | .storeCnsRecord, .full => some 1
  | .storeCnsRecord, .storage => some 2
  | .storeCnsRecord, .cache => none

/-- The node has ssl. -/
def RouterNode.secure (node : RouterNode) : Bool := node.ssl.getD false

/-- The mode of the node supports the operation. -/
def RouterNode.handles (operation : RouterOperation) (node : RouterNode) : Bool :=
  (priorityMap operation node.mode).isSome

/-- The node can be used for the operation on a page that may require ssl. -/
def RouterNode.supports (sslRequired : Bool) (operation : RouterOperation) (node : RouterNode) :
    Bool :=
  (!sslRequired || node.secure) && node.handles operation

/-- `a.priority ?? opertaionPriorityMap[a.mode] ?? 0` -/
def RouterNode.effectivePriority (operation : RouterOperation) (node : RouterNode) : Int :=
  node.priority.getD ((priorityMap operation node.mode).getD 0)

/-- The comparator of `NodeTypeStrategy`. -/
def priorityLe (operation : RouterOperation) (a b : RouterNode) : Bool :=
  decide (a.effectivePriority operation ≤ b.effectivePriority operation)

/-- `BaseStrategy.marshalNodes` -/
def BaseStrategy.marshalNodes (sslRequired : Bool) (nodes : List RouterNode) : List RouterNode :=
  if sslRequired then nodes.filter (·.secure) else nodes

/-- `NodeTypeStrategy.marshalNodes` -/
def NodeTypeStrategy.marshalNodes (sslRequired : Bool) (operation : RouterOperation)
    (nodes : List RouterNode) : List RouterNode :=
  ((BaseStrategy.marshalNodes sslRequired nodes).filter (·.handles operation)).mergeSort
    (priorityLe operation)

/-- The numbers drawn in a shuffle, one for each index. -/
abbrev Draws := (index : Nat) → Fin (index + 1)

/-- The loop of `shuffle`, from `index` down. -/
def shuffleFrom {α : Type} (draws : Draws) : Nat → List α → List α
  | 0, array => array
  | index + 1, array => shuffleFrom draws index (array.swap (index + 1) (draws (index + 1)))

/-- `shuffle(array)` -/
def shuffle {α : Type} (draws : Draws) (array : List α) : List α :=
  shuffleFrom draws (array.length - 1) array

/-- `PING_LATENCY_GROUP` -/
def pingLatencyGroup : Int := 100

/-- The latency level of a node; `none` is `Infinity`. A latency of 0 counts as no latency. -/
def latencyLevel (latency : Option Int) : Option Int :=
  (latency.filter (· ≠ 0)).map fun latency => -(-latency / pingLatencyGroup)

/-- `levelA - levelB` is not positive; `Infinity - Infinity` is `NaN`, which a sort takes for 0. -/
def levelLe : Option Int → Option Int → Bool
  | some a, some b => decide (a ≤ b)
  | _, none => true
  | none, some _ => false

/-- The comparator of `PingStrategy`, for the latencies that are known of the URLs. -/
def latencyLe (latency : Url → Option Int) (a b : RouterNode) : Bool :=
  levelLe (latencyLevel (latency a.httpUrl)) (latencyLevel (latency b.httpUrl))

/-- What `PingStrategy.marshalNodes` comes to. -/
def marshalNodes (sslRequired : Bool) (operation : RouterOperation) (draws : Draws)
    (latency : Url → Option Int) (nodes : List RouterNode) : List RouterNode :=
  (NodeTypeStrategy.marshalNodes sslRequired operation (shuffle draws nodes)).mergeSort
    (latencyLe latency)

/-! ## The router -/

/-- The filter of `Router.getNode`. -/
def notExcluded (exclude : List NodeId) (nodes : List RouterNode) : List RouterNode :=
  nodes.filter fun node => !exclude.contains node.id

/-- `selectNode` -/
def selectNode (nodes : List RouterNode) : Option RouterNode := nodes.head?

/-- The end of `Router.getNode`, for the node that was selected. -/
def selected (node : Option RouterNode) : Except JsError RouterNode :=
  match node with
  | some node => .ok node
  | none => .error noNodes

namespace Router

/-- `getNode(operation, bucketId, config, exclude)`, for the nodes of the bucket. -/
def getNode (sslRequired : Bool) (operation : RouterOperation) (draws : Draws)
    (latency : Url → Option Int) (allNodes : List RouterNode) (exclude : List NodeId) :
    Except JsError RouterNode :=
  selected (selectNode
    (marshalNodes sslRequired operation draws latency (notExcluded exclude allNodes)))

end Router

/-! ## What the strategies keep -/

section

variable {sslRequired : Bool} {operation : RouterOperation} {draws : Draws}
  {latency : Url → Option Int} {nodes : List RouterNode} {exclude : List NodeId}
  {node : RouterNode}

theorem orString_ne {value : Option String} {fallback : String} (h : fallback ≠ "") :
    orString value fallback ≠ "" := by
  unfold orString
  split
  · split
    · exact h
    · assumption
  · exact h

/-- A node has the id that the router excludes it by. -/
theorem RouterNode.storageNodeId_eq (uuid : String) : node.storageNodeId uuid = node.id := by
  have hne : node.id ≠ "" := orString_ne node.grpcUrl.nonempty
  change orString (some node.id) uuid = node.id
  simp [orString, hne]

theorem shuffleFrom_perm {α : Type} (index : Nat) (array : List α) :
    (shuffleFrom draws index array).Perm array := by
  induction index generalizing array with
  | zero => exact .refl _
  | succ index ih => exact (ih _).trans (List.swap_perm _ _ _)

theorem shuffle_perm {α : Type} (array : List α) : (shuffle draws array).Perm array :=
  shuffleFrom_perm _ _

/-- Draws that leave every element in its place. -/
def keepOrder : Draws := Fin.last

theorem shuffleFrom_keepOrder {α : Type} (index : Nat) (array : List α) :
    shuffleFrom keepOrder index array = array := by
  induction index generalizing array with
  | zero => rfl
  | succ index ih =>
    rw [shuffleFrom, keepOrder, Fin.val_last, List.swap_self]
    exact ih array

theorem shuffle_keepOrder {α : Type} (array : List α) : shuffle keepOrder array = array :=
  shuffleFrom_keepOrder _ _

theorem baseStrategy_eq_filter :
    BaseStrategy.marshalNodes sslRequired nodes
      = nodes.filter fun node => !sslRequired || node.secure := by
  cases sslRequired with
  | true => rfl
  | false => exact (List.filter_eq_self.mpr fun _ _ => rfl).symm

/-- `NodeTypeStrategy` keeps exactly the nodes that support the operation. -/
theorem nodeTypeStrategy_perm :
    (NodeTypeStrategy.marshalNodes sslRequired operation nodes).Perm
      (nodes.filter (·.supports sslRequired operation)) := by
  refine (List.mergeSort_perm _ _).trans ?_
  rw [baseStrategy_eq_filter, List.filter_filter]
  exact .of_eq (List.filter_congr fun node _ => Bool.and_comm _ _)

/-- However the nodes are shuffled, and whatever is known of their pings. -/
theorem marshalNodes_perm :
    (marshalNodes sslRequired operation draws latency nodes).Perm
      (nodes.filter (·.supports sslRequired operation)) :=
  (List.mergeSort_perm _ _).trans
    (nodeTypeStrategy_perm.trans ((shuffle_perm nodes).filter _))

/-- The node can be picked: it supports the operation and is not excluded. -/
def Eligible (sslRequired : Bool) (operation : RouterOperation) (nodes : List RouterNode)
    (exclude : List NodeId) (node : RouterNode) : Prop :=
  node ∈ nodes ∧ node.supports sslRequired operation ∧ node.id ∉ exclude

theorem mem_marshalNodes_notExcluded :
    node ∈ marshalNodes sslRequired operation draws latency (notExcluded exclude nodes) ↔
      Eligible sslRequired operation nodes exclude node := by
  rw [marshalNodes_perm.mem_iff, List.mem_filter, notExcluded, List.mem_filter, Eligible]
  simp [and_assoc, and_comm]

/-- The first of the nodes that can be picked, or the error that there are none. -/
theorem selected_ok {finalNodes : List RouterNode}
    (hmem : ∀ node, node ∈ finalNodes ↔ Eligible sslRequired operation nodes exclude node)
    (h : selected (selectNode finalNodes) = .ok node) :
    Eligible sslRequired operation nodes exclude node := by
  refine (hmem node).mp ?_
  cases finalNodes with
  | nil => cases h
  | cons first rest =>
    cases h
    exact List.mem_cons_self

theorem selected_error_iff {finalNodes : List RouterNode} {e : JsError}
    (hmem : ∀ node, node ∈ finalNodes ↔ Eligible sslRequired operation nodes exclude node) :
    selected (selectNode finalNodes) = .error e ↔
      e = noNodes ∧ ∀ node, ¬ Eligible sslRequired operation nodes exclude node := by
  simp only [← hmem]
  cases finalNodes with
  | nil => simp [selected, selectNode, eq_comm]
  | cons first rest =>
    constructor
    · intro h
      cases h
    · intro h
      exact absurd List.mem_cons_self (h.2 first)

theorem Router.getNode_ok
    (h : Router.getNode sslRequired operation draws latency nodes exclude = .ok node) :
    Eligible sslRequired operation nodes exclude node :=
  selected_ok (fun _ => mem_marshalNodes_notExcluded) h

theorem Router.getNode_error_iff {e : JsError} :
    Router.getNode sslRequired operation draws latency nodes exclude = .error e ↔
      e = noNodes ∧ ∀ node, ¬ Eligible sslRequired operation nodes exclude node :=
  selected_error_iff fun _ => mem_marshalNodes_notExcluded

end

end CereDdc
