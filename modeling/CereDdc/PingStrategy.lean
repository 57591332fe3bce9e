import CereDdc.Kit.Heap
import CereDdc.Kit.Runs
import CereDdc.Routing

/-!
# PingStrategy — `routing/PingStrategy.ts`

The strategy keeps a record of every node it has pinged. A call of `marshalNodes`
goes through several awaits, and pings, other calls and timers come in between. Its
arrays are shared: a copy is shuffled and a filtered list is sorted in place, both
while the caller holds the list that it gave.
-/

namespace CereDdc

open Kit (Heap Ref)

/-! ## Constants -/

/-- Minimum number of nodes to ping before any DDC operation. -/
def pingThreshold : Nat := 10

/-- Number of additional nodes to ping in the background after each operation. -/
def pingThresholdInc : Nat := 2

/-- Delay in milliseconds before starting background pings after an operation. -/
def pingBackgroundDelay : Int := 100

/-! ## State -/

inductive DeferredState
  | pending | resolved | rejected
  deriving DecidableEq, Repr

/-- How far `ping(record)` is. -/
inductive PingPhase
  /-- `fetch` runs; it was started at `start`. -/
  | fetching (start : Int)
  /-- `fetch` has ended, and `isDone` is about to be settled. -/
  | fetched (ok : Bool)
  deriving DecidableEq, Repr

structure PingRecord where
  node : RouterNode
  isDone : DeferredState := .pending
  latency : Option Int := none
  phase : PingPhase
  deriving DecidableEq, Repr

/-- A timer that starts pings in the background. -/
structure PingTimer where
  due : Int
  toPingAsync : List RouterNode
  deriving DecidableEq, Repr

/-- Where a call of `marshalNodes` waits. -/
inductive MarshalPhase
  /-- `NodeTypeStrategy` has the pinged nodes of `BaseStrategy`. -/
  | basePinged (allNodesShuffled nodes : Ref)
  | pinged (allNodesShuffled pingedNodes : Ref)
  /-- `NodeTypeStrategy` has the nodes of `BaseStrategy`. -/
  | baseAll (pingedNodes nodes : Ref)
  | all (pingedNodes allOperationNodes : Ref)
  /-- `Promise.allSettled` waits for new pings. -/
  | settling (allOperationNodes : Ref) (toPingAsync : List RouterNode) (syncPings : List Url)
  | done (result : Ref)
  deriving DecidableEq, Repr

/-- A call of `marshalNodes`. -/
structure MarshalCall where
  operation : RouterOperation
  draws : Draws
  /-- The nodes in the array that was given, when it was given. -/
  given : List RouterNode
  phase : MarshalPhase

structure PingState where
  now : Int
  arrays : Heap RouterNode := {}
  /-- The records in the order in which they were made. -/
  nodesMap : List PingRecord := []
  calls : List MarshalCall := []
  timers : List PingTimer := []
  /-- The pings that were started. The code keeps no list of them. -/
  pings : List Url := []

inductive PingEvent
  /-- Other code makes an array of nodes. -/
  | array (nodes : List RouterNode)
  | marshalNodes (operation : RouterOperation) (allNodes : Ref) (draws : Draws)
  /-- Call `i` goes on after the promise it awaits. -/
  | resume (i : Nat)
  /-- `fetch` ends, with a response that is `ok` or not, or with an error. -/
  | fetched (url : Url) (ok : Bool)
  /-- `isDone` is settled. -/
  | settle (url : Url)
  /-- Timer `i` fires. -/
  | timeout (i : Nat)
  | tick (milliseconds : Nat)

/-! ## Pings -/

namespace PingState

/-- `nodesMap.get(url)` -/
def record? (s : PingState) (url : Url) : Option PingRecord :=
  s.nodesMap.find? (·.node.httpUrl = url)

/-- `nodesMap.has(url)` -/
def has (s : PingState) (url : Url) : Bool := s.nodesMap.any (·.node.httpUrl = url)

def updateRecord (s : PingState) (url : Url) (f : PingRecord → PingRecord) : PingState :=
  { s with nodesMap := s.nodesMap.map fun record =>
      if record.node.httpUrl = url then f record else record }

def latency (s : PingState) (url : Url) : Option Int := (s.record? url).bind (·.latency)

/-- `getPingedNodes(state)` -/
def getPingedNodes (s : PingState) (state : Option DeferredState := none) : List RouterNode :=
  let foundPings := s.nodesMap.filter fun record =>
    match state with
    | some state => record.isDone = state
    | none => record.isDone ≠ .rejected
  foundPings.map (·.node)

/-- `enqueuePing(node)`, with the promise of a new ping; for a node that has a record already the
record itself is returned, and nobody waits for that. -/
def enqueuePing (s : PingState) (node : RouterNode) : PingState × Option Url :=
  if s.has node.httpUrl then (s, none)
  else
    ({ s with
        nodesMap := s.nodesMap ++ [{ node, phase := .fetching s.now }]
        pings := s.pings ++ [node.httpUrl] },
      some node.httpUrl)

/-- `nodes.map((node) => this.enqueuePing(node))`, with the promises among the results. -/
def enqueuePings : PingState → List RouterNode → PingState × List Url
  | s, [] => (s, [])
  | s, node :: nodes =>
    let first := s.enqueuePing node
    let rest := first.1.enqueuePings nodes
    (rest.1, first.2.toList ++ rest.2)

/-- `Promise.allSettled(syncPings)` is resolved. -/
def allSettled (s : PingState) (syncPings : List Url) : Bool :=
  syncPings.all fun url => (s.record? url).all (·.isDone ≠ .pending)

end PingState

/-! ## `marshalNodes` -/

/-- `BaseStrategy.marshalNodes`: without ssl the array that was given is passed on. -/
def BaseStrategy.marshal (sslRequired : Bool) (arrays : Heap RouterNode) (allNodes : Ref) :
    Heap RouterNode × Ref :=
  if sslRequired then arrays.alloc ((arrays.read allNodes).filter (·.secure))
  else (arrays, allNodes)

/-- `NodeTypeStrategy.marshalNodes`, once it has the nodes of `BaseStrategy`. -/
def NodeTypeStrategy.marshal (operation : RouterOperation) (arrays : Heap RouterNode)
    (nodes : Ref) : Heap RouterNode × Ref :=
  arrays.build ((arrays.read nodes).filter (·.handles operation))
    (·.mergeSort (priorityLe operation))

namespace PingState

variable (sslRequired : Bool)

/-- `marshalNodes(operation, allNodes)`, up to its first await. -/
def marshalNodes (s : PingState) (operation : RouterOperation) (allNodes : Ref) (draws : Draws) :
    PingState :=
  let shuffled := s.arrays.build (s.arrays.read allNodes) (shuffle draws)
  let pinged := shuffled.1.alloc s.getPingedNodes
  let base := BaseStrategy.marshal sslRequired pinged.1 pinged.2
  { s with
    arrays := base.1
    calls := s.calls ++ [{
      operation, draws
      given := s.arrays.read allNodes
      phase := .basePinged shuffled.2 base.2 }] }

/-- The call goes on to its next await. -/
def advance (s : PingState) (call : MarshalCall) : Option (PingState × MarshalPhase) :=
  match call.phase with
  | .basePinged allNodesShuffled nodes =>
    let pinged := NodeTypeStrategy.marshal call.operation s.arrays nodes
    some ({ s with arrays := pinged.1 }, .pinged allNodesShuffled pinged.2)
  | .pinged allNodesShuffled pingedNodes =>
    let base := BaseStrategy.marshal sslRequired s.arrays allNodesShuffled
    some ({ s with arrays := base.1 }, .baseAll pingedNodes base.2)
  | .baseAll pingedNodes nodes =>
    let all := NodeTypeStrategy.marshal call.operation s.arrays nodes
    some ({ s with arrays := all.1 }, .all pingedNodes all.2)
  | .all pinged allOperationNodes =>
    let pingedNodes := s.arrays.read pinged
    let notPingedNodes := (s.arrays.read allOperationNodes).filter (!s.has ·.httpUrl)
    let toPingSync := notPingedNodes.take (pingThreshold - pingedNodes.length)
    let toPingAsync := notPingedNodes.take pingThresholdInc
    let syncPings := s.enqueuePings (pingedNodes ++ toPingSync)
    some (syncPings.1, .settling allOperationNodes toPingAsync syncPings.2)
  | .settling allOperationNodes toPingAsync syncPings =>
    if s.allSettled syncPings then
      let sorted := (s.arrays.read allOperationNodes).mergeSort (latencyLe s.latency)
      some ({ s with
          timers := s.timers ++ [⟨s.now + pingBackgroundDelay, toPingAsync⟩]
          arrays := s.arrays.write allOperationNodes sorted },
        .done allOperationNodes)
    else none
  | .done _ => none

/-- A call that waits for its pings goes on when they are settled, and sorts. -/
theorem advance_settling {s s' : PingState} {call : MarshalCall} {all : Ref}
    {toPingAsync : List RouterNode} {syncPings : List Url} {phase : MarshalPhase}
    (hphase : call.phase = .settling all toPingAsync syncPings) :
    s.advance sslRequired call = some (s', phase) ↔ s.allSettled syncPings = true ∧
      s' = { s with
        timers := s.timers ++ [⟨s.now + pingBackgroundDelay, toPingAsync⟩]
        arrays := s.arrays.write all ((s.arrays.read all).mergeSort (latencyLe s.latency)) } ∧
      phase = .done all := by
  simp only [advance, hphase, Option.ite_none_right_eq_some, Option.some.injEq, Prod.mk.injEq]
  constructor
  · rintro ⟨hsettled, rfl, rfl⟩
    exact ⟨hsettled, rfl, rfl⟩
  · rintro ⟨hsettled, rfl, rfl⟩
    exact ⟨hsettled, rfl, rfl⟩

theorem advance_done {s : PingState} {call : MarshalCall} {result : Ref}
    (hphase : call.phase = .done result) : s.advance sslRequired call = none := by
  simp only [advance, hphase]

def setPhase (s : PingState) (i : Nat) (phase : MarshalPhase) : PingState :=
  { s with calls := s.calls.modify i fun call => { call with phase } }

/-! ## Steps -/

def step (s : PingState) : PingEvent → Option PingState
  | .array nodes => some { s with arrays := (s.arrays.alloc nodes).1 }
  | .marshalNodes operation allNodes draws =>
    if allNodes < s.arrays.size then some (s.marshalNodes sslRequired operation allNodes draws)
    else none
  | .resume i => do
    let call ← s.calls[i]?
    let (s, phase) ← s.advance sslRequired call
    return s.setPhase i phase
  | .fetched url ok => do
    let record ← s.record? url
    match record.phase with
    | .fetching start =>
      -- a ping that failed keeps no latency
      let latency := if ok then some (s.now - start) else record.latency
      return s.updateRecord url ({ · with phase := .fetched ok, latency })
    | .fetched _ => none
  | .settle url => do
    let record ← s.record? url
    match record.phase, record.isDone with
    | .fetched ok, .pending =>
      let isDone := if ok then DeferredState.resolved else .rejected
      return s.updateRecord url ({ · with isDone })
    | _, _ => none
  | .timeout i => do
    let timer ← s.timers[i]?
    if timer.due ≤ s.now then
      return ({ s with timers := s.timers.eraseIdx i }.enqueuePings timer.toPingAsync).1
    else none
  | .tick milliseconds => some { s with now := s.now + milliseconds }

end PingState

end CereDdc
