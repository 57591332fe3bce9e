import CereDdc.StorageNode

/-!
# BalancedNode — `nodes/BalancedNode.ts`

`withRetry` over the router and the storage nodes, and `storePiece` on top of
it. The retry package is a parameter: how much time has gone by when an attempt
fails, and which of the collected errors it rejects with.
-/

namespace CereDdc

open Kit

/-! ## Retry options -/

/-- The options of `async-retry` that decide whether there is another attempt. -/
structure RetryOptions where
  retries : Nat
  forever : Bool := false
  maxRetryTime : Option Nat := none
  deriving DecidableEq, Repr

/-- `OpperationRetryOptions` -/
structure OperationRetryOptions where
  attempts : Option Nat := none
  forever : Bool := false
  maxRetryTime : Option Nat := none
  deriving DecidableEq, Repr

/-- The `retries` field of `BalancedNodeConfig`. -/
inductive RetriesConfig
  | unset
  | number (retries : Nat)
  | options (options : OperationRetryOptions)
  deriving DecidableEq, Repr

/-- The `retryOptions` the constructor of `BalancedNode` ends up with. -/
def RetriesConfig.retryOptions : RetriesConfig → RetryOptions
  | .unset => { retries := retryMaxAttempts }
  | .number retries => { retries }
  | .options o =>
    { retries := o.attempts.getD retryMaxAttempts, forever := o.forever,
      maxRetryTime := o.maxRetryTime }

/-- What `async-retry` does on its own. -/
structure AsyncRetry where
  /-- milliseconds since the first attempt when attempt `n` fails -/
  elapsed : Nat → Nat
  mainError : List JsError → JsError → JsError

/-- Does another attempt follow when attempt `n` fails? -/
def RetryOptions.grants (options : RetryOptions) (package : AsyncRetry) (n : Nat) : Bool :=
  (options.forever || decide (n ≤ options.retries))
    && options.maxRetryTime.all (package.elapsed n < ·)

/-! ## `withRetry` -/

/-- The variables `withRetry` keeps across attempts. -/
structure RetryState where
  lastOperationError : Option JsError := none
  lastRouterError : Option JsError := none
  exclude : List NodeId := []
  deriving DecidableEq, Repr

/-- The choice of a node. When the router has none to offer, the one that was tried longest ago
is taken out of the excluded ones. -/
def pickNode (getNode : List NodeId → Except JsError NodeId) (s : RetryState) :
    Option NodeId × RetryState :=
  match getNode s.exclude with
  | .ok node => (some node, { s with exclude := node :: s.exclude })
  | .error e =>
    -- `exclude.pop()`
    (s.exclude.getLast?,
      { s with
        exclude := s.exclude.dropLast
        lastRouterError := if e.isError then some e else s.lastRouterError })

def noNodes : JsError := .error "No nodes available to handle the operation"

/-- The error of an attempt as `withRetry` passes it on, and whether it may be retried. -/
def operationError (nodeId : NodeId) (correlationId : String) (e : JsError) : JsError × Bool :=
  match e.asRpcError with
  | some r =>
    let nodeError : NodeError :=
      { NodeError.fromRpcError r with nodeId := some nodeId, correlationId := some correlationId }
    (.node nodeError, isRetryableCode r.code)
  | none => (e, false)

/-- One attempt of `withRetry`; `body` is the operation on the chosen node, over a state `σ`. -/
def withRetryAttempt {σ α : Type} (correlationId : String)
    (getNode : List NodeId → Except JsError NodeId)
    (body : NodeId → σ → Except JsError α × σ) (s : RetryState × σ) :
    Attempt JsError α × (RetryState × σ) :=
  match pickNode getNode s.1 with
  | (none, r) => (.failed (r.lastOperationError.getD (r.lastRouterError.getD noNodes)), (r, s.2))
  | (some node, r) =>
    match body node s.2 with
    | (.ok a, t) => (.resolved a, (r, t))
    | (.error e, t) =>
      match operationError node correlationId e with
      | (e', true) => (.failed e', ({ r with lastOperationError := some e' }, t))
      | (e', false) => (.bailed e', (r, t))

/-- What the operation keeps on every node, an attempt keeps, however it ends. -/
theorem withRetryAttempt_keeps {σ α : Type} {correlationId : String}
    {getNode : List NodeId → Except JsError NodeId} {body : NodeId → σ → Except JsError α × σ}
    {I : σ → Prop} (hbody : ∀ node s, I s → I (body node s).2) {s : RetryState × σ}
    (hs : I s.2) : I (withRetryAttempt correlationId getNode body s).2.2 := by
  unfold withRetryAttempt
  cases pickNode getNode s.1 with
  | mk picked r =>
    cases picked with
    | none => exact hs
    | some node =>
      have hnode := hbody node s.2 hs
      dsimp only
      cases hresult : body node s.2 with
      | mk result t =>
        rw [hresult] at hnode
        cases result with
        | ok a => exact hnode
        | error e =>
          dsimp only
          cases operationError node correlationId e with
          | mk e' retryable => cases retryable <;> exact hnode

/-! ## `storePiece` -/

/-- What a `storePiece` call works on: the piece of the caller, and the calls nodes received. -/
structure StoreState where
  piece : StorablePiece
  calls : List RpcCall := []
  deriving DecidableEq, Repr

/-- `withCorrelationId` -/
def withCorrelationId (freshId : String) (options : PieceStoreOptions) : PieceStoreOptions :=
  { options with correlationId := some (orString options.correlationId freshId) }

/-- `Piece.isPiece(piece) && attempt > 0 ? Piece.from(piece) : piece`. A clone shares the
content object with the piece, so the second component is the piece it leaves behind. -/
def pieceForAttempt (pulls : PullOrder) (attempt : Nat) (piece : StorablePiece) :
    Except JsError StorablePiece :=
  -- attempts are counted from 1, so the first one clones too
  match piece with
  | .piece p => if 0 < attempt then (p.fromPiece pulls).map .piece else .ok piece
  | .multipart _ => .ok piece

/-- The piece of the caller after an attempt with `used`, whose body was read so far. -/
def StorablePiece.after (piece used : StorablePiece) (reads : Reads) : StorablePiece :=
  match piece, used with
  | .piece p, .piece q => .piece { p with content := q.contentAfter reads }
  | piece, _ => piece

/-- The body `storePiece` gives to `withRetry`. -/
def storeBody (bucketId : Nat) (options : PieceStoreOptions) (attempt : Nat)
    (turn : Turn) (node : NodeId) (s : StoreState) : Except JsError Cid × StoreState :=
  match pieceForAttempt turn.pulls attempt s.piece with
  | .error e => (.error e, s)
  | .ok used =>
    let stored := StorageNode.storePiece node turn bucketId used options
    (stored.result,
      { piece := s.piece.after used stored.reads, calls := s.calls ++ stored.calls })

/-- One attempt of `storePiece`. -/
def storeAttempt (bucketId : Nat) (options : PieceStoreOptions) (correlationId : String)
    (attempt : Nat) (turn : Turn) (s : RetryState × StoreState) :
    Attempt JsError Cid × (RetryState × StoreState) :=
  withRetryAttempt correlationId turn.getNode
    (storeBody bucketId options attempt turn) s

/-- The result of `BalancedNode.storePiece`, the calls the nodes received and the piece as it
is left. -/
structure StoreRun where
  outcome : Outcome JsError Cid
  calls : List RpcCall
  piece : StorablePiece

namespace BalancedNode

/-- `storePiece(bucketId, piece, options)`, for attempts that go as `turns` has it. -/
def storePiece (retries : RetriesConfig) (package : AsyncRetry) (freshId : String)
    (turns : List Turn) (bucketId : Nat) (piece : StorablePiece)
    (storeOptions : PieceStoreOptions := {}) : StoreRun :=
  let options := withCorrelationId freshId storeOptions
  let correlationId := orString storeOptions.correlationId freshId
  let (outcome, (_, s)) :=
    retry (retries.retryOptions.grants package) package.mainError
      (storeAttempt bucketId options correlationId) 1 [] turns ({}, { piece })
  ⟨outcome, s.calls, s.piece⟩

end BalancedNode

end CereDdc
