import CereDdc.Kit.Retry

/-!
# Constants and errors

The numeric constants of the `ddc` package, the gRPC status codes, and the
errors that travel through its promises.
-/

namespace CereDdc

/-! ## `constants.ts` -/

def kb : Nat := 1024

def mb : Nat := 1024 * kb

/-- Minimum size of a piece of content, in bytes. -/
def minPieceSize : Nat := 4 * mb

/-- Maximum size of a piece of content, in bytes. -/
def maxPieceSize : Nat := 128 * mb

/-- Size of a chunk of a content stream: 4 MB minus 100 KB for the message structure. -/
def contentChunkSize : Nat := 4 * mb - 100 * kb

/-- Expiration time for an authentication token, in milliseconds (one month). -/
def authTokenExpirationTime : Int := 30 * 24 * 60 * 60 * 1000

/-- Maximum number of attempts to retry an operation. -/
def retryMaxAttempts : Nat := 5

theorem contentChunkSize_pos : 0 < contentChunkSize := by decide

theorem minPieceSize_pos : 0 < minPieceSize := by decide

theorem authTokenExpirationTime_pos : 0 < authTokenExpirationTime := by decide

/-! ## `grpc/status.ts` -/

inductive GrpcStatus
  | ok | cancelled | unknown | invalidArgument | deadlineExceeded | notFound | alreadyExists
  | permissionDenied | resourceExhausted | failedPrecondition | aborted | outOfRange
  | unimplemented | internal | unavailable | dataLoss | unauthenticated
  deriving DecidableEq, Repr

/-- The reverse mapping `GrpcStatus[status]` of the TypeScript enum: the name of the code. -/
def GrpcStatus.name : GrpcStatus → String
  | ok => "OK"
  | cancelled => "CANCELLED"
  | unknown => "UNKNOWN"
  | invalidArgument => "INVALID_ARGUMENT"
  | deadlineExceeded => "DEADLINE_EXCEEDED"
  | notFound => "NOT_FOUND"
  | alreadyExists => "ALREADY_EXISTS"
  | permissionDenied => "PERMISSION_DENIED"
  | resourceExhausted => "RESOURCE_EXHAUSTED"
  | failedPrecondition => "FAILED_PRECONDITION"
  | aborted => "ABORTED"
  | outOfRange => "OUT_OF_RANGE"
  | unimplemented => "UNIMPLEMENTED"
  | internal => "INTERNAL"
  | unavailable => "UNAVAILABLE"
  | dataLoss => "DATA_LOSS"
  | unauthenticated => "UNAUTHENTICATED"

/-- gRPC error codes that should trigger a retry of the operation. -/
def retryableGrpcErrorCodes : List GrpcStatus :=
  [.unavailable, .deadlineExceeded, .resourceExhausted, .aborted, .internal, .unknown, .cancelled]

/-! ## Errors -/

/-- `RpcError` of the protobuf runtime. -/
structure RpcError where
  message : String
  code : String
  rpcMeta : List (String × String) := []
  methodName : Option String := none
  serviceName : Option String := none
  deriving DecidableEq, Repr

/-- `NodeError`, a subclass of `RpcError`. -/
structure NodeError extends RpcError where
  correlationId : Option String := none
  nodeId : Option String := none
  deriving DecidableEq, Repr

/-- A value a promise can be rejected with. -/
inductive JsError
  | error (message : String)
  | rpc (e : RpcError)
  | node (e : NodeError)
  /-- a thrown value that is no `Error` object -/
  | value (description : String)
  deriving DecidableEq, Repr

/-- `error instanceof Error` -/
def JsError.isError : JsError → Bool
  | .value _ => false
  | _ => true

/-- `error instanceof RpcError`: the error seen as an `RpcError`, subclass instances included. -/
def JsError.asRpcError : JsError → Option RpcError
  | .rpc e => some e
  | .node e => some e.toRpcError
  | _ => none

/-- `NodeError.fromRpcError` -/
def NodeError.fromRpcError (e : RpcError) : NodeError := { toRpcError := e }

/-- The test of `withRetry` on the code of a failed attempt. -/
def isRetryableCode (code : String) : Bool :=
  (retryableGrpcErrorCodes.map GrpcStatus.name).contains code

/-- An error after which `withRetry` runs the body again. -/
def JsError.isRetryable (e : JsError) : Bool :=
  match e.asRpcError with
  | some r => isRetryableCode r.code
  | none => false

end CereDdc
