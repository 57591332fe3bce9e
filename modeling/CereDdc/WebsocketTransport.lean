import CereDdc.Constants
import CereDdc.Kit.Promise
import CereDdc.Kit.Runs

/-!
# WebsocketTransport — `transports/WebsocketTransport.ts`

The promises of a call and the callbacks that settle them. The events come from the
client of `grpc-web`, which has headers before it ends a call well, and from the
`abort` signal of the caller.
-/

namespace CereDdc

open Kit (Deferred)

/-! ## Headers, statuses and errors -/

abbrev Headers := List (String × List String)

/-- `grpc.Metadata` -/
structure Metadata where
  headersMap : Headers
  deriving DecidableEq, Repr

def Metadata.get (headers : Metadata) (name : String) : List String :=
  (headers.headersMap.lookup name).getD []

/-- `GrpcStatus[code]`, for any number. -/
def GrpcStatus.nameOf (code : Nat) : Option String :=
  ([ok, cancelled, unknown, invalidArgument, deadlineExceeded, notFound, alreadyExists,
    permissionDenied, resourceExhausted, failedPrecondition, aborted, outOfRange, unimplemented,
    internal, unavailable, dataLoss, unauthenticated][code]?).map name

/-- `RpcStatus` of the protobuf runtime. -/
structure RpcStatus where
  code : Option String
  detail : String
  deriving DecidableEq, Repr

/-- `getStatus(headers)`; `number` is how `Number` reads a text, if it comes to a natural number. -/
def getStatus (number : String → Option Nat) (headers : Metadata) : Option RpcStatus :=
  match (headers.get "grpc-status").head? with
  | none => none
  | some statusCode =>
    if statusCode = "" then none
    else some
      { code := (number statusCode).bind GrpcStatus.nameOf
        detail := ((headers.get "grpc-message").head?).getD "" }

/-- `new RpcError(message, code)`, with the default for a code that is not known. -/
def RpcError.new (message : String) (code : Option String) : RpcError :=
  { message, code := code.getD "UNKNOWN" }

/-- A value that a promise is rejected with, and whether a property can be set on it: not on a
primitive value, nor on a frozen object. -/
structure Rejection where
  error : JsError
  writable : Bool
  deriving DecidableEq, Repr

def Rejection.rpc (message : String) (code : Option String) : Rejection :=
  ⟨.rpc (.new message code), true⟩

/-- `signal.reason`; a falsy reason is replaced. -/
structure AbortReason extends Rejection where
  truthy : Bool
  deriving DecidableEq, Repr

/-- `options.abort.reason || new RpcError('Canceled by client', 'CANCELLED')` -/
def AbortReason.rejection (reason : AbortReason) : Rejection :=
  if reason.truthy then reason.toRejection
  else .rpc "Canceled by client" (some GrpcStatus.cancelled.name)

/-! ## The client -/

/-- What the client and the signal report, for messages of type `O`. -/
inductive ClientEvent (O : Type)
  | headers (metadata : Metadata)
  | message (message : O)
  | ended (status : GrpcStatus) (statusMessage : String) (trailers : Metadata)
  | abort (reason : AbortReason)

/-- The client of `grpc-web`, as far as it decides what it reports. -/
structure GrpcClient where
  hasHeaders : Bool := false
  ended : Option GrpcStatus := none
  closed : Bool := false
  deriving DecidableEq, Repr

namespace GrpcClient

variable {O : Type}

/-- Whether the event can come: nothing after the end or after `close()`, no good end without
headers, and an abort once, if there is a signal at all. -/
def reports (client : GrpcClient) (signal : Bool) : ClientEvent O → Bool
  | .headers _ => client.ended.isNone && !client.closed
  | .message _ => client.ended.isNone && !client.closed
  | .ended status _ _ =>
    client.ended.isNone && !client.closed && (client.hasHeaders || status != .ok)
  | .abort _ => signal && !client.closed

def next (client : GrpcClient) : ClientEvent O → GrpcClient
  | .headers _ => { client with hasHeaders := true }
  | .message _ => client
  | .ended status _ _ => { client with ended := some status }
  -- the handler of the abort calls `close()`
  | .abort _ => { client with closed := true }

/-- The call has ended, or was aborted. -/
def Over (client : GrpcClient) : Prop := client.ended.isSome ∨ client.closed = true

end GrpcClient

def ClientEvent.isMessage {O : Type} : ClientEvent O → Bool
  | .message _ => true
  | _ => false

/-- A call: the client, whether a message has come in, and the promises. -/
structure CallState (D : Type) where
  client : GrpcClient := {}
  received : Bool := false
  promises : D

/-- An event of the client, with the callbacks of the call. -/
def CallState.step {O D : Type} (handle : D → ClientEvent O → D) (signal : Bool)
    (s : CallState D) (event : ClientEvent O) : Option (CallState D) :=
  if s.client.reports signal event then
    some
      { client := s.client.next event
        received := s.received || event.isMessage
        promises := handle s.promises event }
  else none

/-- The callback of `client.onHeaders`, on the promise of the headers. -/
def onHeaders (number : String → Option Nat) (defHeader : Deferred Rejection Headers)
    (metadata : Metadata) : Deferred Rejection Headers :=
  match getStatus number metadata with
  | none => defHeader.resolvePending metadata.headersMap
  | some status =>
    if status.code ≠ some GrpcStatus.ok.name then
      defHeader.rejectPending (.rpc status.detail status.code)
    else defHeader.resolvePending metadata.headersMap

/-! ## `clientStreaming` -/

structure ClientStreaming (O : Type) where
  defHeader : Deferred Rejection Headers := .new
  defMessage : Deferred Rejection O := .new
  defStatus : Deferred Rejection RpcStatus := .new
  defTrailer : Deferred Rejection Headers := .new

namespace ClientStreaming

variable {O : Type}

def emitError (call : ClientStreaming O) (error : Rejection) : ClientStreaming O where
  defHeader := call.defHeader.rejectPending error
  defMessage := call.defMessage.rejectPending error
  defStatus := call.defStatus.rejectPending error
  defTrailer := call.defTrailer.rejectPending error

def handle (number : String → Option Nat) (call : ClientStreaming O) :
    ClientEvent O → ClientStreaming O
  | .headers metadata => { call with defHeader := onHeaders number call.defHeader metadata }
  | .message message => { call with defMessage := call.defMessage.resolvePending message }
  | .ended status statusMessage trailers =>
    if status ≠ .ok then call.emitError (.rpc statusMessage (some status.name))
    else
      { call with
        defStatus := call.defStatus.resolvePending ⟨some status.name, statusMessage⟩
        defTrailer := call.defTrailer.resolvePending trailers.headersMap }
  | .abort reason => call.emitError reason.rejection

/-- No promise is pending, and each was settled once. -/
structure Settled (call : ClientStreaming O) : Prop where
  header : call.defHeader.SettledOnce
  message : call.defMessage.SettledOnce
  status : call.defStatus.SettledOnce
  trailer : call.defTrailer.SettledOnce

end ClientStreaming

/-! ## `duplex` -/

/-- `RpcOutputStreamController` of the protobuf runtime, for streams `S` of messages `O`. -/
structure RpcOutputStreamController (S O : Type) where
  new : S
  closed : S → Bool
  notifyMessage : S → O → S
  notifyError : S → Rejection → S
  notifyComplete : S → S

/-- The error or the completion of a stream closes it. -/
structure RpcOutputStreamController.Closes {S O : Type}
    (controller : RpcOutputStreamController S O) : Prop where
  notifyError : ∀ stream error, controller.closed (controller.notifyError stream error) = true
  notifyComplete : ∀ stream, controller.closed (controller.notifyComplete stream) = true

structure Duplex (S : Type) where
  defHeader : Deferred Rejection Headers := .new
  outStream : S
  defStatus : Deferred Rejection RpcStatus := .new
  defTrailer : Deferred Rejection Headers := .new

namespace Duplex

variable {S O : Type} (controller : RpcOutputStreamController S O)

def emitError (call : Duplex S) (error : Rejection) : Duplex S where
  defHeader := call.defHeader.rejectPending error
  outStream :=
    if controller.closed call.outStream then call.outStream
    else controller.notifyError call.outStream error
  defStatus := call.defStatus.rejectPending error
  defTrailer := call.defTrailer.rejectPending error

def handle (number : String → Option Nat) (call : Duplex S) : ClientEvent O → Duplex S
  | .headers metadata => { call with defHeader := onHeaders number call.defHeader metadata }
  | .message message =>
    { call with outStream := controller.notifyMessage call.outStream message }
  | .ended status statusMessage trailers =>
    if status ≠ .ok then call.emitError controller (.rpc statusMessage (some status.name))
    else
      { call with
        defStatus := call.defStatus.resolvePending ⟨some status.name, statusMessage⟩
        defTrailer := call.defTrailer.resolvePending trailers.headersMap
        outStream :=
          if controller.closed call.outStream then call.outStream
          else controller.notifyComplete call.outStream }
  | .abort reason => call.emitError controller reason.rejection

/-- No promise is pending, each was settled once, and the stream is closed. -/
structure Settled (call : Duplex S) : Prop where
  header : call.defHeader.SettledOnce
  status : call.defStatus.SettledOnce
  trailer : call.defTrailer.SettledOnce
  outStream : controller.closed call.outStream = true

end Duplex

/-! ## `unary` -/

/-- `grpc.UnaryOutput` -/
structure UnaryOutput (O : Type) where
  status : GrpcStatus
  statusMessage : String
  headers : Metadata
  message : Option O
  trailers : Metadata

/-- How far the handlers of the request are, `then` and `catch`. -/
inductive Reaction
  | waiting
  | catching (error : Rejection)
  | done

structure Unary (O : Type) where
  /-- What `grpc.unary` has of the response. -/
  responseHeaders : Option Metadata := none
  responseMessage : Option O := none
  request : Deferred Rejection (UnaryOutput O) := .new
  reaction : Reaction := .waiting
  defHeader : Deferred Rejection Headers := .new
  defMessage : Deferred Rejection O := .new
  defStatus : Deferred Rejection RpcStatus := .new
  defTrailer : Deferred Rejection Headers := .new

namespace Unary

variable {O : Type}

/-- The callbacks of `grpc.unary` and of the signal. -/
def handle (call : Unary O) : ClientEvent O → Unary O
  | .headers metadata => { call with responseHeaders := some metadata }
  | .message message => { call with responseMessage := some message }
  | .ended status statusMessage trailers =>
    { call with
      request := call.request.resolvePending
        { status, statusMessage, trailers
          headers := call.responseHeaders.getD ⟨[]⟩
          message := call.responseMessage } }
  | .abort reason => { call with request := call.request.rejectPending reason.rejection }

/-- The handler of `then`. -/
def onOutput (call : Unary O) (output : UnaryOutput O) : Unary O :=
  let call :=
    { call with
      defHeader := call.defHeader.resolvePending output.headers.headersMap
      defTrailer := call.defTrailer.resolvePending output.headers.headersMap
      defStatus := call.defStatus.resolvePending
        ⟨some output.status.name, output.statusMessage⟩ }
  if output.status ≠ .ok then
    { call with reaction := .catching (.rpc output.statusMessage (some output.status.name)) }
  else
    match output.message with
    | some message =>
      { call with defMessage := call.defMessage.resolvePending message, reaction := .done }
    | none => { call with reaction := .done }

/-- The error with the names of the method. -/
def named (methodName serviceName : String) (error : Rejection) : Rejection :=
  match error.error with
  | .rpc e =>
    { error with
      error := .rpc { e with methodName := some methodName, serviceName := some serviceName } }
  | _ => error

/-- The handler of `catch`. It throws where the names cannot be set on the error. -/
def onError (methodName serviceName : String) (call : Unary O) (error : Rejection) : Unary O :=
  if error.writable then
    let error := named methodName serviceName error
    { call with
      defHeader := call.defHeader.rejectPending error
      defMessage := call.defMessage.rejectPending error
      defStatus := call.defStatus.rejectPending error
      defTrailer := call.defTrailer.rejectPending error
      reaction := .done }
  else { call with reaction := .done }

/-- The next handler of the request runs. -/
def react (methodName serviceName : String) (call : Unary O) : Option (Unary O) :=
  match call.reaction, call.request.settlements.head? with
  | .waiting, some (.ok output) => some (call.onOutput output)
  | .waiting, some (.error error) => some { call with reaction := .catching error }
  | .catching error, _ => some (call.onError methodName serviceName error)
  | _, _ => none

inductive Event (O : Type)
  | client (event : ClientEvent O)
  | react

def step (methodName serviceName : String) (signal : Bool) (s : CallState (Unary O)) :
    Event O → Option (CallState (Unary O))
  | .client event => s.step handle signal event
  | .react => (s.promises.react methodName serviceName).map ({ s with promises := · })

/-- No promise is pending, and each was settled once. -/
structure Settled (call : Unary O) : Prop where
  header : call.defHeader.SettledOnce
  message : call.defMessage.SettledOnce
  status : call.defStatus.SettledOnce
  trailer : call.defTrailer.SettledOnce

end Unary

end CereDdc
