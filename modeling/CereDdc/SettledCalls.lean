import CereDdc.WebsocketTransport

/-!
# Settled calls — when the promises of a call are all settled

A call is over when the client has ended it or the caller has aborted it. Whatever
the events, the headers, status and trailers are settled then. The message is where
the three kinds of call differ.
-/

namespace CereDdc

open Kit (Deferred)

variable {O : Type} {number : String → Option Nat} {signal : Bool}

namespace GrpcClient

theorem over_next_ended {client : GrpcClient} {status : GrpcStatus} {statusMessage : String}
    {trailers : Metadata} :
    (client.next (.ended status statusMessage trailers : ClientEvent O)).Over := .inl rfl

theorem over_next_abort {client : GrpcClient} {reason : AbortReason} :
    (client.next (.abort reason : ClientEvent O)).Over := .inr rfl

/-- The client reports nothing once the call is over, but an abort may still come after the end. -/
theorem not_over_of_reports {client : GrpcClient} {event : ClientEvent O}
    (h : client.reports signal event = true) (hevent : ∀ reason, event ≠ .abort reason) :
    client.ended = none ∧ client.closed = false := by
  cases event with
  | headers metadata => simpa [reports] using h
  | message message => simpa [reports] using h
  | ended status statusMessage trailers =>
    simp only [reports, Bool.and_eq_true, Option.isNone_iff_eq_none, Bool.not_eq_true'] at h
    exact h.1
  | abort reason => exact absurd rfl (hevent reason)

/-- A good end comes after the headers. -/
theorem hasHeaders_of_ended {client : GrpcClient} {statusMessage : String} {trailers : Metadata}
    (h : client.reports signal (.ended .ok statusMessage trailers : ClientEvent O) = true) :
    client.hasHeaders = true := by
  have hopen := not_over_of_reports h (by simp)
  simpa [reports, hopen.1, hopen.2] using h

theorem not_over {client : GrpcClient} (h : client.ended = none ∧ client.closed = false) :
    ¬ client.Over := by
  simp [Over, h.1, h.2]

end GrpcClient

theorem CallState.step_eq_some {D : Type} {handle : D → ClientEvent O → D} {s t : CallState D}
    {event : ClientEvent O} (h : s.step handle signal event = some t) :
    s.client.reports signal event = true ∧ t.client = s.client.next event ∧
      t.received = (s.received || event.isMessage) ∧ t.promises = handle s.promises event := by
  unfold CallState.step at h
  split at h
  · next hreports =>
    cases h
    exact ⟨hreports, rfl, rfl, rfl⟩
  · cases h

theorem settledOnce_onHeaders {defHeader : Deferred Rejection Headers} {metadata : Metadata} :
    (onHeaders number defHeader metadata).SettledOnce := by
  unfold onHeaders
  split
  · simp
  · split <;> simp

/-! ## `clientStreaming` -/

namespace ClientStreaming

variable {s t : CallState (ClientStreaming O)} {event : ClientEvent O}
  {events : List (ClientEvent O)}

/-- After the end or the abort every promise is settled once, and a message that was resolved has
come in, or the call has ended well. -/
structure Proper (s : CallState (ClientStreaming O)) : Prop where
  settled : s.client.Over → s.promises.Settled
  resolved : ∀ message, s.promises.defMessage.Resolved message →
    s.client.ended = some .ok ∨ s.received = true

/-- If the event is the good end of the call, a message has come in before it. -/
def EndsWithMessage (s : CallState (ClientStreaming O)) (event : ClientEvent O) : Prop :=
  ∀ statusMessage trailers, event = .ended .ok statusMessage trailers → s.received = true

/-- What settles the promises. -/
structure Kept (s : CallState (ClientStreaming O)) : Prop where
  header : s.client.hasHeaders = true ∨ s.client.Over → s.promises.defHeader.SettledOnce
  status : s.client.Over → s.promises.defStatus.SettledOnce
  trailer : s.client.Over → s.promises.defTrailer.SettledOnce
  message : s.promises.defMessage.SettledOnce ↔
    s.received = true ∨ s.client.closed = true ∨
      ∃ status, s.client.ended = some status ∧ status ≠ .ok
  resolved : ∀ message, s.promises.defMessage.Resolved message → s.received = true

theorem kept_initial : Kept ({ promises := {} } : CallState (ClientStreaming O)) where
  header := by simp [GrpcClient.Over]
  status := by simp [GrpcClient.Over]
  trailer := by simp [GrpcClient.Over]
  message := by simp
  resolved := fun message h => absurd h Deferred.not_resolved_new

/-- An error settles all that is pending, and resolves nothing. -/
theorem Kept.emitError {error : Rejection} (hs : Kept s)
    (hpromises : t.promises = s.promises.emitError error) (hreceived : t.received = s.received)
    (hclient : t.client.closed = true ∨ ∃ status, t.client.ended = some status ∧ status ≠ .ok) :
    Kept t where
  header := by
    intro _
    rw [hpromises]
    exact Deferred.settledOnce_rejectPending
  status := by
    intro _
    rw [hpromises]
    exact Deferred.settledOnce_rejectPending
  trailer := by
    intro _
    rw [hpromises]
    exact Deferred.settledOnce_rejectPending
  message := by
    rw [hpromises]
    exact ⟨fun _ => .inr hclient, fun _ => Deferred.settledOnce_rejectPending⟩
  resolved := by
    intro message hmessage
    rw [hpromises] at hmessage
    rw [hreceived]
    exact hs.resolved message (Deferred.resolved_rejectPending.mp hmessage)

theorem Kept.step (hs : Kept s) (h : s.step (handle number) signal event = some t) : Kept t := by
  obtain ⟨hreports, hclient, hreceived, hpromises⟩ := CallState.step_eq_some h
  cases event with
  | headers metadata =>
    have hover := GrpcClient.not_over (GrpcClient.not_over_of_reports hreports (by simp))
    rw [handle] at hpromises
    constructor
    · intro _
      rw [hpromises]
      exact settledOnce_onHeaders
    · rw [hclient]
      exact fun hover' => absurd hover' hover
    · rw [hclient]
      exact fun hover' => absurd hover' hover
    · rw [hpromises, hclient, hreceived]
      simpa [GrpcClient.next, ClientEvent.isMessage] using hs.message
    · rw [hpromises, hreceived]
      simpa [ClientEvent.isMessage] using hs.resolved
  | message message =>
    have hover := GrpcClient.not_over (GrpcClient.not_over_of_reports hreports (by simp))
    rw [handle] at hpromises
    constructor
    · rw [hpromises, hclient]
      exact hs.header
    · rw [hclient]
      exact fun hover' => absurd hover' hover
    · rw [hclient]
      exact fun hover' => absurd hover' hover
    · rw [hpromises, hreceived]
      simp [ClientEvent.isMessage]
    · rw [hreceived]
      simp [ClientEvent.isMessage]
  | ended status statusMessage trailers =>
    have hopen := GrpcClient.not_over_of_reports hreports (by simp)
    by_cases hok : status = .ok
    · subst hok
      -- the client has had headers before
      have hheaders := GrpcClient.hasHeaders_of_ended hreports
      rw [handle, if_neg (by simp)] at hpromises
      constructor
      · intro _
        rw [hpromises]
        exact hs.header (.inl hheaders)
      · intro _
        rw [hpromises]
        exact Deferred.settledOnce_resolvePending
      · intro _
        rw [hpromises]
        exact Deferred.settledOnce_resolvePending
      · rw [hpromises, hclient, hreceived]
        have hmessage := hs.message
        simp only [hopen.1, hopen.2] at hmessage
        simpa [GrpcClient.next, ClientEvent.isMessage, hopen.2] using hmessage
      · rw [hpromises, hreceived]
        simpa [ClientEvent.isMessage] using hs.resolved
    · rw [handle, if_pos hok] at hpromises
      refine hs.emitError hpromises (by simpa [ClientEvent.isMessage] using hreceived) (.inr ?_)
      exact ⟨status, by rw [hclient]; rfl, hok⟩
  | abort reason =>
    rw [handle] at hpromises
    refine hs.emitError hpromises (by simpa [ClientEvent.isMessage] using hreceived) (.inl ?_)
    rw [hclient]
    rfl

/-- Only the message may be missing. -/
theorem Kept.proper_iff (hs : Kept s) :
    Proper s ↔ (s.client.Over → s.promises.defMessage.SettledOnce) := by
  constructor
  · intro h hover
    exact (h.settled hover).message
  · intro h
    refine ⟨fun hover => ⟨hs.header (.inr hover), h hover, hs.status hover, hs.trailer hover⟩, ?_⟩
    exact fun message hmessage => .inr (hs.resolved message hmessage)

theorem proper_step_iff (hs : Kept s) (h : s.step (handle number) signal event = some t) :
    Proper t ↔ EndsWithMessage s event := by
  rw [(hs.step h).proper_iff, (hs.step h).message]
  obtain ⟨hreports, hclient, hreceived, -⟩ := CallState.step_eq_some h
  rw [hclient, hreceived]
  cases event with
  | headers metadata =>
    have hover := GrpcClient.not_over (GrpcClient.not_over_of_reports hreports (by simp))
    exact ⟨fun _ _ _ heq => (by cases heq), fun _ hover' => absurd hover' hover⟩
  | message message =>
    have hover := GrpcClient.not_over (GrpcClient.not_over_of_reports hreports (by simp))
    exact ⟨fun _ _ _ heq => (by cases heq), fun _ hover' => absurd hover' hover⟩
  | ended status statusMessage trailers =>
    have hopen := GrpcClient.not_over_of_reports hreports (by simp)
    have hover : (s.client.next (.ended status statusMessage trailers : ClientEvent O)).Over :=
      GrpcClient.over_next_ended
    by_cases hok : status = .ok
    · subst hok
      simp only [hover, true_implies]
      simp [EndsWithMessage, GrpcClient.next, ClientEvent.isMessage, hopen.2]
    · simp [EndsWithMessage, GrpcClient.next, hok]
  | abort reason => simp [EndsWithMessage, GrpcClient.next]

/-- The promises of a call are settled at its end exactly when no call ends well without a
message. -/
theorem proper_iff (h : Kit.run (CallState.step (handle number) signal) { promises := {} } events
    = some t) :
    Kit.Always (CallState.step (handle number) signal) Proper { promises := {} } events ↔
      Kit.EachStep (CallState.step (handle number) signal) EndsWithMessage { promises := {} }
        events := by
  have hproper : Proper ({ promises := {} } : CallState (ClientStreaming O)) :=
    kept_initial.proper_iff.mpr (by simp [GrpcClient.Over])
  exact Kit.always_iff_eachStep (I := Kept) (fun s event t hs h => hs.step h)
    (fun s event t hs _ h => proper_step_iff hs h) kept_initial hproper h

end ClientStreaming

/-! ## `duplex` -/

namespace Duplex

variable {S : Type} {controller : RpcOutputStreamController S O} {s t : CallState (Duplex S)}
  {event : ClientEvent O} {events : List (ClientEvent O)}

/-- After the end or the abort every promise is settled once, and the stream is closed. -/
def Proper (controller : RpcOutputStreamController S O) (s : CallState (Duplex S)) : Prop :=
  s.client.Over → s.promises.Settled controller

structure Kept (controller : RpcOutputStreamController S O) (s : CallState (Duplex S)) : Prop where
  header : s.client.hasHeaders = true → s.promises.defHeader.SettledOnce
  settled : s.client.Over → s.promises.Settled controller

theorem settled_emitError (hcloses : controller.Closes) {call : Duplex S} {error : Rejection} :
    (call.emitError controller error).Settled controller where
  header := Deferred.settledOnce_rejectPending
  status := Deferred.settledOnce_rejectPending
  trailer := Deferred.settledOnce_rejectPending
  outStream := by
    unfold emitError
    split
    · next hclosed => exact hclosed
    · exact hcloses.notifyError _ _

theorem kept_initial :
    Kept controller ({ promises := { outStream := controller.new } } : CallState (Duplex S)) where
  header := by simp
  settled := by simp [GrpcClient.Over]

theorem Kept.step (hcloses : controller.Closes) (hs : Kept controller s)
    (h : s.step (handle controller number) signal event = some t) : Kept controller t := by
  obtain ⟨hreports, hclient, -, hpromises⟩ := CallState.step_eq_some h
  cases event with
  | headers metadata =>
    have hover := GrpcClient.not_over (GrpcClient.not_over_of_reports hreports (by simp))
    rw [handle] at hpromises
    constructor
    · intro _
      rw [hpromises]
      exact settledOnce_onHeaders
    · rw [hclient]
      exact fun hover' => absurd hover' hover
  | message message =>
    have hover := GrpcClient.not_over (GrpcClient.not_over_of_reports hreports (by simp))
    rw [handle] at hpromises
    constructor
    · rw [hpromises, hclient]
      exact hs.header
    · rw [hclient]
      exact fun hover' => absurd hover' hover
  | ended status statusMessage trailers =>
    have hopen := GrpcClient.not_over_of_reports hreports (by simp)
    by_cases hok : status = .ok
    · subst hok
      have hheaders := GrpcClient.hasHeaders_of_ended hreports
      rw [handle, if_neg (by simp)] at hpromises
      have hheader : t.promises.defHeader.SettledOnce := by
        rw [hpromises]
        exact hs.header hheaders
      refine ⟨fun _ => hheader, fun _ => ⟨hheader, ?_, ?_, ?_⟩⟩
      · rw [hpromises]
        exact Deferred.settledOnce_resolvePending
      · rw [hpromises]
        exact Deferred.settledOnce_resolvePending
      · rw [hpromises]
        show controller.closed (if _ then _ else _) = true
        split
        · next hclosed => exact hclosed
        · exact hcloses.notifyComplete _
    · rw [handle, if_pos hok] at hpromises
      have hsettled : t.promises.Settled controller := hpromises ▸ settled_emitError hcloses
      exact ⟨fun _ => hsettled.header, fun _ => hsettled⟩
  | abort reason =>
    rw [handle] at hpromises
    have hsettled : t.promises.Settled controller := hpromises ▸ settled_emitError hcloses
    exact ⟨fun _ => hsettled.header, fun _ => hsettled⟩

theorem always_proper (hcloses : controller.Closes) :
    Kit.Always (CallState.step (handle controller number) signal) (Proper controller)
      { promises := { outStream := controller.new } } events := by
  intro first _ u hu
  exact (Kit.run_invariant (fun _ _ _ hs h => hs.step hcloses h) kept_initial hu :
    Kept controller u).settled

end Duplex

/-! ## `unary` -/

namespace Unary

variable {methodName serviceName : String} {s t : CallState (Unary O)} {event : Event O}
  {events : List (Event O)} {call : Unary O} {output : UnaryOutput O} {error : Rejection}

/-- Once the handlers of the request have run every promise is settled once, and a message that
was resolved has come in, or the call has ended well. -/
structure Proper (s : CallState (Unary O)) : Prop where
  settled : s.promises.reaction = .done → s.promises.Settled
  resolved : ∀ message, s.promises.defMessage.Resolved message →
    s.client.ended = some .ok ∨ s.received = true

/-- The output of a call that ends well has a message, and an error can take the names of the
method. -/
def ReactsWell (s : CallState (Unary O)) (event : Event O) : Prop :=
  event = .react →
    (∀ output, s.promises.reaction = .waiting →
      s.promises.request.settlements = [.ok output] → output.status = .ok →
      output.message.isSome = true) ∧
    ∀ error, s.promises.reaction = .catching error → error.writable = true

/-- What the handlers rely on. -/
structure Kept (s : CallState (Unary O)) : Prop where
  request : s.promises.request.SettledOnce ↔ s.client.Over
  output : ∀ output, s.promises.request.settlements = [.ok output] → output.message.isSome = true →
    s.received = true
  response : s.promises.responseMessage.isSome = true → s.received = true
  started : s.promises.reaction ≠ .waiting → s.client.Over
  pending : s.promises.reaction ≠ .done → ¬ s.promises.defMessage.SettledOnce
  resolved : ∀ message, s.promises.defMessage.Resolved message → s.received = true

theorem kept_initial : Kept ({ promises := {} } : CallState (Unary O)) where
  request := by simp [GrpcClient.Over]
  output := by simp [Deferred.new]
  response := by simp
  started := by simp
  pending := by simp
  resolved := fun message h => absurd h Deferred.not_resolved_new

/-- What a handler of the request does. -/
inductive Reacts (methodName serviceName : String) (call : Unary O) : Unary O → Prop
  | output {output : UnaryOutput O} (hreaction : call.reaction = .waiting)
    (hrequest : call.request.settlements = [.ok output]) :
    Reacts methodName serviceName call (call.onOutput output)
  | rejected {error : Rejection} (hreaction : call.reaction = .waiting)
    (hrequest : call.request.settlements = [.error error]) :
    Reacts methodName serviceName call { call with reaction := .catching error }
  | caught {error : Rejection} (hreaction : call.reaction = .catching error) :
    Reacts methodName serviceName call (call.onError methodName serviceName error)

theorem reacts_of_react {call' : Unary O} (h : call.react methodName serviceName = some call') :
    Reacts methodName serviceName call call' := by
  unfold react at h
  split at h
  · next output hreaction hhead =>
    cases h
    exact .output hreaction (Deferred.settlements_of_head? hhead)
  · next error hreaction hhead =>
    cases h
    exact .rejected hreaction (Deferred.settlements_of_head? hhead)
  · next error _ hreaction =>
    cases h
    exact .caught hreaction
  · cases h

@[simp] theorem onOutput_request : (call.onOutput output).request = call.request := by
  unfold onOutput
  split
  · rfl
  · split <;> rfl

@[simp] theorem onOutput_responseMessage :
    (call.onOutput output).responseMessage = call.responseMessage := by
  unfold onOutput
  split
  · rfl
  · split <;> rfl

@[simp] theorem onError_request :
    (call.onError methodName serviceName error).request = call.request := by
  unfold onError
  split <;> rfl

@[simp] theorem onError_responseMessage :
    (call.onError methodName serviceName error).responseMessage = call.responseMessage := by
  unfold onError
  split <;> rfl

@[simp] theorem onError_reaction :
    (call.onError methodName serviceName error).reaction = .done := by
  unfold onError
  split <;> rfl

/-- An output that is not the end of the matter leaves the message pending. -/
theorem onOutput_bad (h : output.status ≠ .ok) :
    (call.onOutput output).reaction ≠ .done ∧ (call.onOutput output).reaction ≠ .waiting ∧
      (call.onOutput output).defMessage = call.defMessage := by
  unfold onOutput
  simp [h]

theorem onOutput_ok (h : output.status = .ok) :
    (call.onOutput output).reaction = .done ∧
      (call.onOutput output).defMessage
        = (output.message.map call.defMessage.resolvePending).getD call.defMessage ∧
      (call.onOutput output).defHeader.SettledOnce ∧
      (call.onOutput output).defStatus.SettledOnce ∧
      (call.onOutput output).defTrailer.SettledOnce := by
  unfold onOutput
  cases hmessage : output.message <;> simp [h]

/-- A good end settles everything if it has a message. -/
theorem settled_onOutput_iff (h : output.status = .ok) (hcall : ¬ call.defMessage.SettledOnce) :
    (call.onOutput output).Settled ↔ output.message.isSome = true := by
  obtain ⟨-, hmessage, hheader, hstatus, htrailer⟩ :=
    (onOutput_ok h : (call.onOutput output).reaction = .done ∧ _)
  constructor
  · intro hsettled
    have honce := hsettled.message
    rw [hmessage] at honce
    cases houtput : output.message with
    | none =>
      rw [houtput] at honce
      exact absurd honce hcall
    | some message => rfl
  · intro hsome
    obtain ⟨message, houtput⟩ := Option.isSome_iff_exists.mp hsome
    refine ⟨hheader, ?_, hstatus, htrailer⟩
    rw [hmessage, houtput]
    exact Deferred.settledOnce_resolvePending

/-- An error settles everything if the names can be set on it. -/
theorem settled_onError_iff (hcall : ¬ call.defMessage.SettledOnce) :
    (call.onError methodName serviceName error).Settled ↔ error.writable = true := by
  unfold onError
  constructor
  · intro hsettled
    by_contra hwritable
    rw [if_neg hwritable] at hsettled
    exact hcall hsettled.message
  · intro hwritable
    rw [if_pos hwritable]
    exact ⟨Deferred.settledOnce_rejectPending, Deferred.settledOnce_rejectPending,
      Deferred.settledOnce_rejectPending, Deferred.settledOnce_rejectPending⟩

theorem resolved_onError {message : O} :
    (call.onError methodName serviceName error).defMessage.Resolved message ↔
      call.defMessage.Resolved message := by
  unfold onError
  split
  · exact Deferred.resolved_rejectPending
  · exact Iff.rfl

theorem Kept.step_client {event : ClientEvent O} (hs : Kept s)
    (h : s.step handle signal event = some t) : Kept t := by
  obtain ⟨hreports, hclient, hreceived, hpromises⟩ := CallState.step_eq_some h
  cases event with
  | headers metadata =>
    rw [handle] at hpromises
    simp only [ClientEvent.isMessage, Bool.or_false] at hreceived
    constructor <;> rw [hpromises]
    · rw [hclient]
      exact hs.request
    · rw [hreceived]
      exact hs.output
    · rw [hreceived]
      exact hs.response
    · rw [hclient]
      exact hs.started
    · exact hs.pending
    · rw [hreceived]
      exact hs.resolved
  | message message =>
    rw [handle] at hpromises
    simp only [ClientEvent.isMessage, Bool.or_true] at hreceived
    constructor <;> rw [hpromises]
    · rw [hclient]
      exact hs.request
    · exact fun _ _ _ => hreceived
    · exact fun _ => hreceived
    · rw [hclient]
      exact hs.started
    · exact hs.pending
    · exact fun _ _ => hreceived
  | ended status statusMessage trailers =>
    have hover := GrpcClient.not_over (GrpcClient.not_over_of_reports hreports (by simp))
    have hempty := Deferred.settlements_nil fun hsettled => hover (hs.request.mp hsettled)
    have hover' : t.client.Over := hclient ▸ GrpcClient.over_next_ended
    rw [handle] at hpromises
    simp only [ClientEvent.isMessage, Bool.or_false] at hreceived
    constructor <;> rw [hpromises]
    · exact ⟨fun _ => hover', fun _ => Deferred.settledOnce_resolvePending⟩
    · intro output houtput hsome
      simp only [Deferred.resolvePending, Deferred.settlePending, hempty, List.isEmpty_nil,
        if_true, List.cons.injEq, Except.ok.injEq, and_true] at houtput
      subst houtput
      rw [hreceived]
      exact hs.response hsome
    · rw [hreceived]
      exact hs.response
    · exact fun _ => hover'
    · exact hs.pending
    · rw [hreceived]
      exact hs.resolved
  | abort reason =>
    have hover' : t.client.Over := hclient ▸ GrpcClient.over_next_abort
    rw [handle] at hpromises
    simp only [ClientEvent.isMessage, Bool.or_false] at hreceived
    constructor <;> rw [hpromises]
    · exact ⟨fun _ => hover', fun _ => Deferred.settledOnce_rejectPending⟩
    · intro output houtput
      rw [hreceived]
      exact hs.output output (Deferred.resolved_rejectPending.mp houtput)
    · rw [hreceived]
      exact hs.response
    · exact fun _ => hover'
    · exact hs.pending
    · rw [hreceived]
      exact hs.resolved

theorem Kept.step_react {call' : Unary O} (hs : Kept s)
    (h : Reacts methodName serviceName s.promises call') : Kept { s with promises := call' } := by
  cases h with
  | @output output hreaction hrequest =>
    have hsettled : s.promises.request.SettledOnce := by
      rw [Deferred.SettledOnce, hrequest]
      rfl
    have hpending := hs.pending (by simp [hreaction])
    constructor
    · rw [onOutput_request]
      exact hs.request
    · rw [onOutput_request]
      exact hs.output
    · rw [onOutput_responseMessage]
      exact hs.response
    · exact fun _ => hs.request.mp hsettled
    · intro hdone
      by_cases hok : output.status = .ok
      · exact absurd (onOutput_ok hok).1 hdone
      · show ¬ (s.promises.onOutput output).defMessage.SettledOnce
        rw [(onOutput_bad hok).2.2]
        exact hpending
    · intro message hmessage
      change (s.promises.onOutput output).defMessage.Resolved message at hmessage
      by_cases hok : output.status = .ok
      · rw [(onOutput_ok hok).2.1] at hmessage
        cases houtput : output.message with
        | none =>
          rw [houtput] at hmessage
          exact hs.resolved message hmessage
        | some m => exact hs.output output hrequest (by simp [houtput])
      · rw [(onOutput_bad hok).2.2] at hmessage
        exact hs.resolved message hmessage
  | @rejected error hreaction hrequest =>
    have hsettled : s.promises.request.SettledOnce := by
      rw [Deferred.SettledOnce, hrequest]
      rfl
    exact ⟨hs.request, hs.output, hs.response, fun _ => hs.request.mp hsettled,
      fun _ => hs.pending (by simp [hreaction]), hs.resolved⟩
  | @caught error hreaction =>
    constructor
    · rw [onError_request]
      exact hs.request
    · rw [onError_request]
      exact hs.output
    · rw [onError_responseMessage]
      exact hs.response
    · exact fun _ => hs.started (by simp [hreaction])
    · exact fun hdone => absurd onError_reaction hdone
    · intro message hmessage
      exact hs.resolved message (resolved_onError.mp hmessage)

theorem step_react_eq_some (h : step methodName serviceName signal s .react = some t) :
    ∃ call', Reacts methodName serviceName s.promises call' ∧ t = { s with promises := call' } := by
  simp only [step, Option.map_eq_some_iff] at h
  obtain ⟨call', hreact, rfl⟩ := h
  exact ⟨call', reacts_of_react hreact, rfl⟩

theorem Kept.step (hs : Kept s) (h : step methodName serviceName signal s event = some t) :
    Kept t := by
  cases event with
  | client event => exact hs.step_client h
  | react =>
    obtain ⟨call', hreacts, rfl⟩ := step_react_eq_some h
    exact hs.step_react hreacts

theorem Kept.proper_iff (hs : Kept s) :
    Proper s ↔ (s.promises.reaction = .done → s.promises.Settled) :=
  ⟨fun h => h.settled, fun h => ⟨h, fun message hmessage => .inr (hs.resolved message hmessage)⟩⟩

/-- The callbacks leave the promises to the handlers. -/
theorem handle_settled {event : ClientEvent O} (h : call.Settled) :
    (call.handle event).Settled := by
  cases event <;> exact ⟨h.header, h.message, h.status, h.trailer⟩

theorem handle_reaction {event : ClientEvent O} : (call.handle event).reaction = call.reaction := by
  cases event <;> rfl

theorem proper_step_iff (hs : Kept s) (hproper : Proper s)
    (h : step methodName serviceName signal s event = some t) :
    Proper t ↔ ReactsWell s event := by
  rw [(hs.step h).proper_iff]
  cases event with
  | client event =>
    obtain ⟨-, -, -, hpromises⟩ := CallState.step_eq_some h
    rw [hpromises, handle_reaction]
    constructor
    · intro _ heq
      cases heq
    · intro _ hdone
      exact handle_settled (hproper.settled hdone)
  | react =>
    obtain ⟨call', hreacts, rfl⟩ := step_react_eq_some h
    cases hreacts with
    | @output output hreaction hrequest =>
      have hpending := hs.pending (by simp [hreaction])
      have hwell : ReactsWell s .react ↔ (output.status = .ok → output.message.isSome = true) := by
        simp [ReactsWell, hreaction, hrequest]
      rw [hwell]
      by_cases hok : output.status = .ok
      · rw [← settled_onOutput_iff hok hpending]
        exact ⟨fun hset _ => hset (onOutput_ok hok).1, fun hset _ => hset hok⟩
      · exact ⟨fun _ hok' => absurd hok' hok, fun _ hdone => absurd hdone (onOutput_bad hok).1⟩
    | @rejected error hreaction hrequest =>
      have hwell : ReactsWell s .react := by
        simp [ReactsWell, hreaction, hrequest]
      exact ⟨fun _ => hwell, fun _ hdone => by cases hdone⟩
    | @caught error hreaction =>
      have hpending := hs.pending (by simp [hreaction])
      have hwell : ReactsWell s .react ↔ error.writable = true := by
        simp [ReactsWell, hreaction]
      rw [hwell, ← settled_onError_iff hpending]
      exact ⟨fun hset => hset onError_reaction, fun hset _ => hset⟩

/-- The promises of a call are settled once the handlers have run, exactly when each of them runs
on an output with a message or an error that takes the names. -/
theorem proper_iff (h : Kit.run (step methodName serviceName signal) { promises := {} } events
    = some t) :
    Kit.Always (step methodName serviceName signal) Proper { promises := {} } events ↔
      Kit.EachStep (step methodName serviceName signal) ReactsWell { promises := {} } events := by
  have hproper : Proper ({ promises := {} } : CallState (Unary O)) :=
    kept_initial.proper_iff.mpr (by simp)
  exact Kit.always_iff_eachStep (I := Kept) (fun s event t hs h => hs.step h)
    (fun s event t hs hproper h => proper_step_iff hs hproper h) kept_initial hproper h

/-- Once the call is over the handlers run to their end. -/
theorem reaches_done (hs : Kept s) (hover : s.client.Over) :
    ∃ t, Kit.ReachesBy (step methodName serviceName signal) (· = .react) s t ∧
      t.client = s.client ∧ t.promises.reaction = .done := by
  have hcatch : ∀ (u : CallState (Unary O)) error, u.promises.reaction = .catching error →
      ∃ t, Kit.ReachesBy (step methodName serviceName signal) (· = .react) u t ∧
        t.client = u.client ∧ t.promises.reaction = .done := by
    intro u error hreaction
    have hstep : step methodName serviceName signal u .react
        = some { u with promises := u.promises.onError methodName serviceName error } := by
      simp [step, react, hreaction]
    exact ⟨_, .single rfl hstep, rfl, onError_reaction⟩
  cases hreaction : s.promises.reaction with
  | done => exact ⟨s, .refl s, rfl, hreaction⟩
  | catching error => exact hcatch s error hreaction
  | waiting =>
    have hsettled := hs.request.mpr hover
    obtain ⟨first, hrequest⟩ := List.length_eq_one_iff.mp hsettled
    cases first with
    | error error =>
      have hstep : step methodName serviceName signal s .react
          = some { s with promises := { s.promises with reaction := .catching error } } := by
        simp [step, react, hreaction, hrequest]
      obtain ⟨t, ht, hclient, hdone⟩ :=
        hcatch { s with promises := { s.promises with reaction := .catching error } } error rfl
      exact ⟨t, .trans (.single rfl hstep) ht, hclient, hdone⟩
    | ok output =>
      have hstep : step methodName serviceName signal s .react
          = some { s with promises := s.promises.onOutput output } := by
        simp [step, react, hreaction, hrequest]
      by_cases hok : output.status = .ok
      · exact ⟨_, .single rfl hstep, rfl, (onOutput_ok hok).1⟩
      · cases hnext : (s.promises.onOutput output).reaction with
        | done => exact absurd hnext (onOutput_bad hok).1
        | waiting => exact absurd hnext (onOutput_bad hok).2.1
        | catching error =>
          obtain ⟨t, ht, hclient, hdone⟩ :=
            hcatch { s with promises := s.promises.onOutput output } error hnext
          exact ⟨t, .trans (.single rfl hstep) ht, hclient, hdone⟩

end Unary

/-! ## All three kinds -/

section

variable {S : Type} {methodName serviceName : String} {streamed : List (ClientEvent O)}
  {single : List (Unary.Event O)} {s : CallState (ClientStreaming O)} {t : CallState (Unary O)}

/-- When the promises of a call are settled after its end or its abort: a `duplex` call always
settles them and closes its stream, a `clientStreaming` call unless it ends well without a
message, and a `unary` call unless it does that or its abort has a reason that cannot take the
names of the method. -/
theorem calls_settled_iff {controller : RpcOutputStreamController S O}
    (hcloses : controller.Closes)
    (hstreamed : Kit.run (CallState.step (ClientStreaming.handle number) signal) { promises := {} }
      streamed = some s)
    (hsingle : Kit.run (Unary.step methodName serviceName signal) { promises := {} } single
      = some t) :
    (Kit.Always (CallState.step (ClientStreaming.handle number) signal) ClientStreaming.Proper
        { promises := {} } streamed ↔
      Kit.EachStep (CallState.step (ClientStreaming.handle number) signal)
        ClientStreaming.EndsWithMessage { promises := {} } streamed) ∧
    (∀ events : List (ClientEvent O),
      Kit.Always (CallState.step (Duplex.handle controller number) signal)
        (Duplex.Proper controller) { promises := { outStream := controller.new } } events) ∧
    (Kit.Always (Unary.step methodName serviceName signal) Unary.Proper { promises := {} } single ↔
      Kit.EachStep (Unary.step methodName serviceName signal) Unary.ReactsWell { promises := {} }
        single) ∧
    (t.client.Over → ∃ u,
      Kit.ReachesBy (Unary.step methodName serviceName signal) (· = .react) t u ∧
        u.promises.reaction = .done) := by
  refine ⟨ClientStreaming.proper_iff hstreamed, fun _ => Duplex.always_proper hcloses,
    Unary.proper_iff hsingle, ?_⟩
  intro hover
  have hkept : Unary.Kept t :=
    Kit.run_invariant (fun _ _ _ hs h => hs.step h) Unary.kept_initial hsingle
  obtain ⟨u, hreaches, -, hdone⟩ := Unary.reaches_done hkept hover
  exact ⟨u, hreaches, hdone⟩

end

/-- A stream of the messages it was told of, and how it was closed. -/
def messageStream (O : Type) :
    RpcOutputStreamController (List O × Option (Except Rejection Unit)) O where
  new := ([], none)
  closed stream := stream.2.isSome
  notifyMessage stream message :=
    if stream.2.isSome then stream else (stream.1 ++ [message], none)
  notifyError stream error := (stream.1, some (stream.2.getD (.error error)))
  notifyComplete stream := (stream.1, some (stream.2.getD (.ok ())))

theorem messageStream_closes : (messageStream O).Closes where
  notifyError := fun _ _ => rfl
  notifyComplete := fun _ => rfl

/-- Headers, a message and a good end. -/
def answered : List (ClientEvent String) :=
  [.headers ⟨[]⟩, .message "response", .ended .ok "" ⟨[]⟩]

/-- Headers and a good end. -/
def unanswered : List (ClientEvent String) := [.headers ⟨[]⟩, .ended .ok "" ⟨[]⟩]

theorem answered_settled :
    Kit.Always (CallState.step (ClientStreaming.handle String.toNat?) true) ClientStreaming.Proper
        { promises := {} } answered ∧
      Kit.Always (CallState.step (Duplex.handle (messageStream String) String.toNat?) true)
        (Duplex.Proper (messageStream String)) { promises := { outStream := ([], none) } }
        answered ∧
      Kit.Always (Unary.step "method" "service" true) Unary.Proper { promises := {} }
        (answered.map .client ++ [.react]) := by
  have hstreamed : Kit.run (CallState.step (ClientStreaming.handle String.toNat?) true)
      { promises := {} } answered = some _ := rfl
  have hsingle : Kit.run (Unary.step "method" "service" true) { promises := {} }
      (answered.map .client ++ [.react]) = some _ := rfl
  obtain ⟨hstreaming, hduplex, hunary, -⟩ :=
    calls_settled_iff messageStream_closes hstreamed hsingle
  refine ⟨hstreaming.mpr ?_, hduplex answered, hunary.mpr ?_⟩
  · refine .cons (fun _ _ h => by cases h) rfl ?_
    refine .cons (fun _ _ h => by cases h) rfl ?_
    exact .cons (fun _ _ _ => rfl) rfl trivial
  · refine .cons (fun h => by cases h) rfl ?_
    refine .cons (fun h => by cases h) rfl ?_
    refine .cons (fun h => by cases h) rfl ?_
    refine .cons (fun _ => ⟨?_, ?_⟩) rfl trivial
    · intro output _ hrequest _
      cases hrequest
      rfl
    · intro error hcatching
      cases hcatching

/-- A call that ends well without a message leaves the promise of the message pending. -/
theorem unanswered_pending :
    (∃ s, Kit.run (CallState.step (ClientStreaming.handle String.toNat?) true)
        { promises := {} } unanswered = some s ∧
      s.client.Over ∧ ¬ s.promises.defMessage.SettledOnce) ∧
    ∃ t, Kit.run (Unary.step "method" "service" true) { promises := {} }
        (unanswered.map .client ++ [.react]) = some t ∧
      t.promises.reaction = .done ∧ ¬ t.promises.defMessage.SettledOnce :=
  ⟨⟨_, rfl, .inl rfl, by decide⟩, ⟨_, rfl, rfl, by decide⟩⟩

end CereDdc
