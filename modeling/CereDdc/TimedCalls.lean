import CereDdc.SettledCalls

/-!
# TimedCalls — `transports/TimeoutInterceptor.ts`

A streaming call of `WebsocketTransport` with the interceptor in front of it: the
timer, the signal of the caller and the signal that the call gets of both. Callbacks
run one at a time, and a handler of a promise runs before the next of them. Timers may
be late.
-/

namespace CereDdc

open Kit (Deferred)

/-! ## The interceptor -/

/-- The timer of `TimeoutAbortController`: `timeoutHandle` is set all along, but it is of no effect
any more once the callback has run or the timer was cleared. -/
inductive Timer
  | armed
  | fired
  | cleared
  deriving DecidableEq, Repr

/-- `stop` -/
def Timer.stop : Timer → Timer
  | .armed => .cleared
  | timer => timer

/-- `new RpcError('Request timed out', GrpcStatus[GrpcStatus.CANCELLED])` -/
def requestTimedOut : AbortReason where
  toRejection := .rpc "Request timed out" (some GrpcStatus.cancelled.name)
  truthy := true

/-- What a call is made with: the timeout of the interceptor, whether the options have a signal, and
the reason that a signal has when none was given, an `AbortError`. -/
structure TimeoutOptions where
  timeout : Nat
  abort : Bool
  abortError : AbortReason

/-- The reason of the signal of `composeSignal`: a signal of its own is aborted without one. -/
def TimeoutOptions.composed (options : TimeoutOptions) (reason : AbortReason) : AbortReason :=
  if options.abort then options.abortError else reason

theorem GrpcClient.next_closed {O : Type} {client : GrpcClient} {event : ClientEvent O}
    (h : ∀ reason, event ≠ .abort reason) : (client.next event).closed = client.closed := by
  cases event with
  | abort reason => exact absurd rfl (h reason)
  | _ => rfl

structure TimedCall (D : Type) where
  now : Nat := 0
  timer : Timer := .armed
  /-- The signal of the caller is aborted. -/
  userAborted : Bool
  /-- Why the signal that the call has is aborted. -/
  signal : Option AbortReason := none
  /-- `call.headers.then(controller.stop, controller.stop)` is due. -/
  stopping : Bool := false
  call : CallState D

namespace TimedCall

/-- What happens to a call, one after the other. -/
inductive Event (O : Type)
  /-- a millisecond -/
  | tick
  | timer
  /-- the caller aborts its signal -/
  | abort (reason : AbortReason)
  | client (event : ClientEvent O)
  /-- the handlers of `headers` -/
  | stop

section

variable {O D : Type} (options : TimeoutOptions) (handle : D → ClientEvent O → D)
  (defHeader : D → Deferred Rejection Headers)

/-- The `abort` event of one of the signals, with the listener of the transport. -/
def dispatch (s : TimedCall D) (reason : AbortReason) : TimedCall D :=
  match s.signal with
  | some _ => s
  | none =>
    let reason := options.composed reason
    { s with
      signal := some reason
      call := (s.call.step handle true (.abort reason)).getD s.call }

/-- The end of a callback; its handlers are due if it has settled the headers. -/
def settle (s t : TimedCall D) : TimedCall D :=
  { t with
    stopping :=
      decide (¬ (defHeader s.call.promises).SettledOnce ∧ (defHeader t.call.promises).SettledOnce) }

def step (s : TimedCall D) : Event O → Option (TimedCall D)
  | .stop => if s.stopping then some { s with timer := s.timer.stop, stopping := false } else none
  | .tick => if s.stopping then none else some { s with now := s.now + 1 }
  | .timer =>
    if ¬ s.stopping ∧ s.timer = .armed ∧ options.timeout ≤ s.now then
      some (settle defHeader s (dispatch options handle { s with timer := .fired } requestTimedOut))
    else none
  | .abort reason =>
    if ¬ s.stopping ∧ options.abort ∧ ¬ s.userAborted then
      some (settle defHeader s (dispatch options handle { s with userAborted := true } reason))
    else none
  | .client event =>
    match event with
    | .abort _ => none
    | event =>
      if s.stopping then none
      else (s.call.step handle true event).map fun call => settle defHeader s { s with call }

end

/-- A kind of call whose headers are settled by an abort at the latest, and only once, with the
reason of the abort. The calls of `WebsocketTransport` are such; those of `GrpcTransport` are not,
as its client does not respect the reason. -/
structure SettlesHeaders {O D : Type} (handle : D → ClientEvent O → D)
    (defHeader : D → Deferred Rejection Headers) : Prop where
  abort : ∀ d reason,
    defHeader (handle d (.abort reason)) = (defHeader d).rejectPending reason.rejection
  keep : ∀ d event, (defHeader d).SettledOnce → defHeader (handle d event) = defHeader d

section

variable {O D : Type} {options : TimeoutOptions} {handle : D → ClientEvent O → D}
  {defHeader : D → Deferred Rejection Headers} {s t u : TimedCall D} {event : Event O}
  {events : List (Event O)}

/-! ## What one step does -/

/-- The steps, one by one. -/
inductive Steps (options : TimeoutOptions) (handle : D → ClientEvent O → D)
    (defHeader : D → Deferred Rejection Headers) (s : TimedCall D) : Event O → TimedCall D → Prop
  | stop (hstopping : s.stopping = true) : Steps options handle defHeader s .stop
      { s with timer := s.timer.stop, stopping := false }
  | tick (hstopping : s.stopping = false) : Steps options handle defHeader s .tick
      { s with now := s.now + 1 }
  | timer (hstopping : s.stopping = false) (harmed : s.timer = .armed)
      (hdue : options.timeout ≤ s.now) : Steps options handle defHeader s .timer
      (settle defHeader s (dispatch options handle { s with timer := .fired } requestTimedOut))
  | abort (reason : AbortReason) (hstopping : s.stopping = false) (hsignal : options.abort = true)
      (huser : s.userAborted = false) : Steps options handle defHeader s (.abort reason)
      (settle defHeader s (dispatch options handle { s with userAborted := true } reason))
  | client (event : ClientEvent O) (call : CallState D) (hevent : ∀ reason, event ≠ .abort reason)
      (hstopping : s.stopping = false) (hcall : s.call.step handle true event = some call) :
      Steps options handle defHeader s (.client event) (settle defHeader s { s with call })

theorem steps_of_step (h : step options handle defHeader s event = some t) :
    Steps options handle defHeader s event t := by
  cases event with
  | stop =>
    simp only [step, Option.ite_none_right_eq_some, Option.some.injEq] at h
    obtain ⟨hstopping, rfl⟩ := h
    exact .stop hstopping
  | tick =>
    simp only [step, Option.ite_none_left_eq_some, Option.some.injEq, Bool.not_eq_true] at h
    obtain ⟨hstopping, rfl⟩ := h
    exact .tick hstopping
  | timer =>
    simp only [step, Option.ite_none_right_eq_some, Option.some.injEq, Bool.not_eq_true] at h
    obtain ⟨⟨hstopping, harmed, hdue⟩, rfl⟩ := h
    exact .timer hstopping harmed hdue
  | abort reason =>
    simp only [step, Option.ite_none_right_eq_some, Option.some.injEq, Bool.not_eq_true] at h
    obtain ⟨⟨hstopping, hsignal, huser⟩, rfl⟩ := h
    exact .abort reason hstopping hsignal huser
  | client event =>
    have hevent : ∀ reason, event ≠ .abort reason := by
      rintro reason rfl
      cases h
    have hstep : step options handle defHeader s (.client event) = if s.stopping then none
        else (s.call.step handle true event).map
          fun call => settle defHeader s { s with call } := by
      cases event with
      | abort reason => exact absurd rfl (hevent reason)
      | _ => rfl
    rw [hstep] at h
    simp only [Option.ite_none_left_eq_some, Option.map_eq_some_iff, Bool.not_eq_true] at h
    obtain ⟨hstopping, call, hcall, rfl⟩ := h
    exact .client event call hevent hstopping hcall

/-! ## Every run -/

/-- The headers of the call have come in, or will not come in any more. -/
def Settled (defHeader : D → Deferred Rejection Headers) (s : TimedCall D) : Prop :=
  (defHeader s.call.promises).SettledOnce

/-- The timer runs while the headers are waited for, and only then. -/
structure Kept (options : TimeoutOptions) (defHeader : D → Deferred Rejection Headers)
    (s : TimedCall D) : Prop where
  waiting : ¬ Settled defHeader s → s.timer = .armed ∧ s.signal = none
  stopping : s.stopping = true → Settled defHeader s
  disarmed : Settled defHeader s → s.stopping = false → s.timer ≠ .armed
  opened : s.signal = none → s.call.client.closed = false
  fired : s.timer = .fired → (defHeader s.call.promises).settlements
    = [.error (options.composed requestTimedOut).rejection]

theorem kept_initial {start : D} (hstart : ¬ (defHeader start).SettledOnce) (userAborted : Bool) :
    Kept options defHeader { userAborted, call := { promises := start } } where
  waiting := fun _ => ⟨rfl, rfl⟩
  stopping := nofun
  disarmed := fun hsettled => absurd hsettled hstart
  opened := fun _ => rfl
  fired := nofun

theorem dispatch_timer {reason : AbortReason} :
    (dispatch options handle s reason).timer = s.timer := by
  unfold dispatch
  cases s.signal <;> rfl

theorem dispatch_now {reason : AbortReason} : (dispatch options handle s reason).now = s.now := by
  unfold dispatch
  cases s.signal <;> rfl

theorem dispatch_userAborted {reason : AbortReason} :
    (dispatch options handle s reason).userAborted = s.userAborted := by
  unfold dispatch
  cases s.signal <;> rfl

/-- What an abort does to a call whose signal has not been aborted. -/
theorem dispatch_eq (hsignal : s.signal = none) (hopened : s.call.client.closed = false)
    {reason : AbortReason} : dispatch options handle s reason =
      { s with
        signal := some (options.composed reason)
        call :=
          { client := { s.call.client with closed := true }
            received := s.call.received
            promises := handle s.call.promises (.abort (options.composed reason)) } } := by
  have hreports : s.call.client.reports true (.abort (options.composed reason) : ClientEvent O)
      = true := by simp [GrpcClient.reports, hopened]
  unfold dispatch
  rw [hsignal]
  simp only [CallState.step, hreports, if_true, Option.getD_some, ClientEvent.isMessage,
    Bool.or_false]
  rfl

theorem dispatch_of_aborted {reason reason' : AbortReason} (hsignal : s.signal = some reason) :
    dispatch options handle s reason' = s := by
  unfold dispatch
  rw [hsignal]

/-- The end of a callback keeps what the callback itself keeps. -/
theorem Kept.settle (hwaiting : ¬ Settled defHeader t → t.timer = .armed ∧ t.signal = none)
    (hdisarmed : Settled defHeader s → t.timer ≠ .armed)
    (hopened : t.signal = none → t.call.client.closed = false)
    (hfired : t.timer = .fired → (defHeader t.call.promises).settlements
      = [.error (options.composed requestTimedOut).rejection]) :
    Kept options defHeader (settle defHeader s t) where
  waiting := hwaiting
  stopping := fun hstopping => (of_decide_eq_true hstopping).2
  disarmed := by
    intro hsettled hstopping
    have hnot := of_decide_eq_false hstopping
    exact hdisarmed (by_contra fun hs => hnot ⟨hs, hsettled⟩)
  opened := hopened
  fired := hfired

theorem settled_abort (hlaws : SettlesHeaders handle defHeader) {d : D} {reason : AbortReason} :
    (defHeader (handle d (.abort reason))).SettledOnce := by
  rw [hlaws.abort]
  exact Deferred.settledOnce_rejectPending

theorem Kept.settled_of_fired (hs : Kept options defHeader s) (hfired : s.timer = .fired) :
    Settled defHeader s := by
  rw [Settled, Deferred.SettledOnce, hs.fired hfired]
  rfl

theorem Kept.step (hlaws : SettlesHeaders handle defHeader) (hs : Kept options defHeader s)
    (h : step options handle defHeader s event = some t) : Kept options defHeader t := by
  cases steps_of_step h with
  | stop hstopping =>
    have hsettled := hs.stopping hstopping
    have hcleared : s.timer.stop ≠ .armed := by cases s.timer <;> simp [Timer.stop]
    have hfired : s.timer.stop = .fired → s.timer = .fired := by
      cases s.timer <;> simp [Timer.stop]
    exact ⟨fun hwaiting => absurd hsettled hwaiting, (absurd · Bool.false_ne_true),
      fun _ _ => hcleared, hs.opened, fun htimer => hs.fired (hfired htimer)⟩
  | tick hstopping => exact ⟨hs.waiting, hs.stopping, hs.disarmed, hs.opened, hs.fired⟩
  | timer hstopping harmed hdue =>
    have hwaiting : ¬ Settled defHeader s := fun hsettled => hs.disarmed hsettled hstopping harmed
    have hsignal := (hs.waiting hwaiting).2
    rw [dispatch_eq (s := { s with timer := .fired }) hsignal (hs.opened hsignal)]
    refine .settle ?_ (fun hsettled => absurd hsettled hwaiting)
      (absurd · (Option.some_ne_none _)) ?_
    · exact fun hnot => absurd (settled_abort hlaws) hnot
    · intro _
      have hnil := Deferred.settlements_nil hwaiting
      show (defHeader (handle _ _)).settlements = _
      rw [hlaws.abort, Deferred.rejectPending, Deferred.settlePending, hnil]
      rfl
  | abort reason hstopping huser haborted =>
    rcases Option.eq_none_or_eq_some s.signal with hsignal | ⟨earlier, hsignal⟩
    · rw [dispatch_eq (s := { s with userAborted := true }) hsignal (hs.opened hsignal)]
      refine .settle ?_ (fun hsettled => hs.disarmed hsettled hstopping)
        (absurd · (Option.some_ne_none _)) ?_
      · exact fun hnot => absurd (settled_abort hlaws) hnot
      · intro hfired
        show (defHeader (handle _ _)).settlements = _
        rw [hlaws.keep _ _ (hs.settled_of_fired hfired)]
        exact hs.fired hfired
    · rw [dispatch_of_aborted (s := { s with userAborted := true }) hsignal]
      exact .settle hs.waiting (fun hsettled => hs.disarmed hsettled hstopping) hs.opened hs.fired
  | client event call hevent hstopping hcall =>
    obtain ⟨hreports, hclient, -, hpromises⟩ := CallState.step_eq_some hcall
    have hkeep : Settled defHeader s → defHeader call.promises = defHeader s.call.promises := by
      intro hsettled
      rw [hpromises]
      exact hlaws.keep _ event hsettled
    refine .settle ?_ (fun hsettled => hs.disarmed hsettled hstopping) ?_ ?_
    · intro hnot
      refine hs.waiting fun hsettled => hnot ?_
      show (defHeader call.promises).SettledOnce
      rwa [hkeep hsettled]
    · intro hsignal
      show call.client.closed = false
      rw [hclient, GrpcClient.next_closed hevent]
      exact hs.opened hsignal
    · intro hfired
      show (defHeader call.promises).settlements = _
      rw [hkeep (hs.settled_of_fired hfired)]
      exact hs.fired hfired

/-- Once the headers are settled, they stay as they are. -/
theorem Settled.step (hlaws : SettlesHeaders handle defHeader) (hs : Kept options defHeader s)
    (hsettled : Settled defHeader s)
    (h : TimedCall.step options handle defHeader s event = some t) :
    Settled defHeader t ∧ event ≠ .timer ∧
      (t.signal ≠ s.signal → options.abort = true ∧ ∃ reason, event = .abort reason) := by
  cases steps_of_step h with
  | stop hstopping => exact ⟨hsettled, nofun, fun hne => absurd rfl hne⟩
  | tick hstopping => exact ⟨hsettled, nofun, fun hne => absurd rfl hne⟩
  | timer hstopping harmed hdue => exact absurd harmed (hs.disarmed hsettled hstopping)
  | abort reason hstopping huser haborted =>
    refine ⟨?_, nofun, fun _ => ⟨huser, reason, rfl⟩⟩
    rcases Option.eq_none_or_eq_some s.signal with hsignal | ⟨earlier, hsignal⟩
    · rw [dispatch_eq (s := { s with userAborted := true }) hsignal (hs.opened hsignal)]
      exact settled_abort hlaws
    · rw [dispatch_of_aborted (s := { s with userAborted := true }) hsignal]
      exact hsettled
  | client event call hevent hstopping hcall =>
    refine ⟨?_, nofun, fun hne => absurd rfl hne⟩
    obtain ⟨-, -, -, hpromises⟩ := CallState.step_eq_some hcall
    show (defHeader call.promises).SettledOnce
    rw [hpromises, hlaws.keep _ event hsettled]
    exact hsettled

/-- After the headers nothing aborts the call but the caller. -/
theorem Settled.run (hlaws : SettlesHeaders handle defHeader) (hs : Kept options defHeader s)
    (hsettled : Settled defHeader s)
    (h : Kit.run (TimedCall.step options handle defHeader) s events = some t) :
    .timer ∉ events ∧
      (t.signal ≠ s.signal → options.abort = true ∧ ∃ reason, .abort reason ∈ events) := by
  induction events generalizing s with
  | nil =>
    cases h
    exact ⟨List.not_mem_nil, fun hne => absurd rfl hne⟩
  | cons event events ih =>
    obtain ⟨u, hu, ht⟩ := Kit.run_cons_eq_some.mp h
    obtain ⟨hsettled', hevent, hsignal⟩ := hsettled.step hlaws hs hu
    obtain ⟨hevents, hrest⟩ := ih (hs.step hlaws hu) hsettled' ht
    refine ⟨?_, fun hne => ?_⟩
    · intro hmem
      rcases List.mem_cons.mp hmem with heq | hmem
      · exact hevent heq.symm
      · exact hevents hmem
    · by_cases hsame : t.signal = u.signal
      · obtain ⟨huser, reason, rfl⟩ := hsignal (hsame ▸ hne)
        exact ⟨huser, reason, List.mem_cons_self⟩
      · obtain ⟨huser, reason, hmem⟩ := hrest hsame
        exact ⟨huser, reason, List.mem_cons_of_mem _ hmem⟩

/-- The timer of a call that is still waiting for its headers rejects them. -/
theorem Kept.times_out (hlaws : SettlesHeaders handle defHeader) (hs : Kept options defHeader s)
    (hwaiting : ¬ Settled defHeader s) (hdue : options.timeout ≤ s.now) :
    ∃ t, TimedCall.step options handle defHeader s .timer = some t ∧
      (defHeader t.call.promises).settlements
        = [.error (options.composed requestTimedOut).rejection] := by
  obtain ⟨harmed, hsignal⟩ := hs.waiting hwaiting
  have hstopping : s.stopping = false :=
    Bool.eq_false_iff.mpr fun hstopping => hwaiting (hs.stopping hstopping)
  have hstep : TimedCall.step options handle defHeader s .timer = some _ :=
    if_pos ⟨by rw [hstopping]; exact Bool.false_ne_true, harmed, hdue⟩
  refine ⟨_, hstep, (hs.step hlaws hstep).fired ?_⟩
  exact dispatch_timer

/-- A timer that is due runs before the next millisecond. -/
def Punctual (options : TimeoutOptions) (s : TimedCall D) (event : Event O) : Prop :=
  event = .tick → s.timer = .armed → s.now < options.timeout

theorem timer_of_step (h : step options handle defHeader s event = some t)
    (harmed : t.timer = .armed) : s.timer = .armed := by
  cases steps_of_step h with
  | stop hstopping =>
    change s.timer.stop = .armed at harmed
    cases htimer : s.timer <;> simp_all [Timer.stop]
  | tick hstopping => exact harmed
  | timer hstopping hs hdue => exact hs
  | abort reason hstopping huser haborted =>
    exact (dispatch_timer (s := { s with userAborted := true })).symm.trans harmed
  | client event call hevent hstopping hcall => exact harmed

theorem now_le_of_armed (hpunctual : Punctual options s event)
    (hs : s.timer = .armed → s.now ≤ options.timeout)
    (h : step options handle defHeader s event = some t) (harmed : t.timer = .armed) :
    t.now ≤ options.timeout := by
  have hbefore := hs (timer_of_step h harmed)
  cases steps_of_step h with
  | stop hstopping => exact hbefore
  | tick hstopping => exact hpunctual rfl harmed
  | timer hstopping hs hdue => exact Nat.le_trans (Nat.le_of_eq dispatch_now) hbefore
  | abort reason hstopping huser haborted =>
    exact Nat.le_trans (Nat.le_of_eq dispatch_now) hbefore
  | client event call hevent hstopping hcall => exact hbefore

/-- A streaming call is not aborted for its timeout once it has headers. Without them it can be from
the timeout on, and is by then where timers are punctual. -/
theorem headers_in_time (hlaws : SettlesHeaders handle defHeader) {start : D}
    (hstart : ¬ (defHeader start).SettledOnce) {userAborted : Bool}
    (h : Kit.run (step options handle defHeader) { userAborted, call := { promises := start } }
      events = some s) :
    (¬ Settled defHeader s → s.signal = none ∧
      (options.timeout ≤ s.now → ∃ t, step options handle defHeader s .timer = some t ∧
        (defHeader t.call.promises).settlements
          = [.error (options.composed requestTimedOut).rejection]) ∧
      (Kit.EachStep (step options handle defHeader) (Punctual options)
        { userAborted, call := { promises := start } } events → s.now ≤ options.timeout)) ∧
    (Settled defHeader s → ∀ more t, Kit.run (step options handle defHeader) s more = some t →
      .timer ∉ more ∧
        (t.signal ≠ s.signal → options.abort = true ∧ ∃ reason, .abort reason ∈ more)) := by
  have hkept : Kept options defHeader s :=
    Kit.run_invariant (fun _ _ _ hs h => hs.step hlaws h) (kept_initial hstart userAborted) h
  refine ⟨fun hwaiting => ⟨(hkept.waiting hwaiting).2, hkept.times_out hlaws hwaiting, ?_⟩,
    fun hsettled more t hmore => hsettled.run hlaws hkept hmore⟩
  intro hpunctual
  have harmed : s.timer = .armed → s.now ≤ options.timeout :=
    hpunctual.invariant (P := fun s => s.timer = .armed → s.now ≤ options.timeout)
      (fun s event t hp hs hstep => now_le_of_armed hp hs hstep) (fun _ => Nat.zero_le _) h
  exact harmed (hkept.waiting hwaiting).1

/-! ## What is retried -/

/-- What the events so far have made of the timer and of the signal. -/
structure Recorded (options : TimeoutOptions) (userAborted : Bool) (events : List (Event O))
    (s : TimedCall D) : Prop where
  fired : .timer ∈ events → s.timer = .fired
  reason : ∀ reason, s.signal = some reason → reason = options.composed requestTimedOut
  user : userAborted = true → s.userAborted = true ∧ (s.signal ≠ none → .timer ∈ events)

theorem signal_dispatch {reason reason' : AbortReason}
    (h : (dispatch options handle s reason).signal = some reason') :
    s.signal = some reason' ∨ reason' = options.composed reason := by
  rcases Option.eq_none_or_eq_some s.signal with hsignal | ⟨earlier, hsignal⟩
  · unfold dispatch at h
    rw [hsignal] at h
    exact .inr (Option.some.inj h).symm
  · rw [dispatch_of_aborted hsignal] at h
    exact .inl h

theorem Recorded.step {userAborted : Bool} (hs : Recorded options userAborted events s)
    (h : step options handle defHeader s event = some t) :
    Recorded options userAborted (events ++ [event]) t := by
  have hmem : ∀ e : Event O, e ∈ events ++ [event] ↔ e ∈ events ∨ e = event := by simp
  constructor
  · intro htimer
    rw [hmem] at htimer
    cases steps_of_step h with
    | stop hstopping =>
      have hfired := hs.fired (htimer.resolve_right nofun)
      show s.timer.stop = .fired
      rw [hfired]
      rfl
    | tick hstopping => exact hs.fired (htimer.resolve_right nofun)
    | timer hstopping harmed hdue => exact dispatch_timer (s := { s with timer := .fired })
    | abort reason hstopping huser haborted =>
      exact (dispatch_timer (s := { s with userAborted := true })).trans
        (hs.fired (htimer.resolve_right nofun))
    | client event call hevent hstopping hcall => exact hs.fired (htimer.resolve_right nofun)
  · intro reason hreason
    cases steps_of_step h with
    | stop hstopping => exact hs.reason reason hreason
    | tick hstopping => exact hs.reason reason hreason
    | timer hstopping harmed hdue =>
      rcases signal_dispatch (s := { s with timer := .fired }) hreason with hsignal | heq
      · exact hs.reason reason hsignal
      · exact heq
    | abort reason' hstopping huser haborted =>
      rcases signal_dispatch (s := { s with userAborted := true }) hreason with hsignal | heq
      · exact hs.reason reason hsignal
      · rw [heq, TimeoutOptions.composed, TimeoutOptions.composed, if_pos huser, if_pos huser]
    | client event call hevent hstopping hcall => exact hs.reason reason hreason
  · intro hstart
    obtain ⟨haborted, hsource⟩ := hs.user hstart
    rw [hmem]
    cases steps_of_step h with
    | stop hstopping => exact ⟨haborted, fun hne => .inl (hsource hne)⟩
    | tick hstopping => exact ⟨haborted, fun hne => .inl (hsource hne)⟩
    | timer hstopping harmed hdue => exact ⟨dispatch_userAborted.trans haborted, fun _ => .inr rfl⟩
    | abort reason' hstopping huser hnot =>
      rw [haborted] at hnot
      cases hnot
    | client event call hevent hstopping hcall =>
      exact ⟨haborted, fun hne => .inl (hsource hne)⟩

/-- The error of a call that timed out is one that is retried, unless the options have a signal. An
abort of that signal is never retried, and comes to nothing if it was before the call. -/
theorem timedOut_retried_iff (hlaws : SettlesHeaders handle defHeader) {start : D}
    (hstart : ¬ (defHeader start).SettledOnce)
    (hreason : options.abortError.rejection.error.isRetryable = false) {userAborted : Bool}
    (h : Kit.run (step options handle defHeader) { userAborted, call := { promises := start } }
      events = some s) :
    (.timer ∈ events → ∃ e, (defHeader s.call.promises).settlements = [.error e] ∧
      (e.error.isRetryable = true ↔ options.abort = false)) ∧
    (∀ reason, s.signal = some reason →
      (reason.rejection.error.isRetryable = true ↔ options.abort = false)) ∧
    (userAborted = true → s.signal ≠ none → .timer ∈ events) := by
  have hkept : Kept options defHeader s :=
    Kit.run_invariant (fun _ _ _ hs h => hs.step hlaws h) (kept_initial hstart userAborted) h
  have hrecorded : Recorded options userAborted ([] ++ events) s :=
    Kit.run_history (fun _ _ _ _ hs h => hs.step h)
      ⟨by simp, by simp, fun huser => ⟨huser, fun hne => absurd rfl hne⟩⟩ h
  have hretried : (options.composed requestTimedOut).rejection.error.isRetryable = true ↔
      options.abort = false := by
    cases habort : options.abort with
    | false => simp [TimeoutOptions.composed, habort]; decide
    | true => simp [TimeoutOptions.composed, habort, hreason]
  refine ⟨fun htimer => ⟨_, hkept.fired (hrecorded.fired htimer), hretried⟩, ?_,
    fun huser => (hrecorded.user huser).2⟩
  intro reason hsignal
  rw [hrecorded.reason reason hsignal]
  exact hretried

end

end TimedCall

/-! ## The calls of the transport -/

theorem onHeaders_of_settled {number : String → Option Nat} {defHeader : Deferred Rejection Headers}
    {metadata : Metadata} (h : defHeader.SettledOnce) :
    onHeaders number defHeader metadata = defHeader := by
  unfold onHeaders
  split
  · exact Deferred.settlePending_of_settledOnce h
  · split <;> exact Deferred.settlePending_of_settledOnce h

theorem ClientStreaming.settlesHeaders {O : Type} (number : String → Option Nat) :
    TimedCall.SettlesHeaders (handle number) (ClientStreaming.defHeader (O := O)) where
  abort := fun _ _ => rfl
  keep := by
    intro d event h
    cases event with
    | headers metadata => exact onHeaders_of_settled h
    | message message => rfl
    | ended status statusMessage trailers =>
      by_cases hok : status = .ok
      · rw [handle, if_neg (not_not_intro hok)]
      · rw [handle, if_pos hok]
        exact Deferred.settlePending_of_settledOnce h
    | abort reason => exact Deferred.settlePending_of_settledOnce h

theorem Duplex.settlesHeaders {S O : Type} (controller : RpcOutputStreamController S O)
    (number : String → Option Nat) :
    TimedCall.SettlesHeaders (handle controller number) (Duplex.defHeader (S := S)) where
  abort := fun _ _ => rfl
  keep := by
    intro d event h
    cases event with
    | headers metadata => exact onHeaders_of_settled h
    | message message => rfl
    | ended status statusMessage trailers =>
      by_cases hok : status = .ok
      · rw [handle, if_neg (not_not_intro hok)]
      · rw [handle, if_pos hok]
        exact Deferred.settlePending_of_settledOnce h
    | abort reason => exact Deferred.settlePending_of_settledOnce h

namespace TimedCall

/-- An `AbortError`. -/
def abortError : AbortReason := ⟨⟨.error "This operation was aborted", true⟩, true⟩

/-- A call that has no headers after two milliseconds. -/
theorem headers_in_time_download :
    let options : TimeoutOptions := ⟨2, false, abortError⟩
    let controller := messageStream String
    let step := step options (Duplex.handle controller String.toNat?) Duplex.defHeader
    ∃ s, Kit.run step { userAborted := false, call := { promises := { outStream := ([], none) } } }
        [.tick, .tick] = some s ∧
      ∃ t, step s .timer = some t ∧
        t.call.promises.defHeader.settlements = [.error requestTimedOut.rejection] := by
  intro options controller step
  refine ⟨_, rfl, ?_⟩
  have hin := (headers_in_time
    (s := ⟨2, .armed, false, none, false, { promises := { outStream := ([], none) } }⟩)
    (Duplex.settlesHeaders controller String.toNat?) Deferred.not_settledOnce_new
    (show Kit.run step _ [.tick, .tick] = some _ from rfl)).1
  exact (hin Deferred.not_settledOnce_new).2.1 (Nat.le_refl 2)

/-- A call that times out, with a signal among its options. -/
theorem timedOut_retried_iff_signal :
    let options : TimeoutOptions := ⟨1, true, abortError⟩
    let controller := messageStream String
    let step := step options (Duplex.handle controller String.toNat?) Duplex.defHeader
    ∃ s, Kit.run step { userAborted := false, call := { promises := { outStream := ([], none) } } }
        [.tick, .timer] = some s ∧
      ∃ e, s.call.promises.defHeader.settlements = [.error e] ∧ e.error.isRetryable = false := by
  intro options controller step
  refine ⟨_, rfl, ?_⟩
  have hstart : ¬ (Duplex.defHeader { outStream := controller.new }).SettledOnce :=
    Deferred.not_settledOnce_new
  have hreason : options.abortError.rejection.error.isRetryable = false := by decide
  obtain ⟨e, hsettled, hretried⟩ := (timedOut_retried_iff
    (Duplex.settlesHeaders controller String.toNat?)
    hstart hreason (show Kit.run step _ [.tick, .timer] = some _ from rfl)).1 (by simp)
  exact ⟨e, hsettled, Bool.eq_false_iff.mpr fun h => Bool.noConfusion (hretried.mp h)⟩

end TimedCall

end CereDdc
