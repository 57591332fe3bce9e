import CereDdc.Kit.Promise
import CereDdc.Signer

/-!
# Blockchain — `blockchain/Blockchain`

`Blockchain.send`: the extrinsic is signed and sent, and a promise is settled
by the status results that come in. The chain, `polkadot-js` and the wallet are
the environment: which results reach the callback, in which order, and whether
`signAndSend` itself rejects. `J` is the type of the JSON values.
-/

namespace CereDdc

open Kit

/-! ## What the chain reports -/

/-- `ExtrinsicStatus` -/
inductive ExtrinsicStatus
  | future
  | ready
  | broadcast (peers : List String)
  | inBlock (blockHash : String)
  | retracted (blockHash : String)
  | finalityTimeout (blockHash : String)
  | finalized (blockHash : String)
  | usurped (hash : String)
  | dropped
  | invalid
  deriving DecidableEq, Repr

/-- `status.isFinalized ? status.asFinalized.toHex() : undefined` -/
def ExtrinsicStatus.asFinalized : ExtrinsicStatus → Option String
  | .finalized blockHash => some blockHash
  | _ => none

structure ModuleError where
  index : Nat
  error : Nat
  deriving DecidableEq, Repr

/-- A `DispatchError`: of a pallet, or another one with the text it prints as. -/
inductive DispatchError
  | module (asModule : ModuleError)
  | other (text : String)
  deriving DecidableEq, Repr

/-- What the registry knows about an error of a pallet. -/
structure RegistryError where
  palletSection : String
  name : String
  docs : List String
  deriving DecidableEq, Repr

/-- `api.registry`: `findMetaError` throws for an error it does not know. -/
structure Registry where
  findMetaError : ModuleError → Option RegistryError

/-- An event the extrinsic has emitted. The chain encodes one value for each field. -/
structure EventRecord (J : Type) where
  method : String
  palletSection : String
  metaJson : J
  fields : List String
  data : List J
  fields_data : fields.length = data.length
  deriving DecidableEq

/-- `ISubmittableResult` -/
structure StatusResult (J : Type) where
  status : ExtrinsicStatus
  dispatchError : Option DispatchError := none
  events : List (EventRecord J) := []
  deriving DecidableEq

def StatusResult.isFinalized {J : Type} (result : StatusResult J) : Bool :=
  result.status.asFinalized.isSome

/-- What comes back from `signAndSend`: a result for the callback, or its own rejection. -/
inductive SendEvent (J : Type)
  | status (result : StatusResult J)
  | failed (e : JsError)
  deriving DecidableEq

/-! ## `send` -/

/-- `Event` -/
structure Event (J : Type) where
  palletSection : String
  method : String
  metaJson : J
  data : List J
  /-- the entries of the object, by the names of the fields -/
  payload : List (String × J)
  deriving DecidableEq, Repr

structure SendResult (J : Type) where
  events : List (Event J)
  txHash : String
  deriving DecidableEq, Repr

def EventRecord.toEvent {J : Type} (event : EventRecord J) : Event J where
  palletSection := event.palletSection
  method := event.method
  metaJson := event.metaJson
  data := event.data
  payload := event.fields.zip event.data

/-- The message of the rejection, unless the registry throws. -/
def Registry.errorMessage (registry : Registry) : DispatchError → Option String
  | .module asModule => (registry.findMetaError asModule).map fun decoded =>
      let docs := " ".intercalate decoded.docs
      s!"{decoded.palletSection}.{decoded.name}: {docs}"
  | .other text => some text

/-- What the callback does with one result: the call of `resolve` or of `reject`, if any. -/
def sendCallback {J : Type} (registry : Registry) (result : StatusResult J) :
    Option (Except JsError (SendResult J)) :=
  match result.status.asFinalized with
  -- a finalized result resolves, whatever its `dispatchError` is
  | some blockHash => some (.ok { events := result.events.map (·.toEvent), txHash := blockHash })
  | none =>
    match result.dispatchError with
    -- where the registry throws the callback is left before `reject`
    | some e => (registry.errorMessage e).map fun message => .error (.error message)
    | none => none

/-- `.catch(reject)` next to the callback. -/
def settlement {J : Type} (registry : Registry) :
    SendEvent J → Option (Except JsError (SendResult J))
  | .status result => sendCallback registry result
  | .failed e => some (.error e)

/-- The account of `SendOptions`: a signer of the SDK, with what `getSigner` comes to, or an
address or pair. -/
inductive SendAccount (Pair Injected : Type)
  | signer (address : Address) (getSigner : Except JsError Injected)
  | account (account : Pair)

structure SendOptions (Pair Injected : Type) where
  account : SendAccount Pair Injected
  nonce : Option Nat := none
  signer : Option Injected := none

/-- The arguments of `signAndSend`. -/
structure SignAndSend (Pair Injected : Type) where
  account : Address ⊕ Pair
  nonce : Option Nat
  signer : Option Injected

/-- `finalAccount` and `finalSigner`. The wallet is asked only where no signer is given. -/
def SendOptions.signAndSend {Pair Injected : Type} (options : SendOptions Pair Injected) :
    Except JsError (SignAndSend Pair Injected) :=
  match options.account, options.signer with
  | .account account, signer => .ok ⟨.inr account, options.nonce, signer⟩
  | .signer address _, some signer => .ok ⟨.inl address, options.nonce, some signer⟩
  | .signer address getSigner, none =>
    getSigner.map fun signer => ⟨.inl address, options.nonce, some signer⟩

/-- `Blockchain.send`; `api` is how the chain answers a signed extrinsic. -/
def Blockchain.send {J Pair Injected : Type} (registry : Registry)
    (api : SignAndSend Pair Injected → List (SendEvent J)) (options : SendOptions Pair Injected) :
    Outcome JsError (SendResult J) :=
  match options.signAndSend with
  | .ok call => settled ((api call).filterMap (settlement registry))
  | .error e => .rejected e

/-- The results and rejections that reach a `send` call. -/
def Blockchain.delivered {J Pair Injected : Type}
    (api : SignAndSend Pair Injected → List (SendEvent J)) (options : SendOptions Pair Injected) :
    List (SendEvent J) :=
  match options.signAndSend with
  | .ok call => api call
  | .error _ => []

/-! ## What settles the promise -/

section

variable {J Pair Injected : Type} {registry : Registry} {event : SendEvent J}
  {events : List (SendEvent J)} {result : StatusResult J} {sent : SendResult J}
  {api : SignAndSend Pair Injected → List (SendEvent J)} {options : SendOptions Pair Injected}

/-- The event makes the callback, or `signAndSend` itself, reject. -/
def SendEvent.Rejects (registry : Registry) : SendEvent J → Prop
  | .status result => result.isFinalized = false ∧
      ∃ e, result.dispatchError = some e ∧ (registry.errorMessage e).isSome
  | .failed _ => True

theorem sendCallback_finalized (h : result.isFinalized) :
    ∃ sent, sendCallback registry result = some (.ok sent) := by
  obtain ⟨blockHash, hhash⟩ := Option.isSome_iff_exists.mp h
  refine ⟨⟨result.events.map (·.toEvent), blockHash⟩, ?_⟩
  simp [sendCallback, hhash]

theorem sendCallback_not_finalized (h : result.isFinalized = false) :
    sendCallback registry result = (result.dispatchError.bind registry.errorMessage).map
      fun message => .error (.error message) := by
  have hnone : result.status.asFinalized = none := by
    simpa [StatusResult.isFinalized] using h
  cases he : result.dispatchError <;> simp [sendCallback, hnone, he]

/-- A promise that resolves does so on a finalized result. -/
theorem settlement_eq_ok (h : settlement registry event = some (.ok sent)) :
    ∃ result, event = .status result ∧ result.isFinalized ∧
      sendCallback registry result = some (.ok sent) := by
  cases event with
  | failed e => cases h
  | status result =>
    refine ⟨result, rfl, ?_, h⟩
    cases hf : result.isFinalized with
    | true => rfl
    | false =>
      rw [settlement, sendCallback_not_finalized hf, Option.map_eq_some_iff] at h
      obtain ⟨message, -, hcall⟩ := h
      cases hcall

theorem settlement_eq_error_iff :
    (∃ e, settlement registry event = some (.error e)) ↔ event.Rejects registry := by
  cases event with
  | failed e => exact ⟨fun _ => trivial, fun _ => ⟨e, rfl⟩⟩
  | status result =>
    cases hf : result.isFinalized with
    | true =>
      obtain ⟨sent, hsent⟩ := @sendCallback_finalized _ registry _ hf
      simp [settlement, hsent, SendEvent.Rejects, hf]
    | false =>
      rw [settlement, sendCallback_not_finalized hf]
      cases he : result.dispatchError <;>
        simp [SendEvent.Rejects, hf, he, Option.isSome_iff_exists]

/-- A result that settles nothing is not finalized. -/
theorem settlement_eq_none (h : settlement registry (.status result) = none) :
    result.isFinalized = false := by
  cases hf : result.isFinalized with
  | false => rfl
  | true =>
    obtain ⟨sent, hsent⟩ := @sendCallback_finalized _ registry _ hf
    rw [settlement, hsent] at h
    cases h

/-! ## The first settling event decides -/

/-- Before `event` nothing has settled the promise. -/
def SettlesFirst (registry : Registry) (events : List (SendEvent J)) (event : SendEvent J) : Prop :=
  ∃ before after, events = before ++ event :: after ∧
    ∀ earlier ∈ before, settlement registry earlier = none

theorem settled_eq_resolved_iff :
    settled (events.filterMap (settlement registry)) = .resolved sent ↔
      ∃ event, SettlesFirst registry events event ∧
        settlement registry event = some (.ok sent) := by
  rw [settled_eq_resolved, List.head?_filterMap, List.findSome?_eq_some_iff]
  constructor
  · intro ⟨before, event, after, hsplit, hevent, hbefore⟩
    exact ⟨event, ⟨before, after, hsplit, hbefore⟩, hevent⟩
  · intro ⟨event, ⟨before, after, hsplit, hbefore⟩, hevent⟩
    exact ⟨before, event, after, hsplit, hevent, hbefore⟩

theorem settled_eq_rejected_iff :
    (∃ e, settled (events.filterMap (settlement registry)) = .rejected e) ↔
      ∃ event, SettlesFirst registry events event ∧ event.Rejects registry := by
  constructor
  · intro ⟨e, h⟩
    rw [settled_eq_rejected, List.head?_filterMap, List.findSome?_eq_some_iff] at h
    obtain ⟨before, event, after, hsplit, hevent, hbefore⟩ := h
    exact ⟨event, ⟨before, after, hsplit, hbefore⟩, settlement_eq_error_iff.mp ⟨e, hevent⟩⟩
  · intro ⟨event, ⟨before, after, hsplit, hbefore⟩, hrejects⟩
    obtain ⟨e, he⟩ := settlement_eq_error_iff.mpr hrejects
    refine ⟨e, ?_⟩
    rw [settled_eq_rejected, List.head?_filterMap, List.findSome?_eq_some_iff]
    exact ⟨before, event, after, hsplit, he, hbefore⟩

/-- No finalized result of a failed extrinsic is among the events. -/
def NoFailedFinalized (events : List (SendEvent J)) : Prop :=
  ∀ result, .status result ∈ events → result.isFinalized → result.dispatchError = none

/-- Something rejects before the first finalized result. -/
def RejectsBeforeFinalized (registry : Registry) (events : List (SendEvent J)) : Prop :=
  ∃ before event after, events = before ++ event :: after ∧ event.Rejects registry ∧
    ∀ result, .status result ∈ before → result.isFinalized = false

/-- An event that rejects before the first finalized result need not be the one that settles the
promise, but then an earlier rejection does. -/
theorem RejectsBeforeFinalized.rejected (h : RejectsBeforeFinalized registry events) :
    ∃ e, settled (events.filterMap (settlement registry)) = .rejected e := by
  obtain ⟨before, event, after, rfl, hrejects, hbefore⟩ := h
  induction before with
  | nil =>
    obtain ⟨e, he⟩ := settlement_eq_error_iff.mpr hrejects
    exact ⟨e, by simp [he]⟩
  | cons earlier before ih =>
    cases hs : settlement registry earlier with
    | none =>
      obtain ⟨e, he⟩ := ih fun result hmem => hbefore result (by simp [hmem])
      exact ⟨e, by simpa [List.filterMap_cons, hs] using he⟩
    | some call =>
      cases call with
      | error e => exact ⟨e, by simp [List.filterMap_cons, hs]⟩
      | ok sent =>
        obtain ⟨result, rfl, hf, -⟩ := settlement_eq_ok hs
        rw [hbefore result (by simp)] at hf
        cases hf

theorem settled_eq_rejected_iff_before :
    (∃ e, settled (events.filterMap (settlement registry)) = .rejected e) ↔
      RejectsBeforeFinalized registry events := by
  refine ⟨fun h => ?_, RejectsBeforeFinalized.rejected⟩
  obtain ⟨event, ⟨before, after, hsplit, hbefore⟩, hrejects⟩ := settled_eq_rejected_iff.mp h
  exact ⟨before, event, after, hsplit, hrejects,
    fun result hmem => settlement_eq_none (hbefore _ hmem)⟩

/-! ## Resolution and success -/

/-- A `send` that resolves does so on a finalized result with no dispatch error. -/
def ResolvesOnSuccess (registry : Registry) (events : List (SendEvent J))
    (outcome : Outcome JsError (SendResult J)) : Prop :=
  ∀ sent, outcome = .resolved sent →
    ∃ result, SettlesFirst registry events (.status result) ∧
      sendCallback registry result = some (.ok sent) ∧
      result.isFinalized ∧ result.dispatchError = none

/-- A finalized result with a dispatch error makes `send` reject. -/
def FailureRejects (events : List (SendEvent J)) (outcome : Outcome JsError (SendResult J)) :
    Prop :=
  (∃ result, .status result ∈ events ∧ result.isFinalized ∧ result.dispatchError.isSome) →
    ∃ e, outcome = .rejected e

theorem resolvesOnSuccess_of_noFailedFinalized (h : NoFailedFinalized events) :
    ResolvesOnSuccess registry events (settled (events.filterMap (settlement registry))) := by
  intro sent hsent
  obtain ⟨event, hfirst, hevent⟩ := settled_eq_resolved_iff.mp hsent
  obtain ⟨result, rfl, hf, hcall⟩ := settlement_eq_ok hevent
  have hmem : .status result ∈ events := by
    obtain ⟨before, after, hsplit, -⟩ := hfirst
    simp [hsplit]
  exact ⟨result, hfirst, hcall, hf, h result hmem hf⟩

theorem settled_honest_iff :
    (ResolvesOnSuccess registry events (settled (events.filterMap (settlement registry))) ∧
        FailureRejects events (settled (events.filterMap (settlement registry)))) ↔
      NoFailedFinalized events ∨ RejectsBeforeFinalized registry events := by
  constructor
  · intro ⟨_, hrejects⟩
    by_cases hfailed : ∃ result, .status result ∈ events ∧ result.isFinalized ∧
        result.dispatchError.isSome
    · exact .inr (settled_eq_rejected_iff_before.mp (hrejects hfailed))
    · refine .inl fun result hmem hf => ?_
      cases he : result.dispatchError with
      | none => rfl
      | some e => exact absurd ⟨result, hmem, hf, by simp [he]⟩ hfailed
  · intro h
    cases h with
    | inl hnone =>
      refine ⟨resolvesOnSuccess_of_noFailedFinalized hnone, ?_⟩
      intro ⟨result, hmem, hf, he⟩
      rw [hnone result hmem hf] at he
      cases he
    | inr hbefore =>
      obtain ⟨e, he⟩ := hbefore.rejected
      refine ⟨?_, fun _ => ⟨e, he⟩⟩
      intro sent hsent
      rw [he] at hsent
      cases hsent

end

/-- `send` tells success from failure exactly when no finalized result carries a dispatch error,
or a rejection comes before every finalized result. -/
theorem Blockchain.send_honest_iff {J Pair Injected : Type} (registry : Registry)
    (api : SignAndSend Pair Injected → List (SendEvent J)) (options : SendOptions Pair Injected) :
    (ResolvesOnSuccess registry (delivered api options) (send registry api options) ∧
        FailureRejects (delivered api options) (send registry api options)) ↔
      NoFailedFinalized (delivered api options) ∨
        RejectsBeforeFinalized registry (delivered api options) := by
  unfold send delivered
  cases options.signAndSend with
  | ok call => exact settled_honest_iff
  | error e => simp [ResolvesOnSuccess, FailureRejects, NoFailedFinalized]

/-- The only result of a failed extrinsic: finalized, with the error of the origin check. -/
def failedFinalized : StatusResult String where
  status := .finalized "0x01"
  dispatchError := some (.other "BadOrigin")

/-- The first result the callback sees is the finalized one: `send` resolves. -/
theorem Blockchain.send_resolves_failed :
    let api : SignAndSend Unit Unit → List (SendEvent String) := fun _ => [.status failedFinalized]
    let options : SendOptions Unit Unit := { account := .account () }
    ¬ (ResolvesOnSuccess ⟨fun _ => none⟩ (delivered api options)
          (send ⟨fun _ => none⟩ api options) ∧
        FailureRejects (delivered api options) (send ⟨fun _ => none⟩ api options)) := by
  intro api options ⟨_, hrejects⟩
  obtain ⟨e, he⟩ := hrejects ⟨failedFinalized, List.mem_singleton.mpr rfl, rfl, rfl⟩
  cases he

/-! ## Terminal statuses -/

/-- A status after which no other one comes. -/
def ExtrinsicStatus.isTerminal : ExtrinsicStatus → Bool
  | .finalized _ => true
  | .finalityTimeout _ => true
  | .usurped _ => true
  | .dropped => true
  | .invalid => true
  | _ => false

/-- The last result that comes in has a terminal status. -/
def EndsTerminal {J : Type} (events : List (SendEvent J)) : Prop :=
  ∃ result, events.getLast? = some (.status result) ∧ result.status.isTerminal

/-- The event settles the promise if nothing has done so before: the result is finalized, or has an
error with a message. -/
def SendEvent.Handled {J : Type} (registry : Registry) : SendEvent J → Prop
  | .status result => result.isFinalized ∨
      ∃ e, result.dispatchError = some e ∧ (registry.errorMessage e).isSome
  | .failed _ => True

theorem settlement_isSome_iff {J : Type} {registry : Registry} {event : SendEvent J} :
    (settlement registry event).isSome ↔ event.Handled registry := by
  cases event with
  | failed e => simp [settlement, SendEvent.Handled]
  | status result =>
    cases hf : result.isFinalized with
    | true =>
      obtain ⟨sent, hsent⟩ := @sendCallback_finalized _ registry _ hf
      simp [settlement, hsent, SendEvent.Handled, hf]
    | false =>
      rw [settlement, sendCallback_not_finalized hf]
      cases he : result.dispatchError <;> simp [SendEvent.Handled, hf, he]

/-- While the results come in the promise is pending, and from one of them on it is settled, and
stays as it is. -/
def Blockchain.SettlesOnce {J Pair Injected : Type} (registry : Registry)
    (api : SignAndSend Pair Injected → List (SendEvent J)) (options : SendOptions Pair Injected) :
    Prop :=
  ∃ n outcome, n ≤ (delivered api options).length ∧ outcome ≠ .pending ∧
    ∀ m, send registry (fun call => (api call).take m) options
      = if m < n then .pending else outcome

/-- **Terminal statuses**: a `send` whose results end in a terminal status is settled by them, and
settled once, exactly if one of them is handled. -/
theorem Blockchain.send_settles_iff {J Pair Injected : Type} {registry : Registry}
    {api : SignAndSend Pair Injected → List (SendEvent J)} {options : SendOptions Pair Injected}
    (h : EndsTerminal (delivered api options)) :
    SettlesOnce registry api options ↔
      ∃ event ∈ delivered api options, event.Handled registry := by
  obtain ⟨call, hcall⟩ : ∃ call, options.signAndSend = .ok call := by
    cases hcall : options.signAndSend with
    | ok call => exact ⟨call, rfl⟩
    | error e =>
      obtain ⟨result, hlast, -⟩ := h
      simp [delivered, hcall] at hlast
  simp only [SettlesOnce, delivered, send, hcall]
  constructor
  · intro ⟨n, outcome, hn, hsettled, hall⟩
    by_contra hnone
    -- no event makes a call
    have hcalls : ((api call).take n).filterMap (settlement registry) = [] := by
      refine List.filterMap_eq_nil_iff.mpr fun event hmem => ?_
      rw [← Option.not_isSome_iff_eq_none, settlement_isSome_iff]
      exact fun hhandled => hnone ⟨event, List.mem_of_mem_take hmem, hhandled⟩
    have hpending := hall n
    rw [hcalls, settled_nil, if_neg (Nat.lt_irrefl n)] at hpending
    exact hsettled hpending.symm
  · intro ⟨event, hmem, hhandled⟩
    obtain ⟨first, hfirst⟩ : ∃ first, (api call).findSome? (settlement registry) = some first := by
      rw [← Option.isSome_iff_exists, List.findSome?_isSome_iff]
      exact ⟨event, hmem, settlement_isSome_iff.mpr hhandled⟩
    obtain ⟨before, event, after, hsplit, hevent, hbefore⟩ :=
      List.findSome?_eq_some_iff.mp hfirst
    refine ⟨before.length + 1, Outcome.settle .pending first, ?_, settle_ne_pending, fun m => ?_⟩
    · rw [hsplit]
      simp
    · rw [hsplit]
      exact settled_take hbefore hevent m

/-- The chain answers with these statuses, whatever is sent. -/
def statuses (all : List ExtrinsicStatus) (_ : SignAndSend Unit Unit) : List (SendEvent String) :=
  all.map fun status => .status { status }

theorem Blockchain.send_settles_finalized :
    SettlesOnce ⟨fun _ => none⟩ (statuses [.ready, .finalized "0x01"]) { account := .account () } :=
  (send_settles_iff ⟨_, rfl, rfl⟩).mpr ⟨.status { status := .finalized "0x01" },
    List.mem_cons_of_mem _ List.mem_cons_self, .inl rfl⟩

/-- An extrinsic that is dropped from the pool leaves its sender waiting. -/
theorem Blockchain.send_pending_dropped :
    ¬ ∀ (registry : Registry) (api : SignAndSend Unit Unit → List (SendEvent String))
      (options : SendOptions Unit Unit),
      EndsTerminal (delivered api options) → SettlesOnce registry api options := by
  intro h
  obtain ⟨n, outcome, hn, hsettled, hall⟩ :=
    h ⟨fun _ => none⟩ (statuses [.ready, .dropped]) { account := .account () } ⟨_, rfl, rfl⟩
  have hlength : n ≤ 2 := hn
  have hpending := hall 2
  rw [if_neg (by omega)] at hpending
  exact hsettled hpending.symm

end CereDdc
