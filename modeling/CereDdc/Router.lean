import CereDdc.TokenCreation

/-!
# Router — `routing/Router.ts`, `getSdkToken`

Every `getNode` call replaces `sdkTokenPromise` with a promise that waits for the
one before it and for the signer, and then takes the token before it or makes a
new one. The machine keeps one entry a call, in the order of the calls; its
events come in any order in which the promises allow them.
-/

namespace CereDdc

open Kit (Outcome)

/-! ## State -/

/-- Where the promise of a call stands. -/
inductive CallPhase
  /-- `Promise.all` waits for the previous promise and the signer. -/
  | waiting
  /-- The token of the previous call was found valid. -/
  | reused (token : AuthToken)
  /-- `createSdkToken` runs. -/
  | creating (creation : Creation)
  /-- `Promise.all` was rejected. -/
  | failed (error : JsError)
  deriving DecidableEq

/-- What has happened to a call. The code keeps none of it. -/
structure Trace where
  /-- When the token it uses was made. -/
  createdAt : Option Int := none
  checkedBy : Option Account := none
  /-- The account whose key its own creation has read. -/
  keyReadBy : Option Account := none
  /-- The account changed between the check and the reading of the key. -/
  switched : Bool := false
  /-- The account that was asked to sign the token it uses. -/
  askedOf : Option Account := none
  /-- That was not the account whose key the token has. -/
  askedLate : Bool := false

/-- A call of `getNode`, as far as its token goes. -/
structure Call where
  calledAt : Int
  /-- The promise of `signer.isReady()`. -/
  isReady : Option (Except JsError Unit) := none
  phase : CallPhase := .waiting
  trace : Trace := {}

/-- The promise that the call leaves in `sdkTokenPromise`. -/
def CallPhase.outcome : CallPhase → Outcome JsError AuthToken
  | waiting => .pending
  | reused token => .resolved token
  | creating creation => creation.outcome
  | failed error => .rejected error

structure RouterState where
  now : Int
  /-- Whether the signer is a `Web3Signer`. -/
  isWeb3 : Bool
  /-- The account the signer has now. -/
  account : Account
  registry : List KeyPair := []
  calls : List Call := []

inductive RouterEvent
  /-- `getNode` is called. -/
  | getNode
  /-- `isReady()` of call `i` settles. -/
  | ready (i : Nat) (result : Except JsError Unit)
  /-- Both promises of call `i` are there, and the callback runs. -/
  | check (i : Nat)
  /-- `isReady()` rejected call `i`. -/
  | notReady (i : Nat)
  /-- The previous promise rejected call `i`. -/
  | rejectedBefore (i : Nat)
  /-- The creation of call `i` goes on. -/
  | create (i : Nat) (event : CreationEvent)
  /-- The wallet of call `i` has its injector, and is asked to sign for the account it has by
  then. A signer that signs at once is asked when its key is read, and so is one that has kept its
  account. -/
  | ask (i : Nat)
  /-- The signer changes its account. -/
  | switch (account : Account)
  | tick (milliseconds : Nat)

/-! ## Steps -/

/-- The callback of `getSdkToken`. -/
def getSdkToken (account : Account) (isWeb3 : Bool) (now : Int) (token : Option AuthToken) :
    CallPhase :=
  match token with
  | some token =>
    if isValidSdkToken account token then .reused token
    else .creating (Creation.createSdkToken account isWeb3 now)
  | none => .creating (Creation.createSdkToken account isWeb3 now)

namespace Call

/-- The callback has run; `previous` is what is known of the previous call. -/
def check (account : Account) (isWeb3 : Bool) (now : Int) (previous : Trace)
    (token : Option AuthToken) (call : Call) : Call :=
  let phase := getSdkToken account isWeb3 now token
  { call with
    phase
    trace := match phase with
      -- the token comes with its own past
      | .reused _ =>
        { createdAt := previous.createdAt, checkedBy := some account,
          askedOf := previous.askedOf, askedLate := previous.askedLate }
      -- a wallet's token is made later, when its SDK signer is registered
      | .creating (.registering _) => { checkedBy := some account }
      | _ => { createdAt := some now, checkedBy := some account } }

/-- The creation has gone from `creation` to `next`. -/
def create (account : Account) (now : Int) (creation next : Creation) (call : Call) : Call :=
  { call with
    phase := .creating next
    trace := match creation with
      | .registering _ => { call.trace with createdAt := some now }
      | .readying _ => { call.trace with keyReadBy := some account }
      | .signing _ _ _ =>
        { call.trace with askedOf := call.trace.askedOf.or call.trace.keyReadBy }
      | _ => call.trace }

/-- The wallet is asked for the signature. -/
def ask (account : Account) (call : Call) : Call :=
  { call with
    trace :=
      { call.trace with
        askedOf := some account
        askedLate := decide (call.trace.keyReadBy ≠ some account) } }

/-- The account has changed. -/
def switch (call : Call) : Call :=
  match call.phase with
  | .creating (.registering _) => { call with trace := { call.trace with switched := true } }
  | .creating (.readying _) => { call with trace := { call.trace with switched := true } }
  | _ => call

end Call

namespace RouterState

def setCall (s : RouterState) (i : Nat) (call : Call) : RouterState :=
  { s with calls := s.calls.set i call }

/-- The previous `sdkTokenPromise`, as call `i` finds it: there is none before the first call. -/
def previous (s : RouterState) : Nat → Outcome JsError (Option AuthToken)
  | 0 => .resolved none
  | i + 1 =>
    match s.calls[i]? with
    | none => .pending
    | some call =>
      match call.phase.outcome with
      | .resolved token => .resolved (some token)
      | .rejected error => .rejected error
      | .pending => .pending

/-- What is known of the previous call. -/
def previousTrace (s : RouterState) (i : Nat) : Trace := (s.calls[i - 1]?.map (·.trace)).getD {}

/-- When the token of the previous call was made. -/
def previousCreatedAt (s : RouterState) (i : Nat) : Option Int := (s.previousTrace i).createdAt

def step (s : RouterState) : RouterEvent → Option RouterState
  | .getNode => some { s with calls := s.calls ++ [{ calledAt := s.now }] }
  | .ready i result => do
    let call ← s.calls[i]?
    match call.isReady with
    | none => some (s.setCall i { call with isReady := some result })
    | some _ => none
  | .check i => do
    let call ← s.calls[i]?
    match call.phase, call.isReady, s.previous i with
    | .waiting, some (.ok _), .resolved token =>
      some (s.setCall i (call.check s.account s.isWeb3 s.now (s.previousTrace i) token))
    | _, _, _ => none
  | .notReady i => do
    let call ← s.calls[i]?
    match call.phase, call.isReady with
    | .waiting, some (.error error) => some (s.setCall i { call with phase := .failed error })
    | _, _ => none
  | .rejectedBefore i => do
    let call ← s.calls[i]?
    match call.phase, s.previous i with
    | .waiting, .rejected error => some (s.setCall i { call with phase := .failed error })
    | _, _ => none
  | .create i event => do
    let call ← s.calls[i]?
    match call.phase with
    | .creating creation => do
      let next ← creation.step s.account s.now event
      some
        { s.setCall i (call.create s.account s.now creation next) with
          registry := creation.registry s.registry event }
    | _ => none
  | .ask i => do
    let call ← s.calls[i]?
    match call.phase, call.trace.askedOf with
    | .creating (.signing _ _ _), none => some (s.setCall i (call.ask s.account))
    | _, _ => none
  | .switch account =>
    if account = s.account then none
    else some { s with account, calls := s.calls.map Call.switch }
  | .tick milliseconds => some { s with now := s.now + milliseconds }

/-- What a step does, event by event. -/
inductive Step (s : RouterState) : RouterEvent → RouterState → Prop
  | getNode : Step s .getNode { s with calls := s.calls ++ [{ calledAt := s.now }] }
  | ready {i : Nat} {result : Except JsError Unit} {call : Call} (hcall : s.calls[i]? = some call)
      (hready : call.isReady = none) :
      Step s (.ready i result) (s.setCall i { call with isReady := some result })
  | check {i : Nat} {token : Option AuthToken} {call : Call} (hcall : s.calls[i]? = some call)
      (hphase : call.phase = .waiting) (hready : call.isReady = some (.ok ()))
      (hprevious : s.previous i = .resolved token) :
      Step s (.check i)
        (s.setCall i (call.check s.account s.isWeb3 s.now (s.previousTrace i) token))
  | notReady {i : Nat} {error : JsError} {call : Call} (hcall : s.calls[i]? = some call)
      (hphase : call.phase = .waiting) (hready : call.isReady = some (.error error)) :
      Step s (.notReady i) (s.setCall i { call with phase := .failed error })
  | rejectedBefore {i : Nat} {error : JsError} {call : Call} (hcall : s.calls[i]? = some call)
      (hphase : call.phase = .waiting) (hprevious : s.previous i = .rejected error) :
      Step s (.rejectedBefore i) (s.setCall i { call with phase := .failed error })
  | create {i : Nat} {event : CreationEvent} {creation next : Creation} {call : Call}
      (hcall : s.calls[i]? = some call) (hphase : call.phase = .creating creation)
      (hnext : creation.step s.account s.now event = some next) :
      Step s (.create i event)
        { s.setCall i (call.create s.account s.now creation next) with
          registry := creation.registry s.registry event }
  | ask {i : Nat} {token : AuthToken} {algorithm : SignatureAlgorithm} {publicKey : PublicKey}
      {call : Call} (hcall : s.calls[i]? = some call)
      (hphase : call.phase = .creating (.signing token algorithm publicKey))
      (hasked : call.trace.askedOf = none) :
      Step s (.ask i) (s.setCall i (call.ask s.account))
  | switch {account : Account} (hother : account ≠ s.account) :
      Step s (.switch account) { s with account, calls := s.calls.map Call.switch }
  | tick {milliseconds : Nat} :
      Step s (.tick milliseconds) { s with now := s.now + milliseconds }

variable {s t u : RouterState} {l : RouterEvent} {i k : Nat} {call call' : Call}

theorem Step.of_step (h : s.step l = some t) : Step s l t := by
  cases l with
  | getNode =>
    cases h
    exact .getNode
  | ready i result =>
    obtain ⟨call, hcall, h⟩ := Option.bind_eq_some_iff.mp h
    cases hready : call.isReady with
    | none =>
      rw [hready] at h
      cases h
      exact .ready hcall hready
    | some other =>
      rw [hready] at h
      cases h
  | check i =>
    obtain ⟨call, hcall, h⟩ := Option.bind_eq_some_iff.mp h
    split at h
    · rename_i hphase hready hprevious
      cases h
      exact .check hcall hphase hready hprevious
    · cases h
  | notReady i =>
    obtain ⟨call, hcall, h⟩ := Option.bind_eq_some_iff.mp h
    split at h
    · rename_i hphase hready
      cases h
      exact .notReady hcall hphase hready
    · cases h
  | rejectedBefore i =>
    obtain ⟨call, hcall, h⟩ := Option.bind_eq_some_iff.mp h
    split at h
    · rename_i hphase hprevious
      cases h
      exact .rejectedBefore hcall hphase hprevious
    · cases h
  | create i event =>
    obtain ⟨call, hcall, h⟩ := Option.bind_eq_some_iff.mp h
    split at h
    · rename_i creation hphase
      obtain ⟨next, hnext, h⟩ := Option.bind_eq_some_iff.mp h
      cases h
      exact .create hcall hphase hnext
    · cases h
  | ask i =>
    obtain ⟨call, hcall, h⟩ := Option.bind_eq_some_iff.mp h
    split at h
    · rename_i hphase hasked
      cases h
      exact .ask hcall hphase hasked
    · cases h
  | switch account =>
    change (if account = s.account then none else some _) = some t at h
    by_cases hother : account = s.account
    · rw [if_pos hother] at h
      cases h
    · rw [if_neg hother] at h
      cases h
      exact .switch hother
  | tick milliseconds =>
    cases h
    exact .tick

theorem Step.step_eq (h : Step s l t) : s.step l = some t := by
  cases h with
  | getNode => rfl
  | ready hcall hready => simp [step, hcall, hready]
  | check hcall hphase hready hprevious => simp [step, hcall, hphase, hready, hprevious]
  | notReady hcall hphase hready => simp [step, hcall, hphase, hready]
  | rejectedBefore hcall hphase hprevious => simp [step, hcall, hphase, hprevious]
  | create hcall hphase hnext => simp [step, hcall, hphase, hnext]
  | ask hcall hphase hasked => simp [step, hcall, hphase, hasked]
  | switch hother => simp [step, hother]
  | tick => rfl

/-! ## Calls keep their place -/

theorem setCall_calls_self (h : s.calls[i]? = some call) (call' : Call) :
    (s.setCall i call').calls[i]? = some call' := by
  obtain ⟨hi, -⟩ := List.getElem?_eq_some_iff.mp h
  simp [setCall, hi]

theorem setCall_calls_of_ne (h : k ≠ i) (call' : Call) :
    (s.setCall i call').calls[k]? = s.calls[k]? := by
  simp [setCall, Ne.symm h]

/-- An entry after a step that changed call `i` is the new one or an old one. -/
theorem setCall_calls_cases {new : Call} (h : (s.setCall i new).calls[k]? = some call) :
    k = i ∧ call = new ∨ k ≠ i ∧ s.calls[k]? = some call := by
  by_cases hk : k = i
  · subst hk
    left
    obtain ⟨hlt, -⟩ := List.getElem?_eq_some_iff.mp h
    simp only [setCall, List.length_set] at hlt
    have hold : s.calls[k]? = some s.calls[k] := List.getElem?_eq_getElem hlt
    rw [setCall_calls_self hold new] at h
    cases h
    exact ⟨rfl, rfl⟩
  · right
    rw [setCall_calls_of_ne hk] at h
    exact ⟨hk, h⟩

/-- What a step can have done to call `k`, which it leaves as it is given. -/
inductive CallStep (s : RouterState) (l : RouterEvent) (k : Nat) : Call → Prop
  | new (hl : l = .getNode) (hk : k = s.calls.length) : CallStep s l k { calledAt := s.now }
  | kept {call : Call} (hcall : s.calls[k]? = some call) (hl : ∀ account, l ≠ .switch account) :
      CallStep s l k call
  | ready {result : Except JsError Unit} {call : Call} (hl : l = .ready k result)
      (hcall : s.calls[k]? = some call) (hready : call.isReady = none) :
      CallStep s l k { call with isReady := some result }
  | check {token : Option AuthToken} {call : Call} (hl : l = .check k)
      (hcall : s.calls[k]? = some call) (hphase : call.phase = .waiting)
      (hready : call.isReady = some (.ok ())) (hprevious : s.previous k = .resolved token) :
      CallStep s l k (call.check s.account s.isWeb3 s.now (s.previousTrace k) token)
  | failed {error : JsError} {call : Call} (hl : ∀ account, l ≠ .switch account)
      (hcall : s.calls[k]? = some call) (hphase : call.phase = .waiting)
      (hcause : call.isReady = some (.error error) ∨ s.previous k = .rejected error) :
      CallStep s l k { call with phase := .failed error }
  | create {event : CreationEvent} {creation next : Creation} {call : Call}
      (hl : l = .create k event) (hcall : s.calls[k]? = some call)
      (hphase : call.phase = .creating creation)
      (hnext : creation.step s.account s.now event = some next) :
      CallStep s l k (call.create s.account s.now creation next)
  | asked {token : AuthToken} {algorithm : SignatureAlgorithm} {publicKey : PublicKey} {call : Call}
      (hl : l = .ask k) (hcall : s.calls[k]? = some call)
      (hphase : call.phase = .creating (.signing token algorithm publicKey))
      (hasked : call.trace.askedOf = none) : CallStep s l k (call.ask s.account)
  | switched {account : Account} {call : Call} (hl : l = .switch account)
      (hcall : s.calls[k]? = some call) : CallStep s l k call.switch

/-- Every step, seen from one call. -/
theorem Step.callStep (h : Step s l t) (hk : t.calls[k]? = some call) : CallStep s l k call := by
  cases h with
  | getNode =>
    rcases Nat.lt_trichotomy k s.calls.length with hlt | heq | hgt
    · exact .kept ((List.getElem?_append_left hlt).symm.trans hk) (by simp)
    · subst heq
      simp only [List.getElem?_concat_length] at hk
      cases hk
      exact .new rfl rfl
    · have hnone : (s.calls ++ [({ calledAt := s.now } : Call)])[k]? = none := by
        rw [List.getElem?_eq_none_iff, List.length_append, List.length_singleton]
        omega
      rw [hnone] at hk
      cases hk
  | ready hcall hready =>
    rcases setCall_calls_cases hk with ⟨rfl, rfl⟩ | ⟨-, hk⟩
    · exact .ready rfl hcall hready
    · exact .kept hk (by simp)
  | check hcall hphase hready hprevious =>
    rcases setCall_calls_cases hk with ⟨rfl, rfl⟩ | ⟨-, hk⟩
    · exact .check rfl hcall hphase hready hprevious
    · exact .kept hk (by simp)
  | notReady hcall hphase hready =>
    rcases setCall_calls_cases hk with ⟨rfl, rfl⟩ | ⟨-, hk⟩
    · exact .failed (by simp) hcall hphase (.inl hready)
    · exact .kept hk (by simp)
  | rejectedBefore hcall hphase hprevious =>
    rcases setCall_calls_cases hk with ⟨rfl, rfl⟩ | ⟨-, hk⟩
    · exact .failed (by simp) hcall hphase (.inr hprevious)
    · exact .kept hk (by simp)
  | create hcall hphase hnext =>
    rcases setCall_calls_cases hk with ⟨rfl, rfl⟩ | ⟨-, hk⟩
    · exact .create rfl hcall hphase hnext
    · exact .kept hk (by simp)
  | ask hcall hphase hasked =>
    rcases setCall_calls_cases hk with ⟨rfl, rfl⟩ | ⟨-, hk⟩
    · exact .asked rfl hcall hphase hasked
    · exact .kept hk (by simp)
  | switch hother =>
    simp only [List.getElem?_map, Option.map_eq_some_iff] at hk
    obtain ⟨old, hold, rfl⟩ := hk
    exact .switched rfl hold
  | tick => exact .kept hk (by simp)

theorem Step.calls_length_le (h : Step s l t) : s.calls.length ≤ t.calls.length := by
  cases h <;> simp [setCall]

theorem Step.now_le (h : Step s l t) : s.now ≤ t.now := by
  cases h with
  | tick => exact Int.le_add_of_nonneg_right (Int.natCast_nonneg _)
  | _ => exact Int.le_refl _

theorem Step.account_eq (h : Step s l t) (hl : ∀ account, l ≠ .switch account) :
    t.account = s.account := by
  cases h with
  | switch hother => exact absurd rfl (hl _)
  | _ => rfl

end RouterState

/-! ## Calls keep their place -/

/-- The callback of the call has run. -/
def CallPhase.checked : CallPhase → Bool
  | reused _ => true
  | creating _ => true
  | _ => false

/-- `later` is the same call some time afterwards. -/
structure Call.Follows (call later : Call) : Prop where
  calledAt : later.calledAt = call.calledAt
  isReady : ∀ r, call.isReady = some r → later.isReady = some r
  checked : call.phase.checked = true → later.phase.checked = true
  settled : call.phase.outcome ≠ .pending → later.phase = call.phase ∧ later.trace = call.trace

namespace Call.Follows

variable {call later last : Call}

theorem refl : call.Follows call := ⟨rfl, fun _ h => h, id, fun _ => ⟨rfl, rfl⟩⟩

theorem trans (h : call.Follows later) (h' : later.Follows last) : call.Follows last where
  calledAt := h'.calledAt.trans h.calledAt
  isReady r hr := h'.isReady r (h.isReady r hr)
  checked hc := h'.checked (h.checked hc)
  settled hs := by
    obtain ⟨hphase, htrace⟩ := h.settled hs
    obtain ⟨hphase', htrace'⟩ := h'.settled (by rwa [hphase])
    exact ⟨hphase'.trans hphase, htrace'.trans htrace⟩

theorem outcome {token : AuthToken} (h : call.Follows later)
    (hcall : call.phase.outcome = .resolved token) : later.phase.outcome = .resolved token := by
  rw [(h.settled (by simp [hcall])).1, hcall]

/-- A call whose promise was pending has nothing settled to keep. -/
theorem of_pending (hphase : call.phase.outcome = .pending)
    (hcalledAt : later.calledAt = call.calledAt)
    (hready : ∀ r, call.isReady = some r → later.isReady = some r)
    (hchecked : call.phase.checked = true → later.phase.checked = true) : call.Follows later :=
  ⟨hcalledAt, hready, hchecked, fun h => absurd hphase h⟩

end Call.Follows

theorem Call.switch_follows (call : Call) : call.Follows call.switch := by
  unfold Call.switch
  split
  · rename_i hphase
    exact .of_pending (by rw [hphase]; rfl) rfl (fun _ h => h) id
  · rename_i hphase
    exact .of_pending (by rw [hphase]; rfl) rfl (fun _ h => h) id
  · exact .refl

namespace RouterState

variable {s t u : RouterState} {l : RouterEvent} {ls : List RouterEvent} {i k : Nat}
  {call call' : Call}

/-- A call after a step is a new one, or follows the one before it. -/
theorem CallStep.follows (h : CallStep s l k call') (hk : s.calls[k]? = some call) :
    call.Follows call' := by
  cases h with
  | new hl hlength =>
    obtain ⟨hlt, -⟩ := List.getElem?_eq_some_iff.mp hk
    omega
  | kept hcall hl =>
    obtain rfl := Option.some.inj (hcall.symm.trans hk)
    exact .refl
  | ready hl hcall hready =>
    obtain rfl := Option.some.inj (hcall.symm.trans hk)
    exact ⟨rfl, by simp [hready], id, fun _ => ⟨rfl, rfl⟩⟩
  | check hl hcall hphase hready hprevious =>
    obtain rfl := Option.some.inj (hcall.symm.trans hk)
    exact .of_pending (by rw [hphase]; rfl) rfl (fun _ h => h) (by simp [hphase, CallPhase.checked])
  | failed hl hcall hphase hcause =>
    obtain rfl := Option.some.inj (hcall.symm.trans hk)
    exact .of_pending (by rw [hphase]; rfl) rfl (fun _ h => h) (by simp [hphase, CallPhase.checked])
  | @create _ creation next _ hl hcall hphase hnext =>
    obtain rfl := Option.some.inj (hcall.symm.trans hk)
    -- a creation that has ended takes no step
    have hpending : creation.outcome = .pending := by
      by_contra houtcome
      rw [Creation.step_of_outcome houtcome] at hnext
      cases hnext
    exact .of_pending (by rw [hphase]; exact hpending) rfl (fun _ h => h) fun _ => rfl
  | asked hl hcall hphase hasked =>
    obtain rfl := Option.some.inj (hcall.symm.trans hk)
    exact .of_pending (by rw [hphase]; rfl) rfl (fun _ h => h) id
  | switched hl hcall =>
    obtain rfl := Option.some.inj (hcall.symm.trans hk)
    exact Call.switch_follows _

theorem Step.follows (h : Step s l t) (hk : s.calls[k]? = some call) :
    ∃ later, t.calls[k]? = some later ∧ call.Follows later := by
  obtain ⟨hlt, -⟩ := List.getElem?_eq_some_iff.mp hk
  have hlater := List.getElem?_eq_getElem (Nat.lt_of_lt_of_le hlt h.calls_length_le)
  exact ⟨_, hlater, (h.callStep hlater).follows hk⟩

/-- Through every run a call follows itself. -/
theorem run_follows (h : Kit.run step s ls = some t) :
    ∀ (k : Nat) (call : Call), s.calls[k]? = some call →
      ∃ later, t.calls[k]? = some later ∧ call.Follows later := by
  refine Kit.run_mono (R := fun s t => ∀ (k : Nat) (call : Call), s.calls[k]? = some call →
    ∃ later, t.calls[k]? = some later ∧ call.Follows later) ?_ ?_ ?_ h
  · intro s k call hk
    exact ⟨call, hk, .refl⟩
  · intro s t u hst htu k call hk
    obtain ⟨later, hlater, hfollows⟩ := hst k call hk
    obtain ⟨last, hlast, hfollows'⟩ := htu k later hlater
    exact ⟨last, hlast, hfollows.trans hfollows'⟩
  · intro s l t hstep k call hk
    exact (Step.of_step hstep).follows hk

end RouterState

end CereDdc
