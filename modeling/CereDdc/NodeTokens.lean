import CereDdc.TokenCreation
import CereDdc.OperationToken

/-!
# NodeTokens — `StorageNode.createAuthToken` between its awaits

A node keeps one promise of a root token, given with its configuration or made
by the first operation that needs it, and every operation without an access
token waits for that promise. The operations of the node run side by side.
-/

namespace CereDdc

open Kit (Outcome ReachesBy)

/-! ## State -/

/-- Where an operation is with its token. -/
inductive OperationPhase
  /-- `getRootToken` is awaited. -/
  | awaitingRoot
  /-- The token of the operation is being signed, by an SDK signer or by the node's own. -/
  | signing (sdkSigner : Option Signer) (creation : Creation)
  /-- The access token is used as it is. -/
  | given (token : AuthToken)
  | failed (error : JsError)

/-- The promise of `createAuthToken`. -/
def OperationPhase.outcome : OperationPhase → Outcome JsError AuthToken
  | awaitingRoot => .pending
  | signing _ creation => creation.outcome
  | given token => .resolved token
  | failed error => .rejected error

structure NodeState where
  now : Int
  /-- Whether the signer is a `Web3Signer`. -/
  isWeb3 : Bool
  /-- The account the signer has now. -/
  account : Account
  registry : List KeyPair := []
  /-- `rootTokenPromise` -/
  rootToken : Option Creation := none
  operations : List OperationPhase := []

inductive NodeEvent
  /-- An operation asks for its token. -/
  | createAuthToken (accessToken : Option TokenInput)
  /-- The creation of the root token goes on. -/
  | createRoot (event : CreationEvent)
  /-- The root token that operation `i` waits for is settled. -/
  | resume (i : Nat)
  /-- Signing the token of operation `i` goes on. -/
  | sign (i : Nat) (event : CreationEvent)
  /-- So it does where an SDK signer signs it, which is in memory. -/
  | sdkSign (i : Nat)
  /-- The signer changes its account. -/
  | switch (account : Account)
  | tick (milliseconds : Nat)

/-! ## Steps -/

namespace NodeState

/-- The end of `createAuthToken`, up to its first await. -/
def derive (s : NodeState) (unsignedToken : AuthToken) : OperationPhase :=
  match AuthToken.fromToken s.now unsignedToken with
  | .error error => .failed error
  | .ok token =>
    .signing (unsignedToken.subject.bind fun key => getSdkSigner s.registry (encodeAddress key))
      (.readying token)

/-- `createAuthToken` up to its first await. -/
def createAuthToken (s : NodeState) : Option TokenInput → OperationPhase
  | none => .awaitingRoot
  | some input =>
    match AuthToken.maybeToken input with
    | .error error => .failed error
    | .ok inputToken => if inputToken.isSigned then .given inputToken else s.derive inputToken

/-- `this.rootTokenPromise ||= createSdkToken(this.signer)`, without an access token. -/
def getRootToken (s : NodeState) : Option TokenInput → Option Creation
  | none => s.rootToken <|> some (Creation.createSdkToken s.account s.isWeb3 s.now)
  | some _ => s.rootToken

/-- The root promise, which is pending also as long as there is none. -/
def rootOutcome (s : NodeState) : Outcome JsError AuthToken :=
  match s.rootToken with
  | none => .pending
  | some creation => creation.outcome

def setOperation (s : NodeState) (i : Nat) (operation : OperationPhase) : NodeState :=
  { s with operations := s.operations.set i operation }

/-- What an SDK signer answers to the creation it signs for. -/
def sdkEvent (sdkSigner : Signer) : Creation → CreationEvent
  | .signing token _ _ => .signed (sdkSigner.sign token.toBinary)
  | _ => .ready sdkSigner.isReady

def step (s : NodeState) : NodeEvent → Option NodeState
  | .createAuthToken accessToken =>
    some
      { s with
        operations := s.operations ++ [s.createAuthToken accessToken]
        rootToken := s.getRootToken accessToken }
  | .createRoot event => do
    let creation ← s.rootToken
    let next ← creation.step s.account s.now event
    some { s with rootToken := some next, registry := creation.registry s.registry event }
  | .resume i => do
    let operation ← s.operations[i]?
    match operation, s.rootOutcome with
    | .awaitingRoot, .resolved token => some (s.setOperation i (s.derive token))
    | .awaitingRoot, .rejected error => some (s.setOperation i (.failed error))
    | _, _ => none
  | .sign i event => do
    let operation ← s.operations[i]?
    match operation with
    | .signing none creation => do
      let next ← creation.step s.account s.now event
      some (s.setOperation i (.signing none next))
    | _ => none
  | .sdkSign i => do
    let operation ← s.operations[i]?
    match operation with
    | .signing (some sdkSigner) creation => do
      let next ← creation.step sdkSigner.toAccount s.now (sdkEvent sdkSigner creation)
      some (s.setOperation i (.signing (some sdkSigner) next))
    | _ => none
  | .switch account => if account = s.account then none else some { s with account }
  | .tick milliseconds => some { s with now := s.now + milliseconds }

/-- What a step does, event by event. -/
inductive Step (s : NodeState) : NodeEvent → NodeState → Prop
  | createAuthToken {accessToken : Option TokenInput} :
      Step s (.createAuthToken accessToken)
        { s with
          operations := s.operations ++ [s.createAuthToken accessToken]
          rootToken := s.getRootToken accessToken }
  | createRoot {event : CreationEvent} {creation next : Creation}
      (hroot : s.rootToken = some creation)
      (hnext : creation.step s.account s.now event = some next) :
      Step s (.createRoot event)
        { s with rootToken := some next, registry := creation.registry s.registry event }
  | resume {i : Nat} {token : AuthToken} (hoperation : s.operations[i]? = some .awaitingRoot)
      (hroot : s.rootOutcome = .resolved token) :
      Step s (.resume i) (s.setOperation i (s.derive token))
  | rootRejected {i : Nat} {error : JsError} (hoperation : s.operations[i]? = some .awaitingRoot)
      (hroot : s.rootOutcome = .rejected error) :
      Step s (.resume i) (s.setOperation i (.failed error))
  | sign {i : Nat} {event : CreationEvent} {creation next : Creation}
      (hoperation : s.operations[i]? = some (.signing none creation))
      (hnext : creation.step s.account s.now event = some next) :
      Step s (.sign i event) (s.setOperation i (.signing none next))
  | sdkSign {i : Nat} {sdkSigner : Signer} {creation next : Creation}
      (hoperation : s.operations[i]? = some (.signing (some sdkSigner) creation))
      (hnext : creation.step sdkSigner.toAccount s.now (sdkEvent sdkSigner creation) = some next) :
      Step s (.sdkSign i) (s.setOperation i (.signing (some sdkSigner) next))
  | switch {account : Account} (hother : account ≠ s.account) :
      Step s (.switch account) { s with account }
  | tick {milliseconds : Nat} :
      Step s (.tick milliseconds) { s with now := s.now + milliseconds }

variable {s t u : NodeState} {l : NodeEvent} {ls : List NodeEvent} {i k : Nat}
  {operation : OperationPhase} {account : Account} {token : AuthToken}

theorem Step.of_step (h : s.step l = some t) : Step s l t := by
  cases l with
  | createAuthToken accessToken =>
    cases h
    exact .createAuthToken
  | createRoot event =>
    obtain ⟨creation, hroot, h⟩ := Option.bind_eq_some_iff.mp h
    obtain ⟨next, hnext, h⟩ := Option.bind_eq_some_iff.mp h
    cases h
    exact .createRoot hroot hnext
  | resume i =>
    obtain ⟨operation, hoperation, h⟩ := Option.bind_eq_some_iff.mp h
    split at h
    · rename_i hroot
      cases h
      exact .resume hoperation hroot
    · rename_i hroot
      cases h
      exact .rootRejected hoperation hroot
    · cases h
  | sign i event =>
    obtain ⟨operation, hoperation, h⟩ := Option.bind_eq_some_iff.mp h
    split at h
    · obtain ⟨next, hnext, h⟩ := Option.bind_eq_some_iff.mp h
      cases h
      exact .sign hoperation hnext
    · cases h
  | sdkSign i =>
    obtain ⟨operation, hoperation, h⟩ := Option.bind_eq_some_iff.mp h
    split at h
    · obtain ⟨next, hnext, h⟩ := Option.bind_eq_some_iff.mp h
      cases h
      exact .sdkSign hoperation hnext
    · cases h
  | switch account =>
    change (if account = s.account then none else some _) = some t at h
    by_cases hother : account = s.account
    · rw [if_pos hother] at h
      cases h
    · rw [if_neg hother] at h
      cases h
      exact .switch hother
  | tick milliseconds =>
    cases h
    exact .tick

theorem Step.step_eq (h : Step s l t) : s.step l = some t := by
  cases h with
  | createAuthToken => rfl
  | createRoot hroot hnext => simp [step, hroot, hnext]
  | resume hoperation hroot => simp [step, hoperation, hroot]
  | rootRejected hoperation hroot => simp [step, hoperation, hroot]
  | sign hoperation hnext => simp [step, hoperation, hnext]
  | sdkSign hoperation hnext => simp [step, hoperation, hnext]
  | switch hother => simp [step, hother]
  | tick => rfl

/-! ## One operation -/

theorem setOperation_self (h : s.operations[i]? = some operation) (new : OperationPhase) :
    (s.setOperation i new).operations[i]? = some new := by
  obtain ⟨hi, -⟩ := List.getElem?_eq_some_iff.mp h
  simp [setOperation, hi]

theorem setOperation_of_ne (h : k ≠ i) (new : OperationPhase) :
    (s.setOperation i new).operations[k]? = s.operations[k]? := by
  simp [setOperation, Ne.symm h]

/-- What a step can have done to operation `k`, which it leaves as it is given. -/
inductive OperationStep (s : NodeState) (l : NodeEvent) (k : Nat) : OperationPhase → Prop
  | new {accessToken : Option TokenInput} (hl : l = .createAuthToken accessToken)
      (hk : k = s.operations.length) : OperationStep s l k (s.createAuthToken accessToken)
  | kept {operation : OperationPhase} (hoperation : s.operations[k]? = some operation) :
      OperationStep s l k operation
  | resume {token : AuthToken} (hoperation : s.operations[k]? = some .awaitingRoot)
      (hroot : s.rootOutcome = .resolved token) : OperationStep s l k (s.derive token)
  | rootRejected {error : JsError} (hoperation : s.operations[k]? = some .awaitingRoot)
      (hroot : s.rootOutcome = .rejected error) : OperationStep s l k (.failed error)
  | sign {event : CreationEvent} {creation next : Creation} (hl : l = .sign k event)
      (hoperation : s.operations[k]? = some (.signing none creation))
      (hnext : creation.step s.account s.now event = some next) :
      OperationStep s l k (.signing none next)
  | sdkSign {sdkSigner : Signer} {creation next : Creation}
      (hoperation : s.operations[k]? = some (.signing (some sdkSigner) creation))
      (hnext : creation.step sdkSigner.toAccount s.now (sdkEvent sdkSigner creation) = some next) :
      OperationStep s l k (.signing (some sdkSigner) next)

theorem setOperation_step {old new : OperationPhase} (hold : s.operations[i]? = some old)
    (hnew : OperationStep s l i new) (hk : (s.setOperation i new).operations[k]? = some operation) :
    OperationStep s l k operation := by
  by_cases h : k = i
  · subst h
    rw [setOperation_self hold new] at hk
    cases hk
    exact hnew
  · rw [setOperation_of_ne h] at hk
    exact .kept hk

/-- Every step, seen from one operation. -/
theorem Step.operationStep (h : Step s l t) (hk : t.operations[k]? = some operation) :
    OperationStep s l k operation := by
  cases h with
  | createAuthToken =>
    rcases Nat.lt_trichotomy k s.operations.length with hlt | rfl | hgt
    · exact .kept ((List.getElem?_append_left hlt).symm.trans hk)
    · simp only [List.getElem?_concat_length] at hk
      cases hk
      exact .new rfl rfl
    · simp only at hk
      rw [List.getElem?_eq_none_iff.mpr (by simp; omega)] at hk
      cases hk
  | createRoot hroot hnext => exact .kept hk
  | resume hoperation hroot => exact setOperation_step hoperation (.resume hoperation hroot) hk
  | rootRejected hoperation hroot =>
    exact setOperation_step hoperation (.rootRejected hoperation hroot) hk
  | sign hoperation hnext => exact setOperation_step hoperation (.sign rfl hoperation hnext) hk
  | sdkSign hoperation hnext => exact setOperation_step hoperation (.sdkSign hoperation hnext) hk
  | switch hother => exact .kept hk
  | tick => exact .kept hk

theorem Step.operations_length_le (h : Step s l t) : s.operations.length ≤ t.operations.length := by
  cases h <;> simp [setOperation]

/-- What a step can have done to the root promise. -/
theorem Step.rootToken_cases (h : Step s l t) :
    t.rootToken = s.rootToken ∨
    (s.rootToken = none ∧ l = .createAuthToken none ∧
      t.rootToken = some (Creation.createSdkToken s.account s.isWeb3 s.now)) ∨
    ∃ event creation next, s.rootToken = some creation ∧ l = .createRoot event ∧
      creation.step s.account s.now event = some next ∧ t.rootToken = some next := by
  cases h with
  | @createAuthToken accessToken =>
    cases accessToken with
    | none =>
      cases hroot : s.rootToken with
      | none => exact .inr (.inl ⟨rfl, rfl, by simp [NodeState.getRootToken, hroot]⟩)
      | some creation => exact .inl (by simp [NodeState.getRootToken, hroot])
    | some input => exact .inl rfl
  | createRoot hroot hnext => exact .inr (.inr ⟨_, _, _, hroot, rfl, hnext, rfl⟩)
  | _ => exact .inl rfl

/-- The signature that `derive` begins is that of `deriveToken`, with the same signer. -/
theorem derive_deriveToken {signer : Signer} {sdkSigner : Option Signer} {derived : AuthToken}
    (h : s.derive token = .signing sdkSigner (.readying derived)) :
    deriveToken s.now s.registry signer token = derived.sign (sdkSigner.getD signer) := by
  unfold derive at h
  cases hfrom : AuthToken.fromToken s.now token with
  | error error =>
    rw [hfrom] at h
    cases h
  | ok unsigned =>
    rw [hfrom] at h
    cases h
    unfold deriveToken
    rw [hfrom]
    rfl

/-- Left alone, an operation that the node's own signer signs ends with the token of
`deriveToken`. -/
theorem run_derive {signer : Signer} {derived u : AuthToken} (haccount : s.account = signer.toAccount)
    (hk : s.operations[k]? = some (.signing none (.readying derived)))
    (h : derived.sign signer = .ok u) :
    ∃ t, Kit.run step s ((Creation.signEvents signer derived).map (.sign k)) = some t ∧
      t.operations[k]? = some (.signing none (.fulfilled u)) := by
  obtain ⟨signature, hsignature, rfl⟩ := AuthToken.sign_eq_ok.mp h
  obtain ⟨hready, hhead, hvalue⟩ := createSignature_eq_ok.mp hsignature
  have hfirst : Creation.step s.account s.now (.readying derived) (.ready signer.isReady)
      = some (.signing derived signature.algorithm signature.signer) := by
    simp [Creation.step, hready, Except.bind, haccount, hhead]
  have hself := setOperation_self hk (.signing none (.signing derived signature.algorithm
    signature.signer))
  have hsecond : Creation.step s.account s.now
      (.signing derived signature.algorithm signature.signer) (.signed (signer.sign derived.toBinary))
        = some (.fulfilled (derived.withSignature signature)) := by
    simp [Creation.step, hvalue]
  refine ⟨_, ?_, setOperation_self hself _⟩
  simp only [Creation.signEvents, List.map_cons, List.map_nil, Kit.run_cons]
  rw [(Step.sign hk hfirst).step_eq, Option.bind_some, (Step.sign hself hsecond).step_eq]
  rfl

end NodeState

end CereDdc
