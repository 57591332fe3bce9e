import CereDdc.Kit.Runs
import CereDdc.Kit.Retry
import CereDdc.SdkToken

/-!
# TokenCreation — `createSdkToken` between its awaits

The same calls as `createSdkToken` and `token.sign`, cut where they await: the
random signer, the signer's readiness, the signature itself. Between two of
these anything may happen to the signer, so each step takes the account it
finds.
-/

namespace CereDdc

open Kit (Outcome run run_cons)

/-- Where the creation of a token stands. -/
inductive Creation
  /-- `createSdkSigner` awaits a random signer of this type. -/
  | registering (type : SignerType)
  /-- `createSignature` awaits `isReady()`. -/
  | readying (token : AuthToken)
  /-- The key is read, the signer is asked for the signature. -/
  | signing (token : AuthToken) (algorithm : SignatureAlgorithm) (publicKey : PublicKey)
  | fulfilled (token : AuthToken)
  | rejected (error : JsError)
  deriving DecidableEq

/-- What a creation awaits comes about. -/
inductive CreationEvent
  | registered (mnemonic : Mnemonic)
  | ready (result : Except JsError Unit)
  | signed (result : Except JsError Bytes)

namespace Creation

/-- `token.sign(signer)` up to its first await. -/
def sign : Except JsError AuthToken → Creation
  | .ok token => .readying token
  | .error error => .rejected error

/-- `createSdkToken(signer)` up to its first await. -/
def createSdkToken (account : Account) (isWeb3 : Bool) (now : Int) : Creation :=
  if isWeb3 then .registering account.type
  else sign (AuthToken.fullAccess now none)

/-- One await comes to its end at `now`, with `account` the one the signer then has. -/
def step (account : Account) (now : Int) : Creation → CreationEvent → Option Creation
  | registering type, .registered mnemonic =>
    some (sign (AuthToken.fullAccess now (some (UriSigner (mnemonic.pair type)).address)))
  | readying token, .ready result =>
    some <| match result.bind fun _ => signatureHead account with
      | .ok (algorithm, publicKey) => .signing token algorithm publicKey
      | .error error => .rejected error
  | signing token algorithm publicKey, .signed result =>
    some <| match result with
      | .ok value => .fulfilled (token.withSignature ⟨algorithm, publicKey, value⟩)
      | .error error => .rejected error
  | _, _ => none

/-- The registry after the event. -/
def registry (registry : List KeyPair) : Creation → CreationEvent → List KeyPair
  | registering type, .registered mnemonic => mnemonic.pair type :: registry
  | _, _ => registry

/-- The promise of the creation. -/
def outcome : Creation → Outcome JsError AuthToken
  | fulfilled token => .resolved token
  | rejected error => .rejected error
  | _ => .pending

/-- The token that the creation is at work on. -/
def draft : Creation → Option AuthToken
  | readying token => some token
  | signing token _ _ => some token
  | fulfilled token => some token
  | _ => none

/-! ## One step -/

variable {account : Account} {now : Int} {c c' : Creation} {event : CreationEvent}

/-- Everything a step can do. -/
theorem step_cases (h : c.step account now event = some c') :
    (∃ type mnemonic, c = .registering type ∧ event = .registered mnemonic ∧
      c' = .readying (.root none
        (AuthToken.fullAccessPayload now (some (mnemonic.pair type).accountId)))) ∨
    (∃ token algorithm publicKey, c = .readying token ∧
      signatureHead account = .ok (algorithm, publicKey) ∧
      c' = .signing token algorithm publicKey) ∨
    (∃ token algorithm publicKey value, c = .signing token algorithm publicKey ∧
      c' = .fulfilled (token.withSignature ⟨algorithm, publicKey, value⟩)) ∨
    (∃ error, c.outcome = .pending ∧ c' = .rejected error ∧
      (event = .ready (.error error) ∨ event = .signed (.error error) ∨
        signatureHead account = .error error)) := by
  cases c with
  | registering type =>
    cases event with
    | registered mnemonic =>
      left
      refine ⟨type, mnemonic, rfl, rfl, ?_⟩
      cases h
      rfl
    | ready result => cases h
    | signed result => cases h
  | readying token =>
    cases event with
    | registered mnemonic => cases h
    | signed result => cases h
    | ready result =>
      cases result with
      | error e =>
        cases h
        exact .inr (.inr (.inr ⟨e, rfl, rfl, .inl rfl⟩))
      | ok _ =>
        simp only [step, Except.bind] at h
        cases hhead : signatureHead account with
        | error e =>
          rw [hhead] at h
          cases h
          exact .inr (.inr (.inr ⟨e, rfl, rfl, .inr (.inr rfl)⟩))
        | ok head =>
          rw [hhead] at h
          cases h
          exact .inr (.inl ⟨token, head.1, head.2, rfl, rfl, rfl⟩)
  | signing token algorithm publicKey =>
    cases event with
    | registered mnemonic => cases h
    | ready result => cases h
    | signed result =>
      cases result with
      | error e =>
        cases h
        exact .inr (.inr (.inr ⟨e, rfl, rfl, .inr (.inl rfl)⟩))
      | ok value =>
        cases h
        exact .inr (.inr (.inl ⟨token, algorithm, publicKey, value, rfl, rfl⟩))
  | fulfilled token => cases h
  | rejected error => cases h

theorem createSdkToken_eq {isWeb3 : Bool} :
    createSdkToken account isWeb3 now =
      if isWeb3 then .registering account.type
      else .readying (.root none (AuthToken.fullAccessPayload now none)) := rfl

theorem draft_of_outcome {token : AuthToken} (h : c.outcome = .resolved token) :
    c.draft = some token := by
  cases c with
  | fulfilled t =>
    cases h
    rfl
  | _ => cases h

/-- A creation that has come to its end stays there. -/
theorem step_of_outcome (h : c.outcome ≠ .pending) : c.step account now event = none := by
  cases c with
  | fulfilled token => rfl
  | rejected error => rfl
  | registering type => exact absurd rfl h
  | readying token => exact absurd rfl h
  | signing token algorithm publicKey => exact absurd rfl h

/-! ## Creations without failures -/

end Creation

/-- What is awaited does not fail. -/
def CreationEvent.Succeeds : CreationEvent → Prop
  | registered _ => True
  | ready result => result = .ok ()
  | signed result => ∃ value, result = .ok value

/-- DDC accepts the type of the account, and its key can be read. -/
def Account.Works (account : Account) : Prop := ∃ head, signatureHead account = .ok head

namespace Creation

variable {account : Account} {now : Int} {c c' : Creation} {event : CreationEvent}

/-- The awaits that are still to come. -/
def remaining : Creation → Nat
  | registering _ => 3
  | readying _ => 2
  | signing _ _ _ => 1
  | _ => 0

/-- No success rejects a creation. -/
theorem not_rejected_of_succeeds (haccount : account.Works) (hevent : event.Succeeds)
    (h : c.step account now event = some c') (error : JsError) : c'.outcome ≠ .rejected error := by
  obtain ⟨head, hhead⟩ := haccount
  rcases step_cases h with ⟨_, _, -, -, rfl⟩ | ⟨_, _, _, -, -, rfl⟩ | ⟨_, _, _, _, -, rfl⟩ |
    ⟨e, -, -, hcause⟩
  · intro heq
    cases heq
  · intro heq
    cases heq
  · intro heq
    cases heq
  · rcases hcause with rfl | rfl | hrefused
    · cases hevent
    · obtain ⟨value, hvalue⟩ := hevent
      cases hvalue
    · rw [hhead] at hrefused
      cases hrefused

/-- A pending creation has a success to go on with. -/
theorem progress (haccount : account.Works) (hpending : c.outcome = .pending) (now : Int) :
    ∃ event next, event.Succeeds ∧ c.step account now event = some next ∧
      next.remaining < c.remaining := by
  obtain ⟨head, hhead⟩ := haccount
  cases c with
  | registering type =>
    exact ⟨.registered (plainMnemonic 0), _, trivial, rfl, Nat.lt_succ_self 2⟩
  | readying token =>
    refine ⟨.ready (.ok ()), .signing token head.1 head.2, rfl, ?_, Nat.lt_succ_self 1⟩
    simp [step, Except.bind, hhead]
  | signing token algorithm publicKey =>
    exact ⟨.signed (.ok []), _, ⟨[], rfl⟩, rfl, Nat.lt_succ_self 0⟩
  | fulfilled token => cases hpending
  | rejected error => cases hpending

/-! ## The whole creation -/

/-- What signing `token` awaits, with a signer that keeps its account. -/
def signEvents (signer : Signer) (token : AuthToken) : List CreationEvent :=
  [.ready signer.isReady, .signed (signer.sign token.toBinary)]

theorem run_sign {signer : Signer} {token u : AuthToken} (h : token.sign signer = .ok u) :
    run (step signer.toAccount now) (.readying token) (signEvents signer token)
      = some (.fulfilled u) := by
  obtain ⟨signature, hsignature, rfl⟩ := AuthToken.sign_eq_ok.mp h
  obtain ⟨hready, hhead, hvalue⟩ := createSignature_eq_ok.mp hsignature
  simp [signEvents, run_cons, hready, hvalue, step, Except.bind, hhead]

/-- `createSdkToken` is its creation run to the end, all at one time and with one account. -/
theorem run_createSdkToken {mnemonic : Mnemonic} {registry registry' : List KeyPair}
    {signer : Signer} {token : AuthToken}
    (h : CereDdc.createSdkToken mnemonic now registry signer = .ok (token, registry')) :
    run (step signer.toAccount now) (createSdkToken signer.toAccount signer.isWeb3 now)
      ((if signer.isWeb3 then [.registered mnemonic] else []) ++
        signEvents signer (.root none (AuthToken.fullAccessPayload now (sdkSubject mnemonic signer))))
      = some (.fulfilled token) := by
  obtain ⟨-, hsign⟩ := createSdkToken_eq_ok.mp h
  rw [createSdkToken_eq]
  unfold sdkSubject at hsign ⊢
  by_cases hweb3 : signer.isWeb3
  · simp only [if_pos hweb3] at hsign ⊢
    exact run_sign hsign
  · simp only [if_neg hweb3] at hsign ⊢
    exact run_sign hsign

end Creation

end CereDdc
