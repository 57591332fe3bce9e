import CereDdc.NodeTokens
import CereDdc.FailedTokens

/-!
# NodeFailures — a storage node after a failure

A root token that could not be made stays in `rootTokenPromise` as a rejection,
so the operations that need it fail from then on; the others do not notice.
-/

namespace CereDdc

open Kit (Outcome ReachesBy)

namespace NodeState

variable {s t u : NodeState} {l : NodeEvent} {ls : List NodeEvent} {i k : Nat}
  {operation : OperationPhase} {account : Account} {token : AuthToken}
  {accessToken : Option TokenInput}

/-- The signer does not fail in this event. -/
def Succeeds : NodeEvent → Prop
  | .createRoot event => event.Succeeds
  | .sign _ event => event.Succeeds
  | .switch account => account.Works
  | _ => True

/-- Operation `i` has a token in some state that successes lead to. -/
def CanResolve (s : NodeState) (i : Nat) : Prop :=
  ∃ u operation token, ReachesBy step Succeeds s u ∧ u.operations[i]? = some operation ∧
    operation.outcome = .resolved token

/-- From here on operation `i` can get a token, and no success keeps it from that. -/
def Obtains (s : NodeState) (i : Nat) : Prop :=
  s.CanResolve i ∧ ∀ u operation error, ReachesBy step Succeeds s u →
    u.operations[i]? = some operation → operation.outcome ≠ .rejected error

/-! ## What holds in every run -/

end NodeState

/-- A root token, or what is becoming one: its SDK signer is of a type that DDC accepts, and it
has a payload. -/
structure Creation.IsRoot (creation : Creation) : Prop where
  type : ∀ type, creation = .registering type → type.allowed = true
  payload : ∀ token, creation.draft = some token → ∃ payload, token.payload = some payload

theorem Account.Works.allowed {account : Account} (h : account.Works) :
    account.type.allowed = true := by
  obtain ⟨⟨algorithm, key⟩, hhead⟩ := h
  exact (signatureHead_eq_ok hhead).1

theorem Signer.Works.account {signer : Signer} (h : signer.Works) : signer.toAccount.Works := by
  obtain ⟨key, hkey⟩ := h.publicKey
  obtain ⟨algorithm, hhead⟩ := signatureHead_of_allowed h.allowed hkey
  exact ⟨_, hhead⟩

namespace Creation

variable {account : Account} {now : Int} {creation next : Creation} {event : CreationEvent}

theorem createSdkToken_isRoot {isWeb3 : Bool} (h : account.Works) :
    (createSdkToken account isWeb3 now).IsRoot := by
  rw [createSdkToken_eq]
  cases isWeb3 with
  | true =>
    refine ⟨?_, by rintro token ⟨⟩⟩
    intro type htype
    cases htype
    exact h.allowed
  | false =>
    refine ⟨by rintro type ⟨⟩, ?_⟩
    intro token htoken
    cases htoken
    exact ⟨_, rfl⟩

theorem IsRoot.step (h : creation.IsRoot) (hnext : creation.step account now event = some next) :
    next.IsRoot := by
  rcases step_cases hnext with
    ⟨type, mnemonic, rfl, -, rfl⟩ | ⟨token, algorithm, publicKey, rfl, -, rfl⟩ |
      ⟨token, algorithm, publicKey, value, rfl, rfl⟩ | ⟨error, -, rfl, -⟩
  · refine ⟨by rintro _ ⟨⟩, ?_⟩
    intro token htoken
    cases htoken
    exact ⟨_, rfl⟩
  · exact ⟨by rintro _ ⟨⟩, h.payload⟩
  · refine ⟨by rintro _ ⟨⟩, ?_⟩
    intro _ heq
    cases heq
    obtain ⟨payload, hpayload⟩ := h.payload token rfl
    exact ⟨payload, by simpa using hpayload⟩
  · exact ⟨by rintro _ ⟨⟩, by rintro token ⟨⟩⟩

/-- What a root token's creation enters into the registry works. -/
theorem IsRoot.registry {registry : List KeyPair} (h : creation.IsRoot)
    (hregistry : ∀ pair ∈ registry, (UriSigner pair).Works) :
    ∀ pair ∈ creation.registry registry event, (UriSigner pair).Works := by
  intro pair hpair
  cases creation with
  | registering type =>
    cases event with
    | registered mnemonic =>
      rcases List.mem_cons.mp hpair with rfl | hmem
      · exact mnemonic.works (h.type type rfl)
      · exact hregistry pair hmem
    | _ => exact hregistry pair hpair
  | _ => exact hregistry pair hpair

end Creation

/-- An operation waits for a root promise that is there, and is signed by an SDK signer that
works if by any. -/
def OperationPhase.Sound (rootToken : Option Creation) : OperationPhase → Prop
  | awaitingRoot => ∃ creation, rootToken = some creation
  | signing sdkSigner creation => (∀ signer, sdkSigner = some signer → signer.Works) ∧
      ∀ type, creation ≠ .registering type
  | _ => True

namespace NodeState

variable {s t u : NodeState} {l : NodeEvent} {ls : List NodeEvent} {i k : Nat}
  {operation : OperationPhase} {account : Account} {token : AuthToken}
  {accessToken : Option TokenInput}

structure Sound (s : NodeState) : Prop where
  account : s.account.Works
  registry : ∀ pair ∈ s.registry, (UriSigner pair).Works
  rootToken : ∀ creation, s.rootToken = some creation → creation.IsRoot
  operations : ∀ (k : Nat) (operation : OperationPhase), s.operations[k]? = some operation →
    operation.Sound s.rootToken

theorem Sound.derive (hs : s.Sound) (token : AuthToken) : (s.derive token).Sound t.rootToken := by
  unfold NodeState.derive
  cases AuthToken.fromToken s.now token with
  | error error => trivial
  | ok derived =>
    refine ⟨?_, by rintro type ⟨⟩⟩
    intro sdkSigner hsdk
    obtain ⟨key, -, hget⟩ := Option.bind_eq_some_iff.mp hsdk
    obtain ⟨pair, hpair, rfl, -⟩ := getSdkSigner_eq_some hget
    exact hs.registry pair hpair

/-- A creation that goes on is past its registration. -/
theorem step_ne_registering {account : Account} {now : Int} {creation next : Creation}
    {event : CreationEvent} (h : creation.step account now event = some next) (type : SignerType) :
    next ≠ .registering type := by
  intro heq
  rcases Creation.step_cases h with
    ⟨_, _, -, -, rfl⟩ | ⟨_, _, _, -, -, rfl⟩ | ⟨_, _, _, _, -, rfl⟩ | ⟨_, -, rfl, -⟩ <;>
  cases heq

theorem Step.rootToken_some {creation : Creation} (h : Step s l t)
    (hroot : s.rootToken = some creation) : ∃ creation', t.rootToken = some creation' := by
  rcases h.rootToken_cases with heq | ⟨hnone, -, -⟩ | ⟨event, _, next, -, -, -, hnext⟩
  · exact ⟨creation, heq.trans hroot⟩
  · rw [hroot] at hnone
    cases hnone
  · exact ⟨next, hnext⟩

/-- An operation begins with the root promise that it asks for, or with the token it is given. -/
theorem Sound.createAuthToken (hs : s.Sound) :
    (s.createAuthToken accessToken).Sound (s.getRootToken accessToken) := by
  cases accessToken with
  | none =>
    cases hroot : s.rootToken with
    | none =>
      exact ⟨Creation.createSdkToken s.account s.isWeb3 s.now,
        by simp [NodeState.getRootToken, hroot]⟩
    | some creation => exact ⟨creation, by simp [NodeState.getRootToken, hroot]⟩
  | some input =>
    unfold NodeState.createAuthToken
    cases hinput : AuthToken.maybeToken input with
    | error error => simp [hinput, OperationPhase.Sound]
    | ok token =>
      by_cases hsigned : token.isSigned = true
      · simp [hinput, hsigned, OperationPhase.Sound]
      · simp only [hinput, hsigned]
        exact hs.derive (t := s) token

theorem Sound.step (hs : s.Sound) (hl : ∀ a, l = .switch a → a.Works) (h : Step s l t) :
    t.Sound := by
  refine ⟨?_, ?_, ?_, ?_⟩
  · cases h with
    | switch hother => exact hl _ rfl
    | _ => exact hs.account
  · cases h with
    | createRoot hroot hnext => exact (hs.rootToken _ hroot).registry hs.registry
    | _ => exact hs.registry
  · intro creation hcreation
    rcases h.rootToken_cases with heq | ⟨-, -, hnew⟩ | ⟨event, old, next, hold, -, hnext, hnew⟩
    · exact hs.rootToken creation (heq.symm.trans hcreation)
    · rw [hnew] at hcreation
      cases hcreation
      exact Creation.createSdkToken_isRoot hs.account
    · rw [hnew] at hcreation
      cases hcreation
      exact (hs.rootToken old hold).step hnext
  · intro k operation hk
    cases h.operationStep hk with
    | @new accessToken hnew hlength =>
      subst hnew
      cases h with
      | createAuthToken => exact hs.createAuthToken
    | kept hoperation =>
      have hsound := hs.operations k operation hoperation
      cases operation with
      | awaitingRoot =>
        obtain ⟨creation, hroot⟩ := hsound
        exact h.rootToken_some hroot
      | _ => exact hsound
    | resume hoperation hroot => exact hs.derive _
    | rootRejected hoperation hroot => trivial
    | sign hsign hoperation hnext => exact ⟨by rintro signer ⟨⟩, step_ne_registering hnext⟩
    | sdkSign hoperation hnext =>
      exact ⟨(hs.operations k _ hoperation).1, step_ne_registering hnext⟩

/-- A node as its constructor leaves it, with the `authToken` of its configuration. -/
def new (now : Int) (isWeb3 : Bool) (account : Account) (authToken : Option AuthToken) :
    NodeState :=
  { now, isWeb3, account, rootToken := authToken.map .fulfilled }

theorem new_sound {now : Int} {isWeb3 : Bool} {authToken : Option AuthToken}
    (haccount : account.Works)
    (htoken : ∀ token, authToken = some token → ∃ payload, token.payload = some payload) :
    (new now isWeb3 account authToken).Sound := by
  refine ⟨haccount, by rintro pair ⟨⟩, ?_, by rintro k operation ⟨⟩⟩
  intro creation hcreation
  obtain ⟨token, hsome, rfl⟩ := Option.map_eq_some_iff.mp hcreation
  refine ⟨by rintro type ⟨⟩, ?_⟩
  intro _ heq
  cases heq
  exact htoken token hsome

theorem run_sound (hs : s.Sound) (hls : ∀ a, .switch a ∈ ls → a.Works)
    (h : Kit.run step s ls = some t) : t.Sound := by
  refine Kit.run_invariant_of (P := Sound) (fun s l t hl hs h => hs.step hl (Step.of_step h)) ?_ hs h
  intro l hl a ha
  subst ha
  exact hls a hl

/-! ## After a failure -/

theorem rootOutcome_eq_rejected {error : JsError} :
    s.rootOutcome = .rejected error ↔ s.rootToken = some (.rejected error) := by
  unfold rootOutcome
  cases s.rootToken with
  | none => exact ⟨by rintro ⟨⟩, by rintro ⟨⟩⟩
  | some creation => cases creation <;> simp [Creation.outcome]

/-- Without a root token operation `i` has no token. -/
structure Stuck (i : Nat) (s : NodeState) : Prop where
  rootToken : ∃ error, s.rootToken = some (.rejected error)
  operation : ∀ operation, s.operations[i]? = some operation →
    operation = .awaitingRoot ∨ ∃ error, operation = .failed error
  started : i < s.operations.length

theorem Stuck.step (hs : s.Stuck i) (h : Step s l t) : t.Stuck i := by
  obtain ⟨⟨error, hroot⟩, hoperation, hstarted⟩ := hs
  have houtcome := rootOutcome_eq_rejected.mpr hroot
  refine ⟨?_, ?_, Nat.lt_of_lt_of_le hstarted h.operations_length_le⟩
  · rcases h.rootToken_cases with heq | ⟨hnone, -, -⟩ | ⟨event, creation, next, hsome, -, hnext, -⟩
    · exact ⟨error, heq.trans hroot⟩
    · rw [hroot] at hnone
      cases hnone
    · rw [hroot] at hsome
      cases hsome
      cases hnext
  · intro operation hk
    cases h.operationStep hk with
    | new hnew hlength => omega
    | kept hold => exact hoperation operation hold
    | resume hold hresolved =>
      rw [houtcome] at hresolved
      cases hresolved
    | rootRejected hold hrejected => exact .inr ⟨_, rfl⟩
    | sign _ hold hnext =>
      rcases hoperation _ hold with hwaiting | ⟨_, hfailed⟩
      · cases hwaiting
      · cases hfailed
    | sdkSign hold hnext =>
      rcases hoperation _ hold with hwaiting | ⟨_, hfailed⟩
      · cases hwaiting
      · cases hfailed

/-- `||=` keeps a rejected promise, so that an operation which asks for the root token is stuck. -/
theorem Step.stuck {error : JsError} (h : Step s (.createAuthToken none) t)
    (hrejected : s.rootOutcome = .rejected error) : t.Stuck s.operations.length := by
  have hroot := rootOutcome_eq_rejected.mp hrejected
  cases h
  refine ⟨⟨error, by simp [NodeState.getRootToken, hroot]⟩, ?_, ?_⟩
  · intro operation hk
    rw [List.getElem?_concat_length] at hk
    cases hk
    exact .inl rfl
  · rw [List.length_append]
    exact Nat.lt_succ_self _

theorem Stuck.not_canResolve (hs : s.Stuck i) : ¬ s.CanResolve i := by
  rintro ⟨u, operation, token, hreaches, hoperation, houtcome⟩
  have hu := hreaches.invariant (P := Stuck i) (fun _ _ _ _ hs h => hs.step (Step.of_step h)) hs
  rcases hu.operation operation hoperation with rfl | ⟨error, rfl⟩
  · cases houtcome
  · cases houtcome

/-! ## Without one -/

/-- Operation `i` has not failed, and neither has the root token if it waits for it. -/
structure Good (i : Nat) (s : NodeState) : Prop where
  sound : s.Sound
  outcome : ∀ operation error, s.operations[i]? = some operation →
    operation.outcome ≠ .rejected error
  rootOutcome : ∀ error, s.operations[i]? = some .awaitingRoot → s.rootOutcome ≠ .rejected error
  started : i < s.operations.length

/-- A root token with a payload can be derived from. -/
theorem derive_not_rejected {payload : Payload} (h : token.payload = some payload) (error : JsError) :
    (s.derive token).outcome ≠ .rejected error := by
  unfold NodeState.derive
  rw [AuthToken.fromToken_eq h]
  intro heq
  cases heq

theorem Sound.root_payload (hs : s.Sound) (h : s.rootOutcome = .resolved token) :
    ∃ payload, token.payload = some payload := by
  unfold rootOutcome at h
  cases hroot : s.rootToken with
  | none =>
    rw [hroot] at h
    cases h
  | some creation =>
    rw [hroot] at h
    exact (hs.rootToken creation hroot).payload token (Creation.draft_of_outcome h)

theorem sdkEvent_succeeds {sdkSigner : Signer} (h : sdkSigner.Works) (creation : Creation) :
    (sdkEvent sdkSigner creation).Succeeds := by
  cases creation with
  | signing token algorithm publicKey => exact h.sign token.toBinary
  | _ => exact h.isReady

/-- An SDK signer goes on with a pending signature. -/
theorem sdk_progress {sdkSigner : Signer} {creation : Creation} (h : sdkSigner.Works)
    (hpending : creation.outcome = .pending) (hregistered : ∀ type, creation ≠ .registering type)
    (now : Int) :
    ∃ next, creation.step sdkSigner.toAccount now (sdkEvent sdkSigner creation) = some next ∧
      next.remaining < creation.remaining := by
  obtain ⟨head, hhead⟩ := h.account
  cases creation with
  | registering type => exact absurd rfl (hregistered type)
  | readying token =>
    refine ⟨.signing token head.1 head.2, ?_, Nat.lt_succ_self 1⟩
    simp [sdkEvent, Creation.step, h.isReady, Except.bind, hhead]
  | signing token algorithm publicKey =>
    obtain ⟨value, hvalue⟩ := h.sign token.toBinary
    refine ⟨.fulfilled (token.withSignature ⟨algorithm, publicKey, value⟩), ?_, Nat.lt_succ_self 0⟩
    simp [sdkEvent, Creation.step, hvalue]
  | fulfilled token => cases hpending
  | rejected error => cases hpending

theorem Step.rootOutcome_not_rejected (hs : s.Sound) (hl : Succeeds l) (h : Step s l t)
    (hroot : ∀ error, s.rootOutcome ≠ .rejected error) (error : JsError) :
    t.rootOutcome ≠ .rejected error := by
  unfold rootOutcome at hroot ⊢
  rcases h.rootToken_cases with heq | ⟨-, -, hnew⟩ | ⟨event, old, next, hold, rfl, hnext, hnew⟩
  · rw [heq]
    exact hroot error
  · rw [hnew]
    simp only [Creation.createSdkToken_eq]
    cases s.isWeb3 <;> rintro ⟨⟩
  · rw [hnew]
    exact Creation.not_rejected_of_succeeds hs.account hl hnext error

theorem derive_ne_awaitingRoot (token : AuthToken) : s.derive token ≠ .awaitingRoot := by
  unfold NodeState.derive
  cases AuthToken.fromToken s.now token <;> rintro ⟨⟩

/-- An operation that waits for the root token has always done so. -/
theorem OperationStep.of_awaitingRoot (h : OperationStep s l k .awaitingRoot)
    (hk : k < s.operations.length) : s.operations[k]? = some .awaitingRoot := by
  generalize hwaiting : OperationPhase.awaitingRoot = operation at h
  cases h with
  | new hnew hlength => omega
  | kept hold =>
    subst hwaiting
    exact hold
  | resume hold hresolved => exact absurd hwaiting.symm (derive_ne_awaitingRoot _)
  | rootRejected hold hrejected => cases hwaiting
  | sign hsign hold hnext => cases hwaiting
  | sdkSign hold hnext => cases hwaiting

theorem Good.step (hs : s.Good i) (hl : Succeeds l) (h : Step s l t) : t.Good i := by
  have hsound : t.Sound := by
    apply hs.sound.step _ h
    intro a ha
    subst ha
    exact hl
  refine ⟨hsound, ?_, ?_, Nat.lt_of_lt_of_le hs.started h.operations_length_le⟩
  · intro operation error hk
    cases h.operationStep hk with
    | new hnew hlength =>
      have hstarted := hs.started
      omega
    | kept hold => exact hs.outcome operation error hold
    | resume hold hresolved =>
      obtain ⟨payload, hpayload⟩ := hs.sound.root_payload hresolved
      exact derive_not_rejected hpayload error
    | rootRejected hold hrejected => exact absurd hrejected (hs.rootOutcome _ hold)
    | sign hsign hold hnext =>
      subst hsign
      exact Creation.not_rejected_of_succeeds hs.sound.account hl hnext error
    | sdkSign hold hnext =>
      obtain ⟨hworks, -⟩ := hs.sound.operations i _ hold
      exact Creation.not_rejected_of_succeeds (hworks _ rfl).account
        (sdkEvent_succeeds (hworks _ rfl) _) hnext error
  · intro error hk
    have hold := (h.operationStep hk).of_awaitingRoot hs.started
    exact h.rootOutcome_not_rejected hs.sound hl (fun error => hs.rootOutcome error hold) error

theorem CanResolve.of_step (hl : Succeeds l) (h : Step s l t) (ht : t.CanResolve i) :
    s.CanResolve i := by
  obtain ⟨u, operation, token, hreaches, hoperation, houtcome⟩ := ht
  exact ⟨u, operation, token, .trans (.single hl h.step_eq) hreaches, hoperation, houtcome⟩

/-- `n` stages are ahead of the signature that operation `i` waits for. -/
def Signs (i n : Nat) (s : NodeState) : Prop :=
  s.Good i ∧ ∃ sdkSigner creation, s.operations[i]? = some (.signing sdkSigner creation) ∧
    creation.remaining = n

theorem Signs.progress (n : Nat) (s : NodeState) (h : Signs i n s) :
    (∃ operation token, s.operations[i]? = some operation ∧ operation.outcome = .resolved token) ∨
      ∃ l t m, Succeeds l ∧ s.step l = some t ∧ m < n ∧ Signs i m t := by
  obtain ⟨hs, sdkSigner, creation, hk, rfl⟩ := h
  cases houtcome : creation.outcome with
  | rejected error => exact absurd houtcome (hs.outcome _ error hk)
  | resolved token => exact .inl ⟨_, token, hk, houtcome⟩
  | pending =>
    cases sdkSigner with
    | none =>
      obtain ⟨event, next, hevent, hnext, hless⟩ :=
        Creation.progress hs.sound.account houtcome s.now
      have hstep := Step.sign hk hnext
      have hsucceeds : Succeeds (.sign i event) := hevent
      refine .inr ⟨_, _, _, hsucceeds, hstep.step_eq, hless, ?_⟩
      exact ⟨hs.step hsucceeds hstep, none, next, setOperation_self hk _, rfl⟩
    | some sdkSigner =>
      obtain ⟨hworks, hregistered⟩ := hs.sound.operations i _ hk
      obtain ⟨next, hnext, hless⟩ := sdk_progress (hworks sdkSigner rfl) houtcome hregistered s.now
      have hstep := Step.sdkSign hk hnext
      have hsucceeds : Succeeds (.sdkSign i) := trivial
      refine .inr ⟨_, _, _, hsucceeds, hstep.step_eq, hless, ?_⟩
      exact ⟨hs.step hsucceeds hstep, sdkSigner, next, setOperation_self hk _, rfl⟩

/-- A signature that has not failed comes to its end. -/
theorem Good.canResolve_signing {sdkSigner : Option Signer} {creation : Creation} (hs : s.Good i)
    (hk : s.operations[i]? = some (.signing sdkSigner creation)) : s.CanResolve i := by
  have hsigns : Signs i creation.remaining s := ⟨hs, sdkSigner, creation, hk, rfl⟩
  obtain ⟨u, hreaches, operation, token, hoperation, houtcome⟩ :=
    ReachesBy.of_stages Signs.progress hsigns
  exact ⟨u, operation, token, hreaches, hoperation, houtcome⟩

/-- `n` stages are ahead of the root token that operation `i` waits for. -/
def Awaits (i n : Nat) (s : NodeState) : Prop :=
  s.Good i ∧ s.operations[i]? = some .awaitingRoot ∧
    ∃ creation, s.rootToken = some creation ∧ creation.remaining = n

theorem Awaits.progress (n : Nat) (s : NodeState) (h : Awaits i n s) :
    (s.Good i ∧ s.operations[i]? = some .awaitingRoot ∧
      ∃ token, s.rootOutcome = .resolved token) ∨
      ∃ l t m, Succeeds l ∧ s.step l = some t ∧ m < n ∧ Awaits i m t := by
  obtain ⟨hs, hk, creation, hroot, rfl⟩ := h
  have hsame : s.rootOutcome = creation.outcome := by simp [NodeState.rootOutcome, hroot]
  cases houtcome : creation.outcome with
  | rejected error => exact absurd (hsame.trans houtcome) (hs.rootOutcome error hk)
  | resolved token => exact .inl ⟨hs, hk, token, hsame.trans houtcome⟩
  | pending =>
    obtain ⟨event, next, hevent, hnext, hless⟩ :=
      Creation.progress hs.sound.account houtcome s.now
    have hstep := Step.createRoot hroot hnext
    have hsucceeds : Succeeds (.createRoot event) := hevent
    refine .inr ⟨_, _, _, hsucceeds, hstep.step_eq, hless, ?_⟩
    exact ⟨hs.step hsucceeds hstep, hk, next, rfl, rfl⟩

/-- Once the root token is there, the operation derives its own from it and signs that. -/
theorem Good.canResolve_resume (hs : s.Good i) (hk : s.operations[i]? = some .awaitingRoot)
    (hresolved : s.rootOutcome = .resolved token) : s.CanResolve i := by
  have hstep := Step.resume hk hresolved
  have hsucceeds : Succeeds (.resume i) := trivial
  apply CanResolve.of_step hsucceeds hstep
  obtain ⟨payload, hpayload⟩ := hs.sound.root_payload hresolved
  have hsigning : ∃ sdkSigner derived, s.derive token = .signing sdkSigner derived := by
    unfold NodeState.derive
    rw [AuthToken.fromToken_eq hpayload]
    exact ⟨_, _, rfl⟩
  obtain ⟨sdkSigner, derived, hderive⟩ := hsigning
  have hself := setOperation_self hk (s.derive token)
  rw [hderive] at hself hstep ⊢
  exact (hs.step hsucceeds hstep).canResolve_signing hself

/-- A root token that has not failed comes to its end, and the operation with it. -/
theorem Good.canResolve_awaitingRoot {creation : Creation} (hs : s.Good i)
    (hk : s.operations[i]? = some .awaitingRoot) (hroot : s.rootToken = some creation) :
    s.CanResolve i := by
  have hawaits : Awaits i creation.remaining s := ⟨hs, hk, creation, hroot, rfl⟩
  obtain ⟨u, hreaches, hu, hwaiting, token, hresolved⟩ :=
    ReachesBy.of_stages Awaits.progress hawaits
  obtain ⟨v, operation, token', hreaches', hoperation, houtcome⟩ :=
    hu.canResolve_resume hwaiting hresolved
  exact ⟨v, operation, token', hreaches.trans hreaches', hoperation, houtcome⟩

theorem Good.reaches (hs : s.Good i) (h : ReachesBy NodeState.step Succeeds s u) : u.Good i :=
  h.invariant (fun _ _ _ hl hs h => Good.step hs hl (Step.of_step h)) hs

theorem Good.obtains (hs : s.Good i) : s.Obtains i := by
  obtain ⟨operation, hk⟩ : ∃ operation, s.operations[i]? = some operation :=
    ⟨_, List.getElem?_eq_getElem hs.started⟩
  refine ⟨?_, ?_⟩
  · cases operation with
    | awaitingRoot =>
      obtain ⟨creation, hroot⟩ := hs.sound.operations i _ hk
      exact hs.canResolve_awaitingRoot hk hroot
    | signing sdkSigner creation => exact hs.canResolve_signing hk
    | given token => exact ⟨s, _, token, .refl s, hk, rfl⟩
    | failed error => exact absurd rfl (hs.outcome _ error hk)
  · intro u operation error hreaches hk
    exact (hs.reaches hreaches).outcome operation error hk

/-- An access token that can be read and has a payload serves an operation by itself. -/
theorem createAuthToken_access {input : TokenInput} {payload : Payload}
    (hinput : AuthToken.maybeToken input = .ok token) (hpayload : token.payload = some payload) :
    s.createAuthToken (some input) ≠ .awaitingRoot ∧
      ∀ error, (s.createAuthToken (some input)).outcome ≠ .rejected error := by
  by_cases hsigned : token.isSigned = true
  · have hgiven : s.createAuthToken (some input) = .given token := by
      simp [NodeState.createAuthToken, hinput, hsigned]
    rw [hgiven]
    exact ⟨by rintro ⟨⟩, by rintro error ⟨⟩⟩
  · have hderived : s.createAuthToken (some input) = s.derive token := by
      simp [NodeState.createAuthToken, hinput, hsigned]
    rw [hderived]
    exact ⟨derive_ne_awaitingRoot token, derive_not_rejected hpayload⟩

/-- An operation that the signer works for gets a token if and only if it brings its own access
token, or the root token of the node has not failed. -/
theorem createAuthToken_obtains_iff (hs : s.Sound)
    (haccess : ∀ input, accessToken = some input → ∃ token payload,
      AuthToken.maybeToken input = .ok token ∧ token.payload = some payload)
    (hstep : s.step (.createAuthToken accessToken) = some t) :
    t.Obtains s.operations.length ↔
      (accessToken.isSome ∨ ∀ error, s.rootOutcome ≠ .rejected error) := by
  have hStep := Step.of_step hstep
  have ht : t.Sound := hs.step (by simp) hStep
  have hcreated : t.operations[s.operations.length]? = some (s.createAuthToken accessToken) := by
    cases hstep
    exact List.getElem?_concat_length ..
  obtain ⟨hlt, -⟩ := List.getElem?_eq_some_iff.mp hcreated
  cases accessToken with
  | some input =>
    obtain ⟨token, payload, hinput, hpayload⟩ := haccess input rfl
    obtain ⟨hwaits, hrejected⟩ := createAuthToken_access (s := s) hinput hpayload
    refine ⟨fun _ => .inl rfl, fun _ => Good.obtains ⟨ht, ?_, ?_, hlt⟩⟩
    · intro operation error hk
      rw [hcreated] at hk
      cases hk
      exact hrejected error
    · intro error hk
      rw [hcreated] at hk
      exact absurd (Option.some.inj hk) hwaits
  | none =>
    refine ⟨fun hobtains => .inr ?_, fun hroot => Good.obtains ⟨ht, ?_, ?_, hlt⟩⟩
    · intro error hrejected
      exact (hStep.stuck hrejected).not_canResolve hobtains.1
    · intro operation error hk
      rw [hcreated] at hk
      cases hk
      intro heq
      cases heq
    · intro error _
      rcases hroot with hsome | hroot
      · cases hsome
      · have hsucceeds : Succeeds (.createAuthToken none) := trivial
        exact hStep.rootOutcome_not_rejected hs hsucceeds hroot error

end NodeState

/-! ## Routers and nodes -/

/-- When the signer works, a call of `getNode` gets its token if and only if no call before it has
failed, and an operation of a node if and only if it brings an access token or the root token of
the node has not failed. -/
theorem tokens_obtained_iff (now : Int) (isWeb3 : Bool) (account : Account) :
    (∀ ls (s t : RouterState),
      Kit.run RouterState.step (RouterState.new now isWeb3 account) ls = some s →
      s.account.Works → s.step .getNode = some t →
        (t.Obtains s.calls.length ↔ ∀ call ∈ s.calls, call.Alive)) ∧
    (∀ authToken ls accessToken (s t : NodeState),
      account.Works → (∀ a, .switch a ∈ ls → a.Works) →
      (∀ token, authToken = some token → ∃ payload, token.payload = some payload) →
      Kit.run NodeState.step (NodeState.new now isWeb3 account authToken) ls = some s →
      (∀ input, accessToken = some input → ∃ token payload,
        AuthToken.maybeToken input = .ok token ∧ token.payload = some payload) →
      s.step (.createAuthToken accessToken) = some t →
        (t.Obtains s.operations.length ↔
          (accessToken.isSome ∨ ∀ error, s.rootOutcome ≠ .rejected error))) := by
  refine ⟨?_, ?_⟩
  · intro ls s t hrun haccount hstep
    have hs := RouterState.run_linked (RouterState.new_linked now isWeb3 account) hrun
    exact RouterState.getNode_obtains_iff hs haccount hstep
  · intro authToken ls accessToken s t haccount hls htoken hrun haccess hstep
    have hs := NodeState.run_sound (NodeState.new_sound haccount htoken) hls hrun
    exact NodeState.createAuthToken_obtains_iff hs haccess hstep

theorem plainAccount_works (key : UInt8) : (plainAccount key).Works := ⟨(.sr25519, [key]), rfl⟩

/-- The first call of a router and the first operation of a node get their tokens. -/
theorem first_tokens_obtained :
    (∃ t, (RouterState.new 0 false (plainAccount 1)).step .getNode = some t ∧ t.Obtains 0) ∧
    ∃ t, (NodeState.new 0 false (plainAccount 1) none).step (.createAuthToken none) = some t ∧
      t.Obtains 0 := by
  obtain ⟨hrouter, hnode⟩ := tokens_obtained_iff 0 false (plainAccount 1)
  refine ⟨⟨_, rfl, ?_⟩, ⟨_, rfl, ?_⟩⟩
  · exact (hrouter [] _ _ rfl (plainAccount_works 1) rfl).mpr (by rintro _ ⟨⟩)
  · exact (hnode none [] none _ _ (plainAccount_works 1) (by rintro _ ⟨⟩)
      (by rintro _ ⟨⟩) rfl (by rintro _ ⟨⟩) rfl).mpr (.inr (by rintro _ ⟨⟩))

/-- The user dismisses the prompt of the wallet that is to sign the SDK token. -/
def dismissedPrompt : List CreationEvent :=
  [.registered (plainMnemonic 3), .ready (.ok ()), .signed (.error (.error "Cancelled"))]

/-- After that no call of the router gets a token, and no operation of the node without one. -/
theorem dismissedPrompt_lost :
    (∃ s t, Kit.run RouterState.step (RouterState.new 0 true (plainAccount 1))
        ([.getNode, .ready 0 (.ok ()), .check 0] ++ dismissedPrompt.map (.create 0)) = some s ∧
      s.account.Works ∧ s.step .getNode = some t ∧ ¬ t.Obtains s.calls.length) ∧
    ∃ s t, Kit.run NodeState.step (NodeState.new 0 true (plainAccount 1) none)
        (.createAuthToken none :: dismissedPrompt.map .createRoot) = some s ∧
      s.account.Works ∧ s.step (.createAuthToken none) = some t ∧
        ¬ t.Obtains s.operations.length := by
  refine ⟨?_, ?_⟩
  · obtain ⟨s, hs⟩ : ∃ s, Kit.run RouterState.step (RouterState.new 0 true (plainAccount 1))
        ([.getNode, .ready 0 (.ok ()), .check 0] ++ dismissedPrompt.map (.create 0)) = some s :=
      ⟨_, rfl⟩
    have hlinked := RouterState.run_linked (RouterState.new_linked 0 true (plainAccount 1)) hs
    cases hs
    refine ⟨_, _, rfl, plainAccount_works 1, rfl, ?_⟩
    rw [RouterState.getNode_obtains_iff hlinked (plainAccount_works 1) rfl]
    intro halive
    exact (halive _ (List.mem_singleton_self _)).outcome (.error "Cancelled") rfl
  · obtain ⟨s, hs⟩ : ∃ s, Kit.run NodeState.step (NodeState.new 0 true (plainAccount 1) none)
        (.createAuthToken none :: dismissedPrompt.map .createRoot) = some s := ⟨_, rfl⟩
    have hsound := NodeState.run_sound
      (NodeState.new_sound (plainAccount_works 1) (by rintro token ⟨⟩)) (by simp [dismissedPrompt]) hs
    cases hs
    refine ⟨_, _, rfl, plainAccount_works 1, rfl, ?_⟩
    rw [NodeState.createAuthToken_obtains_iff hsound (by rintro input ⟨⟩) rfl]
    rintro (hsome | hroot)
    · cases hsome
    · exact hroot (.error "Cancelled") rfl

end CereDdc
