import CereDdc.TokenChain

/-!
# OperationToken — the tokens a `StorageNode` sends

`createAuthToken` as a whole: from an access token or the node's root token, for
any signer, with the chain rules of `TokenChain`, and what becomes of the chain
of an access token that is not signed yet.
-/

namespace CereDdc

variable {mnemonic : Mnemonic} {now createdAt : Int}
  {signer : Signer} {state state' : TokenState} {accessToken : Option TokenInput}
  {input : TokenInput} {token source u : AuthToken}

/-! ## `createAuthToken`, case by case -/

/-- `source` allows the operation: it is the access token, or the node's root token without one. -/
def IsSource (state : TokenState) (accessToken : Option TokenInput)
    (source : AuthToken) : Prop :=
  match accessToken with
  | some input => AuthToken.maybeToken input = .ok source
  | none => state.rootToken = some source

theorem createAuthToken_signed (h : AuthToken.maybeToken input = .ok token)
    (hsigned : token.isSigned = true) :
    createAuthToken mnemonic createdAt now signer state (some input) = .ok (token, state) := by
  unfold createAuthToken
  rw [Option.mapM_some, h]
  change (if token.isSigned then _ else _) = _
  rw [if_pos hsigned]
  rfl

theorem createAuthToken_unsigned (h : AuthToken.maybeToken input = .ok token)
    (hsigned : token.isSigned = false) :
    createAuthToken mnemonic createdAt now signer state (some input) =
      (deriveToken now state.registry signer token).map (·, state) := by
  unfold createAuthToken
  rw [Option.mapM_some, h]
  change (if token.isSigned then _ else _) = _
  rw [if_neg (by simp [hsigned])]
  cases deriveToken now state.registry signer token <;> rfl

theorem createAuthToken_root
    (h : getRootToken mnemonic createdAt signer state = .ok (token, state')) :
    createAuthToken mnemonic createdAt now signer state none =
      (deriveToken now state'.registry signer token).map (·, state') := by
  unfold createAuthToken
  change (getRootToken mnemonic createdAt signer state >>= _) = _
  rw [h]
  change (deriveToken now state'.registry signer token >>= _) = _
  cases deriveToken now state'.registry signer token <;> rfl

/-- Every token that `createAuthToken` returns is its source or derived from it. -/
theorem createAuthToken_cases
    (h : createAuthToken mnemonic createdAt now signer state accessToken = .ok (u, state')) :
    (∃ input, accessToken = some input ∧ state' = state ∧
      AuthToken.maybeToken input = .ok u ∧ u.isSigned = true) ∨
    (∃ input token, accessToken = some input ∧ state' = state ∧
      AuthToken.maybeToken input = .ok token ∧ token.isSigned = false ∧
      deriveToken now state.registry signer token = .ok u) ∨
    (∃ token, accessToken = none ∧
      getRootToken mnemonic createdAt signer state = .ok (token, state') ∧
      deriveToken now state'.registry signer token = .ok u) := by
  cases accessToken with
  | some input =>
    cases hinput : AuthToken.maybeToken input with
    | error e =>
      unfold createAuthToken at h
      rw [Option.mapM_some, hinput] at h
      cases h
    | ok token =>
      by_cases hsigned : token.isSigned = true
      · rw [createAuthToken_signed hinput hsigned] at h
        cases h
        exact .inl ⟨input, rfl, rfl, hinput, hsigned⟩
      · rw [Bool.not_eq_true] at hsigned
        rw [createAuthToken_unsigned hinput hsigned] at h
        cases hderive : deriveToken now state.registry signer token with
        | error e =>
          rw [hderive] at h
          cases h
        | ok derived =>
          rw [hderive] at h
          cases h
          exact .inr (.inl ⟨input, token, rfl, rfl, hinput, hsigned, hderive⟩)
  | none =>
    rcases hroot : getRootToken mnemonic createdAt signer state with e | ⟨token, rootState⟩
    · unfold createAuthToken at h
      change (getRootToken mnemonic createdAt signer state >>= _) = _ at h
      rw [hroot] at h
      cases h
    · rw [createAuthToken_root hroot] at h
      cases hderive : deriveToken now rootState.registry signer token with
      | error e =>
        rw [hderive] at h
        cases h
      | ok derived =>
        rw [hderive] at h
        cases h
        exact .inr (.inr ⟨token, rfl, rfl, hderive⟩)

/-- The operations of a node expire with its root token. -/
theorem createAuthToken_expiresAt {registry : List KeyPair} {e : Int} (he : token.expiresAt = some e)
    (h : createAuthToken mnemonic createdAt now signer ⟨some token, registry⟩ none
      = .ok (u, state')) : u.expiresAt = some e := by
  rcases createAuthToken_cases h with ⟨_, hnone, _⟩ | ⟨_, _, hnone, _⟩ | ⟨root, -, hroot, hderive⟩
  · cases hnone
  · cases hnone
  · cases hroot
    exact deriveToken_expiresAt hderive he

/-! ## The chain of every operation -/

/-- `createAuthToken` keeps the root token of the node usable. -/
theorem createAuthToken_usable (hstate : state.Usable signer)
    (h : createAuthToken mnemonic createdAt now signer state accessToken = .ok (u, state')) :
    state'.Usable signer := by
  rcases createAuthToken_cases h with ⟨_, _, rfl, _⟩ | ⟨_, _, _, rfl, _⟩ | ⟨token, _, hroot, _⟩
  · exact hstate
  · exact hstate
  · exact (getRootToken_usable hstate hroot).2

/-- What signs the operations of a node works, and its root token, if it has one, has a payload. -/
structure TokenState.Works (signer : Signer) (state : TokenState) : Prop where
  ownSigner : signer.Works
  registry : ∀ pair ∈ state.registry, (UriSigner pair).Works
  rootToken : ∀ token, state.rootToken = some token → ∃ payload, token.payload = some payload

/-- With signers that work there is a root token, and something to derive from. -/
theorem getRootToken_of_works (mnemonic : Mnemonic) (createdAt : Int) (h : state.Works signer) :
    ∃ token state' payload,
      getRootToken mnemonic createdAt signer state = .ok (token, state') ∧
        token.payload = some payload ∧ ∀ pair ∈ state'.registry, (UriSigner pair).Works := by
  unfold getRootToken
  cases hroot : state.rootToken with
  | some token =>
    obtain ⟨payload, hpayload⟩ := h.rootToken token hroot
    exact ⟨token, state, payload, rfl, hpayload, h.registry⟩
  | none =>
    obtain ⟨token, hsign⟩ := AuthToken.sign_of_works h.ownSigner
      (.root none (AuthToken.fullAccessPayload createdAt (sdkSubject mnemonic signer)))
    have hcreate : createSdkToken mnemonic createdAt state.registry signer
        = .ok (token, sdkRegistry mnemonic state.registry signer) :=
      createSdkToken_eq_ok.mpr ⟨rfl, hsign⟩
    refine ⟨token, ⟨some token, sdkRegistry mnemonic state.registry signer⟩, _, ?_,
      createSdkToken_payload hcreate, ?_⟩
    · show (createSdkToken mnemonic createdAt state.registry signer >>= _) = _
      rw [hcreate]
      rfl
    · intro pair hpair
      unfold sdkRegistry at hpair
      by_cases hweb3 : signer.isWeb3
      · rw [if_pos hweb3] at hpair
        rcases List.mem_cons.mp hpair with rfl | hmem
        · exact mnemonic.works h.ownSigner.allowed
        · exact h.registry pair hmem
      · rw [if_neg hweb3] at hpair
        exact h.registry pair hpair

/-- Signers that work give every operation a token. -/
theorem createAuthToken_of_works (h : state.Works signer)
    (haccess : ∀ input, accessToken = some input →
      ∃ token payload, AuthToken.maybeToken input = .ok token ∧
        token.payload = some payload) :
    ∃ u state',
      createAuthToken mnemonic createdAt now signer state accessToken = .ok (u, state') := by
  cases accessToken with
  | some input =>
    obtain ⟨token, payload, hinput, hpayload⟩ := haccess input rfl
    by_cases hsigned : token.isSigned = true
    · exact ⟨token, state, createAuthToken_signed hinput hsigned⟩
    · rw [Bool.not_eq_true] at hsigned
      obtain ⟨u, hu⟩ := deriveToken_of_works now hpayload
        (operationSigner_works token h.ownSigner h.registry)
      refine ⟨u, state, ?_⟩
      rw [createAuthToken_unsigned hinput hsigned, hu]
      rfl
  | none =>
    obtain ⟨token, rootState, payload, hroot, hpayload, hregistry⟩ :=
      getRootToken_of_works mnemonic createdAt h
    obtain ⟨u, hu⟩ := deriveToken_of_works now hpayload
      (operationSigner_works token h.ownSigner hregistry)
    refine ⟨u, rootState, ?_⟩
    rw [createAuthToken_root hroot, hu]
    rfl

/-- From a usable token, given or the node's root, every operation gets a signed token with a
well formed chain and the rights of that token, and leaves the node with a usable root token if
with any; and there is one as long as the signers work. -/
theorem createAuthToken_derivedFrom (hstate : state.Usable signer)
    (haccess : ∀ input, accessToken = some input →
      ∃ token, AuthToken.maybeToken input = .ok token ∧ Usable signer state.registry token) :
    (∀ u state',
      createAuthToken mnemonic createdAt now signer state accessToken = .ok (u, state') →
        state'.Usable signer ∧ ∃ source, IsSource state' accessToken source ∧
          DerivedFrom source u) ∧
    (state.Works signer →
      (∀ input token, accessToken = some input → AuthToken.maybeToken input = .ok token →
        ∃ payload, token.payload = some payload) →
      ∃ u state',
        createAuthToken mnemonic createdAt now signer state accessToken = .ok (u, state')) := by
  refine ⟨?_, ?_⟩
  · intro u state' h
    refine ⟨createAuthToken_usable hstate h, ?_⟩
    rcases createAuthToken_cases h with
      ⟨input, rfl, rfl, hinput, hsigned⟩ | ⟨input, token, rfl, rfl, hinput, -, hderive⟩ |
        ⟨token, rfl, hroot, hderive⟩
    · obtain ⟨token, htoken, husable⟩ := haccess input rfl
      obtain rfl : u = token := Except.ok.inj (hinput.symm.trans htoken)
      exact ⟨u, hinput, .refl hsigned husable.chain⟩
    · obtain ⟨token', htoken, husable⟩ := haccess input rfl
      obtain rfl : token = token' := Except.ok.inj (hinput.symm.trans htoken)
      exact ⟨token, hinput, deriveToken_derivedFrom husable hderive⟩
    · obtain ⟨hkept, husable⟩ := getRootToken_usable hstate hroot
      exact ⟨token, hkept, deriveToken_derivedFrom (husable token hkept) hderive⟩
  · intro hworks hpayloads
    apply createAuthToken_of_works hworks
    intro input hinput
    obtain ⟨token, htoken, -⟩ := haccess input hinput
    obtain ⟨payload, hpayload⟩ := hpayloads input token hinput htoken
    exact ⟨token, payload, htoken, hpayload⟩

/-- Access for the second key, granted by the first. -/
def grantedToken : AuthToken :=
  .root (some ⟨.sr25519, [1], []⟩)
    { subject := some [2]
      canDelegate := some false
      operations := [.get]
      expiresAt := some 100 }

/-- The second key uses the grant. -/
theorem grantedToken_derivedFrom :
    ∃ u state', createAuthToken (plainMnemonic 3) 0 0 (UriSigner (plainPair .sr25519 2)) ⟨none, []⟩
        (some (.token grantedToken)) = .ok (u, state') ∧ DerivedFrom grantedToken u := by
  have hstate : TokenState.Usable (UriSigner (plainPair .sr25519 2)) ⟨none, []⟩ := by
    intro token htoken
    cases htoken
  have hworks : TokenState.Works (UriSigner (plainPair .sr25519 2)) ⟨none, []⟩ :=
    ⟨plainPair_works rfl 2, by simp, by simp⟩
  have hgranted : Usable (UriSigner (plainPair .sr25519 2)) [] grantedToken :=
    ⟨AuthToken.chainWellFormed_of_prev_none rfl, fun key hkey => .inl (by cases hkey; rfl)⟩
  obtain ⟨hderived, hexists⟩ := @createAuthToken_derivedFrom (plainMnemonic 3) 0 0
    (UriSigner (plainPair .sr25519 2)) ⟨none, []⟩ (some (.token grantedToken)) hstate
    (by rintro input ⟨⟩; exact ⟨grantedToken, rfl, hgranted⟩)
  obtain ⟨u, state', h⟩ := hexists hworks
    (by rintro input token ⟨⟩ ⟨⟩; exact ⟨_, rfl⟩)
  obtain ⟨-, source, hsource, hu⟩ := hderived u state' h
  cases hsource
  exact ⟨u, state', h, hu⟩

/-! ## A token that is not signed yet -/

/-- `u` keeps the chain of `token`: what stands in front is `token` itself if it has a subject,
and else what stood in front of it. -/
def KeepsChain (token u : AuthToken) : Prop :=
  u.prev = if token.subject.isSome then some token else token.prev

theorem fromToken_prev (now : Int) {payload : Payload} (hpayload : token.payload = some payload) :
    ∃ u, AuthToken.fromToken now token = .ok u ∧ u.prev = token.subject.map fun _ => token := by
  refine ⟨_, AuthToken.fromToken_eq hpayload, ?_⟩
  simp [AuthToken.subject, hpayload]

/-- The grant in front of an access token without a subject is not in front of what is sent. -/
theorem granted_mem_chain_iff {granted : AuthToken} (hderive :
      deriveToken now state.registry signer token = .ok u) (hprev : token.prev = some granted)
    (hgranted : granted.subject.isSome) : granted ∈ u.chain ↔ token.subject.isSome := by
  have huprev := deriveToken_prev hderive
  cases hsubject : token.subject with
  | none =>
    rw [hsubject, Option.map_none] at huprev
    rw [AuthToken.chain_of_prev_none huprev, List.mem_singleton]
    constructor
    · rintro rfl
      -- the derived token has no subject, the grant has one
      rw [deriveToken_subject hderive] at hgranted
      exact hgranted
    · intro h
      cases h
  | some key =>
    rw [hsubject, Option.map_some] at huprev
    rw [AuthToken.chain_of_prev_some huprev, AuthToken.chain_of_prev_some hprev]
    simp [AuthToken.self_mem_chain]

/-- `from` keeps the chain of exactly the tokens with a subject and those with nothing in front;
and of the unsigned access tokens made from a grant, exactly those with a subject still lead back
to it in what is sent. -/
theorem fromToken_keepsChain_iff {payload : Payload} (hpayload : token.payload = some payload) :
    ((∃ u, AuthToken.fromToken now token = .ok u ∧ KeepsChain token u) ↔
      (token.subject.isSome ∨ token.prev = none)) ∧
    ∀ granted u state', token.isSigned = false → token.prev = some granted →
      granted.subject.isSome →
      createAuthToken mnemonic createdAt now signer state (some (.token token)) = .ok (u, state') →
      (granted ∈ u.chain ↔ (token.subject.isSome ∨ token.prev = none)) := by
  refine ⟨?_, ?_⟩
  · obtain ⟨u, hu, huprev⟩ := fromToken_prev now hpayload
    have honly : (∃ v, AuthToken.fromToken now token = .ok v ∧ KeepsChain token v)
        ↔ KeepsChain token u := by
      constructor
      · rintro ⟨v, hv, hkeeps⟩
        obtain rfl : u = v := Except.ok.inj (hu.symm.trans hv)
        exact hkeeps
      · intro hkeeps
        exact ⟨u, hu, hkeeps⟩
    rw [honly, KeepsChain, huprev]
    cases hsubject : token.subject with
    | none => simp [eq_comm]
    | some key => simp
  · intro granted u state' hsigned hprev hgranted h
    rw [createAuthToken_unsigned (show AuthToken.maybeToken (.token token) = .ok token from rfl)
      hsigned] at h
    cases hderive : deriveToken now state.registry signer token with
    | error e =>
      rw [hderive] at h
      cases h
    | ok derived =>
      rw [hderive] at h
      cases h
      rw [granted_mem_chain_iff hderive hprev hgranted]
      simp [hprev]

/-- A token with a subject is in front of what `from` makes of it. -/
theorem grantedToken_keepsChain :
    ∃ u, AuthToken.fromToken 0 grantedToken = .ok u ∧ KeepsChain grantedToken u := by
  obtain ⟨hfrom, -⟩ := @fromToken_keepsChain_iff (plainMnemonic 3) 0 0
    (UriSigner (plainPair .sr25519 2)) ⟨none, []⟩ grantedToken _ rfl
  exact hfrom.mpr (.inl rfl)

/-- The grant accepted with `from`, and not signed. -/
def acceptedToken : AuthToken :=
  .linked none
    { canDelegate := some false
      operations := [.get]
      expiresAt := some 100 }
    grantedToken

/-- An accepted grant loses the grant in the next `from`, and in every operation. -/
theorem acceptedToken_losesChain :
    AuthToken.fromToken 0 grantedToken = .ok acceptedToken ∧
    (¬ ∃ u, AuthToken.fromToken 0 acceptedToken = .ok u ∧ KeepsChain acceptedToken u) ∧
    ∃ u state', createAuthToken (plainMnemonic 3) 0 0 (UriSigner (plainPair .sr25519 2)) ⟨none, []⟩
        (some (.token acceptedToken)) = .ok (u, state') ∧ grantedToken ∉ u.chain := by
  refine ⟨rfl, ?_, ?_⟩
  · rintro ⟨u, hu, hkeeps⟩
    cases hu
    cases hkeeps
  · refine ⟨_, _, rfl, ?_⟩
    intro hmem
    cases hmem with
    | tail _ h => cases h

end CereDdc
