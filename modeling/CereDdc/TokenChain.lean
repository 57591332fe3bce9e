import CereDdc.SdkToken

/-!
# TokenChain — the trust chain of `auth_token.proto`

What the protocol asks of every token and the one in front of it, and what
`AuthToken.from` and `createAuthToken` do to a chain that keeps these rules.
-/

namespace CereDdc

/-! ## Chains -/

/-- The token and all those in front of it, the issuer's last. -/
def AuthToken.chain : AuthToken → List AuthToken
  | .linked signature payload prev => .linked signature payload prev :: prev.chain
  | token => [token]

/-- The rules for a token and its `prev`. -/
structure AuthToken.Extends (child parent : AuthToken) : Prop where
  /-- "next token should be signed by this subject" -/
  signedBySubject : ∃ key, parent.subject = some key ∧ child.signer = some key
  /-- "less or equal privileges" -/
  operations : child.operations ⊆ parent.operations
  /-- "expires earlier or at the same time" -/
  expiresAt : ∀ limit, parent.expiresAt = some limit → ∃ e, child.expiresAt = some e ∧ e ≤ limit
  bucketId : ∀ b c, parent.bucketId = some b → child.bucketId = some c → c = b
  pieceCid : ∀ b c, parent.pieceCid = some b → child.pieceCid = some c → c = b
  /-- "next token should be last" -/
  canDelegate : parent.canDelegate = false → child.subject = none

/-- Every token of the chain extends the one in front of it. -/
def AuthToken.ChainWellFormed (token : AuthToken) : Prop := token.chain.IsChain AuthToken.Extends

namespace AuthToken

variable {token u parent : AuthToken}

theorem chain_of_prev_none (h : token.prev = none) : token.chain = [token] := by
  cases token with
  | bare signature => rfl
  | root signature payload => rfl
  | linked signature payload prev => cases h

theorem chain_of_prev_some (h : token.prev = some parent) : token.chain = token :: parent.chain := by
  cases token with
  | bare signature => cases h
  | root signature payload => cases h
  | linked signature payload prev =>
    cases h
    rfl

theorem self_mem_chain : token ∈ token.chain := by
  cases token <;> simp [chain]

theorem chainWellFormed_of_prev_none (h : token.prev = none) : token.ChainWellFormed := by
  rw [ChainWellFormed, chain_of_prev_none h]
  exact .singleton token

/-- A well formed chain takes one more token that keeps the rules. -/
theorem ChainWellFormed.extend (hparent : parent.ChainWellFormed) (hprev : token.prev = some parent)
    (h : token.Extends parent) : token.ChainWellFormed := by
  rw [ChainWellFormed, chain_of_prev_some hprev]
  cases hp : parent.prev with
  | none =>
    rw [chain_of_prev_none hp]
    exact .cons_cons h (.singleton parent)
  | some grandparent =>
    rw [ChainWellFormed] at hparent
    rw [chain_of_prev_some hp] at hparent ⊢
    exact .cons_cons h hparent

end AuthToken

/-! ## Tokens a node can use -/

/-- The chain is well formed, and the subject is the account of the signer or one of its
registered SDK signers. -/
structure Usable (signer : Signer) (registry : List KeyPair) (token : AuthToken) : Prop where
  chain : token.ChainWellFormed
  subject : ∀ key, token.subject = some key →
    signer.publicKey = .ok key ∨ (getSdkSigner registry (encodeAddress key)).isSome

/-- What `createAuthToken` makes of the token that allows the operation. -/
structure DerivedFrom (source u : AuthToken) : Prop where
  isSigned : u.isSigned = true
  chain : u.ChainWellFormed
  operations : u.operations = source.operations
  bucketId : u.bucketId = source.bucketId
  pieceCid : u.pieceCid = source.pieceCid
  expiresAt : ∀ e, source.expiresAt = some e → u.expiresAt = some e
  prev : source.subject.isSome → u = source ∨ u.prev = some source

variable {mnemonic : Mnemonic} {now createdAt : Int}
  {registry : List KeyPair} {signer : Signer} {token source u : AuthToken}

/-- A signed token is used as it is. -/
theorem DerivedFrom.refl (hsigned : token.isSigned = true) (hchain : token.ChainWellFormed) :
    DerivedFrom token token :=
  ⟨hsigned, hchain, rfl, rfl, rfl, fun _ h => h, fun _ => .inl rfl⟩

/-- Whoever `createAuthToken` lets sign for a usable token, it is the token's subject. -/
theorem operationSigner_signs {key : PublicKey} {message : Bytes} {signature : Signature}
    (husable : Usable signer registry source) (hkey : source.subject = some key)
    (h : createSignature (operationSigner registry signer source) message = .ok signature) :
    signature.signer = key := by
  obtain ⟨hallowed, hshown⟩ := createSignature_signer h
  unfold operationSigner at hallowed hshown
  rw [hkey, Option.bind_some] at hallowed hshown
  cases hsdk : getSdkSigner registry (encodeAddress key) with
  | none =>
    rw [hsdk] at hshown
    -- not registered, so the subject is the signer's own account
    rcases husable.subject key hkey with hown | hregistered
    · rw [Option.getD_none, hown] at hshown
      cases hshown
      rfl
    · rw [hsdk] at hregistered
      cases hregistered
  | some sdkSigner =>
    rw [hsdk, Option.getD_some] at hallowed hshown
    obtain ⟨pair, -, rfl, haddress⟩ := getSdkSigner_eq_some hsdk
    have hid : pair.accountId = key := encodeAddress_injective haddress
    have hpub : pair.publicKey = signature.signer := Except.ok.inj hshown
    rw [← hpub, ← hid]
    exact (pair.accountId_eq hallowed).symm

/-- The derived token, in terms of the payload it copies. -/
theorem deriveToken_eq_ok (h : deriveToken now registry signer source = .ok u) :
    ∃ payload signature message,
      source.payload = some payload ∧
      createSignature (operationSigner registry signer source) message = .ok signature ∧
      u = (AuthToken.ofPayload (AuthToken.copiedPayload now payload)
        (payload.subject.map fun _ => source)).withSignature signature := by
  cases hpayload : source.payload with
  | none =>
    unfold deriveToken at h
    rw [AuthToken.fromToken_bare hpayload] at h
    cases h
  | some payload =>
    rw [deriveToken_eq hpayload] at h
    obtain ⟨signature, hsignature, rfl⟩ := AuthToken.sign_eq_ok.mp h
    exact ⟨payload, signature, _, rfl, hsignature, rfl⟩

theorem deriveToken_prev (h : deriveToken now registry signer source = .ok u) :
    u.prev = source.subject.map fun _ => source := by
  obtain ⟨payload, signature, message, hpayload, -, rfl⟩ := deriveToken_eq_ok h
  simp [AuthToken.subject, hpayload]

theorem deriveToken_subject (h : deriveToken now registry signer source = .ok u) :
    u.subject = none := by
  obtain ⟨payload, signature, message, -, -, rfl⟩ := deriveToken_eq_ok h
  simp [AuthToken.subject, AuthToken.copiedPayload]

theorem deriveToken_expiresAt {e : Int} (h : deriveToken now registry signer source = .ok u)
    (he : source.expiresAt = some e) : u.expiresAt = some e := by
  obtain ⟨payload, signature, message, hpayload, -, rfl⟩ := deriveToken_eq_ok h
  simp only [AuthToken.expiresAt, hpayload, Option.bind_some] at he
  simp [AuthToken.expiresAt, AuthToken.copiedPayload, he]

/-- A usable token gives a token of the operation that keeps every rule. -/
theorem deriveToken_derivedFrom (husable : Usable signer registry source)
    (h : deriveToken now registry signer source = .ok u) : DerivedFrom source u := by
  have hprev := deriveToken_prev h
  have hsubject := deriveToken_subject h
  obtain ⟨payload, signature, message, hpayload, hsignature, hu⟩ := deriveToken_eq_ok h
  have hup : u.payload = some (AuthToken.copiedPayload now payload) := by simp [hu]
  have hus : u.signature = some signature := by simp [hu]
  have hexpires : ∀ e, source.expiresAt = some e → u.expiresAt = some e :=
    fun e he => deriveToken_expiresAt h he
  have hoperations : u.operations = source.operations := by
    simp [AuthToken.operations, hpayload, hup, AuthToken.copiedPayload]
  have hbucketId : u.bucketId = source.bucketId := by
    simp [AuthToken.bucketId, hpayload, hup, AuthToken.copiedPayload]
  have hpieceCid : u.pieceCid = source.pieceCid := by
    simp [AuthToken.pieceCid, hpayload, hup, AuthToken.copiedPayload]
  refine
    { isSigned := by simp [AuthToken.isSigned, hsubject, hus]
      chain := ?_
      operations := hoperations
      bucketId := hbucketId
      pieceCid := hpieceCid
      expiresAt := hexpires
      prev := ?_ }
  -- without a subject the chain starts anew
  · cases hkey : source.subject with
    | none =>
      rw [hkey] at hprev
      exact AuthToken.chainWellFormed_of_prev_none hprev
    | some key =>
      rw [hkey, Option.map_some] at hprev
      apply husable.chain.extend hprev
      have hsigner := operationSigner_signs husable hkey hsignature
      exact
        { signedBySubject := ⟨key, hkey, by simp [AuthToken.signer, hus, hsigner]⟩
          operations := by simp [hoperations]
          expiresAt := fun e he => ⟨e, hexpires e he, Int.le_refl e⟩
          bucketId := fun b c hb hc => by simpa [hbucketId, hb, eq_comm] using hc
          pieceCid := fun b c hb hc => by simpa [hpieceCid, hb, eq_comm] using hc
          canDelegate := fun _ => hsubject }
  · intro hsome
    obtain ⟨key, hkey⟩ := Option.isSome_iff_exists.mp hsome
    right
    rw [hprev, hkey]
    rfl

/-- A source with a payload and a signer that works give a token. -/
theorem deriveToken_of_works (now : Int) {payload : Payload} (hpayload : source.payload = some payload)
    (h : (operationSigner registry signer source).Works) :
    ∃ u, deriveToken now registry signer source = .ok u := by
  rw [deriveToken_eq hpayload]
  exact AuthToken.sign_of_works h _

theorem operationSigner_works (source : AuthToken) (hsigner : signer.Works)
    (hregistry : ∀ pair ∈ registry, (UriSigner pair).Works) :
    (operationSigner registry signer source).Works := by
  unfold operationSigner
  cases hsdk : source.subject.bind fun key => getSdkSigner registry (encodeAddress key) with
  | none => exact hsigner
  | some sdkSigner =>
    obtain ⟨key, -, hget⟩ := Option.bind_eq_some_iff.mp hsdk
    obtain ⟨pair, hpair, rfl, -⟩ := getSdkSigner_eq_some hget
    exact hregistry pair hpair

/-! ## `createSdkToken` and the root token -/

/-- The SDK token of a signer is usable with the registry that its creation leaves. -/
theorem createSdkToken_usable {registry' : List KeyPair}
    (h : createSdkToken mnemonic now registry signer = .ok (token, registry')) :
    Usable signer registry' token := by
  obtain ⟨rfl, hsign⟩ := createSdkToken_eq_ok.mp h
  obtain ⟨signature, -, rfl⟩ := AuthToken.sign_eq_ok.mp hsign
  refine ⟨AuthToken.chainWellFormed_of_prev_none rfl, ?_⟩
  intro key hkey
  have hsubject : sdkSubject mnemonic signer = some key := hkey
  unfold sdkSubject at hsubject
  unfold sdkRegistry
  by_cases hweb3 : signer.isWeb3
  · rw [if_pos hweb3] at hsubject ⊢
    cases hsubject
    -- the SDK signer that the token names is the latest entry
    right
    simp [getSdkSigner, UriSigner, KeyringSigner, encodeAddress]
  · rw [if_neg hweb3] at hsubject
    cases hsubject

theorem createSdkToken_payload {registry' : List KeyPair}
    (h : createSdkToken mnemonic now registry signer = .ok (token, registry')) :
    token.payload = some (AuthToken.fullAccessPayload now (sdkSubject mnemonic signer)) := by
  obtain ⟨-, hsign⟩ := createSdkToken_eq_ok.mp h
  obtain ⟨signature, -, rfl⟩ := AuthToken.sign_eq_ok.mp hsign
  rfl

/-- The root token the node keeps, if there is one yet, is usable. -/
def TokenState.Usable (signer : Signer) (state : TokenState) : Prop :=
  ∀ token, state.rootToken = some token → CereDdc.Usable signer state.registry token

/-- `getRootToken` keeps the node's root token usable, and it is the one it returns. -/
theorem getRootToken_usable {state state' : TokenState} (hstate : state.Usable signer)
    (h : getRootToken mnemonic now signer state = .ok (token, state')) :
    state'.rootToken = some token ∧ state'.Usable signer := by
  unfold getRootToken at h
  cases hroot : state.rootToken with
  | some root =>
    rw [hroot] at h
    cases h
    exact ⟨hroot, hstate⟩
  | none =>
    rw [hroot] at h
    cases hcreate : createSdkToken mnemonic now state.registry signer with
    | error e =>
      simp only [hcreate] at h
      cases h
    | ok created =>
      simp only [hcreate] at h
      obtain ⟨root, registry'⟩ := created
      cases h
      refine ⟨rfl, ?_⟩
      intro t ht
      cases ht
      exact createSdkToken_usable hcreate

end CereDdc
