import CereDdc.AuthToken

/-!
# SdkToken — `auth/sdkToken.ts` and `StorageNode.createAuthToken`

The SDK token of a signer. A wallet signs it once and names a random SDK signer
as its subject, which then signs every operation; any other signer signs both
the SDK token and the operations itself.
-/

namespace CereDdc

/-! ## SDK signers -/

/-- `createRandomSigner`: the key pairs that a fresh mnemonic gives, one for each type. None of
them is locked. -/
structure Mnemonic where
  pair : SignerType → KeyPair
  pair_type : ∀ type, (pair type).type = type
  pair_signs : ∀ type message, ∃ value, (pair type).sign message = .ok value

/-- A mnemonic with the same key for every type. -/
def plainMnemonic (key : UInt8) : Mnemonic where
  pair := fun type => plainPair type key
  pair_type := fun _ => rfl
  pair_signs := fun _ message => ⟨message, rfl⟩

/-- `getSdkSigner(signer, address)` on the registry of `signer`, latest entry first. -/
def getSdkSigner (registry : List KeyPair) (address : Address) : Option Signer :=
  (registry.map UriSigner).find? fun sdkSigner => decide (sdkSigner.address = address)

/-- `isValidSdkToken(signer, token)` -/
def isValidSdkToken (signer : Account) (token : AuthToken) : Bool :=
  decide (token.signer.map encodeAddress = some signer.address)

/-- `createSdkToken(signer)`, with the registry it leaves. -/
def createSdkToken (mnemonic : Mnemonic) (now : Int) (registry : List KeyPair) (signer : Signer) :
    Except JsError (AuthToken × List KeyPair) := do
  if signer.isWeb3 then
    let pair := mnemonic.pair signer.type
    let token ← AuthToken.fullAccess now (some (UriSigner pair).address)
    return (← token.sign signer, pair :: registry)
  else
    let token ← AuthToken.fullAccess now none
    return (← token.sign signer, registry)

/-- What a `StorageNode` keeps for its tokens: the settled `rootTokenPromise`, and the registry
of its signer. -/
structure TokenState where
  rootToken : Option AuthToken
  registry : List KeyPair

/-- `StorageNode.getRootToken` -/
def getRootToken (mnemonic : Mnemonic) (now : Int) (signer : Signer) (state : TokenState) :
    Except JsError (AuthToken × TokenState) :=
  match state.rootToken with
  | some token => .ok (token, state)
  | none => do
    let (token, registry) ← createSdkToken mnemonic now state.registry signer
    return (token, ⟨some token, registry⟩)

/-- The signer of an operation: the SDK signer the token names, else the node's own. -/
def operationSigner (registry : List KeyPair) (signer : Signer) (unsignedToken : AuthToken) :
    Signer :=
  (unsignedToken.subject.bind fun key => getSdkSigner registry (encodeAddress key)).getD signer

/-- The end of `createAuthToken`: the token of one operation, from the token that allows it. -/
def deriveToken (now : Int) (registry : List KeyPair) (signer : Signer)
    (unsignedToken : AuthToken) : Except JsError AuthToken := do
  let token ← AuthToken.fromToken now unsignedToken
  token.sign (operationSigner registry signer unsignedToken)

/-- `StorageNode.createAuthToken`. The root token is made at `createdAt` if it has to be, the
token of the operation at `now`. -/
def createAuthToken (mnemonic : Mnemonic) (createdAt now : Int) (signer : Signer)
    (state : TokenState) (accessToken : Option TokenInput) :
    Except JsError (AuthToken × TokenState) := do
  match ← accessToken.mapM AuthToken.maybeToken with
  | some inputToken =>
    if inputToken.isSigned then
      return (inputToken, state)
    else
      return (← deriveToken now state.registry signer inputToken, state)
  | none =>
    let (rootToken, state) ← getRootToken mnemonic createdAt signer state
    return (← deriveToken now state.registry signer rootToken, state)

/-! ## What they come to -/

variable {mnemonic : Mnemonic} {now : Int} {registry : List KeyPair}
  {signer sdkSigner : Signer} {token u : AuthToken}

/-- A random signer of an allowed type works. -/
theorem Mnemonic.works {type : SignerType} (h : type.allowed = true) :
    (UriSigner (mnemonic.pair type)).Works where
  isReady := rfl
  allowed := by
    show (mnemonic.pair type).type.allowed = true
    rw [mnemonic.pair_type, h]
  publicKey := ⟨_, rfl⟩
  sign := mnemonic.pair_signs type

theorem isValidSdkToken_iff {account : Account} :
    isValidSdkToken account token = true ↔
      ∃ key, token.signer = some key ∧ encodeAddress key = account.address := by
  simp [isValidSdkToken]

/-- A signer out of the registry is the SDK signer of one of its pairs. -/
theorem getSdkSigner_eq_some {address : Address}
    (h : getSdkSigner registry address = some sdkSigner) :
    ∃ pair ∈ registry, sdkSigner = UriSigner pair ∧ (UriSigner pair).address = address := by
  have hmem := List.mem_of_find?_eq_some h
  have haddress := List.find?_some h
  obtain ⟨pair, hpair, rfl⟩ := List.mem_map.mp hmem
  exact ⟨pair, hpair, rfl, of_decide_eq_true haddress⟩

/-- The subject of the SDK token of a signer. -/
def sdkSubject (mnemonic : Mnemonic) (signer : Signer) : Option PublicKey :=
  if signer.isWeb3 then some (mnemonic.pair signer.type).accountId else none

/-- The SDK signer a wallet gets is entered into its registry. -/
def sdkRegistry (mnemonic : Mnemonic) (registry : List KeyPair) (signer : Signer) : List KeyPair :=
  if signer.isWeb3 then mnemonic.pair signer.type :: registry else registry

/-- `createSdkToken` signs one full access token, whichever kind of signer it gets. -/
theorem createSdkToken_eq :
    createSdkToken mnemonic now registry signer =
      (AuthToken.sign signer
        (.root none (AuthToken.fullAccessPayload now (sdkSubject mnemonic signer)))).map
          (·, sdkRegistry mnemonic registry signer) := by
  unfold createSdkToken sdkSubject sdkRegistry
  by_cases h : signer.isWeb3
  · have hfull : AuthToken.fullAccess now (some (UriSigner (mnemonic.pair signer.type)).address)
        = .ok (.root none (AuthToken.fullAccessPayload now
            (some (mnemonic.pair signer.type).accountId))) :=
      AuthToken.fullAccess_eq (some _)
    simp only [if_pos h, hfull]
    change (AuthToken.sign signer _ >>= _) = _
    cases AuthToken.sign signer (.root none _) <;> rfl
  · have hfull : AuthToken.fullAccess now none
        = .ok (.root none (AuthToken.fullAccessPayload now none)) :=
      AuthToken.fullAccess_eq none
    simp only [if_neg h, hfull]
    change (AuthToken.sign signer _ >>= _) = _
    cases AuthToken.sign signer (.root none _) <;> rfl

theorem createSdkToken_eq_ok {registry' : List KeyPair} :
    createSdkToken mnemonic now registry signer = .ok (token, registry') ↔
      registry' = sdkRegistry mnemonic registry signer ∧
        AuthToken.sign signer
          (.root none (AuthToken.fullAccessPayload now (sdkSubject mnemonic signer)))
          = .ok token := by
  rw [createSdkToken_eq]
  cases AuthToken.sign signer _ with
  | error e => simp [Except.map]
  | ok t => simp [Except.map, and_comm, eq_comm]

/-- The end of `createAuthToken` in one line. -/
theorem deriveToken_eq {payload : Payload} (h : token.payload = some payload) :
    deriveToken now registry signer token =
      AuthToken.sign (operationSigner registry signer token)
        (AuthToken.ofPayload (AuthToken.copiedPayload now payload)
          (payload.subject.map fun _ => token)) := by
  unfold deriveToken
  rw [AuthToken.fromToken_eq h]
  rfl

end CereDdc
