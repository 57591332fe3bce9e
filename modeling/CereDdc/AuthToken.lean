import CereDdc.Token

/-!
# AuthToken — `auth/AuthToken.ts`, `signature`

How tokens are made from parameters or from another token, and how they are
signed.
-/

namespace CereDdc

/-! ## Signatures -/

/-- The text a signer type is. -/
def SignerType.name : SignerType → String
  | ed25519 => "ed25519"
  | sr25519 => "sr25519"
  | ecdsa => "ecdsa"
  | ethereum => "ethereum"

/-- The part of `createSignature` before the message is signed: the algorithm and the key that
go into the signature. -/
def signatureHead (account : Account) : Except JsError (SignatureAlgorithm × PublicKey) :=
  match account.type with
  | .ed25519 => account.publicKey.map (.ed25519, ·)
  | .sr25519 => account.publicKey.map (.sr25519, ·)
  | type => .error (.error s!"Signer type {type.name} is not allowed in DDC")

/-- `createSignature(signer, message)`, without a token among the options. -/
def createSignature (signer : Signer) (message : Bytes) : Except JsError Signature := do
  signer.isReady
  let (algorithm, publicKey) ← signatureHead signer.toAccount
  let value ← signer.sign message
  return ⟨algorithm, publicKey, value⟩

/-! ## Making tokens -/

/-- A token as an argument: an object, or a base58 text, which is what decoding it comes to. -/
inductive TokenInput
  | token (token : AuthToken)
  | text (decoded : Except JsError AuthToken)
  deriving DecidableEq

/-- `AuthTokenParams` -/
structure AuthTokenParams where
  subject : Option Address := none
  canDelegate : Option Bool := none
  bucketId : Option Nat := none
  operations : List AuthTokenOperation
  expiresAt : Option Int := none
  expiresIn : Option Int := none
  pieceCid : Option Cid := none
  prev : Option TokenInput := none

namespace AuthToken

/-- `AuthToken.maybeToken` on a token that is there. -/
def maybeToken : TokenInput → Except JsError AuthToken
  | .token token => .ok token
  | .text decoded => decoded

/-- The constructor, at the time `now`. -/
def new (now : Int) (params : AuthTokenParams) : Except JsError AuthToken := do
  let subject ← params.subject.mapM decodeAddress
  let prev ← params.prev.mapM maybeToken
  let expiresIn := params.expiresIn.getD authTokenExpirationTime
  let payload : Payload :=
    { subject
      canDelegate := some (params.canDelegate.getD false)
      bucketId := params.bucketId
      operations := params.operations
      expiresAt := some (params.expiresAt.getD (now + expiresIn))
      pieceCid := params.pieceCid }
  return ofPayload payload prev

/-- `AuthToken.from` on a token. -/
def fromToken (now : Int) (parent : AuthToken) : Except JsError AuthToken :=
  match parent.payload with
  | none => .error (.error "Invalid token")
  | some payload =>
    new now
      { canDelegate := payload.canDelegate
        bucketId := payload.bucketId
        operations := payload.operations
        expiresAt := payload.expiresAt
        pieceCid := payload.pieceCid
        -- `prev: subject && parent`
        prev := payload.subject.map fun _ => .token parent }

/-- `AuthToken.fullAccess` -/
def fullAccess (now : Int) (subject : Option Address) : Except JsError AuthToken :=
  new now { subject, operations := [.get, .put, .delete] }

/-- `token.sign(signer)` -/
def sign (signer : Signer) (token : AuthToken) : Except JsError AuthToken :=
  (createSignature signer token.toBinary).map token.withSignature

end AuthToken

/-! ## What the operations do to a token -/

namespace AuthToken

variable {now : Int} {token u : AuthToken} {signature : Signature}

@[simp] theorem withSignature_signature :
    (token.withSignature signature).signature = some signature := by
  cases token <;> rfl

@[simp] theorem withSignature_payload : (token.withSignature signature).payload = token.payload := by
  cases token <;> rfl

@[simp] theorem withSignature_prev : (token.withSignature signature).prev = token.prev := by
  cases token <;> rfl

@[simp] theorem ofPayload_payload (payload : Payload) (prev : Option AuthToken) :
    (ofPayload payload prev).payload = some payload := by
  cases prev <;> rfl

@[simp] theorem ofPayload_prev (payload : Payload) (prev : Option AuthToken) :
    (ofPayload payload prev).prev = prev := by
  cases prev <;> rfl

@[simp] theorem ofPayload_signature (payload : Payload) (prev : Option AuthToken) :
    (ofPayload payload prev).signature = none := by
  cases prev <;> rfl

/-- The payload `from` gives the new token. -/
def copiedPayload (now : Int) (payload : Payload) : Payload :=
  { canDelegate := some (payload.canDelegate.getD false)
    bucketId := payload.bucketId
    operations := payload.operations
    expiresAt := some (payload.expiresAt.getD (now + authTokenExpirationTime))
    pieceCid := payload.pieceCid }

/-- `from` in one line: the payload without its subject, and the token as `prev` if it had one. -/
theorem fromToken_eq {payload : Payload} (h : token.payload = some payload) :
    fromToken now token
      = .ok (ofPayload (copiedPayload now payload) (payload.subject.map fun _ => token)) := by
  unfold fromToken
  rw [h]
  cases hsubject : payload.subject with
  | none => simp only [hsubject]; rfl
  | some key => simp only [hsubject]; rfl

theorem fromToken_bare (h : token.payload = none) :
    fromToken now token = .error (.error "Invalid token") := by
  unfold fromToken
  rw [h]

/-- The payload of a full access token. -/
def fullAccessPayload (now : Int) (subject : Option PublicKey) : Payload :=
  { subject
    canDelegate := some false
    operations := [.get, .put, .delete]
    expiresAt := some (now + authTokenExpirationTime) }

theorem fullAccess_eq (subject : Option PublicKey) :
    fullAccess now (subject.map encodeAddress)
      = .ok (.root none (fullAccessPayload now subject)) := by
  cases subject with
  | none => rfl
  | some key => rfl

theorem sign_eq_ok {signer : Signer} :
    token.sign signer = .ok u ↔
      ∃ signature, createSignature signer token.toBinary = .ok signature
        ∧ u = token.withSignature signature := by
  unfold sign
  cases createSignature signer token.toBinary with
  | error e => simp [Except.map]
  | ok signature => simp [Except.map, eq_comm]

end AuthToken

theorem signatureHead_eq_ok {account : Account} {algorithm : SignatureAlgorithm}
    {key : PublicKey} (h : signatureHead account = .ok (algorithm, key)) :
    account.type.allowed = true ∧ account.publicKey = .ok key := by
  obtain ⟨type, address, publicKey⟩ := account
  cases publicKey with
  | error e => cases type <;> cases h
  | ok k =>
    cases type with
    | ed25519 =>
      cases h
      exact ⟨rfl, rfl⟩
    | sr25519 =>
      cases h
      exact ⟨rfl, rfl⟩
    | ecdsa => cases h
    | ethereum => cases h

theorem signatureHead_of_allowed {account : Account} {key : PublicKey}
    (htype : account.type.allowed = true) (hkey : account.publicKey = .ok key) :
    ∃ algorithm, signatureHead account = .ok (algorithm, key) := by
  obtain ⟨type, address, publicKey⟩ := account
  cases hkey
  cases type with
  | ed25519 => exact ⟨.ed25519, rfl⟩
  | sr25519 => exact ⟨.sr25519, rfl⟩
  | ecdsa => cases htype
  | ethereum => cases htype

/-- All that a signature needs, and what is in it. -/
theorem createSignature_eq_ok {signer : Signer} {message : Bytes} {signature : Signature} :
    createSignature signer message = .ok signature ↔
      signer.isReady = .ok () ∧
        signatureHead signer.toAccount = .ok (signature.algorithm, signature.signer) ∧
        signer.sign message = .ok signature.value := by
  unfold createSignature
  cases signer.isReady with
  | error e => simp [bind, Except.bind]
  | ok _ =>
    cases signatureHead signer.toAccount with
    | error e => simp [bind, Except.bind]
    | ok head =>
      cases signer.sign message with
      | error e => simp [bind, Except.bind]
      | ok value =>
        obtain ⟨algorithm, key⟩ := head
        obtain ⟨algorithm', key', value'⟩ := signature
        simp [bind, Except.bind, pure, Except.pure, and_assoc]

/-- The key of a signature is the one its signer shows. -/
theorem createSignature_signer {signer : Signer} {message : Bytes} {signature : Signature}
    (h : createSignature signer message = .ok signature) :
    signer.type.allowed = true ∧ signer.publicKey = .ok signature.signer := by
  obtain ⟨-, hhead, -⟩ := createSignature_eq_ok.mp h
  exact signatureHead_eq_ok hhead

theorem createSignature_of_works {signer : Signer} (h : signer.Works) (message : Bytes) :
    ∃ signature, createSignature signer message = .ok signature := by
  obtain ⟨key, hkey⟩ := h.publicKey
  obtain ⟨algorithm, hhead⟩ := signatureHead_of_allowed h.allowed hkey
  obtain ⟨value, hvalue⟩ := h.sign message
  exact ⟨⟨algorithm, key, value⟩, createSignature_eq_ok.mpr ⟨h.isReady, hhead, hvalue⟩⟩

theorem AuthToken.sign_of_works {signer : Signer} (h : signer.Works)
    (token : AuthToken) : ∃ u, token.sign signer = .ok u := by
  obtain ⟨signature, hsignature⟩ := createSignature_of_works h token.toBinary
  exact ⟨_, AuthToken.sign_eq_ok.mpr ⟨signature, hsignature, rfl⟩⟩

end CereDdc
