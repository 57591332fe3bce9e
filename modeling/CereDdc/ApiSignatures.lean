import CereDdc.ApiCalls

/-!
# ApiSignatures — who signs the calls of the clients

A call that is made with an auth token. Every signature it takes is asked of one
account, which is that of the token for every call but one.
-/

namespace CereDdc

open Kit Program Api

/-- The calls of the three clients. -/
inductive ApiCall
  | putRawPiece (bucketId : Nat) (isMultipart : Bool) (offset size : Option Nat)
      (content : Except JsError (List Bytes))
  | putMultipartPiece (request : PutMultiPartPieceRequest)
  | getFile (bucketId : Nat) (cid : Cid) (range : Option ReadFileRange)
  | putNode (bucketId : Nat) (node : Option NodeMessage) (cid : Option Bytes)
  | getNode (request : DagGetMessage)
  | putRecord (bucketId : Nat) (record : RecordMessage)
  | getRecord (bucketId : Nat) (name : String) (cacheControl : Option String)

/-- The program of a call; a file is read to its end. -/
def ApiCall.program (hasher : Hasher) (options : ApiOptions) (params : MetaParams) :
    ApiCall → ApiProgram Unit
  | putRawPiece bucketId isMultipart offset size content => do
    let _ ← FileApi.putRawPiece options params bucketId isMultipart offset size content
  | putMultipartPiece request => do
    let _ ← FileApi.putMultipartPiece options params request
  | getFile bucketId cid range => FileApi.readFile hasher options params bucketId cid range
  | putNode bucketId node cid => do
    let _ ← DagApi.putNode options params bucketId node cid
  | getNode request => do
    let _ ← DagApi.getNode hasher options params request
  | putRecord bucketId record => do
    let _ ← CnsApi.putRecord options params bucketId record
  | getRecord bucketId name cacheControl => do
    let _ ← CnsApi.getRecord options params bucketId name cacheControl

def ApiCall.isPutRecord : ApiCall → Bool
  | putRecord _ _ => true
  | _ => false

/-- A signature that is asked for is asked of the account with this key. -/
def ApiRequest.SignedBy (key : PublicKey) : ApiRequest → Prop
  | sign account _ => account.publicKey = .ok key
  | _ => True

/-- The signature of the token is one that `signer` has made. -/
def Signer.Signed (signer : Signer) (token : AuthToken) : Prop :=
  ∃ unsigned, AuthToken.sign signer unsigned = .ok token

/-- The token is signed by the signer of the client, or by an SDK signer registered for it. -/
def Api.Keys.Signed (keys : Keys) (token : AuthToken) : Prop :=
  keys.signer.Signed token ∨
    ∃ address sdkSigner, getSdkSigner keys.registry address = some sdkSigner ∧
      sdkSigner.Signed token

section

variable {keys : Keys} {token : AuthToken} {key : PublicKey} {signer : Signer}

/-- A signed token shows the key of a signer that DDC accepts. -/
theorem Signer.Signed.publicKey (h : signer.Signed token) (hkey : token.signer = some key) :
    signer.type.allowed = true ∧ signer.publicKey = .ok key := by
  obtain ⟨unsigned, hsign⟩ := h
  obtain ⟨signature, hsignature, rfl⟩ := AuthToken.sign_eq_ok.mp hsign
  obtain ⟨hallowed, hpublic⟩ := createSignature_signer hsignature
  rw [AuthToken.signer, AuthToken.withSignature_signature] at hkey
  exact ⟨hallowed, Option.some.inj hkey ▸ hpublic⟩

/-- An SDK signer that is registered at the address of a key has that key, if DDC accepts it. -/
theorem getSdkSigner_publicKey {registry : List KeyPair} {sdkSigner : Signer}
    (h : getSdkSigner registry (encodeAddress key) = some sdkSigner)
    (hallowed : sdkSigner.type.allowed = true) : sdkSigner.publicKey = .ok key := by
  obtain ⟨pair, -, rfl, haddress⟩ := getSdkSigner_eq_some h
  have hid : pair.accountId = key := congrArg Address.publicKey haddress
  exact congrArg Except.ok ((pair.accountId_eq hallowed).symm.trans hid)

/-- A token of a registered SDK signer leads back to that signer. -/
theorem getSdkSigner_of_signed {registry : List KeyPair} {address : Address} {sdkSigner : Signer}
    (h : getSdkSigner registry address = some sdkSigner) (hsigned : sdkSigner.Signed token)
    (hkey : token.signer = some key) :
    getSdkSigner registry (encodeAddress key) = some sdkSigner := by
  obtain ⟨hallowed, hpublic⟩ := hsigned.publicKey hkey
  obtain ⟨pair, -, rfl, rfl⟩ := getSdkSigner_eq_some h
  have hid : pair.accountId = key := (pair.accountId_eq hallowed).trans (Except.ok.inj hpublic)
  rw [← hid]
  exact h

theorem maybeSdkSigner_eq (hkey : token.signer = some key) :
    maybeSdkSigner keys.registry keys.signer (some token) =
      (getSdkSigner keys.registry (encodeAddress key)).getD keys.signer := by
  rw [maybeSdkSigner, Option.bind_some, hkey, Option.bind_some]

/-- The account that signs with the token is the one that signed it. -/
theorem account_of_signed (hsigned : keys.Signed token) (hkey : token.signer = some key)
    {head : SignatureAlgorithm × PublicKey}
    (hhead : signatureHead (keys.account (some token)) = .ok head) :
    (keys.account (some token)).publicKey = .ok key := by
  have hallowed := (signatureHead_eq_ok hhead).1
  rw [Keys.account, maybeSdkSigner_eq hkey] at hallowed ⊢
  cases hget : getSdkSigner keys.registry (encodeAddress key) with
  | some sdkSigner =>
    rw [hget] at hallowed
    exact getSdkSigner_publicKey hget hallowed
  | none =>
    cases hsigned with
    | inl hown => exact (hown.publicKey hkey).2
    | inr hsdk =>
      obtain ⟨address, sdkSigner, hregistered, hsdk⟩ := hsdk
      rw [getSdkSigner_of_signed hregistered hsdk hkey] at hget
      cases hget

theorem permits_signedBy (hsigned : keys.Signed token) (hkey : token.signer = some key)
    {options : ApiOptions} (hoptions : options.keys = some keys) {correlationId : Option String} :
    Permits (ApiRequest.SignedBy key) options ⟨some token, correlationId⟩ where
  now := trivial
  uuid := trivial
  ready := fun _ _ => trivial
  sign := fun k hk head hhead _ => by
    rw [hoptions, Option.mem_some_iff] at hk
    subst hk
    exact account_of_signed hsigned hkey hhead
  rpc := fun _ _ _ => trivial
  ack := fun _ => trivial
  complete := trivial

/-- Without a token the signer of the client is asked, so that has to have the key. -/
theorem prepares_signedBy_none {options : ApiOptions} (hoptions : options.keys = some keys)
    (h : ∀ head, signatureHead keys.signer.toAccount = .ok head →
      keys.signer.publicKey = .ok key) :
    Prepares (ApiRequest.SignedBy key) options.keys none where
  now := trivial
  uuid := trivial
  ready := fun _ _ => trivial
  sign := fun k hk head hhead _ => by
    rw [hoptions, Option.mem_some_iff] at hk
    subst hk
    exact h head hhead

/-! ## Calls that ask one account -/

variable {hasher : Hasher} {options : ApiOptions} {correlationId : Option String}
  {bucketId : Nat} {record : RecordMessage}

/-- The calls that pass their token on to every signature. -/
theorem all_signedBy (hsigned : keys.Signed token) (hkey : token.signer = some key)
    (hoptions : options.keys = some keys) {call : ApiCall} (hcall : call.isPutRecord = false) :
    (call.program hasher options ⟨some token, correlationId⟩).All (ApiRequest.SignedBy key) := by
  have h := @permits_signedBy _ _ _ hsigned hkey options hoptions correlationId
  cases call with
  | putRawPiece bucketId isMultipart offset size content =>
    exact .bind (all_putRawPiece h) fun _ _ => trivial
  | putMultipartPiece request => exact .bind (all_putMultipartPiece h) fun _ _ => trivial
  | getFile bucketId cid range => exact all_readFile h fun _ => trivial
  | putNode bucketId node cid => exact .bind (all_putNode h) fun _ _ => trivial
  | getNode request => exact .bind (all_getNode h) fun _ _ => trivial
  | putRecord bucketId record => cases hcall
  | getRecord bucketId name cacheControl => exact .bind (all_getRecord h) fun _ _ => trivial

/-! ## The record -/

/-- The environment where everything that is asked for is granted. -/
def grantingEnv : Environment ApiRequest.Answer Unit := fun _ _ => (default, ())

theorem run_createSignature {algorithm : SignatureAlgorithm} {publicKey : PublicKey}
    {message : Bytes} {token : Option AuthToken}
    (h : signatureHead (keys.account token) = .ok (algorithm, publicKey)) :
    run grantingEnv (Api.createSignature keys message token) ()
      = (.ok ⟨algorithm, publicKey, []⟩, ()) := by
  change run _ (Program.ofExcept (signatureHead (keys.account token)) >>= _) () = _
  rw [h]
  rfl

/-- A signature that comes about is asked of the account. -/
theorem sign_of_all {P : ApiRequest → Prop} {message : Bytes} {token : Option AuthToken}
    {head : SignatureAlgorithm × PublicKey}
    (h : (Api.createSignature keys message token).All P)
    (hhead : signatureHead (keys.account token) = .ok head) :
    P (.sign (keys.account token) message) := by
  have hready : (Program.ofExcept (signatureHead (keys.account token)) >>= fun _ =>
      sign (keys.account token) message >>= fun value =>
        pure (⟨head.1, head.2, value⟩ : Signature)).All P := by
    have hafter := h.2 (.ok ())
    change (Program.ofExcept (signatureHead (keys.account token)) >>= _).All P at hafter
    rw [hhead] at hafter ⊢
    exact hafter
  rw [hhead] at hready
  exact hready.1

theorem run_create (params : MetaParams) :
    ∃ info, run grantingEnv params.create () = (.ok info, ()) := by
  unfold MetaParams.create createRpcMeta
  cases params.correlationId.filter (· ≠ "") with
  | some id => exact ⟨_, rfl⟩
  | none => exact ⟨_, rfl⟩

/-- And so is that of an activity request. -/
theorem activity_sign_of_all {P : ApiRequest → Prop} {fields : ActivityFields}
    {token : Option AuthToken} {head : SignatureAlgorithm × PublicKey}
    (h : (createActivityRequest keys fields token).All P) (hsize : ¬ fields.size.getD 0 < 0)
    (hhead : signatureHead (keys.account token) = .ok head) :
    ∃ message, P (.sign (keys.account token) message) := by
  -- the answers of the clock and of the source of request ids
  have hclock : run grantingEnv now () = (.ok (0 : Nat), ()) := rfl
  have huuid : run grantingEnv uuid () = (.ok ("" : String), ()) := rfl
  have hsign := (h.of_bind_run hclock).of_bind_run huuid
  change All P (if fields.size.getD 0 < 0 then _ else _) at hsign
  rw [if_neg hsize] at hsign
  exact ⟨_, sign_of_all hsign.of_bind hhead⟩

/-- Once the record is signed, the signer of the client is asked to sign the activity request. -/
theorem putRecord_asks_signer {P : ApiRequest → Prop} {params : MetaParams}
    {head head' : SignatureAlgorithm × PublicKey}
    (h : (CnsApi.putRecord options params bucketId record).All P)
    (hoptions : options.keys = some keys)
    (htoken : signatureHead (keys.account params.token) = .ok head)
    (hnone : signatureHead keys.signer.toAccount = .ok head') :
    ∃ message, P (.sign keys.signer.toAccount message) := by
  obtain ⟨info, hinfo⟩ := run_create params
  have hrecord := h.of_bind_run hinfo
  rw [hoptions] at hrecord
  have hactivity := (hrecord.of_bind_run (run_createSignature htoken)).of_bind
  exact activity_sign_of_all hactivity (by simp) hnone

/-- Where the signatures of `putRecord` come from one account, the signer has its key, unless DDC
refuses that signer. -/
theorem publicKey_of_putRecord
    (h : (CnsApi.putRecord options ⟨some token, correlationId⟩ bucketId record).All
      (ApiRequest.SignedBy key))
    (hoptions : options.keys = some keys) (hsigned : keys.Signed token)
    (hkey : token.signer = some key) :
    keys.signer.publicKey = .ok key ∨ ∃ e, signatureHead keys.signer.toAccount = .error e := by
  cases hhead : signatureHead keys.signer.toAccount with
  | error e => exact .inr ⟨e, rfl⟩
  | ok head =>
    refine .inl ?_
    cases hsigned with
    | inl hown => exact (hown.publicKey hkey).2
    | inr hsdk =>
      obtain ⟨address, sdkSigner, hregistered, hsdk⟩ := hsdk
      have haccount : keys.account (some token) = sdkSigner.toAccount := by
        rw [Keys.account, maybeSdkSigner_eq hkey, getSdkSigner_of_signed hregistered hsdk hkey]
        rfl
      obtain ⟨hallowed, hpublic⟩ := hsdk.publicKey hkey
      obtain ⟨algorithm, hsdkHead⟩ := signatureHead_of_allowed hallowed hpublic
      obtain ⟨message, hasked⟩ := putRecord_asks_signer h hoptions (haccount ▸ hsdkHead) hhead
      exact hasked

theorem all_putRecord_signedBy (hoptions : options.keys = some keys) (hsigned : keys.Signed token)
    (hkey : token.signer = some key)
    (h : keys.signer.publicKey = .ok key ∨ ∃ e, signatureHead keys.signer.toAccount = .error e) :
    (CnsApi.putRecord options ⟨some token, correlationId⟩ bucketId record).All
      (ApiRequest.SignedBy key) := by
  refine all_putRecord (permits_signedBy hsigned hkey hoptions)
    (prepares_signedBy_none hoptions fun head hhead => ?_)
  rcases h with h | ⟨e, he⟩
  · exact h
  · rw [he] at hhead
    cases hhead

end

/-- Every signature of a call is made by the account of the token exactly when the call is not
`putRecord`, or that account is the one of the client's signer, or DDC refuses that signer. -/
theorem ApiCall.signedBy_iff (hasher : Hasher) (options : ApiOptions) (keys : Keys)
    (token : AuthToken) (key : PublicKey) (correlationId : Option String) (call : ApiCall)
    (hoptions : options.keys = some keys) (hsigned : keys.Signed token)
    (hkey : token.signer = some key) :
    (∀ (σ : Type) (env : Environment ApiRequest.Answer σ) (s : σ),
        ∀ r ∈ Program.requests env (call.program hasher options ⟨some token, correlationId⟩) s,
          r.SignedBy key) ↔
      call.isPutRecord = false ∨ keys.signer.publicKey = .ok key ∨
        ∃ e, signatureHead keys.signer.toAccount = .error e := by
  rw [← all_iff]
  constructor
  · intro h
    cases call with
    | putRecord bucketId record =>
      exact .inr (publicKey_of_putRecord (All.of_bind h) hoptions hsigned hkey)
    | _ => exact .inl rfl
  · intro h
    cases hcall : call.isPutRecord with
    | false => exact all_signedBy hsigned hkey hoptions hcall
    | true =>
      rw [hcall] at h
      cases call with
      | putRecord bucketId record =>
        have hsigner := h.resolve_left Bool.noConfusion
        exact .bind (all_putRecord_signedBy hoptions hsigned hkey hsigner) fun _ _ => trivial
      | _ => cases hcall

/-- A wallet, with an SDK signer that is registered for it. -/
def walletKeys : Keys where
  signer := Web3Signer none ⟨some .sr25519, [1]⟩ .ok
  registry := [plainPair .sr25519 2]

/-- A token that the SDK signer of the wallet has signed. -/
def walletToken : AuthToken :=
  .root (some ⟨.sr25519, [2], (AuthToken.root none { operations := [] }).toBinary⟩)
    { operations := [] }

theorem walletToken_signed : walletKeys.Signed walletToken :=
  .inr ⟨encodeAddress [2], UriSigner (plainPair .sr25519 2), rfl,
    .root none { operations := [] }, rfl⟩

/-- The wallet itself is not asked when a record is read. -/
theorem ApiCall.signedBy_iff_getRecord :
    (∀ (σ : Type) (env : Environment ApiRequest.Answer σ) (s : σ),
        ∀ r ∈ Program.requests env ((ApiCall.getRecord 1 "name" none).program
          (Hasher.buffered id) { keys := some walletKeys } ⟨some walletToken, none⟩) s,
          r.SignedBy [2]) ↔
      (ApiCall.getRecord 1 "name" none).isPutRecord = false ∨
        walletKeys.signer.publicKey = .ok [2] ∨
        ∃ e, signatureHead walletKeys.signer.toAccount = .error e :=
  ApiCall.signedBy_iff (Hasher.buffered id) { keys := some walletKeys } walletKeys walletToken [2]
    none (.getRecord 1 "name" none) rfl walletToken_signed rfl

/-- The activity request of a record is signed by the wallet, not by the account of the token. -/
theorem ApiCall.putRecord_signed_by_wallet :
    ¬ ∀ r ∈ Program.requests grantingEnv ((ApiCall.putRecord 1 { cid := [], name := "name" }).program
        (Hasher.buffered id) { keys := some walletKeys } ⟨some walletToken, none⟩) (),
      r.SignedBy [2] := by
  intro h
  have hmem : ∃ message, ApiRequest.sign walletKeys.signer.toAccount message ∈
      Program.requests grantingEnv ((ApiCall.putRecord 1 { cid := [], name := "name" }).program
        (Hasher.buffered id) { keys := some walletKeys } ⟨some walletToken, none⟩) () :=
    ⟨_, .tail _ (.tail _ (.tail _ (.tail _ (.tail _ (.tail _ (.head _))))))⟩
  obtain ⟨message, hmem⟩ := hmem
  have hsigned : walletKeys.signer.toAccount.publicKey = .ok [2] := h _ hmem
  cases hsigned

end CereDdc
