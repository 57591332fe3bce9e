import CereDdc.TokenAccounts
import CereDdc.TokenExpiry

/-!
# TokenReuse — which signers keep their SDK token

`isValidSdkToken` compares the address that the signer gives with the one that
the SDK encodes from the key of the signature, so it accepts the token of a
signer only if that signer writes its address with the SDK's prefix.
-/

namespace CereDdc

/-- The signer classes of the SDK. -/
inductive Signer.OfSdk : Signer → Prop
  | keyring (ss58Format : Nat) (pair : KeyPair) : OfSdk (KeyringSigner ss58Format pair)
  | uri (pair : KeyPair) : OfSdk (UriSigner pair)
  | json (pair : KeyPair) : OfSdk (JsonSigner pair)
  | web3 (address : Option Address) (account : InjectedAccount)
      (signRaw : Bytes → Except JsError Bytes) : OfSdk (Web3Signer address account signRaw)

namespace Signer.OfSdk

variable {signer : Signer}

theorem isReady (h : signer.OfSdk) : signer.isReady = .ok () := by
  cases h <;> rfl

/-- With the SDK's prefix, the address of each of them is the one of its key. -/
theorem canonical (h : signer.OfSdk) (hallowed : signer.type.allowed = true)
    (hformat : signer.address.ss58Format = cereSs58Prefix) : signer.toAccount.Canonical := by
  cases h with
  | keyring ss58Format pair =>
    cases hformat
    show Except.ok (encodeAddress pair.publicKey) = Except.ok _
    rw [← pair.accountId_eq hallowed]
    rfl
  | uri pair =>
    show Except.ok (encodeAddress pair.publicKey) = Except.ok _
    rw [← pair.accountId_eq hallowed]
    rfl
  | json pair =>
    show Except.ok (encodeAddress pair.publicKey) = Except.ok _
    rw [← pair.accountId_eq hallowed]
    rfl
  | web3 address account signRaw =>
    show (decodeAddress (address.getD (encodeAddress account.accountId))).map encodeAddress
      = .ok (address.getD (encodeAddress account.accountId))
    change (address.getD (encodeAddress account.accountId)).ss58Format = cereSs58Prefix at hformat
    generalize address.getD (encodeAddress account.accountId) = a at hformat ⊢
    obtain ⟨ss58Format, key⟩ := a
    cases hformat
    rfl

end Signer.OfSdk

theorem Account.Canonical.publicKey {account : Account} (h : account.Canonical) :
    ∃ key, account.publicKey = .ok key := by
  unfold Account.Canonical at h
  cases hkey : account.publicKey with
  | ok key => exact ⟨key, rfl⟩
  | error e =>
    rw [hkey] at h
    cases h

/-- The SDK token of a signer names its account. -/
theorem createSdkToken_names {mnemonic : Mnemonic} {now : Int} {registry registry' : List KeyPair}
    {signer : Signer} {token : AuthToken}
    (h : createSdkToken mnemonic now registry signer = .ok (token, registry')) :
    token.Names signer.toAccount := by
  obtain ⟨-, hsign⟩ := createSdkToken_eq_ok.mp h
  obtain ⟨signature, hsignature, rfl⟩ := AuthToken.sign_eq_ok.mp hsign
  exact ⟨signature.signer, (createSignature_signer hsignature).2, by simp [AuthToken.signer]⟩

/-- Of the signers that DDC accepts, exactly those whose address has the SDK's prefix get an SDK
token that stays valid, and that a router then reuses for every call after the first. -/
theorem sdkToken_reused_iff {mnemonic : Mnemonic} {now : Int} {registry : List KeyPair}
    {signer : Signer} (hsdk : signer.OfSdk) (hallowed : signer.type.allowed = true)
    (hsign : ∀ message, ∃ value, signer.sign message = .ok value) :
    ((∃ token registry', createSdkToken mnemonic now registry signer = .ok (token, registry') ∧
        isValidSdkToken signer.toAccount token = true) ∧
      ∀ start ls u, Kit.run RouterState.step
          (RouterState.new start signer.isWeb3 signer.toAccount) ls = some u →
        (∀ a, .switch a ∉ ls) → ∀ (k : Nat) (call : Call), u.calls[k]? = some call →
          call.phase.isCreating = true → k = 0) ↔
      signer.address.ss58Format = cereSs58Prefix := by
  constructor
  · rintro ⟨⟨token, registry', -, hvalid⟩, -⟩
    obtain ⟨key, -, haddress⟩ := isValidSdkToken_iff.mp hvalid
    exact (congrArg Address.ss58Format haddress).symm
  · intro hformat
    have hcanonical := hsdk.canonical hallowed hformat
    have hworks : signer.Works := ⟨hsdk.isReady, hallowed, hcanonical.publicKey, hsign⟩
    refine ⟨?_, ?_⟩
    · obtain ⟨token, htoken⟩ := AuthToken.sign_of_works hworks
        (.root none (AuthToken.fullAccessPayload now (sdkSubject mnemonic signer)))
      have hcreate := createSdkToken_eq_ok.mpr
        ⟨(rfl : _ = sdkRegistry mnemonic registry signer), htoken⟩
      exact ⟨token, _, hcreate,
        hcanonical.isValidSdkToken_iff.mpr (createSdkToken_names hcreate)⟩
    · intro start ls u hrun hnone k call hk hcreating
      have hu := RouterState.run_since hcanonical
        (RouterState.new_since start signer.isWeb3 signer.toAccount) hnone hrun
      exact hu.creating_first hk hcreating

/-- A wallet account without an explicit address keeps its token. -/
theorem web3Signer_token_valid :
    ∃ token registry', createSdkToken (plainMnemonic 3) 0 [] (Web3Signer none ⟨none, [1]⟩ .ok)
        = .ok (token, registry') ∧
      isValidSdkToken (Web3Signer none ⟨none, [1]⟩ .ok).toAccount token = true := by
  obtain ⟨hvalid, -⟩ := (@sdkToken_reused_iff (plainMnemonic 3) 0 [] _ (.web3 none ⟨none, [1]⟩ .ok)
    rfl (fun message => ⟨message, rfl⟩)).mpr rfl
  exact hvalid

/-- A signer over a pair of a keyring with the generic prefix. -/
def genericSigner : Signer := KeyringSigner 42 (plainPair .sr25519 1)

/-- Its token is not valid for it, and the next call of the router makes another one. -/
theorem genericSigner_token_invalid :
    (∃ token registry', createSdkToken (plainMnemonic 3) 0 [] genericSigner = .ok (token, registry') ∧
      isValidSdkToken genericSigner.toAccount token = false) ∧
    ∃ u call, Kit.run RouterState.step (RouterState.new 0 false genericSigner.toAccount)
        (RouterState.reuseAfter 0) = some u ∧
      u.calls[1]? = some call ∧ call.phase.isCreating = true :=
  ⟨⟨_, _, rfl, rfl⟩, ⟨_, _, rfl, rfl, rfl⟩⟩

end CereDdc
