import CereDdc.Constants
import CereDdc.Streams

/-!
# Signer — `blockchain/Signer`, `blockchain/utils`

Addresses and signers. An address stands for the text that encodes a prefix and
a public key, one text for each such pair, so it is that pair here.
-/

namespace CereDdc

abbrev PublicKey := Bytes

/-- `CERE_SS58_PREFIX` -/
def cereSs58Prefix : Nat := 54

/-- An SS58 address. -/
structure Address where
  ss58Format : Nat
  publicKey : PublicKey
  deriving DecidableEq, Repr

/-- `encodeAddress` of `utils` -/
def encodeAddress (publicKey : PublicKey) : Address := ⟨cereSs58Prefix, publicKey⟩

/-- `decodeAddress` of `utils`: the prefix is checked even where the checksum is not. -/
def decodeAddress (address : Address) : Except JsError PublicKey :=
  if address.ss58Format = cereSs58Prefix then .ok address.publicKey
  else .error (.error s!"Expected ss58Format {cereSs58Prefix}, received {address.ss58Format}")

theorem encodeAddress_injective {k l : PublicKey} (h : encodeAddress k = encodeAddress l) : k = l :=
  congrArg Address.publicKey h

inductive SignerType
  | ed25519 | sr25519 | ecdsa | ethereum
  deriving DecidableEq, Repr

/-- `createSignature` turns the other types away. -/
def SignerType.allowed : SignerType → Bool
  | .ed25519 => true
  | .sr25519 => true
  | _ => false

/-- What a signer shows of its current account. -/
structure Account where
  type : SignerType
  address : Address
  publicKey : Except JsError PublicKey
  deriving DecidableEq

/-- A signer: its account, whether it is a `Web3Signer`, and what `isReady` and `sign` come to. -/
structure Signer extends Account where
  isWeb3 : Bool
  isReady : Except JsError Unit
  sign : Bytes → Except JsError Bytes

/-- A signer that DDC accepts and that nothing keeps from signing. -/
structure Signer.Works (signer : Signer) : Prop where
  isReady : signer.isReady = .ok ()
  allowed : signer.type.allowed = true
  publicKey : ∃ key, signer.publicKey = .ok key
  sign : ∀ message, ∃ value, signer.sign message = .ok value

/-! ## The signer classes -/

/-- A key pair of the keyring. The account id of the types that DDC allows is the public key. -/
structure KeyPair where
  type : SignerType
  publicKey : PublicKey
  accountId : PublicKey
  sign : Bytes → Except JsError Bytes
  accountId_eq : type.allowed = true → accountId = publicKey

/-- `KeyringSigner` over a pair whose keyring encodes addresses with `ss58Format`. -/
def KeyringSigner (ss58Format : Nat) (pair : KeyPair) : Signer where
  type := pair.type
  address := ⟨ss58Format, pair.accountId⟩
  publicKey := .ok pair.publicKey
  isWeb3 := false
  isReady := .ok ()
  sign := pair.sign

/-- `UriSigner`, with a keyring of the SDK's prefix. -/
def UriSigner (pair : KeyPair) : Signer := KeyringSigner cereSs58Prefix pair

/-- `JsonSigner`, with a keyring of the SDK's prefix. -/
def JsonSigner (pair : KeyPair) : Signer := KeyringSigner cereSs58Prefix pair

/-- The account a wallet injects. -/
structure InjectedAccount where
  type : Option SignerType
  accountId : PublicKey
  deriving DecidableEq, Repr

/-- A connected `Web3Signer`; `address` is the option of that name. -/
def Web3Signer (address : Option Address) (account : InjectedAccount)
    (signRaw : Bytes → Except JsError Bytes) : Signer :=
  let address := address.getD (encodeAddress account.accountId)
  { type := account.type.getD .sr25519
    address
    publicKey := decodeAddress address
    isWeb3 := true
    isReady := .ok ()
    sign := signRaw }

/-- A key pair whose signatures are the messages themselves. -/
def plainPair (type : SignerType) (key : UInt8) : KeyPair where
  type := type
  publicKey := [key]
  accountId := [key]
  sign := .ok
  accountId_eq := fun _ => rfl

theorem plainPair_works {type : SignerType} (h : type.allowed = true) (key : UInt8) :
    (UriSigner (plainPair type key)).Works :=
  ⟨rfl, h, ⟨[key], rfl⟩, fun message => ⟨message, rfl⟩⟩

/-- The account of a signer with such a pair. -/
def plainAccount (key : UInt8) : Account := (UriSigner (plainPair .sr25519 key)).toAccount

end CereDdc
