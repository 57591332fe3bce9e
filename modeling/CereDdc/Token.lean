import CereDdc.Signer
import CereDdc.Piece

/-!
# Token — `auth_token.proto`, `signature.proto`

The messages behind an `AuthToken`, the getters that read them, and their binary
form. A token is a signature and a payload, both optional, and the payload may
hold the token in front of it in the chain.
-/

namespace CereDdc

/-! ## Signatures -/

inductive SignatureAlgorithm
  | ed25519 | sr25519
  deriving DecidableEq, Repr

/-- `Signature` of the protocol. -/
structure Signature where
  algorithm : SignatureAlgorithm
  signer : PublicKey
  value : Bytes
  deriving DecidableEq, Repr

/-! ## Tokens -/

inductive AuthTokenOperation
  | unknown | put | get | delete
  deriving DecidableEq, Repr

/-- `Payload`, without the token in front. -/
structure Payload where
  subject : Option PublicKey := none
  canDelegate : Option Bool := none
  bucketId : Option Nat := none
  operations : List AuthTokenOperation
  expiresAt : Option Int := none
  pieceCid : Option Cid := none
  deriving DecidableEq, Repr

/-- A token: without a payload, with a payload that has no `prev`, or with one that has. -/
inductive AuthToken
  | bare (signature : Option Signature)
  | root (signature : Option Signature) (payload : Payload)
  | linked (signature : Option Signature) (payload : Payload) (prev : AuthToken)
  deriving DecidableEq, Repr

namespace AuthToken

def signature : AuthToken → Option Signature
  | .bare signature => signature
  | .root signature _ => signature
  | .linked signature _ _ => signature

def payload : AuthToken → Option Payload
  | .bare _ => none
  | .root _ payload => some payload
  | .linked _ payload _ => some payload

def prev : AuthToken → Option AuthToken
  | .linked _ _ prev => some prev
  | _ => none

def withSignature (signature : Signature) : AuthToken → AuthToken
  | .bare _ => .bare (some signature)
  | .root _ payload => .root (some signature) payload
  | .linked _ payload prev => .linked (some signature) payload prev

/-- `Token.create({ payload })` -/
def ofPayload (payload : Payload) : Option AuthToken → AuthToken
  | none => .root none payload
  | some prev => .linked none payload prev

/-! ### Getters -/

/-- The key behind the `subject` getter, which is its address. -/
def subject (token : AuthToken) : Option PublicKey := token.payload.bind (·.subject)

/-- The key behind `signature.signer`, which is its address. -/
def signer (token : AuthToken) : Option PublicKey := token.signature.map (·.signer)

def canDelegate (token : AuthToken) : Bool := (token.payload.bind (·.canDelegate)).getD false

def bucketId (token : AuthToken) : Option Nat := token.payload.bind (·.bucketId)

def operations (token : AuthToken) : List AuthTokenOperation :=
  (token.payload.map (·.operations)).getD []

def expiresAt (token : AuthToken) : Option Int := token.payload.bind (·.expiresAt)

def pieceCid (token : AuthToken) : Option Cid := token.payload.bind (·.pieceCid)

/-- `isSigned`: a token with a subject counts as signed when the subject has signed it. -/
def isSigned (token : AuthToken) : Bool :=
  match token.subject with
  | some key => decide (token.signer.map encodeAddress = some (encodeAddress key))
  | none => token.signature.isSome

end AuthToken

/-! ## The binary form -/

/-- A base 128 varint. -/
def varint (n : Nat) : Bytes :=
  if n < 128 then [UInt8.ofNat n] else UInt8.ofNat (n % 128 + 128) :: varint (n / 128)

def varintField (field : Nat) (value : Nat) : Bytes := varint (field * 8) ++ varint value

def bytesField (field : Nat) (value : Bytes) : Bytes :=
  varint (field * 8 + 2) ++ varint value.length ++ value

/-- An optional field. -/
def optionalField {α : Type} (write : α → Bytes) (value : Option α) : Bytes :=
  (value.map write).getD []

def SignatureAlgorithm.number : SignatureAlgorithm → Nat
  | ed25519 => 0
  | sr25519 => 1

/-- Fields without presence are left out when they hold their default. -/
def Signature.toBinary (signature : Signature) : Bytes :=
  (match signature.algorithm with
    | .ed25519 => []
    | .sr25519 => varintField 1 signature.algorithm.number) ++
  (if signature.signer = [] then [] else bytesField 2 signature.signer) ++
  (if signature.value = [] then [] else bytesField 3 signature.value)

def AuthTokenOperation.number : AuthTokenOperation → Nat
  | unknown => 0
  | put => 1
  | get => 2
  | delete => 3

/-- The payload, with the binary form of the token in front. -/
def Payload.toBinary (payload : Payload) (prev : Option Bytes) : Bytes :=
  optionalField (bytesField 1) prev ++
  optionalField (bytesField 2) payload.subject ++
  optionalField (fun canDelegate => varintField 3 canDelegate.toNat) payload.canDelegate ++
  optionalField (varintField 4) payload.bucketId ++
  -- repeated enums are packed
  (if payload.operations = [] then []
    else bytesField 5 (payload.operations.flatMap fun operation => varint operation.number)) ++
  optionalField (fun expiresAt => varintField 6 (BitVec.ofInt 64 expiresAt).toNat) payload.expiresAt ++
  optionalField (bytesField 7) payload.pieceCid

/-- `Token.toBinary` -/
def AuthToken.toBinary : AuthToken → Bytes
  | .bare signature => optionalField (bytesField 1 ∘ Signature.toBinary) signature
  | .root signature payload =>
    optionalField (bytesField 1 ∘ Signature.toBinary) signature ++
      bytesField 2 (payload.toBinary none)
  | .linked signature payload prev =>
    optionalField (bytesField 1 ∘ Signature.toBinary) signature ++
      bytesField 2 (payload.toBinary (some prev.toBinary))

end CereDdc
