import CereDdc.BinaryReader

/-!
# TokenMessages — `grpc/auth_token.ts`, `grpc/common/signature.ts`

The messages behind a token as the generated classes have them: enumerations are
open, and the fields a class does not know are kept. `AuthToken` is what such a
message is when it holds nothing else.
-/

namespace CereDdc

open Kit

/-! ## `Signature` -/

/-- An `int32` or an enumeration, left out when it is 0. -/
def int32Value (field : Nat) (value : Int) : Bytes :=
  if value = 0 then [] else tag field .varint ++ signedVarint value

structure SignatureMessage where
  algorithm : Int := 0
  signer : Bytes := []
  value : Bytes := []
  unknown : List UnknownField := []
  deriving DecidableEq, Repr

namespace SignatureMessage

/-- The `switch` of `Signature.internalBinaryRead`. -/
def field (reader : BinaryReader) (message : SignatureMessage) (fieldNo : Nat)
    (wireType : WireType) : Reader UInt8 SignatureMessage :=
  match fieldNo with
  | 1 => (fun algorithm => { message with algorithm }) <$> reader.int32
  | 2 => (fun signer => { message with signer }) <$> reader.bytes
  | 3 => (fun value => { message with value }) <$> reader.bytes
  | _ => (fun unknown => { message with unknown := message.unknown ++ [unknown] }) <$>
    reader.unknownField fieldNo wireType

/-- `Signature.internalBinaryWrite` -/
def toBinary (message : SignatureMessage) : Bytes :=
  int32Value 1 message.algorithm ++
  bytesValue 2 message.signer ++
  bytesValue 3 message.value ++
  message.unknown.flatMap UnknownField.toBinary

end SignatureMessage

/-! ## `Payload`, `AuthToken` -/

/-- `Payload`, without `prev`. -/
structure PayloadFields where
  subject : Option Bytes := none
  canDelegate : Option Bool := none
  bucketId : Option Nat := none
  operations : List Int := []
  expiresAt : Option Int := none
  pieceCid : Option Bytes := none
  unknown : List UnknownField := []
  deriving DecidableEq, Repr

/-- `AuthToken`: without a payload, with a payload that has no `prev`, or with one that has. -/
inductive TokenMessage
  | bare (signature : Option SignatureMessage) (unknown : List UnknownField)
  | root (signature : Option SignatureMessage) (payload : PayloadFields)
    (unknown : List UnknownField)
  | linked (signature : Option SignatureMessage) (payload : PayloadFields) (prev : TokenMessage)
    (unknown : List UnknownField)
  deriving DecidableEq, Repr

/-- `Payload` -/
structure PayloadMessage where
  prev : Option TokenMessage := none
  fields : PayloadFields := {}
  deriving DecidableEq, Repr

namespace TokenMessage

/-- `AuthToken.create()` -/
def create : TokenMessage := .bare none []

def signature : TokenMessage → Option SignatureMessage
  | .bare signature _ => signature
  | .root signature _ _ => signature
  | .linked signature _ _ _ => signature

def payload : TokenMessage → Option PayloadMessage
  | .bare _ _ => none
  | .root _ fields _ => some { fields }
  | .linked _ fields prev _ => some { prev := some prev, fields }

def unknown : TokenMessage → List UnknownField
  | .bare _ unknown => unknown
  | .root _ _ unknown => unknown
  | .linked _ _ _ unknown => unknown

def ofParts (signature : Option SignatureMessage) (payload : Option PayloadMessage)
    (unknown : List UnknownField) : TokenMessage :=
  match payload with
  | none => .bare signature unknown
  | some { prev := none, fields } => .root signature fields unknown
  | some { prev := some prev, fields } => .linked signature fields prev unknown

/-- `message.signature = signature` -/
def setSignature (message : TokenMessage) (signature : SignatureMessage) : TokenMessage :=
  ofParts (some signature) message.payload message.unknown

/-- `message.payload = payload` -/
def setPayload (message : TokenMessage) (payload : PayloadMessage) : TokenMessage :=
  ofParts message.signature (some payload) message.unknown

def pushUnknown (message : TokenMessage) (unknown : UnknownField) : TokenMessage :=
  ofParts message.signature message.payload (message.unknown ++ [unknown])

end TokenMessage

/-- A packed field: numbers up to the end of the field. -/
def BinaryReader.packed (reader : BinaryReader) (values : List Int) : Reader UInt8 (List Int) := do
  let length ← reader.int32
  message (fun values => (fun value => values ++ [value]) <$> reader.int32) length.toNat values

/-- The `switch` of `Payload.internalBinaryRead`, with the one of `AuthToken`. -/
def PayloadMessage.field (reader : BinaryReader)
    (token : TokenMessage → Nat → WireType → Reader UInt8 TokenMessage) (message : PayloadMessage)
    (fieldNo : Nat) (wireType : WireType) : Reader UInt8 PayloadMessage :=
  let set (fields : PayloadFields) : PayloadMessage := { message with fields }
  let fields := message.fields
  match fieldNo with
  | 1 => (fun prev => { message with prev := some prev }) <$>
    reader.nested token (message.prev.getD .create)
  | 2 => (fun subject => set { fields with subject := some subject }) <$> reader.bytes
  | 3 => (fun canDelegate => set { fields with canDelegate := some canDelegate }) <$> reader.bool
  | 4 => (fun bucketId => set { fields with bucketId := some bucketId }) <$> reader.uint64
  | 5 => (fun operations => set { fields with operations }) <$>
    if wireType = .lengthDelimited then reader.packed fields.operations
    else (fun operation => fields.operations ++ [operation]) <$> reader.int32
  | 6 => (fun expiresAt => set { fields with expiresAt := some expiresAt }) <$> reader.int64Number
  | 7 => (fun pieceCid => set { fields with pieceCid := some pieceCid }) <$> reader.bytes
  | _ => (fun unknown => set { fields with unknown := fields.unknown ++ [unknown] }) <$>
    reader.unknownField fieldNo wireType

/-- The `switch` of `AuthToken.internalBinaryRead`, for tokens of which no more than `depth` are
inside one another. -/
def TokenMessage.field (reader : BinaryReader) :
    (depth : Nat) → TokenMessage → Nat → WireType → Reader UInt8 TokenMessage
  | 0, _, _, _ => .fail
  | depth + 1, message, fieldNo, wireType =>
    match fieldNo with
    | 1 => message.setSignature <$>
      reader.nested (SignatureMessage.field reader) (message.signature.getD {})
    | 2 => message.setPayload <$>
      reader.nested (PayloadMessage.field reader (field reader depth)) (message.payload.getD {})
    | _ => message.pushUnknown <$> reader.unknownField fieldNo wireType

/-- `Token.fromBinary`. The depth is more than bytes can hold. -/
def TokenMessage.fromBinary (reader : BinaryReader) (data : Bytes) : Option TokenMessage :=
  reader.fromBinary (field reader (data.length + 1)) .create data

/-- `Payload.internalBinaryWrite`, with the binary form of `prev`. -/
def PayloadFields.toBinary (fields : PayloadFields) (prev : Option Bytes) : Bytes :=
  optionalField (bytesField 1) prev ++
  optionalField (bytesField 2) fields.subject ++
  optionalField (fun canDelegate => varintField 3 canDelegate.toNat) fields.canDelegate ++
  optionalField (varintField 4) fields.bucketId ++
  (if fields.operations = [] then [] else bytesField 5 (fields.operations.flatMap signedVarint)) ++
  optionalField (fun expiresAt => tag 6 .varint ++ signedVarint expiresAt) fields.expiresAt ++
  optionalField (bytesField 7) fields.pieceCid ++
  fields.unknown.flatMap UnknownField.toBinary

/-- `AuthToken.internalBinaryWrite` -/
def TokenMessage.toBinary : TokenMessage → Bytes
  | .bare signature unknown =>
    optionalField (bytesField 1 ∘ SignatureMessage.toBinary) signature ++
      unknown.flatMap UnknownField.toBinary
  | .root signature payload unknown =>
    optionalField (bytesField 1 ∘ SignatureMessage.toBinary) signature ++
      bytesField 2 (payload.toBinary none) ++ unknown.flatMap UnknownField.toBinary
  | .linked signature payload prev unknown =>
    optionalField (bytesField 1 ∘ SignatureMessage.toBinary) signature ++
      bytesField 2 (payload.toBinary (some prev.toBinary)) ++
      unknown.flatMap UnknownField.toBinary

end CereDdc
