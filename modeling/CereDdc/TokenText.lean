import CereDdc.DecodedTokens
import CereDdc.Kit.Base58
import CereDdc.OperationToken
import CereDdc.TokenSignatures
import CereDdc.WireReader

/-!
# TokenText — `token.toString()` and back

Tokens as texts: the binary form in base58. A token that the SDK can write is the
token its text is read as, so that it makes no difference whether tokens are
passed on as objects or as texts.
-/

namespace CereDdc

open Kit

variable {reader : BinaryReader}

/-! ## Tokens as messages -/

def Signature.toMessage (signature : Signature) : SignatureMessage where
  algorithm := signature.algorithm.number
  signer := signature.signer
  value := signature.value

def Payload.toFields (payload : Payload) : PayloadFields where
  subject := payload.subject
  canDelegate := payload.canDelegate
  bucketId := payload.bucketId
  operations := payload.operations.map fun operation => (operation.number : Int)
  expiresAt := payload.expiresAt
  pieceCid := payload.pieceCid

/-- `Payload` with numbers that its fields can hold. -/
structure Payload.InRange (payload : Payload) : Prop where
  bucketId : ∀ bucketId, payload.bucketId = some bucketId → bucketId < 2 ^ 64
  expiresAt : ∀ expiresAt, payload.expiresAt = some expiresAt → isSafeInteger expiresAt

namespace AuthToken

def toMessage : AuthToken → TokenMessage
  | .bare signature => .bare (signature.map (·.toMessage)) []
  | .root signature payload => .root (signature.map (·.toMessage)) payload.toFields []
  | .linked signature payload prev =>
    .linked (signature.map (·.toMessage)) payload.toFields prev.toMessage []

/-- Every payload of the chain has numbers that its fields can hold. -/
def InRange : AuthToken → Prop
  | .bare _ => True
  | .root _ payload => payload.InRange
  | .linked _ payload prev => payload.InRange ∧ prev.InRange

end AuthToken

/-- The binary form of the token is the one of its message. -/
theorem Signature.toBinary_toMessage (signature : Signature) :
    signature.toMessage.toBinary = signature.toBinary := by
  obtain ⟨algorithm, signer, value⟩ := signature
  cases algorithm with
  | ed25519 =>
    show _ ++ _ ++ _ ++ [] = _
    rw [List.append_nil]
    rfl
  | sr25519 =>
    show _ ++ _ ++ _ ++ [] = _
    rw [List.append_nil]
    have hnumber : int32Value 1 ((SignatureAlgorithm.sr25519.number : Nat) : Int)
        = varintField 1 SignatureAlgorithm.sr25519.number := by
      rw [int32Value, if_neg (by decide), signedVarint_of_nonneg (by decide)]
      rfl
    rw [show (Signature.toMessage ⟨.sr25519, signer, value⟩).algorithm
      = ((SignatureAlgorithm.sr25519.number : Nat) : Int) from rfl, hnumber]
    rfl

theorem AuthTokenOperation.signedVarint_number (operation : AuthTokenOperation) :
    signedVarint operation.number = varint operation.number :=
  signedVarint_of_nonneg (by cases operation <;> decide)

theorem Payload.toBinary_toFields (payload : Payload) (prev : Option Bytes) :
    payload.toFields.toBinary prev = payload.toBinary prev := by
  have hoperations : (payload.toFields.operations.flatMap signedVarint)
      = payload.operations.flatMap fun operation => varint operation.number := by
    show List.flatMap _ (List.map _ _) = _
    rw [List.flatMap_map]
    simp only [AuthTokenOperation.signedVarint_number]
  have hempty : payload.toFields.operations = [] ↔ payload.operations = [] := List.map_eq_nil_iff
  show _ ++ _ ++ _ ++ _ ++ (if _ then _ else _) ++ _ ++ _ ++ [] = _
  rw [List.append_nil, hoperations]
  simp only [hempty]
  rfl

theorem optionalField_map {α β : Type} (write : β → Bytes) (f : α → β) (value : Option α) :
    optionalField write (value.map f) = optionalField (write ∘ f) value := by
  cases value <;> rfl

namespace AuthToken

theorem toBinary_toMessage (token : AuthToken) : token.toMessage.toBinary = token.toBinary := by
  have hsignature : ∀ signature : Option Signature,
      optionalField (bytesField 1 ∘ SignatureMessage.toBinary) (signature.map (·.toMessage))
        = optionalField (bytesField 1 ∘ Signature.toBinary) signature := by
    intro signature
    rw [optionalField_map]
    congr 1
    funext signature
    exact congrArg (bytesField 1) signature.toBinary_toMessage
  induction token with
  | bare signature =>
    show _ ++ [] = _
    rw [List.append_nil, hsignature]
    rfl
  | root signature payload =>
    show _ ++ bytesField 2 (payload.toFields.toBinary none) ++ [] = _
    rw [List.append_nil, hsignature, Payload.toBinary_toFields]
    rfl
  | linked signature payload prev ih =>
    show _ ++ bytesField 2 (payload.toFields.toBinary (some prev.toMessage.toBinary)) ++ [] = _
    rw [List.append_nil, hsignature, Payload.toBinary_toFields, ih]
    rfl

end AuthToken

/-! ## What the SDK writes is read back -/

theorem SignatureAlgorithm.isInt32 (algorithm : SignatureAlgorithm) :
    IsInt32 algorithm.number := by
  cases algorithm <;> exact ⟨by decide, by decide⟩

theorem AuthTokenOperation.isInt32 (operation : AuthTokenOperation) : IsInt32 operation.number := by
  cases operation <;> exact ⟨by decide, by decide⟩

theorem Payload.InRange.wellFormed {payload : Payload} (h : payload.InRange) :
    payload.toFields.WellFormed reader where
  bucketId := h.bucketId
  operations := by
    intro n hn
    obtain ⟨operation, -, rfl⟩ := List.mem_map.mp hn
    exact operation.isInt32
  expiresAt := h.expiresAt
  unknown := by simp [Payload.toFields]

namespace AuthToken

variable {token : AuthToken}

theorem InRange.wellFormed (h : token.InRange) : token.toMessage.WellFormed reader := by
  have hsignature : ∀ (signature : Option Signature) (s : SignatureMessage),
      signature.map (·.toMessage) = some s → s.WellFormed reader := by
    intro signature s hs
    obtain ⟨t, -, rfl⟩ := Option.map_eq_some_iff.mp hs
    exact ⟨t.algorithm.isInt32, by simp [Signature.toMessage]⟩
  induction token with
  | bare signature => exact ⟨hsignature signature, (by rintro _ ⟨⟩), List.forall_mem_nil _⟩
  | root signature payload =>
    refine ⟨hsignature signature, ?_, List.forall_mem_nil _⟩
    rintro _ ⟨⟩
    exact Payload.InRange.wellFormed h
  | linked signature payload prev ih =>
    refine ⟨⟨hsignature signature, ?_, List.forall_mem_nil _⟩, ih h.2⟩
    rintro _ ⟨⟩
    exact h.1.wellFormed

/-- A token that can be written: numbers in range, and less than 2 GiB. -/
structure Writable (token : AuthToken) : Prop where
  inRange : token.InRange
  length : token.toBinary.length < 2 ^ 31

/-- The binary form of a token is read as the token, with all the tokens in front of it. -/
theorem fromBinary_toBinary (h : token.Writable) :
    TokenMessage.fromBinary reader token.toBinary = some token.toMessage := by
  rw [← toBinary_toMessage]
  apply TokenMessage.fromBinary_toBinary h.inRange.wellFormed
  rw [toBinary_toMessage]
  exact h.length

end AuthToken

/-! ## Messages as tokens -/

def SignatureAlgorithm.ofNumber : Int → Option SignatureAlgorithm
  | 0 => some .ed25519
  | 1 => some .sr25519
  | _ => none

def AuthTokenOperation.ofNumber : Int → Option AuthTokenOperation
  | 0 => some .unknown
  | 1 => some .put
  | 2 => some .get
  | 3 => some .delete
  | _ => none

def SignatureMessage.toSignature (message : SignatureMessage) : Option Signature := do
  let algorithm ← SignatureAlgorithm.ofNumber message.algorithm
  if message.unknown = [] then some ⟨algorithm, message.signer, message.value⟩ else none

def PayloadFields.toPayload (fields : PayloadFields) : Option Payload := do
  let operations ← fields.operations.mapM AuthTokenOperation.ofNumber
  if fields.unknown = [] then
    some
      { subject := fields.subject
        canDelegate := fields.canDelegate
        bucketId := fields.bucketId
        operations
        expiresAt := fields.expiresAt
        pieceCid := fields.pieceCid }
  else none

/-- The token that a message is, if every value in it is one that the SDK has a name for. -/
def TokenMessage.toToken : TokenMessage → Option AuthToken
  | .bare signature unknown => do
    let signature ← signature.mapM (·.toSignature)
    if unknown = [] then some (.bare signature) else none
  | .root signature fields unknown => do
    let signature ← signature.mapM (·.toSignature)
    let payload ← fields.toPayload
    if unknown = [] then some (.root signature payload) else none
  | .linked signature fields prev unknown => do
    let signature ← signature.mapM (·.toSignature)
    let payload ← fields.toPayload
    let prev ← prev.toToken
    if unknown = [] then some (.linked signature payload prev) else none

theorem SignatureMessage.toSignature_toMessage (signature : Signature) :
    signature.toMessage.toSignature = some signature := by
  obtain ⟨algorithm, signer, value⟩ := signature
  cases algorithm <;> rfl

theorem PayloadFields.toPayload_toFields (payload : Payload) :
    payload.toFields.toPayload = some payload := by
  have hoperations : payload.toFields.operations.mapM AuthTokenOperation.ofNumber
      = some payload.operations := by
    show (payload.operations.map _).mapM _ = _
    induction payload.operations with
    | nil => rfl
    | cons operation operations ih =>
      have hnumber : AuthTokenOperation.ofNumber operation.number = some operation := by
        cases operation <;> rfl
      rw [List.map_cons, List.mapM_cons, hnumber, ih]
      rfl
  unfold toPayload
  rw [hoperations]
  rfl

theorem TokenMessage.toToken_toMessage (token : AuthToken) :
    token.toMessage.toToken = some token := by
  have hsignature : ∀ signature : Option Signature,
      (signature.map (·.toMessage)).mapM (·.toSignature) = some signature := by
    intro signature
    cases signature with
    | none => rfl
    | some signature =>
      rw [Option.map_some, Option.mapM_some, SignatureMessage.toSignature_toMessage]
      rfl
  induction token with
  | bare signature =>
    rw [AuthToken.toMessage, toToken, hsignature]
    rfl
  | root signature payload =>
    rw [AuthToken.toMessage, toToken, hsignature, PayloadFields.toPayload_toFields]
    rfl
  | linked signature payload prev ih =>
    rw [AuthToken.toMessage, toToken, hsignature, PayloadFields.toPayload_toFields, ih]
    rfl

/-! ## Texts -/

/-- `bs58`, of which the SDK needs that it reads back what it wrote. -/
structure Base58 where
  encode : Bytes → String
  decode : String → Except JsError Bytes
  decode_encode : ∀ bytes, decode (encode bytes) = .ok bytes

def Base58.bs58 : Base58 where
  encode bytes := String.ofList (Kit.Base58.encode bytes)
  decode text :=
    match Kit.Base58.decode text.toList with
    | some bytes => .ok bytes
    | none => .error (.error "Non-base58 character")
  decode_encode bytes := by
    rw [String.toList_ofList, Kit.Base58.decode_encode]

/-- What texts are read with: base 58, the reader of the binary form, and the error it throws. -/
structure TextFormat where
  base58 : Base58
  reader : BinaryReader
  unreadable : JsError

namespace TextFormat

variable {format : TextFormat} {token : AuthToken}

/-- `token.toString()` -/
def text (format : TextFormat) (token : AuthToken) : String :=
  format.base58.encode token.toBinary

/-- `Token.fromBinary(base58.decode(token))` -/
def read (format : TextFormat) (text : String) : Except JsError TokenMessage := do
  let bytes ← format.base58.decode text
  match TokenMessage.fromBinary format.reader bytes with
  | some message => .ok message
  | none => .error format.unreadable

/-- A text as a token argument. There is none for a text with values the SDK has no name for. -/
def input (format : TextFormat) (text : String) : Option TokenInput :=
  match format.read text with
  | .ok message => message.toToken.map fun token => .text (.ok token)
  | .error e => some (.text (.error e))

theorem read_text (h : token.Writable) : format.read (format.text token) = .ok token.toMessage := by
  unfold read text
  rw [format.base58.decode_encode]
  show (match TokenMessage.fromBinary format.reader token.toBinary with
    | some message => _ | none => _) = _
  rw [AuthToken.fromBinary_toBinary h]

/-- The text of a token is an argument that stands for the token. -/
theorem input_text (h : token.Writable) :
    format.input (format.text token) = some (.text (.ok token)) := by
  unfold input
  rw [read_text h]
  show Option.map _ _ = _
  rw [TokenMessage.toToken_toMessage]
  rfl

end TextFormat

/-! ## Handing tokens over -/

/-- How a party makes its token of the one it was handed: by `AuthToken.from`, or with the
constructor and the other token as `prev`. -/
inductive Derivation
  | from_
  | new (params : AuthTokenParams)

/-- A party in a chain of delegation: its clock, its token and the signer it signs with. -/
structure Party where
  now : Int
  derivation : Derivation
  signer : Signer

namespace Party

/-- The token that the party makes of the one it was handed. -/
def derive (party : Party) (input : TokenInput) : Except JsError AuthToken := do
  let token ←
    match party.derivation with
    | .from_ => do
      let parent ← AuthToken.maybeToken input
      AuthToken.fromToken party.now parent
    | .new params => AuthToken.new party.now { params with prev := some input }
  token.sign party.signer

/-- The parties hand one another tokens. -/
def handOver (parties : List Party) (token : AuthToken) : Except JsError AuthToken :=
  parties.foldlM (fun token party => party.derive (.token token)) token

/-- The parties hand one another texts. -/
def handOverTexts (format : TextFormat) (parties : List Party) (text : String) :
    Option (Except JsError String) :=
  match parties with
  | [] => some (.ok text)
  | party :: parties => do
    let input ← format.input text
    match party.derive input with
    | .ok token => handOverTexts format parties (format.text token)
    | .error e => some (.error e)

/-- The tokens that are handed over on the way, as far as it goes. -/
def tokens (parties : List Party) (token : AuthToken) : List AuthToken :=
  token ::
    match parties with
    | [] => []
    | party :: parties =>
      match party.derive (.token token) with
      | .ok next => tokens parties next
      | .error _ => []

variable {party : Party} {parties : List Party} {format : TextFormat} {token : AuthToken}

/-- A party does the same with a text as with the token it stands for. -/
theorem derive_text : party.derive (.text (.ok token)) = party.derive (.token token) := by
  obtain ⟨now, derivation, signer⟩ := party
  cases derivation with
  | from_ => rfl
  | new params => rfl

/-- A chain of delegation comes to the same over texts as over tokens. -/
theorem handOverTexts_eq (h : ∀ t ∈ tokens parties token, t.Writable) :
    handOverTexts format parties (format.text token)
      = some ((handOver parties token).map format.text) := by
  induction parties generalizing token with
  | nil => rfl
  | cons party parties ih =>
    have htoken : token.Writable := h token (by simp [tokens])
    rw [handOverTexts, TextFormat.input_text htoken, Option.bind_eq_bind, Option.bind_some,
      derive_text]
    unfold handOver
    rw [List.foldlM_cons]
    cases hderive : party.derive (.token token) with
    | error e => rfl
    | ok next =>
      have hnext : ∀ t ∈ tokens parties next, t.Writable := by
        intro t ht
        apply h
        rw [tokens, hderive]
        exact List.mem_cons_of_mem _ ht
      exact ih hnext

/-- A token that is handed to a party, which hands its own one to another party. -/
theorem handOverTexts_root :
    let format : TextFormat := ⟨.bs58, wireReader, .error "premature EOF"⟩
    let root : AuthToken := .root none
      { subject := some [1], canDelegate := some true, operations := [.get], expiresAt := some 9 }
    let parties := [Party.mk 3 .from_ SignedToken.firstSigner,
      Party.mk 4 (.new { operations := [.put], bucketId := some 300 }) SignedToken.secondSigner]
    handOverTexts format parties (format.text root)
      = some ((handOver parties root).map format.text) := by
  intro format root parties
  apply handOverTexts_eq
  let ofRoot : AuthToken :=
    .linked none { canDelegate := some true, operations := [.get], expiresAt := some 9 } root
  let first := ofRoot.withSignature ⟨.sr25519, [1], ofRoot.toBinary⟩
  let ofFirst : AuthToken :=
    .linked none
      { canDelegate := some false
        bucketId := some 300
        operations := [.put]
        expiresAt := some 2592000004 }
      first
  let second := ofFirst.withSignature ⟨.ed25519, [2], ofFirst.toBinary⟩
  have htokens : tokens parties root = [root, first, second] := rfl
  have hroot : root.InRange := ⟨by rintro _ ⟨⟩, by rintro _ ⟨⟩; decide⟩
  have hfirst : first.InRange := ⟨⟨by rintro _ ⟨⟩, by rintro _ ⟨⟩; decide⟩, hroot⟩
  have hsecond : second.InRange := ⟨⟨by rintro _ ⟨⟩; decide, by rintro _ ⟨⟩; decide⟩, hfirst⟩
  rw [htokens]
  simp only [List.forall_mem_cons]
  exact ⟨⟨hroot, by decide +kernel⟩, ⟨hfirst, by decide +kernel⟩, ⟨hsecond, by decide +kernel⟩,
    nofun⟩

end Party

end CereDdc
