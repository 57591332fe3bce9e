import CereDdc.Kit.Base32
import CereDdc.Piece

/-!
# CidText — `Cid.ts`, `ddc-client/DdcUri.ts`

CIDs as the texts that callers have. The base 32 package is a parameter, of which
the code needs that it reads back what it wrote, and writes the letter of its base in
front.
-/

namespace CereDdc

/-- `base32` of `multiformats` -/
structure Base32 where
  encode : Bytes → String
  decode : String → Except JsError Bytes
  decode_encode : ∀ bytes, decode (encode bytes) = .ok bytes
  encode_ne : ∀ bytes, encode bytes ≠ ""

/-- The base of RFC 4648. -/
def Base32.rfc4648 : Base32 where
  encode bytes := String.ofList (Kit.Base32.encode bytes)
  decode text :=
    match Kit.Base32.decode text.toList with
    | some bytes => .ok bytes
    | none => .error (.error "Unable to decode multibase string")
  decode_encode bytes := by rw [String.toList_ofList, Kit.Base32.decode_encode]
  encode_ne bytes h := by
    have hnil := congrArg String.toList h
    rw [String.toList_ofList] at hnil
    cases hnil

namespace Base32

variable (base32 : Base32)

/-- `Cid.isCid(text)` -/
def isCid (text : String) : Bool :=
  match base32.decode text with
  | .ok bytes => decide (32 < bytes.length)
  | .error _ => false

/-- Two texts of the same CID. -/
def SameCid (a b : String) : Prop := base32.decode a = base32.decode b

variable {base32}

theorem isCid_iff {text : String} :
    base32.isCid text = true ↔ ∃ bytes, base32.decode text = .ok bytes ∧ 32 < bytes.length := by
  unfold isCid
  cases base32.decode text with
  | ok bytes => simp
  | error e => simp

end Base32

/-! ## URIs -/

inductive DdcEntity
  | file | dagNode
  deriving DecidableEq, Repr

/-- `DdcUri` -/
structure DdcUri where
  cid : String := ""
  name : Option String
  bucketId : Nat
  entity : DdcEntity
  deriving DecidableEq, Repr

namespace DdcUri

/-- The constructor; `name` is that of the options. -/
def new (base32 : Base32) (bucketId : Nat) (cidOrName : String) (entity : DdcEntity)
    (name : Option String := none) : DdcUri :=
  if base32.isCid cidOrName then { cid := cidOrName, name, bucketId, entity }
  else { name := name <|> some cidOrName, bucketId, entity }

/-- The getter `cidOrName` -/
def cidOrName (uri : DdcUri) : Except JsError String :=
  -- `this.cid || this.name`
  match if uri.cid = "" then uri.name.filter (· ≠ "") else some uri.cid with
  | some cidOrName => .ok cidOrName
  | none => .error (.error "Invalid DdcUri: both CID and Name are empty")

/-- A URI that is built from a text leads to that text. -/
theorem cidOrName_new {base32 : Base32} {bucketId : Nat} {text : String} {entity : DdcEntity}
    (h : text ≠ "") : (new base32 bucketId text entity).cidOrName = .ok text := by
  unfold new cidOrName
  cases base32.isCid text with
  | true => simp [h]
  | false => simp [Option.filter, h]

end DdcUri

end CereDdc
