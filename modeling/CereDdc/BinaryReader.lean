import Mathlib.Algebra.Ring.Int.Defs
import CereDdc.ApiMessages
import CereDdc.Kit.Reader

/-!
# BinaryReader — the wire format of the messages

Tags, varints and byte strings as the generated classes under `grpc/` write them,
and the reader they read them with. The reader is a parameter: it comes with what
the generated classes rely on.
-/

namespace CereDdc

open Kit

/-! ## Tags -/

/-- `WireType` -/
inductive WireType
  | varint | bit64 | lengthDelimited | startGroup | endGroup | bit32
  deriving DecidableEq, Repr

def WireType.number : WireType → Nat
  | varint => 0
  | bit64 => 1
  | lengthDelimited => 2
  | startGroup => 3
  | endGroup => 4
  | bit32 => 5

theorem WireType.number_lt (type : WireType) : type.number < 8 := by
  cases type <;> decide

/-- The wire type of a number, which is the inverse of `number`. -/
def WireType.ofNumber : Nat → Option WireType
  | 0 => some varint
  | 1 => some bit64
  | 2 => some lengthDelimited
  | 3 => some startGroup
  | 4 => some endGroup
  | 5 => some bit32
  | _ => none

theorem WireType.ofNumber_number (type : WireType) : ofNumber type.number = some type := by
  cases type <;> rfl

/-- `writer.tag(fieldNo, type)` -/
def tag (field : Nat) (type : WireType) : Bytes := varint (field * 8 + type.number)

theorem bytesField_eq (field : Nat) (value : Bytes) :
    bytesField field value = tag field .lengthDelimited ++ (varint value.length ++ value) :=
  List.append_assoc _ _ _

/-! ## Varints -/

theorem varint_of_lt {n : Nat} (h : n < 128) : varint n = [UInt8.ofNat n] := by
  rw [varint, if_pos h]

theorem varint_of_ge {n : Nat} (h : 128 ≤ n) :
    varint n = UInt8.ofNat (n % 128 + 128) :: varint (n / 128) := by
  rw [varint, if_neg (by omega)]

theorem toNat_byte {n : Nat} (h : n < 256) : (UInt8.ofNat n).toNat = n :=
  UInt8.toNat_ofNat_of_lt h

/-- A varint of `width` bytes at most. -/
def takeVarint : (width : Nat) → Reader UInt8 Nat
  | 0 => .fail
  | width + 1 => do
    let byte ← Reader.next
    if byte.toNat < 128 then return byte.toNat
    else
      let high ← takeVarint width
      return high * 128 + (byte.toNat - 128)

theorem takeVarint_reads {width n : Nat} (h : n < 128 ^ (width + 1)) :
    (takeVarint (width + 1)).Reads (varint n) n := by
  -- the last byte
  have hlast : ∀ width n, n < 128 → (takeVarint (width + 1)).Reads (varint n) n := by
    intro width n hsmall
    have hbyte : (UInt8.ofNat n).toNat = n := toNat_byte (by omega)
    rw [varint_of_lt hsmall]
    refine Reader.reads_bind.mpr ⟨_, [], _, rfl, Reader.reads_next _, ?_⟩
    rw [hbyte, if_pos hsmall]
    exact Reader.reads_pure.mpr ⟨rfl, rfl⟩
  induction width generalizing n with
  | zero =>
    rw [Nat.zero_add, Nat.pow_one] at h
    exact hlast 0 n h
  | succ width ih =>
    by_cases hsmall : n < 128
    · exact hlast (width + 1) n hsmall
    · rw [varint_of_ge (by omega)]
      have hbyte : (UInt8.ofNat (n % 128 + 128)).toNat = n % 128 + 128 :=
        toNat_byte (by omega)
      have hhigh : n / 128 < 128 ^ (width + 1) := by
        rw [Nat.pow_succ] at h
        omega
      refine Reader.reads_bind.mpr ⟨_, varint (n / 128), _, rfl, Reader.reads_next _, ?_⟩
      rw [hbyte, if_neg (by omega)]
      refine Reader.reads_bind.mpr ⟨_, [], _, (List.append_nil _).symm, ih hhigh, ?_⟩
      exact Reader.reads_pure.mpr ⟨rfl, by omega⟩

/-- A varint shows where it ends. -/
theorem varint_append_inj {n m : Nat} {rest rest' : Bytes}
    (h : varint n ++ rest = varint m ++ rest') : n = m ∧ rest = rest' := by
  have hlt : ∀ k ≤ n + m, k < 128 ^ (n + m + 1) := by
    intro k hk
    have hpow : n + m + 1 < 128 ^ (n + m + 1) := Nat.lt_pow_self (by decide)
    omega
  have hn := takeVarint_reads (hlt n (by omega))
  have hm := takeVarint_reads (hlt m (by omega))
  obtain ⟨-, rfl⟩ := hn.unique hm h
  exact ⟨rfl, List.append_cancel_left h⟩

theorem length_varint_pos (n : Nat) : 0 < (varint n).length := by
  unfold varint
  split <;> simp

/-! ## The reader -/

/-- `Number.isSafeInteger` -/
def isSafeInteger (n : Int) : Bool := n.natAbs < 2 ^ 53

/-- The bytes of an `int32` or `int64`: 64 bits in two's complement. -/
def signedVarint (n : Int) : Bytes := varint (BitVec.ofInt 64 n).toNat

/-- A byte string behind its length. -/
def lengthPrefixed (value : Bytes) : Bytes := varint value.length ++ value

/-- The reader of the generated classes, with what they rely on: it reads what the writer writes,
and every number it comes to is one of its kind. -/
structure BinaryReader where
  tag : Reader UInt8 (Nat × WireType)
  uint32 : Reader UInt8 Nat
  int32 : Reader UInt8 Int
  /-- `uint64().toBigInt()` -/
  uint64 : Reader UInt8 Nat
  /-- `uint64().toNumber()`, which throws on what is not a safe integer. -/
  uint64Number : Reader UInt8 Nat
  /-- `int64().toNumber()` -/
  int64Number : Reader UInt8 Int
  bool : Reader UInt8 Bool
  bytes : Reader UInt8 Bytes
  string : Reader UInt8 String
  /-- `skip(wireType)`: the bytes that are skipped. -/
  skip : WireType → Reader UInt8 Bytes
  tag_positive : tag.Positive
  int32_positive : int32.Positive
  tag_reads : ∀ {field type}, 0 < field → field < 2 ^ 29 →
    tag.Reads (CereDdc.tag field type) (field, type)
  uint32_reads : ∀ {n}, n < 2 ^ 32 → uint32.Reads (varint n) n
  int32_reads : ∀ {n}, -2 ^ 31 ≤ n → n < 2 ^ 31 → int32.Reads (signedVarint n) n
  uint64_reads : ∀ {n}, n < 2 ^ 64 → uint64.Reads (varint n) n
  uint64Number_reads : ∀ {n : Nat}, isSafeInteger n → uint64Number.Reads (varint n) n
  int64Number_reads : ∀ {n}, isSafeInteger n → int64Number.Reads (signedVarint n) n
  bool_reads : ∀ {b : Bool}, bool.Reads (varint b.toNat) b
  bytes_reads : ∀ {value : Bytes}, value.length < 2 ^ 32 →
    bytes.Reads (lengthPrefixed value) value
  string_reads : ∀ {value}, (utf8 value).length < 2 ^ 32 →
    string.Reads (lengthPrefixed (utf8 value)) value
  skip_varint : ∀ {n}, n < 2 ^ 64 → (skip .varint).Reads (varint n) (varint n)
  skip_lengthDelimited : ∀ {value : Bytes}, value.length < 2 ^ 32 →
    (skip .lengthDelimited).Reads (lengthPrefixed value) (lengthPrefixed value)
  skip_eq : ∀ {type taken data}, (skip type).Reads taken data → data = taken
  tag_range : ∀ {taken field type}, tag.Reads taken (field, type) → 0 < field ∧ field < 2 ^ 29
  uint32_range : ∀ {taken n}, uint32.Reads taken n → n < 2 ^ 32
  int32_range : ∀ {taken n}, int32.Reads taken n → -2 ^ 31 ≤ n ∧ n < 2 ^ 31
  uint64_range : ∀ {taken n}, uint64.Reads taken n → n < 2 ^ 64
  uint64Number_range : ∀ {taken} {n : Nat}, uint64Number.Reads taken n → isSafeInteger n
  int64Number_range : ∀ {taken n}, int64Number.Reads taken n → isSafeInteger n

/-! ## Fields that are not known -/

/-- What a message keeps of a field that its class does not know. -/
structure UnknownField where
  no : Nat
  wireType : WireType
  data : Bytes
  deriving DecidableEq, Repr

/-- `UnknownFieldHandler.onWrite`, of one field. -/
def UnknownField.toBinary (field : UnknownField) : Bytes :=
  tag field.no field.wireType ++ field.data

namespace BinaryReader

/-- `reader.skip(wireType)` and what `UnknownFieldHandler.onRead` makes of it. -/
def unknownField (reader : BinaryReader) (fieldNo : Nat) (wireType : WireType) :
    Reader UInt8 UnknownField :=
  UnknownField.mk fieldNo wireType <$> reader.skip wireType

/-! ## `internalBinaryRead` -/

variable {M : Type}

/-- One turn of `internalBinaryRead`: a tag, and the field behind it. -/
def step (reader : BinaryReader) (field : M → Nat → WireType → Reader UInt8 M) (message : M) :
    Reader UInt8 M := do
  let (fieldNo, wireType) ← reader.tag
  field message fieldNo wireType

/-- `internalBinaryRead(reader, reader.uint32(), options, target)` -/
def nested (reader : BinaryReader) (field : M → Nat → WireType → Reader UInt8 M) (target : M) :
    Reader UInt8 M := do
  let length ← reader.uint32
  message (reader.step field) length target

/-- `fromBinary`, into the message that `create()` makes. -/
def fromBinary (reader : BinaryReader) (field : M → Nat → WireType → Reader UInt8 M) (created : M)
    (data : Bytes) : Option M :=
  ((message (reader.step field) data.length created).run data).map (·.1)

variable {reader : BinaryReader} {field : M → Nat → WireType → Reader UInt8 M} {m m' : M}
  {taken body data : Bytes} {no : Nat} {type : WireType}

theorem step_positive (m : M) : (reader.step field m).Positive := reader.tag_positive.bind

theorem fromBinary_eq_some :
    reader.fromBinary field m data = some m' ↔ Fields (reader.step field) m data m' := by
  unfold fromBinary
  rw [Option.map_eq_some_iff]
  constructor
  · rintro ⟨⟨m₁, rest⟩, hrun, rfl⟩
    exact ((run_message_eq_some step_positive).mp hrun).2
  · intro h
    exact ⟨(m', []), (run_message_eq_some step_positive).mpr ⟨rfl, h⟩, rfl⟩

theorem step_reads (hpos : 0 < no) (hlt : no < 2 ^ 29) (h : (field m no type).Reads body m') :
    (reader.step field m).Reads (CereDdc.tag no type ++ body) m' :=
  (reader.tag_reads hpos hlt).bind h

/-- What a turn of the loop has read. -/
theorem of_step (h : (reader.step field m).Reads taken m') :
    ∃ no type body, 0 < no ∧ no < 2 ^ 29 ∧ (field m no type).Reads body m' := by
  obtain ⟨first, body, ⟨no, type⟩, -, htag, hbody⟩ := Reader.reads_bind.mp h
  obtain ⟨hpos, hlt⟩ := reader.tag_range htag
  exact ⟨no, type, body, hpos, hlt, hbody⟩

theorem nested_reads (hlength : body.length < 2 ^ 32)
    (h : Fields (reader.step field) m body m') :
    (reader.nested field m).Reads (lengthPrefixed body) m' :=
  (reader.uint32_reads hlength).bind (h.reads step_positive)

theorem of_nested (h : (reader.nested field m).Reads taken m') :
    ∃ body, Fields (reader.step field) m body m' := by
  obtain ⟨first, body, length, -, -, hbody⟩ := Reader.reads_bind.mp h
  exact ⟨body, (fields_of_reads hbody).2⟩

/-! ## The fields of the writer -/

theorem fields_varintField {value : Nat} (hpos : 0 < no) (hlt : no < 2 ^ 29)
    (h : (field m no .varint).Reads (varint value) m') :
    Fields (reader.step field) m (varintField no value) m' :=
  .single (step_reads hpos hlt h)

theorem fields_bytesField {value : Bytes} (hpos : 0 < no) (hlt : no < 2 ^ 29)
    (h : (field m no .lengthDelimited).Reads (lengthPrefixed value) m') :
    Fields (reader.step field) m (bytesField no value) m' := by
  rw [bytesField_eq]
  exact .single (step_reads hpos hlt h)

theorem fields_varintValue {value : Nat} (hpos : 0 < no) (hlt : no < 2 ^ 29)
    (hzero : value = 0 → m' = m) (h : (field m no .varint).Reads (varint value) m') :
    Fields (reader.step field) m (varintValue no value) m' := by
  unfold varintValue
  split
  · rename_i hvalue
    rw [hzero hvalue]
    exact .nil m
  · exact fields_varintField hpos hlt h

theorem fields_bytesValue {value : Bytes} (hpos : 0 < no) (hlt : no < 2 ^ 29)
    (hempty : value = [] → m' = m)
    (h : (field m no .lengthDelimited).Reads (lengthPrefixed value) m') :
    Fields (reader.step field) m (bytesValue no value) m' := by
  unfold bytesValue
  split
  · rename_i hvalue
    rw [hempty hvalue]
    exact .nil m
  · exact fields_bytesField hpos hlt h

theorem fields_optionalField {α : Type} {write : α → Bytes} {value : Option α}
    (hnone : value = none → m' = m)
    (hsome : ∀ v, value = some v → Fields (reader.step field) m (write v) m') :
    Fields (reader.step field) m (optionalField write value) m' := by
  cases value with
  | none =>
    rw [hnone rfl]
    exact .nil m
  | some v => exact hsome v rfl

/-- A repeated field: `f` is the message with the values so far. -/
theorem fields_flatMap {α : Type} {write : α → Bytes} {f : List α → M} {values : List α}
    (h : ∀ before value, value ∈ values →
      Fields (reader.step field) (f before) (write value) (f (before ++ [value]))) :
    Fields (reader.step field) (f []) (values.flatMap write) (f values) := by
  have hfrom : ∀ before, Fields (reader.step field) (f before) (values.flatMap write)
      (f (before ++ values)) := by
    induction values with
    | nil =>
      intro before
      rw [List.append_nil]
      exact .nil _
    | cons value values ih =>
      intro before
      have hfirst := h before value (by simp)
      have hothers := ih (fun before other hother => h before other (by simp [hother]))
        (before ++ [value])
      rw [List.append_assoc] at hothers
      exact hfirst.append hothers
  exact hfrom []

/-- A field that is written back as it was read. -/
def Skippable (reader : BinaryReader) (known : List Nat) (unknown : UnknownField) : Prop :=
  0 < unknown.no ∧ unknown.no < 2 ^ 29 ∧ unknown.no ∉ known ∧
    (reader.skip unknown.wireType).Reads unknown.data unknown.data

theorem Skippable.reads {known : List Nat} {unknown : UnknownField}
    (h : reader.Skippable known unknown) :
    (reader.unknownField unknown.no unknown.wireType).Reads unknown.data unknown :=
  h.2.2.2.map

/-- The fields that a message keeps, written at its end: `f` is the message with those so far. -/
theorem fields_unknown {known : List Nat} {f : List UnknownField → M}
    {unknown : List UnknownField} (h : ∀ u ∈ unknown, reader.Skippable known u)
    (hfield : ∀ before (u : UnknownField), u.no ∉ known → field (f before) u.no u.wireType
      = (fun u => f (before ++ [u])) <$> reader.unknownField u.no u.wireType) :
    Fields (reader.step field) (f []) (unknown.flatMap UnknownField.toBinary) (f unknown) := by
  apply fields_flatMap
  intro before u hu
  have hskip := h u hu
  refine .single (step_reads hskip.1 hskip.2.1 ?_)
  rw [hfield before u hskip.2.2.1]
  exact hskip.reads.map

/-- What the reader keeps of a field it does not know. -/
theorem skippable_of_reads {known : List Nat} {unknown : UnknownField} (hpos : 0 < no)
    (hlt : no < 2 ^ 29) (hknown : no ∉ known)
    (h : (reader.unknownField no type).Reads taken unknown) : reader.Skippable known unknown := by
  obtain ⟨data, hdata, rfl⟩ := Reader.reads_map.mp h
  have heq := reader.skip_eq hdata
  subst heq
  exact ⟨hpos, hlt, hknown, hdata⟩

theorem skippable_append {known : List Nat} {unknown : UnknownField} {before : List UnknownField}
    (hpos : 0 < no) (hlt : no < 2 ^ 29) (hknown : no ∉ known)
    (hbefore : ∀ u ∈ before, reader.Skippable known u)
    (h : (reader.unknownField no type).Reads taken unknown) :
    ∀ u ∈ before ++ [unknown], reader.Skippable known u :=
  List.forall_mem_append.mpr
    ⟨hbefore, List.forall_mem_singleton.mpr (skippable_of_reads hpos hlt hknown h)⟩

end BinaryReader

end CereDdc
