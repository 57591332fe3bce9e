import CereDdc.BinaryReader

/-!
# WireReader — a reader for the wire format of proto3

The values of each kind as the format lays them down, without the groups that
proto3 does not have. It is one of the readers the messages can be read with.
-/

namespace CereDdc

open Kit

namespace WireReader

/-- The bits of a varint of up to ten bytes, cut off at `width`. -/
def bits (width : Nat) : Reader UInt8 (BitVec width) := BitVec.ofNat width <$> takeVarint 10

def uint32 : Reader UInt8 Nat := BitVec.toNat <$> bits 32

def int32 : Reader UInt8 Int := BitVec.toInt <$> bits 32

def uint64 : Reader UInt8 Nat := BitVec.toNat <$> bits 64

/-- The value, if it is one that a number can hold. -/
def safe {α : Type} (toInt : α → Int) (value : α) : Reader UInt8 α :=
  if isSafeInteger (toInt value) then pure value else .fail

def uint64Number : Reader UInt8 Nat := do
  let value ← bits 64
  safe (fun n : Nat => (n : Int)) value.toNat

def int64Number : Reader UInt8 Int := do
  let value ← bits 64
  safe id value.toInt

def bool : Reader UInt8 Bool := (fun n : Nat => decide (n ≠ 0)) <$> uint64

def bytes : Reader UInt8 Bytes := do
  let length ← uint32
  Reader.take length

def string : Reader UInt8 String := do
  let value ← bytes
  match String.fromUTF8? ⟨⟨value⟩⟩ with
  | some text => pure text
  | none => .fail

def tag : Reader UInt8 (Nat × WireType) := do
  let value ← uint32
  match WireType.ofNumber (value % 8) with
  | some type => if 0 < value / 8 then pure (value / 8, type) else .fail
  | none => .fail

def skip : WireType → Reader UInt8 Bytes
  | .varint => (takeVarint 10).taking
  | .bit64 => Reader.take 8
  | .lengthDelimited => bytes.taking
  | .bit32 => Reader.take 4
  | .startGroup => .fail
  | .endGroup => .fail

variable {taken : Bytes} {n : Nat} {i : Int}

theorem bits_reads (width : Nat) (h : n < 2 ^ 64) :
    (bits width).Reads (varint n) (BitVec.ofNat width n) := by
  have hpow : 2 ^ 64 ≤ 128 ^ (9 + 1) := by decide
  exact (takeVarint_reads (Nat.lt_of_lt_of_le h hpow)).map

theorem uint32_reads (h : n < 2 ^ 32) : uint32.Reads (varint n) n := by
  have hbits := (bits_reads 32 (by omega : n < 2 ^ 64)).map (g := BitVec.toNat)
  rwa [BitVec.toNat_ofNat, Nat.mod_eq_of_lt h] at hbits

theorem uint64_reads (h : n < 2 ^ 64) : uint64.Reads (varint n) n := by
  have hbits := (bits_reads 64 h).map (g := BitVec.toNat)
  rwa [BitVec.toNat_ofNat, Nat.mod_eq_of_lt h] at hbits

theorem toNat_ofInt_lt : (BitVec.ofInt 64 i).toNat < 2 ^ 64 := (BitVec.ofInt 64 i).isLt

/-- The 64 bits of a number in two's complement, as a number. -/
theorem toInt_toNat_ofInt : ((BitVec.ofInt 64 i).toNat : Int) = i % 2 ^ 64 := by
  rw [BitVec.toNat_ofInt]
  exact Int.toNat_of_nonneg (Int.emod_nonneg i (by decide))

theorem int32_reads (hlow : -2 ^ 31 ≤ i) (hhigh : i < 2 ^ 31) :
    int32.Reads (signedVarint i) i := by
  have hbits := (bits_reads 32 (@toNat_ofInt_lt i)).map (g := BitVec.toInt)
  have hvalue : (BitVec.ofNat 32 (BitVec.ofInt 64 i).toNat).toInt = i := by
    rw [BitVec.toInt_ofNat', toInt_toNat_ofInt, Int.bmod_def]
    split <;> omega
  rwa [hvalue] at hbits

theorem safe_reads {α : Type} {toInt : α → Int} {value : α} (h : isSafeInteger (toInt value)) :
    (safe toInt value : Reader UInt8 α).Reads [] value := by
  unfold safe
  rw [if_pos h]
  exact Reader.reads_pure.mpr ⟨rfl, rfl⟩

theorem safe_range {α : Type} {toInt : α → Int} {value value' : α}
    (h : (safe toInt value : Reader UInt8 α).Reads taken value') :
    isSafeInteger (toInt value') := by
  unfold safe at h
  split at h
  · rename_i hsafe
    obtain ⟨-, rfl⟩ := Reader.reads_pure.mp h
    exact hsafe
  · exact absurd h Reader.not_reads_fail

theorem uint64Number_reads (h : isSafeInteger n) : uint64Number.Reads (varint n) n := by
  have hsmall : n < 2 ^ 64 := by
    have hsafe : (n : Int).natAbs < 2 ^ 53 := of_decide_eq_true h
    omega
  refine Reader.reads_bind.mpr ⟨_, [], _, (List.append_nil _).symm, bits_reads 64 hsmall, ?_⟩
  rw [BitVec.toNat_ofNat, Nat.mod_eq_of_lt hsmall]
  exact safe_reads h

theorem int64Number_reads (h : isSafeInteger i) : int64Number.Reads (signedVarint i) i := by
  have hvalue : (BitVec.ofNat 64 (BitVec.ofInt 64 i).toNat).toInt = i := by
    have hsafe : i.natAbs < 2 ^ 53 := of_decide_eq_true h
    rw [BitVec.toInt_ofNat', toInt_toNat_ofInt, Int.bmod_def]
    split <;> omega
  refine Reader.reads_bind.mpr
    ⟨_, [], _, (List.append_nil _).symm, bits_reads 64 (@toNat_ofInt_lt i), ?_⟩
  rw [hvalue]
  exact safe_reads h

theorem bool_reads {b : Bool} : bool.Reads (varint b.toNat) b := by
  have hsmall : b.toNat < 2 ^ 64 := by cases b <;> decide
  have hbool := (uint64_reads hsmall).map (g := fun n : Nat => decide (n ≠ 0))
  have hvalue : decide (b.toNat ≠ 0) = b := by cases b <;> rfl
  rwa [hvalue] at hbool

theorem bytes_reads {value : Bytes} (h : value.length < 2 ^ 32) :
    bytes.Reads (lengthPrefixed value) value :=
  (uint32_reads h).bind (Reader.reads_take value)

theorem string_reads {text : String} (h : (utf8 text).length < 2 ^ 32) :
    string.Reads (lengthPrefixed (utf8 text)) text := by
  refine Reader.reads_bind.mpr ⟨_, [], _, (List.append_nil _).symm, bytes_reads h, ?_⟩
  have htext : String.fromUTF8? ⟨⟨utf8 text⟩⟩ = some text :=
    dif_pos text.isValidUTF8
  rw [htext]
  exact Reader.reads_pure.mpr ⟨rfl, rfl⟩

theorem tag_reads {field : Nat} {type : WireType} (hpos : 0 < field) (hlt : field < 2 ^ 29) :
    tag.Reads (CereDdc.tag field type) (field, type) := by
  have htype := type.number_lt
  have hvalue : field * 8 + type.number < 2 ^ 32 := by omega
  refine Reader.reads_bind.mpr
    ⟨_, [], _, (List.append_nil _).symm, uint32_reads hvalue, ?_⟩
  have hnumber : (field * 8 + type.number) % 8 = type.number := by omega
  have hfield : (field * 8 + type.number) / 8 = field := by omega
  rw [hnumber, hfield, WireType.ofNumber_number]
  simp only [hpos, if_true]
  exact Reader.reads_pure.mpr ⟨rfl, rfl⟩

theorem uint32_range (h : uint32.Reads taken n) : n < 2 ^ 32 := by
  obtain ⟨value, -, rfl⟩ := Reader.reads_map.mp h
  exact value.isLt

theorem tag_range {field : Nat} {type : WireType} (h : tag.Reads taken (field, type)) :
    0 < field ∧ field < 2 ^ 29 := by
  obtain ⟨first, second, value, -, hvalue, hpair⟩ := Reader.reads_bind.mp h
  have hsmall := uint32_range hvalue
  split at hpair
  · split at hpair
    · obtain ⟨-, heq⟩ := Reader.reads_pure.mp hpair
      cases heq
      omega
    · exact absurd hpair Reader.not_reads_fail
  · exact absurd hpair Reader.not_reads_fail

theorem skip_eq {type : WireType} {data : Bytes} (h : (skip type).Reads taken data) :
    data = taken := by
  have htake : ∀ n, (Reader.take n).Reads taken data → data = taken := by
    intro n htaken
    have hrun := htaken []
    change (if _ then _ else _) = _ at hrun
    split at hrun
    · have hpair := Option.some.inj hrun
      have hrest : (taken ++ []).drop n = [] := congrArg Prod.snd hpair
      have hdata : (taken ++ []).take n = data := congrArg Prod.fst hpair
      have hwhole := List.take_append_drop n (taken ++ [])
      rw [hrest, hdata, List.append_nil, List.append_nil] at hwhole
      exact hwhole
    · cases hrun
  cases type with
  | varint => exact (Reader.reads_taking.mp h).1
  | bit64 => exact htake 8 h
  | lengthDelimited => exact (Reader.reads_taking.mp h).1
  | bit32 => exact htake 4 h
  | startGroup => exact absurd h Reader.not_reads_fail
  | endGroup => exact absurd h Reader.not_reads_fail

end WireReader

/-- The reader of the format. -/
def wireReader : BinaryReader where
  tag := WireReader.tag
  uint32 := WireReader.uint32
  int32 := WireReader.int32
  uint64 := WireReader.uint64
  uint64Number := WireReader.uint64Number
  int64Number := WireReader.int64Number
  bool := WireReader.bool
  bytes := WireReader.bytes
  string := WireReader.string
  skip := WireReader.skip
  tag_positive := rfl
  int32_positive := rfl
  tag_reads := WireReader.tag_reads
  uint32_reads := WireReader.uint32_reads
  int32_reads := WireReader.int32_reads
  uint64_reads := WireReader.uint64_reads
  uint64Number_reads := WireReader.uint64Number_reads
  int64Number_reads := WireReader.int64Number_reads
  bool_reads := WireReader.bool_reads
  bytes_reads := WireReader.bytes_reads
  string_reads := WireReader.string_reads
  skip_varint h := Reader.reads_taking.mpr
    ⟨rfl, _, takeVarint_reads (Nat.lt_of_lt_of_le h (by decide : 2 ^ 64 ≤ 128 ^ (9 + 1)))⟩
  skip_lengthDelimited h := Reader.reads_taking.mpr ⟨rfl, _, WireReader.bytes_reads h⟩
  skip_eq := WireReader.skip_eq
  tag_range := WireReader.tag_range
  uint32_range := WireReader.uint32_range
  int32_range h := by
    obtain ⟨value, -, rfl⟩ := Reader.reads_map.mp h
    have hlow := value.le_toInt
    have hhigh := value.toInt_lt
    omega
  uint64_range h := by
    obtain ⟨value, -, rfl⟩ := Reader.reads_map.mp h
    exact value.isLt
  uint64Number_range h := by
    obtain ⟨first, second, value, -, -, hsafe⟩ := Reader.reads_bind.mp h
    exact WireReader.safe_range hsafe
  int64Number_range h := by
    obtain ⟨first, second, value, -, -, hsafe⟩ := Reader.reads_bind.mp h
    exact WireReader.safe_range hsafe

end CereDdc
