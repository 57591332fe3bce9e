import CereDdc.TokenMessages

/-!
# TokenRoundTrip — `Token.fromBinary` after `Token.toBinary`

A message with values of the right kinds is read back from its binary form, at
every depth of the chain; and what is read from any bytes is such a message.
-/

namespace CereDdc

open Kit

variable {reader : BinaryReader}

/-! ## Values of the right kinds -/

def IsInt32 (n : Int) : Prop := -2 ^ 31 ≤ n ∧ n < 2 ^ 31

structure SignatureMessage.WellFormed (reader : BinaryReader) (message : SignatureMessage) :
    Prop where
  algorithm : IsInt32 message.algorithm
  unknown : ∀ u ∈ message.unknown, reader.Skippable [1, 2, 3] u

structure PayloadFields.WellFormed (reader : BinaryReader) (fields : PayloadFields) : Prop where
  bucketId : ∀ bucketId, fields.bucketId = some bucketId → bucketId < 2 ^ 64
  operations : ∀ operation ∈ fields.operations, IsInt32 operation
  expiresAt : ∀ expiresAt, fields.expiresAt = some expiresAt → isSafeInteger expiresAt
  unknown : ∀ u ∈ fields.unknown, reader.Skippable [1, 2, 3, 4, 5, 6, 7] u

namespace TokenMessage

/-- The parts of the token itself, without the one in front. -/
structure LevelWellFormed (reader : BinaryReader) (message : TokenMessage) : Prop where
  signature : ∀ signature, message.signature = some signature → signature.WellFormed reader
  payload : ∀ payload, message.payload = some payload → payload.fields.WellFormed reader
  unknown : ∀ u ∈ message.unknown, reader.Skippable [1, 2] u

def WellFormed (reader : BinaryReader) : TokenMessage → Prop
  | .linked signature payload prev unknown =>
    LevelWellFormed reader (.linked signature payload prev unknown) ∧ prev.WellFormed reader
  | message => LevelWellFormed reader message

/-- The number of tokens in the chain. -/
def depth : TokenMessage → Nat
  | .linked _ _ prev _ => prev.depth + 1
  | _ => 1

end TokenMessage

/-! ## Lengths -/

theorem length_lt_bytesField (field : Nat) (value : Bytes) :
    value.length < (bytesField field value).length := by
  have hlength := length_varint_pos value.length
  simp only [bytesField, List.length_append]
  omega

theorem length_le_optionalField {α : Type} (write : α → Bytes) {value : Option α} {v : α}
    (h : value = some v) : (write v).length ≤ (optionalField write value).length := by
  rw [h]
  exact Nat.le_refl _

theorem length_le_bytesValue (field : Nat) (value : Bytes) :
    value.length ≤ (bytesValue field value).length := by
  unfold bytesValue
  split
  · rename_i hvalue
    rw [hvalue]
  · exact Nat.le_of_lt (length_lt_bytesField field value)

/-! ## Fields that are not known -/

theorem SignatureMessage.field_unknown {message : SignatureMessage} {no : Nat} {type : WireType}
    (h : no ∉ [1, 2, 3]) : message.field reader no type
      = (fun unknown => { message with unknown := message.unknown ++ [unknown] }) <$>
        reader.unknownField no type := by
  unfold field
  split <;> simp_all

theorem PayloadMessage.field_unknown
    {token : TokenMessage → Nat → WireType → Reader UInt8 TokenMessage} {message : PayloadMessage}
    {no : Nat} {type : WireType} (h : no ∉ [1, 2, 3, 4, 5, 6, 7]) :
    message.field reader token no type
      = (fun unknown => { message with
          fields := { message.fields with unknown := message.fields.unknown ++ [unknown] } }) <$>
        reader.unknownField no type := by
  unfold field
  split <;> simp_all

theorem TokenMessage.field_unknown {depth : Nat} {message : TokenMessage} {no : Nat}
    {type : WireType} (h : no ∉ [1, 2]) :
    field reader (depth + 1) message no type
      = message.pushUnknown <$> reader.unknownField no type := by
  rw [field]
  · rintro rfl
    exact h (by simp)
  · rintro rfl
    exact h (by simp)

/-! ## Reading what was written -/

theorem signedVarint_of_nonneg {n : Nat} (h : n < 2 ^ 63) : signedVarint n = varint n := by
  have hvalue : (BitVec.ofInt 64 n).toNat = n := by
    rw [BitVec.toNat_ofInt]
    omega
  rw [signedVarint, hvalue]

theorem BinaryReader.fields_int32Value {M : Type} {field : M → Nat → WireType → Reader UInt8 M}
    {m m' : M} {no : Nat} {value : Int} (hpos : 0 < no) (hlt : no < 2 ^ 29)
    (hzero : value = 0 → m' = m)
    (h : (field m no .varint).Reads (signedVarint value) m') :
    Fields (reader.step field) m (int32Value no value) m' := by
  unfold int32Value
  split
  · rename_i hvalue
    rw [hzero hvalue]
    exact .nil _
  · exact .single (step_reads hpos hlt h)

namespace SignatureMessage

/-- The bytes of a signature set its fields one after another. -/
theorem fields_toBinary {message : SignatureMessage} (h : message.WellFormed reader)
    (hlength : message.toBinary.length < 2 ^ 31) :
    Fields (reader.step (field reader)) {} message.toBinary message := by
  obtain ⟨algorithm, signer, value, unknown⟩ := message
  simp only [toBinary, List.length_append] at hlength
  have hsigner := length_le_bytesValue 2 signer
  have hvalue := length_le_bytesValue 3 value
  have halgorithm : Fields (reader.step (field reader)) {} (int32Value 1 algorithm)
      { algorithm } :=
    BinaryReader.fields_int32Value (by decide) (by decide) (fun hzero => by rw [hzero])
      (reader.int32_reads h.algorithm.1 h.algorithm.2).map
  have hsigner : Fields (reader.step (field reader)) { algorithm } (bytesValue 2 signer)
      { algorithm, signer } :=
    BinaryReader.fields_bytesValue (by decide) (by decide) (fun hempty => by rw [hempty])
      (reader.bytes_reads (by omega)).map
  have hvalue : Fields (reader.step (field reader)) { algorithm, signer } (bytesValue 3 value)
      { algorithm, signer, value } :=
    BinaryReader.fields_bytesValue (by decide) (by decide) (fun hempty => by rw [hempty])
      (reader.bytes_reads (by omega)).map
  have hunknown : Fields (reader.step (field reader)) { algorithm, signer, value }
      (unknown.flatMap UnknownField.toBinary) { algorithm, signer, value, unknown } :=
    BinaryReader.fields_unknown (f := SignatureMessage.mk algorithm signer value) h.unknown
      fun _ _ => field_unknown
  exact ((halgorithm.append hsigner).append hvalue).append hunknown

end SignatureMessage

/-- A packed field takes the numbers up to its end. -/
theorem BinaryReader.packed_reads {operations : List Int} (h : ∀ n ∈ operations, IsInt32 n)
    (hlength : (operations.flatMap signedVarint).length < 2 ^ 31) :
    (reader.packed []).Reads (lengthPrefixed (operations.flatMap signedVarint)) operations := by
  have hstep : ∀ values : List Int,
      ((fun value => values ++ [value]) <$> reader.int32 : Reader UInt8 (List Int)).Positive :=
    fun values => reader.int32_positive.bind
  have hfields : ∀ values : List Int,
      Fields (fun values => (fun value => values ++ [value]) <$> reader.int32) values
        (operations.flatMap signedVarint) (values ++ operations) := by
    clear hlength
    induction operations with
    | nil =>
      intro values
      rw [List.append_nil]
      exact .nil values
    | cons n operations ih =>
      intro values
      obtain ⟨hlow, hhigh⟩ := h n (by simp)
      have hothers := ih (fun m hm => h m (by simp [hm])) (values ++ [n])
      rw [List.append_assoc] at hothers
      exact .cons (reader.int32_reads hlow hhigh).map hothers
  have hprefix := reader.int32_reads (n := (operations.flatMap signedVarint).length)
    (by omega) (by omega)
  rw [signedVarint_of_nonneg (by omega)] at hprefix
  exact hprefix.bind ((hfields []).reads hstep)

/-- The bytes of a payload set its fields one after another, when those of `prev` do. -/
theorem PayloadMessage.fields_toBinary
    {token : TokenMessage → Nat → WireType → Reader UInt8 TokenMessage} {fields : PayloadFields}
    {prev : Option TokenMessage} (h : fields.WellFormed reader)
    (hprev : ∀ message, prev = some message →
      Fields (reader.step token) .create message.toBinary message)
    (hlength : (fields.toBinary (prev.map TokenMessage.toBinary)).length < 2 ^ 31) :
    Fields (reader.step (field reader token)) {}
      (fields.toBinary (prev.map TokenMessage.toBinary)) { prev, fields } := by
  obtain ⟨subject, canDelegate, bucketId, operations, expiresAt, pieceCid, unknown⟩ := fields
  simp only [PayloadFields.toBinary, List.length_append] at hlength
  have hpresent : Fields (reader.step (field reader token)) {}
      (optionalField (bytesField 1) (prev.map TokenMessage.toBinary)) { prev } := by
    apply BinaryReader.fields_optionalField
    · intro hnone
      rw [Option.map_eq_none_iff.mp hnone]
    · intro data hdata
      obtain ⟨message, rfl, rfl⟩ := Option.map_eq_some_iff.mp hdata
      have hdata := length_le_optionalField (bytesField 1) hdata
      have hfield := length_lt_bytesField 1 message.toBinary
      exact BinaryReader.fields_bytesField (by decide) (by decide)
        (BinaryReader.nested_reads (by omega) (hprev message rfl)).map
  have hsubject : Fields (reader.step (field reader token)) { prev }
      (optionalField (bytesField 2) subject) { prev, fields := { subject } } := by
    apply BinaryReader.fields_optionalField
    · intro hnone
      rw [hnone]
    · rintro key rfl
      have hkey := length_le_optionalField (bytesField 2) (rfl : some key = some key)
      have hfield := length_lt_bytesField 2 key
      exact BinaryReader.fields_bytesField (by decide) (by decide)
        (reader.bytes_reads (by omega)).map
  have hcanDelegate : Fields (reader.step (field reader token)) { prev, fields := { subject } }
      (optionalField (fun canDelegate => varintField 3 canDelegate.toNat) canDelegate)
      { prev, fields := { subject, canDelegate } } := by
    apply BinaryReader.fields_optionalField
    · intro hnone
      rw [hnone]
    · rintro b rfl
      exact BinaryReader.fields_varintField (by decide) (by decide) reader.bool_reads.map
  have hbucketId : Fields (reader.step (field reader token))
      { prev, fields := { subject, canDelegate } } (optionalField (varintField 4) bucketId)
      { prev, fields := { subject, canDelegate, bucketId } } := by
    apply BinaryReader.fields_optionalField
    · intro hnone
      rw [hnone]
    · rintro n rfl
      exact BinaryReader.fields_varintField (by decide) (by decide)
        (reader.uint64_reads (h.bucketId n rfl)).map
  have hoperations : Fields (reader.step (field reader token))
      { prev, fields := { subject, canDelegate, bucketId } }
      (if operations = [] then [] else bytesField 5 (operations.flatMap signedVarint))
      { prev, fields := { subject, canDelegate, bucketId, operations } } := by
    split
    · rename_i hempty
      rw [hempty]
      exact .nil _
    · rename_i hempty
      rw [if_neg hempty] at hlength
      have hfield := length_lt_bytesField 5 (operations.flatMap signedVarint)
      have hpacked : (reader.packed []).Reads
          (lengthPrefixed (operations.flatMap signedVarint)) operations :=
        BinaryReader.packed_reads h.operations (by omega)
      exact BinaryReader.fields_bytesField (by decide) (by decide) hpacked.map
  have hexpiresAt : Fields (reader.step (field reader token))
      { prev, fields := { subject, canDelegate, bucketId, operations } }
      (optionalField (fun expiresAt => tag 6 .varint ++ signedVarint expiresAt) expiresAt)
      { prev, fields := { subject, canDelegate, bucketId, operations, expiresAt } } := by
    apply BinaryReader.fields_optionalField
    · intro hnone
      rw [hnone]
    · rintro n rfl
      exact .single (BinaryReader.step_reads (by decide) (by decide)
        (reader.int64Number_reads (h.expiresAt n rfl)).map)
  have hpieceCid : Fields (reader.step (field reader token))
      { prev, fields := { subject, canDelegate, bucketId, operations, expiresAt } }
      (optionalField (bytesField 7) pieceCid)
      { prev, fields := { subject, canDelegate, bucketId, operations, expiresAt, pieceCid } } := by
    apply BinaryReader.fields_optionalField
    · intro hnone
      rw [hnone]
    · rintro cid rfl
      have hcid := length_le_optionalField (bytesField 7) (rfl : some cid = some cid)
      have hfield := length_lt_bytesField 7 cid
      exact BinaryReader.fields_bytesField (by decide) (by decide)
        (reader.bytes_reads (by omega)).map
  have hunknown : Fields (reader.step (field reader token))
      { prev, fields := { subject, canDelegate, bucketId, operations, expiresAt, pieceCid } }
      (unknown.flatMap UnknownField.toBinary)
      ⟨prev, ⟨subject, canDelegate, bucketId, operations, expiresAt, pieceCid, unknown⟩⟩ :=
    BinaryReader.fields_unknown
      (f := fun unknown => PayloadMessage.mk prev
        ⟨subject, canDelegate, bucketId, operations, expiresAt, pieceCid, unknown⟩)
      h.unknown fun _ _ => field_unknown
  exact ((((((hpresent.append hsubject).append hcanDelegate).append hbucketId).append
    hoperations).append hexpiresAt).append hpieceCid).append hunknown

namespace TokenMessage

@[simp] theorem ofParts_signature {signature : Option SignatureMessage}
    {payload : Option PayloadMessage} {unknown : List UnknownField} :
    (ofParts signature payload unknown).signature = signature := by
  rcases payload with _ | ⟨_ | prev, fields⟩ <;> rfl

@[simp] theorem ofParts_payload {signature : Option SignatureMessage}
    {payload : Option PayloadMessage} {unknown : List UnknownField} :
    (ofParts signature payload unknown).payload = payload := by
  rcases payload with _ | ⟨_ | prev, fields⟩ <;> rfl

@[simp] theorem ofParts_unknown {signature : Option SignatureMessage}
    {payload : Option PayloadMessage} {unknown : List UnknownField} :
    (ofParts signature payload unknown).unknown = unknown := by
  rcases payload with _ | ⟨_ | prev, fields⟩ <;> rfl

theorem ofParts_eq (message : TokenMessage) :
    ofParts message.signature message.payload message.unknown = message := by
  cases message <;> rfl

theorem toBinary_eq (message : TokenMessage) :
    message.toBinary
      = optionalField (bytesField 1 ∘ SignatureMessage.toBinary) message.signature
        ++ optionalField (fun payload => bytesField 2
          (payload.fields.toBinary (payload.prev.map toBinary))) message.payload
        ++ message.unknown.flatMap UnknownField.toBinary := by
  cases message with
  | bare signature unknown =>
    show _ = _ ++ [] ++ _
    rw [List.append_nil]
    rfl
  | root signature payload unknown => rfl
  | linked signature payload prev unknown => rfl

variable {message : TokenMessage} {depth : Nat}

/-- The bytes of a token set its parts, when those of the token in front do. -/
theorem fields_of_prev (h : LevelWellFormed reader message)
    (hprev : ∀ payload prev, message.payload = some payload → payload.prev = some prev →
      Fields (reader.step (field reader depth)) create prev.toBinary prev)
    (hlength : message.toBinary.length < 2 ^ 31) :
    Fields (reader.step (field reader (depth + 1))) create message.toBinary message := by
  rw [toBinary_eq] at hlength ⊢
  simp only [List.length_append] at hlength
  have hsignature : Fields (reader.step (field reader (depth + 1))) create
      (optionalField (bytesField 1 ∘ SignatureMessage.toBinary) message.signature)
      (ofParts message.signature none []) := by
    apply BinaryReader.fields_optionalField
    · intro hnone
      rw [hnone]
      rfl
    · intro signature hsome
      have hfield := length_le_optionalField (bytesField 1 ∘ SignatureMessage.toBinary) hsome
      have hbody := length_lt_bytesField 1 signature.toBinary
      simp only [Function.comp_apply] at hfield
      have hfields := SignatureMessage.fields_toBinary (h.signature signature hsome) (by omega)
      rw [hsome]
      exact BinaryReader.fields_bytesField (by decide) (by decide)
        (BinaryReader.nested_reads (by omega) hfields).map
  have hpayload : Fields (reader.step (field reader (depth + 1)))
      (ofParts message.signature none [])
      (optionalField (fun payload => bytesField 2
        (payload.fields.toBinary (payload.prev.map toBinary))) message.payload)
      (ofParts message.signature message.payload []) := by
    apply BinaryReader.fields_optionalField
    · intro hnone
      rw [hnone]
    · intro payload hsome
      have hfield := length_le_optionalField (fun payload : PayloadMessage => bytesField 2
        (payload.fields.toBinary (payload.prev.map toBinary))) hsome
      have hbody := length_lt_bytesField 2 (payload.fields.toBinary (payload.prev.map toBinary))
      have hfields := PayloadMessage.fields_toBinary (h.payload payload hsome)
        (fun prev hlink => hprev payload prev hsome hlink) (by omega)
      rw [hsome]
      exact BinaryReader.fields_bytesField (by decide) (by decide)
        (BinaryReader.nested_reads (by omega) hfields).map
  have hunknown : Fields (reader.step (field reader (depth + 1)))
      (ofParts message.signature message.payload [])
      (message.unknown.flatMap UnknownField.toBinary)
      (ofParts message.signature message.payload message.unknown) := by
    apply BinaryReader.fields_unknown (f := ofParts message.signature message.payload) h.unknown
    intro before u hu
    have hpush : (ofParts message.signature message.payload before).pushUnknown
        = fun u => ofParts message.signature message.payload (before ++ [u]) := by
      funext u
      simp [pushUnknown]
    rw [field_unknown hu, hpush]
  have hfields := (hsignature.append hpayload).append hunknown
  rwa [ofParts_eq] at hfields

theorem length_prev_toBinary {signature : Option SignatureMessage} {payload : PayloadFields}
    {prev : TokenMessage} {unknown : List UnknownField} :
    prev.toBinary.length < (linked signature payload prev unknown).toBinary.length := by
  have hprev := length_lt_bytesField 1 prev.toBinary
  have hpayload := length_lt_bytesField 2 (payload.toBinary (some prev.toBinary))
  have hfield : (bytesField 1 prev.toBinary).length
      ≤ (payload.toBinary (some prev.toBinary)).length := by
    simp only [PayloadFields.toBinary, optionalField, Option.map_some, Option.getD_some,
      List.length_append]
    omega
  simp only [toBinary, List.length_append]
  omega

theorem fields_toBinary (hdepth : message.depth ≤ depth) (h : message.WellFormed reader)
    (hlength : message.toBinary.length < 2 ^ 31) :
    Fields (reader.step (field reader depth)) create message.toBinary message := by
  induction message generalizing depth with
  | bare signature unknown =>
    obtain ⟨depth, rfl⟩ : ∃ n, depth = n + 1 := ⟨depth - 1, by change 1 ≤ depth at hdepth; omega⟩
    refine fields_of_prev h ?_ hlength
    rintro payload prev ⟨⟩
  | root signature fields unknown =>
    obtain ⟨depth, rfl⟩ : ∃ n, depth = n + 1 := ⟨depth - 1, by change 1 ≤ depth at hdepth; omega⟩
    refine fields_of_prev h ?_ hlength
    rintro payload prev ⟨⟩ ⟨⟩
  | linked signature fields prev unknown ih =>
    change prev.depth + 1 ≤ depth at hdepth
    obtain ⟨depth, rfl⟩ : ∃ n, depth = n + 1 := ⟨depth - 1, by omega⟩
    obtain ⟨hlevel, hprev⟩ := h
    refine fields_of_prev hlevel ?_ hlength
    intro payload prev' hpayload hlink
    cases hpayload
    cases hlink
    exact ih (by omega) hprev (Nat.lt_trans length_prev_toBinary hlength)

/-- A chain is not longer than its binary form. -/
theorem depth_le (message : TokenMessage) : message.depth ≤ message.toBinary.length + 1 := by
  induction message with
  | bare signature unknown => exact Nat.le_add_left 1 _
  | root signature fields unknown => exact Nat.le_add_left 1 _
  | linked signature fields prev unknown ih =>
    have hlt := @length_prev_toBinary signature fields prev unknown
    change prev.depth + 1 ≤ _
    omega

/-- A message is read back from its binary form. -/
theorem fromBinary_toBinary (h : message.WellFormed reader)
    (hlength : message.toBinary.length < 2 ^ 31) :
    fromBinary reader message.toBinary = some message :=
  BinaryReader.fromBinary_eq_some.mpr (fields_toBinary message.depth_le h hlength)

end TokenMessage

end CereDdc
