import CereDdc.TokenRoundTrip
import CereDdc.WireReader

/-!
# DecodedTokens — what `Token.fromBinary` makes of any bytes

Whatever bytes are read, the message has values of the right kinds only, and
writing it gives bytes that are read as the same message.
-/

namespace CereDdc

open Kit

variable {reader : BinaryReader} {taken : Bytes} {no : Nat} {type : WireType}

/-! ## Signatures -/

namespace SignatureMessage

variable {message message' : SignatureMessage}

theorem wellFormed_create : ({} : SignatureMessage).WellFormed reader where
  algorithm := ⟨by decide, by decide⟩
  unknown := by simp

theorem wellFormed_of_field (hpos : 0 < no) (hlt : no < 2 ^ 29) (h : message.WellFormed reader)
    (hread : (message.field reader no type).Reads taken message') :
    message'.WellFormed reader := by
  by_cases hknown : no ∈ [1, 2, 3]
  · simp only [List.mem_cons, List.not_mem_nil, or_false] at hknown
    rcases hknown with rfl | rfl | rfl
    · obtain ⟨algorithm, hvalue, rfl⟩ := Reader.reads_map.mp hread
      exact ⟨reader.int32_range hvalue, h.unknown⟩
    · obtain ⟨signer, -, rfl⟩ := Reader.reads_map.mp hread
      exact ⟨h.algorithm, h.unknown⟩
    · obtain ⟨value, -, rfl⟩ := Reader.reads_map.mp hread
      exact ⟨h.algorithm, h.unknown⟩
  · rw [field_unknown hknown] at hread
    obtain ⟨u, hu, rfl⟩ := Reader.reads_map.mp hread
    exact ⟨h.algorithm, BinaryReader.skippable_append hpos hlt hknown h.unknown hu⟩

theorem wellFormed_of_fields (h : message.WellFormed reader)
    (hfields : Fields (reader.step (field reader)) message taken message') :
    message'.WellFormed reader := by
  refine hfields.invariant ?_ h
  intro m taken m' hm hstep
  obtain ⟨no, type, body, hpos, hlt, hread⟩ := BinaryReader.of_step hstep
  exact wellFormed_of_field hpos hlt hm hread

end SignatureMessage

/-! ## Payloads -/

theorem BinaryReader.isInt32_of_packed {values values' : List Int}
    (h : ∀ n ∈ values, IsInt32 n) (hread : (reader.packed values).Reads taken values') :
    ∀ n ∈ values', IsInt32 n := by
  obtain ⟨first, body, length, -, -, hbody⟩ := Reader.reads_bind.mp hread
  refine (fields_of_reads hbody).2.invariant (P := fun values => ∀ n ∈ values, IsInt32 n) ?_ h
  intro values taken values' hvalues hstep
  obtain ⟨n, hn, rfl⟩ := Reader.reads_map.mp hstep
  exact List.forall_mem_append.mpr
    ⟨hvalues, List.forall_mem_singleton.mpr (reader.int32_range hn)⟩

structure PayloadMessage.WellFormed (reader : BinaryReader) (payload : PayloadMessage) : Prop where
  fields : payload.fields.WellFormed reader
  prev : ∀ prev, payload.prev = some prev → prev.WellFormed reader

namespace PayloadMessage

variable {token : TokenMessage → Nat → WireType → Reader UInt8 TokenMessage}
  {message message' : PayloadMessage}

theorem wellFormed_create : ({} : PayloadMessage).WellFormed reader where
  fields := ⟨by simp, by simp, by simp, by simp⟩
  prev := by simp

/-- A field of a payload keeps its values of the right kinds, when reading a token does. -/
theorem wellFormed_of_field
    (htoken : ∀ {m m' : TokenMessage} {taken : Bytes}, m.WellFormed reader →
      Fields (reader.step token) m taken m' → m'.WellFormed reader)
    (hcreate : TokenMessage.create.WellFormed reader)
    (hpos : 0 < no) (hlt : no < 2 ^ 29) (h : message.WellFormed reader)
    (hread : (message.field reader token no type).Reads taken message') :
    message'.WellFormed reader := by
  obtain ⟨prev, fields⟩ := message
  obtain ⟨⟨hbucketId, hoperations, hexpiresAt, hunknown⟩, hprev⟩ := h
  by_cases hknown : no ∈ [1, 2, 3, 4, 5, 6, 7]
  · simp only [List.mem_cons, List.not_mem_nil, or_false] at hknown
    rcases hknown with rfl | rfl | rfl | rfl | rfl | rfl | rfl
    · obtain ⟨m, hm, rfl⟩ := Reader.reads_map.mp hread
      obtain ⟨body, hbody⟩ := BinaryReader.of_nested hm
      have htarget : (prev.getD .create).WellFormed reader := by
        cases prev with
        | none => exact hcreate
        | some target => exact hprev target rfl
      refine ⟨⟨hbucketId, hoperations, hexpiresAt, hunknown⟩, ?_⟩
      rintro _ ⟨⟩
      exact htoken htarget hbody
    · obtain ⟨subject, -, rfl⟩ := Reader.reads_map.mp hread
      exact ⟨⟨hbucketId, hoperations, hexpiresAt, hunknown⟩, hprev⟩
    · obtain ⟨canDelegate, -, rfl⟩ := Reader.reads_map.mp hread
      exact ⟨⟨hbucketId, hoperations, hexpiresAt, hunknown⟩, hprev⟩
    · obtain ⟨bucketId, hvalue, rfl⟩ := Reader.reads_map.mp hread
      refine ⟨⟨?_, hoperations, hexpiresAt, hunknown⟩, hprev⟩
      rintro _ ⟨⟩
      exact reader.uint64_range hvalue
    · obtain ⟨operations, hvalues, rfl⟩ := Reader.reads_map.mp hread
      refine ⟨⟨hbucketId, ?_, hexpiresAt, hunknown⟩, hprev⟩
      split at hvalues
      · exact BinaryReader.isInt32_of_packed hoperations hvalues
      · obtain ⟨operation, hvalue, rfl⟩ := Reader.reads_map.mp hvalues
        exact List.forall_mem_append.mpr
          ⟨hoperations, List.forall_mem_singleton.mpr (reader.int32_range hvalue)⟩
    · obtain ⟨expiresAt, hvalue, rfl⟩ := Reader.reads_map.mp hread
      refine ⟨⟨hbucketId, hoperations, ?_, hunknown⟩, hprev⟩
      rintro _ ⟨⟩
      exact reader.int64Number_range hvalue
    · obtain ⟨pieceCid, -, rfl⟩ := Reader.reads_map.mp hread
      exact ⟨⟨hbucketId, hoperations, hexpiresAt, hunknown⟩, hprev⟩
  · rw [field_unknown hknown] at hread
    obtain ⟨u, hu, rfl⟩ := Reader.reads_map.mp hread
    exact ⟨⟨hbucketId, hoperations, hexpiresAt,
      BinaryReader.skippable_append hpos hlt hknown hunknown hu⟩, hprev⟩

end PayloadMessage

/-! ## Tokens -/

namespace TokenMessage

variable {message message' : TokenMessage} {depth : Nat} {data : Bytes}

theorem wellFormed_iff : message.WellFormed reader ↔
    (∀ signature, message.signature = some signature → signature.WellFormed reader) ∧
      (∀ payload, message.payload = some payload → payload.WellFormed reader) ∧
      ∀ u ∈ message.unknown, reader.Skippable [1, 2] u := by
  cases message with
  | bare signature unknown =>
    constructor
    · intro h
      exact ⟨h.signature, (by rintro _ ⟨⟩), h.unknown⟩
    · rintro ⟨hsignature, -, hunknown⟩
      exact ⟨hsignature, (by rintro _ ⟨⟩), hunknown⟩
  | root signature fields unknown =>
    constructor
    · intro h
      refine ⟨h.signature, ?_, h.unknown⟩
      rintro _ ⟨⟩
      exact ⟨h.payload _ rfl, by simp⟩
    · rintro ⟨hsignature, hpayload, hunknown⟩
      refine ⟨hsignature, ?_, hunknown⟩
      intro payload hsome
      exact (hpayload payload hsome).fields
  | linked signature fields prev unknown =>
    constructor
    · rintro ⟨h, hprev⟩
      refine ⟨h.signature, ?_, h.unknown⟩
      rintro _ ⟨⟩
      refine ⟨h.payload _ rfl, ?_⟩
      rintro _ ⟨⟩
      exact hprev
    · rintro ⟨hsignature, hpayload, hunknown⟩
      refine ⟨⟨hsignature, ?_, hunknown⟩, (hpayload _ rfl).prev prev rfl⟩
      intro payload hsome
      exact (hpayload payload hsome).fields

theorem wellFormed_create : create.WellFormed reader :=
  wellFormed_iff.mpr ⟨(by rintro _ ⟨⟩), (by rintro _ ⟨⟩), by simp [create, unknown]⟩

/-- A field of a token keeps its values of the right kinds, whatever its depth. -/
theorem wellFormed_of_field (hpos : 0 < no) (hlt : no < 2 ^ 29) (h : message.WellFormed reader)
    (hread : (field reader depth message no type).Reads taken message') :
    message'.WellFormed reader := by
  induction depth generalizing message message' taken no type with
  | zero => exact absurd hread Reader.not_reads_fail
  | succ depth ih =>
    have hfields : ∀ {m m' : TokenMessage} {taken : Bytes}, m.WellFormed reader →
        Fields (reader.step (field reader depth)) m taken m' → m'.WellFormed reader := by
      intro m m' taken hm hread
      refine hread.invariant ?_ hm
      intro m taken m' hm hstep
      obtain ⟨no, type, body, hpos, hlt, hread⟩ := BinaryReader.of_step hstep
      exact ih hpos hlt hm hread
    obtain ⟨hsignature, hpayload, hunknown⟩ := wellFormed_iff.mp h
    by_cases hknown : no ∈ [1, 2]
    · simp only [List.mem_cons, List.not_mem_nil, or_false] at hknown
      rcases hknown with rfl | rfl
      · obtain ⟨signature, hvalue, rfl⟩ := Reader.reads_map.mp hread
        obtain ⟨body, hbody⟩ := BinaryReader.of_nested hvalue
        have htarget : (message.signature.getD {}).WellFormed reader := by
          cases hsome : message.signature with
          | none => exact SignatureMessage.wellFormed_create
          | some target => exact hsignature target hsome
        have hvalid := SignatureMessage.wellFormed_of_fields htarget hbody
        exact wellFormed_iff.mpr (by simpa [setSignature] using ⟨hvalid, hpayload, hunknown⟩)
      · obtain ⟨payload, hvalue, rfl⟩ := Reader.reads_map.mp hread
        obtain ⟨body, hbody⟩ := BinaryReader.of_nested hvalue
        have htarget : (message.payload.getD {}).WellFormed reader := by
          cases hsome : message.payload with
          | none => exact PayloadMessage.wellFormed_create
          | some target => exact hpayload target hsome
        have hvalid : payload.WellFormed reader := by
          refine hbody.invariant ?_ htarget
          intro m taken m' hm hstep
          obtain ⟨no, type, body, hpos, hlt, hread⟩ := BinaryReader.of_step hstep
          exact PayloadMessage.wellFormed_of_field hfields wellFormed_create hpos hlt hm hread
        exact wellFormed_iff.mpr (by simpa [setPayload] using ⟨hsignature, hvalid, hunknown⟩)
    · rw [field_unknown hknown] at hread
      obtain ⟨u, hu, rfl⟩ := Reader.reads_map.mp hread
      have hkept := BinaryReader.skippable_append hpos hlt hknown hunknown hu
      refine wellFormed_iff.mpr ?_
      simp only [pushUnknown, ofParts_signature, ofParts_payload, ofParts_unknown]
      exact ⟨hsignature, hpayload, hkept⟩

/-- What is read has values of the right kinds only. -/
theorem wellFormed_of_fromBinary (h : fromBinary reader data = some message) :
    message.WellFormed reader := by
  refine (BinaryReader.fromBinary_eq_some.mp h).invariant ?_ wellFormed_create
  intro m taken m' hm hstep
  obtain ⟨no, type, body, hpos, hlt, hread⟩ := BinaryReader.of_step hstep
  exact wellFormed_of_field hpos hlt hm hread

/-- Whatever has been read is read again from what is written for it, with the fields that no
class knows. -/
theorem rewritten_fromBinary (h : fromBinary reader data = some message)
    (hlength : message.toBinary.length < 2 ^ 31) :
    fromBinary reader message.toBinary = some message :=
  fromBinary_toBinary (wellFormed_of_fromBinary h) hlength

/-- A token with an unknown field in front and its signature in two parts. -/
theorem rewritten_fromBinary_parts :
    let message : TokenMessage :=
      .bare (some { algorithm := 1, signer := [7] }) [⟨15, .varint, [5]⟩]
    fromBinary wireReader message.toBinary = some message := by
  intro message
  have h : fromBinary wireReader
      [0x78, 0x05, 0x0a, 0x03, 0x12, 0x01, 0x07, 0x0a, 0x02, 0x08, 0x01] = some message := by
    decide +kernel
  exact rewritten_fromBinary h (by decide +kernel)

/-! ### The depth -/

theorem agree_nested {M : Type} {f f' : M → Nat → WireType → Reader UInt8 M} {n : Nat}
    (h : ∀ m, (reader.step f m).Agree n (reader.step f' m)) (target : M) :
    (reader.nested f target).Agree n (reader.nested f' target) :=
  .bind fun _ => agree_message h

/-- A token of `n` bytes cannot have more than `n` tokens inside one another. -/
theorem agree_step {n depth' : Nat} (h : n ≤ depth) (h' : n ≤ depth') (message : TokenMessage) :
    (reader.step (field reader depth) message).Agree n
      (reader.step (field reader depth') message) := by
  induction n generalizing depth depth' message with
  | zero =>
    intro input hinput
    rw [List.eq_nil_of_length_eq_zero (Nat.le_zero.mp hinput)]
    exact (BinaryReader.step_positive message).trans (BinaryReader.step_positive message).symm
  | succ n ih =>
    obtain ⟨depth, rfl⟩ : ∃ k, depth = k + 1 := ⟨depth - 1, by omega⟩
    obtain ⟨depth', rfl⟩ : ∃ k, depth' = k + 1 := ⟨depth' - 1, by omega⟩
    refine .bind_positive reader.tag_positive ?_
    rintro ⟨no, type⟩
    have htoken := agree_nested (ih (Nat.le_of_succ_le_succ h) (Nat.le_of_succ_le_succ h'))
    have hpayload : ∀ payload : PayloadMessage,
        (reader.step (PayloadMessage.field reader (field reader depth)) payload).Agree n
          (reader.step (PayloadMessage.field reader (field reader depth')) payload) := by
      intro payload
      refine .bind ?_
      rintro ⟨no, type⟩
      unfold PayloadMessage.field
      dsimp only
      split
      · exact (htoken _).map
      all_goals rfl
    show (field reader (depth + 1) message no type).Agree n
      (field reader (depth' + 1) message no type)
    unfold field
    split
    · rfl
    · exact (agree_nested hpayload _).map
    · rfl

/-- A greater depth changes nothing, also not for bytes that cannot be read. -/
theorem fromBinary_of_depth (h : data.length ≤ depth) :
    reader.fromBinary (field reader depth) .create data = fromBinary reader data := by
  have hagree : (message (reader.step (field reader depth)) data.length .create).Agree data.length
      (message (reader.step (field reader (data.length + 1))) data.length .create) :=
    agree_message (agree_step h (Nat.le_succ data.length))
  exact congrArg (Option.map Prod.fst) (hagree data (Nat.le_refl _))

end TokenMessage

end CereDdc
