import CereDdc.StoredMessages
import CereDdc.TokenText

/-!
# ActivityMessages — `grpc/activity_report/activity_report.ts`

Activity requests and acknowledgments as the generated classes read and write them.
What the SDK writes is read back.
-/

namespace CereDdc

open Kit Reader

variable {reader : BinaryReader}

/-! ## `ActivityRequest` -/

/-- `ActivityRequest`, without `parentRequest`. -/
structure ActivityContent where
  requestId : String := ""
  requestType : Int := 0
  contentType : Int := 0
  bucketId : Nat := 0
  id : Bytes := []
  offset : Nat := 0
  size : Nat := 0
  timestamp : Nat := 0
  signature : Option SignatureMessage := none
  unknown : List UnknownField := []
  deriving DecidableEq, Repr

/-- `ActivityRequest`: without a parent request, or with one. -/
inductive ActivityMessage
  | root (content : ActivityContent)
  | child (parent : ActivityMessage) (content : ActivityContent)
  deriving DecidableEq, Repr

def ActivityContent.toBinary (content : ActivityContent) : Bytes :=
  stringValue 2 content.requestId ++
  int32Value 3 content.requestType ++
  int32Value 4 content.contentType ++
  varintValue 5 content.bucketId ++
  bytesValue 6 content.id ++
  varintValue 7 content.offset ++
  varintValue 8 content.size ++
  varintValue 9 content.timestamp ++
  optionalField (bytesField 10 ∘ SignatureMessage.toBinary) content.signature ++
  content.unknown.flatMap UnknownField.toBinary

/-- The cases of the `switch` of `internalBinaryRead` for all fields but `parentRequest`. -/
def ActivityContent.field (reader : BinaryReader) (content : ActivityContent) (fieldNo : Nat)
    (wireType : WireType) : Reader UInt8 ActivityContent :=
  match fieldNo with
  | 2 => (fun requestId => { content with requestId }) <$> reader.string
  | 3 => (fun requestType => { content with requestType }) <$> reader.int32
  | 4 => (fun contentType => { content with contentType }) <$> reader.int32
  | 5 => (fun bucketId => { content with bucketId }) <$> reader.uint64
  | 6 => (fun id => { content with id }) <$> reader.bytes
  | 7 => (fun offset => { content with offset }) <$> reader.uint64Number
  | 8 => (fun size => { content with size }) <$> reader.uint64Number
  | 9 => (fun timestamp => { content with timestamp }) <$> reader.uint64Number
  | 10 => (fun signature => { content with signature := some signature }) <$>
    reader.nested (SignatureMessage.field reader) (content.signature.getD {})
  | _ => (fun unknown => { content with unknown := content.unknown ++ [unknown] }) <$>
    reader.unknownField fieldNo wireType

namespace ActivityMessage

def create : ActivityMessage := .root {}

def content : ActivityMessage → ActivityContent
  | .root content => content
  | .child _ content => content

def parent : ActivityMessage → Option ActivityMessage
  | .root _ => none
  | .child parent _ => some parent

def withContent : ActivityMessage → ActivityContent → ActivityMessage
  | .root _, content => .root content
  | .child parent _, content => .child parent content

/-- `internalBinaryWrite` -/
def toBinary : ActivityMessage → Bytes
  | .root content => content.toBinary
  | .child parent content => bytesField 1 parent.toBinary ++ content.toBinary

/-- The message as it is without its signature. -/
def unsigned (message : ActivityMessage) : ActivityMessage :=
  message.withContent { message.content with signature := none }

/-- The `switch` of `internalBinaryRead`, for at most `depth` requests inside one another. -/
def field (reader : BinaryReader) : (depth : Nat) → ActivityMessage → Nat → WireType →
    Reader UInt8 ActivityMessage
  | 0, _, 1, _ => .fail
  | depth + 1, message, 1, _ => (fun parent => .child parent message.content) <$>
    reader.nested (field reader depth) (message.parent.getD create)
  | _, message, fieldNo, wireType =>
    message.withContent <$> message.content.field reader fieldNo wireType

theorem field_eq {depth no : Nat} {message : ActivityMessage} {type : WireType} (h : no ≠ 1) :
    field reader depth message no type
      = message.withContent <$> message.content.field reader no type := by
  unfold field
  split
  · exact absurd rfl h
  · exact absurd rfl h
  · rfl

/-- `fromBinary`; no message has more requests inside one another than it has bytes. -/
def fromBinary (reader : BinaryReader) (data : Bytes) : Option ActivityMessage :=
  reader.fromBinary (field reader (data.length + 1)) create data

end ActivityMessage

/-- The numbers are such that the fields of the request can hold them, and it is less than 2 GiB. -/
structure ActivityRequest.Writable (request : ActivityRequest) : Prop where
  bucketId : request.bucketId < 2 ^ 64
  offset : isSafeInteger request.offset
  size : isSafeInteger request.size
  timestamp : isSafeInteger request.timestamp
  length : request.toBinary.length < 2 ^ 31

def ActivityRequest.toMessage (request : ActivityRequest) : ActivityMessage :=
  .root
    { requestId := request.requestId
      requestType := request.requestType.number
      bucketId := request.bucketId
      id := request.id
      offset := request.offset
      size := request.size
      timestamp := request.timestamp
      signature := request.signature.map (·.toMessage) }

theorem optionalField_signature (field : Nat) (signature : Option Signature) :
    optionalField (bytesField field ∘ SignatureMessage.toBinary) (signature.map (·.toMessage))
      = optionalField (bytesField field ∘ Signature.toBinary) signature := by
  rw [optionalField_map]
  congr 1
  funext signature
  exact congrArg (bytesField field) signature.toBinary_toMessage

theorem ActivityRequestType.int32Value_number (field : Nat) (requestType : ActivityRequestType) :
    int32Value field requestType.number = varintValue field requestType.number := by
  cases requestType with
  | store => rfl
  | get =>
    rw [int32Value, if_neg (by decide), varintValue, if_neg (by decide),
      signedVarint_of_nonneg (by decide)]
    rfl

theorem ActivityRequest.toBinary_toMessage (request : ActivityRequest) :
    request.toMessage.toBinary = request.toBinary := by
  show stringValue 2 _ ++ int32Value 3 _ ++ [] ++ varintValue 5 _ ++ bytesValue 6 _ ++
    varintValue 7 _ ++ varintValue 8 _ ++ varintValue 9 _ ++ optionalField _ (Option.map _ _) ++ []
      = _
  rw [List.append_nil, List.append_nil, ActivityRequestType.int32Value_number,
    optionalField_signature]
  rfl

/-- A signature that the SDK has made, as a field that is read. -/
theorem BinaryReader.fields_signature {M : Type} {field : M → Nat → WireType → Reader UInt8 M}
    {m m' : M} {no : Nat} {signature : Option Signature} (hpos : 0 < no) (hlt : no < 2 ^ 29)
    (hlength : (optionalField (bytesField no ∘ Signature.toBinary) signature).length < 2 ^ 31)
    (hnone : signature = none → m' = m)
    (h : ∀ s taken, signature = some s →
      (reader.nested (SignatureMessage.field reader) {}).Reads taken s.toMessage →
        (field m no .lengthDelimited).Reads taken m') :
    Fields (reader.step field) m (optionalField (bytesField no ∘ Signature.toBinary) signature)
      m' := by
  apply fields_optionalField hnone
  rintro s rfl
  have hbody := length_lt_bytesField no s.toBinary
  change (bytesField no s.toBinary).length < 2 ^ 31 at hlength
  have hwell : s.toMessage.WellFormed reader :=
    ⟨s.algorithm.isInt32, by simp [Signature.toMessage]⟩
  have hfields := SignatureMessage.fields_toBinary hwell (by rw [s.toBinary_toMessage]; omega)
  rw [s.toBinary_toMessage] at hfields
  exact fields_bytesField hpos hlt (h s _ rfl (nested_reads (by omega) hfields))

/-- A field of the content is a field of the message. -/
theorem ActivityMessage.reads_field {depth no : Nat} {content content' : ActivityContent}
    {type : WireType} {taken : Bytes} (hno : no ≠ 1)
    (h : (content.field reader no type).Reads taken content') :
    (field reader depth (.root content) no type).Reads taken (.root content') := by
  rw [field_eq hno]
  exact h.map

theorem ActivityRequest.fields_toBinary {request : ActivityRequest} (h : request.Writable)
    (depth : Nat) : Fields (reader.step (ActivityMessage.field reader depth))
      ActivityMessage.create request.toBinary request.toMessage := by
  obtain ⟨hbucketId, hoffset, hsize, htimestamp, hlength⟩ := h
  obtain ⟨requestId, requestType, bucketId, id, offset, size, timestamp, signature⟩ := request
  simp only [toBinary, List.length_append] at hlength
  have hrequestId := length_le_bytesValue 2 (utf8 requestId)
  change (utf8 requestId).length ≤ (stringValue 2 requestId).length at hrequestId
  have hid := length_le_bytesValue 6 id
  have htype : IsInt32 requestType.number := by cases requestType <;> exact ⟨by decide, by decide⟩
  have hrequestId : Fields (reader.step (ActivityMessage.field reader depth)) (.root {})
      (stringValue 2 requestId) (.root { requestId }) :=
    BinaryReader.fields_stringValue (by decide) (by decide) (fun hempty => by rw [hempty])
      (ActivityMessage.reads_field (by decide)
        (reader.string_reads (show (utf8 requestId).length < 2 ^ 32 by omega)).map)
  have htype : Fields (reader.step (ActivityMessage.field reader depth)) (.root { requestId })
      (int32Value 3 requestType.number) (.root { requestId, requestType := requestType.number }) :=
    BinaryReader.fields_int32Value (by decide) (by decide) (fun hzero => by rw [hzero])
      (ActivityMessage.reads_field (by decide) (reader.int32_reads htype.1 htype.2).map)
  have hbucketId : Fields (reader.step (ActivityMessage.field reader depth))
      (.root { requestId, requestType := requestType.number }) (varintValue 5 bucketId)
      (.root { requestId, requestType := requestType.number, bucketId }) :=
    BinaryReader.fields_varintValue (by decide) (by decide) (fun hzero => by rw [hzero])
      (ActivityMessage.reads_field (by decide) (reader.uint64_reads hbucketId).map)
  have hid : Fields (reader.step (ActivityMessage.field reader depth))
      (.root { requestId, requestType := requestType.number, bucketId }) (bytesValue 6 id)
      (.root { requestId, requestType := requestType.number, bucketId, id }) :=
    BinaryReader.fields_bytesValue (by decide) (by decide) (fun hempty => by rw [hempty])
      (ActivityMessage.reads_field (by decide) (reader.bytes_reads (by omega)).map)
  have hoffset : Fields (reader.step (ActivityMessage.field reader depth))
      (.root { requestId, requestType := requestType.number, bucketId, id })
      (varintValue 7 offset)
      (.root { requestId, requestType := requestType.number, bucketId, id, offset }) :=
    BinaryReader.fields_varintValue (by decide) (by decide) (fun hzero => by rw [hzero])
      (ActivityMessage.reads_field (by decide) (reader.uint64Number_reads hoffset).map)
  have hsize : Fields (reader.step (ActivityMessage.field reader depth))
      (.root { requestId, requestType := requestType.number, bucketId, id, offset })
      (varintValue 8 size)
      (.root { requestId, requestType := requestType.number, bucketId, id, offset, size }) :=
    BinaryReader.fields_varintValue (by decide) (by decide) (fun hzero => by rw [hzero])
      (ActivityMessage.reads_field (by decide) (reader.uint64Number_reads hsize).map)
  have htimestamp : Fields (reader.step (ActivityMessage.field reader depth))
      (.root { requestId, requestType := requestType.number, bucketId, id, offset, size })
      (varintValue 9 timestamp)
      (.root { requestId, requestType := requestType.number, bucketId, id, offset, size,
               timestamp }) :=
    BinaryReader.fields_varintValue (by decide) (by decide) (fun hzero => by rw [hzero])
      (ActivityMessage.reads_field (by decide) (reader.uint64Number_reads htimestamp).map)
  have hsignature : Fields (reader.step (ActivityMessage.field reader depth))
      (.root { requestId, requestType := requestType.number, bucketId, id, offset, size,
               timestamp })
      (optionalField (bytesField 10 ∘ Signature.toBinary) signature)
      (.root { requestId, requestType := requestType.number, bucketId, id, offset, size,
               timestamp, signature := signature.map (·.toMessage) }) := by
    refine BinaryReader.fields_signature (by decide) (by decide) (by omega)
      (fun hnone => by rw [hnone]; rfl) ?_
    rintro s taken rfl hreads
    exact ActivityMessage.reads_field (by decide) hreads.map
  rw [ActivityRequestType.int32Value_number] at htype
  exact (((((((hrequestId.append htype).append hbucketId).append hid).append hoffset).append
    hsize).append htimestamp).append hsignature)

/-- An activity request is read back from its binary form. -/
theorem ActivityRequest.fromBinary_eq {request : ActivityRequest} (h : request.Writable) :
    ActivityMessage.fromBinary reader request.toBinary = some request.toMessage :=
  BinaryReader.fromBinary_eq_some.mpr (fields_toBinary h _)

/-- Without its signature, the message has the bytes that were signed. -/
theorem ActivityRequest.toBinary_unsigned (request : ActivityRequest) :
    request.toMessage.unsigned.toBinary = { request with signature := none }.toBinary :=
  toBinary_toMessage { request with signature := none }

/-! ## `ActivityAcknowledgment` -/

structure AckMessage where
  requestId : String := ""
  bytesStoredOrDelivered : Nat := 0
  timestamp : Nat := 0
  signature : Option SignatureMessage := none
  unknown : List UnknownField := []
  deriving DecidableEq, Repr

namespace AckMessage

/-- The `switch` of `internalBinaryRead`. -/
def field (reader : BinaryReader) (message : AckMessage) (fieldNo : Nat) (wireType : WireType) :
    Reader UInt8 AckMessage :=
  match fieldNo with
  | 1 => (fun requestId => { message with requestId }) <$> reader.string
  | 2 => (fun bytesStoredOrDelivered => { message with bytesStoredOrDelivered }) <$>
    reader.uint64Number
  | 3 => (fun timestamp => { message with timestamp }) <$> reader.uint64Number
  | 4 => (fun signature => { message with signature := some signature }) <$>
    reader.nested (SignatureMessage.field reader) (message.signature.getD {})
  | _ => (fun unknown => { message with unknown := message.unknown ++ [unknown] }) <$>
    reader.unknownField fieldNo wireType

/-- `internalBinaryWrite` -/
def toBinary (message : AckMessage) : Bytes :=
  stringValue 1 message.requestId ++
  varintValue 2 message.bytesStoredOrDelivered ++
  varintValue 3 message.timestamp ++
  optionalField (bytesField 4 ∘ SignatureMessage.toBinary) message.signature ++
  message.unknown.flatMap UnknownField.toBinary

def fromBinary (reader : BinaryReader) (data : Bytes) : Option AckMessage :=
  reader.fromBinary (field reader) {} data

end AckMessage

namespace ActivityAcknowledgment

/-- The numbers are such that the fields can hold them, and the acknowledgment is below 2 GiB. -/
structure Writable (ack : ActivityAcknowledgment) : Prop where
  bytesStoredOrDelivered : isSafeInteger ack.bytesStoredOrDelivered
  timestamp : isSafeInteger ack.timestamp
  length : ack.toBinary.length < 2 ^ 31

def toMessage (ack : ActivityAcknowledgment) : AckMessage where
  requestId := ack.requestId
  bytesStoredOrDelivered := ack.bytesStoredOrDelivered
  timestamp := ack.timestamp
  signature := ack.signature.map (·.toMessage)

theorem toBinary_toMessage (ack : ActivityAcknowledgment) :
    ack.toMessage.toBinary = ack.toBinary := by
  show stringValue 1 _ ++ varintValue 2 _ ++ varintValue 3 _ ++
    optionalField _ (Option.map _ _) ++ [] = _
  rw [List.append_nil, optionalField_signature]
  rfl

/-- An acknowledgment is read back from its binary form. -/
theorem fromBinary_eq {ack : ActivityAcknowledgment} (h : ack.Writable) :
    AckMessage.fromBinary reader ack.toBinary = some ack.toMessage := by
  obtain ⟨hbytes, htimestamp, hlength⟩ := h
  obtain ⟨requestId, bytesStoredOrDelivered, timestamp, signature⟩ := ack
  simp only [toBinary, List.length_append] at hlength
  have hrequestId := length_le_bytesValue 1 (utf8 requestId)
  change (utf8 requestId).length ≤ (stringValue 1 requestId).length at hrequestId
  have hrequestId : Fields (reader.step (AckMessage.field reader)) {} (stringValue 1 requestId)
      { requestId } :=
    BinaryReader.fields_stringValue (by decide) (by decide) (fun hempty => by rw [hempty])
      (reader.string_reads (show (utf8 requestId).length < 2 ^ 32 by omega)).map
  have hbytes : Fields (reader.step (AckMessage.field reader)) { requestId }
      (varintValue 2 bytesStoredOrDelivered) { requestId, bytesStoredOrDelivered } :=
    BinaryReader.fields_varintValue (by decide) (by decide) (fun hzero => by rw [hzero])
      (reader.uint64Number_reads hbytes).map
  have htimestamp : Fields (reader.step (AckMessage.field reader))
      { requestId, bytesStoredOrDelivered } (varintValue 3 timestamp)
      { requestId, bytesStoredOrDelivered, timestamp } :=
    BinaryReader.fields_varintValue (by decide) (by decide) (fun hzero => by rw [hzero])
      (reader.uint64Number_reads htimestamp).map
  have hsignature : Fields (reader.step (AckMessage.field reader))
      { requestId, bytesStoredOrDelivered, timestamp }
      (optionalField (bytesField 4 ∘ Signature.toBinary) signature)
      { requestId, bytesStoredOrDelivered, timestamp,
        signature := signature.map (·.toMessage) } := by
    refine BinaryReader.fields_signature (by decide) (by decide) (by omega)
      (fun hnone => by rw [hnone]; rfl) ?_
    rintro s taken rfl hreads
    exact hreads.map
  exact BinaryReader.fromBinary_eq_some.mpr
    (((hrequestId.append hbytes).append htimestamp).append hsignature)

/-- Without its signature, the message has the bytes that were signed. -/
theorem toBinary_unsigned (ack : ActivityAcknowledgment) :
    { ack.toMessage with signature := none }.toBinary = { ack with signature := none }.toBinary :=
  toBinary_toMessage { ack with signature := none }

end ActivityAcknowledgment

end CereDdc
