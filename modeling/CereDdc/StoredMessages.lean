import CereDdc.TokenRoundTrip
import CereDdc.WireReader

/-!
# StoredMessages — `grpc/dag_api.ts`, `grpc/cns_api.ts`

DAG nodes and CNS records as the generated classes read and write them. What was
written is read back, with the fields that a class does not know, and written
again it gives the same bytes.
-/

namespace CereDdc

open Kit

/-! ## `Link`, `Tag` -/

/-- A message with the fields that its class does not know. -/
structure Kept (M : Type) where
  message : M
  unknown : List UnknownField := []
  deriving DecidableEq, Repr

namespace Kept

variable {M : Type}

def set (kept : Kept M) (message : M) : Kept M := { kept with message }

def push (kept : Kept M) (unknown : UnknownField) : Kept M :=
  { kept with unknown := kept.unknown ++ [unknown] }

/-- `internalBinaryWrite`, with the part for the fields that are known. -/
def toBinary (write : M → Bytes) (kept : Kept M) : Bytes :=
  write kept.message ++ kept.unknown.flatMap UnknownField.toBinary

end Kept

/-- The `switch` of `Link.internalBinaryRead`. -/
def LinkMessage.field (reader : BinaryReader) (kept : Kept LinkMessage) (fieldNo : Nat)
    (wireType : WireType) : Reader UInt8 (Kept LinkMessage) :=
  let link := kept.message
  match fieldNo with
  | 1 => (fun cid => kept.set { link with cid }) <$> reader.bytes
  | 2 => (fun name => kept.set { link with name }) <$> reader.string
  | 3 => (fun size => kept.set { link with size }) <$> reader.uint64Number
  | _ => kept.push <$> reader.unknownField fieldNo wireType

/-- `Link.create()` -/
def LinkMessage.create : LinkMessage := { cid := [], name := "", size := 0 }

/-- The `switch` of `Tag.internalBinaryRead`. -/
def Tag.field (reader : BinaryReader) (kept : Kept Tag) (fieldNo : Nat) (wireType : WireType) :
    Reader UInt8 (Kept Tag) :=
  let tag := kept.message
  match fieldNo with
  | 1 => (fun key => kept.set { tag with key }) <$> reader.string
  | 2 => (fun value => kept.set { tag with value }) <$> reader.string
  | _ => kept.push <$> reader.unknownField fieldNo wireType

/-- `Tag.create()` -/
def Tag.create : Tag := { key := "", value := "" }

/-! ## `Node` -/

/-- `Node`, as it is read. -/
structure KeptNode where
  data : Bytes := []
  links : List (Kept LinkMessage) := []
  tags : List (Kept Tag) := []
  unknown : List UnknownField := []
  deriving DecidableEq, Repr

namespace KeptNode

/-- The `switch` of `Node.internalBinaryRead`. -/
def field (reader : BinaryReader) (node : KeptNode) (fieldNo : Nat) (wireType : WireType) :
    Reader UInt8 KeptNode :=
  match fieldNo with
  | 1 => (fun data => { node with data }) <$> reader.bytes
  | 2 => (fun link => { node with links := node.links ++ [link] }) <$>
    reader.nested (LinkMessage.field reader) { message := .create }
  | 3 => (fun tag => { node with tags := node.tags ++ [tag] }) <$>
    reader.nested (Tag.field reader) { message := .create }
  | _ => (fun unknown => { node with unknown := node.unknown ++ [unknown] }) <$>
    reader.unknownField fieldNo wireType

/-- `Node.internalBinaryWrite` -/
def toBinary (node : KeptNode) : Bytes :=
  bytesValue 1 node.data ++
  node.links.flatMap (bytesField 2 ∘ Kept.toBinary LinkMessage.toBinary) ++
  node.tags.flatMap (bytesField 3 ∘ Kept.toBinary Tag.toBinary) ++
  node.unknown.flatMap UnknownField.toBinary

/-- `Node.fromBinary` -/
def fromBinary (reader : BinaryReader) (data : Bytes) : Option KeptNode :=
  reader.fromBinary (field reader) {} data

structure WellFormed (reader : BinaryReader) (node : KeptNode) : Prop where
  links : ∀ link ∈ node.links, isSafeInteger link.message.size ∧
    ∀ u ∈ link.unknown, reader.Skippable [1, 2, 3] u
  tags : ∀ tag ∈ node.tags, ∀ u ∈ tag.unknown, reader.Skippable [1, 2] u
  unknown : ∀ u ∈ node.unknown, reader.Skippable [1, 2, 3] u

end KeptNode

/-! ## Reading what was written -/

variable {reader : BinaryReader}

theorem length_flatMap_le {α : Type} {f : α → Bytes} {values : List α} {value : α}
    (h : value ∈ values) : (f value).length ≤ (values.flatMap f).length := by
  induction values with
  | nil => cases h
  | cons first others ih =>
    rw [List.flatMap_cons, List.length_append]
    rcases List.mem_cons.mp h with rfl | h
    · omega
    · have hothers := ih h
      omega

/-- A text without presence. -/
theorem BinaryReader.fields_stringValue {M : Type} {field : M → Nat → WireType → Reader UInt8 M}
    {m m' : M} {no : Nat} {value : String} (hpos : 0 < no) (hlt : no < 2 ^ 29)
    (hempty : value = "" → m' = m)
    (h : (field m no .lengthDelimited).Reads (lengthPrefixed (utf8 value)) m') :
    Fields (reader.step field) m (stringValue no value) m' := by
  refine fields_bytesValue hpos hlt ?_ h
  intro hnil
  apply hempty
  have hbytes : value.toByteArray.data.toList = [] := hnil
  exact String.toByteArray_inj.mp (ByteArray.ext (Array.toList_inj.mp hbytes))

theorem Kept.fields_unknown {M : Type} {field : Kept M → Nat → WireType → Reader UInt8 (Kept M)}
    {known : List Nat} {message : M} {unknown : List UnknownField}
    (h : ∀ u ∈ unknown, reader.Skippable known u)
    (hfield : ∀ {kept : Kept M} {no type}, no ∉ known →
      field kept no type = kept.push <$> reader.unknownField no type) :
    Fields (reader.step field) { message } (unknown.flatMap UnknownField.toBinary)
      { message, unknown } :=
  BinaryReader.fields_unknown (f := Kept.mk message) h fun _ _ => hfield

theorem LinkMessage.field_unknown {kept : Kept LinkMessage} {no : Nat} {type : WireType}
    (h : no ∉ [1, 2, 3]) : field reader kept no type
      = kept.push <$> reader.unknownField no type := by
  unfold field
  split <;> simp_all

theorem Tag.field_unknown {kept : Kept Tag} {no : Nat} {type : WireType} (h : no ∉ [1, 2]) :
    field reader kept no type = kept.push <$> reader.unknownField no type := by
  unfold field
  split <;> simp_all

theorem KeptNode.field_unknown {node : KeptNode} {no : Nat} {type : WireType}
    (h : no ∉ [1, 2, 3]) : node.field reader no type
      = (fun unknown => { node with unknown := node.unknown ++ [unknown] }) <$>
        reader.unknownField no type := by
  unfold field
  split <;> simp_all

theorem LinkMessage.fields_toBinary {kept : Kept LinkMessage}
    (hsize : isSafeInteger kept.message.size)
    (hunknown : ∀ u ∈ kept.unknown, reader.Skippable [1, 2, 3] u)
    (hlength : (kept.toBinary LinkMessage.toBinary).length < 2 ^ 31) :
    Fields (reader.step (LinkMessage.field reader)) { message := .create }
      (kept.toBinary LinkMessage.toBinary) kept := by
  obtain ⟨⟨cid, name, size⟩, unknown⟩ := kept
  simp only [Kept.toBinary, LinkMessage.toBinary, List.length_append] at hlength
  have hcid := length_le_bytesValue 1 cid
  have hname := length_le_bytesValue 2 (utf8 name)
  change (utf8 name).length ≤ (stringValue 2 name).length at hname
  have hcid : Fields (reader.step (LinkMessage.field reader)) { message := .create }
      (bytesValue 1 cid) { message := { LinkMessage.create with cid } } :=
    BinaryReader.fields_bytesValue (by decide) (by decide) (fun hempty => by rw [hempty]; rfl)
      (reader.bytes_reads (by omega)).map
  have hname : Fields (reader.step (LinkMessage.field reader))
      { message := { LinkMessage.create with cid } } (stringValue 2 name)
      { message := { LinkMessage.create with cid, name } } :=
    BinaryReader.fields_stringValue (by decide) (by decide) (fun hempty => by rw [hempty]; rfl)
      (reader.string_reads (by omega)).map
  have hsize : Fields (reader.step (LinkMessage.field reader))
      { message := { LinkMessage.create with cid, name } } (varintValue 3 size)
      { message := ⟨cid, name, size⟩ } :=
    BinaryReader.fields_varintValue (by decide) (by decide) (fun hzero => by rw [hzero]; rfl)
      (reader.uint64Number_reads hsize).map
  exact ((hcid.append hname).append hsize).append (Kept.fields_unknown hunknown field_unknown)

theorem Tag.fields_toBinary {kept : Kept Tag}
    (hunknown : ∀ u ∈ kept.unknown, reader.Skippable [1, 2] u)
    (hlength : (kept.toBinary Tag.toBinary).length < 2 ^ 31) :
    Fields (reader.step (Tag.field reader)) { message := .create } (kept.toBinary Tag.toBinary)
      kept := by
  obtain ⟨⟨key, value⟩, unknown⟩ := kept
  simp only [Kept.toBinary, Tag.toBinary, List.length_append] at hlength
  have hkey := length_le_bytesValue 1 (utf8 key)
  have hvalue := length_le_bytesValue 2 (utf8 value)
  change (utf8 key).length ≤ (stringValue 1 key).length at hkey
  change (utf8 value).length ≤ (stringValue 2 value).length at hvalue
  have hkey : Fields (reader.step (Tag.field reader)) { message := .create }
      (stringValue 1 key) { message := { Tag.create with key } } :=
    BinaryReader.fields_stringValue (by decide) (by decide) (fun hempty => by rw [hempty]; rfl)
      (reader.string_reads (by omega)).map
  have hvalue : Fields (reader.step (Tag.field reader)) { message := { Tag.create with key } }
      (stringValue 2 value) { message := ⟨key, value⟩ } :=
    BinaryReader.fields_stringValue (by decide) (by decide) (fun hempty => by rw [hempty]; rfl)
      (reader.string_reads (by omega)).map
  exact (hkey.append hvalue).append (Kept.fields_unknown hunknown field_unknown)

namespace KeptNode

theorem fields_toBinary {node : KeptNode} (h : node.WellFormed reader)
    (hlength : node.toBinary.length < 2 ^ 31) :
    Fields (reader.step (field reader)) {} node.toBinary node := by
  obtain ⟨data, links, tags, unknown⟩ := node
  simp only [toBinary, List.length_append] at hlength
  have hbytes := length_le_bytesValue 1 data
  have hdata : Fields (reader.step (field reader)) {} (bytesValue 1 data) { data } :=
    BinaryReader.fields_bytesValue (by decide) (by decide) (fun hempty => by rw [hempty])
      (reader.bytes_reads (by omega)).map
  have hlinks : Fields (reader.step (field reader)) { data }
      (links.flatMap (bytesField 2 ∘ Kept.toBinary LinkMessage.toBinary)) { data, links } := by
    apply BinaryReader.fields_flatMap (f := fun links => ({ data, links } : KeptNode))
    intro before link hlink
    obtain ⟨hsize, hkept⟩ := h.links link hlink
    have hfield := length_flatMap_le (f := bytesField 2 ∘ Kept.toBinary LinkMessage.toBinary) hlink
    have hbody := length_lt_bytesField 2 (link.toBinary LinkMessage.toBinary)
    simp only [Function.comp_apply] at hfield
    exact BinaryReader.fields_bytesField (by decide) (by decide) (BinaryReader.nested_reads
      (by omega) (LinkMessage.fields_toBinary hsize hkept (by omega))).map
  have htags : Fields (reader.step (field reader)) { data, links }
      (tags.flatMap (bytesField 3 ∘ Kept.toBinary Tag.toBinary)) { data, links, tags } := by
    apply BinaryReader.fields_flatMap (f := fun tags => ({ data, links, tags } : KeptNode))
    intro before tag htag
    have hfield := length_flatMap_le (f := bytesField 3 ∘ Kept.toBinary Tag.toBinary) htag
    have hbody := length_lt_bytesField 3 (tag.toBinary Tag.toBinary)
    simp only [Function.comp_apply] at hfield
    exact BinaryReader.fields_bytesField (by decide) (by decide) (BinaryReader.nested_reads
      (by omega) (Tag.fields_toBinary (h.tags tag htag) (by omega))).map
  have hunknown : Fields (reader.step (field reader)) { data, links, tags }
      (unknown.flatMap UnknownField.toBinary) { data, links, tags, unknown } :=
    BinaryReader.fields_unknown (f := KeptNode.mk data links tags) h.unknown
      fun _ _ => field_unknown
  exact ((hdata.append hlinks).append htags).append hunknown

/-- A node is read back from its binary form. -/
theorem fromBinary_toBinary {node : KeptNode} (h : node.WellFormed reader)
    (hlength : node.toBinary.length < 2 ^ 31) : fromBinary reader node.toBinary = some node :=
  BinaryReader.fromBinary_eq_some.mpr (fields_toBinary h hlength)

variable {taken data : Bytes} {no : Nat} {type : WireType}

/-- A field of a link keeps its numbers safe and what it skips whole. -/
theorem link_of_fields {kept kept' : Kept LinkMessage}
    (h : isSafeInteger kept.message.size ∧ ∀ u ∈ kept.unknown, reader.Skippable [1, 2, 3] u)
    (hfields : Fields (reader.step (LinkMessage.field reader)) kept taken kept') :
    isSafeInteger kept'.message.size ∧ ∀ u ∈ kept'.unknown, reader.Skippable [1, 2, 3] u := by
  refine hfields.invariant (P := fun kept : Kept LinkMessage =>
    isSafeInteger kept.message.size ∧ ∀ u ∈ kept.unknown, reader.Skippable [1, 2, 3] u) ?_ h
  rintro kept taken kept' ⟨hsize, hunknown⟩ hstep
  obtain ⟨no, type, body, hpos, hlt, hread⟩ := BinaryReader.of_step hstep
  by_cases hknown : no ∈ [1, 2, 3]
  · simp only [List.mem_cons, List.not_mem_nil, or_false] at hknown
    rcases hknown with rfl | rfl | rfl
    · obtain ⟨cid, -, rfl⟩ := Reader.reads_map.mp hread
      exact ⟨hsize, hunknown⟩
    · obtain ⟨name, -, rfl⟩ := Reader.reads_map.mp hread
      exact ⟨hsize, hunknown⟩
    · obtain ⟨size, hvalue, rfl⟩ := Reader.reads_map.mp hread
      exact ⟨reader.uint64Number_range hvalue, hunknown⟩
  · rw [LinkMessage.field_unknown hknown] at hread
    obtain ⟨u, hu, rfl⟩ := Reader.reads_map.mp hread
    exact ⟨hsize, BinaryReader.skippable_append hpos hlt hknown hunknown hu⟩

theorem tag_of_fields {kept kept' : Kept Tag}
    (h : ∀ u ∈ kept.unknown, reader.Skippable [1, 2] u)
    (hfields : Fields (reader.step (Tag.field reader)) kept taken kept') :
    ∀ u ∈ kept'.unknown, reader.Skippable [1, 2] u := by
  refine hfields.invariant
    (P := fun kept : Kept Tag => ∀ u ∈ kept.unknown, reader.Skippable [1, 2] u) ?_ h
  intro kept taken kept' hunknown hstep
  obtain ⟨no, type, body, hpos, hlt, hread⟩ := BinaryReader.of_step hstep
  by_cases hknown : no ∈ [1, 2]
  · simp only [List.mem_cons, List.not_mem_nil, or_false] at hknown
    rcases hknown with rfl | rfl
    · obtain ⟨key, -, rfl⟩ := Reader.reads_map.mp hread
      exact hunknown
    · obtain ⟨value, -, rfl⟩ := Reader.reads_map.mp hread
      exact hunknown
  · rw [Tag.field_unknown hknown] at hread
    obtain ⟨u, hu, rfl⟩ := Reader.reads_map.mp hread
    exact BinaryReader.skippable_append hpos hlt hknown hunknown hu

/-- What is read as a node has values of the right kinds only. -/
theorem wellFormed_of_fromBinary {node : KeptNode} (h : fromBinary reader data = some node) :
    node.WellFormed reader := by
  have hcreate : ({} : KeptNode).WellFormed reader := ⟨by simp, by simp, by simp⟩
  refine (BinaryReader.fromBinary_eq_some.mp h).invariant ?_ hcreate
  rintro node taken node' ⟨hlinks, htags, hunknown⟩ hstep
  obtain ⟨no, type, body, hpos, hlt, hread⟩ := BinaryReader.of_step hstep
  by_cases hknown : no ∈ [1, 2, 3]
  · simp only [List.mem_cons, List.not_mem_nil, or_false] at hknown
    rcases hknown with rfl | rfl | rfl
    · obtain ⟨data, -, rfl⟩ := Reader.reads_map.mp hread
      exact ⟨hlinks, htags, hunknown⟩
    · obtain ⟨link, hlink, rfl⟩ := Reader.reads_map.mp hread
      obtain ⟨body, hbody⟩ := BinaryReader.of_nested hlink
      have hvalid := link_of_fields ⟨by decide, by simp⟩ hbody
      exact ⟨List.forall_mem_append.mpr ⟨hlinks, List.forall_mem_singleton.mpr hvalid⟩,
        htags, hunknown⟩
    · obtain ⟨tag, htag, rfl⟩ := Reader.reads_map.mp hread
      obtain ⟨body, hbody⟩ := BinaryReader.of_nested htag
      have hvalid := tag_of_fields (by simp) hbody
      exact ⟨hlinks, List.forall_mem_append.mpr ⟨htags, List.forall_mem_singleton.mpr hvalid⟩,
        hunknown⟩
  · rw [field_unknown hknown] at hread
    obtain ⟨u, hu, rfl⟩ := Reader.reads_map.mp hread
    exact ⟨hlinks, htags, BinaryReader.skippable_append hpos hlt hknown hunknown hu⟩

/-- Whatever has been read as a node is read again from what is written for it. -/
theorem fromBinary_rewritten {node : KeptNode} (h : fromBinary reader data = some node)
    (hlength : node.toBinary.length < 2 ^ 31) : fromBinary reader node.toBinary = some node :=
  fromBinary_toBinary (wellFormed_of_fromBinary h) hlength

/-- A node with its data between two links, and an unknown field. -/
theorem fromBinary_rewritten_mixed :
    let node : KeptNode :=
      { data := [1]
        links := [{ message := ⟨[7], "", 0⟩ }, { message := ⟨[], "", 6⟩ }]
        unknown := [⟨15, .varint, [5]⟩] }
    fromBinary wireReader node.toBinary = some node := by
  intro node
  have h : fromBinary wireReader
      [0x12, 0x03, 0x0a, 0x01, 0x07, 0x0a, 0x01, 0x01, 0x78, 0x05, 0x12, 0x02, 0x18, 0x06]
        = some node := by
    decide +kernel
  exact fromBinary_rewritten h (by decide +kernel)

end KeptNode

/-! ## Nodes of the client -/

/-- A message without fields that its class does not know. -/
def NodeMessage.kept (node : NodeMessage) : KeptNode where
  data := node.data
  links := node.links.map fun message => { message }
  tags := node.tags.map fun message => { message }

namespace NodeMessage

variable {node : NodeMessage}

theorem toBinary_kept (node : NodeMessage) : node.kept.toBinary = node.toBinary := by
  have hlinks : node.kept.links.flatMap (bytesField 2 ∘ Kept.toBinary LinkMessage.toBinary)
      = node.links.flatMap (bytesField 2 ∘ LinkMessage.toBinary) := by
    show List.flatMap _ (List.map _ _) = _
    rw [List.flatMap_map]
    congr 1
    funext link
    exact congrArg (bytesField 2) (List.append_nil _)
  have htags : node.kept.tags.flatMap (bytesField 3 ∘ Kept.toBinary Tag.toBinary)
      = node.tags.flatMap (bytesField 3 ∘ Tag.toBinary) := by
    show List.flatMap _ (List.map _ _) = _
    rw [List.flatMap_map]
    congr 1
    funext tag
    exact congrArg (bytesField 3) (List.append_nil _)
  show _ ++ List.flatMap _ _ ++ List.flatMap _ _ ++ [] = _
  rw [List.append_nil, hlinks, htags]
  rfl

theorem wellFormed_kept (h : ∀ link ∈ node.links, isSafeInteger link.size) :
    node.kept.WellFormed reader where
  links := by
    intro kept hkept
    obtain ⟨link, hlink, rfl⟩ := List.mem_map.mp hkept
    exact ⟨h link hlink, List.forall_mem_nil _⟩
  tags := by
    intro kept hkept
    obtain ⟨tag, -, rfl⟩ := List.mem_map.mp hkept
    exact List.forall_mem_nil _
  unknown := List.forall_mem_nil _

/-- A node of the client is read back from its binary form. -/
theorem fromBinary_toBinary (h : ∀ link ∈ node.links, isSafeInteger link.size)
    (hlength : node.toBinary.length < 2 ^ 31) :
    KeptNode.fromBinary reader node.toBinary = some node.kept := by
  rw [← toBinary_kept] at hlength ⊢
  exact KeptNode.fromBinary_toBinary (wellFormed_kept h) hlength

end NodeMessage

/-! ## `Record` -/

/-- `Record`, as it is read. -/
structure KeptRecord where
  signature : Option SignatureMessage := none
  cid : Bytes := []
  name : String := ""
  ttl : Option Nat := none
  unknown : List UnknownField := []
  deriving DecidableEq, Repr

namespace KeptRecord

/-- The `switch` of `Record.internalBinaryRead`. -/
def field (reader : BinaryReader) (record : KeptRecord) (fieldNo : Nat) (wireType : WireType) :
    Reader UInt8 KeptRecord :=
  match fieldNo with
  | 1 => (fun signature => { record with signature := some signature }) <$>
    reader.nested (SignatureMessage.field reader) (record.signature.getD {})
  | 2 => (fun cid => { record with cid }) <$> reader.bytes
  | 3 => (fun name => { record with name }) <$> reader.string
  | 4 => (fun ttl => { record with ttl := some ttl }) <$> reader.uint32
  | _ => (fun unknown => { record with unknown := record.unknown ++ [unknown] }) <$>
    reader.unknownField fieldNo wireType

/-- `Record.internalBinaryWrite` -/
def toBinary (record : KeptRecord) : Bytes :=
  optionalField (bytesField 1 ∘ SignatureMessage.toBinary) record.signature ++
  bytesValue 2 record.cid ++
  stringValue 3 record.name ++
  optionalField (varintField 4) record.ttl ++
  record.unknown.flatMap UnknownField.toBinary

/-- `Record.fromBinary` -/
def fromBinary (reader : BinaryReader) (data : Bytes) : Option KeptRecord :=
  reader.fromBinary (field reader) {} data

structure WellFormed (reader : BinaryReader) (record : KeptRecord) : Prop where
  signature : ∀ signature, record.signature = some signature → signature.WellFormed reader
  ttl : ∀ ttl, record.ttl = some ttl → ttl < 2 ^ 32
  unknown : ∀ u ∈ record.unknown, reader.Skippable [1, 2, 3, 4] u

theorem field_unknown {record : KeptRecord} {no : Nat} {type : WireType}
    (h : no ∉ [1, 2, 3, 4]) : record.field reader no type
      = (fun unknown => { record with unknown := record.unknown ++ [unknown] }) <$>
        reader.unknownField no type := by
  unfold field
  split <;> simp_all

theorem fields_toBinary {record : KeptRecord} (h : record.WellFormed reader)
    (hlength : record.toBinary.length < 2 ^ 31) :
    Fields (reader.step (field reader)) {} record.toBinary record := by
  obtain ⟨signature, cid, name, ttl, unknown⟩ := record
  simp only [toBinary, List.length_append] at hlength
  have hcid := length_le_bytesValue 2 cid
  have hname := length_le_bytesValue 3 (utf8 name)
  change (utf8 name).length ≤ (stringValue 3 name).length at hname
  have hsignature : Fields (reader.step (field reader)) {}
      (optionalField (bytesField 1 ∘ SignatureMessage.toBinary) signature) { signature } := by
    apply BinaryReader.fields_optionalField
    · intro hnone
      rw [hnone]
    · intro s hsome
      have hfield := length_le_optionalField (bytesField 1 ∘ SignatureMessage.toBinary) hsome
      have hbody := length_lt_bytesField 1 s.toBinary
      simp only [Function.comp_apply] at hfield
      have hfields := SignatureMessage.fields_toBinary (h.signature s hsome) (by omega)
      rw [hsome]
      exact BinaryReader.fields_bytesField (by decide) (by decide)
        (BinaryReader.nested_reads (by omega) hfields).map
  have hcid : Fields (reader.step (field reader)) { signature } (bytesValue 2 cid)
      { signature, cid } :=
    BinaryReader.fields_bytesValue (by decide) (by decide) (fun hempty => by rw [hempty])
      (reader.bytes_reads (by omega)).map
  have hname : Fields (reader.step (field reader)) { signature, cid } (stringValue 3 name)
      { signature, cid, name } :=
    BinaryReader.fields_stringValue (by decide) (by decide) (fun hempty => by rw [hempty])
      (reader.string_reads (by omega)).map
  have httl : Fields (reader.step (field reader)) { signature, cid, name }
      (optionalField (varintField 4) ttl) { signature, cid, name, ttl } := by
    apply BinaryReader.fields_optionalField
    · intro hnone
      rw [hnone]
    · rintro n rfl
      exact BinaryReader.fields_varintField (by decide) (by decide)
        (reader.uint32_reads (h.ttl n rfl)).map
  have hunknown : Fields (reader.step (field reader)) { signature, cid, name, ttl }
      (unknown.flatMap UnknownField.toBinary) { signature, cid, name, ttl, unknown } :=
    BinaryReader.fields_unknown (f := KeptRecord.mk signature cid name ttl) h.unknown
      fun _ _ => field_unknown
  exact (((hsignature.append hcid).append hname).append httl).append hunknown

/-- A record is read back from its binary form. -/
theorem fromBinary_toBinary {record : KeptRecord} (h : record.WellFormed reader)
    (hlength : record.toBinary.length < 2 ^ 31) : fromBinary reader record.toBinary = some record :=
  BinaryReader.fromBinary_eq_some.mpr (fields_toBinary h hlength)

end KeptRecord

end CereDdc
