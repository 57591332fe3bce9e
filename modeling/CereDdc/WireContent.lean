import CereDdc.BinaryReader

/-!
# WireContent — what the binary form of a message says

A message as a map from field numbers to values. The writer of the generated
classes goes through the numbers in their order, and the bytes it writes
determine the map.
-/

namespace CereDdc

/-- A value of a field: a varint, or bytes behind their length. -/
inductive WireValue
  | varint (n : Nat)
  | bytes (value : Bytes)
  deriving DecidableEq, Repr

namespace WireValue

def toBinary (field : Nat) : WireValue → Bytes
  | varint n => varintField field n
  | bytes value => bytesField field value

variable {field field' : Nat} {value value' : WireValue} {rest rest' : Bytes}

/-- A field shows its number, its value and where it ends. -/
theorem toBinary_append_inj
    (h : value.toBinary field ++ rest = value'.toBinary field' ++ rest') :
    field = field' ∧ value = value' ∧ rest = rest' := by
  cases value with
  | varint n =>
    simp only [toBinary, varintField, List.append_assoc] at h
    cases value' with
    | varint n' =>
      simp only [List.append_assoc] at h
      obtain ⟨hfield, h⟩ := varint_append_inj h
      obtain ⟨rfl, hrest⟩ := varint_append_inj h
      exact ⟨by omega, rfl, hrest⟩
    | bytes value' =>
      simp only [bytesField, List.append_assoc] at h
      obtain ⟨hfield, -⟩ := varint_append_inj h
      omega
  | bytes value =>
    simp only [toBinary, bytesField, List.append_assoc] at h
    cases value' with
    | varint n' =>
      simp only [varintField, List.append_assoc] at h
      obtain ⟨hfield, -⟩ := varint_append_inj h
      omega
    | bytes value' =>
      simp only [List.append_assoc] at h
      obtain ⟨hfield, h⟩ := varint_append_inj h
      obtain ⟨hlength, h⟩ := varint_append_inj h
      obtain ⟨rfl, hrest⟩ := List.append_inj h hlength
      exact ⟨by omega, rfl, hrest⟩

theorem toBinary_ne_nil : value.toBinary field ≠ [] := by
  have hpos := length_varint_pos (field * 8)
  have hpos' := length_varint_pos (field * 8 + 2)
  intro h
  have hlength := congrArg List.length h
  cases value with
  | varint n =>
    simp only [toBinary, varintField, List.length_append, List.length_nil] at hlength
    omega
  | bytes value =>
    simp only [toBinary, bytesField, List.length_append, List.length_nil] at hlength
    omega

end WireValue

/-- The bytes of a message of which the fields have these numbers. -/
def contentBinary (numbers : List Nat) (content : Nat → List WireValue) : Bytes :=
  numbers.flatMap fun field => (content field).flatMap (WireValue.toBinary field)

section

variable {numbers : List Nat} {content content' : Nat → List WireValue} {field : Nat}
  {values values' : List WireValue} {rest rest' : Bytes}

/-- The bytes do not begin with a field of this number. -/
def NotBegins (field : Nat) (data : Bytes) : Prop :=
  ∀ (value : WireValue) rest, data ≠ value.toBinary field ++ rest

theorem notBegins_nil : NotBegins field [] := by
  intro value rest h
  have hnil := (List.nil_eq_append_iff.mp h).1
  exact WireValue.toBinary_ne_nil hnil

theorem notBegins_contentBinary (h : field ∉ numbers) :
    NotBegins field (contentBinary numbers content) := by
  induction numbers with
  | nil => exact notBegins_nil
  | cons number numbers ih =>
    have hne : number ≠ field := by
      rintro rfl
      exact h (by simp)
    show NotBegins field ((content number).flatMap (WireValue.toBinary number) ++
      contentBinary numbers content)
    cases content number with
    | nil => exact ih fun hmem => h (by simp [hmem])
    | cons value values =>
      intro other rest heq
      rw [List.flatMap_cons, List.append_assoc] at heq
      exact hne (WireValue.toBinary_append_inj heq).1

/-- The values of one number are told from what comes behind them. -/
theorem values_append_inj (hrest : NotBegins field rest) (hrest' : NotBegins field rest')
    (h : values.flatMap (WireValue.toBinary field) ++ rest
      = values'.flatMap (WireValue.toBinary field) ++ rest') :
    values = values' ∧ rest = rest' := by
  induction values generalizing values' with
  | nil =>
    cases values' with
    | nil => exact ⟨rfl, h⟩
    | cons value' values' =>
      rw [List.flatMap_cons, List.append_assoc] at h
      exact absurd h (hrest value' _)
  | cons value values ih =>
    rw [List.flatMap_cons, List.append_assoc] at h
    cases values' with
    | nil => exact absurd h.symm (hrest' value _)
    | cons value' values' =>
      rw [List.flatMap_cons, List.append_assoc] at h
      obtain ⟨-, rfl, hothers⟩ := WireValue.toBinary_append_inj h
      obtain ⟨rfl, heq⟩ := ih hothers
      exact ⟨rfl, heq⟩

/-- Two messages have the same bytes only if they say the same. -/
theorem content_eq (hnodup : numbers.Nodup)
    (h : contentBinary numbers content = contentBinary numbers content') :
    ∀ field ∈ numbers, content field = content' field := by
  induction numbers with
  | nil => simp
  | cons number numbers ih =>
    obtain ⟨hnot, hnodup⟩ := List.nodup_cons.mp hnodup
    obtain ⟨hvalues, hothers⟩ := values_append_inj (notBegins_contentBinary hnot)
      (notBegins_contentBinary hnot) h
    intro field hfield
    rcases List.mem_cons.mp hfield with rfl | hfield
    · exact hvalues
    · exact ih hnodup hothers field hfield

end

/-! ## Values -/

/-- A number, left out when it is 0. -/
def varintContent (n : Nat) : List WireValue := if n = 0 then [] else [.varint n]

/-- A byte string, left out when it is empty. -/
def bytesContent (value : Bytes) : List WireValue := if value = [] then [] else [.bytes value]

def optionalContent {α : Type} (toValue : α → WireValue) (value : Option α) : List WireValue :=
  (value.map toValue).toList

theorem flatMap_varintContent (field n : Nat) :
    (varintContent n).flatMap (WireValue.toBinary field) = varintValue field n := by
  unfold varintContent varintValue
  split
  · rfl
  · exact List.append_nil _

theorem flatMap_bytesContent (field : Nat) (value : Bytes) :
    (bytesContent value).flatMap (WireValue.toBinary field) = bytesValue field value := by
  unfold bytesContent bytesValue
  split
  · rfl
  · exact List.append_nil _

theorem flatMap_optionalContent {α : Type} (field : Nat) (toValue : α → WireValue)
    (value : Option α) : (optionalContent toValue value).flatMap (WireValue.toBinary field)
      = optionalField (fun v => (toValue v).toBinary field) value := by
  cases value with
  | none => rfl
  | some v => exact List.append_nil _

theorem varintContent_inj {n m : Nat} (h : varintContent n = varintContent m) : n = m := by
  unfold varintContent at h
  grind

theorem bytesContent_inj {a b : Bytes} (h : bytesContent a = bytesContent b) : a = b := by
  unfold bytesContent at h
  grind

theorem optionalContent_inj {α : Type} {toValue : α → WireValue} {a b : Option α}
    (hinj : ∀ {x y}, a = some x → b = some y → toValue x = toValue y → x = y)
    (h : optionalContent toValue a = optionalContent toValue b) : a = b := by
  cases a with
  | none =>
    cases b with
    | none => rfl
    | some y => cases h
  | some x =>
    cases b with
    | none => cases h
    | some y => exact congrArg some (hinj rfl rfl (List.singleton_injective h))

theorem utf8_inj {a b : String} (h : utf8 a = utf8 b) : a = b := by
  have hdata := Array.toList_inj.mp h
  exact String.toByteArray_inj.mp (ByteArray.ext hdata)

end CereDdc
