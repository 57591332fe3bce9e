import Mathlib.Tactic.Common

/-!
# Kit — Reader

Readers of a sequence from its front, and messages that are read field by field.
A message is told how long it is, and takes fields until it has got that far; a
field may be a message itself.
-/

namespace Kit

/-- A reader: a value and what is left of the input, if it can be read at all. -/
structure Reader (β α : Type) where
  run : List β → Option (α × List β)
  /-- It takes elements from the front, and does not look at those behind them. -/
  front : ∀ {input : List β} {value : α} {rest : List β}, run input = some (value, rest) →
    ∃ taken, input = taken ++ rest ∧ ∀ other, run (taken ++ other) = some (value, other)

namespace Reader

variable {β α γ : Type} {r r' : Reader β α} {f f' : α → Reader β γ}
  {taken taken' input rest rest' : List β} {value value' : α} {result : γ} {n : Nat}

/-- `taken` is what the reader takes for `value`. -/
def Reads (r : Reader β α) (taken : List β) (value : α) : Prop :=
  ∀ rest, r.run (taken ++ rest) = some (value, rest)

theorem run_eq_some :
    r.run input = some (value, rest) ↔ ∃ taken, input = taken ++ rest ∧ r.Reads taken value := by
  constructor
  · intro h
    obtain ⟨taken, hinput, hreads⟩ := r.front h
    exact ⟨taken, hinput, hreads⟩
  · rintro ⟨taken, rfl, hreads⟩
    exact hreads rest

/-- The front of an input can be read in one way only. -/
theorem Reads.unique (h : r.Reads taken value) (h' : r.Reads taken' value')
    (heq : taken ++ rest = taken' ++ rest') : taken = taken' ∧ value = value' := by
  have hrun := h rest
  rw [heq, h' rest'] at hrun
  have hpair := Option.some.inj hrun
  have hrest : rest' = rest := congrArg Prod.snd hpair
  subst hrest
  exact ⟨List.append_cancel_right heq, (congrArg Prod.fst hpair).symm⟩

/-- A reader that takes at least one element. -/
def Positive (r : Reader β α) : Prop := r.run [] = none

theorem Positive.ne_nil (hr : r.Positive) (h : r.Reads taken value) : taken ≠ [] := by
  rintro rfl
  have hrun : r.run [] = some (value, []) := h []
  rw [hr] at hrun
  cases hrun

theorem Positive.length_pos (hr : r.Positive) (h : r.Reads taken value) : 0 < taken.length :=
  List.length_pos_iff.mpr (hr.ne_nil h)

/-! ## One reader after another -/

protected def pure (value : α) : Reader β α where
  run input := some (value, input)
  front h := by
    cases h
    exact ⟨[], rfl, fun _ => rfl⟩

protected def bind (r : Reader β α) (f : α → Reader β γ) : Reader β γ where
  run input := (r.run input).bind fun out => (f out.1).run out.2
  front {input result rest} h := by
    obtain ⟨⟨value, middle⟩, hfirst, hsecond⟩ := Option.bind_eq_some_iff.mp h
    obtain ⟨taken, rfl, htaken⟩ := r.front hfirst
    obtain ⟨taken', rfl, htaken'⟩ := (f value).front hsecond
    refine ⟨taken ++ taken', by rw [List.append_assoc], ?_⟩
    intro other
    rw [List.append_assoc, htaken, Option.bind_some]
    exact htaken' other

instance : Monad (Reader β) where
  pure := Reader.pure
  bind := Reader.bind

/-- The reader that reads nothing. -/
def fail : Reader β α where
  run _ := none
  front h := by cases h

theorem run_bind : (r >>= f).run input = (r.run input).bind fun out => (f out.1).run out.2 := rfl

@[simp] theorem reads_pure : (pure value : Reader β α).Reads taken value' ↔
    taken = [] ∧ value' = value := by
  constructor
  · intro h
    have hrun : some (value, taken ++ []) = some (value', []) := h []
    rw [List.append_nil] at hrun
    have hpair := Option.some.inj hrun
    exact ⟨congrArg Prod.snd hpair, (congrArg Prod.fst hpair).symm⟩
  · rintro ⟨rfl, rfl⟩ rest
    rfl

@[simp] theorem not_reads_fail : ¬ (fail : Reader β α).Reads taken value := by
  intro h
  cases h []

theorem reads_bind : (r >>= f).Reads taken result ↔ ∃ first second value,
    taken = first ++ second ∧ r.Reads first value ∧ (f value).Reads second result := by
  constructor
  · intro h
    have hrun := h []
    rw [List.append_nil, run_bind] at hrun
    obtain ⟨⟨value, middle⟩, hfirst, hsecond⟩ := Option.bind_eq_some_iff.mp hrun
    obtain ⟨first, rfl, hreads⟩ := run_eq_some.mp hfirst
    obtain ⟨second, rfl, hreads'⟩ := run_eq_some.mp hsecond
    exact ⟨first, second, value, by rw [List.append_nil], hreads, hreads'⟩
  · rintro ⟨first, second, value, rfl, hfirst, hsecond⟩ rest
    rw [run_bind, List.append_assoc, hfirst]
    exact hsecond rest

theorem Reads.bind (h : r.Reads taken value) (h' : (f value).Reads taken' result) :
    (r >>= f).Reads (taken ++ taken') result :=
  reads_bind.mpr ⟨taken, taken', value, rfl, h, h'⟩

theorem reads_map {g : α → γ} : (g <$> r).Reads taken result ↔
    ∃ value, r.Reads taken value ∧ result = g value := by
  show (r >>= fun value => pure (g value)).Reads taken result ↔ _
  rw [reads_bind]
  constructor
  · rintro ⟨first, second, value, rfl, hfirst, hsecond⟩
    obtain ⟨rfl, rfl⟩ := reads_pure.mp hsecond
    exact ⟨value, by rwa [List.append_nil], rfl⟩
  · rintro ⟨value, h, rfl⟩
    exact ⟨taken, [], value, by rw [List.append_nil], h, reads_pure.mpr ⟨rfl, rfl⟩⟩

theorem Reads.map {g : α → γ} (h : r.Reads taken value) : (g <$> r).Reads taken (g value) :=
  reads_map.mpr ⟨value, h, rfl⟩

theorem Positive.bind (h : r.Positive) : (r >>= f).Positive := by
  show (r.run []).bind _ = none
  rw [h]
  rfl

/-! ## Some readers -/

/-- One element. -/
def next : Reader β β where
  run
    | [] => none
    | element :: rest => some (element, rest)
  front {input value rest} h := by
    cases input with
    | nil => cases h
    | cons element elements =>
      cases h
      exact ⟨[value], rfl, fun _ => rfl⟩

/-- `n` elements. -/
def take (n : Nat) : Reader β (List β) where
  run input := if n ≤ input.length then some (input.take n, input.drop n) else none
  front {input value rest} h := by
    split at h
    · rename_i hlength
      cases h
      have hn : n = (input.take n).length := by rw [List.length_take, Nat.min_eq_left hlength]
      refine ⟨input.take n, (List.take_append_drop n input).symm, fun other => ?_⟩
      rw [if_pos (by rw [List.length_append]; omega),
        List.take_append_of_le_length (Nat.le_of_eq hn),
        List.take_of_length_le (Nat.le_of_eq hn.symm),
        List.drop_append_of_le_length (Nat.le_of_eq hn),
        List.drop_of_length_le (Nat.le_of_eq hn.symm), List.nil_append]
    · cases h

/-- What the reader takes. -/
def taking (r : Reader β α) : Reader β (List β) where
  run input := (r.run input).map fun out => (input.take (input.length - out.2.length), out.2)
  front {input value rest} h := by
    obtain ⟨⟨v, rest'⟩, hrun, heq⟩ := Option.map_eq_some_iff.mp h
    cases heq
    obtain ⟨taken, rfl, hreads⟩ := run_eq_some.mp hrun
    refine ⟨taken, rfl, fun other => ?_⟩
    rw [hreads other]
    simp

theorem reads_next (element : β) : next.Reads [element] element := fun _ => rfl

theorem reads_take (taken : List β) : (take taken.length).Reads taken taken := by
  intro rest
  show (if _ then _ else _) = _
  rw [if_pos (by simp), List.take_left, List.drop_left]

theorem reads_taking {taken' : List β} :
    r.taking.Reads taken taken' ↔ taken' = taken ∧ ∃ value, r.Reads taken value := by
  constructor
  · intro h
    obtain ⟨⟨v, rest⟩, hrun, heq⟩ := Option.map_eq_some_iff.mp (h [])
    cases heq
    rw [List.append_nil] at hrun
    obtain ⟨first, hfirst, hreads⟩ := run_eq_some.mp hrun
    rw [List.append_nil] at hfirst
    subst hfirst
    exact ⟨by simp, v, hreads⟩
  · rintro ⟨rfl, value, h⟩ rest
    show (r.run (taken' ++ rest)).map _ = _
    rw [h rest]
    simp

/-! ## Readers that agree on short inputs -/

/-- The two readers do the same on every input of at most `n` elements. -/
def Agree (n : Nat) (r r' : Reader β α) : Prop :=
  ∀ input : List β, input.length ≤ n → r.run input = r'.run input

@[refl] theorem Agree.refl (n : Nat) (r : Reader β α) : Agree n r r := fun _ _ => rfl

theorem length_rest_le (h : r.run input = some (value, rest)) : rest.length ≤ input.length := by
  obtain ⟨taken, rfl, -⟩ := run_eq_some.mp h
  simp

theorem Positive.length_rest_lt (hr : r.Positive) (h : r.run input = some (value, rest)) :
    rest.length < input.length := by
  obtain ⟨taken, rfl, hreads⟩ := run_eq_some.mp h
  have hpos := hr.length_pos hreads
  rw [List.length_append]
  omega

/-- What comes first takes an element, and leaves a shorter input to what comes next. -/
theorem Agree.bind_positive (hr : r.Positive) (h : ∀ value, Agree n (f value) (f' value)) :
    Agree (n + 1) (r >>= f) (r >>= f') := by
  intro input hlength
  rw [run_bind, run_bind]
  cases hrun : r.run input with
  | none => rfl
  | some out =>
    have hrest := hr.length_rest_lt hrun
    exact h out.1 out.2 (by omega)

theorem Agree.bind (h : ∀ value, Agree n (f value) (f' value)) :
    Agree n (r >>= f) (r >>= f') := by
  intro input hlength
  rw [run_bind, run_bind]
  cases hrun : r.run input with
  | none => rfl
  | some out =>
    have hrest := length_rest_le hrun
    exact h out.1 out.2 (by omega)

theorem Agree.map {g : α → γ} (h : Agree n r r') : Agree n (g <$> r) (g <$> r') := by
  intro input hlength
  show (r.run input).bind _ = (r'.run input).bind _
  rw [h input hlength]

end Reader

/-! ## Messages -/

section

variable {β M : Type} {step step' : M → Reader β M} {m m₁ m₂ : M}
  {taken taken' input rest : List β} {length fuel n : Nat}

/-- The fields of a message of which `length` elements are left. The last field may end behind the
message. -/
def readFields (step : M → Reader β M) : (fuel length : Nat) → M → List β → Option (M × List β)
  | _, 0, m, input => some (m, input)
  | 0, _ + 1, _, _ => none
  | fuel + 1, length + 1, m, input =>
    ((step m).run input).bind fun out =>
      readFields step fuel (length + 1 - (input.length - out.2.length)) out.1 out.2

theorem readFields_front {m' : M} (h : readFields step fuel length m input = some (m', rest)) :
    ∃ taken, input = taken ++ rest ∧
      ∀ other, readFields step fuel length m (taken ++ other) = some (m', other) := by
  fun_induction readFields step fuel length m input with
  | case1 fuel m input =>
    cases h
    exact ⟨[], rfl, fun _ => by cases fuel <;> rfl⟩
  | case2 => cases h
  | case3 fuel length m input ih =>
    obtain ⟨⟨m₁, middle⟩, hstep, hrest⟩ := Option.bind_eq_some_iff.mp h
    obtain ⟨first, rfl, hfirst⟩ := (step m).front hstep
    obtain ⟨second, rfl, hsecond⟩ := ih _ hrest
    refine ⟨first ++ second, by rw [List.append_assoc], ?_⟩
    intro other
    -- the field is as long as before, whatever follows the message
    have hlength : (first ++ (second ++ rest)).length - (second ++ rest).length
        = (first ++ (second ++ other)).length - (second ++ other).length := by
      simp only [List.length_append]
      omega
    rw [List.append_assoc, readFields, hfirst, Option.bind_some, ← hlength]
    exact hsecond other

/-- A message of `length` elements, read into `m`. -/
def message (step : M → Reader β M) (length : Nat) (m : M) : Reader β M where
  run := readFields step length length m
  front := readFields_front

/-- `taken` is a sequence of whole fields, which turn `m` into `m₁`. -/
inductive Fields (step : M → Reader β M) : M → List β → M → Prop
  | nil (m : M) : Fields step m [] m
  | cons {m m₁ m₂ : M} {first others : List β} (first_reads : (step m).Reads first m₁)
      (others_read : Fields step m₁ others m₂) : Fields step m (first ++ others) m₂

namespace Fields

theorem single (h : (step m).Reads taken m₁) : Fields step m taken m₁ := by
  have hcons := cons h (nil m₁)
  rwa [List.append_nil] at hcons

theorem append (h : Fields step m taken m₁) (h' : Fields step m₁ taken' m₂) :
    Fields step m (taken ++ taken') m₂ := by
  induction h with
  | nil m => exact h'
  | cons hfirst _ ih =>
    rw [List.append_assoc]
    exact cons hfirst (ih h')

/-- What every field keeps, the message keeps. -/
theorem invariant {P : M → Prop}
    (hstep : ∀ {m taken m₁}, P m → (step m).Reads taken m₁ → P m₁)
    (h : Fields step m taken m₁) (hm : P m) : P m₁ := by
  induction h with
  | nil m => exact hm
  | cons hfirst _ ih => exact ih (hstep hm hfirst)

theorem mono (hstep : ∀ {m taken m₁}, (step m).Reads taken m₁ → (step' m).Reads taken m₁)
    (h : Fields step m taken m₁) : Fields step' m taken m₁ := by
  induction h with
  | nil m => exact nil m
  | cons hfirst _ ih => exact cons (hstep hfirst) ih

end Fields

/-- The fuel is enough when it is the length, since every field takes an element. -/
theorem readFields_fuel (hstep : ∀ m, (step m).Positive) (hfuel : length ≤ fuel) :
    readFields step fuel length m input = readFields step length length m input := by
  induction fuel using Nat.strongRecOn generalizing length m input with
  | _ fuel ih =>
    match fuel, length with
    | _, 0 => simp [readFields]
    | 0, length + 1 => omega
    | fuel + 1, length + 1 =>
      rw [readFields, readFields]
      cases hrun : (step m).run input with
      | none => rfl
      | some out =>
        have hlt := (hstep m).length_rest_lt hrun
        simp only [Option.bind_some]
        rw [ih fuel (by omega) (by omega)]
        by_cases hsame : fuel = length
        · subst hsame
          rw [ih fuel (by omega) (by omega)]
        · rw [ih length (by omega) (by omega)]

/-- What the first turn of the loop does. -/
theorem run_message_succ (hstep : ∀ m, (step m).Positive) :
    (message step (length + 1) m).run input = ((step m).run input).bind fun out =>
      (message step (length + 1 - (input.length - out.2.length)) out.1).run out.2 := by
  show readFields step (length + 1) (length + 1) m input = _
  rw [readFields]
  cases hrun : (step m).run input with
  | none => rfl
  | some out =>
    have hlt := (hstep m).length_rest_lt hrun
    exact readFields_fuel hstep (by omega)

theorem Fields.reads (hstep : ∀ m, (step m).Positive) (h : Fields step m taken m₁) :
    (message step taken.length m).Reads taken m₁ := by
  induction h with
  | nil m =>
    intro rest
    rfl
  | @cons m m₁ m₂ first others hfirst _ ih =>
    intro rest
    have hpos := (hstep m).length_pos hfirst
    obtain ⟨length, hlength⟩ : ∃ length, (first ++ others).length = length + 1 :=
      ⟨(first ++ others).length - 1, by rw [List.length_append]; omega⟩
    have hothers : length + 1 - ((first ++ others ++ rest).length - (others ++ rest).length)
        = others.length := by
      simp only [List.length_append] at hlength ⊢
      omega
    rw [hlength, run_message_succ hstep, List.append_assoc, hfirst, Option.bind_some,
      ← List.append_assoc, hothers]
    exact ih rest

/-- A message that can be read is a sequence of fields, which reaches to its end at least. -/
theorem fields_of_run (h : readFields step fuel length m input = some (m₁, rest)) :
    ∃ taken, input = taken ++ rest ∧ length ≤ taken.length ∧ Fields step m taken m₁ := by
  fun_induction readFields step fuel length m input with
  | case1 fuel m input =>
    cases h
    exact ⟨[], rfl, Nat.le_refl 0, .nil m₁⟩
  | case2 => cases h
  | case3 fuel length m input ih =>
    obtain ⟨⟨m', middle⟩, hrun, hrest⟩ := Option.bind_eq_some_iff.mp h
    obtain ⟨first, rfl, hfirst⟩ := Reader.run_eq_some.mp hrun
    obtain ⟨others, rfl, hlength, hothers⟩ := ih _ hrest
    refine ⟨first ++ others, by rw [List.append_assoc], ?_, .cons hfirst hothers⟩
    simp only [List.length_append] at hlength ⊢
    omega

theorem fields_of_reads (h : (message step length m).Reads taken m₁) :
    length ≤ taken.length ∧ Fields step m taken m₁ := by
  have hrun := h []
  rw [List.append_nil] at hrun
  obtain ⟨taken', htaken, hlength, hfields⟩ := fields_of_run hrun
  rw [List.append_nil] at htaken
  subst htaken
  exact ⟨hlength, hfields⟩

/-- An input that is read as one message, to its end. -/
theorem run_message_eq_some (hstep : ∀ m, (step m).Positive) :
    (message step input.length m).run input = some (m₁, rest) ↔
      rest = [] ∧ Fields step m input m₁ := by
  constructor
  · intro h
    obtain ⟨taken, hinput, hlength, hfields⟩ := fields_of_run h
    have hrest : rest = [] := by
      have hsum := congrArg List.length hinput
      rw [List.length_append] at hsum
      exact List.eq_nil_of_length_eq_zero (by omega)
    rw [hrest, List.append_nil] at hinput
    rw [hinput]
    exact ⟨hrest, hfields⟩
  · rintro ⟨rfl, hfields⟩
    have hreads := hfields.reads hstep []
    rwa [List.append_nil] at hreads

/-- Steps that agree on short inputs make messages that do. -/
theorem agree_message (hstep : ∀ m, (step m).Agree n (step' m)) :
    (message step length m).Agree n (message step' length m) := by
  intro input hinput
  show readFields step length length m input = readFields step' length length m input
  have hfuel : ∀ fuel length m (input : List β), input.length ≤ n →
      readFields step fuel length m input = readFields step' fuel length m input := by
    intro fuel length m input hinput
    fun_induction readFields step fuel length m input with
    | case1 fuel m input => cases fuel <;> rfl
    | case2 => rfl
    | case3 fuel length m input ih =>
      rw [readFields, ← hstep m input hinput]
      cases hrun : (step m).run input with
      | none => rfl
      | some out =>
        have hrest := Reader.length_rest_le hrun
        exact ih out (Nat.le_trans hrest hinput)
  exact hfuel length length m input hinput

end

end Kit
