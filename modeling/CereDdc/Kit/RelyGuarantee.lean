import CereDdc.Kit.Schedule

/-!
# Kit — RelyGuarantee

Triples for programs that take turns. An assertion is what no step of the others
spoils; the rules put programs together, run them as scripts whose failures are
outcomes, and carry what each script can rely on to every schedule.
-/

namespace Kit.Program

variable {ρ ι : Type} {answer : ρ → Type} {ε α β σ : Type} {env : Environment answer σ}
  {R : σ → σ → Prop} {p : Program answer ε α} {s t : σ} {a : α}

/-! ## Failures as outcomes -/

/-- The program with its failure as its outcome. -/
def attempt : Program answer ε α → Program answer ε (Except ε α)
  | done a => done (.ok a)
  | fail e => done (.error e)
  | ask r next => ask r fun a => attempt (next a)

/-- What follows an outcome: nothing, after a failure. -/
def proceed (f : α → Program answer ε β) : Except ε α → Program answer ε (Except ε β)
  | .ok a => attempt (f a)
  | .error e => done (.error e)

theorem attempt_bind {f : α → Program answer ε β} :
    attempt (p >>= f) = attempt p >>= proceed f := by
  induction p with
  | done a => rfl
  | fail e => rfl
  | ask r next ih => exact congrArg (ask r) (funext ih)

/-- Programs one after the other, each whatever came of those before it. -/
def script (perform : ι → Program answer ε α) : List ι → Program answer ε (List (Except ε α))
  | [] => done []
  | op :: ops => do
    let outcome ← attempt (perform op)
    let outcomes ← script perform ops
    return outcome :: outcomes

/-! ## Triples -/

/-- A step that `R` allows does not spoil the assertion. -/
def Stable (R : σ → σ → Prop) (A : σ → Prop) : Prop := ∀ s t, R s t → A s → A t

theorem Stable.and {A B : σ → Prop} (hA : Stable R A) (hB : Stable R B) :
    Stable R fun s => A s ∧ B s :=
  fun s t hst h => ⟨hA s t hst h.1, hB s t hst h.2⟩

theorem Stable.pure {P : Prop} : Stable R fun _ => P := fun _ _ _ h => h

/-- From where `A` holds, the program does only what `R` allows and ends with what `Q` says. -/
def Triple (env : Environment answer σ) (R : σ → σ → Prop) (A : σ → Prop)
    (p : Program answer ε α) (Q : α → σ → Prop) : Prop :=
  ∀ s, A s → Sure env R Q p s

variable {A B : σ → Prop} {Q Q' : α → σ → Prop}

theorem Triple.done (hQ : Stable R (Q a)) (h : ∀ s, A s → Q a s) :
    Triple env R A (done a : Program answer ε α) Q :=
  fun s hs t hst => hQ s t hst (h s hs)

theorem Triple.imp (h : Triple env R A p Q) (hB : ∀ s, B s → A s) (hQ : ∀ a s, Q a s → Q' a s) :
    Triple env R B p Q' :=
  fun s hs => (h s (hB s hs)).imp hQ

/-- An assertion that is the same in all states. -/
theorem Triple.assume {P : Prop} (h : P → Triple env R A p Q) :
    Triple env R (fun s => A s ∧ P) p Q :=
  fun s hs => h hs.2 s hs.1

/-- A request, where the assertion holds as it is made. -/
theorem Triple.request {r : ρ} {Q : answer r → σ → Prop} (hA : Stable R A)
    (hQ : ∀ a, Stable R (Q a))
    (h : ∀ s, A s → R s (env s r).2 ∧ Q (env s r).1 (env s r).2) :
    Triple env R A (request r : Program answer ε (answer r)) Q := by
  intro s hs t hst
  obtain ⟨hstep, hend⟩ := h t (hA s t hst hs)
  exact ⟨hstep, fun u hu => hQ _ _ u hu hend⟩

theorem Triple.bind {f : α → Program answer ε β} {Q' : β → σ → Prop} (hrefl : ∀ s, R s s)
    (hp : Triple env R A p Q) (hf : ∀ a, Triple env R (Q a) (f a) Q') :
    Triple env R A (p >>= f) Q' :=
  fun s hs => (hp s hs).bind fun a t h => hf a t (h t (hrefl t))

theorem Triple.ofExcept_ok {x : Except ε α} (hx : x = .ok a) (hA : Stable R A) :
    Triple env R A (ofExcept x) fun b s => A s ∧ b = a := by
  rw [hx]
  exact .done (hA.and .pure) fun s hs => ⟨hs, rfl⟩

/-- What the program is not about stays as it is. -/
theorem Triple.frame (h : Triple env R A p Q) (hB : Stable R B) :
    Triple env R (fun s => A s ∧ B s) p fun a s => Q a s ∧ B s := by
  rintro s ⟨hs, hb⟩
  have hsure := h s hs
  clear hs h
  induction p generalizing s with
  | done a => exact fun t hst => ⟨hsure t hst, hB s t hst hb⟩
  | fail e => exact hsure
  | ask r next ih =>
    intro t hst
    obtain ⟨hstep, hnext⟩ := hsure t hst
    exact ⟨hstep, ih _ _ (hB t _ hstep (hB s t hst hb)) hnext⟩

/-! ## Outcomes -/

theorem Sure.attempt {Q : α → σ → Prop} (h : Sure env R Q p s) :
    Sure env R (fun x t => ∃ a, x = .ok a ∧ Q a t) (attempt p) s := by
  induction p generalizing s with
  | done a => exact fun t hst => ⟨a, rfl, h t hst⟩
  | fail e => exact h.elim
  | ask r next ih => exact fun t hst => ⟨(h t hst).1, ih _ (h t hst).2⟩

/-- A first part that succeeds. -/
theorem Triple.attempt_bind {f : α → Program answer ε β} {Q' : Except ε β → σ → Prop}
    (hrefl : ∀ s, R s s) (hp : Triple env R A p Q)
    (hf : ∀ a, Triple env R (Q a) (attempt (f a)) Q') :
    Triple env R A (attempt (p >>= f)) Q' := by
  intro s hs
  rw [Program.attempt_bind]
  refine (hp s hs).attempt.bind fun x t h => ?_
  obtain ⟨a, rfl, ha⟩ := h t (hrefl t)
  exact hf a t ha

/-- A first part that may fail. -/
theorem Triple.attempt_bind_of {f : α → Program answer ε β} {P : Except ε α → σ → Prop}
    {Q' : Except ε β → σ → Prop} (hrefl : ∀ s, R s s) (hp : Triple env R A (attempt p) P)
    (hok : ∀ a, Triple env R (P (.ok a)) (attempt (f a)) Q')
    (herror : ∀ e s, P (.error e) s → ∀ t, R s t → Q' (.error e) t) :
    Triple env R A (attempt (p >>= f)) Q' := by
  intro s hs
  rw [Program.attempt_bind]
  refine (hp s hs).bind fun x t h => ?_
  have hx := h t (hrefl t)
  cases x with
  | ok a => exact hok a t hx
  | error e => exact herror e t hx

theorem Triple.attempt (h : Triple env R A p Q) :
    Triple env R A (attempt p) fun x s => ∃ a, x = .ok a ∧ Q a s :=
  fun s hs => (h s hs).attempt

/-- A program all of whose requests `R` allows, whatever comes of it. -/
theorem Meets.triple {P : ρ → Prop} {T : α → Prop} (hp : p.Meets P T) (hA : Stable R A)
    (h : ∀ r, P r → ∀ s, A s → R s (env s r).2) :
    Triple env R A (Program.attempt p) fun _ => A := by
  intro s hs
  induction p generalizing s with
  | done a => exact fun t hst => hA s t hst hs
  | fail e => exact fun t hst => hA s t hst hs
  | ask r next ih =>
    intro t hst
    have ht := hA s t hst hs
    have hstep := h r hp.1 t ht
    exact ⟨hstep, ih _ (hp.2 _) _ (hA t _ hstep ht)⟩

/-! ## Scripts -/

/-- Each outcome is right for its operation and those that were performed before it. -/
def AllRight (right : List ι → ι → Except ε α → Prop) (earlier : List ι) :
    List ι → List (Except ε α) → Prop
  | [], outcomes => outcomes = []
  | op :: ops, outcomes => ∃ outcome rest, outcomes = outcome :: rest ∧
      right earlier op outcome ∧ AllRight right (earlier ++ [op]) ops rest

variable {perform : ι → Program answer ε α} {right : List ι → ι → Except ε α → Prop}
  {facts : List ι → σ → Prop} {earlier ops : List ι} {outcomes : List (Except ε α)}

theorem AllRight.get (h : AllRight right earlier ops outcomes) {k : Nat} {op : ι}
    {outcome : Except ε α} (hop : ops[k]? = some op) (houtcome : outcomes[k]? = some outcome) :
    right (earlier ++ ops.take k) op outcome := by
  induction ops generalizing earlier outcomes k with
  | nil => cases hop
  | cons first ops ih =>
    obtain ⟨outcome', rest, rfl, hright, hrest⟩ := h
    cases k with
    | zero =>
      cases hop
      cases houtcome
      rw [List.take_zero, List.append_nil]
      exact hright
    | succ k =>
      have hlater := ih hrest hop houtcome
      rwa [List.append_assoc, List.singleton_append] at hlater

theorem AllRight.length (h : AllRight right earlier ops outcomes) :
    outcomes.length = ops.length := by
  induction ops generalizing earlier outcomes with
  | nil =>
    have hnil : outcomes = [] := h
    rw [hnil]
    rfl
  | cons op ops ih =>
    obtain ⟨outcome, rest, rfl, -, hrest⟩ := h
    rw [List.length_cons, List.length_cons, ih hrest]

/-- The facts that the operations of a script establish, each for those after it. -/
theorem Triple.script (hrefl : ∀ s, R s s)
    (h : ∀ earlier, ∀ op ∈ ops, Triple env R (facts earlier) (Program.attempt (perform op))
      fun x s => right earlier op x ∧ facts (earlier ++ [op]) s) :
    Triple env R (facts earlier) (Program.script perform ops)
      fun outcomes _ => AllRight right earlier ops outcomes := by
  induction ops generalizing earlier with
  | nil => exact .done .pure fun _ _ => rfl
  | cons op ops ih =>
    refine .bind hrefl (h earlier op List.mem_cons_self) fun outcome => ?_
    have hrest : Triple env R (facts (earlier ++ [op])) (Program.script perform ops)
        fun outcomes _ => AllRight right (earlier ++ [op]) ops outcomes :=
      ih fun earlier op hop => h earlier op (List.mem_cons_of_mem _ hop)
    have hright : Stable R fun _ : σ => right earlier op outcome := .pure
    refine .bind hrefl ((hrest.frame hright).imp (fun s hs => ⟨hs.2, hs.1⟩) fun _ _ h => h) ?_
    exact fun rest => .done .pure fun s hs => ⟨outcome, rest, rfl, hs.2, hs.1⟩

end Kit.Program
