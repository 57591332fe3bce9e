import CereDdc.Kit.Program

/-!
# Kit — Parallel

Programs side by side. A trace is what was asked and answered, in order; the
answers are free. What holds of every request of each program holds of every
trace of all of them, in whatever order they get on, and the other way around.
-/

namespace Kit.Program

variable {ρ : Type} {answer : ρ → Type} {ε α β : Type}

/-- A request and its answer. -/
abbrev Event (answer : ρ → Type) := (r : ρ) × answer r

/-- The program gets from `p` to `q` by these events. -/
inductive Follows : Program answer ε α → List (Event answer) → Program answer ε α → Prop
  | stop {p} : Follows p [] p
  | step {r next a es q} : Follows (next a) es q → Follows (ask r next) (⟨r, a⟩ :: es) q

/-- The programs get on by these events, one of them at a time. -/
inductive Interleaves : List (Program answer ε α) → List (Event answer) →
    List (Program answer ε α) → Prop
  | stop {ps} : Interleaves ps [] ps
  | step {ps i r next a es qs} : ps[i]? = some (ask r next) →
      Interleaves (ps.set i (next a)) es qs → Interleaves ps (⟨r, a⟩ :: es) qs

/-- A program that ends with programs, which are then run side by side. -/
inductive Forks : Program answer ε (List (Program answer ε β)) → List (Event answer) → Prop
  | run {p es q} : Follows p es q → Forks p es
  | fork {p es jobs es' rest} : Follows p es (done jobs) → Interleaves jobs es' rest →
      Forks p (es ++ es')

variable {P : ρ → Prop} {Q : α → Prop} {p q : Program answer ε α}
  {ps qs : List (Program answer ε α)} {es : List (Event answer)}

theorem Meets.follows (hp : Meets P Q p) (h : Follows p es q) :
    (∀ e ∈ es, P e.1) ∧ Meets P Q q := by
  induction h with
  | stop => exact ⟨by simp, hp⟩
  | step _ ih =>
    obtain ⟨hes, hq⟩ := ih (hp.2 _)
    exact ⟨List.forall_mem_cons.mpr ⟨hp.1, hes⟩, hq⟩

theorem interleaves_all (hps : ∀ p ∈ ps, p.All P) (h : Interleaves ps es qs) :
    ∀ e ∈ es, P e.1 := by
  induction h with
  | stop => simp
  | @step ps i r next a es qs hget _ ih =>
    have hask : (ask r next).All P := hps _ (List.mem_of_getElem? hget)
    refine List.forall_mem_cons.mpr ⟨hask.1, ih fun p hp => ?_⟩
    rcases List.mem_or_eq_of_mem_set hp with hp | rfl
    · exact hps p hp
    · exact hask.2 a

/-- A program among others can be run alone. -/
theorem all_of_interleaves [∀ r, Inhabited (answer r)] {i : Nat} (hget : ps[i]? = some p)
    (h : ∀ es qs, Interleaves ps es qs → ∀ e ∈ es, P e.1) : p.All P := by
  induction p generalizing ps with
  | done a => trivial
  | fail e => trivial
  | ask r next ih =>
    have hlt : i < ps.length := (List.getElem?_eq_some_iff.mp hget).1
    refine ⟨h _ _ (.step hget .stop) ⟨r, default⟩ List.mem_cons_self, fun a => ?_⟩
    refine ih a (List.getElem?_set_self hlt) fun es qs hes e he => ?_
    exact h _ qs (.step hget hes) e (List.mem_cons_of_mem _ he)

/-- What no event of the programs refutes is what holds of each of them. -/
theorem forall_all_iff [∀ r, Inhabited (answer r)] :
    (∀ p ∈ ps, p.All P) ↔ ∀ es qs, Interleaves ps es qs → ∀ e ∈ es, P e.1 := by
  refine ⟨fun h es qs => interleaves_all h, fun h p hp => ?_⟩
  obtain ⟨i, hget⟩ := List.mem_iff_getElem?.mp hp
  exact all_of_interleaves hget h

theorem Meets.forks {p : Program answer ε (List (Program answer ε β))}
    (hp : p.Meets P fun jobs => ∀ job ∈ jobs, job.All P) (h : Forks p es) : ∀ e ∈ es, P e.1 := by
  cases h with
  | run hrun => exact (hp.follows hrun).1
  | fork hrun hjobs =>
    obtain ⟨hes, hall⟩ := hp.follows hrun
    intro e he
    exact (List.mem_append.mp he).elim (hes e) (interleaves_all hall hjobs e)

/-- The first event is the answer to the first request. -/
theorem forks_ask {r : ρ} {next : answer r → Program answer ε (List (Program answer ε β))}
    {a : answer r} : Forks (ask r next) (⟨r, a⟩ :: es) ↔ Forks (next a) es := by
  constructor
  · intro h
    generalize hp : ask r next = p at h
    generalize hes : (⟨r, a⟩ : Event answer) :: es = es' at h
    cases h with
    | run hrun =>
      subst hp hes
      cases hrun with
      | step hrun => exact .run hrun
    | @fork es₁ jobs es₂ rest hrun hjobs =>
      subst hp
      cases hrun with
      | @step _ _ b es₁ _ hrun =>
        cases hes
        exact .fork hrun hjobs
  · intro h
    cases h with
    | run hrun => exact .run (.step hrun)
    | fork hrun hjobs => exact .fork (.step hrun) hjobs

end Kit.Program
