import Mathlib.Tactic.Common

/-!
# Kit — Runs

Runs of a machine given by an executable step function: `step s l` is the state
after the event `l`, or `none` when `l` cannot happen in `s`. `run step s ls`
plays a whole list of events. The rules below are how every fact about a run is
proved: what one step preserves, a run preserves.
-/

namespace Kit

variable {σ ι : Type*}

/-- Play the events in order; `none` as soon as one of them is not possible. -/
def run (step : σ → ι → Option σ) : σ → List ι → Option σ
  | s, [] => some s
  | s, l :: ls => (step s l).bind fun t => run step t ls

variable {step : σ → ι → Option σ} {s t u : σ} {l : ι} {ls ls' : List ι}

@[simp] theorem run_nil : run step s [] = some s := rfl

theorem run_cons : run step s (l :: ls) = (step s l).bind fun t => run step t ls := rfl

theorem run_cons_eq_some :
    run step s (l :: ls) = some u ↔ ∃ t, step s l = some t ∧ run step t ls = some u := by
  simp [run_cons, Option.bind_eq_some_iff]

@[simp] theorem run_singleton : run step s [l] = step s l := by
  simp [run_cons]

theorem run_append : run step s (ls ++ ls') = (run step s ls).bind fun t => run step t ls' := by
  induction ls generalizing s with
  | nil => simp
  | cons l ls ih =>
    rw [List.cons_append, run_cons, run_cons, Option.bind_assoc]
    exact congrArg _ (funext fun t => ih)

theorem run_append_eq_some :
    run step s (ls ++ ls') = some u ↔ ∃ t, run step s ls = some t ∧ run step t ls' = some u := by
  simp [run_append, Option.bind_eq_some_iff]

/-- A run can be stopped anywhere. -/
theorem run_prefix (h : run step s ls = some u) (hfirst : ls' <+: ls) :
    ∃ t, run step s ls' = some t := by
  obtain ⟨rest, rfl⟩ := hfirst
  obtain ⟨t, ht, -⟩ := run_append_eq_some.mp h
  exact ⟨t, ht⟩

/-- What every possible event of a run preserves holds at its end. -/
theorem run_invariant_of {P : σ → Prop} {ok : ι → Prop}
    (hstep : ∀ s l t, ok l → P s → step s l = some t → P t)
    (hok : ∀ l ∈ ls, ok l) (hs : P s) (h : run step s ls = some u) : P u := by
  induction ls generalizing s with
  | nil =>
    cases h
    exact hs
  | cons l ls ih =>
    obtain ⟨t, ht, hu⟩ := run_cons_eq_some.mp h
    exact ih (fun m hm => hok m (by simp [hm])) (hstep s l t (hok l (by simp)) hs ht) hu

theorem run_invariant {P : σ → Prop} (hstep : ∀ s l t, P s → step s l = some t → P t)
    (hs : P s) (h : run step s ls = some u) : P u :=
  run_invariant_of (fun s l t (_ : True) => hstep s l t) (fun _ _ => trivial) hs h

/-- What each event of a run keeps true of the events so far and the state they lead to. -/
theorem run_history {P : List ι → σ → Prop}
    (hstep : ∀ ls s l t, P ls s → step s l = some t → P (ls ++ [l]) t)
    (hs : P ls' s) (h : run step s ls = some u) : P (ls' ++ ls) u := by
  induction ls generalizing ls' s with
  | nil =>
    cases h
    rwa [List.append_nil]
  | cons l ls ih =>
    obtain ⟨t, ht, hu⟩ := run_cons_eq_some.mp h
    have hrest := ih (hstep ls' s l t hs ht) hu
    rwa [List.append_assoc] at hrest

/-- `P` holds of every step that the run makes, in the state it is made in. -/
def EachStep (step : σ → ι → Option σ) (P : σ → ι → Prop) : σ → List ι → Prop
  | _, [] => True
  | s, l :: ls => P s l ∧
    match step s l with
    | some t => EachStep step P t ls
    | none => True

instance EachStep.decidable (P : σ → ι → Prop) [∀ s l, Decidable (P s l)] :
    (s : σ) → (ls : List ι) → Decidable (EachStep step P s ls)
  | _, [] => instDecidableTrue
  | s, l :: ls =>
    have : Decidable (match step s l with
        | some t => EachStep step P t ls
        | none => True) :=
      match step s l with
      | some t => decidable P t ls
      | none => instDecidableTrue
    inferInstanceAs (Decidable (_ ∧ _))

theorem EachStep.cons {Q : σ → ι → Prop} (hl : Q s l) (h : step s l = some t)
    (hls : EachStep step Q t ls) : EachStep step Q s (l :: ls) := by
  refine ⟨hl, ?_⟩
  rw [h]
  exact hls

/-- What holds of every step of a run holds of those of its second part. -/
theorem EachStep.right {Q : σ → ι → Prop} (hQ : EachStep step Q s (ls ++ ls'))
    (h : run step s ls = some t) : EachStep step Q t ls' := by
  induction ls generalizing s with
  | nil =>
    cases h
    exact hQ
  | cons l ls ih =>
    obtain ⟨u, hu, ht⟩ := run_cons_eq_some.mp h
    have hrest := hQ.2
    rw [hu] at hrest
    exact ih hrest ht

/-- What holds of every step of a run holds of those of its first part. -/
theorem EachStep.left {Q : σ → ι → Prop} (hQ : EachStep step Q s (ls ++ ls')) :
    EachStep step Q s ls := by
  induction ls generalizing s with
  | nil => trivial
  | cons l ls ih =>
    obtain ⟨hl, hrest⟩ := hQ
    refine ⟨hl, ?_⟩
    cases hstep : step s l with
    | none => trivial
    | some t =>
      rw [hstep] at hrest
      exact ih hrest

/-- What the steps of the run preserve, each of them known to meet `Q`, holds at its end. -/
theorem EachStep.invariant {P : σ → Prop} {Q : σ → ι → Prop} (hQ : EachStep step Q s ls)
    (hstep : ∀ s l t, Q s l → P s → step s l = some t → P t)
    (hs : P s) (h : run step s ls = some u) : P u := by
  induction ls generalizing s with
  | nil =>
    cases h
    exact hs
  | cons l ls ih =>
    obtain ⟨t, ht, hu⟩ := run_cons_eq_some.mp h
    obtain ⟨hl, hls⟩ := hQ
    rw [ht] at hls
    exact ih hls (hstep s l t hl hs ht) hu

/-- Every step of a run meets `Q` if the end of the run tells so of each. -/
theorem EachStep.of_run {P : σ → Prop} {Q : σ → ι → Prop}
    (hstep : ∀ s l t, P s → step s l = some t → P t)
    (hQ : ∀ s l t ls, P s → step s l = some t → run step t ls = some u → Q s l)
    (hs : P s) (h : run step s ls = some u) : EachStep step Q s ls := by
  induction ls generalizing s with
  | nil => trivial
  | cons l ls ih =>
    obtain ⟨t, ht, hu⟩ := run_cons_eq_some.mp h
    refine ⟨hQ s l t ls hs ht hu, ?_⟩
    rw [ht]
    exact ih (hstep s l t hs ht) hu

/-- `P` holds of every state that the run goes through. -/
def Always (step : σ → ι → Option σ) (P : σ → Prop) (s : σ) (ls : List ι) : Prop :=
  ∀ first, first <+: ls → ∀ t, run step s first = some t → P t

theorem Always.nil {P : σ → Prop} (hs : P s) : Always step P s [] := by
  intro first hfirst t ht
  obtain rfl := List.prefix_nil.mp hfirst
  cases ht
  exact hs

theorem always_cons {P : σ → Prop} (h : step s l = some t) :
    Always step P s (l :: ls) ↔ P s ∧ Always step P t ls := by
  constructor
  · intro halways
    refine ⟨halways [] (by simp) s rfl, ?_⟩
    intro first hfirst u hu
    refine halways (l :: first) (by simpa using hfirst) u ?_
    rw [run_cons, h]
    exact hu
  · rintro ⟨hs, hrest⟩ first hfirst u hu
    cases first with
    | nil =>
      cases hu
      exact hs
    | cons l' first =>
      obtain ⟨rfl, hfirst'⟩ := List.cons_prefix_cons.mp hfirst
      obtain ⟨t', ht', hu'⟩ := run_cons_eq_some.mp hu
      rw [h] at ht'
      cases ht'
      exact hrest first hfirst' u hu'

/-- The rule for a property that one kind of step breaks: it holds all along a run exactly when
each step of the run meets `Q`. -/
theorem always_iff_eachStep {I P : σ → Prop} {Q : σ → ι → Prop}
    (hI : ∀ s l t, I s → step s l = some t → I t)
    (hstep : ∀ s l t, I s → P s → step s l = some t → (P t ↔ Q s l))
    (hs : I s) (hP : P s) (h : run step s ls = some u) :
    Always step P s ls ↔ EachStep step Q s ls := by
  induction ls generalizing s with
  | nil => exact ⟨fun _ => trivial, fun _ => .nil hP⟩
  | cons l ls ih =>
    obtain ⟨t, ht, hu⟩ := run_cons_eq_some.mp h
    rw [always_cons ht]
    simp only [EachStep, ht]
    have hnext := hstep s l t hs hP ht
    constructor
    · rintro ⟨-, hrest⟩
      have ht' : P t := hrest [] (by simp) t rfl
      exact ⟨hnext.mp ht', (ih (hI s l t hs ht) ht' hu).mp hrest⟩
    · rintro ⟨hl, hls⟩
      exact ⟨hP, (ih (hI s l t hs ht) (hnext.mpr hl) hu).mpr hls⟩

/-- A preorder every step moves up is moved up by a run. -/
theorem run_mono {R : σ → σ → Prop} (hrefl : ∀ s, R s s)
    (htrans : ∀ s t u, R s t → R t u → R s u)
    (hstep : ∀ s l t, step s l = some t → R s t) (h : run step s ls = some u) : R s u := by
  induction ls generalizing s with
  | nil =>
    cases h
    exact hrefl _
  | cons l ls ih =>
    obtain ⟨t, ht, hu⟩ := run_cons_eq_some.mp h
    exact htrans s t u (hstep s l t ht) (ih hu)

/-- `u` can be reached from `s` by events that `ok` allows. -/
def ReachesBy (step : σ → ι → Option σ) (ok : ι → Prop) (s u : σ) : Prop :=
  ∃ ls, (∀ l ∈ ls, ok l) ∧ run step s ls = some u

namespace ReachesBy

variable {ok : ι → Prop}

theorem refl (s : σ) : ReachesBy step ok s s := ⟨[], by simp, rfl⟩

theorem single (hok : ok l) (h : step s l = some t) : ReachesBy step ok s t :=
  ⟨[l], by simpa using hok, by simp [run_cons, h]⟩

theorem trans (h : ReachesBy step ok s t) (h' : ReachesBy step ok t u) : ReachesBy step ok s u := by
  obtain ⟨ls, hls, hs⟩ := h
  obtain ⟨ls', hls', ht⟩ := h'
  refine ⟨ls ++ ls', ?_, run_append_eq_some.mpr ⟨t, hs, ht⟩⟩
  intro l hl
  rcases List.mem_append.mp hl with hl | hl
  · exact hls l hl
  · exact hls' l hl

/-- The rule of progress: a state with `n` stages ahead has a step that leaves fewer, so the goal
is reached. -/
theorem of_stages {P : Nat → σ → Prop} {goal : σ → Prop} {n : Nat}
    (progress : ∀ n s, P n s →
      goal s ∨ ∃ l t m, ok l ∧ step s l = some t ∧ m < n ∧ P m t)
    (hs : P n s) : ∃ u, ReachesBy step ok s u ∧ goal u := by
  induction n using Nat.strongRecOn generalizing s with
  | ind n ih =>
    rcases progress n s hs with hgoal | ⟨l, t, m, hl, hstep, hlt, ht⟩
    · exact ⟨s, .refl s, hgoal⟩
    · obtain ⟨u, hreaches, hgoal⟩ := ih m hlt ht
      exact ⟨u, .trans (.single hl hstep) hreaches, hgoal⟩

theorem invariant {P : σ → Prop} (h : ReachesBy step ok s u)
    (hstep : ∀ s l t, ok l → P s → step s l = some t → P t) (hs : P s) : P u := by
  obtain ⟨ls, hok, hrun⟩ := h
  exact run_invariant_of hstep hok hs hrun

end ReachesBy

end Kit
