import CereDdc.Kit.Program

/-!
# Kit — Schedule

Programs that take turns in one environment, and are waited for together. What
one of them can be sure of is what no step of the others spoils: `Sure` relies on
a relation between states that every step keeps to, its own steps included.
-/

namespace Kit.Program

variable {ρ : Type} {answer : ρ → Type} {ε α β σ : Type}

/-! ## Turns -/

/-- Program `i` makes its next request, if it has one. -/
def turn (env : Environment answer σ) (i : Nat) (ps : List (Program answer ε α)) (s : σ) :
    List (Program answer ε α) × σ :=
  match ps[i]? with
  | some (ask r next) => (ps.set i (next (env s r).1), (env s r).2)
  | _ => (ps, s)

/-- The programs and the state after the turns of a schedule. -/
def turns (env : Environment answer σ) :
    List Nat → List (Program answer ε α) → σ → List (Program answer ε α) × σ
  | [], ps, s => (ps, s)
  | i :: is, ps, s => turns env is (turn env i ps s).1 (turn env i ps s).2

/-- What the programs have ended with, once all of them have. -/
def results : List (Program answer ε α) → Option (List α)
  | [] => some []
  | done a :: ps => (results ps).map (a :: ·)
  | _ :: _ => none

/-- However the programs take turns, they can all come to their end, and `Q` holds when they
have. -/
def AllEnd (env : Environment answer σ) (Q : List α → σ → Prop) (ps : List (Program answer ε α))
    (s : σ) : Prop :=
  ∀ is, (∃ more, (results (turns env (is ++ more) ps s).1).isSome) ∧
    ∀ as, results (turns env is ps s).1 = some as → Q as (turns env is ps s).2

variable {env : Environment answer σ} {ps : List (Program answer ε α)} {p : Program answer ε α}
  {s t : σ} {i : Nat} {is : List Nat}

theorem turn_ask {r : ρ} {next : answer r → Program answer ε α} (h : ps[i]? = some (ask r next)) :
    turn env i ps s = (ps.set i (next (env s r).1), (env s r).2) := by
  simp [turn, h]

theorem turn_cases (env : Environment answer σ) (i : Nat) (ps : List (Program answer ε α)) (s : σ) :
    turn env i ps s = (ps, s) ∨ ∃ r next, ps[i]? = some (ask r next) ∧
    turn env i ps s = (ps.set i (next (env s r).1), (env s r).2) := by
  unfold turn
  split
  · next r next h => exact .inr ⟨r, next, h, rfl⟩
  · exact .inl rfl

theorem turns_append {js : List Nat} :
    turns env (is ++ js) ps s = turns env js (turns env is ps s).1 (turns env is ps s).2 := by
  induction is generalizing ps s with
  | nil => rfl
  | cons i is ih => exact ih

theorem turns_length : (turns env is ps s).1.length = ps.length := by
  induction is generalizing ps s with
  | nil => rfl
  | cons i is ih =>
    refine ih.trans ?_
    rcases turn_cases env i ps s with h | ⟨r, next, -, h⟩
    · rw [h]
    · rw [h, List.length_set]

theorem results_eq_some {as : List α} : results ps = some as ↔ ps = as.map done := by
  induction ps generalizing as with
  | nil => cases as <;> simp [results]
  | cons p ps ih =>
    cases p with
    | done a =>
      cases as with
      | nil => simp [results]
      | cons b as => simp [results, ih, and_comm]
    | fail e => cases as <;> simp [results]
    | ask r next => cases as <;> simp [results]

theorem results_isSome (h : ∀ p ∈ ps, ∃ a, p = done a) : (results ps).isSome := by
  induction ps with
  | nil => rfl
  | cons p ps ih =>
    obtain ⟨a, rfl⟩ := h p (by simp)
    have hps := ih fun p hp => h p (by simp [hp])
    simpa [results] using hps

/-! ## What a program can be sure of -/

/-- Whatever `R` lets happen in between, the program does only what `R` allows, and ends with what
`Q` says and goes on saying. -/
def Sure (env : Environment answer σ) (R : σ → σ → Prop) (Q : α → σ → Prop) :
    Program answer ε α → σ → Prop
  | done a, s => ∀ t, R s t → Q a t
  | fail _, _ => False
  | ask r next, s =>
    ∀ t, R s t → R t (env t r).2 ∧ Sure env R Q (next (env t r).1) (env t r).2

variable {R : σ → σ → Prop} {Q : α → σ → Prop}

theorem Sure.rely (htrans : ∀ s t u, R s t → R t u → R s u) (h : Sure env R Q p s)
    (hst : R s t) : Sure env R Q p t := by
  cases p with
  | done a => exact fun u htu => h u (htrans s t u hst htu)
  | fail e => exact h
  | ask r next => exact fun u htu => h u (htrans s t u hst htu)

theorem Sure.imp {Q' : α → σ → Prop} (h : Sure env R Q p s) (hQ : ∀ a t, Q a t → Q' a t) :
    Sure env R Q' p s := by
  induction p generalizing s with
  | done a => exact fun t hst => hQ a t (h t hst)
  | fail e => exact h
  | ask r next ih => exact fun t hst => ⟨(h t hst).1, ih _ (h t hst).2⟩

theorem Sure.bind {Q' : β → σ → Prop} {f : α → Program answer ε β} (hp : Sure env R Q p s)
    (hf : ∀ a t, (∀ u, R t u → Q a u) → Sure env R Q' (f a) t) : Sure env R Q' (p >>= f) s := by
  induction p generalizing s with
  | done a => exact hf a s hp
  | fail e => exact hp.elim
  | ask r next ih => exact fun t hst => ⟨(hp t hst).1, ih _ (hp t hst).2⟩

/-- Each of the programs is sure to end as `Q` says of it. -/
def AllSure (env : Environment answer σ) (R : σ → σ → Prop) (Q : Nat → α → σ → Prop)
    (ps : List (Program answer ε α)) (s : σ) : Prop :=
  ∀ (i : Nat) p, ps[i]? = some p → Sure env R (Q i) p s

variable {Q : Nat → α → σ → Prop}

theorem AllSure.turn (hrefl : ∀ s, R s s) (htrans : ∀ s t u, R s t → R t u → R s u)
    (h : AllSure env R Q ps s) (i : Nat) :
    R s (turn env i ps s).2 ∧ AllSure env R Q (turn env i ps s).1 (turn env i ps s).2 := by
  rcases turn_cases env i ps s with hturn | ⟨r, next, hi, hturn⟩
  · rw [hturn]
    exact ⟨hrefl s, h⟩
  · rw [hturn]
    obtain ⟨hstep, hnext⟩ := h i _ hi s (hrefl s)
    refine ⟨hstep, fun j p hj => ?_⟩
    rw [List.getElem?_set] at hj
    split at hj
    · next hij =>
      subst hij
      split at hj
      · cases hj
        exact hnext
      · cases hj
    · exact (h j p hj).rely htrans hstep

theorem AllSure.turns (hrefl : ∀ s, R s s) (htrans : ∀ s t u, R s t → R t u → R s u)
    (h : AllSure env R Q ps s) (is : List Nat) :
    R s (turns env is ps s).2 ∧ AllSure env R Q (turns env is ps s).1 (turns env is ps s).2 := by
  induction is generalizing ps s with
  | nil => exact ⟨hrefl s, h⟩
  | cons i is ih =>
    obtain ⟨hstep, hturn⟩ := h.turn hrefl htrans i
    obtain ⟨hrest, hsure⟩ := ih hturn
    exact ⟨htrans _ _ _ hstep hrest, hsure⟩

/-- A program comes to its end by turns of its own, and the others stay where they are. -/
theorem Sure.exists_done (hrefl : ∀ s, R s s) {Q : α → σ → Prop} (h : Sure env R Q p s)
    (hi : ps[i]? = some p) :
    ∃ is a, (turns env is ps s).1[i]? = some (done a) ∧
      ∀ j, j ≠ i → (turns env is ps s).1[j]? = ps[j]? := by
  induction p generalizing ps s with
  | done a => exact ⟨[], a, hi, fun _ _ => rfl⟩
  | fail e => exact h.elim
  | ask r next ih =>
    have hlt := (List.getElem?_eq_some_iff.mp hi).1
    have hset : (ps.set i (next (env s r).1))[i]? = some (next (env s r).1) :=
      List.getElem?_set_self hlt
    obtain ⟨is, a, hdone, hothers⟩ := ih _ (h s (hrefl s)).2 hset
    have hturns : Program.turns env (i :: is) ps s
        = Program.turns env is (ps.set i (next (env s r).1)) (env s r).2 := by
      rw [Program.turns, turn_ask hi]
    refine ⟨i :: is, a, ?_, fun j hj => ?_⟩
    · rw [hturns]
      exact hdone
    · rw [hturns, hothers j hj, List.getElem?_set_ne (Ne.symm hj)]

theorem AllSure.exists_results (hrefl : ∀ s, R s s) (htrans : ∀ s t u, R s t → R t u → R s u)
    (h : AllSure env R Q ps s) : ∃ is, (results (Program.turns env is ps s).1).isSome := by
  -- one program after the other, from the first
  have hfirst : ∀ k, ∃ is, ∀ (j : Nat) p, j < k → (Program.turns env is ps s).1[j]? = some p →
      ∃ a, p = done a := by
    intro k
    induction k with
    | zero => exact ⟨[], fun j p hj => absurd hj (Nat.not_lt_zero j)⟩
    | succ k ih =>
      obtain ⟨is, hdone⟩ := ih
      cases hk : (Program.turns env is ps s).1[k]? with
      | none =>
        refine ⟨is, fun j p hj hp => ?_⟩
        rcases Nat.lt_succ_iff_lt_or_eq.mp hj with hlt | rfl
        · exact hdone j p hlt hp
        · rw [hk] at hp
          cases hp
      | some p =>
        have hsure := (h.turns hrefl htrans is).2 k p hk
        obtain ⟨js, a, hend, hothers⟩ := hsure.exists_done hrefl hk
        refine ⟨is ++ js, fun j p hj hp => ?_⟩
        rw [turns_append] at hp
        by_cases hjk : j = k
        · subst hjk
          rw [hend] at hp
          exact ⟨a, (Option.some.inj hp).symm⟩
        · rw [hothers j hjk] at hp
          exact hdone j p (by omega) hp
  obtain ⟨is, hdone⟩ := hfirst ps.length
  refine ⟨is, results_isSome fun p hp => ?_⟩
  obtain ⟨j, hj⟩ := List.mem_iff_getElem?.mp hp
  have hlt := (List.getElem?_eq_some_iff.mp hj).1
  rw [turns_length] at hlt
  exact hdone j p hlt hj

/-- The rule for programs that are waited for together. -/
theorem AllSure.allEnd {Q' : List α → σ → Prop} (hrefl : ∀ s, R s s)
    (htrans : ∀ s t u, R s t → R t u → R s u) (h : AllSure env R Q ps s)
    (hQ : ∀ as t, R s t → as.length = ps.length →
      (∀ (i : Nat) a, as[i]? = some a → Q i a t) → Q' as t) : AllEnd env Q' ps s := by
  intro is
  obtain ⟨hst, hsure⟩ := h.turns hrefl htrans is
  constructor
  · obtain ⟨more, hmore⟩ := hsure.exists_results hrefl htrans
    exact ⟨more, by rwa [turns_append]⟩
  · intro as has
    have hps := results_eq_some.mp has
    refine hQ as _ hst ?_ fun i a hi => ?_
    · rw [← @turns_length _ _ _ _ _ env ps s is, hps, List.length_map]
    · refine hsure i (done a) ?_ _ (hrefl _)
      rw [hps, List.getElem?_map, hi]
      rfl

/-! ## Programs that fail -/

/-- Whatever happens, the program does not come to an end other than its failure. -/
def Fails (env : Environment answer σ) : Program answer ε α → Prop
  | done _ => False
  | fail _ => True
  | ask r next => ∀ s, Fails env (next (env s r).1)

theorem Fails.bind {f : α → Program answer ε β} (h : Fails env p) : Fails env (p >>= f) := by
  induction p with
  | done a => exact h.elim
  | fail e => trivial
  | ask r next ih => exact fun s => ih _ (h s)

theorem Fails.turns (h : Fails env p) (hi : ps[i]? = some p) :
    ∃ q, (turns env is ps s).1[i]? = some q ∧ Fails env q := by
  induction is generalizing ps s p with
  | nil => exact ⟨p, hi, h⟩
  | cons j is ih =>
    rcases turn_cases env j ps s with hturn | ⟨r, next, hj, hturn⟩
    · rw [Program.turns, hturn]
      exact ih h hi
    · rw [Program.turns, hturn]
      by_cases hij : j = i
      · subst hij
        rw [hj] at hi
        cases hi
        exact ih (h s) (List.getElem?_set_self (List.getElem?_eq_some_iff.mp hj).1)
      · exact ih h (by rw [List.getElem?_set_ne hij, hi])

/-- Programs one of which fails are waited for in vain. -/
theorem Fails.not_allEnd {Q : List α → σ → Prop} (h : Fails env p) (hp : p ∈ ps) :
    ¬ AllEnd env Q ps s := by
  intro hall
  obtain ⟨i, hi⟩ := List.mem_iff_getElem?.mp hp
  obtain ⟨more, hmore⟩ := (hall []).1
  obtain ⟨as, has⟩ := Option.isSome_iff_exists.mp hmore
  obtain ⟨q, hq, hfails⟩ := @Fails.turns _ _ _ _ _ _ _ _ s _ ([] ++ more) h hi
  rw [results_eq_some.mp has, List.getElem?_map] at hq
  obtain ⟨a, -, rfl⟩ := Option.map_eq_some_iff.mp hq
  exact hfails

end Kit.Program
