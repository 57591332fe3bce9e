import CereDdc.Kit.Program
import CereDdc.Kit.Runs

/-!
# Kit — Monitor

A machine that watches a program: each request is an event of it. `Watched` says
along the program that the machine can follow every run, and in which state it is
when the program ends; it is `Meets` with a memory.
-/

namespace Kit

namespace Program

variable {ρ μ σ ε α β : Type} {answer : ρ → Type}

/-- The machine can follow the program from `m` on whatever the answers are, and `Q` holds of its
state when the program ends with a result. -/
def Watched (step : μ → ρ → Option μ) (Q : α → μ → Prop) : Program answer ε α → μ → Prop
  | done a, m => Q a m
  | fail _, _ => True
  | ask r next, m => ∃ m', step m r = some m' ∧ ∀ a, Watched step Q (next a) m'

variable {step : μ → ρ → Option μ} {Q Q' : α → μ → Prop} {R : β → μ → Prop} {m m' : μ}
  {p : Program answer ε α} {f : α → Program answer ε β} {P : ρ → Prop} {r : ρ}

theorem Watched.request {f : answer r → Program answer ε α} (h : step m r = some m')
    (hf : ∀ a, (f a).Watched step Q m') :
    ((Program.request r : Program answer ε (answer r)) >>= f).Watched step Q m :=
  ⟨m', h, hf⟩

theorem watched_ofExcept {x : Except ε α} (h : ∀ a, x = .ok a → Q a m) :
    (ofExcept x : Program answer ε α).Watched step Q m := by
  cases x with
  | ok a => exact h a rfl
  | error e => trivial

theorem Watched.bind (hp : p.Watched step Q m) (hf : ∀ a m', Q a m' → (f a).Watched step R m') :
    (p >>= f).Watched step R m := by
  induction p generalizing m with
  | done a => exact hf a m hp
  | fail e => trivial
  | ask r next ih =>
    obtain ⟨m', hstep, hnext⟩ := hp
    exact ⟨m', hstep, fun a => ih a (hnext a)⟩

/-- Requests that leave the machine where it is. -/
theorem Meets.watched {Q : α → Prop} (hp : p.Meets P Q) (hP : ∀ r, P r → step m r = some m) :
    p.Watched step (fun a m' => Q a ∧ m' = m) m := by
  induction p with
  | done a => exact ⟨hp, rfl⟩
  | fail e => trivial
  | ask r next ih => exact ⟨m, hP r hp.1, fun a => ih a (hp.2 a)⟩

/-- In every environment the machine follows the requests of the run. -/
theorem Watched.follows {env : Environment answer σ} {s : σ} (h : p.Watched step Q m) :
    ∃ m', Kit.run step m (Program.requests env p s) = some m' ∧
      ∀ a t, Program.run env p s = (.ok a, t) → Q a m' := by
  induction p generalizing m s with
  | done a =>
    refine ⟨m, rfl, fun b t hrun => ?_⟩
    cases hrun
    exact h
  | fail e =>
    refine ⟨m, rfl, fun b t hrun => ?_⟩
    cases hrun
  | ask r next ih =>
    obtain ⟨m', hstep, hnext⟩ := h
    obtain ⟨m'', hfollows, hends⟩ := @ih (env s r).1 m' (env s r).2 (hnext _)
    exact ⟨m'', run_cons_eq_some.mpr ⟨m', hstep, hfollows⟩, hends⟩

end Program

end Kit
