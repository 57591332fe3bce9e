import CereDdc.Kit.RelyGuarantee
import CereDdc.Kit.Retry

/-!
# Kit — Tries

Triples for programs that take turns and may fail at any time: what holds where they
succeed. On the way they do only what is allowed, also where they fail later; so a
program can be tried again, and `Kit.retry` is a program like that.
-/

namespace Kit.Program

variable {ρ : Type} {answer : ρ → Type} {ε α β σ : Type} {env : Environment answer σ}
  {R : σ → σ → Prop} {p : Program answer ε α} {s : σ} {a : α} {A B : σ → Prop}
  {Q Q' : α → σ → Prop}

/-- From where `A` holds, the program does only what `R` allows, and `Q` holds if it succeeds. -/
def Tries (env : Environment answer σ) (R : σ → σ → Prop) (A : σ → Prop)
    (p : Program answer ε α) (Q : α → σ → Prop) : Prop :=
  Triple env R A (attempt p) fun x s => ∀ a, x = .ok a → Q a s

theorem Triple.tries (h : Triple env R A p Q) : Tries env R A p Q := by
  refine h.attempt.imp (fun _ hs => hs) ?_
  rintro x s ⟨a, rfl, ha⟩ b hb
  cases hb
  exact ha

theorem Tries.done (hQ : Stable R (Q a)) (h : ∀ s, A s → Q a s) :
    Tries env R A (done a : Program answer ε α) Q :=
  (Triple.done hQ h).tries

theorem Tries.fail {e : ε} : Tries env R A (fail e : Program answer ε α) Q :=
  fun _ _ _ _ => nofun

theorem Tries.imp (h : Tries env R A p Q) (hB : ∀ s, B s → A s) (hQ : ∀ a s, Q a s → Q' a s) :
    Tries env R B p Q' :=
  Triple.imp h hB fun _ s hs a ha => hQ a s (hs a ha)

theorem Tries.assume {P : Prop} (h : P → Tries env R A p Q) :
    Tries env R (fun s => A s ∧ P) p Q :=
  Triple.assume h

theorem Tries.bind {f : α → Program answer ε β} {Q' : β → σ → Prop} (hrefl : ∀ s, R s s)
    (hp : Tries env R A p Q) (hf : ∀ a, Tries env R (Q a) (f a) Q') :
    Tries env R A (p >>= f) Q' := by
  refine Triple.attempt_bind_of hrefl hp (fun a => ?_) fun _ _ _ _ _ => nofun
  exact (hf a).imp (fun s hs => hs a rfl) fun _ _ h => h

theorem Tries.ofExcept {x : Except ε α} (hA : Stable R A) :
    Tries env R A (ofExcept x) fun a s => A s ∧ x = .ok a := by
  cases x with
  | ok a => exact .done (hA.and .pure) fun s hs => ⟨hs, rfl⟩
  | error e => exact .fail

/-- What the program is not about stays as it is. -/
theorem Tries.frame (h : Tries env R A p Q) (hB : Stable R B) :
    Tries env R (fun s => A s ∧ B s) p fun a s => Q a s ∧ B s :=
  (Triple.frame h hB).imp (fun _ hs => hs) fun _ _ hs a ha => ⟨hs.1 a ha, hs.2⟩

/-- A program all of whose requests `R` allows. -/
theorem Meets.tries {P : ρ → Prop} {T : α → Prop} (hp : p.Meets P T) (hA : Stable R A)
    (h : ∀ r, P r → ∀ s, A s → R s (env s r).2) :
    Tries env R A p fun a s => A s ∧ T a := by
  intro s hs
  induction p generalizing s with
  | done a =>
    intro t hst b hb
    cases hb
    exact ⟨hA s t hst hs, hp⟩
  | fail e => exact fun _ _ => nofun
  | ask r next ih =>
    intro t hst
    have ht := hA s t hst hs
    have hstep := h r hp.1 t ht
    exact ⟨hstep, ih _ (hp.2 _) _ (hA t _ hstep ht)⟩

/-- A first part that `R` allows. -/
theorem Tries.after {P : ρ → Prop} {T : α → Prop} {f : α → Program answer ε β}
    {Q' : β → σ → Prop} (hrefl : ∀ s, R s s) (hp : p.Meets P T) (hA : Stable R A)
    (h : ∀ r, P r → ∀ s, A s → R s (env s r).2) (hf : ∀ a, T a → Tries env R A (f a) Q') :
    Tries env R A (p >>= f) Q' :=
  .bind hrefl (hp.tries hA h) fun a => .assume (hf a)

theorem run_attempt : run env (attempt p) s = (.ok (run env p s).1, (run env p s).2) := by
  induction p generalizing s with
  | done a => rfl
  | fail e => rfl
  | ask r next ih => exact ih _

/-! ## Several environments

A request may go to one of many environments over the same states. -/

/-- The answers to requests that name their environment. -/
abbrev Routed (answer : ρ → Type) (σ : Type) (r : Environment answer σ × ρ) : Type := answer r.2

/-- Every request goes to its environment. -/
def dispatch : Environment (Routed answer σ) σ := fun s r => r.1 s r.2

/-- The program, with all its requests to one environment. -/
def via (env : Environment answer σ) : Program answer ε α → Program (Routed answer σ) ε α
  | done a => done a
  | fail e => fail e
  | ask r next => ask (env, r) fun a => via env (next a)

theorem run_via : run dispatch (p.via env) s = run env p s := by
  induction p generalizing s with
  | done a => rfl
  | fail e => rfl
  | ask r next ih => exact ih _

theorem attempt_via : attempt (p.via env) = (attempt p).via env := by
  induction p with
  | done a => rfl
  | fail e => rfl
  | ask r next ih => exact congrArg (ask (env, r)) (funext ih)

theorem Sure.via (h : Sure env R Q p s) : Sure dispatch R Q (p.via env) s := by
  induction p generalizing s with
  | done a => exact h
  | fail e => exact h
  | ask r next ih => exact fun t hst => ⟨(h t hst).1, ih _ (h t hst).2⟩

theorem Tries.via (h : Tries env R A p Q) : Tries dispatch R A (p.via env) Q := by
  intro s hs
  rw [attempt_via]
  exact (h s hs).via

/-! ## Programs that are tried again -/

section

variable {γ τ υ : Type} {β : Type*} {grants : Nat → Bool} {mainError : List γ → γ → γ}
  {body : Nat → β → τ → Program answer ε (Attempt γ α × τ)} {n : Nat} {errors : List γ}
  {bs : List β} {r : τ}

/-- `Kit.retry`, with a program as its body. -/
def retry (grants : Nat → Bool) (mainError : List γ → γ → γ)
    (body : Nat → β → τ → Program answer ε (Attempt γ α × τ)) :
    Nat → List γ → List β → τ → Program answer ε (Outcome γ α)
  | _, _, [], _ => done .pending
  | n, errors, b :: bs, r => do
    match ← body n b r with
    | (.resolved a, _) => return .resolved a
    | (.bailed e, _) => return .rejected e
    | (.failed e, r) =>
      if grants n then retry grants mainError body (n + 1) (errors ++ [e]) bs r
      else return .rejected (mainError errors e)

/-- Alone in its environment the program comes to what `Kit.retry` comes to. -/
theorem run_retry {whole : Nat → β → υ → Attempt γ α × υ} (loop : υ → τ) (world : υ → σ)
    (h : ∀ n, ∀ b ∈ bs, ∀ v, run env (body n b (loop v)) (world v)
      = (.ok ((whole n b v).1, loop (whole n b v).2), world (whole n b v).2)) (v : υ) :
    run env (retry grants mainError body n errors bs (loop v)) (world v)
      = (.ok (Kit.retry grants mainError whole n errors bs v).1,
        world (Kit.retry grants mainError whole n errors bs v).2) := by
  induction bs generalizing n errors v with
  | nil => rfl
  | cons b bs ih =>
    have hb := h n b List.mem_cons_self v
    unfold retry
    rw [run_bind_ok hb]
    cases hwhole : whole n b v with
    | mk result u =>
      cases result with
      | resolved a =>
        rw [retry_resolved hwhole]
        rfl
      | bailed e =>
        rw [retry_bailed hwhole]
        rfl
      | failed e =>
        rw [retry_failed hwhole]
        dsimp only
        split
        · exact ih (fun n b hmem => h n b (List.mem_cons_of_mem _ hmem)) u
        · rfl

/-- What every attempt keeps, and what holds where one resolves. -/
theorem Triple.retry (hrefl : ∀ s, R s s) (hA : Stable R A) (hQ : ∀ a, Stable R (Q a))
    (hbody : ∀ n, ∀ b ∈ bs, ∀ r, Triple env R A (body n b r) fun x s =>
      A s ∧ ∀ a, x.1 = .resolved a → Q a s) :
    Triple env R A (Program.retry grants mainError body n errors bs r) fun outcome s =>
      A s ∧ ∀ a, outcome = .resolved a → Q a s := by
  have hend : ∀ outcome : Outcome γ α, Stable R fun s =>
      A s ∧ ∀ a, outcome = .resolved a → Q a s :=
    fun outcome => hA.and fun s t hst hs a ha => hQ a s t hst (hs a ha)
  induction bs generalizing n errors r with
  | nil => exact .done (hend _) fun s hs => ⟨hs, nofun⟩
  | cons b bs ih =>
    refine .bind hrefl (hbody n b List.mem_cons_self r) fun x => ?_
    obtain ⟨result, r'⟩ := x
    cases result with
    | resolved a =>
      refine .done (hend _) fun s hs => ⟨hs.1, fun a' ha => ?_⟩
      cases ha
      exact hs.2 a rfl
    | bailed e => exact .done (hend _) fun s hs => ⟨hs.1, nofun⟩
    | failed e =>
      dsimp only
      split
      · exact (ih fun n b hmem => hbody n b (List.mem_cons_of_mem _ hmem)).imp
          (fun s hs => hs.1) fun _ _ h => h
      · exact .done (hend _) fun s hs => ⟨hs.1, nofun⟩

end

end Kit.Program
