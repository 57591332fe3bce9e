import Mathlib.Tactic.Common

/-!
# Kit — Program

Programs that talk to an environment. A program ends, fails, or makes a request
and goes on with the answer; what an answer can be depends on the request. What
holds of every request in every run is proved along the program, by `Meets`, and
`all_iff` says that this is what an environment can see.
-/

namespace Kit

variable {ρ : Type} {answer : ρ → Type} {ε α β σ : Type}

/-- A program with requests `ρ`; `answer r` is the type of the answers to `r`. -/
inductive Program (answer : ρ → Type) (ε α : Type)
  | done (a : α)
  | fail (e : ε)
  | ask (r : ρ) (next : answer r → Program answer ε α)

namespace Program

def bind : Program answer ε α → (α → Program answer ε β) → Program answer ε β
  | done a, f => f a
  | fail e, _ => fail e
  | ask r next, f => ask r fun a => bind (next a) f

instance : Monad (Program answer ε) where
  pure := done
  bind := bind

/-- One request. -/
def request (r : ρ) : Program answer ε (answer r) := ask r done

def ofExcept : Except ε α → Program answer ε α
  | .ok a => done a
  | .error e => fail e

@[simp] theorem pure_eq (a : α) : (pure a : Program answer ε α) = done a := rfl

@[simp] theorem done_bind (a : α) (f : α → Program answer ε β) : done a >>= f = f a := rfl

@[simp] theorem fail_bind (e : ε) (f : α → Program answer ε β) : fail e >>= f = fail e := rfl

@[simp] theorem ask_bind (r : ρ) (next : answer r → Program answer ε α)
    (f : α → Program answer ε β) : ask r next >>= f = ask r fun a => next a >>= f := rfl

@[simp] theorem request_bind (r : ρ) (f : answer r → Program answer ε β) :
    request r >>= f = ask r f := rfl

@[simp] theorem ofExcept_ok (a : α) : (ofExcept (.ok a) : Program answer ε α) = done a := rfl

@[simp] theorem ofExcept_error (e : ε) :
    (ofExcept (.error e) : Program answer ε α) = fail e := rfl

/-! ## Runs -/

/-- An environment: the answer it gives in a state, and the state it goes to. -/
abbrev Environment (answer : ρ → Type) (σ : Type) := σ → (r : ρ) → answer r × σ

/-- How the program ends, and the state it leaves the environment in. -/
def run (env : Environment answer σ) : Program answer ε α → σ → Except ε α × σ
  | done a, s => (.ok a, s)
  | fail e, s => (.error e, s)
  | ask r next, s => run env (next (env s r).1) (env s r).2

/-- The requests of that run, in their order. -/
def requests (env : Environment answer σ) : Program answer ε α → σ → List ρ
  | done _, _ => []
  | fail _, _ => []
  | ask r next, s => r :: requests env (next (env s r).1) (env s r).2

variable {env : Environment answer σ} {p : Program answer ε α} {f : α → Program answer ε β}
  {s t : σ} {a : α} {e : ε}

@[simp] theorem run_done : run env (done a : Program answer ε α) s = (.ok a, s) := rfl

@[simp] theorem run_fail : run env (fail e : Program answer ε α) s = (.error e, s) := rfl

@[simp] theorem run_ask {r : ρ} {next : answer r → Program answer ε α} :
    run env (ask r next) s = run env (next (env s r).1) (env s r).2 := rfl

@[simp] theorem requests_done : requests env (done a : Program answer ε α) s = [] := rfl

@[simp] theorem requests_fail : requests env (fail e : Program answer ε α) s = [] := rfl

@[simp] theorem requests_ask {r : ρ} {next : answer r → Program answer ε α} :
    requests env (ask r next) s = r :: requests env (next (env s r).1) (env s r).2 := rfl

theorem run_bind_ok (h : run env p s = (.ok a, t)) : run env (p >>= f) s = run env (f a) t := by
  induction p generalizing s with
  | done b =>
    cases h
    rfl
  | fail e => cases h
  | ask r next ih => exact ih _ h

theorem run_bind_error (h : run env p s = (.error e, t)) :
    run env (p >>= f) s = (.error e, t) := by
  induction p generalizing s with
  | done b => cases h
  | fail e' =>
    cases h
    rfl
  | ask r next ih => exact ih _ h

/-- A program that ends has come through its first part. -/
theorem run_bind_eq_ok {b : β} {u : σ} (h : run env (p >>= f) s = (.ok b, u)) :
    ∃ a t, run env p s = (.ok a, t) ∧ run env (f a) t = (.ok b, u) := by
  cases hp : run env p s with
  | mk result t =>
    cases result with
    | ok a => exact ⟨a, t, rfl, by rwa [run_bind_ok hp] at h⟩
    | error e =>
      rw [run_bind_error hp] at h
      cases h

@[simp] theorem run_ofExcept {x : Except ε α} :
    run env (ofExcept x : Program answer ε α) s = (x, s) := by
  cases x <;> rfl

theorem run_ofExcept_eq_ok {x : Except ε α} (h : run env (ofExcept x) s = (.ok a, t)) :
    x = .ok a ∧ s = t := by
  rw [run_ofExcept] at h
  exact Prod.mk.inj h

@[simp] theorem requests_ofExcept {x : Except ε α} :
    requests env (ofExcept x : Program answer ε α) s = [] := by
  cases x <;> rfl

theorem requests_bind_ok (h : run env p s = (.ok a, t)) :
    requests env (p >>= f) s = requests env p s ++ requests env (f a) t := by
  induction p generalizing s with
  | done b =>
    cases h
    rfl
  | fail e => cases h
  | ask r next ih =>
    rw [ask_bind, requests_ask, requests_ask, List.cons_append]
    exact congrArg _ (ih _ h)

/-- The rest of a program makes its requests where the first part ends. -/
theorem requests_bind : requests env (p >>= f) s = requests env p s ++
    match run env p s with
    | (.ok a, t) => requests env (f a) t
    | (.error _, _) => [] := by
  induction p generalizing s with
  | done a => rfl
  | fail e => rfl
  | ask r next ih => exact congrArg _ (ih _)

/-- The program makes these requests, one after the other, and ends with `a` in the state `t`. -/
structure Traces (env : Environment answer σ) (p : Program answer ε α) (s : σ) (rs : List ρ)
    (a : α) (t : σ) : Prop where
  run : Program.run env p s = (.ok a, t)
  requests : Program.requests env p s = rs

theorem Traces.done : Traces env (done a : Program answer ε α) s [] a s := ⟨rfl, rfl⟩

theorem Traces.ask {r : ρ} {next : answer r → Program answer ε α} {rs : List ρ}
    (h : Traces env (next (env s r).1) (env s r).2 rs a t) :
    Traces env (ask r next) s (r :: rs) a t where
  run := h.run
  requests := congrArg _ h.requests

theorem Traces.request {r : ρ} :
    Traces env (request r : Program answer ε (answer r)) s [r] (env s r).1 (env s r).2 := ⟨rfl, rfl⟩

/-- A request whose answer is the result. -/
theorem Traces.await {r : ρ} {g : answer r → Except ε α} (h : g (env s r).1 = .ok a) :
    Traces env (Program.request r >>= fun x => ofExcept (g x)) s [r] a (env s r).2 := by
  rw [request_bind]
  refine .ask ?_
  rw [h]
  exact .done

theorem Traces.bind {rs rs' : List ρ} {b : β} {u : σ} (h : Traces env p s rs a t)
    (hf : Traces env (f a) t rs' b u) : Traces env (p >>= f) s (rs ++ rs') b u where
  run := (run_bind_ok h.run).trans hf.run
  requests := by rw [requests_bind_ok h.run, h.requests, hf.requests]

/-! ## What every request satisfies -/

/-- `P` holds of every request the program can come to make, and `Q` of what it can end with. -/
def Meets (P : ρ → Prop) (Q : α → Prop) : Program answer ε α → Prop
  | done a => Q a
  | fail _ => True
  | ask r next => P r ∧ ∀ a, Meets P Q (next a)

/-- `P` holds of every request the program can come to make. -/
abbrev All (P : ρ → Prop) (p : Program answer ε α) : Prop := p.Meets P fun _ => True

variable {P P' : ρ → Prop} {Q Q' : α → Prop} {R : β → Prop}

@[simp] theorem meets_done : Meets P Q (done a : Program answer ε α) ↔ Q a := Iff.rfl

@[simp] theorem meets_fail : Meets P Q (fail e : Program answer ε α) := trivial

@[simp] theorem meets_ask {r : ρ} {next : answer r → Program answer ε α} :
    Meets P Q (ask r next) ↔ P r ∧ ∀ a, Meets P Q (next a) := Iff.rfl

theorem meets_ofExcept {x : Except ε α} (h : ∀ a, x = .ok a → Q a) :
    Meets P Q (ofExcept x : Program answer ε α) := by
  cases x with
  | ok a => exact h a rfl
  | error e => trivial

theorem Meets.bind (hp : Meets P Q p) (hf : ∀ a, Q a → Meets P R (f a)) :
    Meets P R (p >>= f) := by
  induction p with
  | done a => exact hf a hp
  | fail e => trivial
  | ask r next ih => exact ⟨hp.1, fun a => ih a (hp.2 a)⟩

theorem Meets.mono (hP : ∀ r, P r → P' r) (hQ : ∀ a, Q a → Q' a) (hp : Meets P Q p) :
    Meets P' Q' p := by
  induction p with
  | done a => exact hQ a hp
  | fail e => trivial
  | ask r next ih => exact ⟨hP r hp.1, fun a => ih a (hp.2 a)⟩

theorem Meets.all (hp : Meets P Q p) : All P p := hp.mono (fun _ h => h) fun _ _ => trivial

/-- What holds of the requests of a program holds of those of its first part. -/
theorem All.of_bind (h : All P (p >>= f)) : All P p := by
  induction p with
  | done a => trivial
  | fail e => trivial
  | ask r next ih => exact ⟨h.1, fun a => ih a (h.2 a)⟩

/-- What holds of the requests of a program holds of those of its rest, as it is in a run. -/
theorem All.of_bind_run (h : All P (p >>= f)) (hp : run env p s = (.ok a, t)) : All P (f a) := by
  induction p generalizing s with
  | done b =>
    cases hp
    exact h
  | fail e => cases hp
  | ask r next ih => exact ih _ (h.2 _) hp

theorem Meets.requests (hp : Meets P Q p) : ∀ r ∈ requests env p s, P r := by
  induction p generalizing s with
  | done a => simp
  | fail e => simp
  | ask r next ih =>
    intro r' hr'
    rcases List.mem_cons.mp hr' with rfl | hr'
    · exact hp.1
    · exact ih _ (hp.2 _) r' hr'

theorem Meets.result (hp : Meets P Q p) (h : run env p s = (.ok a, t)) : Q a := by
  induction p generalizing s with
  | done b =>
    cases h
    exact hp
  | fail e => cases h
  | ask r next ih => exact ih _ (hp.2 _) h

/-- A program that may ask for nothing asks for nothing. -/
theorem requests_eq_nil (hp : p.All fun _ => False) : Program.requests env p s = [] :=
  List.eq_nil_iff_forall_not_mem.mpr hp.requests

theorem requests_bind_eq_left (hf : ∀ a, (f a).All fun _ => False) :
    Program.requests env (p >>= f) s = Program.requests env p s := by
  induction p generalizing s with
  | done a => exact requests_eq_nil (hf a)
  | fail e => rfl
  | ask r next ih =>
    rw [ask_bind, requests_ask, requests_ask]
    exact congrArg _ (ih _)

/-- The same of the requests that `g` picks out. -/
theorem filterMap_requests_bind_eq_left {κ : Type} {g : ρ → Option κ}
    (hf : ∀ a, (f a).All fun r => g r = none) :
    (Program.requests env (p >>= f) s).filterMap g = (Program.requests env p s).filterMap g := by
  have hnone : ∀ a t, (Program.requests env (f a) t).filterMap g = [] := fun a t =>
    List.filterMap_eq_nil_iff.mpr (hf a).requests
  rw [requests_bind, List.filterMap_append]
  cases hp : Program.run env p s with
  | mk result t =>
    cases result with
    | ok a => rw [hnone, List.append_nil]
    | error e => rw [List.filterMap_nil, List.append_nil]

/-- The environment that gives `a` as its first answer and then goes on as `env`. -/
private noncomputable def answerFirst [∀ r, Inhabited (answer r)] (env : Environment answer σ)
    (s : σ) {r : ρ} (a : answer r) : Environment answer (Option σ)
  | none, r' => by
    classical
    exact (if h : r' = r then h ▸ a else default, some s)
  | some t, r' => ((env t r').1, some (env t r').2)

private theorem requests_answerFirst_some [∀ r, Inhabited (answer r)] {r : ρ} {a : answer r} :
    Program.requests (answerFirst env t a) p (some s) = Program.requests env p s := by
  induction p generalizing s with
  | done b => rfl
  | fail e => rfl
  | ask r' next ih =>
    rw [requests_ask, requests_ask]
    exact congrArg _ (ih _)

/-- `All` is what no environment can refute. -/
theorem all_iff [∀ r, Inhabited (answer r)] :
    All P p ↔ ∀ (σ : Type) (env : Environment answer σ) (s : σ),
      ∀ r ∈ Program.requests env p s, P r := by
  refine ⟨fun hp σ env s => hp.requests, fun h => ?_⟩
  induction p with
  | done a => trivial
  | fail e => trivial
  | ask r next ih =>
    refine ⟨h Unit (fun _ _ => (default, ())) () r (by simp), fun a => ih a ?_⟩
    intro σ env s r' hr'
    refine h (Option σ) (answerFirst env s a) none r' ?_
    rw [requests_ask, List.mem_cons]
    have hfirst : (answerFirst env s a none r) = (a, some s) := by simp [answerFirst]
    rw [hfirst, requests_answerFirst_some]
    exact .inr hr'

/-! ## Runs that end -/

/-- The program ends with `a` in the state `t`, and `P` holds of its requests on the way. -/
structure Ends (env : Environment answer σ) (P : ρ → Prop) (p : Program answer ε α) (s : σ)
    (a : α) (t : σ) : Prop where
  run : Program.run env p s = (.ok a, t)
  all : ∀ r ∈ Program.requests env p s, P r

theorem Ends.done : Ends env P (done a : Program answer ε α) s a s := ⟨rfl, by simp⟩

theorem Ends.request {r : ρ} (h : P r) :
    Ends env P (request r : Program answer ε (answer r)) s (env s r).1 (env s r).2 :=
  ⟨rfl, fun r' hr' => by
    rw [List.mem_singleton.mp hr']
    exact h⟩

theorem Ends.bind {b : β} {u : σ} (hp : Ends env P p s a t) (hf : Ends env P (f a) t b u) :
    Ends env P (p >>= f) s b u where
  run := (run_bind_ok hp.run).trans hf.run
  all := fun r hr => by
    rw [requests_bind_ok hp.run] at hr
    exact (List.mem_append.mp hr).elim (hp.all r) (hf.all r)

theorem Meets.ends (hp : Meets P Q p) (h : Program.run env p s = (.ok a, t)) :
    Ends env P p s a t := ⟨h, hp.requests⟩

/-- What requests with `P` do not change is the same at the end. -/
theorem Ends.preserves {γ : Type} {v : σ → γ} (h : Ends env P p s a t)
    (hv : ∀ s r, P r → v (env s r).2 = v s) : v t = v s := by
  obtain ⟨hrun, hall⟩ := h
  induction p generalizing s with
  | done b =>
    cases hrun
    rfl
  | fail e => cases hrun
  | ask r next ih =>
    rw [requests_ask] at hall
    have hnext := ih _ hrun fun r' hr' => hall r' (List.mem_cons_of_mem r hr')
    exact hnext.trans (hv s r (hall r List.mem_cons_self))

/-- Where `g` picks out no request with `P`, it picks out those of the rest. -/
theorem Ends.filterMap_requests_bind {κ : Type} {g : ρ → Option κ} (h : Ends env P p s a t)
    (hg : ∀ r, P r → g r = none) :
    (Program.requests env (p >>= f) s).filterMap g
      = (Program.requests env (f a) t).filterMap g := by
  have hnone : (Program.requests env p s).filterMap g = [] :=
    List.filterMap_eq_nil_iff.mpr fun r hr => hg r (h.all r hr)
  rw [requests_bind_ok h.run, List.filterMap_append, hnone, List.nil_append]

/-- The state after some requests. -/
def after (env : Environment answer σ) (s : σ) (rs : List ρ) : σ :=
  rs.foldl (fun s r => (env s r).2) s

theorem after_preserves {γ : Type} {v : σ → γ} {rs : List ρ} (h : ∀ r ∈ rs, P r)
    (hv : ∀ s r, P r → v (env s r).2 = v s) : v (after env s rs) = v s := by
  induction rs generalizing s with
  | nil => rfl
  | cons r rs ih =>
    have hrs := ih (s := (env s r).2) fun r' hr' => h r' (List.mem_cons_of_mem r hr')
    exact hrs.trans (hv s r (h r List.mem_cons_self))

/-! ## One environment -/

/-- In this environment `P` holds of every request of the program, and `Q` of what it ends with. -/
def MeetsIn (env : Environment answer σ) (P : ρ → Prop) (Q : α → Prop) (p : Program answer ε α) :
    Prop :=
  ∀ s, (∀ r ∈ requests env p s, P r) ∧ ∀ a t, run env p s = (.ok a, t) → Q a

theorem Meets.meetsIn (hp : Meets P Q p) : MeetsIn env P Q p :=
  fun _ => ⟨hp.requests, fun _ _ => hp.result⟩

theorem MeetsIn.request {r : ρ} {Q : answer r → Prop} (hr : P r) (ha : ∀ s, Q (env s r).1) :
    MeetsIn env P Q (request r : Program answer ε (answer r)) := by
  intro s
  refine ⟨fun r' hr' => ?_, fun a t hrun => ?_⟩
  · rw [List.mem_singleton.mp hr']
    exact hr
  · cases hrun
    exact ha s

theorem MeetsIn.bind (hp : MeetsIn env P Q p) (hf : ∀ a, Q a → MeetsIn env P R (f a)) :
    MeetsIn env P R (p >>= f) := by
  intro s
  cases hrun : run env p s with
  | mk x t =>
    cases x with
    | error e =>
      rw [requests_bind, hrun, run_bind_error hrun, List.append_nil]
      exact ⟨(hp s).1, by simp⟩
    | ok a =>
      have hrest := hf a ((hp s).2 a t hrun) t
      rw [requests_bind_ok hrun, run_bind_ok hrun]
      refine ⟨fun r hr => ?_, hrest.2⟩
      rcases List.mem_append.mp hr with hr | hr
      · exact (hp s).1 r hr
      · exact hrest.1 r hr

end Program

end Kit
