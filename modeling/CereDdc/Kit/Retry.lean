import Mathlib.Tactic.Common

/-!
# Kit — Retry

A bounded retry loop in the style of `async-retry`: the body is run with
attempt numbers `1, 2, …` until it resolves, bails out, or a failure finds no
attempt left. What the environment does at each attempt is one element of a
list; a run that uses the list up is still pending, so an unbounded loop has
its finite prefixes here.
-/

namespace Kit

variable {ε α β σ : Type*}

/-- How one attempt of the body ends: `failed` may be retried, `bailed` may not. -/
inductive Attempt (ε α : Type*)
  | resolved (a : α)
  | failed (e : ε)
  | bailed (e : ε)

/-- How the loop stands after the attempts that took place. -/
inductive Outcome (ε α : Type*)
  | pending
  | resolved (a : α)
  | rejected (e : ε)

/-- The loop itself. `grants n` tells whether another attempt follows when attempt
`n` fails, and `mainError` picks the error of the rejection among the collected
ones. -/
def retry (grants : Nat → Bool) (mainError : List ε → ε → ε)
    (body : Nat → β → σ → Attempt ε α × σ) : Nat → List ε → List β → σ → Outcome ε α × σ
  | _, _, [], s => (.pending, s)
  | n, errors, b :: bs, s =>
    match body n b s with
    | (.resolved a, t) => (.resolved a, t)
    | (.bailed e, t) => (.rejected e, t)
    | (.failed e, t) =>
      if grants n then retry grants mainError body (n + 1) (errors ++ [e]) bs t
      else (.rejected (mainError errors e), t)

variable {grants : Nat → Bool} {mainError : List ε → ε → ε}
  {body : Nat → β → σ → Attempt ε α × σ} {n : Nat} {errors : List ε} {b : β} {bs : List β}
  {s t : σ} {a : α} {e : ε}

@[simp] theorem retry_nil : retry grants mainError body n errors [] s = (.pending, s) := rfl

theorem retry_resolved (h : body n b s = (.resolved a, t)) :
    retry grants mainError body n errors (b :: bs) s = (.resolved a, t) := by
  simp [retry, h]

theorem retry_bailed (h : body n b s = (.bailed e, t)) :
    retry grants mainError body n errors (b :: bs) s = (.rejected e, t) := by
  simp [retry, h]

theorem retry_failed (h : body n b s = (.failed e, t)) :
    retry grants mainError body n errors (b :: bs) s =
      if grants n then retry grants mainError body (n + 1) (errors ++ [e]) bs t
      else (.rejected (mainError errors e), t) := by
  simp [retry, h]

/-- What every attempt keeps, the loop keeps, however it ends. -/
theorem retry_invariant {I : σ → Prop} (hbody : ∀ n b s, I s → I (body n b s).2) (hs : I s) :
    I (retry grants mainError body n errors bs s).2 := by
  induction bs generalizing n errors s with
  | nil => exact hs
  | cons b bs ih =>
    have hI := hbody n b s hs
    cases hb : body n b s with
    | mk r u =>
      rw [hb] at hI
      cases r with
      | resolved a =>
        rw [retry_resolved hb]
        exact hI
      | bailed e =>
        rw [retry_bailed hb]
        exact hI
      | failed e =>
        rw [retry_failed hb]
        by_cases hg : grants n
        · rw [if_pos hg]
          exact ih hI
        · rw [if_neg hg]
          exact hI

/-! ## The attempts that take place -/

/-- An attempt: its number, what the environment did, the state before it, and how it ended. -/
structure AttemptMade (ε α β σ : Type*) where
  number : Nat
  turn : β
  before : σ
  result : Attempt ε α

/-- The attempts of the loop. -/
def attempts (grants : Nat → Bool) (body : Nat → β → σ → Attempt ε α × σ) :
    Nat → List β → σ → List (AttemptMade ε α β σ)
  | _, [], _ => []
  | n, b :: bs, s =>
    ⟨n, b, s, (body n b s).1⟩ ::
      match body n b s with
      | (.failed _, t) => if grants n then attempts grants body (n + 1) bs t else []
      | _ => []

@[simp] theorem attempts_nil : attempts grants body n [] s = [] := rfl

theorem attempts_failed (h : body n b s = (.failed e, t)) :
    attempts grants body n (b :: bs) s = ⟨n, b, s, .failed e⟩ ::
      if grants n then attempts grants body (n + 1) bs t else [] := by
  simp [attempts, h]

theorem attempts_resolved (h : body n b s = (.resolved a, t)) :
    attempts grants body n (b :: bs) s = [⟨n, b, s, .resolved a⟩] := by
  simp [attempts, h]

theorem attempts_bailed (h : body n b s = (.bailed e, t)) :
    attempts grants body n (b :: bs) s = [⟨n, b, s, .bailed e⟩] := by
  simp [attempts, h]

/-- What the attempts say about the outcome, after `errors` have been collected. -/
inductive Ended (mainError : List ε → ε → ε) :
    List ε → List (AttemptMade ε α β σ) → Outcome ε α → Prop
  | pending {errors : List ε} : Ended mainError errors [] .pending
  | resolved {errors : List ε} {made : AttemptMade ε α β σ} {a : α} :
    made.result = .resolved a → Ended mainError errors [made] (.resolved a)
  | bailed {errors : List ε} {made : AttemptMade ε α β σ} {e : ε} :
    made.result = .bailed e → Ended mainError errors [made] (.rejected e)
  | exhausted {errors : List ε} {made : AttemptMade ε α β σ} {e : ε} :
    made.result = .failed e → Ended mainError errors [made] (.rejected (mainError errors e))
  | failed {errors : List ε} {made : AttemptMade ε α β σ} {e : ε}
    {rest : List (AttemptMade ε α β σ)} {outcome : Outcome ε α} :
    made.result = .failed e → Ended mainError (errors ++ [e]) rest outcome →
      Ended mainError errors (made :: rest) outcome

theorem retry_ended : Ended mainError errors (attempts grants body n bs s)
    (retry grants mainError body n errors bs s).1 := by
  induction bs generalizing n errors s with
  | nil => exact .pending
  | cons b bs ih =>
    cases hb : body n b s with
    | mk r t =>
      cases r with
      | resolved a =>
        rw [attempts_resolved hb, retry_resolved hb]
        exact .resolved rfl
      | bailed e =>
        rw [attempts_bailed hb, retry_bailed hb]
        exact .bailed rfl
      | failed e =>
        rw [attempts_failed hb, retry_failed hb]
        by_cases hg : grants n
        · rw [if_pos hg, if_pos hg]
          exact .failed rfl ih
        · rw [if_neg hg, if_neg hg]
          exact .exhausted rfl

section Ended

variable {made : AttemptMade ε α β σ} {ms : List (AttemptMade ε α β σ)} {outcome : Outcome ε α}

/-- The attempts that fail are not the last ones: where each attempt does something and comes to a
final thing last, and only if it does not fail, nothing is done after a final thing. -/
theorem Ended.final_last {κ : Type*} {calls : AttemptMade ε α β σ → List κ} {Final : κ → Prop}
    (h : Ended mainError errors ms outcome)
    (hlast : ∀ made ∈ ms, ∀ pre c post, calls made = pre ++ c :: post → Final c → post = [])
    (hfailed : ∀ made ∈ ms, ∀ e, made.result = .failed e → ∀ c ∈ calls made, ¬ Final c)
    {pre post : List κ} {c : κ} (hcalls : ms.flatMap calls = pre ++ c :: post)
    (hfinal : Final c) : post = [] := by
  induction h generalizing pre with
  | pending => simp at hcalls
  | resolved _ | bailed _ | exhausted _ =>
    rw [List.flatMap_singleton] at hcalls
    exact hlast _ (List.mem_singleton_self _) _ _ _ hcalls hfinal
  | @failed errors made e rest outcome hresult _ ih =>
    have hnot := hfailed made List.mem_cons_self e hresult
    have hrest := @ih (fun made hmade => hlast made (List.mem_cons_of_mem _ hmade))
      (fun made hmade => hfailed made (List.mem_cons_of_mem _ hmade))
    rw [List.flatMap_cons, List.append_eq_append_iff] at hcalls
    obtain ⟨middle, -, hmiddle⟩ | ⟨middle, hmiddle, hsplit⟩ := hcalls
    · exact hrest hmiddle
    · cases middle with
      | nil => exact @hrest [] hsplit.symm
      | cons c' middle =>
        rw [List.cons_append, List.cons.injEq] at hsplit
        exact absurd hfinal (hnot c (by simp [hmiddle, hsplit.1]))

/-- An attempt that resolves is what the loop resolves with. -/
theorem Ended.resolved_of_mem (h : Ended mainError errors ms outcome) (hmade : made ∈ ms)
    (hresult : made.result = .resolved a) : outcome = .resolved a := by
  induction h with
  | pending => cases hmade
  | resolved hlast =>
    rw [List.mem_singleton.mp hmade, hlast] at hresult
    cases hresult
    rfl
  | bailed hlast =>
    rw [List.mem_singleton.mp hmade, hlast] at hresult
    cases hresult
  | exhausted hlast =>
    rw [List.mem_singleton.mp hmade, hlast] at hresult
    cases hresult
  | failed hfailed _ ih =>
    rcases List.mem_cons.mp hmade with rfl | hmade
    · rw [hfailed] at hresult
      cases hresult
    · exact ih hmade

theorem Ended.mem_of_resolved (h : Ended mainError errors ms (.resolved a)) :
    ∃ made ∈ ms, made.result = .resolved a := by
  generalize houtcome : Outcome.resolved a = outcome at h
  induction h with
  | pending => cases houtcome
  | resolved hlast =>
    cases houtcome
    exact ⟨_, List.mem_singleton_self _, hlast⟩
  | bailed _ => cases houtcome
  | exhausted _ => cases houtcome
  | failed _ _ ih =>
    obtain ⟨made, hmade, hresult⟩ := ih houtcome
    exact ⟨made, List.mem_cons_of_mem _ hmade, hresult⟩

/-- The loop rejects with an error that was collected before, or with one of an attempt. -/
theorem Ended.mem_of_rejected (hmain : ∀ errors e, mainError errors e ∈ errors ++ [e])
    (h : Ended mainError errors ms (.rejected e)) :
    e ∈ errors ∨ ∃ made ∈ ms, made.result = .failed e ∨ made.result = .bailed e := by
  generalize houtcome : Outcome.rejected e = outcome at h
  induction h with
  | pending => cases houtcome
  | resolved _ => cases houtcome
  | bailed hlast =>
    cases houtcome
    exact .inr ⟨_, List.mem_singleton_self _, .inr hlast⟩
  | @exhausted errors made e' hlast =>
    cases houtcome
    rcases List.mem_append.mp (hmain errors e') with hmem | hmem
    · exact .inl hmem
    · refine .inr ⟨made, List.mem_singleton_self _, .inl ?_⟩
      rw [hlast, List.mem_singleton.mp hmem]
  | failed hfailed _ ih =>
    rcases ih houtcome with hmem | ⟨made, hmade, hresult⟩
    · rcases List.mem_append.mp hmem with hmem | hmem
      · exact .inl hmem
      · refine .inr ⟨_, List.mem_cons_self, .inl ?_⟩
        rw [hfailed, List.mem_singleton.mp hmem]
    · exact .inr ⟨made, List.mem_cons_of_mem _ hmade, hresult⟩

end Ended

/-- With `r` retries granted there are at most `r + 1` attempts. -/
theorem length_attempts_le {r : Nat} (h : ∀ k, grants k → k ≤ r) (hn : n ≤ r + 1) :
    (attempts grants body n bs s).length ≤ r + 2 - n := by
  induction bs generalizing n s with
  | nil => simp
  | cons b bs ih =>
    cases hb : body n b s with
    | mk result t =>
      cases result with
      | resolved a =>
        rw [attempts_resolved hb, List.length_singleton]
        omega
      | bailed e =>
        rw [attempts_bailed hb, List.length_singleton]
        omega
      | failed e =>
        rw [attempts_failed hb, List.length_cons]
        by_cases hg : grants n
        · have hle := h n hg
          have hrest := @ih (n + 1) t (by omega)
          rw [if_pos hg]
          omega
        · rw [if_neg hg, List.length_nil]
          omega

section History

variable {P : List (AttemptMade ε α β σ) → σ → Prop} {made : AttemptMade ε α β σ}
  {ms pre post : List (AttemptMade ε α β σ)}

private theorem attempts_history_from
    (hstep : ∀ ms n b s, P ms s → P (ms ++ [⟨n, b, s, (body n b s).1⟩]) (body n b s).2)
    (hs : P ms s) (h : attempts grants body n bs s = pre ++ made :: post) :
    P (ms ++ pre) made.before ∧ made.result = (body made.number made.turn made.before).1 := by
  induction bs generalizing n s ms pre with
  | nil => simp at h
  | cons b bs ih =>
    cases pre with
    | nil =>
      rw [attempts, List.nil_append, List.cons.injEq] at h
      obtain ⟨rfl, -⟩ := h
      exact ⟨by rwa [List.append_nil], rfl⟩
    | cons first pre =>
      rw [attempts, List.cons_append, List.cons.injEq] at h
      obtain ⟨rfl, hrest⟩ := h
      have hnext := hstep ms n b s hs
      cases hb : body n b s with
      | mk result t =>
        rw [hb] at hrest hnext
        cases result with
        | resolved a => simp at hrest
        | bailed e => simp at hrest
        | failed e =>
          by_cases hg : grants n
          · simp only [if_pos hg] at hrest
            have hlater := ih hnext hrest
            rwa [List.append_assoc] at hlater
          · simp [hg] at hrest

/-- What each attempt keeps true of the attempts so far and the state holds before every
attempt. -/
theorem attempts_history
    (hstep : ∀ ms n b s, P ms s → P (ms ++ [⟨n, b, s, (body n b s).1⟩]) (body n b s).2)
    (hs : P [] s) (h : attempts grants body n bs s = pre ++ made :: post) :
    P pre made.before ∧ made.result = (body made.number made.turn made.before).1 :=
  attempts_history_from hstep hs h

end History

end Kit
