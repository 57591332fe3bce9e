import CereDdc.Router

/-!
# RouterChain — the chain of `sdkTokenPromise`

What is true of the chained promises in every state of a router: a call has been
checked only when its signer was ready and the promise before it had resolved,
and the token it reuses is the one that promise gave.
-/

namespace CereDdc

open Kit (Outcome)

/-! ## The callback -/

section Callback

variable {account : Account} {isWeb3 : Bool} {now : Int} {before : Trace}
  {previous : Option AuthToken} {token : AuthToken} {call : Call}

theorem getSdkToken_of_valid (h : isValidSdkToken account token = true) :
    getSdkToken account isWeb3 now (some token) = .reused token := by
  simp [getSdkToken, h]

theorem getSdkToken_of_invalid
    (h : ∀ token, previous = some token → isValidSdkToken account token = false) :
    getSdkToken account isWeb3 now previous
      = .creating (Creation.createSdkToken account isWeb3 now) := by
  cases previous with
  | none => rfl
  | some token => simp [getSdkToken, h token rfl]

/-- The callback either finds a valid token or starts to make one. -/
theorem getSdkToken_cases (account : Account) (isWeb3 : Bool) (now : Int)
    (previous : Option AuthToken) :
    (∃ token, previous = some token ∧ isValidSdkToken account token = true ∧
      getSdkToken account isWeb3 now previous = .reused token) ∨
    (∀ token, previous = some token → isValidSdkToken account token = false) ∧
      getSdkToken account isWeb3 now previous
        = .creating (Creation.createSdkToken account isWeb3 now) := by
  cases previous with
  | none => exact .inr ⟨by simp, rfl⟩
  | some token =>
    by_cases hvalid : isValidSdkToken account token = true
    · exact .inl ⟨token, rfl, hvalid, getSdkToken_of_valid hvalid⟩
    · rw [Bool.not_eq_true] at hvalid
      have hinvalid : ∀ t, some token = some t → isValidSdkToken account t = false := by
        intro t ht
        cases ht
        exact hvalid
      exact .inr ⟨hinvalid, getSdkToken_of_invalid hinvalid⟩

@[simp] theorem Call.check_phase :
    (call.check account isWeb3 now before previous).phase
      = getSdkToken account isWeb3 now previous := rfl

end Callback

@[simp] theorem Call.ask_phase (account : Account) (call : Call) :
    (call.ask account).phase = call.phase := rfl

@[simp] theorem Call.switch_phase (call : Call) : call.switch.phase = call.phase := by
  unfold Call.switch
  split <;> rfl

@[simp] theorem Call.switch_isReady (call : Call) : call.switch.isReady = call.isReady := by
  unfold Call.switch
  split <;> rfl

@[simp] theorem Call.switch_calledAt (call : Call) : call.switch.calledAt = call.calledAt := by
  unfold Call.switch
  split <;> rfl

theorem CallPhase.checked_of_resolved {phase : CallPhase} {token : AuthToken}
    (h : phase.outcome = .resolved token) : phase.checked = true := by
  cases phase with
  | waiting => cases h
  | reused t => rfl
  | creating creation => rfl
  | failed error => cases h

/-! ## The promise before a call -/

namespace RouterState

variable {s t u : RouterState} {l : RouterEvent} {ls : List RouterEvent} {k : Nat} {call : Call}
  {previous : Option AuthToken} {token : AuthToken} {error : JsError}

theorem previous_succ_eq_resolved :
    s.previous (k + 1) = .resolved previous ↔
      ∃ call token, s.calls[k]? = some call ∧ call.phase.outcome = .resolved token ∧
        previous = some token := by
  cases hcall : s.calls[k]? with
  | none => simp [RouterState.previous, hcall]
  | some call =>
    cases hphase : call.phase.outcome with
    | pending => simp [RouterState.previous, hcall, hphase]
    | resolved token => simp [RouterState.previous, hcall, hphase, eq_comm]
    | rejected error => simp [RouterState.previous, hcall, hphase]

theorem previous_eq_some (h : s.previous k = .resolved (some token)) :
    ∃ j call, k = j + 1 ∧ s.calls[j]? = some call ∧ call.phase.outcome = .resolved token := by
  cases k with
  | zero => cases h
  | succ j =>
    obtain ⟨call, token', hcall, houtcome, htoken⟩ := previous_succ_eq_resolved.mp h
    cases htoken
    exact ⟨j, call, rfl, hcall, houtcome⟩

theorem previous_succ_eq_rejected :
    s.previous (k + 1) = .rejected error ↔
      ∃ call, s.calls[k]? = some call ∧ call.phase.outcome = .rejected error := by
  cases hcall : s.calls[k]? with
  | none => simp [RouterState.previous, hcall]
  | some call =>
    cases hphase : call.phase.outcome with
    | pending => simp [RouterState.previous, hcall, hphase]
    | resolved token => simp [RouterState.previous, hcall, hphase]
    | rejected error => simp [RouterState.previous, hcall, hphase]

/-- A promise that has resolved stays so. -/
theorem Step.previous_resolved (hstep : Step s l t) (h : s.previous k = .resolved previous) :
    t.previous k = .resolved previous := by
  cases k with
  | zero => exact h
  | succ k =>
    obtain ⟨call, token, hcall, houtcome, rfl⟩ := previous_succ_eq_resolved.mp h
    obtain ⟨later, hlater, hfollows⟩ := hstep.follows hcall
    exact previous_succ_eq_resolved.mpr ⟨later, token, hlater, hfollows.outcome houtcome, rfl⟩

/-! ## The invariant -/

/-- A checked call found its signer ready and the promise before it resolved, and a token it
reuses is the one of that promise. -/
def Linked (s : RouterState) : Prop :=
  ∀ k call, s.calls[k]? = some call → call.phase.checked = true →
    call.isReady = some (.ok ()) ∧
      ∃ previous, s.previous k = .resolved previous ∧
        ∀ token, call.phase = .reused token → previous = some token

theorem Linked.step (hs : s.Linked) (h : Step s l t) : t.Linked := by
  intro k call hk hchecked
  cases h.callStep hk with
  | new hl hlength => cases hchecked
  | kept hcall hl =>
    obtain ⟨hready, previous, hprevious, hreused⟩ := hs k call hcall hchecked
    exact ⟨hready, previous, h.previous_resolved hprevious, hreused⟩
  | ready hl hcall hready =>
    -- a checked call has nothing to become ready for
    rw [(hs k _ hcall hchecked).1] at hready
    cases hready
  | @check previous old hl hcall hphase hready hprevious =>
    refine ⟨hready, previous, h.previous_resolved hprevious, ?_⟩
    intro token htoken
    rw [Call.check_phase] at htoken
    rcases getSdkToken_cases s.account s.isWeb3 s.now previous with
      ⟨token', hsome, -, heq⟩ | ⟨-, heq⟩
    · rw [heq] at htoken
      cases htoken
      exact hsome
    · rw [heq] at htoken
      cases htoken
  | failed hl hcall hphase hcause => cases hchecked
  | create hl hcall hphase hnext =>
    obtain ⟨hready, previous, hprevious, -⟩ := hs k _ hcall (by rw [hphase]; rfl)
    refine ⟨hready, previous, h.previous_resolved hprevious, ?_⟩
    intro token htoken
    cases htoken
  | asked hl hcall hphase hasked =>
    obtain ⟨hready, previous, hprevious, hreused⟩ := hs k _ hcall (by rw [hphase]; rfl)
    exact ⟨hready, previous, h.previous_resolved hprevious, hreused⟩
  | switched hl hcall =>
    rw [Call.switch_phase] at hchecked
    obtain ⟨hready, previous, hprevious, hreused⟩ := hs k _ hcall hchecked
    exact ⟨by simpa using hready, previous, h.previous_resolved hprevious, by simpa using hreused⟩

/-- A router as its constructor leaves it. -/
def new (now : Int) (isWeb3 : Bool) (account : Account) : RouterState := { now, isWeb3, account }

theorem new_linked (now : Int) (isWeb3 : Bool) (account : Account) :
    (new now isWeb3 account).Linked := by
  intro k call hcall
  cases hcall

theorem run_linked (hs : s.Linked) (h : Kit.run step s ls = some t) : t.Linked :=
  Kit.run_invariant (fun _ _ _ hs h => Linked.step hs (Step.of_step h)) hs h

/-- The calls before a checked one have all resolved. -/
theorem Linked.resolved_of_lt {i : Nat} (hs : s.Linked) (hk : s.calls[k]? = some call)
    (hchecked : call.phase.checked = true) (hi : i < k) :
    ∃ earlier token, s.calls[i]? = some earlier ∧ earlier.phase.outcome = .resolved token := by
  induction k generalizing call with
  | zero => omega
  | succ k ih =>
    obtain ⟨-, previous, hprevious, -⟩ := hs (k + 1) call hk hchecked
    obtain ⟨earlier, token, hearlier, houtcome, -⟩ := previous_succ_eq_resolved.mp hprevious
    by_cases hik : i = k
    · subst hik
      exact ⟨earlier, token, hearlier, houtcome⟩
    · exact ih hearlier (CallPhase.checked_of_resolved houtcome) (by omega)

end RouterState

end CereDdc
