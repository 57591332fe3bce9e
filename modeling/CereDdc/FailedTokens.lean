import CereDdc.RouterChain

/-!
# FailedTokens — a router after a failure

A promise that is rejected stays in `sdkTokenPromise` and rejects every promise
chained to it. So a call of `getNode` gets its token exactly when nothing has
failed before it, however well the signer works by then.
-/

namespace CereDdc

open Kit (ReachesBy)

namespace RouterState

variable {s t u : RouterState} {l : RouterEvent} {ls : List RouterEvent} {i j k : Nat} {call : Call}
  {account : Account} {token : AuthToken}

/-- The signer does not fail in this event. -/
def Succeeds : RouterEvent → Prop
  | .ready _ result => result = .ok ()
  | .create _ event => event.Succeeds
  | .switch account => account.Works
  | _ => True

/-- Call `i` has a token in some state that successes lead to. -/
def CanResolve (s : RouterState) (i : Nat) : Prop :=
  ∃ u call token, ReachesBy step Succeeds s u ∧ u.calls[i]? = some call ∧
    call.phase.outcome = .resolved token

/-- From here on call `i` can get a token, and no success keeps it from that. -/
def Obtains (s : RouterState) (i : Nat) : Prop :=
  s.CanResolve i ∧ ∀ u call error, ReachesBy step Succeeds s u → u.calls[i]? = some call →
    call.phase.outcome ≠ .rejected error

end RouterState

/-- Neither `isReady()` nor the promise of the call has been rejected. -/
structure Call.Alive (call : Call) : Prop where
  isReady : ∀ error, call.isReady ≠ some (.error error)
  outcome : ∀ error, call.phase.outcome ≠ .rejected error

namespace RouterState

variable {s t u : RouterState} {l : RouterEvent} {ls : List RouterEvent} {i j k : Nat} {call : Call}
  {account : Account} {token : AuthToken}

/-! ## After a failure -/

/-- A call that is not alive never is again, and never gets a token. -/
theorem not_resolved_of_not_alive (ht : t.Linked) (hrun : Kit.run step s ls = some t)
    (hcall : s.calls[j]? = some call) (hdead : ¬ call.Alive) :
    ∀ later token, t.calls[j]? = some later → later.phase.outcome ≠ .resolved token := by
  intro later token hlater houtcome
  obtain ⟨later', hlater', hfollows⟩ := run_follows hrun j call hcall
  obtain rfl := Option.some.inj (hlater.symm.trans hlater')
  apply hdead
  refine ⟨?_, ?_⟩
  · intro error hready
    have hnow := hfollows.isReady _ hready
    rw [(ht j later hlater (CallPhase.checked_of_resolved houtcome)).1] at hnow
    cases hnow
  · intro error hrejected
    have hsame := (hfollows.settled (by simp [hrejected])).1
    rw [hsame, hrejected] at houtcome
    cases houtcome

/-! ## Without one -/

/-- Nothing has failed, and the signer works. -/
structure Good (s : RouterState) : Prop where
  calls : ∀ (k : Nat) (call : Call), s.calls[k]? = some call → call.Alive
  account : s.account.Works

theorem Good.step (hs : s.Good) (hl : Succeeds l) (h : Step s l t) : t.Good := by
  refine ⟨?_, ?_⟩
  · intro k call hk
    cases h.callStep hk with
    | new hnew hlength => exact ⟨by rintro e ⟨⟩, by rintro e ⟨⟩⟩
    | kept hcall _ => exact hs.calls k call hcall
    | @ready result old hready hcall hnone =>
      subst hready
      obtain rfl : result = .ok () := hl
      exact ⟨by rintro e ⟨⟩, (hs.calls k old hcall).outcome⟩
    | @check previous old hcheck hcall hphase hready hprevious =>
      refine ⟨(hs.calls k old hcall).isReady, ?_⟩
      intro error
      rw [Call.check_phase]
      rcases getSdkToken_cases s.account s.isWeb3 s.now previous with ⟨token, -, -, h⟩ | ⟨-, h⟩
      · rw [h]
        intro heq
        cases heq
      · rw [h, Creation.createSdkToken_eq]
        cases s.isWeb3 <;> rintro ⟨⟩
    | @failed error old hfailed hcall hphase hcause =>
      -- the first call has no promise before it, and no other promise is rejected
      rcases hcause with hready | hprevious
      · exact absurd hready ((hs.calls k old hcall).isReady error)
      · cases k with
        | zero => cases hprevious
        | succ k =>
          obtain ⟨earlier, hearlier, hrejected⟩ := previous_succ_eq_rejected.mp hprevious
          exact absurd hrejected ((hs.calls k earlier hearlier).outcome error)
    | @create event creation next old hcreate hcall hphase hnext =>
      subst hcreate
      exact ⟨(hs.calls k old hcall).isReady,
        Creation.not_rejected_of_succeeds hs.account hl hnext⟩
    | asked hask hcall hphase hasked =>
      obtain ⟨hready, houtcome⟩ := hs.calls k _ hcall
      exact ⟨hready, houtcome⟩
    | @switched account old hswitch hcall =>
      obtain ⟨hready, houtcome⟩ := hs.calls k old hcall
      exact ⟨by simpa using hready, by simpa using houtcome⟩
  · cases h with
    | switch hother => exact hl
    | _ => exact hs.account

theorem Good.reaches (hs : s.Good) (h : ReachesBy RouterState.step Succeeds s u) : u.Good :=
  h.invariant (fun _ _ _ hl hs h => Good.step hs hl (Step.of_step h)) hs

theorem reaches_follows (h : ReachesBy step Succeeds s u) (hk : s.calls[k]? = some call) :
    ∃ later, u.calls[k]? = some later ∧ call.Follows later := by
  obtain ⟨ls, -, hrun⟩ := h
  exact run_follows hrun k call hk

theorem CanResolve.of_step (hl : Succeeds l) (h : Step s l t) (ht : t.CanResolve k) :
    s.CanResolve k := by
  obtain ⟨u, call, token, hreaches, hcall, houtcome⟩ := ht
  exact ⟨u, call, token, .trans (.single hl h.step_eq) hreaches, hcall, houtcome⟩

/-- Nothing has failed, and `n` stages are ahead of the token that call `k` creates. -/
def Creates (k n : Nat) (s : RouterState) : Prop :=
  s.Good ∧ ∃ call creation, s.calls[k]? = some call ∧ call.phase = .creating creation ∧
    creation.remaining = n

theorem Creates.progress (n : Nat) (s : RouterState) (h : Creates k n s) :
    (∃ call token, s.calls[k]? = some call ∧ call.phase.outcome = .resolved token) ∨
      ∃ l t m, Succeeds l ∧ s.step l = some t ∧ m < n ∧ Creates k m t := by
  obtain ⟨hs, call, creation, hk, hphase, rfl⟩ := h
  cases houtcome : creation.outcome with
  | rejected error =>
    have halive := (hs.calls k call hk).outcome error
    rw [hphase] at halive
    exact absurd houtcome halive
  | resolved token => exact .inl ⟨call, token, hk, by rw [hphase]; exact houtcome⟩
  | pending =>
    obtain ⟨event, next, hevent, hnext, hless⟩ := Creation.progress hs.account houtcome s.now
    have hstep := Step.create hk hphase hnext
    have hsucceeds : Succeeds (.create k event) := hevent
    refine .inr ⟨_, _, _, hsucceeds, hstep.step_eq, hless, ?_⟩
    exact ⟨hs.step hsucceeds hstep, _, next, setCall_calls_self hk _, rfl, rfl⟩

/-- A creation that has not failed comes to its end. -/
theorem Good.canResolve_creating {creation : Creation} (hs : s.Good)
    (hk : s.calls[k]? = some call) (hphase : call.phase = .creating creation) : s.CanResolve k := by
  have hcreates : Creates k creation.remaining s := ⟨hs, call, creation, hk, hphase, rfl⟩
  obtain ⟨u, hreaches, later, token, hlater, houtcome⟩ :=
    ReachesBy.of_stages Creates.progress hcreates
  exact ⟨u, later, token, hreaches, hlater, houtcome⟩

/-- So does a call whose previous promise has resolved. -/
theorem Good.canResolve {previous : Option AuthToken} (hs : s.Good) (hk : s.calls[k]? = some call)
    (hprevious : s.previous k = .resolved previous) : s.CanResolve k := by
  -- once the signer is ready, the callback reuses the token or begins one
  have hchecked : ∀ {s : RouterState} {call : Call}, s.Good → s.calls[k]? = some call →
      s.previous k = .resolved previous → call.phase = .waiting →
      call.isReady = some (.ok ()) → s.CanResolve k := by
    intro s call hs hk hprevious hphase hready
    have hstep := Step.check hk hphase hready hprevious
    have hself := setCall_calls_self hk
      (call.check s.account s.isWeb3 s.now (s.previousTrace k) previous)
    have hsucceeds : Succeeds (.check k) := trivial
    apply CanResolve.of_step hsucceeds hstep
    rcases getSdkToken_cases s.account s.isWeb3 s.now previous with ⟨token, -, -, h⟩ | ⟨-, h⟩
    · exact ⟨_, _, token, .refl _, hself, by rw [Call.check_phase, h]; rfl⟩
    · exact (hs.step hsucceeds hstep).canResolve_creating hself h
  cases hphase : call.phase with
  | reused token => exact ⟨s, call, token, .refl s, hk, by rw [hphase]; rfl⟩
  | creating creation => exact hs.canResolve_creating hk hphase
  | failed error => exact absurd (by rw [hphase]; rfl) ((hs.calls k call hk).outcome error)
  | waiting =>
    cases hready : call.isReady with
    | none =>
      have hsucceeds : Succeeds (.ready k (.ok ())) := rfl
      have hstep : Step s (.ready k (.ok ())) _ := .ready hk hready
      apply CanResolve.of_step hsucceeds hstep
      exact hchecked (hs.step hsucceeds hstep) (setCall_calls_self hk _)
        (hstep.previous_resolved hprevious) hphase rfl
    | some result =>
      cases result with
      | error error => exact absurd hready ((hs.calls k call hk).isReady error)
      | ok _ => exact hchecked hs hk hprevious hphase hready

/-- One call after the other, every call gets a token. -/
theorem Good.all_canResolve (hs : s.Good) (hk : s.calls[k]? = some call) : s.CanResolve k := by
  induction k generalizing call with
  | zero => exact hs.canResolve hk rfl
  | succ k ih =>
    obtain ⟨hlt, -⟩ := List.getElem?_eq_some_iff.mp hk
    have hearlier := List.getElem?_eq_getElem (Nat.lt_of_succ_lt hlt)
    obtain ⟨u, resolved, token, hreaches, hresolved, houtcome⟩ := ih hearlier
    obtain ⟨later, hlater, -⟩ := reaches_follows hreaches hk
    obtain ⟨v, last, token', hreaches', hlast, houtcome'⟩ :=
      (hs.reaches hreaches).canResolve hlater
        (previous_succ_eq_resolved.mpr ⟨resolved, token, hresolved, houtcome, rfl⟩)
    exact ⟨v, last, token', hreaches.trans hreaches', hlast, houtcome'⟩

/-- A call of `getNode` that the signer works for gets a token if and only if no call before it has
failed. -/
theorem getNode_obtains_iff (hs : s.Linked) (haccount : s.account.Works)
    (hstep : s.step .getNode = some t) :
    t.Obtains s.calls.length ↔ ∀ call ∈ s.calls, call.Alive := by
  have hStep := Step.of_step hstep
  constructor
  · rintro ⟨⟨u, last, token, hreaches, hlast, houtcome⟩, -⟩ call hcall
    by_contra hdead
    obtain ⟨j, hj, rfl⟩ := List.getElem_of_mem hcall
    have hfirst := List.getElem?_eq_getElem hj
    obtain ⟨ls, -, hrun⟩ := hreaches
    have hrun' : Kit.run step s (.getNode :: ls) = some u :=
      Kit.run_cons_eq_some.mpr ⟨t, hstep, hrun⟩
    have hu := run_linked hs hrun'
    -- the new call is checked only after call `j` has resolved
    obtain ⟨earlier, token', hearlier, hresolved⟩ :=
      hu.resolved_of_lt hlast (CallPhase.checked_of_resolved houtcome) hj
    exact not_resolved_of_not_alive hu hrun' hfirst hdead earlier token' hearlier hresolved
  · intro halive
    cases hstep
    have hgood : Good { s with calls := s.calls ++ [{ calledAt := s.now }] } := by
      have hs' : s.Good := ⟨fun k call hk => halive call (List.mem_of_getElem? hk), haccount⟩
      have hsucceeds : Succeeds .getNode := trivial
      exact hs'.step hsucceeds hStep
    refine ⟨?_, ?_⟩
    · exact hgood.all_canResolve (List.getElem?_concat_length ..)
    · intro u call error hreaches hcall
      exact ((hgood.reaches hreaches).calls _ call hcall).outcome error

end RouterState

end CereDdc
