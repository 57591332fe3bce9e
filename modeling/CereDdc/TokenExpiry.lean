import CereDdc.OperationToken
import CereDdc.RouterChain

/-!
# TokenExpiry — how old the tokens of a router get

A router makes a token for 30 days and keeps it as long as its account stays.
Its calls get unexpired tokens in exactly those runs where every call that takes
the token before it comes within the token's 30 days.
-/

namespace CereDdc

/-! ## The age of a token -/

/-- The token that a promise holds or its creation is at work on. -/
def CallPhase.draft : CallPhase → Option AuthToken
  | reused token => some token
  | creating creation => creation.draft
  | _ => none

theorem CallPhase.draft_of_outcome {phase : CallPhase} {token : AuthToken}
    (h : phase.outcome = .resolved token) : phase.draft = some token := by
  cases phase with
  | waiting => cases h
  | reused t =>
    cases h
    rfl
  | creating creation => exact Creation.draft_of_outcome h
  | failed error => cases h

/-- The token of the call expires 30 days after it was made, and was made after the call if the
call has made it. -/
structure Call.Dated (now : Int) (call : Call) : Prop where
  calledAt : call.calledAt ≤ now
  expiresAt : ∀ token, call.phase.draft = some token → ∃ created,
    call.trace.createdAt = some created ∧
      token.expiresAt = some (created + authTokenExpirationTime)
  createdAt : ∀ creation created, call.phase = .creating creation →
    call.trace.createdAt = some created → call.calledAt ≤ created

theorem Call.Dated.mono {call : Call} {now later : Int} (h : call.Dated now) (hle : now ≤ later) :
    call.Dated later :=
  ⟨Int.le_trans h.calledAt hle, h.expiresAt, h.createdAt⟩

theorem Call.Dated.switch {call : Call} {now : Int} (h : call.Dated now) : call.switch.Dated now := by
  have htrace : call.switch.trace.createdAt = call.trace.createdAt := by
    unfold Call.switch
    split <;> rfl
  exact
    { calledAt := by simpa using h.calledAt
      expiresAt := by simpa [htrace] using h.expiresAt
      createdAt := by simpa [htrace] using h.createdAt }

theorem fullAccessPayload_expiresAt {signature : Option Signature} {now : Int}
    {subject : Option PublicKey} :
    (AuthToken.root signature (AuthToken.fullAccessPayload now subject)).expiresAt
      = some (now + authTokenExpirationTime) := rfl

/-- A creation that goes on keeps its token's age, and one that begins a token makes it now. -/
theorem Call.Dated.create {call : Call} {account : Account} {now : Int} {event : CreationEvent}
    {creation next : Creation} (h : call.Dated now) (hphase : call.phase = .creating creation)
    (hnext : creation.step account now event = some next) :
    (call.create account now creation next).Dated now := by
  refine ⟨h.calledAt, ?_, ?_⟩
  · intro token htoken
    change next.draft = some token at htoken
    rcases Creation.step_cases hnext with
      ⟨type, mnemonic, rfl, -, rfl⟩ | ⟨draft, algorithm, publicKey, rfl, -, rfl⟩ |
        ⟨draft, algorithm, publicKey, value, rfl, rfl⟩ | ⟨error, -, rfl, -⟩
    · cases htoken
      exact ⟨now, rfl, fullAccessPayload_expiresAt⟩
    · cases htoken
      exact h.expiresAt token (by rw [hphase]; rfl)
    · cases htoken
      obtain ⟨created, hcreated, hexpires⟩ := h.expiresAt draft (by rw [hphase]; rfl)
      refine ⟨created, hcreated, ?_⟩
      simpa [AuthToken.expiresAt] using hexpires
    · cases htoken
  · intro _ created _ hcreated
    unfold Call.create at hcreated
    cases creation with
    | registering type =>
      cases hcreated
      exact h.calledAt
    | _ => exact h.createdAt _ created hphase hcreated

namespace RouterState

open Kit (EachStep)

variable {s t u : RouterState} {l : RouterEvent} {ls : List RouterEvent} {k : Nat} {call : Call}
  {token : AuthToken}

def Dated (s : RouterState) : Prop :=
  ∀ (k : Nat) (call : Call), s.calls[k]? = some call → call.Dated s.now

/-- The promise of the previous call comes with the time its token was made. -/
theorem Dated.previous (hs : s.Dated) (h : s.previous k = .resolved (some token)) :
    ∃ created, s.previousCreatedAt k = some created ∧
      token.expiresAt = some (created + authTokenExpirationTime) := by
  obtain ⟨j, call, rfl, hcall, houtcome⟩ := previous_eq_some h
  obtain ⟨created, hcreated, hexpires⟩ :=
    (hs j call hcall).expiresAt token (CallPhase.draft_of_outcome houtcome)
  exact ⟨created, by simp [previousCreatedAt, previousTrace, hcall, hcreated], hexpires⟩

theorem Dated.check {previous : Option AuthToken} (hs : s.Dated) (hcall : s.calls[k]? = some call)
    (hprevious : s.previous k = .resolved previous) :
    (call.check s.account s.isWeb3 s.now (s.previousTrace k) previous).Dated s.now := by
  have hcalledAt := (hs k call hcall).calledAt
  rcases getSdkToken_cases s.account s.isWeb3 s.now previous with
    ⟨token, rfl, -, hphase⟩ | ⟨-, hphase⟩
  · obtain ⟨created, hcreated, hexpires⟩ := hs.previous hprevious
    refine ⟨hcalledAt, ?_, ?_⟩
    · intro token' htoken'
      rw [Call.check_phase, hphase] at htoken'
      cases htoken'
      refine ⟨created, ?_, hexpires⟩
      simp only [Call.check, hphase]
      exact hcreated
    · intro creation _ hcreating
      rw [Call.check_phase, hphase] at hcreating
      cases hcreating
  · rw [Creation.createSdkToken_eq] at hphase
    -- a wallet has no token yet, any other signer dates it now
    by_cases hweb3 : s.isWeb3
    · rw [if_pos hweb3] at hphase
      refine ⟨hcalledAt, ?_, ?_⟩
      · intro token htoken
        rw [Call.check_phase, hphase] at htoken
        cases htoken
      · intro creation created _ hcreated
        simp [Call.check, hphase] at hcreated
    · rw [if_neg hweb3] at hphase
      refine ⟨hcalledAt, ?_, ?_⟩
      · intro token htoken
        rw [Call.check_phase, hphase] at htoken
        cases htoken
        exact ⟨s.now, by simp [Call.check, hphase], fullAccessPayload_expiresAt⟩
      · intro creation created _ hcreated
        simp only [Call.check, hphase, Option.some.injEq] at hcreated
        exact hcreated ▸ hcalledAt

theorem Dated.step (hs : s.Dated) (h : Step s l t) : t.Dated := by
  intro k call hk
  apply Call.Dated.mono _ h.now_le
  cases h.callStep hk with
  | new hl hlength => exact ⟨Int.le_refl _, by rintro token ⟨⟩, by rintro _ _ ⟨⟩⟩
  | kept hcall hl => exact hs k call hcall
  | ready hl hcall hready =>
    obtain ⟨hcalledAt, hexpires, hcreated⟩ := hs k _ hcall
    exact ⟨hcalledAt, hexpires, hcreated⟩
  | check hl hcall hphase hready hprevious => exact hs.check hcall hprevious
  | failed hl hcall hphase hcause =>
    exact ⟨(hs k _ hcall).calledAt, by rintro token ⟨⟩, by rintro _ _ ⟨⟩⟩
  | create hl hcall hphase hnext => exact (hs k _ hcall).create hphase hnext
  | asked hl hcall hphase hasked =>
    obtain ⟨hcalledAt, hexpires, hcreated⟩ := hs k _ hcall
    exact ⟨hcalledAt, hexpires, hcreated⟩
  | switched hl hcall => exact (hs k _ hcall).switch

theorem new_dated (now : Int) (isWeb3 : Bool) (account : Account) :
    (new now isWeb3 account).Dated := by
  intro k call hcall
  cases hcall

/-! ## Unexpired tokens -/

/-- Every call that has a token has one that outlives the call, and so do the operations of the
node it is handed to. -/
def Unexpired (s : RouterState) : Prop :=
  ∀ (k : Nat) (call : Call) (token : AuthToken), s.calls[k]? = some call →
    call.phase.outcome = .resolved token →
    ∃ e, token.expiresAt = some e ∧ call.calledAt < e ∧
      ∀ mnemonic createdAt now signer registry u state,
        createAuthToken mnemonic createdAt now signer ⟨some token, registry⟩ none = .ok (u, state) →
          u.expiresAt = some e

/-- If this step is a check that finds the token of the previous call valid, it is for a call made
less than 30 days after that token. -/
def reusesInTime (s : RouterState) : RouterEvent → Bool
  | .check k =>
    match s.calls[k]?, s.previous k, s.previousCreatedAt k with
    | some call, .resolved (some token), some created =>
      !isValidSdkToken s.account token ||
        decide (call.calledAt < created + authTokenExpirationTime)
    | _, _, _ => true
  | _ => true

theorem reusesInTime_check {created : Int} (h : s.reusesInTime (.check k) = true)
    (hcall : s.calls[k]? = some call) (hprevious : s.previous k = .resolved (some token))
    (hvalid : isValidSdkToken s.account token = true) (hcreated : s.previousCreatedAt k = some created) :
    call.calledAt < created + authTokenExpirationTime := by
  simpa [reusesInTime, hcall, hprevious, hvalid, hcreated] using h

/-- The calls that reuse a token were made in its time. -/
def ReusedInTime (s : RouterState) : Prop :=
  ∀ (k : Nat) (call : Call) (token : AuthToken) (created : Int), s.calls[k]? = some call →
    call.phase = .reused token → call.trace.createdAt = some created →
    call.calledAt < created + authTokenExpirationTime

theorem ReusedInTime.step (hs : s.ReusedInTime) (hl : s.reusesInTime l = true) (h : Step s l t) :
    t.ReusedInTime := by
  intro k call token created hk hreused hcreated
  cases h.callStep hk with
  | new hnew hlength => cases hreused
  | kept hcall _ => exact hs k call token created hcall hreused hcreated
  | @ready result old _ hcall hready => exact hs k old token created hcall hreused hcreated
  | @check previous old hcheck hcall hphase hready hprevious =>
    rw [Call.check_phase] at hreused
    rcases getSdkToken_cases s.account s.isWeb3 s.now previous with
      ⟨token', rfl, hvalid, heq⟩ | ⟨-, heq⟩
    · have hfound : s.previousCreatedAt k = some created := by
        simp only [Call.check, heq] at hcreated
        exact hcreated
      subst hcheck
      have hlt := reusesInTime_check hl hcall hprevious hvalid hfound
      exact hlt
    · rw [heq] at hreused
      cases hreused
  | failed _ hcall hphase hcause => cases hreused
  | create _ hcall hphase hnext => cases hreused
  | asked _ hcall hphase hasked =>
    rw [Call.ask_phase, hphase] at hreused
    cases hreused
  | @switched account old _ hcall =>
    rw [Call.switch_phase] at hreused
    have hsame : old.switch = old := by
      unfold Call.switch
      rw [hreused]
    rw [hsame] at hcreated ⊢
    exact hs k old token created hcall hreused hcreated

/-- With every reuse in time, every token is unexpired. -/
theorem Dated.unexpired (hs : s.Dated) (hreused : s.ReusedInTime) : s.Unexpired := by
  intro k call token hk houtcome
  obtain ⟨created, hcreated, hexpires⟩ :=
    (hs k call hk).expiresAt token (CallPhase.draft_of_outcome houtcome)
  refine ⟨created + authTokenExpirationTime, hexpires, ?_, ?_⟩
  · have hpos := authTokenExpirationTime_pos
    cases hphase : call.phase with
    | waiting =>
      rw [hphase] at houtcome
      cases houtcome
    | reused reused => exact hreused k call reused created hk hphase hcreated
    -- a token of its own is no older than the call
    | creating creation =>
      have hle := (hs k call hk).createdAt creation created hphase hcreated
      omega
    | failed error =>
      rw [hphase] at houtcome
      cases houtcome
  · intro mnemonic createdAt now signer registry u state h
    exact createAuthToken_expiresAt hexpires h

/-- A reuse that a run makes is still there at its end. -/
theorem Dated.reusesInTime (hs : s.Dated) (hstep : s.step l = some t)
    (hrun : Kit.run RouterState.step t ls = some u) (hu : u.Unexpired) : s.reusesInTime l = true := by
  unfold RouterState.reusesInTime
  split
  · rename_i k
    split
    · rename_i call token created hcall hprevious hcreated
      by_cases hvalid : isValidSdkToken s.account token = true
      · simp only [hvalid, Bool.not_true, Bool.false_or, decide_eq_true_eq]
        cases Step.of_step hstep with
        | @check _ previous old hold hphase hready hfound =>
          obtain rfl : old = call := Option.some.inj (hold.symm.trans hcall)
          rw [hprevious] at hfound
          cases hfound
          -- the call keeps the token it has reused, so the end of the run tells its age
          obtain ⟨later, hlater, hfollows⟩ := run_follows hrun k _ (setCall_calls_self hcall _)
          have hreused : (old.check s.account s.isWeb3 s.now (s.previousTrace k)
              (some token)).phase = .reused token := getSdkToken_of_valid hvalid
          obtain ⟨e, hexpires, hlt, -⟩ :=
            hu k later token hlater (hfollows.outcome (by rw [hreused]; rfl))
          obtain ⟨created', hcreated', hexpires'⟩ := hs.previous hprevious
          rw [hcreated] at hcreated'
          cases hcreated'
          rw [hexpires'] at hexpires
          cases hexpires
          rw [hfollows.calledAt] at hlt
          exact hlt
      · simp [hvalid]
    · rfl
  · rfl

/-- Of the runs of a router, exactly those hand out unexpired tokens only whose every reuse of a
token comes in the 30 days of that token. -/
theorem run_unexpired_iff {now : Int} {isWeb3 : Bool} {account : Account}
    (h : Kit.run step (new now isWeb3 account) ls = some u) :
    u.Unexpired ↔ EachStep step (fun s l => s.reusesInTime l = true) (new now isWeb3 account) ls := by
  constructor
  · intro hu
    refine EachStep.of_run (P := Dated) (fun _ _ _ hs h => hs.step (Step.of_step h)) ?_
      (new_dated now isWeb3 account) h
    intro s l t ls hs hstep hrun
    exact Dated.reusesInTime hs hstep hrun hu
  · intro hsteps
    have hinvariant : u.Dated ∧ u.ReusedInTime := by
      refine hsteps.invariant (P := fun s => s.Dated ∧ s.ReusedInTime) ?_ ?_ h
      · rintro s l t hl ⟨hdated, hreused⟩ hstep
        exact ⟨hdated.step (Step.of_step hstep), hreused.step hl (Step.of_step hstep)⟩
      · exact ⟨new_dated now isWeb3 account, by rintro k call token created ⟨⟩⟩
    exact hinvariant.1.unexpired hinvariant.2

/-- A call that gets a token made, and another one after a while. -/
def reuseAfter (milliseconds : Nat) : List RouterEvent :=
  [.getNode, .ready 0 (.ok ()), .check 0, .create 0 (.ready (.ok ())), .create 0 (.signed (.ok [])),
    .tick milliseconds, .getNode, .ready 1 (.ok ()), .check 1]

/-- After a day the token is good. -/
theorem reuseAfter_day_unexpired :
    ∃ u, Kit.run step (new 0 false (plainAccount 1)) (reuseAfter 86400000) = some u ∧
      u.Unexpired := by
  obtain ⟨u, hu⟩ :
      ∃ u, Kit.run step (new 0 false (plainAccount 1)) (reuseAfter 86400000) = some u := ⟨_, rfl⟩
  exact ⟨u, hu, (run_unexpired_iff hu).mpr (by decide +kernel)⟩

/-- After 30 days it has expired, and is handed out all the same. -/
theorem reuseAfter_month_expired :
    ∃ u call token, Kit.run step (new 0 false (plainAccount 1)) (reuseAfter 2592000000) = some u ∧
      u.calls[1]? = some call ∧ call.phase.outcome = .resolved token ∧
      token.expiresAt = some call.calledAt := by
  exact ⟨_, _, _, rfl, rfl, rfl, rfl⟩

end RouterState

end CereDdc
