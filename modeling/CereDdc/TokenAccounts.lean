import CereDdc.RouterChain

/-!
# TokenAccounts — whose tokens the calls of a router get

The signer may change its account at any time, also while a token is being made.
Between two such changes the router makes one token at most. A call gets a token
that the account its check found has signed, except where its own creation read
the key of another one, or where the wallet that made the token was asked for
the signature of another account than the one whose key was read.
-/

namespace CereDdc

/-- The address is the public key with the SDK's prefix. -/
def Account.Canonical (account : Account) : Prop :=
  account.publicKey.map encodeAddress = .ok account.address

/-- The signature names the key of the account. -/
def AuthToken.Names (token : AuthToken) (account : Account) : Prop :=
  ∃ key, account.publicKey = .ok key ∧ token.signer = some key

/-- The check looks at the address, which is as good as the key. -/
theorem Account.Canonical.isValidSdkToken_iff {account : Account} {token : AuthToken}
    (h : account.Canonical) : isValidSdkToken account token = true ↔ token.Names account := by
  unfold Account.Canonical at h
  rw [CereDdc.isValidSdkToken_iff]
  cases hkey : account.publicKey with
  | error e =>
    rw [hkey] at h
    cases h
  | ok key =>
    rw [hkey] at h
    have haddress : encodeAddress key = account.address := Except.ok.inj h
    constructor
    · rintro ⟨signer, hsigner, heq⟩
      refine ⟨key, hkey, ?_⟩
      rw [hsigner, encodeAddress_injective (heq.trans haddress.symm)]
    · rintro ⟨key', hkey', hsigner⟩
      rw [hkey] at hkey'
      cases hkey'
      exact ⟨key, hsigner, haddress⟩

theorem AuthToken.Names.of_head {token : AuthToken} {account : Account}
    {algorithm : SignatureAlgorithm} {publicKey : PublicKey} {value : Bytes}
    (h : account.publicKey = .ok publicKey) :
    (token.withSignature ⟨algorithm, publicKey, value⟩).Names account :=
  ⟨publicKey, h, by simp [AuthToken.signer]⟩

/-! ## One account -/

/-- The promise has nothing that names anybody but `account`. -/
def CallPhase.For (account : Account) : CallPhase → Prop
  | .reused token => token.Names account
  | .creating (.signing _ _ publicKey) => account.publicKey = .ok publicKey
  | .creating (.fulfilled token) => token.Names account
  | _ => True

def CallPhase.isCreating : CallPhase → Bool
  | creating _ => true
  | _ => false

theorem CallPhase.For.names {account : Account} {phase : CallPhase} {token : AuthToken}
    (h : phase.For account) (houtcome : phase.outcome = .resolved token) :
    token.Names account := by
  cases phase with
  | waiting => cases houtcome
  | reused t =>
    cases houtcome
    exact h
  | failed error => cases houtcome
  | creating creation =>
    cases creation with
    | fulfilled t =>
      cases houtcome
      exact h
    | _ => cases houtcome

theorem CallPhase.For.createSdkToken (account account' : Account) (isWeb3 : Bool) (now : Int) :
    (CallPhase.creating (Creation.createSdkToken account' isWeb3 now)).For account := by
  rw [Creation.createSdkToken_eq]
  by_cases h : isWeb3
  · rw [if_pos h]
    trivial
  · rw [if_neg h]
    trivial

theorem CallPhase.For.create {account : Account} {now : Int} {creation next : Creation}
    {event : CreationEvent} (h : (CallPhase.creating creation).For account)
    (hnext : creation.step account now event = some next) :
    (CallPhase.creating next).For account := by
  rcases Creation.step_cases hnext with
    ⟨type, mnemonic, rfl, -, rfl⟩ | ⟨token, algorithm, publicKey, rfl, hhead, rfl⟩ |
      ⟨token, algorithm, publicKey, value, rfl, rfl⟩ | ⟨error, -, rfl, -⟩
  · trivial
  · exact (signatureHead_eq_ok hhead).2
  · exact .of_head h
  · trivial

namespace RouterState

open Kit (run_cons_eq_some run_append_eq_some)

variable {s t u : RouterState} {l : RouterEvent} {ls : List RouterEvent} {i j k : Nat} {call : Call}
  {account : Account} {token : AuthToken}

/-- From call `i` on there is `account` only, and one creation at most, that of call `i`. -/
structure Since (i : Nat) (account : Account) (s : RouterState) : Prop where
  linked : s.Linked
  account_eq : s.account = account
  base : i = 0 ∨ ∃ call, s.calls[i]? = some call ∧ call.phase.checked = true
  calls : ∀ (k : Nat) (call : Call), s.calls[k]? = some call → i ≤ k →
    call.phase.For account ∧ (i < k → call.phase.isCreating = false)

theorem Since.step (haccount : account.Canonical) (hs : s.Since i account)
    (hl : ∀ a, l ≠ .switch a) (h : Step s l t) : t.Since i account := by
  refine ⟨hs.linked.step h, (h.account_eq hl).trans hs.account_eq, ?_, ?_⟩
  · rcases hs.base with hzero | ⟨call, hcall, hchecked⟩
    · exact .inl hzero
    · obtain ⟨later, hlater, hfollows⟩ := h.follows hcall
      exact .inr ⟨later, hlater, hfollows.checked hchecked⟩
  · intro k call hk hik
    cases h.callStep hk with
    | new hnew hlength => exact ⟨trivial, fun _ => rfl⟩
    | kept hcall _ => exact hs.calls k call hcall hik
    | @ready result old _ hcall hready => exact hs.calls k old hcall hik
    | failed _ hcall hphase hcause => exact ⟨trivial, fun _ => rfl⟩
    | @check previous old hcheck hcall hphase hready hprevious =>
      rw [Call.check_phase]
      by_cases hki : k = i
      · -- an earlier check of call `i` would have taken it out of `waiting`
        subst hki
        rcases hs.base with rfl | ⟨call, hcall', hchecked⟩
        · cases hprevious
          exact ⟨.createSdkToken account s.account s.isWeb3 s.now, fun h => absurd h (by omega)⟩
        · rw [hcall] at hcall'
          cases hcall'
          rw [hphase] at hchecked
          cases hchecked
      · obtain ⟨m, rfl⟩ : ∃ m, k = m + 1 := ⟨k - 1, by omega⟩
        obtain ⟨earlier, token, hearlier, houtcome, rfl⟩ := previous_succ_eq_resolved.mp hprevious
        -- the promise before it has a token of `account`, which the callback finds valid
        have hnames := (hs.calls m earlier hearlier (by omega)).1.names houtcome
        rw [hs.account_eq, getSdkToken_of_valid (haccount.isValidSdkToken_iff.mpr hnames)]
        exact ⟨hnames, fun _ => rfl⟩
    | create _ hcall hphase hnext =>
      obtain ⟨hfor, hcreating⟩ := hs.calls k _ hcall hik
      rw [hphase] at hfor hcreating
      rw [hs.account_eq] at hnext
      exact ⟨hfor.create hnext, hcreating⟩
    | @asked token algorithm publicKey old _ hcall hphase hasked =>
      rw [Call.ask_phase]
      exact hs.calls k old hcall hik
    | switched hswitch hcall => exact absurd hswitch (hl _)

theorem run_since (haccount : account.Canonical) (hs : s.Since i account)
    (hls : ∀ a, .switch a ∉ ls) (h : Kit.run step s ls = some t) : t.Since i account := by
  refine Kit.run_invariant_of (P := Since i account) (fun s l t hl hs h =>
    hs.step haccount hl (Step.of_step h)) ?_ hs h
  intro l hl a ha
  subst ha
  exact hls a hl

theorem new_since (now : Int) (isWeb3 : Bool) (account : Account) :
    (new now isWeb3 account).Since 0 account :=
  ⟨new_linked now isWeb3 account, rfl, .inl rfl, by rintro k call ⟨⟩⟩

/-- Where the account has always been the same, nothing but the first call creates a token. -/
theorem Since.creating_first (hs : s.Since 0 account) (hk : s.calls[k]? = some call)
    (hcreating : call.phase.isCreating = true) : k = 0 := by
  by_contra hzero
  have hnot := (hs.calls k call hk (Nat.zero_le k)).2 (Nat.pos_of_ne_zero hzero)
  rw [hcreating] at hnot
  cases hnot

/-- The check of call `i` invokes `createSdkToken`. -/
def Invokes (s : RouterState) (i : Nat) (t : RouterState) : Prop :=
  s.step (.check i) = some t ∧
    ∃ call, t.calls[i]? = some call ∧ call.phase.isCreating = true

theorem Invokes.phase (h : s.Invokes i t) : ∃ call, t.calls[i]? = some call ∧
    call.phase = .creating (Creation.createSdkToken s.account s.isWeb3 s.now) := by
  obtain ⟨hstep, call, hcall, hcreating⟩ := h
  refine ⟨call, hcall, ?_⟩
  cases Step.of_step hstep with
  | @check _ previous old hold hphase hready hprevious =>
    rw [setCall_calls_self hold] at hcall
    cases hcall
    rw [Call.check_phase] at hcreating ⊢
    rcases getSdkToken_cases s.account s.isWeb3 s.now previous with ⟨token, -, -, h⟩ | ⟨-, h⟩
    · rw [h] at hcreating
      cases hcreating
    · exact h

theorem createSdkToken_pending {isWeb3 : Bool} {now : Int} :
    (Creation.createSdkToken account isWeb3 now).outcome = .pending := by
  rw [Creation.createSdkToken_eq]
  cases isWeb3 <;> rfl

/-- A check that invokes `createSdkToken` finds nothing after its call that is checked yet. -/
theorem Invokes.since (hs : s.Linked) (h : s.Invokes i t) : t.Since i t.account := by
  have hstep := Step.of_step h.1
  have ht := hs.step hstep
  obtain ⟨created, hcreated, hphase⟩ := h.phase
  refine ⟨ht, rfl, .inr ⟨created, hcreated, by rw [hphase]; rfl⟩, ?_⟩
  intro k call hk hik
  by_cases hki : k = i
  · subst hki
    obtain rfl := Option.some.inj (hcreated.symm.trans hk)
    rw [hphase]
    exact ⟨.createSdkToken t.account s.account s.isWeb3 s.now, fun h => absurd h (by omega)⟩
  · -- a later call waits for the creation that has just begun
    have hunchecked : call.phase.checked = false := by
      by_contra hchecked
      rw [Bool.not_eq_false] at hchecked
      obtain ⟨earlier, token, hearlier, houtcome⟩ :=
        ht.resolved_of_lt hk hchecked (show i < k by omega)
      obtain rfl := Option.some.inj (hcreated.symm.trans hearlier)
      rw [hphase] at houtcome
      cases createSdkToken_pending.symm.trans houtcome
    cases hcall : call.phase with
    | waiting => exact ⟨trivial, fun _ => rfl⟩
    | failed error => exact ⟨trivial, fun _ => rfl⟩
    | reused token =>
      rw [hcall] at hunchecked
      cases hunchecked
    | creating creation =>
      rw [hcall] at hunchecked
      cases hunchecked

/-- Without a change of the account in between, `createSdkToken` is not invoked again. -/
theorem Invokes.not_again {t' : RouterState} (hs : s.Linked) (h : s.Invokes i t)
    (haccount : t.account.Canonical) (hls : ∀ a, .switch a ∉ ls)
    (hrun : Kit.run step t ls = some u) : ¬ u.Invokes j t' := by
  intro hagain
  have hu := run_since haccount (h.since hs) hls hrun
  have hstep := Step.of_step hagain.1
  have ht' := hu.step haccount (by simp) hstep
  obtain ⟨call, hcall, hcreating⟩ := hagain.2
  cases hstep with
  | @check _ previous old hold hphase hready hprevious =>
    -- call `i` is checked, so the calls up to it are, and `j` comes after them
    obtain ⟨created, hcreated, hcreation⟩ := h.phase
    obtain ⟨first, hfirst, hfollows⟩ := run_follows hrun i created hcreated
    have hchecked : first.phase.checked = true := hfollows.checked (by rw [hcreation]; rfl)
    have hij : i < j := by
      by_contra hle
      rcases Nat.lt_or_eq_of_le (Nat.not_lt.mp hle) with hlt | rfl
      · obtain ⟨earlier, token, hearlier, houtcome⟩ := hu.linked.resolved_of_lt hfirst hchecked hlt
        obtain rfl := Option.some.inj (hold.symm.trans hearlier)
        rw [hphase] at houtcome
        cases houtcome
      · obtain rfl := Option.some.inj (hold.symm.trans hfirst)
        rw [hphase] at hchecked
        cases hchecked
    have hnot := (ht'.calls j call hcall (Nat.le_of_lt hij)).2 hij
    rw [hcreating] at hnot
    cases hnot

/-! ## Who signed the token of a call -/

end RouterState

/-- The call has a token that `account` has signed: it names the account, and so does it name the
one that was asked for the signature. -/
structure Call.HasTokenBy (call : Call) (token : AuthToken) (account : Account) : Prop where
  names : token.Names account
  askedOf : ∃ asked, call.trace.askedOf = some asked ∧ token.Names asked

/-- The token of the call is the one its trace tells of: it names the account its check found, or
the one whose key its creation read, and unless its wallet was asked late, the one that was asked
to sign it. The first two are the same unless the account changed between the two. -/
def Call.Signed (current : Account) (call : Call) : Prop :=
  match call.phase with
  | .reused token => (∃ account, call.trace.checkedBy = some account ∧ token.Names account) ∧
      ∃ asked, call.trace.askedOf = some asked ∧
        (call.trace.askedLate = false → token.Names asked)
  | .creating (.registering _) => call.trace.askedOf = none ∧ call.trace.askedLate = false ∧
      (call.trace.switched = false → call.trace.checkedBy = some current)
  | .creating (.readying _) => call.trace.askedOf = none ∧ call.trace.askedLate = false ∧
      (call.trace.switched = false → call.trace.checkedBy = some current)
  | .creating (.signing _ _ publicKey) => ∃ account, call.trace.keyReadBy = some account ∧
      account.publicKey = .ok publicKey ∧
        (call.trace.switched = false → call.trace.checkedBy = some account) ∧
          (call.trace.askedLate = false → call.trace.askedOf.getD account = account)
  | .creating (.fulfilled token) => ∃ account, call.trace.keyReadBy = some account ∧
      token.Names account ∧
        (call.trace.switched = false → call.trace.checkedBy = some account) ∧
          ∃ asked, call.trace.askedOf = some asked ∧
            (call.trace.askedLate = false → token.Names asked)
  | _ => True

namespace Call.Signed

variable {call : Call} {account : Account}

/-- Whoever has signed, an account that comes later has not, and a creation that has not read its
key yet knows of the change. -/
theorem switch (h : call.Signed account) (account' : Account) : call.switch.Signed account' := by
  unfold Call.switch
  split
  · rename_i hphase
    unfold Call.Signed at h ⊢
    rw [hphase] at h ⊢
    exact ⟨h.1, h.2.1, fun hswitched => by cases hswitched⟩
  · rename_i hphase
    unfold Call.Signed at h ⊢
    rw [hphase] at h ⊢
    exact ⟨h.1, h.2.1, fun hswitched => by cases hswitched⟩
  · unfold Call.Signed at h ⊢
    split <;> simp_all

theorem create {now : Int} {event : CreationEvent} {creation next : Creation}
    (h : call.Signed account) (hphase : call.phase = .creating creation)
    (hnext : creation.step account now event = some next) :
    (call.create account now creation next).Signed account := by
  unfold Call.Signed at h
  rw [hphase] at h
  rcases Creation.step_cases hnext with
    ⟨type, mnemonic, rfl, -, rfl⟩ | ⟨token, algorithm, publicKey, rfl, hhead, rfl⟩ |
      ⟨token, algorithm, publicKey, value, rfl, rfl⟩ | ⟨error, -, rfl, -⟩
  · exact h
  · obtain ⟨hnone, hlate, hsame⟩ := h
    refine ⟨account, rfl, (signatureHead_eq_ok hhead).2, hsame, fun _ => ?_⟩
    simp [Call.create, hnone]
  · obtain ⟨reader, hreader, hkey, hsame, hasked⟩ := h
    -- a wallet that was not asked late is asked by now, of the account whose key was read
    refine ⟨reader, hreader, .of_head hkey, hsame, call.trace.askedOf.getD reader, ?_, ?_⟩
    · show call.trace.askedOf.or call.trace.keyReadBy = _
      cases haskedOf : call.trace.askedOf with
      | none => exact hreader
      | some asked => rfl
    · intro hlate
      rw [hasked hlate]
      exact .of_head hkey
  · trivial

theorem ask {token : AuthToken} {algorithm : SignatureAlgorithm} {publicKey : PublicKey}
    (h : call.Signed account)
    (hphase : call.phase = .creating (.signing token algorithm publicKey)) :
    (call.ask account).Signed account := by
  unfold Call.Signed at h ⊢
  rw [Call.ask_phase]
  rw [hphase] at h ⊢
  obtain ⟨reader, hreader, hkey, hsame, -⟩ := h
  refine ⟨reader, hreader, hkey, hsame, fun hlate => ?_⟩
  have hlate' : decide (call.trace.keyReadBy ≠ some account) = false := hlate
  rw [decide_eq_false_iff_not, not_not, hreader, Option.some.injEq] at hlate'
  exact hlate'.symm

/-- The trace of a call that has a token tells who was asked for it. -/
theorem askedOf {token : AuthToken} (h : call.Signed account)
    (houtcome : call.phase.outcome = .resolved token) : ∃ asked,
      call.trace.askedOf = some asked ∧ (call.trace.askedLate = false → token.Names asked) := by
  unfold Call.Signed at h
  cases hphase : call.phase with
  | waiting =>
    rw [hphase] at houtcome
    cases houtcome
  | failed error =>
    rw [hphase] at houtcome
    cases houtcome
  | reused reused =>
    rw [hphase] at houtcome h
    cases houtcome
    exact h.2
  | creating creation =>
    rw [hphase] at houtcome h
    cases creation with
    | fulfilled fulfilled =>
      cases houtcome
      obtain ⟨-, -, -, -, hasked⟩ := h
      exact hasked
    | _ => cases houtcome

/-- What the callback finds of the token of the previous call, it keeps with the token. -/
theorem check {isWeb3 : Bool} {now : Int} {before : Trace} {previous : Option AuthToken}
    (hcanonical : account.Canonical)
    (hbefore : ∀ token, previous = some token → ∃ asked, before.askedOf = some asked ∧
      (before.askedLate = false → token.Names asked)) :
    (call.check account isWeb3 now before previous).Signed account := by
  rcases getSdkToken_cases account isWeb3 now previous with ⟨token, rfl, hvalid, h⟩ | ⟨-, h⟩
  · simp only [Call.Signed, Call.check_phase, h]
    refine ⟨⟨account, ?_, hcanonical.isValidSdkToken_iff.mp hvalid⟩, ?_⟩
    · simp only [Call.check, h]
    · simp only [Call.check, h]
      exact hbefore token rfl
  · simp only [Call.Signed, Call.check_phase, h, Creation.createSdkToken_eq]
    cases isWeb3 with
    | false =>
      simp only [Call.check, h, Creation.createSdkToken_eq]
      exact ⟨rfl, rfl, fun _ => rfl⟩
    | true =>
      simp only [Call.check, h, Creation.createSdkToken_eq]
      exact ⟨rfl, rfl, fun _ => rfl⟩

end Call.Signed

namespace RouterState

variable {s t u : RouterState} {l : RouterEvent} {ls : List RouterEvent} {i j k : Nat} {call : Call}
  {account : Account} {token : AuthToken}

structure Signed (s : RouterState) : Prop where
  canonical : s.account.Canonical
  calls : ∀ (k : Nat) (call : Call), s.calls[k]? = some call → call.Signed s.account

/-- The token of the previous promise comes with who was asked to sign it. -/
theorem Signed.previous (hs : s.Signed) (h : s.previous k = .resolved (some token)) :
    ∃ asked, (s.previousTrace k).askedOf = some asked ∧
      ((s.previousTrace k).askedLate = false → token.Names asked) := by
  obtain ⟨j, call, rfl, hcall, houtcome⟩ := previous_eq_some h
  have htrace : s.previousTrace (j + 1) = call.trace := by
    simp [previousTrace, hcall]
  rw [htrace]
  exact (hs.calls j call hcall).askedOf houtcome

theorem Signed.step (hs : s.Signed) (hl : ∀ a, l = .switch a → a.Canonical) (h : Step s l t) :
    t.Signed := by
  refine ⟨?_, ?_⟩
  · cases h with
    | switch hother => exact hl _ rfl
    | _ => exact hs.canonical
  · intro k call hk
    cases h.callStep hk with
    | switched hswitch hcall => exact (hs.calls k _ hcall).switch t.account
    | new hnew hlength => trivial
    | kept hcall hkept =>
      rw [h.account_eq hkept]
      exact hs.calls k call hcall
    | @ready result old hready hcall hnone =>
      rw [h.account_eq (by simp [hready])]
      exact hs.calls k old hcall
    | check hcheck hcall hphase hready hprevious =>
      rw [h.account_eq (by simp [hcheck])]
      refine .check hs.canonical fun token htoken => hs.previous ?_
      rw [hprevious, htoken]
    | failed hfailed hcall hphase hcause => trivial
    | create hcreate hcall hphase hnext =>
      rw [h.account_eq (by simp [hcreate])]
      exact (hs.calls k _ hcall).create hphase hnext
    | asked hask hcall hphase hasked =>
      rw [h.account_eq (by simp [hask])]
      exact (hs.calls k _ hcall).ask hphase

theorem run_signed (hs : s.Signed) (hls : ∀ a, .switch a ∈ ls → a.Canonical)
    (h : Kit.run step s ls = some t) : t.Signed := by
  refine Kit.run_invariant_of (P := Signed) (fun s l t hl hs h => hs.step hl (Step.of_step h)) ?_
    hs h
  intro l hl a ha
  subst ha
  exact hls a hl

/-- In a run without changes every call that has a token has the same one. -/
theorem Since.shared {account : Account} (hs : s.Since 0 account) {first : Call}
    {token₀ : AuthToken} (hfirst : s.calls[0]? = some first)
    (houtcome₀ : first.phase.outcome = .resolved token₀) (hk : s.calls[k]? = some call)
    (houtcome : call.phase.outcome = .resolved token) : token = token₀ := by
  induction k generalizing call token with
  | zero =>
    obtain rfl := Option.some.inj (hfirst.symm.trans hk)
    rw [houtcome₀] at houtcome
    cases houtcome
    rfl
  | succ k ih =>
    cases hphase : call.phase with
    | waiting =>
      rw [hphase] at houtcome
      cases houtcome
    | failed error =>
      rw [hphase] at houtcome
      cases houtcome
    | creating creation => cases hs.creating_first hk (by rw [hphase]; rfl)
    | reused reused =>
      -- it is the token of the call before
      rw [hphase] at houtcome
      cases houtcome
      obtain ⟨-, previous, hprevious, hreused⟩ :=
        hs.linked (k + 1) call hk (by rw [hphase]; rfl)
      obtain ⟨earlier, token', hearlier, houtcome', rfl⟩ := previous_succ_eq_resolved.mp hprevious
      cases hreused token hphase
      exact ih hearlier houtcome'

/-- The account that the token of a call names. -/
theorem Signed.named (hs : s.Signed) (hk : s.calls[k]? = some call)
    (houtcome : call.phase.outcome = .resolved token) :
    (∃ a, call.trace.checkedBy = some a ∧ token.Names a) ∨
      call.phase.isCreating = true ∧ call.trace.switched = true ∧
        ∃ a, call.trace.keyReadBy = some a ∧ token.Names a := by
  have hsigned := hs.calls k call hk
  unfold Call.Signed at hsigned
  cases hphase : call.phase with
  | waiting =>
    rw [hphase] at houtcome
    cases houtcome
  | failed error =>
    rw [hphase] at houtcome
    cases houtcome
  | reused reused =>
    rw [hphase] at houtcome hsigned
    cases houtcome
    exact .inl hsigned.1
  | creating creation =>
    rw [hphase] at houtcome hsigned
    cases creation with
    | fulfilled t =>
      cases houtcome
      obtain ⟨a, hread, hnames, hsame, -⟩ := hsigned
      cases hswitched : call.trace.switched with
      | false => exact .inl ⟨a, hsame hswitched, hnames⟩
      | true => exact .inr ⟨rfl, rfl, a, hread, hnames⟩
    | _ => cases houtcome

/-- Whose token a call has. -/
theorem Signed.of_outcome (hs : s.Signed) (hk : s.calls[k]? = some call)
    (houtcome : call.phase.outcome = .resolved token) :
    (∃ a, call.trace.checkedBy = some a ∧ call.HasTokenBy token a) ∨
      (call.phase.isCreating = true ∧ call.trace.switched = true ∧
        ∃ a, call.trace.keyReadBy = some a ∧ call.HasTokenBy token a) ∨
      (call.trace.askedLate = true ∧ (∃ asked, call.trace.askedOf = some asked) ∧
        ((∃ a, call.trace.checkedBy = some a ∧ token.Names a) ∨
          call.phase.isCreating = true ∧ call.trace.switched = true ∧
            ∃ a, call.trace.keyReadBy = some a ∧ token.Names a)) := by
  obtain ⟨asked, hasked, hnames⟩ := (hs.calls k call hk).askedOf houtcome
  have hnamed := hs.named hk houtcome
  cases hlate : call.trace.askedLate with
  | true => exact .inr (.inr ⟨rfl, ⟨asked, hasked⟩, hnamed⟩)
  | false =>
    have hby : ∃ asked, call.trace.askedOf = some asked ∧ token.Names asked :=
      ⟨asked, hasked, hnames hlate⟩
    rcases hnamed with ⟨a, hchecked, ha⟩ | ⟨hcreating, hswitched, a, hread, ha⟩
    · exact .inl ⟨a, hchecked, ha, hby⟩
    · exact .inr (.inl ⟨hcreating, hswitched, a, hread, ha, hby⟩)

/-- The account has been the same all along. -/
structure Unswitched (account : Account) (s : RouterState) : Prop where
  account_eq : s.account = account
  calls : ∀ (k : Nat) (call : Call), s.calls[k]? = some call →
    call.trace.switched = false ∧ call.trace.askedLate = false ∧
      (∀ a, call.trace.checkedBy = some a → a = account) ∧
        ∀ token algorithm publicKey, call.phase = .creating (.signing token algorithm publicKey) →
          call.trace.keyReadBy = some account

theorem Unswitched.previousTrace (hs : s.Unswitched account) (k : Nat) :
    (s.previousTrace k).askedLate = false := by
  unfold RouterState.previousTrace
  cases hcall : s.calls[k - 1]? with
  | none => rfl
  | some call => exact (hs.calls _ call hcall).2.1

theorem Unswitched.step (hs : s.Unswitched account) (hl : ∀ a, l ≠ .switch a) (h : Step s l t) :
    t.Unswitched account := by
  refine ⟨(h.account_eq hl).trans hs.account_eq, ?_⟩
  intro k call hk
  cases h.callStep hk with
  | new hnew hlength => exact ⟨rfl, rfl, by rintro a ⟨⟩, by rintro _ _ _ ⟨⟩⟩
  | kept hcall _ => exact hs.calls k call hcall
  | @ready result old _ hcall hready => exact hs.calls k old hcall
  | @failed error old _ hcall hphase hcause =>
    obtain ⟨hswitched, hlate, hchecked, -⟩ := hs.calls k old hcall
    exact ⟨hswitched, hlate, hchecked, by rintro _ _ _ ⟨⟩⟩
  | @check previous old hcheck hcall hphase hready hprevious =>
    have hbefore := hs.previousTrace k
    have haccount := hs.account_eq
    rcases getSdkToken_cases s.account s.isWeb3 s.now previous with ⟨token, -, -, h⟩ | ⟨-, h⟩
    · simp only [Call.check, h]
      exact ⟨trivial, hbefore, fun a ha => by cases ha; exact haccount, by simp⟩
    · rw [Creation.createSdkToken_eq] at h
      cases hweb3 : s.isWeb3 with
      | false =>
        rw [hweb3, if_neg Bool.false_ne_true] at h
        simp only [Call.check, h]
        exact ⟨trivial, trivial, fun a ha => by cases ha; exact haccount, by simp⟩
      | true =>
        rw [hweb3, if_pos rfl] at h
        simp only [Call.check, h]
        exact ⟨trivial, trivial, fun a ha => by cases ha; exact haccount, by simp⟩
  | @create event creation next old hcreate hcall hphase hnext =>
    obtain ⟨hswitched, hlate, hchecked, hread⟩ := hs.calls k old hcall
    rcases Creation.step_cases hnext with
      ⟨type, mnemonic, rfl, -, rfl⟩ | ⟨token, algorithm, publicKey, rfl, -, rfl⟩ |
        ⟨token, algorithm, publicKey, value, rfl, rfl⟩ | ⟨error, hpending, rfl, -⟩
    · exact ⟨hswitched, hlate, hchecked, by rintro _ _ _ ⟨⟩⟩
    · exact ⟨hswitched, hlate, hchecked, fun _ _ _ _ => congrArg some hs.account_eq⟩
    · exact ⟨hswitched, hlate, hchecked, by rintro _ _ _ ⟨⟩⟩
    · cases creation <;> exact ⟨hswitched, hlate, hchecked, by rintro _ _ _ ⟨⟩⟩
  | @asked token algorithm publicKey old hask hcall hphase hasked =>
    obtain ⟨hswitched, -, hchecked, hread⟩ := hs.calls k old hcall
    have hkey := hread token algorithm publicKey hphase
    refine ⟨hswitched, ?_, hchecked, hread⟩
    show decide (old.trace.keyReadBy ≠ some s.account) = false
    rw [hkey, hs.account_eq]
    simp
  | switched hswitch hcall => exact absurd hswitch (hl _)

theorem run_unswitched (hls : ∀ a, .switch a ∉ ls) {now : Int} {isWeb3 : Bool}
    (h : Kit.run step (new now isWeb3 account) ls = some u) : u.Unswitched account := by
  refine Kit.run_invariant_of (P := Unswitched account) (fun s l t hl hs h =>
    hs.step hl (Step.of_step h)) ?_ ⟨rfl, by rintro k call ⟨⟩⟩ h
  intro l hl a ha
  subst ha
  exact hls a hl

/-- Between two invocations of `createSdkToken` the account changes. A call has a token that the
account of its check has signed, or a later one that its own creation found when it read the key,
unless the wallet was asked of yet another account. Without a change all calls share one token,
which the first of them makes and the account signs. -/
theorem run_accounts {now : Int} {isWeb3 : Bool} (haccount : account.Canonical)
    (hls : ∀ a, .switch a ∈ ls → a.Canonical)
    (h : Kit.run step (new now isWeb3 account) ls = some u) :
    (∀ ls₁ ls₂ ls₃ i j s s' t t', ls = ls₁ ++ .check i :: (ls₂ ++ .check j :: ls₃) →
      Kit.run step (new now isWeb3 account) ls₁ = some s → s.Invokes i s' →
      Kit.run step s' ls₂ = some t → t.Invokes j t' → ∃ a, .switch a ∈ ls₂) ∧
    (∀ (k : Nat) (call : Call) (token : AuthToken), u.calls[k]? = some call →
      call.phase.outcome = .resolved token →
      (∃ a, call.trace.checkedBy = some a ∧ call.HasTokenBy token a) ∨
        (call.phase.isCreating = true ∧ call.trace.switched = true ∧
          ∃ a, call.trace.keyReadBy = some a ∧ call.HasTokenBy token a) ∨
        (call.trace.askedLate = true ∧ (∃ asked, call.trace.askedOf = some asked) ∧
          ((∃ a, call.trace.checkedBy = some a ∧ token.Names a) ∨
            call.phase.isCreating = true ∧ call.trace.switched = true ∧
              ∃ a, call.trace.keyReadBy = some a ∧ token.Names a))) ∧
    ((∀ a, .switch a ∉ ls) →
      (∀ (k k' : Nat) (call call' : Call) (token token' : AuthToken),
        u.calls[k]? = some call → call.phase.outcome = .resolved token →
        u.calls[k']? = some call' → call'.phase.outcome = .resolved token' →
        token = token' ∧ call.HasTokenBy token account) ∧
      ∀ (k : Nat) (call : Call),
        u.calls[k]? = some call → call.phase.isCreating = true → k = 0) := by
  have hnew : (new now isWeb3 account).Signed := ⟨haccount, by rintro k call ⟨⟩⟩
  have hsigned := run_signed hnew hls h
  refine ⟨?_, ?_, ?_⟩
  · intro ls₁ ls₂ ls₃ i j s s' t t' hsplit hrun₁ hinvokes hrun₂ hinvokes'
    by_contra hnone
    have hs : s.Signed := by
      apply run_signed hnew _ hrun₁
      intro a ha
      exact hls a (by simp [hsplit, ha])
    have hs' : s'.Signed := hs.step (by simp) (Step.of_step hinvokes.1)
    exact hinvokes.not_again (run_linked (new_linked now isWeb3 account) hrun₁) hs'.canonical
      (fun a ha => hnone ⟨a, ha⟩) hrun₂ hinvokes'
  · intro k call token hk houtcome
    exact hsigned.of_outcome hk houtcome
  · intro hnone
    have hu := run_since haccount (new_since now isWeb3 account) hnone h
    have hunswitched := run_unswitched hnone h
    have hfirst : ∀ (k : Nat) (call : Call) (token : AuthToken), u.calls[k]? = some call →
        call.phase.outcome = .resolved token →
        ∃ first token₀, u.calls[0]? = some first ∧ first.phase.outcome = .resolved token₀ := by
      intro k call token hk houtcome
      rcases Nat.eq_zero_or_pos k with rfl | hpos
      · exact ⟨call, token, hk, houtcome⟩
      · exact hu.linked.resolved_of_lt hk (CallPhase.checked_of_resolved houtcome) hpos
    refine ⟨?_, ?_⟩
    · intro k k' call call' token token' hk houtcome hk' houtcome'
      obtain ⟨first, token₀, hcall₀, houtcome₀⟩ := hfirst k call token hk houtcome
      have htoken := hu.shared hcall₀ houtcome₀ hk houtcome
      have htoken' := hu.shared hcall₀ houtcome₀ hk' houtcome'
      refine ⟨by rw [htoken, htoken'], ?_⟩
      -- neither exception comes about without a change
      obtain ⟨hswitched, hlate, hchecked, -⟩ := hunswitched.calls k call hk
      rcases hsigned.of_outcome hk houtcome with
        ⟨a, ha, hby⟩ | ⟨-, hswitched', -⟩ | ⟨hlate', -⟩
      · rw [← hchecked a ha]
        exact hby
      · rw [hswitched] at hswitched'
        cases hswitched'
      · rw [hlate] at hlate'
        cases hlate'
    · intro k call hk hcreating
      exact hu.creating_first hk hcreating

/-- A call whose signer changes from the first to the second key while its token is made. -/
def switchWhileCreating : List RouterEvent :=
  [.getNode, .ready 0 (.ok ()), .check 0, .switch (plainAccount 2), .create 0 (.ready (.ok ())),
    .create 0 (.signed (.ok []))]

theorem plainAccount_canonical (key : UInt8) : (plainAccount key).Canonical := rfl

/-- The call is checked with one account and gets the token of the other. -/
theorem switchWhileCreating_other :
    ∃ u call token, Kit.run step (new 0 false (plainAccount 1)) switchWhileCreating = some u ∧
      u.calls[0]? = some call ∧ call.phase.outcome = .resolved token ∧
      call.trace.checkedBy = some (plainAccount 1) ∧ ¬ token.Names (plainAccount 1) ∧
      ¬ call.HasTokenBy token (plainAccount 1) := by
  have hnot : ∀ token : AuthToken, token.signer = some [2] → ¬ token.Names (plainAccount 1) := by
    rintro token htoken ⟨key, ⟨⟩, hsigner⟩
    rw [htoken] at hsigner
    cases hsigner
  refine ⟨_, _, _, rfl, rfl, rfl, rfl, hnot _ rfl, fun hby => ?_⟩
  exact hnot _ rfl hby.names

/-- A wallet whose account changes once more when the key is read, before it is asked to sign. -/
def switchWhileSigning : List RouterEvent :=
  [.getNode, .ready 0 (.ok ()), .check 0, .create 0 (.registered (plainMnemonic 3)),
    .switch (plainAccount 2), .create 0 (.ready (.ok ())), .switch (plainAccount 1), .ask 0,
    .create 0 (.signed (.ok []))]

/-- There the token names the account whose key was read, and another one was asked for it. -/
theorem switchWhileSigning_accounts :
    ∃ u, Kit.run step (new 0 true (plainAccount 1)) switchWhileSigning = some u ∧
      ∀ (k : Nat) (call : Call) (token : AuthToken), u.calls[k]? = some call →
        call.phase.outcome = .resolved token →
        (∃ a, call.trace.checkedBy = some a ∧ call.HasTokenBy token a) ∨
          (call.phase.isCreating = true ∧ call.trace.switched = true ∧
            ∃ a, call.trace.keyReadBy = some a ∧ call.HasTokenBy token a) ∨
          (call.trace.askedLate = true ∧ (∃ asked, call.trace.askedOf = some asked) ∧
            ((∃ a, call.trace.checkedBy = some a ∧ token.Names a) ∨
              call.phase.isCreating = true ∧ call.trace.switched = true ∧
                ∃ a, call.trace.keyReadBy = some a ∧ token.Names a)) := by
  obtain ⟨u, hu⟩ :
      ∃ u, Kit.run step (new 0 true (plainAccount 1)) switchWhileSigning = some u := ⟨_, rfl⟩
  have hls : ∀ a, .switch a ∈ switchWhileSigning → a.Canonical := by
    intro a ha
    simp only [switchWhileSigning, List.mem_cons, List.not_mem_nil, reduceCtorEq, false_or,
      or_false, RouterEvent.switch.injEq] at ha
    rcases ha with rfl | rfl
    · exact plainAccount_canonical 2
    · exact plainAccount_canonical 1
  obtain ⟨-, hsigned, -⟩ := run_accounts (plainAccount_canonical 1) hls hu
  exact ⟨u, hu, hsigned⟩

end RouterState

end CereDdc
