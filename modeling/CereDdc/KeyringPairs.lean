import CereDdc.Constants
import CereDdc.Kit.Runs

/-!
# Keyring pairs — `blockchain/Signer/KeyringSigner.ts`, `UriSigner.ts`, `JsonSigner.ts`

`isReady` looks for the key pair, waits for the crypto library, and makes a pair.
Any number of calls wait at the same time, those that `unlock` and the constructor
make among them.
-/

namespace CereDdc

/-! ## Classes -/

/-- The class of a signer, with what its constructor was given: a pair that is locked or not, a
URI or an account of which the keyring makes pairs, or fails to. -/
inductive KeyringClass
  | keyringSigner (pair : Option Bool)
  | uriSigner (addFromUri : Except JsError Unit)
  | jsonSigner (addFromJson : Except JsError Unit) (passphrase : Option String)

/-- Where a call waits. -/
inductive SignerPhase
  /-- `cryptoWaitReady()` -/
  | crypto
  /-- `isReady()` has settled. That is the end of the call, unless it was made by `unlock`. -/
  | ready (result : Except JsError Bool)
  /-- `unlock()` has settled. -/
  | unlocked (result : Except JsError Unit)
  deriving DecidableEq

/-- A call of `isReady()`, or of `unlock(passphrase)`. -/
inductive SignerCall
  | isReady
  | unlock (passphrase : Option String)
  deriving DecidableEq

structure KeyringState where
  /-- Whether each of the pairs is locked. -/
  pairs : List Bool
  /-- `this.pair` -/
  pair : Option Nat
  /-- The pairs that `isReady` has assigned, in their order. -/
  assigned : List Nat := []
  calls : List (SignerCall × SignerPhase) := []
  deriving DecidableEq

inductive KeyringEvent
  | call (call : SignerCall)
  /-- `cryptoWaitReady()` settles for call `i`, which goes on. -/
  | crypto (i : Nat) (result : Except JsError Bool)
  /-- `unlock`, call `i`, goes on after its `isReady()`. -/
  | resume (i : Nat)

def notReady : JsError := .error "Key pair is not ready!"

def notProvided : JsError := .error "Key pair is not provided!"

namespace KeyringState

/-! ## Steps -/

/-- `isReady()`, up to its first await. -/
def start (s : KeyringState) (call : SignerCall) : KeyringState :=
  { s with
    calls := s.calls ++ [(call, if s.pair.isSome then .ready (.ok true) else .crypto)] }

/-- The constructor. -/
def new : KeyringClass → KeyringState
  | .keyringSigner pair => start { pairs := pair.toList, pair := pair.map fun _ => 0 } .isReady
  | _ => start { pairs := [], pair := none } .isReady

def setPhase (s : KeyringState) (i : Nat) (phase : SignerPhase) : KeyringState :=
  { s with calls := s.calls.modify i fun call => (call.1, phase) }

variable (unlock : Option String → Except JsError Unit) (signer : KeyringClass)

/-- `createPair()`: the pairs with the new one, and which it is. `unlock` is what unlocking a pair
with a passphrase comes to. -/
def createPair (s : KeyringState) : Except JsError (List Bool × Nat) :=
  match signer with
  | .keyringSigner _ =>
    match s.pair with
    | some pair => .ok (s.pairs, pair)
    | none => .error notProvided
  | .uriSigner addFromUri => addFromUri.map fun _ => (s.pairs ++ [false], s.pairs.length)
  | .jsonSigner addFromJson passphrase => do
    addFromJson
    match passphrase with
    | none => return (s.pairs ++ [true], s.pairs.length)
    | some passphrase =>
      if passphrase = "" then return (s.pairs ++ [true], s.pairs.length)
      else
        unlock (some passphrase)
        return (s.pairs ++ [false], s.pairs.length)

/-- `isReady` of call `i` has the answer of the crypto library. -/
def gotCrypto (s : KeyringState) (i : Nat) : Except JsError Bool → KeyringState
  | .ok true =>
    match s.createPair unlock signer with
    | .ok (pairs, pair) =>
      { s with pairs, pair := some pair, assigned := s.assigned ++ [pair] }.setPhase i
        (.ready (.ok true))
    | .error e => s.setPhase i (.ready (.error e))
  | .ok false => s.setPhase i (.ready (.ok false))
  | .error e => s.setPhase i (.ready (.error e))

/-- `unlock(passphrase)`, call `i`, after its `isReady()`. -/
def unlockPair (s : KeyringState) (i : Nat) (passphrase : Option String) :
    Except JsError Bool → KeyringState
  | .error e => s.setPhase i (.unlocked (.error e))
  | .ok _ =>
    match s.pair with
    | none => s.setPhase i (.unlocked (.error notReady))
    | some pair =>
      if s.pairs[pair]? = some true then
        match unlock passphrase with
        | .error e => s.setPhase i (.unlocked (.error e))
        | .ok () => { s with pairs := s.pairs.set pair false }.setPhase i (.unlocked (.ok ()))
      else s.setPhase i (.unlocked (.ok ()))

def step (s : KeyringState) : KeyringEvent → Option KeyringState
  | .call call => some (s.start call)
  | .crypto i result =>
    match s.calls[i]? with
    | some (_, .crypto) => some (s.gotCrypto unlock signer i result)
    | _ => none
  | .resume i =>
    match s.calls[i]? with
    | some (.unlock passphrase, .ready result) => some (s.unlockPair unlock i passphrase result)
    | _ => none

/-! ## What holds of every run -/

/-- Some call of `unlock` has resolved. -/
def Unlocked (s : KeyringState) : Prop := ∃ call, (call, .unlocked (.ok ())) ∈ s.calls

/-- A pair was made at most once, and after a call of `unlock` the signer has a pair that is not
locked. -/
structure Stable (s : KeyringState) : Prop where
  once : s.assigned.length ≤ 1
  unlocked : s.Unlocked → ∃ pair, s.pair = some pair ∧ s.pairs[pair]? = some false

/-- A call that goes on with the crypto library finds no pair yet, or cannot make one. -/
def FindsNoPair (s : KeyringState) (event : KeyringEvent) : Prop :=
  ∀ i, event = .crypto i (.ok true) →
    s.pair = none ∨ ∃ e, s.createPair unlock signer = .error e

/-- While there is no pair none was assigned; and once there is one, calls still wait for the
crypto library only if one of them has made it. -/
structure Kept (s : KeyringState) : Prop where
  none : s.pair = none → s.assigned = []
  waits : ∀ (i : Nat) call, s.calls[i]? = some (call, .crypto) → s.pair.isSome → s.assigned ≠ []
  lt : ∀ pair, s.pair = some pair → pair < s.pairs.length

variable {unlock : Option String → Except JsError Unit} {signer : KeyringClass}
  {s t : KeyringState} {event : KeyringEvent} {events : List KeyringEvent} {i : Nat}
  {call : SignerCall} {phase : SignerPhase}

theorem mem_setPhase {entry : SignerCall × SignerPhase} (h : entry ∈ (s.setPhase i phase).calls) :
    entry ∈ s.calls ∨ entry.2 = phase := by
  obtain ⟨j, hj, hentry⟩ := List.mem_iff_getElem.mp h
  simp only [setPhase, List.getElem_modify] at hentry
  split at hentry
  · exact .inr (by rw [← hentry])
  · exact .inl (hentry ▸ List.getElem_mem _)

theorem crypto_of_setPhase {j : Nat} (hphase : phase ≠ .crypto)
    (h : (s.setPhase i phase).calls[j]? = some (call, .crypto)) :
    s.calls[j]? = some (call, .crypto) := by
  simp only [setPhase, List.getElem?_modify] at h
  obtain ⟨entry, hentry, heq⟩ := Option.map_eq_some_iff.mp h
  split at heq
  · simp only [Prod.mk.injEq] at heq
    exact absurd heq.2 hphase
  · rw [hentry]
    exact congrArg some heq

/-- A phase that is not the end of an `unlock` changes nothing about which calls have resolved. -/
theorem unlocked_of_setPhase (hphase : phase ≠ .unlocked (.ok ()))
    (h : (s.setPhase i phase).Unlocked) : s.Unlocked := by
  obtain ⟨call, hcall⟩ := h
  rcases mem_setPhase hcall with hold | hnew
  · exact ⟨call, hold⟩
  · exact absurd hnew.symm hphase

theorem createPair_lt {pairs : List Bool} {pair : Nat}
    (hlt : ∀ pair, s.pair = some pair → pair < s.pairs.length)
    (h : s.createPair unlock signer = .ok (pairs, pair)) : pair < pairs.length := by
  cases signer with
  | keyringSigner given =>
    simp only [createPair] at h
    split at h
    · next p hpair =>
      cases h
      exact hlt _ hpair
    · cases h
  | uriSigner addFromUri =>
    cases addFromUri with
    | error e => cases h
    | ok _ =>
      cases h
      simp
  | jsonSigner addFromJson passphrase =>
    cases addFromJson with
    | error e => cases h
    | ok _ =>
      simp only [createPair, bind, Except.bind] at h
      split at h
      · cases h
        simp
      · split at h
        · cases h
          simp
        · split at h
          · cases h
          · cases h
            simp

/-- A call gets to another phase, and nothing else changes. -/
theorem Kept.setPhase (hs : Kept s) (hphase : phase ≠ .crypto) : Kept (s.setPhase i phase) where
  none := hs.none
  waits := fun j call hcall => hs.waits j call (crypto_of_setPhase hphase hcall)
  lt := hs.lt

theorem kept_new : Kept (new signer) := by
  cases signer with
  | keyringSigner given =>
    cases given with
    | none =>
      refine ⟨fun _ => rfl, ?_, ?_⟩
      · intro j call _ hpair
        cases hpair
      · intro pair hpair
        cases hpair
    | some locked =>
      refine ⟨fun _ => rfl, ?_, ?_⟩
      · intro j call hcall _
        change [(SignerCall.isReady, SignerPhase.ready (.ok true))][j]? = _ at hcall
        rw [List.getElem?_singleton] at hcall
        split at hcall <;> cases hcall
      · intro pair hpair
        cases hpair
        exact Nat.one_pos
  | uriSigner addFromUri =>
    refine ⟨fun _ => rfl, ?_, ?_⟩
    · intro j call _ hpair
      cases hpair
    · intro pair hpair
      cases hpair
  | jsonSigner addFromJson passphrase =>
    refine ⟨fun _ => rfl, ?_, ?_⟩
    · intro j call _ hpair
      cases hpair
    · intro pair hpair
      cases hpair

theorem Kept.start (hs : Kept s) : Kept (s.start call) where
  none := hs.none
  waits := by
    intro j call' hcall hpair
    change (s.calls ++ [_])[j]? = _ at hcall
    rw [List.getElem?_append] at hcall
    split at hcall
    · exact hs.waits j call' hcall hpair
    · -- a new call does not wait when there is a pair
      change s.pair.isSome at hpair
      rw [List.getElem?_singleton, if_pos hpair] at hcall
      split at hcall <;> cases hcall
  lt := hs.lt

theorem Kept.gotCrypto {result : Except JsError Bool} (hs : Kept s) :
    Kept (s.gotCrypto unlock signer i result) := by
  unfold KeyringState.gotCrypto
  split
  · split
    · next pairs pair hcreated =>
      refine Kept.setPhase ⟨?_, ?_, ?_⟩ (by simp)
      · intro hpair
        cases hpair
      · simp
      · intro pair' hpair
        cases hpair
        exact createPair_lt hs.lt hcreated
    · exact hs.setPhase (by simp)
  · exact hs.setPhase (by simp)
  · exact hs.setPhase (by simp)

theorem Kept.unlockPair {passphrase : Option String} {result : Except JsError Bool} (hs : Kept s) :
    Kept (s.unlockPair unlock i passphrase result) := by
  unfold KeyringState.unlockPair
  split
  · exact hs.setPhase (by simp)
  · split
    · exact hs.setPhase (by simp)
    · split
      · split
        · exact hs.setPhase (by simp)
        · refine Kept.setPhase ⟨hs.none, hs.waits, ?_⟩ (by simp)
          intro pair hpair
          show pair < (s.pairs.set _ _).length
          rw [List.length_set]
          exact hs.lt pair hpair
      · exact hs.setPhase (by simp)

theorem Kept.step (hs : Kept s) (h : s.step unlock signer event = some t) : Kept t := by
  cases event with
  | call call =>
    cases h
    exact hs.start
  | crypto i result =>
    simp only [KeyringState.step] at h
    split at h
    · cases h
      exact hs.gotCrypto
    · cases h
  | resume i =>
    simp only [KeyringState.step] at h
    split at h
    · cases h
      exact hs.unlockPair
    · cases h

/-! ## Stability -/

theorem Stable.setPhase (hs : Stable s) (hphase : phase ≠ .unlocked (.ok ())) :
    Stable (s.setPhase i phase) where
  once := hs.once
  unlocked := fun h => hs.unlocked (unlocked_of_setPhase hphase h)

theorem Stable.start (hs : Stable s) : Stable (s.start call) where
  once := hs.once
  unlocked := by
    rintro ⟨call', hcall⟩
    refine hs.unlocked ⟨call', ?_⟩
    rcases List.mem_append.mp hcall with hold | hnew
    · exact hold
    · simp only [List.mem_singleton, Prod.mk.injEq] at hnew
      split at hnew <;> cases hnew.2

/-- `unlock` only ever unlocks. -/
theorem Stable.unlockPair {passphrase : Option String} {result : Except JsError Bool}
    (hs : Stable s) (hkept : Kept s) : Stable (s.unlockPair unlock i passphrase result) := by
  unfold KeyringState.unlockPair
  split
  · exact hs.setPhase (by simp)
  · split
    · exact hs.setPhase (by simp)
    · next pair hpair =>
      have hlt := hkept.lt pair hpair
      split
      · split
        · exact hs.setPhase (by simp)
        · refine ⟨hs.once, fun _ => ⟨pair, hpair, ?_⟩⟩
          show (s.pairs.set pair false)[pair]? = some false
          rw [List.getElem?_set_self hlt]
      · next hlocked =>
        refine ⟨hs.once, fun _ => ⟨pair, hpair, ?_⟩⟩
        show s.pairs[pair]? = some false
        rw [List.getElem?_eq_getElem hlt] at hlocked ⊢
        simpa using hlocked

/-- A call goes on with the crypto library: whether it finds a pair decides. -/
theorem stable_gotCrypto_iff {result : Except JsError Bool} (hs : Stable s) (hkept : Kept s)
    (hcall : s.calls[i]? = some (call, .crypto)) :
    Stable (s.gotCrypto unlock signer i result) ↔
      (result = .ok true → s.pair = none ∨ ∃ e, s.createPair unlock signer = .error e) := by
  unfold KeyringState.gotCrypto
  split
  · split
    · next pairs pair hcreated =>
      simp only [hcreated, true_implies, reduceCtorEq, exists_false, or_false]
      constructor
      · intro hstable
        have honce := hstable.once
        change (s.assigned ++ [pair]).length ≤ 1 at honce
        by_contra hpair
        -- the pair there is was made by another call, and this is the second
        have hassigned := hkept.waits i call hcall (Option.isSome_iff_ne_none.mpr hpair)
        have hpos := List.length_pos_iff.mpr hassigned
        simp only [List.length_append, List.length_singleton] at honce
        omega
      · intro hpair
        refine Stable.setPhase ⟨?_, ?_⟩ (by simp)
        · simp [hkept.none hpair]
        · intro hunlocked
          obtain ⟨pair', hpair', -⟩ := hs.unlocked hunlocked
          rw [hpair] at hpair'
          cases hpair'
    · next e hcreated =>
      exact ⟨fun _ _ => .inr ⟨e, hcreated⟩, fun _ => hs.setPhase (by simp)⟩
  · exact ⟨fun _ h => (by cases h), fun _ => hs.setPhase (by simp)⟩
  · exact ⟨fun _ h => (by cases h), fun _ => hs.setPhase (by simp)⟩

theorem stable_step_iff (hkept : Kept s) (hs : Stable s)
    (h : s.step unlock signer event = some t) :
    Stable t ↔ FindsNoPair unlock signer s event := by
  cases event with
  | call call =>
    cases h
    exact ⟨fun _ _ heq => (by cases heq), fun _ => hs.start⟩
  | crypto i result =>
    simp only [KeyringState.step] at h
    split at h
    · next call hcall =>
      cases h
      rw [stable_gotCrypto_iff hs hkept hcall]
      constructor
      · intro hfinds j heq
        cases heq
        exact hfinds rfl
      · rintro hfinds rfl
        exact hfinds i rfl
    · cases h
  | resume i =>
    simp only [KeyringState.step] at h
    split at h
    · cases h
      exact ⟨fun _ _ heq => (by cases heq), fun _ => hs.unlockPair hkept⟩
    · cases h

theorem stable_new : Stable (new signer) := by
  have hunlocked : ∀ phase : SignerPhase, phase ≠ .unlocked (.ok ()) →
      ∀ s : KeyringState, s.calls = [(.isReady, phase)] → ¬ s.Unlocked := by
    rintro phase hphase s hcalls ⟨call, hcall⟩
    rw [hcalls, List.mem_singleton, Prod.mk.injEq] at hcall
    exact hphase hcall.2.symm
  cases signer with
  | keyringSigner given =>
    cases given with
    | none =>
      exact ⟨by simp [new, KeyringState.start],
        fun h => absurd h (hunlocked .crypto (by simp) _ rfl)⟩
    | some locked =>
      exact ⟨by simp [new, KeyringState.start],
        fun h => absurd h (hunlocked (.ready (.ok true)) (by simp) _ rfl)⟩
  | uriSigner addFromUri =>
    exact ⟨by simp [new, KeyringState.start], fun h => absurd h (hunlocked .crypto (by simp) _ rfl)⟩
  | jsonSigner addFromJson passphrase =>
    exact ⟨by simp [new, KeyringState.start], fun h => absurd h (hunlocked .crypto (by simp) _ rfl)⟩

/-- A signer has one pair, and stays unlocked, exactly in the runs in which no call finds a pair
when it goes on with the crypto library. -/
theorem stable_iff (h : Kit.run (step unlock signer) (new signer) events = some t) :
    Kit.Always (step unlock signer) Stable (new signer) events ↔
      Kit.EachStep (step unlock signer) (FindsNoPair unlock signer) (new signer) events :=
  Kit.always_iff_eachStep (I := Kept) (fun _ _ _ hs h => hs.step h)
    (fun _ _ _ hkept hs h => stable_step_iff hkept hs h) kept_new stable_new h

/-- An account that any passphrase unlocks, for a signer without one. -/
def lockedAccount : KeyringClass := .jsonSigner (.ok ()) none

theorem unlock_stable :
    Kit.Always (step (fun _ => .ok ()) lockedAccount) Stable (new lockedAccount)
      [.crypto 0 (.ok true), .call (.unlock (some "1234")), .resume 1] := by
  have hrun : Kit.run (step (fun _ => .ok ()) lockedAccount) (new lockedAccount)
      [.crypto 0 (.ok true), .call (.unlock (some "1234")), .resume 1] = some _ := rfl
  refine (stable_iff hrun).mpr ?_
  refine .cons (fun _ _ => .inl rfl) rfl ?_
  refine .cons (fun _ heq => by cases heq) rfl ?_
  exact .cons (fun _ heq => by cases heq) rfl trivial

/-- A call of `isReady` that has waited while the signer was unlocked locks it again. -/
theorem unlock_lost :
    ∃ s t, Kit.run (step (fun _ => .ok ()) lockedAccount) (new lockedAccount)
        [.call (.unlock (some "1234")), .call .isReady, .crypto 0 (.ok true),
          .crypto 1 (.ok true), .resume 1] = some s ∧
      s.Unlocked ∧ (s.pair.bind fun pair => s.pairs[pair]?) = some false ∧
      Kit.run (step (fun _ => .ok ()) lockedAccount) s [.crypto 2 (.ok true)] = some t ∧
      (t.pair.bind fun pair => t.pairs[pair]?) = some true ∧ t.assigned = [0, 1, 2] :=
  ⟨_, _, rfl, ⟨.unlock (some "1234"), by decide⟩, rfl, rfl, rfl, rfl⟩

end KeyringState

end CereDdc
