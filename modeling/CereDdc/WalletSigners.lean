import CereDdc.AuthToken
import CereDdc.Kit.Runs

/-!
# Wallet signers — `blockchain/Signer/Web3Signer.ts`, `CereWalletSigner.ts`

The account of a wallet signer is what the wallet has offered last. Calls of
`isReady`, `connect` and `createSignature` run side by side, cut at their awaits,
and the wallet may offer other accounts at any time.
-/

namespace CereDdc

/-! ## Wallets -/

/-- An account as a wallet lists it. -/
structure WalletAccount where
  type : Option SignerType
  address : Address
  deriving DecidableEq, Repr

/-- The class of the signer, with the options that it looks at. -/
inductive WalletClass
  | web3Signer (accountAddress : Option Address) (accountIndex : Nat) (autoConnect : Bool)
  | cereWalletSigner (autoConnect : Bool)
  deriving DecidableEq, Repr

namespace WalletClass

def autoConnect : WalletClass → Bool
  | web3Signer _ _ autoConnect => autoConnect
  | cereWalletSigner autoConnect => autoConnect

def accountAddress : WalletClass → Option Address
  | web3Signer accountAddress _ _ => accountAddress
  | cereWalletSigner _ => none

/-- Does `isReady()` look for an account where there is none? -/
def connects : WalletClass → Bool
  | web3Signer _ _ autoConnect => autoConnect
  | cereWalletSigner _ => true

/-- The account that the signer takes from a list: that of its address, that of its index, or for
`setAccount([account])` the first. -/
def pick : WalletClass → List WalletAccount → Option WalletAccount
  | web3Signer (some address) _ _, accounts => accounts.find? (·.address = address)
  | web3Signer none accountIndex _, accounts => accounts[accountIndex]?
  | cereWalletSigner _, accounts => accounts.head?

end WalletClass

/-! ## Calls -/

inductive WalletCall
  | isReady
  | connect
  /-- `createSignature(signer, message)` -/
  | createSignature (message : Bytes)
  deriving DecidableEq, Repr

/-- Where a call waits. -/
inductive WalletPhase
  /-- `cryptoWaitReady()`, for the other class together with `extensionPromise` -/
  | crypto
  /-- `web3Enable(originName)`, `wallet.connect(options)` -/
  | enabling
  /-- `web3Accounts(...)`, `accounts.get()` -/
  | listing
  /-- `connect()` has resolved for a call of `isReady()`. -/
  | connected
  /-- `web3EnablePromise` -/
  | enablePromise
  /-- `syncAccount()` of `isReady()` -/
  | syncing
  /-- `isReady()` has resolved for a call of `createSignature()`. -/
  | ready
  /-- `getInjector()`; the algorithm and the key are read. -/
  | injector (algorithm : SignatureAlgorithm) (publicKey : PublicKey)
  /-- `signRaw(...)` -/
  | signing (algorithm : SignatureAlgorithm) (publicKey : PublicKey)
  | settled (result : Except JsError (Option Signature))
  deriving DecidableEq

/-- What `signRaw` was asked for: the head that the signature will have, the account, and the message
that the wallet gets, wrapped in `<Bytes>`. -/
structure SignRequest where
  algorithm : SignatureAlgorithm
  publicKey : PublicKey
  address : Address
  message : Bytes
  deriving DecidableEq

structure WalletState where
  injectedAccount : Option WalletAccount := none
  /-- The calls of `signRaw` so far. -/
  requests : List SignRequest := []
  calls : List (WalletCall × WalletPhase) := []
  deriving DecidableEq

inductive WalletEvent
  | call (call : WalletCall)
  /-- What call `i` waits for settles. -/
  | crypto (i : Nat) (result : Except JsError Unit)
  | enabled (i : Nat) (result : Except JsError Unit)
  | accounts (i : Nat) (result : Except JsError (List WalletAccount))
  | enablePromise (i : Nat) (result : Except JsError Unit)
  /-- The injector is there; it tells whether its signer has a `signRaw`. -/
  | injector (i : Nat) (result : Except JsError Bool)
  | signed (i : Nat) (result : Except JsError Bytes)
  /-- Call `i` goes on after its `connect()` or `isReady()`. -/
  | resume (i : Nat)
  /-- The wallet calls the `setAccount` that the constructor has given it. -/
  | accountsChanged (accounts : List WalletAccount)

/-- The list of accounts that the event brings. -/
def WalletEvent.offers : WalletEvent → Option (List WalletAccount)
  | accounts _ (.ok listed) => some listed
  | accountsChanged listed => some listed
  | _ => none

def accountNotReady : JsError := .error "Web3Signer account is not ready"

def accountNotDetected : JsError := .error "Web3Signer account cannot be detected"

def noSignRaw : JsError := .error "Signer does not support signing raw messages"

namespace WalletState

variable (wallet : WalletClass)

/-! ## Getters -/

/-- `type`, `address` and `publicKey`. -/
def account (s : WalletState) : Except JsError Account :=
  match s.injectedAccount with
  | some account =>
    .ok (Web3Signer wallet.accountAddress ⟨account.type, account.address.publicKey⟩ .ok).toAccount
  | none => .error accountNotReady

/-- `address` -/
def address (s : WalletState) : Except JsError Address :=
  match wallet.accountAddress with
  | some address => .ok address
  | none => (s.account wallet).map (·.address)

/-! ## Steps -/

def start (s : WalletState) (call : WalletCall) : WalletState :=
  { s with
    calls := s.calls ++
      [(call, match call with
        | .connect => .enabling
        | _ => .crypto)] }

def setPhase (s : WalletState) (i : Nat) (phase : WalletPhase) : WalletState :=
  { s with calls := s.calls.modify i fun call => (call.1, phase) }

/-- What comes after `isReady()` has resolved. -/
def afterReady : WalletCall → WalletPhase
  | .createSignature _ => .ready
  | _ => .settled (.ok none)

/-- What comes after `connect()` has resolved. -/
def afterConnect : WalletCall → WalletPhase
  | .connect => .settled (.ok none)
  | _ => .connected

/-- The last await of `isReady()`. -/
def lastAwait : WalletClass → WalletPhase
  | .web3Signer _ _ _ => .enablePromise
  | .cereWalletSigner _ => .syncing

/-- `isReady()` after its first await. -/
def gotCrypto (s : WalletState) (i : Nat) (call : WalletCall) : Except JsError Unit → WalletState
  | .error e => s.setPhase i (.settled (.error e))
  | .ok () => s.setPhase i <|
    if s.injectedAccount.isSome then afterReady call
    else if wallet.autoConnect then .enabling
    else lastAwait wallet

/-- `connect()` with the list of accounts. -/
def gotAccounts (s : WalletState) (i : Nat) (call : WalletCall) (accounts : List WalletAccount) :
    WalletState :=
  { s with injectedAccount := wallet.pick accounts }.setPhase i <|
    match wallet, wallet.pick accounts with
    | .web3Signer _ _ _, none => .settled (.error accountNotDetected)
    | _, _ => afterConnect call

/-- `createSignature()` after `isReady()`. -/
def gotReady (s : WalletState) (i : Nat) : WalletState :=
  s.setPhase i <|
    match s.account wallet >>= signatureHead with
    | .ok (algorithm, publicKey) => .injector algorithm publicKey
    | .error e => .settled (.error e)

/-- `signRaw(...)` -/
def ask (s : WalletState) (i : Nat) (request : SignRequest) : WalletState :=
  { s with requests := s.requests ++ [request] }.setPhase i
    (.signing request.algorithm request.publicKey)

/-- `sign(message)` with the injector. -/
def gotInjector (s : WalletState) (i : Nat) (message : Bytes) (algorithm : SignatureAlgorithm)
    (publicKey : PublicKey) : Except JsError Bool → WalletState
  | .error e => s.setPhase i (.settled (.error e))
  | .ok false => s.setPhase i (.settled (.error noSignRaw))
  | .ok true =>
    match s.address wallet with
    | .error e => s.setPhase i (.settled (.error e))
    | .ok address =>
      s.ask i { algorithm, publicKey, address, message }

def step (s : WalletState) : WalletEvent → Option WalletState
  | .call call => some (s.start call)
  | .crypto i result =>
    match s.calls[i]? with
    | some (call, .crypto) => some (s.gotCrypto wallet i call result)
    | _ => none
  | .enabled i result =>
    match s.calls[i]? with
    | some (_, .enabling) => some <| s.setPhase i <|
      match result with
      | .ok () => .listing
      | .error e => .settled (.error e)
    | _ => none
  | .accounts i result =>
    match s.calls[i]?, result with
    | some (call, .listing), .ok accounts => some (s.gotAccounts wallet i call accounts)
    | some (call, .syncing), .ok accounts =>
      some ({ s with injectedAccount := wallet.pick accounts }.setPhase i (afterReady call))
    | some (_, .listing), .error e => some (s.setPhase i (.settled (.error e)))
    | some (_, .syncing), .error e => some (s.setPhase i (.settled (.error e)))
    | _, _ => none
  | .enablePromise i result =>
    match s.calls[i]? with
    | some (call, .enablePromise) => some <| s.setPhase i <|
      match result with
      | .ok () => afterReady call
      | .error e => .settled (.error e)
    | _ => none
  | .injector i result =>
    match s.calls[i]? with
    | some (.createSignature message, .injector algorithm publicKey) =>
      some (s.gotInjector wallet i message algorithm publicKey result)
    | _ => none
  | .signed i result =>
    match s.calls[i]? with
    | some (_, .signing algorithm publicKey) =>
      some (s.setPhase i (.settled (result.map fun value => some (.mk algorithm publicKey value))))
    | _ => none
  | .resume i =>
    match s.calls[i]? with
    | some (_, .connected) => some (s.setPhase i (lastAwait wallet))
    | some (_, .ready) => some (s.gotReady wallet i)
    | _ => none
  | .accountsChanged accounts =>
    match wallet with
    | .cereWalletSigner _ => some { s with injectedAccount := wallet.pick accounts }
    | .web3Signer _ _ _ => none

/-! ## What the wallet is asked for -/

/-- The signature is to name the key of the account that is asked to sign. -/
def Named (request : SignRequest) : Prop := decodeAddress request.address = .ok request.publicKey

/-- When `signRaw` is called, the address still is one of the key that was read before. -/
def SameAccount (s : WalletState) (event : WalletEvent) : Prop :=
  ∀ i message algorithm publicKey address, event = .injector i (.ok true) →
    s.calls[i]? = some (.createSignature message, .injector algorithm publicKey) →
    s.address wallet = .ok address → decodeAddress address = .ok publicKey

/-- A phase in which nothing is asked of `signRaw`, and nothing has come of it. -/
def Quiet : WalletPhase → Prop
  | .signing _ _ => False
  | .settled (.ok (some _)) => False
  | _ => True

/-- What a call has asked for is among the requests. -/
def AskedFor (requests : List SignRequest) : WalletCall × WalletPhase → Prop
  | (.createSignature message, .signing algorithm publicKey) =>
    ∃ address, ⟨algorithm, publicKey, address, message⟩ ∈ requests
  | (.createSignature message, .settled (.ok (some signature))) =>
    ∃ address, ⟨signature.algorithm, signature.signer, address, message⟩ ∈ requests
  | (_, phase) => Quiet phase

variable {wallet : WalletClass} {s t : WalletState} {event : WalletEvent} {i : Nat}
  {call : WalletCall} {phase : WalletPhase} {message : Bytes} {algorithm : SignatureAlgorithm}
  {publicKey : PublicKey} {entry : WalletCall × WalletPhase} {requests : List SignRequest}

theorem mem_setPhase (h : entry ∈ (s.setPhase i phase).calls) :
    entry ∈ s.calls ∨ ∃ call before, s.calls[i]? = some (call, before) ∧ entry = (call, phase) := by
  obtain ⟨j, hj⟩ := List.mem_iff_getElem?.mp h
  simp only [setPhase, List.getElem?_modify] at hj
  obtain ⟨old, hold, heq⟩ := Option.map_eq_some_iff.mp hj
  split at heq
  · next hij =>
    subst hij
    exact .inr ⟨old.1, old.2, hold, heq.symm⟩
  · exact .inl (heq ▸ List.mem_of_getElem? hold)

/-- The account of the signer was set when the call got to this phase. -/
def Found : WalletPhase → Prop
  | .connected => True
  | .enablePromise => True
  | .ready => True
  | .settled (.ok none) => True
  | _ => False

/-- What is known of a call that gets to a phase without `signRaw`: where its head and its account
come from. -/
structure Idle (wallet : WalletClass) (s : WalletState) (event : WalletEvent) (call : WalletCall)
    (phase : WalletPhase) : Prop where
  quiet : Quiet phase
  head : ∀ algorithm publicKey, phase = .injector algorithm publicKey →
    s.account wallet >>= signatureHead = .ok (algorithm, publicKey)
  found : Found phase → wallet.connects = false ∨ event.offers.isSome ∨ s.injectedAccount.isSome ∨
    ∃ before, (call, before) ∈ s.calls ∧ Found before

theorem idle_of_not_found (hquiet : Quiet phase) (hfound : ¬ Found phase)
    (hhead : ∀ algorithm publicKey, phase ≠ .injector algorithm publicKey) :
    Idle wallet s event call phase :=
  ⟨hquiet, fun algorithm publicKey heq => absurd heq (hhead algorithm publicKey),
    fun h => absurd h hfound⟩

theorem idle_error {e : JsError} : Idle wallet s event call (.settled (.error e)) :=
  idle_of_not_found trivial id (by simp)

theorem idle_afterReady (h : wallet.connects = false ∨ event.offers.isSome ∨
    s.injectedAccount.isSome ∨ ∃ before, (call, before) ∈ s.calls ∧ Found before) :
    Idle wallet s event call (afterReady call) := by
  cases call <;> exact ⟨trivial, by simp [afterReady], fun _ => h⟩

theorem idle_afterConnect (h : event.offers.isSome) :
    Idle wallet s event call (afterConnect call) := by
  cases call <;> exact ⟨trivial, by simp [afterConnect], fun _ => .inr (.inl h)⟩

theorem idle_lastAwait (h : wallet.connects = false ∨ event.offers.isSome ∨
    s.injectedAccount.isSome ∨ ∃ before, (call, before) ∈ s.calls ∧ Found before) :
    Idle wallet s event call (lastAwait wallet) := by
  cases wallet <;> exact ⟨trivial, by simp [lastAwait], fun _ => h⟩

/-- A step in which `signRaw` is not called and does not answer. -/
structure QuietStep (wallet : WalletClass) (s : WalletState) (event : WalletEvent)
    (t : WalletState) : Prop where
  requests : t.requests = s.requests
  calls : ∀ entry ∈ t.calls, entry ∈ s.calls ∨ Idle wallet s event entry.1 entry.2
  same : SameAccount wallet s event
  account : t.injectedAccount = (event.offers.map wallet.pick).getD s.injectedAccount

theorem sameAccount_of_ne (h : ∀ i, event ≠ .injector i (.ok true)) :
    SameAccount wallet s event :=
  fun i _ _ _ _ heq => absurd heq (h i)

theorem calls_setPhase {before : WalletPhase} (hcall : s.calls[i]? = some (call, before))
    (hphase : Idle wallet s event call phase) :
    ∀ entry ∈ (s.setPhase i phase).calls,
      entry ∈ s.calls ∨ Idle wallet s event entry.1 entry.2 := by
  intro entry hentry
  rcases mem_setPhase hentry with hold | ⟨call', before', hcall', rfl⟩
  · exact .inl hold
  · cases hcall.symm.trans hcall'
    exact .inr hphase

theorem quietStep_setPhase {before : WalletPhase} (hcall : s.calls[i]? = some (call, before))
    (hphase : Idle wallet s event call phase) (hsame : SameAccount wallet s event)
    (hnone : event.offers = none) : QuietStep wallet s event (s.setPhase i phase) where
  requests := rfl
  calls := calls_setPhase hcall hphase
  same := hsame
  account := by
    rw [hnone]
    rfl

/-- A call goes on with a list of accounts. -/
theorem quietStep_offered {before : WalletPhase} {accounts : List WalletAccount}
    (hcall : s.calls[i]? = some (call, before))
    (hphase : Idle wallet s (.accounts i (.ok accounts)) call phase) :
    QuietStep wallet s (.accounts i (.ok accounts))
      ({ s with injectedAccount := wallet.pick accounts }.setPhase i phase) :=
  ⟨rfl, calls_setPhase hcall hphase, sameAccount_of_ne nofun, rfl⟩

theorem quietStep_start : QuietStep wallet s (.call call) (s.start call) := by
  refine ⟨rfl, fun entry hentry => ?_, sameAccount_of_ne nofun, rfl⟩
  rcases List.mem_append.mp hentry with hold | hnew
  · exact .inl hold
  · rw [List.mem_singleton] at hnew
    subst hnew
    exact .inr (by cases call <;> exact idle_of_not_found trivial id (by simp))

theorem quietStep_gotCrypto {result : Except JsError Unit}
    (hcall : s.calls[i]? = some (call, .crypto)) :
    QuietStep wallet s (.crypto i result) (s.gotCrypto wallet i call result) := by
  cases result with
  | error e => exact quietStep_setPhase hcall idle_error (sameAccount_of_ne nofun) rfl
  | ok _ =>
    refine quietStep_setPhase hcall ?_ (sameAccount_of_ne nofun) rfl
    split
    · next hsome => exact idle_afterReady (.inr (.inr (.inl hsome)))
    · split
      · exact idle_of_not_found trivial id (by simp)
      · next hconnect =>
        -- nothing connects a `Web3Signer` here, the other class has its `syncAccount()` to come
        cases wallet with
        | web3Signer address index autoConnect =>
          exact idle_lastAwait (.inl (Bool.eq_false_iff.mpr hconnect))
        | cereWalletSigner autoConnect => exact idle_of_not_found trivial id (by simp [lastAwait])

theorem quietStep_gotAccounts {accounts : List WalletAccount}
    (hcall : s.calls[i]? = some (call, .listing)) :
    QuietStep wallet s (.accounts i (.ok accounts)) (s.gotAccounts wallet i call accounts) := by
  refine quietStep_offered hcall ?_
  split
  · exact idle_error
  · exact idle_afterConnect rfl

theorem quietStep_gotReady (hcall : s.calls[i]? = some (call, .ready)) :
    QuietStep wallet s (.resume i) (s.gotReady wallet i) := by
  refine quietStep_setPhase hcall ?_ (sameAccount_of_ne nofun) rfl
  split
  · next algorithm publicKey hhead =>
    refine ⟨trivial, fun algorithm' publicKey' heq => ?_, False.elim⟩
    cases heq
    exact hhead
  · exact idle_error

theorem quietStep_accounts {result : Except JsError (List WalletAccount)}
    (h : s.step wallet (.accounts i result) = some t) :
    QuietStep wallet s (.accounts i result) t := by
  simp only [step] at h
  split at h
  · next call accounts hcall =>
    cases h
    exact quietStep_gotAccounts hcall
  · next call accounts hcall =>
    cases h
    exact quietStep_offered hcall (idle_afterReady (.inr (.inl rfl)))
  · next call e hcall =>
    cases h
    exact quietStep_setPhase hcall idle_error (sameAccount_of_ne nofun) rfl
  · next call e hcall =>
    cases h
    exact quietStep_setPhase hcall idle_error (sameAccount_of_ne nofun) rfl
  · cases h

/-- `sign` goes on with the injector: it calls `signRaw`, or it fails. -/
theorem gotInjector_cases (wallet : WalletClass) (result : Except JsError Bool)
    (hcall : s.calls[i]? = some (.createSignature message, .injector algorithm publicKey)) :
    let t := s.gotInjector wallet i message algorithm publicKey result
    QuietStep wallet s (.injector i result) t ∨
      ∃ address, result = .ok true ∧ s.address wallet = .ok address ∧
        t = s.ask i ⟨algorithm, publicKey, address, message⟩ := by
  intro t
  cases result with
  | error e =>
    exact .inl (quietStep_setPhase hcall idle_error (sameAccount_of_ne (by simp)) rfl)
  | ok has =>
    cases has with
    | false =>
      exact .inl (quietStep_setPhase hcall idle_error (sameAccount_of_ne (by simp)) rfl)
    | true =>
      cases haddress : s.address wallet with
      | ok address =>
        have ht : t = s.ask i ⟨algorithm, publicKey, address, message⟩ := by
          simp only [t, gotInjector, haddress]
        exact .inr ⟨address, rfl, rfl, ht⟩
      | error e =>
        have ht : t = s.setPhase i (.settled (.error e)) := by
          simp only [t, gotInjector, haddress]
        refine .inl (ht ▸ quietStep_setPhase hcall idle_error ?_ rfl)
        intro i' message' _ _ address heq _ haddress'
        cases haddress.symm.trans haddress'

/-- What a step can do with `signRaw`: nothing, call it, or get its answer. -/
theorem step_cases (h : s.step wallet event = some t) :
    QuietStep wallet s event t ∨
    (∃ i message algorithm publicKey address, event = .injector i (.ok true) ∧
      s.calls[i]? = some (.createSignature message, .injector algorithm publicKey) ∧
      s.address wallet = .ok address ∧ t = s.ask i ⟨algorithm, publicKey, address, message⟩) ∨
    ∃ i call algorithm publicKey value, event = .signed i (.ok value) ∧
      s.calls[i]? = some (call, .signing algorithm publicKey) ∧
      t = s.setPhase i (.settled (.ok (some ⟨algorithm, publicKey, value⟩))) := by
  cases event with
  | call call =>
    cases h
    exact .inl quietStep_start
  | crypto i result =>
    simp only [step] at h
    split at h
    · next call hcall =>
      cases h
      exact .inl (quietStep_gotCrypto hcall)
    · cases h
  | enabled i result =>
    simp only [step] at h
    split at h
    · next call hcall =>
      cases h
      refine .inl (quietStep_setPhase hcall ?_ (sameAccount_of_ne nofun) rfl)
      cases result with
      | ok _ => exact idle_of_not_found trivial id (by simp)
      | error e => exact idle_error
    · cases h
  | accounts i result => exact .inl (quietStep_accounts h)
  | enablePromise i result =>
    simp only [step] at h
    split at h
    · next call hcall =>
      cases h
      refine .inl (quietStep_setPhase hcall ?_ (sameAccount_of_ne nofun) rfl)
      cases result with
      | ok _ =>
        have hbefore : (call, .enablePromise) ∈ s.calls := List.mem_of_getElem? hcall
        exact idle_afterReady (.inr (.inr (.inr ⟨_, hbefore, trivial⟩)))
      | error e => exact idle_error
    · cases h
  | injector i result =>
    simp only [step] at h
    split at h
    · next message algorithm publicKey hcall =>
      cases h
      rcases gotInjector_cases wallet result hcall with hquiet | ⟨address, rfl, haddress, ht⟩
      · exact .inl hquiet
      · exact .inr (.inl ⟨i, message, algorithm, publicKey, address, rfl, hcall, haddress, ht⟩)
    · cases h
  | signed i result =>
    simp only [step] at h
    split at h
    · next call algorithm publicKey hcall =>
      cases h
      cases result with
      | ok value => exact .inr (.inr ⟨i, call, algorithm, publicKey, value, rfl, hcall, rfl⟩)
      | error e =>
        exact .inl (quietStep_setPhase hcall idle_error (sameAccount_of_ne nofun) rfl)
    · cases h
  | resume i =>
    simp only [step] at h
    split at h
    · next call hcall =>
      cases h
      have hbefore : (call, .connected) ∈ s.calls := List.mem_of_getElem? hcall
      exact .inl (quietStep_setPhase hcall
        (idle_lastAwait (.inr (.inr (.inr ⟨_, hbefore, trivial⟩)))) (sameAccount_of_ne nofun) rfl)
    · next call hcall =>
      cases h
      exact .inl (quietStep_gotReady hcall)
    · cases h
  | accountsChanged accounts =>
    simp only [step] at h
    split at h
    · cases h
      exact .inl ⟨rfl, fun entry hentry => .inl hentry, sameAccount_of_ne nofun, rfl⟩
    · cases h

theorem askedFor_of_quiet (h : Quiet entry.2) : AskedFor requests entry := by
  unfold AskedFor
  split
  · exact False.elim h
  · exact False.elim h
  · exact h

theorem AskedFor.mono {more : List SignRequest} (h : AskedFor requests entry)
    (hsub : requests ⊆ more) : AskedFor more entry := by
  unfold AskedFor at h ⊢
  split at h
  · exact h.imp fun address hmem => hsub hmem
  · exact h.imp fun address hmem => hsub hmem
  · exact h

theorem askedFor_step (hs : ∀ entry ∈ s.calls, AskedFor s.requests entry)
    (h : s.step wallet event = some t) : ∀ entry ∈ t.calls, AskedFor t.requests entry := by
  intro entry hentry
  obtain ⟨hrequests, hcalls, -, -⟩ | ⟨i, message, algorithm, publicKey, address, -, hcall, -, rfl⟩ |
    ⟨i, call, algorithm, publicKey, value, -, hcall, rfl⟩ := step_cases h
  · rw [hrequests]
    exact (hcalls entry hentry).elim (hs entry) fun hidle => askedFor_of_quiet hidle.quiet
  · rcases mem_setPhase hentry with hold | ⟨call, before, hbefore, rfl⟩
    · exact (hs entry hold).mono (List.subset_append_left _ _)
    · cases hcall.symm.trans hbefore
      exact ⟨address, List.mem_append_right _ (List.mem_singleton_self _)⟩
  · rcases mem_setPhase hentry with hold | ⟨call, before, hbefore, rfl⟩
    · exact hs entry hold
    · cases hcall.symm.trans hbefore
      have hasked := hs _ (List.mem_of_getElem? hcall)
      cases call with
      | createSignature message => exact hasked
      | isReady => exact hasked.elim
      | connect => exact hasked.elim

/-- Whether a step keeps the requests in order is whether the account has stayed. -/
theorem named_step_iff (hs : ∀ request ∈ s.requests, Named request)
    (h : s.step wallet event = some t) :
    (∀ request ∈ t.requests, Named request) ↔ SameAccount wallet s event := by
  obtain ⟨hrequests, -, hsame, -⟩ | ⟨i, message, algorithm, publicKey, address, rfl, hcall,
    haddress, rfl⟩ | ⟨i, call, algorithm, publicKey, value, rfl, hcall, rfl⟩ := step_cases h
  · rw [hrequests]
    exact ⟨fun _ => hsame, fun _ => hs⟩
  · constructor
    · rintro hnamed i' message' algorithm' publicKey' address' heq hcall' haddress'
      cases heq
      cases hcall.symm.trans hcall'
      cases haddress.symm.trans haddress'
      exact hnamed ⟨algorithm, publicKey, address, message⟩
        (List.mem_append_right _ (List.mem_singleton_self _))
    · intro hsame request hrequest
      rcases List.mem_append.mp hrequest with hold | hnew
      · exact hs request hold
      · rw [List.mem_singleton.mp hnew]
        exact hsame i message algorithm publicKey address rfl hcall haddress
  · exact ⟨fun _ => sameAccount_of_ne nofun, fun _ => hs⟩

/-! ## Heads -/

/-- A head that a call has read. -/
def HeadOf (H : SignatureAlgorithm → PublicKey → Prop) : WalletPhase → Prop
  | .injector algorithm publicKey => H algorithm publicKey
  | .signing algorithm publicKey => H algorithm publicKey
  | .settled (.ok (some signature)) => H signature.algorithm signature.signer
  | _ => True

theorem headOf_of_quiet {H : SignatureAlgorithm → PublicKey → Prop} (h : Quiet phase)
    (hhead : ∀ algorithm publicKey, phase = .injector algorithm publicKey →
      H algorithm publicKey) : HeadOf H phase := by
  unfold HeadOf
  split
  · exact hhead _ _ rfl
  · exact False.elim h
  · exact False.elim h
  · trivial

/-- What holds of every head that can be read holds of all heads that were read. -/
theorem headOf_step {H : SignatureAlgorithm → PublicKey → Prop}
    (hread : ∀ algorithm publicKey,
      s.account wallet >>= signatureHead = .ok (algorithm, publicKey) → H algorithm publicKey)
    (hs : ∀ entry ∈ s.calls, HeadOf H entry.2) (h : s.step wallet event = some t) :
    ∀ entry ∈ t.calls, HeadOf H entry.2 := by
  intro entry hentry
  obtain ⟨-, hcalls, -, -⟩ | ⟨i, message, algorithm, publicKey, address, -, hcall, -, rfl⟩ |
    ⟨i, call, algorithm, publicKey, value, -, hcall, rfl⟩ := step_cases h
  · refine (hcalls entry hentry).elim (hs entry) fun hidle => ?_
    exact headOf_of_quiet hidle.quiet fun algorithm publicKey heq =>
      hread algorithm publicKey (hidle.head algorithm publicKey heq)
  · rcases mem_setPhase hentry with hold | ⟨call, before, -, rfl⟩
    · exact hs entry hold
    · have hbefore := hs _ (List.mem_of_getElem? hcall)
      exact hbefore
  · rcases mem_setPhase hentry with hold | ⟨call, before, -, rfl⟩
    · exact hs entry hold
    · have hbefore := hs _ (List.mem_of_getElem? hcall)
      exact hbefore

/-- The key of a head is that of the address. -/
theorem decodeAddress_of_head
    (h : s.account wallet >>= signatureHead = .ok (algorithm, publicKey)) :
    ∃ address, s.address wallet = .ok address ∧ decodeAddress address = .ok publicKey := by
  unfold account at h
  unfold address account
  cases hinjected : s.injectedAccount with
  | none =>
    rw [hinjected] at h
    cases h
  | some injected =>
    rw [hinjected] at h
    obtain ⟨-, hkey⟩ := signatureHead_eq_ok h
    cases haddress : wallet.accountAddress with
    | none =>
      rw [haddress] at hkey
      exact ⟨_, rfl, hkey⟩
    | some address =>
      rw [haddress] at hkey
      exact ⟨_, rfl, hkey⟩

/-! ## Runs -/

variable {events : List WalletEvent}

/-- Where the address is an option, a signature can only name the key of that address. -/
theorem named_of_accountAddress {address : Address}
    (haddress : wallet.accountAddress = some address)
    (h : Kit.run (step wallet) {} events = some s) : ∀ request ∈ s.requests, Named request := by
  let H : SignatureAlgorithm → PublicKey → Prop := fun _ key => decodeAddress address = .ok key
  have hshown : ∀ s : WalletState, s.address wallet = .ok address := fun s => by
    unfold WalletState.address
    rw [haddress]
  suffices hkept : (∀ entry ∈ s.calls, HeadOf H entry.2) ∧ ∀ request ∈ s.requests, Named request by
    exact hkept.2
  refine Kit.run_invariant (P := fun s : WalletState => (∀ entry ∈ s.calls, HeadOf H entry.2) ∧
    ∀ request ∈ s.requests, Named request) ?_ ⟨by simp, by simp⟩ h
  rintro s event t ⟨hheads, hnamed⟩ hstep
  constructor
  · refine headOf_step (fun algorithm publicKey hhead => ?_) hheads hstep
    obtain ⟨address', haddress', hkey⟩ := decodeAddress_of_head hhead
    cases (hshown s).symm.trans haddress'
    exact hkey
  · refine (named_step_iff hnamed hstep).mpr ?_
    intro i message algorithm publicKey address' _ hcall haddress'
    cases (hshown s).symm.trans haddress'
    exact hheads _ (List.mem_of_getElem? hcall)

theorem requests_asked (h : Kit.run (step wallet) {} events = some s) :
    ∀ entry ∈ s.calls, AskedFor s.requests entry :=
  Kit.run_invariant (P := fun s : WalletState => ∀ entry ∈ s.calls, AskedFor s.requests entry)
    (fun _ _ _ => askedFor_step) (by simp) h

/-- Every signature was asked of the wallet for some account. It names the key of that account in
all of a run exactly when the account stays, in each call, from where its key is read to where
the wallet is asked to sign; and so it does where the address is given as an option. -/
theorem requests_named_iff (h : Kit.run (step wallet) {} events = some s) :
    (∀ entry ∈ s.calls, AskedFor s.requests entry) ∧
      (Kit.Always (step wallet) (fun s => ∀ request ∈ s.requests, Named request) {} events ↔
        Kit.EachStep (step wallet) (SameAccount wallet) {} events) ∧
      (wallet.accountAddress.isSome → ∀ request ∈ s.requests, Named request) := by
  refine ⟨requests_asked h, ?_, ?_⟩
  · exact Kit.always_iff_eachStep (I := fun _ => True) (fun _ _ _ _ _ => trivial)
      (fun _ _ _ _ => named_step_iff) trivial (by simp) h
  · intro hsome
    obtain ⟨address, haddress⟩ := Option.isSome_iff_exists.mp hsome
    exact named_of_accountAddress haddress h

/-- An account that a wallet lists with the prefix that it uses. -/
def walletAccount (key : UInt8) : WalletAccount := ⟨some .sr25519, ⟨42, [key]⟩⟩

/-- The wallet switches to another account while `sign` waits for the injector: that account signs,
and the signature names the one before. -/
theorem requests_named_iff_switch :
    let wallet : WalletClass := .cereWalletSigner true
    let events : List WalletEvent :=
      [.accountsChanged [walletAccount 1], .call (.createSignature [7]), .crypto 0 (.ok ()),
        .resume 0, .accountsChanged [walletAccount 2], .injector 0 (.ok true),
        .signed 0 (.ok [8])]
    ∃ s, Kit.run (step wallet) {} events = some s ∧
      s.calls = [(.createSignature [7], .settled (.ok (some ⟨.sr25519, [1], [8]⟩)))] ∧
      s.requests = [⟨.sr25519, [1], encodeAddress [2], [7]⟩] ∧
      ¬ Kit.EachStep (step wallet) (SameAccount wallet) {} events := by
  refine ⟨_, rfl, rfl, rfl, fun heach => ?_⟩
  have halways := (requests_named_iff rfl).2.1.mpr heach
  have hnamed := halways _ (List.prefix_refl _) _ rfl _ (List.mem_singleton_self _)
  have hkey : decodeAddress (encodeAddress [2]) = .ok [1] := hnamed
  exact absurd hkey (by decide)

/-! ## Wallets that keep to an account -/

/-- The signer's account as its getters show it. -/
def shown (wallet : WalletClass) (a : WalletAccount) : Account :=
  (Web3Signer wallet.accountAddress ⟨a.type, a.address.publicKey⟩ .ok).toAccount

theorem account_eq (s : WalletState) (wallet : WalletClass) {a : WalletAccount}
    (h : s.injectedAccount = some a) : s.account wallet = .ok (shown wallet a) := by
  unfold account
  rw [h]
  rfl

/-- All that the wallet has offered is one account, and what the calls have come to is about it. -/
structure Steady (wallet : WalletClass) (a : WalletAccount) (s : WalletState) : Prop where
  injected : ∀ b, s.injectedAccount = some b → b = a
  found : ∀ entry ∈ s.calls, Found entry.2 → s.injectedAccount = some a
  heads : ∀ entry ∈ s.calls, HeadOf (fun algorithm publicKey =>
    signatureHead (shown wallet a) = .ok (algorithm, publicKey)) entry.2
  asked : ∀ request ∈ s.requests, request.address = (shown wallet a).address

variable {a : WalletAccount}

theorem Steady.address (hs : Steady wallet a s) {address : Address}
    (h : s.address wallet = .ok address) : address = (shown wallet a).address := by
  unfold WalletState.address at h
  cases haddress : wallet.accountAddress with
  | some given =>
    rw [haddress] at h
    cases h
    unfold shown
    rw [haddress]
    rfl
  | none =>
    rw [haddress] at h
    cases hinjected : s.injectedAccount with
    | none =>
      rw [account, hinjected] at h
      cases h
    | some b =>
      rw [account_eq s wallet (hs.injected b hinjected ▸ hinjected)] at h
      cases h
      rfl

/-- A list with the account in its place changes nothing. -/
theorem Steady.step (hconnects : wallet.connects = true)
    (hoffers : ∀ accounts, event.offers = some accounts → wallet.pick accounts = some a)
    (hs : Steady wallet a s) (h : s.step wallet event = some t) : Steady wallet a t := by
  have hread : ∀ algorithm publicKey,
      s.account wallet >>= signatureHead = .ok (algorithm, publicKey) →
        signatureHead (shown wallet a) = .ok (algorithm, publicKey) := by
    intro algorithm publicKey hhead
    cases hinjected : s.injectedAccount with
    | none =>
      rw [account, hinjected] at hhead
      cases hhead
    | some b =>
      rwa [account_eq s wallet (hs.injected b hinjected ▸ hinjected)] at hhead
  have hheads := headOf_step hread hs.heads h
  obtain ⟨hrequests, hcalls, -, haccount⟩ | ⟨i, message, algorithm, publicKey, address, -, -,
    haddress, rfl⟩ | ⟨i, call, algorithm, publicKey, value, -, -, rfl⟩ := step_cases h
  · have hset : event.offers.isSome ∨ s.injectedAccount = some a → t.injectedAccount = some a := by
      rw [haccount]
      cases hlisted : event.offers with
      | none => exact fun h => h.resolve_left nofun
      | some accounts => exact fun _ => hoffers accounts hlisted
    refine ⟨?_, ?_, hheads, hrequests ▸ hs.asked⟩
    · intro b hb
      cases hlisted : event.offers with
      | none =>
        rw [haccount, hlisted] at hb
        exact hs.injected b hb
      | some accounts =>
        exact Option.some.inj (hb.symm.trans (hset (.inl (by rw [hlisted]; rfl))))
    · intro entry hentry hfound
      rcases hcalls entry hentry with hold | hidle
      · exact hset (.inr (hs.found entry hold hfound))
      · rcases hidle.found hfound with hnever | hlisted | hsome | ⟨before, hbefore, hfound'⟩
        · cases hconnects.symm.trans hnever
        · exact hset (.inl hlisted)
        · obtain ⟨b, hb⟩ := Option.isSome_iff_exists.mp hsome
          exact hset (.inr (hs.injected b hb ▸ hb))
        · exact hset (.inr (hs.found _ hbefore hfound'))
  · refine ⟨hs.injected, fun entry hentry hfound => ?_, hheads, fun request hrequest => ?_⟩
    · rcases mem_setPhase hentry with hold | ⟨call, before, -, rfl⟩
      · exact hs.found entry hold hfound
      · exact False.elim hfound
    · rcases List.mem_append.mp hrequest with hold | hnew
      · exact hs.asked request hold
      · rw [List.mem_singleton.mp hnew]
        exact hs.address haddress
  · refine ⟨hs.injected, fun entry hentry hfound => ?_, hheads, hs.asked⟩
    rcases mem_setPhase hentry with hold | ⟨call, before, -, rfl⟩
    · exact hs.found entry hold hfound
    · exact False.elim hfound

/-- While a wallet has one account to offer, the calls do not get in each other's way: once
`isReady` or `connect` has resolved the account is there and stays, and every signature has the
head of that account and was asked of it. -/
theorem signatures_of_account (a : WalletAccount) (hconnects : wallet.connects = true)
    (hoffers : ∀ event ∈ events, ∀ accounts, event.offers = some accounts →
      wallet.pick accounts = some a)
    (h : Kit.run (step wallet) {} events = some s) :
    (∀ call, (call, .settled (.ok none)) ∈ s.calls → s.account wallet = .ok (shown wallet a)) ∧
      ∀ message signature,
        (.createSignature message, .settled (.ok (some signature))) ∈ s.calls →
          signatureHead (shown wallet a) = .ok (signature.algorithm, signature.signer) ∧
            ⟨signature.algorithm, signature.signer, (shown wallet a).address, message⟩
              ∈ s.requests := by
  have hkept : ∀ (s : WalletState) (event : WalletEvent) (t : WalletState),
      (∀ accounts, event.offers = some accounts → wallet.pick accounts = some a) →
        Steady wallet a s → s.step wallet event = some t → Steady wallet a t :=
    fun _ _ _ hok hs hstep => hs.step hconnects hok hstep
  have hsteady : Steady wallet a s :=
    Kit.run_invariant_of hkept hoffers ⟨by simp, by simp, by simp, by simp⟩ h
  have hasked := requests_asked h
  constructor
  · intro call hcall
    exact account_eq s wallet (hsteady.found _ hcall trivial)
  · intro message signature hcall
    obtain ⟨address, hrequest⟩ := hasked _ hcall
    cases hsteady.asked _ hrequest
    exact ⟨hsteady.heads _ hcall, hrequest⟩

/-- Two calls that look for the account at the same time. -/
theorem signatures_of_account_two :
    let wallet : WalletClass := .web3Signer none 0 true
    let a := walletAccount 1
    let events : List WalletEvent :=
      [.call .isReady, .call (.createSignature [7]), .crypto 0 (.ok ()), .crypto 1 (.ok ()),
        .enabled 0 (.ok ()), .enabled 1 (.ok ()), .accounts 1 (.ok [a]), .accounts 0 (.ok [a]),
        .resume 0, .resume 1, .enablePromise 0 (.ok ()), .enablePromise 1 (.ok ()), .resume 1,
        .injector 1 (.ok true), .signed 1 (.ok [8])]
    ∃ s, Kit.run (step wallet) {} events = some s ∧ s.account wallet = .ok (shown wallet a) ∧
      ⟨.sr25519, [1], encodeAddress [1], [7]⟩ ∈ s.requests := by
  intro wallet a events
  have hoffers : ∀ event ∈ events, ∀ accounts, event.offers = some accounts →
      wallet.pick accounts = some a := by
    simp [events, WalletEvent.offers, wallet, WalletClass.pick]
  refine ⟨_, rfl, ?_⟩
  obtain ⟨hready, hsigned⟩ := signatures_of_account a rfl hoffers rfl
  exact ⟨hready .isReady List.mem_cons_self,
    (hsigned [7] ⟨.sr25519, [1], [8]⟩ (List.mem_cons_of_mem _ (List.mem_singleton_self _))).2⟩

end WalletState

end CereDdc
