import CereDdc.Kit.Promise
import CereDdc.Kit.Runs
import Mathlib.Data.Finset.Insert

/-!
# Error logger — `ddc/src/logger/bindErrorLogger.ts`

`bindErrorLogger` puts a function in the place of each method it is given. It
awaits the method, logs what the method throws, and throws it again. Objects that
are wrapped and objects that are not call each other as they like, and the calls
interleave at their awaits. What was logged is kept once for the whole process.
-/

namespace CereDdc.ErrorLogger

open Kit (Outcome)

/-! ## Values -/

inductive JsValue
  /-- An object, by its reference. -/
  | object (reference : Nat)
  /-- What a `WeakSet` cannot hold: a string, a number, `undefined` and the like. -/
  | primitive (text : String)
  deriving DecidableEq

abbrev WeakSet := Finset Nat

namespace WeakSet

def has (set : WeakSet) : JsValue → Bool
  | .object reference => reference ∈ set
  | .primitive _ => false

/-- `none` is the `TypeError` for a value that the set cannot hold. -/
def add (set : WeakSet) : JsValue → Option WeakSet
  | .object reference => some (insert reference set)
  | .primitive _ => none

end WeakSet

/-- A method as its class has it, or the function that `bindErrorLogger` has put in its place. -/
inductive Method
  | original (name : String)
  | patched (logger : Nat) (original : Method)
  deriving DecidableEq

namespace Method

def name : Method → String
  | .original name => name
  | .patched _ _ => "patched"

def isPatched : Method → Bool
  | .original _ => false
  | .patched _ _ => true

end Method

/-- The members of an object that are functions. -/
abbrev Obj := String → Option Method

/-- The `for` loop; `filter` has looked at the object before it. -/
def bindErrorLogger (obj : Obj) (logger : Nat) (methods : List String) : Obj :=
  (methods.filter fun method => (obj method).isSome).foldl
    (fun obj method => Function.update obj method ((obj method).map (.patched logger))) obj

/-! ## What is bound -/

/-- What the constructor of `DdcClient` binds. -/
def ddcClientMethods (logErrors : Option Bool) : List String :=
  if logErrors ≠ some false then
    ["getBalance", "depositBalance", "getDeposit", "createBucket", "getBucket", "getBucketList",
      "store", "read", "resolveName"]
  else []

/-- What the constructors of `BalancedNode` and `StorageNode` bind. -/
def nodeMethods (logErrors : Option Bool) : List String :=
  if logErrors ≠ some false then
    ["storePiece", "storeDagNode", "readPiece", "getDagNode", "storeCnsRecord", "getCnsRecord",
      "resolveName"]
  else []

/-- What the constructor of `FileStorage` binds, under the opposite condition. -/
def fileStorageMethods (logErrors : Option Bool) : List String :=
  if logErrors = some false then ["store", "read"] else []

/-! ## Calls -/

/-- A call of a function, with what its promise has come to. -/
structure Activation where
  method : Method
  thisArg : Nat
  args : List JsValue
  outcome : Outcome JsValue JsValue

/-- The calls that a call makes at once: `patched` calls `original.apply(this, args)`. -/
def Method.activations (thisArg : Nat) (args : List JsValue) : Method → List Activation
  | .original name => [⟨.original name, thisArg, args, .pending⟩]
  | .patched logger inner =>
    ⟨.patched logger inner, thisArg, args, .pending⟩ :: inner.activations thisArg args

/-- A call of `logger.error`. -/
structure LogEntry where
  logger : Nat
  error : JsValue
  message : String

structure Process where
  objects : List Obj := []
  loggedErrors : WeakSet := ∅
  log : List LogEntry := []
  /-- A call of a wrapped method stands right before the call of the original. -/
  activations : List Activation := []

inductive Event
  /-- An object is made, an error or the instance of a class. -/
  | new (members : Obj)
  | bind (reference : Nat) (logger : Nat) (methods : List String)
  | call (reference : Nat) (method : String) (args : List JsValue)
  /-- The body of an original, call `i`, has come to its end. -/
  | settle (i : Nat) (result : Except JsValue JsValue)
  /-- A wrapped method, call `i`, goes on after its await. -/
  | resume (i : Nat)

/-- What an original returns or throws. -/
def settledWith : Except JsValue JsValue → JsValue
  | .ok value => value
  | .error error => error

def settleAt (activations : List Activation) (i : Nat) (result : Except JsValue JsValue) :
    List Activation :=
  activations.modify i fun a => { a with outcome := a.outcome.settle result }

namespace Process

def start : Process := {}

/-- The value is there: a primitive, or an object that was made. -/
def known (p : Process) : JsValue → Bool
  | .object reference => reference < p.objects.length
  | .primitive _ => true

def settle (p : Process) (i : Nat) (result : Except JsValue JsValue) : Process :=
  { p with activations := settleAt p.activations i result }

/-- Call `i` throws an error that is made here. -/
def throwNew (p : Process) (i : Nat) : Process :=
  { p with objects := p.objects ++ [fun _ => none] }.settle i (.error (.object p.objects.length))

-- `logFails` tells on which objects a logger throws an error of its own.
variable (logFails : Nat → JsValue → Bool)

/-- The `catch` block. -/
def catchError (p : Process) (i logger : Nat) (original : Method) (error : JsValue) : Process :=
  if p.loggedErrors.has error then p.settle i (.error error)
  else
    match p.loggedErrors.add error with
    | none => p.throwNew i
    | some loggedErrors =>
      let name := if original.name = "" then "anonymous function" else original.name
      let entry := ⟨logger, error, "Error in " ++ name⟩
      let q : Process := { p with loggedErrors, log := p.log ++ [entry] }
      if logFails logger error then q.throwNew i else q.settle i (.error error)

/-- Call `i`, which is `a`, goes on when the call of the original, `b`, has settled. -/
def goOn (p : Process) (i : Nat) (a b : Activation) : Option Process :=
  match a.method, a.outcome, b.outcome with
  | .patched _ _, .pending, .resolved value => some (p.settle i (.ok value))
  | .patched logger original, .pending, .rejected error =>
    some (p.catchError logFails i logger original error)
  | _, _, _ => none

def step (p : Process) : Event → Option Process
  | .new members => some { p with objects := p.objects ++ [members] }
  | .bind reference logger methods =>
    some { p with objects := p.objects.modify reference (bindErrorLogger · logger methods) }
  | .call reference method args =>
    match p.objects[reference]?.bind (· method) with
    | some m =>
      if args.all p.known then
        some { p with activations := p.activations ++ m.activations reference args }
      else none
    | none => none
  | .settle i result =>
    match p.activations[i]? with
    | some ⟨.original _, _, _, .pending⟩ =>
      if p.known (settledWith result) then some (p.settle i result) else none
    | _ => none
  | .resume i =>
    match p.activations[i]?, p.activations[i + 1]? with
    | some a, some b => p.goOn logFails i a b
    | _, _ => none

/-! ## What a wrapped method promises -/

/-- Every call of a wrapped method calls the original on the same object with the same arguments,
and has come to what that has come to, or is about to go on. -/
def Transparent (p : Process) : Prop :=
  ∀ i a logger original, p.activations[i]? = some a → a.method = .patched logger original →
    ∃ b, p.activations[i + 1]? = some b ∧
      (b.method = original ∧ b.thisArg = a.thisArg ∧ b.args = a.args) ∧
      (a.outcome = b.outcome ∨ a.outcome = .pending ∧ (p.step logFails (.resume i)).isSome)

/-- No error is logged twice, by one logger or by several. -/
def LoggedOnce (p : Process) : Prop := (p.log.map (·.error)).Nodup

structure Faithful (p : Process) : Prop where
  transparent : p.Transparent logFails
  once : p.LoggedOnce

/-- The error can be passed on: it was logged before, or the set can hold it and the logger takes
it. -/
def PassesOn (p : Process) (logger : Nat) (error : JsValue) : Prop :=
  p.loggedErrors.has error ∨
    ((p.loggedErrors.add error).isSome ∧ logFails logger error = false)

def CanHandle (p : Process) : Method → Outcome JsValue JsValue → Prop
  | .patched logger _, .rejected error => p.PassesOn logFails logger error
  | _, _ => True

/-- A wrapped method that goes on finds that the original has resolved, or an error that it can
pass on. -/
def GoesOnWell (p : Process) : Event → Prop
  | .resume i =>
    ∀ a ∈ p.activations[i]?, ∀ b ∈ p.activations[i + 1]?,
      p.CanHandle logFails a.method b.outcome
  | _ => True

instance (p : Process) (logger : Nat) (error : JsValue) :
    Decidable (p.PassesOn logFails logger error) :=
  inferInstanceAs (Decidable (_ ∨ _))

instance (p : Process) :
    (m : Method) → (outcome : Outcome JsValue JsValue) → Decidable (p.CanHandle logFails m outcome)
  | .patched logger _, .rejected error =>
    inferInstanceAs (Decidable (p.PassesOn logFails logger error))
  | .patched _ _, .pending => instDecidableTrue
  | .patched _ _, .resolved _ => instDecidableTrue
  | .original _, _ => instDecidableTrue

instance (p : Process) : (event : Event) → Decidable (p.GoesOnWell logFails event)
  | .resume i =>
    inferInstanceAs (Decidable (∀ a ∈ p.activations[i]?, ∀ b ∈ p.activations[i + 1]?,
      p.CanHandle logFails a.method b.outcome))
  | .new _ => instDecidableTrue
  | .bind _ _ _ => instDecidableTrue
  | .call _ _ _ => instDecidableTrue
  | .settle _ _ => instDecidableTrue

end Process

variable {logFails : Nat → JsValue → Bool} {p q : Process} {event : Event} {events : List Event}
  {xs ys : List Activation} {a b : Activation} {i logger thisArg : Nat} {original m : Method}
  {args : List JsValue} {result : Except JsValue JsValue} {error : JsValue}

/-! ## Binding -/

theorem foldl_patched {obj : Obj} {method : String} {methods : List String} :
    methods.foldl
        (fun obj method => Function.update obj method ((obj method).map (.patched logger))) obj method
      = (obj method).map (Method.patched logger)^[methods.count method] := by
  induction methods generalizing obj with
  | nil => simp
  | cons other methods ih =>
    rw [List.foldl_cons, ih]
    by_cases h : other = method
    · subst h
      rw [Function.update_self, Option.map_map, List.count_cons_self]
      rfl
    · rw [Function.update_of_ne (Ne.symm h), List.count_cons_of_ne h]

/-- A method is wrapped as often as it is listed, and no other is touched. -/
theorem bindErrorLogger_apply {obj : Obj} {method : String} {methods : List String} :
    bindErrorLogger obj logger methods method =
      (obj method).map (Method.patched logger)^[methods.count method] := by
  rw [bindErrorLogger, foldl_patched]
  cases h : obj method with
  | none => rfl
  | some m => rw [List.count_filter (by simp [h])]

/-- The errors of a file storage are logged when those of the nodes and of the client are not. -/
theorem fileStorageMethods_eq_nil_iff {logErrors : Option Bool} :
    fileStorageMethods logErrors = [] ↔
      ddcClientMethods logErrors ≠ [] ∧ nodeMethods logErrors ≠ [] := by
  unfold fileStorageMethods ddcClientMethods nodeMethods
  by_cases h : logErrors = some false <;> simp [h]

/-! ## The calls of a wrapped method -/

/-- Right after each call of a wrapped method stands the call of its original. -/
def Layered (xs : List Activation) : Prop :=
  ∀ i a logger original, xs[i]? = some a → a.method = .patched logger original →
    ∃ b, xs[i + 1]? = some b ∧ b.method = original ∧ b.thisArg = a.thisArg ∧ b.args = a.args

/-- No call of a wrapped method has come to anything else than the call after it. -/
def PassedOn (xs : List Activation) : Prop :=
  ∀ i a b, xs[i]? = some a → xs[i + 1]? = some b → a.method.isPatched →
    a.outcome = .pending ∨ a.outcome = b.outcome

theorem Method.isPatched_iff : m.isPatched ↔ ∃ logger original, m = .patched logger original := by
  cases m <;> simp [isPatched]

theorem activations_head :
    (m.activations thisArg args)[0]? = some ⟨m, thisArg, args, .pending⟩ := by
  cases m <;> rfl

theorem pending_of_mem_activations (ha : a ∈ m.activations thisArg args) :
    a.outcome = .pending := by
  induction m with
  | original name =>
    rw [List.mem_singleton.mp ha]
  | patched logger inner ih =>
    rcases List.mem_cons.mp ha with rfl | hrest
    · rfl
    · exact ih hrest

theorem layered_activations : Layered (m.activations thisArg args) := by
  induction m with
  | original name =>
    intro i a logger inner ha hm
    rw [Method.activations, List.getElem?_singleton] at ha
    split at ha <;> cases ha
    cases hm
  | patched logger inner ih =>
    intro i a logger' inner' ha hm
    cases i with
    | zero =>
      cases ha
      cases hm
      exact ⟨_, activations_head, rfl, rfl, rfl⟩
    | succ i => exact ih i a logger' inner' ha hm

theorem Layered.append (hxs : Layered xs) (hys : Layered ys) : Layered (xs ++ ys) := by
  intro i a logger original ha hm
  rw [List.getElem?_append] at ha
  split at ha
  · obtain ⟨b, hb, hcall⟩ := hxs i a logger original ha hm
    exact ⟨b, by rw [List.getElem?_append_left (List.getElem?_eq_some_iff.mp hb).1, hb], hcall⟩
  · next hi =>
    obtain ⟨b, hb, hcall⟩ := hys _ a logger original ha hm
    refine ⟨b, ?_, hcall⟩
    rw [List.getElem?_append_right (by omega), ← hb]
    congr 1
    omega

theorem getElem?_settleAt {j : Nat} : (settleAt xs i result)[j]? =
    xs[j]?.map fun a => if i = j then { a with outcome := a.outcome.settle result } else a := by
  rw [settleAt, List.getElem?_modify]
  split <;> simp_all

theorem Layered.settleAt (hxs : Layered xs) : Layered (settleAt xs i result) := by
  intro j a logger original ha hm
  rw [getElem?_settleAt, Option.map_eq_some_iff] at ha
  obtain ⟨a', ha', rfl⟩ := ha
  have hm' : a'.method = .patched logger original := by
    split at hm <;> exact hm
  obtain ⟨b, hb, hcall⟩ := hxs j a' logger original ha' hm'
  refine ⟨_, by rw [getElem?_settleAt, hb, Option.map_some], ?_⟩
  split <;> split <;> exact hcall

theorem PassedOn.append (hxs : PassedOn xs) (hlayered : Layered xs)
    (hys : ∀ a ∈ ys, a.outcome = .pending) : PassedOn (xs ++ ys) := by
  intro i a b ha hb hm
  rw [List.getElem?_append] at ha
  split at ha
  · obtain ⟨logger, original, hpatched⟩ := Method.isPatched_iff.mp hm
    -- the call that `a` waits for is among the earlier ones
    obtain ⟨b', hb', -⟩ := hlayered i a logger original ha hpatched
    rw [List.getElem?_append_left (List.getElem?_eq_some_iff.mp hb').1] at hb
    exact hxs i a b ha hb hm
  · exact .inl (hys a (List.mem_of_getElem? ha))

/-- Settling a call that was pending: what it comes to must be what the call after it has come
to. -/
theorem passedOn_settleAt_iff (hxs : PassedOn xs) (ha : xs[i]? = some a)
    (hpending : a.outcome = .pending) :
    PassedOn (settleAt xs i result) ↔
      (a.method.isPatched → ∀ b, xs[i + 1]? = some b →
        Outcome.settle .pending result = b.outcome) := by
  constructor
  · intro h hm b hb
    have hi : (settleAt xs i result)[i]? = some { a with outcome := .settle .pending result } := by
      rw [getElem?_settleAt, ha, Option.map_some, if_pos rfl, hpending]
    have hi' : (settleAt xs i result)[i + 1]? = some b := by
      rw [getElem?_settleAt, hb, Option.map_some, if_neg (by omega)]
    rcases h i _ b hi hi' hm with hp | heq
    · exact absurd hp Kit.settle_ne_pending
    · exact heq
  · intro h j c d hc hd hm
    rw [getElem?_settleAt, Option.map_eq_some_iff] at hc hd
    obtain ⟨c', hc', rfl⟩ := hc
    obtain ⟨d', hd', rfl⟩ := hd
    by_cases hij : i = j
    · subst hij
      rw [ha] at hc'
      cases hc'
      simp only [if_true, if_neg (show i ≠ i + 1 by omega), hpending] at hm ⊢
      exact .inr (h hm d' hd')
    · simp only [if_neg hij] at hm ⊢
      by_cases hij' : i = j + 1
      · subst hij'
        rw [ha] at hd'
        cases hd'
        -- the call before it waits for it
        rcases hxs j c' a hc' ha hm with hp | heq
        · exact .inl hp
        · exact .inl (heq.trans hpending)
      · simp only [if_neg hij']
        exact hxs j c' d' hc' hd' hm

namespace Process

/-! ## What every step keeps -/

structure Kept (p : Process) : Prop where
  layered : Layered p.activations
  known : ∀ a ∈ p.activations, ∀ error, a.outcome = .rejected error → p.known error
  logged : ∀ entry ∈ p.log, p.loggedErrors.has entry.error
  once : p.LoggedOnce

theorem Kept.start : Kept start where
  layered := by
    intro i a logger original ha
    cases ha
  known := by
    intro a ha
    cases ha
  logged := by
    intro entry hentry
    cases hentry
  once := List.nodup_nil

theorem known_append {members : List Obj} (h : p.known error) :
    { p with objects := p.objects ++ members }.known error := by
  cases error with
  | object reference =>
    simp only [known, decide_eq_true_eq, List.length_append] at h ⊢
    omega
  | primitive text => rfl

theorem Kept.alloc {members : List Obj} (hp : Kept p) :
    Kept { p with objects := p.objects ++ members } where
  layered := hp.layered
  known := fun a ha error herror => known_append (hp.known a ha error herror)
  logged := hp.logged
  once := hp.once

theorem Kept.settle (hp : Kept p) (hresult : ∀ error, result = .error error → p.known error) :
    Kept (p.settle i result) where
  layered := hp.layered.settleAt
  known := by
    intro a ha error herror
    obtain ⟨j, hj⟩ := List.mem_iff_getElem?.mp ha
    change (settleAt p.activations i result)[j]? = some a at hj
    rw [getElem?_settleAt, Option.map_eq_some_iff] at hj
    obtain ⟨b, hb, rfl⟩ := hj
    have hmem := List.mem_of_getElem? hb
    split at herror
    · cases hb' : b.outcome with
      | pending =>
        rw [hb'] at herror
        cases result with
        | ok value => cases herror
        | error e =>
          cases herror
          exact hresult _ rfl
      | resolved value =>
        rw [hb'] at herror
        cases herror
      | rejected e =>
        rw [hb'] at herror
        cases herror
        exact hp.known b hmem _ hb'
    · exact hp.known b hmem error herror
  logged := hp.logged
  once := hp.once

theorem Kept.throwNew (hp : Kept p) : Kept (p.throwNew i) := by
  refine Kept.settle hp.alloc ?_
  intro error herror
  cases herror
  simp [Process.known]

/-- The error that is logged is one that was not in the set, and now is. -/
theorem Kept.record {loggedErrors : WeakSet} {message : String} (hp : Kept p)
    (hnew : p.loggedErrors.has error = false)
    (hadd : p.loggedErrors.add error = some loggedErrors) :
    Kept { p with loggedErrors, log := p.log ++ [⟨logger, error, message⟩] } := by
  cases error with
  | primitive text => cases hadd
  | object reference =>
    cases hadd
    have hmono : ∀ value, p.loggedErrors.has value →
        WeakSet.has (insert reference p.loggedErrors) value := by
      intro value hvalue
      cases value with
      | primitive text => cases hvalue
      | object other =>
        simp only [WeakSet.has, decide_eq_true_eq] at hvalue ⊢
        exact Finset.mem_insert_of_mem hvalue
    refine ⟨hp.layered, hp.known, ?_, ?_⟩
    · intro entry hentry
      rcases List.mem_append.mp hentry with hold | hlast
      · exact hmono _ (hp.logged entry hold)
      · obtain rfl := List.mem_singleton.mp hlast
        simp [WeakSet.has]
    · change ((p.log ++ [_]).map _).Nodup
      rw [List.map_append, List.map_singleton, List.nodup_append]
      refine ⟨hp.once, List.nodup_singleton _, ?_⟩
      intro value hvalue value' hvalue' heq
      obtain ⟨entry, hentry, rfl⟩ := List.mem_map.mp hvalue
      have hhas := hp.logged entry hentry
      rw [heq, List.mem_singleton.mp hvalue', hnew] at hhas
      cases hhas

theorem Kept.catchError (hp : Kept p) (herror : p.known error) :
    Kept (p.catchError logFails i logger original error) := by
  have hknown : ∀ e, (.error error : Except JsValue JsValue) = .error e → p.known e := by
    intro e he
    cases he
    exact herror
  unfold Process.catchError
  split
  · exact hp.settle hknown
  · next hnew =>
    split
    · exact hp.throwNew
    · next loggedErrors hadd =>
      have hrecord (message : String) : Kept { p with
          loggedErrors, log := p.log ++ [⟨logger, error, message⟩] } :=
        hp.record (by simpa using hnew) hadd
      dsimp only
      split
      · exact (hrecord _).throwNew
      · exact (hrecord _).settle hknown

/-- The steps of a process, with what each of them needs. -/
inductive Step (logFails : Nat → JsValue → Bool) (p : Process) : Event → Process → Prop
  | new {members : Obj} :
      Step logFails p (.new members) { p with objects := p.objects ++ [members] }
  | bind {reference logger : Nat} {methods : List String} :
      Step logFails p (.bind reference logger methods)
        { p with objects := p.objects.modify reference (bindErrorLogger · logger methods) }
  | call {reference : Nat} {method : String} {args : List JsValue} (m : Method) :
      Step logFails p (.call reference method args)
        { p with activations := p.activations ++ m.activations reference args }
  | settle {i : Nat} {result : Except JsValue JsValue} {a : Activation}
      (ha : p.activations[i]? = some a) (hpending : a.outcome = .pending)
      (hm : a.method.isPatched = false) (hknown : p.known (settledWith result)) :
      Step logFails p (.settle i result) (p.settle i result)
  | resolve {i logger : Nat} {original : Method} {value : JsValue} {a b : Activation}
      (ha : p.activations[i]? = some a) (hb : p.activations[i + 1]? = some b)
      (hpending : a.outcome = .pending) (hm : a.method = .patched logger original)
      (hvalue : b.outcome = .resolved value) :
      Step logFails p (.resume i) (p.settle i (.ok value))
  | catches {i logger : Nat} {original : Method} {error : JsValue} {a b : Activation}
      (ha : p.activations[i]? = some a) (hb : p.activations[i + 1]? = some b)
      (hpending : a.outcome = .pending) (hm : a.method = .patched logger original)
      (herror : b.outcome = .rejected error) :
      Step logFails p (.resume i) (p.catchError logFails i logger original error)

theorem Step.of_step (h : p.step logFails event = some q) : Step logFails p event q := by
  cases event with
  | new members =>
    cases h
    exact .new
  | bind reference logger methods =>
    cases h
    exact .bind
  | call reference method args =>
    simp only [Process.step] at h
    split at h
    · next m hmethod =>
      split at h
      · cases h
        exact .call m
      · cases h
    · cases h
  | settle i result =>
    simp only [Process.step] at h
    split at h
    · next ha =>
      split at h
      · next hknown =>
        cases h
        exact .settle ha rfl rfl hknown
      · cases h
    · cases h
  | resume i =>
    simp only [Process.step] at h
    split at h
    · next a b ha hb =>
      unfold goOn at h
      split at h
      · next hm hpending hvalue =>
        cases h
        exact .resolve ha hb hpending hm hvalue
      · next hm hpending herror =>
        cases h
        exact .catches ha hb hpending hm herror
      · cases h
    · cases h

theorem Kept.bind {reference : Nat} {methods : List String} (hp : Kept p) :
    Kept { p with
      objects := p.objects.modify reference (bindErrorLogger · logger methods) } where
  layered := hp.layered
  known := by
    intro a ha error herror
    have hknown := hp.known a ha error herror
    cases error with
    | primitive text => rfl
    | object r => simpa [Process.known] using hknown
  logged := hp.logged
  once := hp.once

theorem Kept.call (hp : Kept p) :
    Kept { p with activations := p.activations ++ m.activations thisArg args } where
  layered := hp.layered.append layered_activations
  known := by
    intro a ha error herror
    rcases List.mem_append.mp ha with hold | hnew
    · exact hp.known a hold error herror
    · rw [pending_of_mem_activations hnew] at herror
      cases herror
  logged := hp.logged
  once := hp.once

theorem Kept.step (hp : Kept p) (h : p.step logFails event = some q) : Kept q := by
  cases Step.of_step h with
  | new => exact hp.alloc
  | bind => exact hp.bind
  | call m => exact hp.call
  | settle ha hpending hm hknown =>
    refine hp.settle ?_
    rintro error rfl
    exact hknown
  | resolve ha hb hpending hm hvalue =>
    refine hp.settle ?_
    intro error herror
    cases herror
  | catches ha hb hpending hm herror =>
    exact hp.catchError (hp.known _ (List.mem_of_getElem? hb) _ herror)

/-- Whatever happens in the process, no error is logged twice. -/
theorem loggedOnce_of_run (h : Kit.run (step logFails) start events = some p) : p.LoggedOnce :=
  (Kit.run_invariant (fun _ _ _ hs hstep => Kept.step hs hstep) Kept.start h).once

/-! ## Transparency -/

theorem resume_isSome (ha : p.activations[i]? = some a) (hb : p.activations[i + 1]? = some b)
    (hm : a.method = .patched logger original) (hpending : a.outcome = .pending)
    (hsettled : b.outcome ≠ .pending) : (p.step logFails (.resume i)).isSome := by
  simp only [Process.step, ha, hb, goOn, hm, hpending]
  cases hb' : b.outcome with
  | pending => exact absurd hb' hsettled
  | resolved value => rfl
  | rejected error => rfl

theorem transparent_iff (hlayered : Layered p.activations) :
    p.Transparent logFails ↔ PassedOn p.activations := by
  constructor
  · intro h i a b ha hb hm
    obtain ⟨logger, original, hpatched⟩ := Method.isPatched_iff.mp hm
    obtain ⟨b', hb', -, houtcome⟩ := h i a logger original ha hpatched
    rw [hb] at hb'
    cases hb'
    rcases houtcome with heq | ⟨hpending, -⟩
    · exact .inr heq
    · exact .inl hpending
  · intro h i a logger original ha hm
    obtain ⟨b, hb, hcall⟩ := hlayered i a logger original ha hm
    refine ⟨b, hb, hcall, ?_⟩
    rcases h i a b ha hb (by rw [hm]; rfl) with hpending | heq
    · by_cases hsettled : b.outcome = .pending
      · exact .inl (hpending.trans hsettled.symm)
      · exact .inr ⟨hpending, resume_isSome ha hb hm hpending hsettled⟩
    · exact .inl heq

theorem faithful_iff (hp : Kept p) : p.Faithful logFails ↔ PassedOn p.activations :=
  ⟨fun h => (transparent_iff hp.layered).mp h.transparent,
    fun h => ⟨(transparent_iff hp.layered).mpr h, hp.once⟩⟩

theorem ne_throwNew (h : p.known error) : JsValue.object p.objects.length ≠ error := by
  rintro rfl
  simp [known] at h

/-- The `catch` block rejects with the error itself when it can pass it on, and otherwise with
another. -/
theorem catchError_activations (herror : p.known error) :
    ∃ rejection, (p.catchError logFails i logger original error).activations =
        settleAt p.activations i (.error rejection) ∧
      (rejection = error ↔ p.PassesOn logFails logger error) := by
  have hnew := ne_throwNew herror
  unfold Process.catchError PassesOn
  split
  · next hhas => exact ⟨error, rfl, by simp [hhas]⟩
  · next hhas =>
    split
    · next hadd => exact ⟨_, rfl, by simp [hnew, hhas, hadd]⟩
    · next hadd =>
      dsimp only
      split
      · next hfails => exact ⟨_, rfl, by simp [hnew, hhas, hfails]⟩
      · next hfails => exact ⟨error, rfl, by simp [hadd, hfails]⟩

theorem passedOn_step_iff (hp : Kept p) (hpassed : PassedOn p.activations)
    (h : p.step logFails event = some q) :
    PassedOn q.activations ↔ p.GoesOnWell logFails event := by
  cases Step.of_step h with
  | new => exact iff_of_true hpassed trivial
  | bind => exact iff_of_true hpassed trivial
  | call m =>
    refine iff_of_true (hpassed.append hp.layered ?_) trivial
    intro a ha
    exact pending_of_mem_activations ha
  | settle ha hpending hm hknown =>
    refine iff_of_true ((passedOn_settleAt_iff hpassed ha hpending).mpr ?_) trivial
    intro hpatched
    rw [hm] at hpatched
    cases hpatched
  | resolve ha hb hpending hm hvalue =>
    simp only [GoesOnWell, ha, hb, hm, hvalue, Option.mem_def, Option.some.injEq, forall_eq']
    refine iff_of_true ((passedOn_settleAt_iff hpassed ha hpending).mpr ?_) trivial
    intro _ c hc
    rw [hb] at hc
    cases hc
    exact hvalue.symm
  | @catches i logger original error a b ha hb hpending hm herror =>
    simp only [GoesOnWell, ha, hb, hm, herror, Option.mem_def, Option.some.injEq, forall_eq']
    obtain ⟨rejection, hactivations, hrejection⟩ : ∃ rejection,
        (p.catchError logFails i logger original error).activations =
            settleAt p.activations i (.error rejection) ∧
          (rejection = error ↔ p.PassesOn logFails logger error) :=
      catchError_activations (hp.known b (List.mem_of_getElem? hb) error herror)
    rw [hactivations, passedOn_settleAt_iff hpassed ha hpending]
    change _ ↔ p.PassesOn logFails logger error
    rw [← hrejection]
    simp [hm, Method.isPatched, hb, herror, Outcome.settle]

/-- In a run every call of a wrapped method comes to what the original comes to, and no error is
logged twice, exactly when no original throws an error that its logger cannot pass on. -/
theorem always_faithful_iff (h : Kit.run (step logFails) start events = some p) :
    Kit.Always (step logFails) (Faithful logFails) start events ↔
      Kit.EachStep (step logFails) (GoesOnWell logFails) start events := by
  have hstart : Faithful logFails start :=
    (faithful_iff .start).mpr fun i a b ha => (by cases ha)
  refine Kit.always_iff_eachStep (I := Kept) (fun p event q hp hq => hp.step hq) ?_ .start hstart h
  intro p event q hp hfaithful hq
  rw [faithful_iff (hp.step hq)]
  exact passedOn_step_iff hp ((faithful_iff hp).mp hfaithful) hq

/-- An error passes through a storage node and a balanced node, both of them wrapped. -/
def nestedRead : List Event :=
  let readPiece : Obj := fun name => if name = "readPiece" then some (.original name) else none
  let error : Except JsValue JsValue := .error (.object 2)
  [.new readPiece, .bind 0 0 (nodeMethods none), .new readPiece, .bind 1 1 (nodeMethods none),
    .call 1 "readPiece" [], .call 0 "readPiece" [], .new fun _ => none,
    .settle 3 error, .resume 2, .settle 1 error, .resume 0]

theorem nestedRead_faithful : ∃ p, Kit.run (step fun _ _ => false) start nestedRead = some p ∧
    Kit.Always (step fun _ _ => false) (Faithful fun _ _ => false) start nestedRead :=
  ⟨_, rfl, (always_faithful_iff rfl).mpr (by decide)⟩

/-- A storage node whose signer rejects with a string: the call of `storePiece` rejects with
another value, a `TypeError`. -/
theorem thrownString_replaced :
    let storePiece : Obj := fun name => if name = "storePiece" then some (.original name) else none
    let events : List Event :=
      [.new storePiece, .bind 0 0 (nodeMethods none), .call 0 "storePiece" [],
        .settle 1 (.error (.primitive "Cancelled")), .resume 0]
    ∃ p, Kit.run (step fun _ _ => false) start events = some p ∧
      ¬ Kit.Always (step fun _ _ => false) (Faithful fun _ _ => false) start events := by
  intro storePiece events
  refine ⟨_, rfl, ?_⟩
  intro h
  have hlast := (h events (List.prefix_refl events) _ rfl).transparent
  obtain ⟨b, hb, -, heq | ⟨hpending, -⟩⟩ := hlast 0 _ _ _ rfl rfl
  · cases hb
    cases heq
  · cases hpending

end Process

end CereDdc.ErrorLogger
