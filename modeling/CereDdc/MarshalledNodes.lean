import CereDdc.PingStrategy

/-!
# MarshalledNodes — what `marshalNodes` returns, and what it leaves alone

Each call works on arrays of its own. Whatever comes in between its awaits, they
hold what the strategies make of the nodes it was given, and no array that other
code made is ever written.
-/

namespace CereDdc

open Kit (Heap Ref)

/-! ## The arrays of a call -/

/-- The array that the result of the call comes from. -/
def MarshalPhase.array : MarshalPhase → Ref
  | .basePinged allNodesShuffled _ => allNodesShuffled
  | .pinged allNodesShuffled _ => allNodesShuffled
  | .baseAll _ nodes => nodes
  | .all _ allOperationNodes => allOperationNodes
  | .settling allOperationNodes _ _ => allOperationNodes
  | .done result => result

/-- The array that the call is yet to sort. -/
def MarshalPhase.sorting : MarshalPhase → Option Ref
  | .all _ allOperationNodes => some allOperationNodes
  | .settling allOperationNodes _ _ => some allOperationNodes
  | _ => none

theorem MarshalPhase.sorting_eq {phase : MarshalPhase} {r : Ref} (h : phase.sorting = some r) :
    phase.array = r := by
  cases phase with
  | all _ _ => exact Option.some.inj h
  | settling _ _ _ => exact Option.some.inj h
  | basePinged _ _ => cases h
  | pinged _ _ => cases h
  | baseAll _ _ => cases h
  | done _ => cases h

namespace MarshalCall

/-- What is in the array of the call. -/
def Holds (sslRequired : Bool) (call : MarshalCall) (array : List RouterNode) : Prop :=
  match call.phase with
  | .basePinged _ _ => array = shuffle call.draws call.given
  | .pinged _ _ => array = shuffle call.draws call.given
  | .baseAll _ _ => array = BaseStrategy.marshalNodes sslRequired (shuffle call.draws call.given)
  | .all _ _ => array =
      NodeTypeStrategy.marshalNodes sslRequired call.operation (shuffle call.draws call.given)
  | .settling _ _ _ => array =
      NodeTypeStrategy.marshalNodes sslRequired call.operation (shuffle call.draws call.given)
  | .done _ => ∃ latency,
      array = marshalNodes sslRequired call.operation call.draws latency call.given

structure Sound (sslRequired : Bool) (arrays : Heap RouterNode) (call : MarshalCall) : Prop where
  lt : call.phase.array < arrays.size
  holds : call.Holds sslRequired (arrays.read call.phase.array)

variable {sslRequired : Bool} {arrays arrays' : Heap RouterNode} {call : MarshalCall}

theorem Sound.keep (h : call.Sound sslRequired arrays) (hsize : arrays.size ≤ arrays'.size)
    (hread : arrays'.read call.phase.array = arrays.read call.phase.array) :
    call.Sound sslRequired arrays' where
  lt := Nat.lt_of_lt_of_le h.lt hsize
  holds := by
    rw [hread]
    exact h.holds

theorem Sound.extend (h : call.Sound sslRequired arrays) (hext : arrays.Extends arrays') :
    call.Sound sslRequired arrays' :=
  h.keep hext.size_le (hext.read_eq _ h.lt)

end MarshalCall

/-! ## The strategies on arrays -/

section

variable {sslRequired : Bool} {operation : RouterOperation} {arrays : Heap RouterNode} {r : Ref}

theorem BaseStrategy.extends_marshal :
    arrays.Extends (BaseStrategy.marshal sslRequired arrays r).1 := by
  cases sslRequired with
  | true => exact arrays.extends_alloc _
  | false => exact .refl arrays

theorem BaseStrategy.read_marshal :
    (BaseStrategy.marshal sslRequired arrays r).1.read
        (BaseStrategy.marshal sslRequired arrays r).2
      = BaseStrategy.marshalNodes sslRequired (arrays.read r) := by
  cases sslRequired with
  | true => exact Heap.read_alloc_self
  | false => rfl

/-- The array is a new one, or the one that was given. -/
theorem BaseStrategy.marshal_ref :
    ((BaseStrategy.marshal sslRequired arrays r).2 = r ∨
        (BaseStrategy.marshal sslRequired arrays r).2 = arrays.size) ∧
      (r < arrays.size → (BaseStrategy.marshal sslRequired arrays r).2
        < (BaseStrategy.marshal sslRequired arrays r).1.size) := by
  cases sslRequired with
  | true => exact ⟨.inr rfl, fun _ => by simp [BaseStrategy.marshal]⟩
  | false => exact ⟨.inl rfl, id⟩

theorem NodeTypeStrategy.extends_marshal :
    arrays.Extends (NodeTypeStrategy.marshal operation arrays r).1 := arrays.extends_build _ _

theorem NodeTypeStrategy.lt_marshal :
    (NodeTypeStrategy.marshal operation arrays r).2
      < (NodeTypeStrategy.marshal operation arrays r).1.size := by
  simp [NodeTypeStrategy.marshal]

theorem NodeTypeStrategy.read_marshal {nodes : List RouterNode}
    (h : arrays.read r = BaseStrategy.marshalNodes sslRequired nodes) :
    (NodeTypeStrategy.marshal operation arrays r).1.read arrays.size
      = NodeTypeStrategy.marshalNodes sslRequired operation nodes := by
  unfold NodeTypeStrategy.marshal NodeTypeStrategy.marshalNodes
  rw [Heap.read_build_self, h]

end

/-! ## What an event changes -/

namespace PingState

variable {sslRequired : Bool} {s s' t : PingState} {call : MarshalCall} {phase : MarshalPhase}
  {node : RouterNode} {nodes : List RouterNode} {event : PingEvent} {i : Nat} {r : Ref}

@[simp] theorem enqueuePing_arrays : (s.enqueuePing node).1.arrays = s.arrays := by
  unfold enqueuePing
  split <;> rfl

@[simp] theorem enqueuePing_calls : (s.enqueuePing node).1.calls = s.calls := by
  unfold enqueuePing
  split <;> rfl

@[simp] theorem enqueuePings_arrays : (s.enqueuePings nodes).1.arrays = s.arrays := by
  induction nodes generalizing s with
  | nil => rfl
  | cons node nodes ih => exact ih.trans enqueuePing_arrays

@[simp] theorem enqueuePings_calls : (s.enqueuePings nodes).1.calls = s.calls := by
  induction nodes generalizing s with
  | nil => rfl
  | cons node nodes ih => exact ih.trans enqueuePing_calls

@[simp] theorem setPhase_arrays : (s.setPhase i phase).arrays = s.arrays := rfl

theorem setPhase_calls_self (h : s.calls[i]? = some call) :
    (s.setPhase i phase).calls[i]? = some { call with phase } := by
  simp [setPhase, h]

theorem setPhase_calls_of_ne {j : Nat} (hne : j ≠ i) :
    (s.setPhase i phase).calls[j]? = s.calls[j]? := by
  simp [setPhase, hne.symm]

/-- An event makes an array, starts a call, or lets one go on; the others are about pings. -/
theorem step_cases (h : s.step sslRequired event = some t) :
    (s.arrays.Extends t.arrays ∧ t.calls = s.calls) ∨
    (∃ operation r draws, event = .marshalNodes operation r draws ∧ r < s.arrays.size ∧
      t = s.marshalNodes sslRequired operation r draws) ∨
    (∃ i call s' phase, event = .resume i ∧ s.calls[i]? = some call ∧
      s.advance sslRequired call = some (s', phase) ∧ t = s'.setPhase i phase) := by
  cases event with
  | array nodes =>
    cases h
    exact .inl ⟨s.arrays.extends_alloc nodes, rfl⟩
  | marshalNodes operation allNodes draws =>
    simp only [step, Option.ite_none_right_eq_some, Option.some.injEq] at h
    exact .inr (.inl ⟨operation, allNodes, draws, rfl, h.1, h.2.symm⟩)
  | resume i =>
    simp only [step, Option.bind_eq_bind, Option.bind_eq_some_iff, Option.pure_def,
      Option.some.injEq] at h
    obtain ⟨call, hcall, ⟨s', phase⟩, hadvance, rfl⟩ := h
    exact .inr (.inr ⟨i, call, s', phase, rfl, hcall, hadvance, rfl⟩)
  | fetched url ok =>
    simp only [step, Option.bind_eq_bind, Option.bind_eq_some_iff] at h
    obtain ⟨record, -, h⟩ := h
    split at h
    · cases h
      exact .inl ⟨.refl _, rfl⟩
    · cases h
  | settle url =>
    simp only [step, Option.bind_eq_bind, Option.bind_eq_some_iff] at h
    obtain ⟨record, -, h⟩ := h
    split at h
    · cases h
      exact .inl ⟨.refl _, rfl⟩
    · cases h
  | timeout i =>
    simp only [step, Option.bind_eq_bind, Option.bind_eq_some_iff] at h
    obtain ⟨timer, -, h⟩ := h
    split at h
    · cases h
      refine .inl ⟨?_, enqueuePings_calls⟩
      rw [enqueuePings_arrays]
      exact .refl _
    · cases h
  | tick milliseconds =>
    cases h
    exact .inl ⟨.refl _, rfl⟩

/-! ## A call goes on -/

/-- What a call does to the arrays on its way from one await to the next. -/
structure MovesOn (sslRequired : Bool) (s : PingState) (call : MarshalCall) (s' : PingState)
    (phase : MarshalPhase) : Prop where
  calls : s'.calls = s.calls
  size_le : s.arrays.size ≤ s'.arrays.size
  read_eq : ∀ r, r < s.arrays.size → call.phase.sorting ≠ some r →
    s'.arrays.read r = s.arrays.read r
  sorting : ∀ r, phase.sorting = some r → call.phase.sorting = some r ∨ s.arrays.size ≤ r
  array : phase.array = call.phase.array ∨ s.arrays.size ≤ phase.array
  sound : call.Sound sslRequired s.arrays → { call with phase }.Sound sslRequired s'.arrays

/-- A call that only makes arrays. -/
theorem MovesOn.of_extends (hcalls : s'.calls = s.calls) (hext : s.arrays.Extends s'.arrays)
    (hsorting : ∀ r, phase.sorting = some r → call.phase.sorting = some r ∨ s.arrays.size ≤ r)
    (harray : phase.array = call.phase.array ∨ s.arrays.size ≤ phase.array)
    (hsound : call.Sound sslRequired s.arrays →
      { call with phase }.Sound sslRequired s'.arrays) :
    MovesOn sslRequired s call s' phase where
  calls := hcalls
  size_le := hext.size_le
  read_eq := fun r hr _ => hext.read_eq r hr
  sorting := hsorting
  array := harray
  sound := hsound

theorem advance_movesOn (h : s.advance sslRequired call = some (s', phase)) :
    MovesOn sslRequired s call s' phase := by
  obtain ⟨operation, draws, given, before⟩ := call
  cases before with
  | basePinged shuffled nodes =>
    cases h
    refine .of_extends rfl NodeTypeStrategy.extends_marshal (by simp [MarshalPhase.sorting])
      (.inl rfl) fun hsound => ?_
    have hext := hsound.extend (@NodeTypeStrategy.extends_marshal operation _ nodes)
    exact ⟨hext.lt, hext.holds⟩
  | pinged shuffled pingedNodes =>
    cases h
    refine .of_extends rfl BaseStrategy.extends_marshal (by simp [MarshalPhase.sorting]) ?_
      fun hsound => ⟨BaseStrategy.marshal_ref.2 hsound.lt, ?_⟩
    · rcases (@BaseStrategy.marshal_ref sslRequired s.arrays shuffled).1 with hsame | hnew
      · exact .inl hsame
      · exact .inr (Nat.le_of_eq hnew.symm)
    · have hholds : s.arrays.read shuffled = shuffle draws given := hsound.holds
      have hread := @BaseStrategy.read_marshal sslRequired s.arrays shuffled
      rw [hholds] at hread
      exact hread
  | baseAll pingedNodes nodes =>
    cases h
    refine .of_extends rfl NodeTypeStrategy.extends_marshal ?_ (.inr (Nat.le_refl _))
      fun hsound => ⟨?_, ?_⟩
    · intro r hr
      exact .inr (Nat.le_of_eq (Option.some.inj hr))
    · exact NodeTypeStrategy.lt_marshal
    · exact NodeTypeStrategy.read_marshal hsound.holds
  | all pingedNodes allOperationNodes =>
    cases h
    refine .of_extends enqueuePings_calls ?_ (fun r hr => .inl hr) (.inl rfl) fun hsound => ?_
    · rw [enqueuePings_arrays]
      exact .refl _
    · rw [enqueuePings_arrays]
      exact ⟨hsound.lt, hsound.holds⟩
  | settling allOperationNodes toPingAsync syncPings =>
    obtain ⟨-, rfl, rfl⟩ := (advance_settling sslRequired rfl).mp h
    refine ⟨rfl, by simp, ?_, by simp [MarshalPhase.sorting], .inl rfl, fun hsound => ⟨?_, ?_⟩⟩
    · intro r hr hne
      exact Heap.read_write_of_ne fun heq => hne (heq ▸ rfl)
    · have hlt : allOperationNodes < s.arrays.size := hsound.lt
      simpa [MarshalPhase.array] using hlt
    · -- the sort sees the latencies that are known at this moment
      refine ⟨s.latency, ?_⟩
      have hholds : s.arrays.read allOperationNodes =
          NodeTypeStrategy.marshalNodes sslRequired operation (shuffle draws given) := hsound.holds
      have hlt : allOperationNodes < s.arrays.size := hsound.lt
      change (s.arrays.write _ _).read allOperationNodes = _
      rw [Heap.read_write_self hlt, hholds]
      rfl
  | done result => cases h

/-! ## Every reachable state -/

/-- The arrays of the calls hold what they should, and no call sorts the array of another one. -/
structure Sound (sslRequired : Bool) (s : PingState) : Prop where
  calls : ∀ (i : Nat) call, s.calls[i]? = some call → call.Sound sslRequired s.arrays
  apart : ∀ (i j : Nat) call call' r, s.calls[i]? = some call → s.calls[j]? = some call' → i ≠ j →
    call.phase.sorting = some r → call'.phase.array ≠ r

/-- The new call has a copy of the array that was given. -/
theorem marshalNodes_call {operation : RouterOperation} {draws : Draws} :
    ∃ call : MarshalCall,
      (s.marshalNodes sslRequired operation r draws).calls = s.calls ++ [call] ∧
      s.arrays.Extends (s.marshalNodes sslRequired operation r draws).arrays ∧
      call.operation = operation ∧ call.draws = draws ∧ call.given = s.arrays.read r ∧
      call.phase.array = s.arrays.size ∧ call.phase.sorting = none ∧
      call.Sound sslRequired (s.marshalNodes sslRequired operation r draws).arrays := by
  have hbuild := s.arrays.extends_build (s.arrays.read r) (shuffle draws)
  have hrest := ((s.arrays.build (s.arrays.read r) (shuffle draws)).1.extends_alloc
    s.getPingedNodes).trans (@BaseStrategy.extends_marshal sslRequired _
      (s.arrays.build (s.arrays.read r) (shuffle draws)).1.size)
  have hlt : s.arrays.size < (s.arrays.build (s.arrays.read r) (shuffle draws)).1.size := by simp
  refine ⟨_, rfl, hbuild.trans hrest, rfl, rfl, rfl, rfl, rfl, ?_, ?_⟩
  · exact Nat.lt_of_lt_of_le hlt hrest.size_le
  · have hread := hrest.read_eq _ hlt
    rw [Heap.read_build_self] at hread
    exact hread

theorem Sound.marshalNodes {operation : RouterOperation} {draws : Draws}
    (hs : s.Sound sslRequired) :
    (s.marshalNodes sslRequired operation r draws).Sound sslRequired := by
  obtain ⟨call, hcalls, hext, -, -, -, harray, hsorting, hsound⟩ := @marshalNodes_call sslRequired
    s r operation draws
  constructor
  · intro i c hc
    rw [hcalls, List.getElem?_append] at hc
    split at hc
    · exact (hs.calls i c hc).extend hext
    · rw [List.getElem?_singleton] at hc
      split at hc
      · cases hc
        exact hsound
      · cases hc
  · intro i j c c' r' hi hj hne hr'
    rw [hcalls, List.getElem?_append] at hi hj
    split at hi
    · split at hj
      · exact hs.apart i j c c' r' hi hj hne hr'
      · -- the array of the new call is a new one
        rw [List.getElem?_singleton] at hj
        split at hj
        · cases hj
          have hlt := (hs.calls i c hi).lt
          rw [MarshalPhase.sorting_eq hr'] at hlt
          rw [harray]
          exact Nat.ne_of_gt hlt
        · cases hj
    · rw [List.getElem?_singleton] at hi
      split at hi
      · cases hi
        rw [hsorting] at hr'
        cases hr'
      · cases hi

theorem Sound.advance (hs : s.Sound sslRequired) (hcall : s.calls[i]? = some call)
    (h : s.advance sslRequired call = some (s', phase)) :
    (s'.setPhase i phase).Sound sslRequired := by
  have hmoves := advance_movesOn h
  have hcall' : s'.calls[i]? = some call := by rw [hmoves.calls, hcall]
  -- the other calls still find their arrays as they were
  have hother : ∀ j c, (s'.setPhase i phase).calls[j]? = some c → j ≠ i →
      s.calls[j]? = some c ∧ c.Sound sslRequired s'.arrays := by
    intro j c hc hj
    rw [setPhase_calls_of_ne hj, hmoves.calls] at hc
    refine ⟨hc, (hs.calls j c hc).keep hmoves.size_le ?_⟩
    exact hmoves.read_eq _ (hs.calls j c hc).lt fun hsorting =>
      hs.apart i j call c _ hcall hc hj.symm hsorting rfl
  have hself : ∀ c, (s'.setPhase i phase).calls[i]? = some c → c = { call with phase } := by
    intro c hc
    rw [setPhase_calls_self hcall'] at hc
    exact (Option.some.inj hc).symm
  constructor
  · intro j c hc
    by_cases hj : j = i
    · subst hj
      rw [hself c hc]
      exact hmoves.sound (hs.calls j call hcall)
    · exact (hother j c hc hj).2
  · intro j k c c' r hc hc' hne hr
    by_cases hj : j = i
    · subst hj
      rw [hself c hc] at hr
      have hk := (hother k c' hc' hne.symm).1
      rcases hmoves.sorting r hr with hold | hnew
      · exact hs.apart j k call c' r hcall hk hne hold
      · exact Nat.ne_of_lt (Nat.lt_of_lt_of_le (hs.calls k c' hk).lt hnew)
    · have hjc := (hother j c hc hj).1
      by_cases hk : k = i
      · subst hk
        rw [hself c' hc']
        rcases hmoves.array with hsame | hnew
        · change phase.array ≠ r
          rw [hsame]
          exact hs.apart j k c call r hjc hcall hj hr
        · have hlt := (hs.calls j c hjc).lt
          rw [MarshalPhase.sorting_eq hr] at hlt
          exact Nat.ne_of_gt (Nat.lt_of_lt_of_le hlt hnew)
      · exact hs.apart j k c c' r hjc (hother k c' hc' hk).1 hne hr

theorem Sound.step (hs : s.Sound sslRequired) (h : s.step sslRequired event = some t) :
    t.Sound sslRequired := by
  rcases step_cases h with ⟨hext, hcalls⟩ | ⟨operation, r, draws, -, -, rfl⟩ |
    ⟨i, call, s', phase, -, hcall, hadvance, rfl⟩
  · constructor
    · intro i call hcall
      rw [hcalls] at hcall
      exact (hs.calls i call hcall).extend hext
    · rw [hcalls]
      exact hs.apart
  · exact hs.marshalNodes
  · exact hs.advance hcall hadvance

theorem sound_initial {now : Int} {arrays : Heap RouterNode} :
    ({ now, arrays } : PingState).Sound sslRequired where
  calls := by
    intro i call h
    cases h
  apart := by
    intro i j call call' r h
    cases h

theorem Sound.run {events : List PingEvent} (hs : s.Sound sslRequired)
    (h : Kit.run (PingState.step sslRequired) s events = some t) : t.Sound sslRequired :=
  Kit.run_invariant (fun _ _ _ hs h => hs.step h) hs h

/-- The result of a call holds exactly the nodes that support its operation. -/
theorem Sound.result_perm (hs : s.Sound sslRequired) {result : Ref}
    (hcall : s.calls[i]? = some call) (hdone : call.phase = .done result) :
    (s.arrays.read result).Perm (call.given.filter (·.supports sslRequired call.operation)) := by
  have hholds := (hs.calls i call hcall).holds
  unfold MarshalCall.Holds at hholds
  rw [hdone] at hholds
  obtain ⟨latency, hread⟩ := hholds
  rw [show s.arrays.read result = _ from hread]
  exact marshalNodes_perm

/-! ## The arrays of other code -/

/-- No call sorts the array: it is there, and not one that a call is at work on. -/
structure Untouched (s : PingState) (r : Ref) : Prop where
  lt : r < s.arrays.size
  sorting : ∀ (i : Nat) call, s.calls[i]? = some call → call.phase.sorting ≠ some r

theorem untouched_initial {now : Int} {arrays : Heap RouterNode} (h : r < arrays.size) :
    ({ now, arrays } : PingState).Untouched r where
  lt := h
  sorting := by
    intro i call hcall
    cases hcall

/-- No event writes the array, and no call will. -/
theorem Untouched.step (hr : s.Untouched r) (h : s.step sslRequired event = some t) :
    t.Untouched r ∧ t.arrays.read r = s.arrays.read r := by
  rcases step_cases h with ⟨hext, hcalls⟩ | ⟨operation, r', draws, -, -, rfl⟩ |
    ⟨i, call, s', phase, -, hcall, hadvance, rfl⟩
  · refine ⟨⟨Nat.lt_of_lt_of_le hr.lt hext.size_le, ?_⟩, hext.read_eq r hr.lt⟩
    rw [hcalls]
    exact hr.sorting
  · obtain ⟨call, hcalls, hext, -, -, -, -, hsorting, -⟩ := @marshalNodes_call
      sslRequired s r' operation draws
    refine ⟨⟨Nat.lt_of_lt_of_le hr.lt hext.size_le, ?_⟩, hext.read_eq r hr.lt⟩
    intro j c hc
    rw [hcalls, List.getElem?_append] at hc
    split at hc
    · exact hr.sorting j c hc
    · rw [List.getElem?_singleton] at hc
      split at hc
      · cases hc
        simp [hsorting]
      · cases hc
  · have hmoves := advance_movesOn hadvance
    refine ⟨⟨Nat.lt_of_lt_of_le hr.lt hmoves.size_le, ?_⟩,
      hmoves.read_eq r hr.lt (hr.sorting i call hcall)⟩
    intro j c hc
    by_cases hj : j = i
    · subst hj
      rw [setPhase_calls_self (by rw [hmoves.calls, hcall])] at hc
      cases hc
      intro hsorting
      rcases hmoves.sorting r hsorting with hold | hnew
      · exact hr.sorting j call hcall hold
      · exact Nat.not_le_of_lt hr.lt hnew
    · rw [setPhase_calls_of_ne hj, hmoves.calls] at hc
      exact hr.sorting j c hc

theorem Untouched.run {events : List PingEvent} (hr : s.Untouched r)
    (h : Kit.run (PingState.step sslRequired) s events = some t) :
    t.Untouched r ∧ t.arrays.read r = s.arrays.read r :=
  Kit.run_invariant
    (P := fun u => u.Untouched r ∧ u.arrays.read r = s.arrays.read r)
    (fun _ _ _ hu hstep =>
      have hnext := hu.1.step hstep
      ⟨hnext.1, hnext.2.trans hu.2⟩)
    ⟨hr, rfl⟩ h

/-- An array that has just been made is untouched. -/
theorem Sound.untouched_array (hs : s.Sound sslRequired)
    (h : s.step sslRequired (.array nodes) = some t) : t.Untouched s.arrays.size where
  lt := by
    cases h
    simp
  sorting := by
    intro i call hcall hsorting
    cases h
    have hlt := (hs.calls i call hcall).lt
    rw [MarshalPhase.sorting_eq hsorting] at hlt
    exact Nat.lt_irrefl _ hlt

/-! ## Every call ends -/

/-- A call stays the call that it is. -/
theorem step_call (hcall : s.calls[i]? = some call) (h : s.step sslRequired event = some t) :
    ∃ phase, t.calls[i]? = some { call with phase } := by
  rcases step_cases h with ⟨-, hcalls⟩ | ⟨operation, r, draws, -, -, rfl⟩ |
    ⟨j, call', s', phase, -, hcall', hadvance, rfl⟩
  · exact ⟨call.phase, by rw [hcalls, hcall]⟩
  · exact ⟨call.phase, List.getElem?_append_left (List.getElem?_eq_some_iff.mp hcall).1 ▸ hcall⟩
  · have hcalls := (advance_movesOn hadvance).calls
    by_cases hj : i = j
    · subst hj
      rw [hcall] at hcall'
      cases hcall'
      exact ⟨phase, setPhase_calls_self (by rw [hcalls, hcall])⟩
    · exact ⟨call.phase, by rw [setPhase_calls_of_ne hj, hcalls, hcall]⟩

theorem run_call {events : List PingEvent} (hcall : s.calls[i]? = some call)
    (h : Kit.run (PingState.step sslRequired) s events = some t) :
    ∃ phase, t.calls[i]? = some { call with phase } := by
  refine Kit.run_invariant (P := fun u => ∃ phase, u.calls[i]? = some { call with phase })
    ?_ ⟨call.phase, hcall⟩ h
  intro u event v hu hstep
  obtain ⟨phase, hu⟩ := hu
  obtain ⟨phase', hv⟩ := step_call hu hstep
  exact ⟨phase', hv⟩

/-- What call `i` needs to get on: that it is resumed, and that pings end, each of them as `ok`
has it. -/
inductive Helps (ok : Url → Bool) (i : Nat) : PingEvent → Prop
  | resume : Helps ok i (.resume i)
  | fetched (url : Url) : Helps ok i (.fetched url (ok url))
  | settle (url : Url) : Helps ok i (.settle url)

/-- Nobody has to wait for a ping of the URL. -/
def Settled (s : PingState) (url : Url) : Prop :=
  ∀ record, s.record? url = some record → record.isDone ≠ .pending

theorem allSettled_iff {urls : List Url} :
    s.allSettled urls = true ↔ ∀ url ∈ urls, s.Settled url := by
  simp [allSettled, Settled, Option.all_eq_true]

theorem record?_updateRecord {url url' : Url} {f : PingRecord → PingRecord}
    (hf : ∀ record, (f record).node = record.node) :
    (s.updateRecord url f).record? url'
      = (s.record? url').map fun record => if url' = url then f record else record := by
  unfold record? updateRecord
  rw [List.find?_map]
  have hpred : (fun record : PingRecord => decide (record.node.httpUrl = url')) ∘
      (fun record => if record.node.httpUrl = url then f record else record)
        = fun record => decide (record.node.httpUrl = url') := by
    funext record
    simp only [Function.comp_apply]
    split
    · rw [hf]
    · rfl
  rw [hpred]
  cases hfind : s.nodesMap.find? fun record => decide (record.node.httpUrl = url') with
  | none => rfl
  | some record =>
    have hurl : record.node.httpUrl = url' := by simpa using List.find?_some hfind
    simp [hurl]

theorem settled_updateRecord {url : Url} {f : PingRecord → PingRecord}
    (hf : ∀ record, (f record).node = record.node)
    (hdone : ∀ record, (f record).isDone ≠ .pending) : (s.updateRecord url f).Settled url := by
  intro record' hrecord'
  rw [record?_updateRecord hf] at hrecord'
  obtain ⟨record, -, rfl⟩ := Option.map_eq_some_iff.mp hrecord'
  simpa using hdone record

theorem ne_pending_ite (ok : Bool) :
    (if ok then DeferredState.resolved else .rejected) ≠ .pending := by
  cases ok <;> simp

/-- A record with another URL is not touched. -/
theorem record?_updateRecord_of_ne {url url' : Url} {f : PingRecord → PingRecord}
    (hf : ∀ record, (f record).node = record.node) (hne : url' ≠ url) :
    (s.updateRecord url f).record? url' = s.record? url' := by
  rw [record?_updateRecord hf]
  simp [hne]

/-- A ping that has been fetched needs one more event. -/
theorem exists_settled_of_fetched (ok : Url → Bool) (i : Nat) {url : Url} {record : PingRecord}
    {done : Bool}
    (hrecord : s.record? url = some record) (hphase : record.phase = .fetched done)
    (hpending : record.isDone = .pending) :
    ∃ t, Kit.ReachesBy (PingState.step sslRequired) (Helps ok i) s t ∧ t.calls = s.calls ∧
      t.Settled url ∧ ∀ url', url' ≠ url → t.record? url' = s.record? url' := by
  refine ⟨s.updateRecord url ({ · with isDone := if done then .resolved else .rejected }),
    .single (.settle url) ?_, rfl, ?_, ?_⟩
  · simp [PingState.step, hrecord, hphase, hpending]
  · exact settled_updateRecord (fun _ => rfl) fun _ => ne_pending_ite done
  · exact fun _ hne => record?_updateRecord_of_ne (fun _ => rfl) hne

/-- A ping ends in at most two events, and the others stay as they are. -/
theorem exists_settled (ok : Url → Bool) (i : Nat) (s : PingState) (url : Url) :
    ∃ t, Kit.ReachesBy (PingState.step sslRequired) (Helps ok i) s t ∧ t.calls = s.calls ∧
      t.Settled url ∧ ∀ url', url' ≠ url → t.record? url' = s.record? url' := by
  by_cases hsettled : s.Settled url
  · exact ⟨s, .refl s, rfl, hsettled, fun _ _ => rfl⟩
  simp only [Settled, not_forall, not_not] at hsettled
  obtain ⟨record, hrecord, hpending⟩ := hsettled
  cases hphase : record.phase with
  | fetched done => exact exists_settled_of_fetched ok i hrecord hphase hpending
  | fetching start =>
    let latency := if ok url then some (s.now - start) else record.latency
    let fetched : PingRecord → PingRecord := ({ · with phase := .fetched (ok url), latency })
    have hstep : s.step sslRequired (.fetched url (ok url)) = some (s.updateRecord url fetched) := by
      simp [PingState.step, hrecord, hphase, fetched, latency]
    have hrecord' : (s.updateRecord url fetched).record? url = some (fetched record) := by
      rw [record?_updateRecord (f := fetched) fun _ => rfl, hrecord]
      simp
    obtain ⟨t, hreaches, hcalls, hurl, hothers⟩ :=
      @exists_settled_of_fetched sslRequired _ ok i _ _ _ hrecord' rfl hpending
    refine ⟨t, .trans (.single (.fetched url) hstep) hreaches, hcalls, hurl, ?_⟩
    intro url' hne
    have hframe : (s.updateRecord url fetched).record? url' = s.record? url' :=
      record?_updateRecord_of_ne (fun _ => rfl) hne
    exact (hothers url' hne).trans hframe

/-- Pings end, and those of other URLs stay as they are. -/
theorem exists_allSettled (ok : Url → Bool) (i : Nat) (s : PingState) (urls : List Url) :
    ∃ t, Kit.ReachesBy (PingState.step sslRequired) (Helps ok i) s t ∧ t.calls = s.calls ∧
      (∀ url ∈ urls, t.Settled url) ∧ ∀ url, url ∉ urls → t.record? url = s.record? url := by
  induction urls with
  | nil => exact ⟨s, .refl s, rfl, by simp, fun _ _ => rfl⟩
  | cons url urls ih =>
    obtain ⟨t, hst, hcalls, hurls, hrest⟩ := ih
    obtain ⟨u, htu, hcalls', hurl, hothers⟩ := exists_settled ok i t url
    refine ⟨u, hst.trans htu, hcalls'.trans hcalls, ?_, ?_⟩
    · intro url' hurl'
      by_cases hsame : url' = url
      · rw [hsame]
        exact hurl
      · have hmem := (List.mem_cons.mp hurl').resolve_left hsame
        intro record hrecord
        rw [hothers url' hsame] at hrecord
        exact hurls url' hmem record hrecord
    · intro url' hurl'
      rw [List.mem_cons, not_or] at hurl'
      rw [hothers url' hurl'.1, hrest url' hurl'.2]

/-- The call can be resumed. -/
theorem resume_of_advance (hcall : s.calls[i]? = some call)
    (h : s.advance sslRequired call = some (s', phase)) :
    s.step sslRequired (.resume i) = some (s'.setPhase i phase) ∧
      (s'.setPhase i phase).calls[i]? = some { call with phase } := by
  refine ⟨?_, setPhase_calls_self (by rw [(advance_movesOn h).calls, hcall])⟩
  simp [PingState.step, hcall, h]

/-- The call has come to its end. -/
def Ends (sslRequired : Bool) (ok : Url → Bool) (i : Nat) (call : MarshalCall) (s : PingState) :
    Prop :=
  ∃ t result, Kit.ReachesBy (PingState.step sslRequired) (Helps ok i) s t ∧
    t.calls[i]? = some { call with phase := .done result }

theorem Ends.of_advance {ok : Url → Bool} {before : MarshalPhase}
    (hcall : s.calls[i]? = some { call with phase := before })
    (h : s.advance sslRequired { call with phase := before } = some (s', phase))
    (hends : (s'.setPhase i phase).calls[i]? = some { call with phase } →
      Ends sslRequired ok i call (s'.setPhase i phase)) :
    Ends sslRequired ok i call s := by
  obtain ⟨hstep, hcall'⟩ := resume_of_advance hcall h
  obtain ⟨t, result, hreaches, hdone⟩ := hends hcall'
  exact ⟨t, result, .trans (.single .resume hstep) hreaches, hdone⟩

/-- Whatever becomes of the pings, a call comes to its end. -/
theorem ends (ok : Url → Bool) (hcall : s.calls[i]? = some call) :
    Ends sslRequired ok i call s := by
  -- the waiting for the pings comes last, so the awaits are taken from the end
  have settling : ∀ (s : PingState) all toPingAsync syncPings,
      s.calls[i]? = some { call with phase := .settling all toPingAsync syncPings } →
      Ends sslRequired ok i call s := by
    intro s all toPingAsync syncPings hcall
    obtain ⟨t, hreaches, hcalls, hsettled, -⟩ := exists_allSettled ok i s syncPings
    rw [← hcalls] at hcall
    have hadvance := @resume_of_advance sslRequired t _ _ _ _ hcall
      (by simp only [advance, allSettled_iff.mpr hsettled, if_true]; rfl)
    exact ⟨_, all, hreaches.trans (.single .resume hadvance.1), hadvance.2⟩
  have all : ∀ (s : PingState) pingedNodes all,
      s.calls[i]? = some { call with phase := .all pingedNodes all } →
      Ends sslRequired ok i call s := by
    intro s pingedNodes all hcall
    exact .of_advance hcall rfl (settling _ _ _ _)
  have baseAll : ∀ (s : PingState) pingedNodes nodes,
      s.calls[i]? = some { call with phase := .baseAll pingedNodes nodes } →
      Ends sslRequired ok i call s := by
    intro s pingedNodes nodes hcall
    exact .of_advance hcall rfl (all _ _ _)
  have pinged : ∀ (s : PingState) shuffled pingedNodes,
      s.calls[i]? = some { call with phase := .pinged shuffled pingedNodes } →
      Ends sslRequired ok i call s := by
    intro s shuffled pingedNodes hcall
    exact .of_advance hcall rfl (baseAll _ _ _)
  obtain ⟨operation, draws, given, phase⟩ := call
  cases phase with
  | basePinged shuffled nodes =>
    exact .of_advance hcall rfl (pinged _ _ _)
  | pinged shuffled pingedNodes => exact pinged s shuffled pingedNodes hcall
  | baseAll pingedNodes nodes => exact baseAll s pingedNodes nodes hcall
  | all pingedNodes nodes => exact all s pingedNodes nodes hcall
  | settling nodes toPingAsync syncPings => exact settling s nodes toPingAsync syncPings hcall
  | done result => exact ⟨s, result, .refl s, hcall⟩

end PingState

end CereDdc
