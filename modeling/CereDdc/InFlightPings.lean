import CereDdc.PingRecords

/-!
# InFlightPings — whom a call of `marshalNodes` waits for

When a call starts it takes down the nodes that were pinged, with those whose ping
is still under way. Later it calls `enqueuePing` for them too, to make sure they
are settled, and gets records back, which are no promises.
-/

namespace CereDdc

open Kit (Heap Ref)

namespace PingState

variable {sslRequired : Bool} {s s' t u v : PingState} {event : PingEvent}
  {events later : List PingEvent} {operation : RouterOperation} {draws : Draws} {r : Ref}
  {call : MarshalCall} {phase : MarshalPhase} {found : List RouterNode} {i : Nat} {url : Url}

/-! ## One call in a run -/

/-- A call waits where it is, or it is resumed. -/
theorem step_call_cases (hcall : s.calls[i]? = some call) (h : s.step sslRequired event = some t) :
    t.calls[i]? = some call ∨
      (event = .resume i ∧ ∃ s' phase, s.advance sslRequired call = some (s', phase) ∧
        t = s'.setPhase i phase) := by
  rcases step_cases h with ⟨-, hcalls⟩ | ⟨operation, r, draws, -, -, rfl⟩ |
    ⟨j, call', s', phase, hevent, hcall', hadvance, rfl⟩
  · exact .inl (by rw [hcalls, hcall])
  · exact .inl (List.getElem?_append_left (List.getElem?_eq_some_iff.mp hcall).1 ▸ hcall)
  · by_cases hj : i = j
    · subst hj
      rw [hcall] at hcall'
      cases hcall'
      exact .inr ⟨hevent, s', phase, hadvance, rfl⟩
    · exact .inl (by rw [setPhase_calls_of_ne hj, (advance_movesOn hadvance).calls, hcall])

/-! ## The pinged nodes of a call -/

/-- The call holds the nodes of `found` that support its operation, until it starts its pings. -/
def KnowsPinged (sslRequired : Bool) (found : List RouterNode) (s : PingState)
    (call : MarshalCall) : Prop :=
  match call.phase with
  | .basePinged _ nodes =>
    s.Untouched nodes ∧ s.arrays.read nodes = BaseStrategy.marshalNodes sslRequired found
  | .pinged _ pingedNodes => s.Untouched pingedNodes ∧
      s.arrays.read pingedNodes = NodeTypeStrategy.marshalNodes sslRequired call.operation found
  | .baseAll pingedNodes _ => s.Untouched pingedNodes ∧
      s.arrays.read pingedNodes = NodeTypeStrategy.marshalNodes sslRequired call.operation found
  | .all pingedNodes _ => s.Untouched pingedNodes ∧
      s.arrays.read pingedNodes = NodeTypeStrategy.marshalNodes sslRequired call.operation found
  | .settling _ _ _ => True
  | .done _ => True

/-- What an array holds that nobody writes stays so. -/
theorem Untouched.step_read {array : List RouterNode}
    (h : s.Untouched r ∧ s.arrays.read r = array) (hstep : s.step sslRequired event = some t) :
    t.Untouched r ∧ t.arrays.read r = array :=
  have hnext := h.1.step hstep
  ⟨hnext.1, hnext.2.trans h.2⟩

theorem KnowsPinged.keep (h : KnowsPinged sslRequired found s call)
    (hstep : s.step sslRequired event = some t) : KnowsPinged sslRequired found t call := by
  unfold KnowsPinged at h ⊢
  cases hphase : call.phase with
  | settling _ _ _ => trivial
  | done _ => trivial
  | _ =>
    rw [hphase] at h
    exact Untouched.step_read h hstep

/-- A new array is untouched where the calls sort others. -/
theorem Sound.untouched_new {t : PingState} (hs : s.Sound sslRequired)
    (hr : s.arrays.size ≤ r) (hlt : r < t.arrays.size)
    (hcalls : ∀ (j : Nat) call, t.calls[j]? = some call →
      s.calls[j]? = some call ∨ call.phase.sorting = none) : t.Untouched r where
  lt := hlt
  sorting := by
    intro j call hcall hsorting
    rcases hcalls j call hcall with hold | hnone
    · have hlt := (hs.calls j call hold).lt
      rw [MarshalPhase.sorting_eq hsorting] at hlt
      exact Nat.not_lt_of_le hr hlt
    · rw [hnone] at hsorting
      cases hsorting

/-- A call that starts takes down the pinged nodes of this moment. -/
theorem Sound.knowsPinged_new (hs : s.Sound sslRequired) :
    ∃ call, (s.marshalNodes sslRequired operation r draws).calls = s.calls ++ [call] ∧
      call.operation = operation ∧
      KnowsPinged sslRequired s.getPingedNodes (s.marshalNodes sslRequired operation r draws)
        call := by
  let shuffled := s.arrays.build (s.arrays.read r) (shuffle draws)
  have hbase := @BaseStrategy.marshal_ref sslRequired (shuffled.1.alloc s.getPingedNodes).1
    shuffled.1.size
  have hread := @BaseStrategy.read_marshal sslRequired (shuffled.1.alloc s.getPingedNodes).1
    shuffled.1.size
  rw [Heap.read_alloc_self] at hread
  refine ⟨_, rfl, rfl, hs.untouched_new ?_ (hbase.2 (by simp)) ?_, hread⟩
  · have hsize : s.arrays.size ≤ shuffled.1.size := by simp [shuffled]
    rcases hbase.1 with hsame | hnew
    · exact hsame ▸ hsize
    · have hlast : s.arrays.size ≤ (shuffled.1.alloc s.getPingedNodes).1.size :=
        Nat.le_trans hsize (by simp)
      exact Nat.le_trans hlast (Nat.le_of_eq hnew.symm)
  · intro j call hcall
    change (s.calls ++ [_])[j]? = some call at hcall
    rw [List.getElem?_append] at hcall
    split at hcall
    · exact .inl hcall
    · rw [List.getElem?_singleton] at hcall
      split at hcall
      · cases hcall
        exact .inr rfl
      · cases hcall

/-- The call keeps what it knows while it goes on. -/
theorem KnowsPinged.advance (hs : s.Sound sslRequired) (hcall : s.calls[i]? = some call)
    (hknows : KnowsPinged sslRequired found s call)
    (h : s.advance sslRequired call = some (s', phase))
    (hstep : s.step sslRequired event = some (s'.setPhase i phase)) :
    KnowsPinged sslRequired found (s'.setPhase i phase) { call with phase } := by
  obtain ⟨operation, draws, given, before⟩ := call
  cases before with
  | basePinged shuffled nodes =>
    have hcalls := (advance_movesOn h).calls
    cases h
    have hread := @NodeTypeStrategy.read_marshal sslRequired operation _ _ _ hknows.2
    refine ⟨hs.untouched_new (Nat.le_refl _) NodeTypeStrategy.lt_marshal ?_, hread⟩
    intro j other hother
    by_cases hj : j = i
    · subst hj
      rw [setPhase_calls_self (by rw [hcalls, hcall])] at hother
      cases hother
      exact .inr rfl
    · rw [setPhase_calls_of_ne hj] at hother
      exact .inl hother
  | pinged shuffled pingedNodes =>
    cases h
    exact Untouched.step_read hknows hstep
  | baseAll pingedNodes nodes =>
    cases h
    exact Untouched.step_read hknows hstep
  | all pingedNodes allOperationNodes =>
    cases h
    trivial
  | settling allOperationNodes toPingAsync syncPings =>
    obtain ⟨-, -, rfl⟩ := (advance_settling sslRequired rfl).mp h
    trivial
  | done result => cases h

/-! ## Waiting -/

/-- The ping of the URL has come to its end. -/
def Over (s : PingState) (url : Url) : Prop :=
  ∃ record, s.record? url = some record ∧ record.isDone ≠ .pending

/-- A ping that is over stays as it is. -/
theorem Recorded.over_run (hs : Recorded events s) {record : PingRecord}
    (hrecord : s.record? url = some record) (hdone : record.isDone ≠ .pending)
    (h : Kit.run (PingState.step sslRequired) s later = some t) :
    t.record? url = some record := by
  obtain ⟨record', hrecord', hgrows⟩ := hs.run_record? h hrecord
  rw [hrecord', hgrows.isDone hdone]

theorem Recorded.over_step (hs : Recorded events s) (hover : s.Over url)
    (h : s.step sslRequired event = some t) : t.Over url := by
  obtain ⟨record, hrecord, hdone⟩ := hover
  exact ⟨record, hs.over_run hrecord hdone (Kit.run_singleton.trans h), hdone⟩

theorem Recorded.has_step (hs : Recorded events s) (hhas : s.has url = true)
    (h : s.step sslRequired event = some t) : t.has url = true := by
  rw [has_eq, Option.isSome_iff_exists] at hhas
  obtain ⟨record, hrecord⟩ := hhas
  obtain ⟨record', hrecord', -⟩ := hs.step_record? h hrecord
  rw [has_eq, hrecord']
  rfl

/-- Call `i` is for `operation`, and `found` were the pinged nodes when it started. -/
structure Called (sslRequired : Bool) (found : List RouterNode) (i : Nat)
    (operation : RouterOperation) (s : PingState) : Prop where
  sound : s.Sound sslRequired
  recorded : ∃ events, Recorded events s
  has : ∀ node ∈ found, s.has node.httpUrl = true
  call : ∃ call, s.calls[i]? = some call ∧ call.operation = operation ∧
    KnowsPinged sslRequired found s call

theorem mem_getPingedNodes {node : RouterNode} : node ∈ s.getPingedNodes ↔
    ∃ record ∈ s.nodesMap, record.isDone ≠ .rejected ∧ record.node = node := by
  simp [getPingedNodes, and_assoc]

theorem Called.new (hs : s.Sound sslRequired) (hrecorded : Recorded events s)
    (h : s.step sslRequired (.marshalNodes operation r draws) = some t) :
    Called sslRequired s.getPingedNodes s.calls.length operation t where
  sound := hs.step h
  recorded := ⟨_, hrecorded.step h⟩
  has := by
    intro node hnode
    obtain ⟨record, hrecord, -, rfl⟩ := mem_getPingedNodes.mp hnode
    refine hrecorded.has_step ?_ h
    rw [has_eq, hrecorded.record?_eq hrecord]
    rfl
  call := by
    simp only [PingState.step, Option.ite_none_right_eq_some, Option.some.injEq] at h
    obtain ⟨-, rfl⟩ := h
    obtain ⟨call, hcalls, hoperation, hknows⟩ := @Sound.knowsPinged_new _ s operation draws r hs
    exact ⟨call, by rw [hcalls, List.getElem?_concat_length], hoperation, hknows⟩

theorem Called.step (hc : Called sslRequired found i operation s)
    (h : s.step sslRequired event = some t) : Called sslRequired found i operation t where
  sound := hc.sound.step h
  recorded := by
    obtain ⟨events, hrecorded⟩ := hc.recorded
    exact ⟨_, hrecorded.step h⟩
  has := by
    intro node hnode
    obtain ⟨events, hrecorded⟩ := hc.recorded
    exact hrecorded.has_step (hc.has node hnode) h
  call := by
    obtain ⟨call, hcall, hoperation, hknows⟩ := hc.call
    rcases step_call_cases hcall h with hsame | ⟨rfl, s', phase, hadvance, rfl⟩
    · exact ⟨call, hsame, hoperation, hknows.keep h⟩
    · have hcall' : s'.calls[i]? = some call := by rw [(advance_movesOn hadvance).calls, hcall]
      exact ⟨_, setPhase_calls_self hcall', hoperation, hknows.advance hc.sound hcall hadvance h⟩

theorem Called.run (hc : Called sslRequired found i operation s)
    (h : Kit.run (PingState.step sslRequired) s events = some t) :
    Called sslRequired found i operation t :=
  Kit.run_invariant (fun _ _ _ hc h => hc.step h) hc h

/-- The nodes that the call finds pinged when it starts its pings. -/
theorem Called.read_pinged (hc : Called sslRequired found i operation s)
    (hcall : s.calls[i]? = some call) {pinged all : Ref} (hphase : call.phase = .all pinged all) :
    s.arrays.read pinged = NodeTypeStrategy.marshalNodes sslRequired operation found := by
  obtain ⟨call', hcall', hoperation, hknows⟩ := hc.call
  rw [hcall] at hcall'
  cases hcall'
  unfold KnowsPinged at hknows
  rw [hphase] at hknows
  rw [← hoperation]
  exact hknows.2

/-- No ping is under way of the nodes that a call knows as pinged when it goes on to start its
pings. -/
def FindsSettled (s : PingState) : PingEvent → Prop
  | .resume i => ∀ call pingedNodes allOperationNodes, s.calls[i]? = some call →
      call.phase = .all pingedNodes allOperationNodes →
      ∀ node ∈ s.arrays.read pingedNodes, s.Settled node.httpUrl
  | _ => True

/-- Once the call has started its pings, those of the nodes in `found` that it can use are over. -/
def HasWaited (sslRequired : Bool) (found : List RouterNode) (i : Nat)
    (operation : RouterOperation) (s : PingState) : Prop :=
  ∀ call, s.calls[i]? = some call →
    match call.phase with
    | .settling _ _ _ | .done _ =>
      ∀ node ∈ found, node.supports sslRequired operation → s.Over node.httpUrl
    | _ => True

theorem HasWaited.step (hc : Called sslRequired found i operation s)
    (hwaited : HasWaited sslRequired found i operation s) (hfinds : FindsSettled s event)
    (h : s.step sslRequired event = some t) : HasWaited sslRequired found i operation t := by
  obtain ⟨events, hrecorded⟩ := hc.recorded
  obtain ⟨call, hcall, -, -⟩ := hc.call
  have hkeep : (∀ node ∈ found, node.supports sslRequired operation → s.Over node.httpUrl) →
      ∀ node ∈ found, node.supports sslRequired operation → t.Over node.httpUrl :=
    fun hover node hnode hsupports => hrecorded.over_step (hover node hnode hsupports) h
  have hbefore := hwaited call hcall
  intro call' hcall'
  rcases step_call_cases hcall h with hsame | ⟨rfl, s', phase, hadvance, rfl⟩
  · rw [hsame] at hcall'
    cases hcall'
    cases hphase : call.phase with
    | settling _ _ _ =>
      rw [hphase] at hbefore
      exact hkeep hbefore
    | done _ =>
      rw [hphase] at hbefore
      exact hkeep hbefore
    | _ => trivial
  · rw [setPhase_calls_self (by rw [(advance_movesOn hadvance).calls, hcall])] at hcall'
    cases hcall'
    cases hphase : call.phase with
    | all pinged all =>
      simp only [advance, hphase, Option.some.injEq, Prod.mk.injEq] at hadvance
      obtain ⟨-, rfl⟩ := hadvance
      refine hkeep fun node hnode hsupports => ?_
      have hread : node ∈ s.arrays.read pinged := by
        rw [hc.read_pinged hcall hphase, nodeTypeStrategy_perm.mem_iff]
        exact List.mem_filter.mpr ⟨hnode, hsupports⟩
      obtain ⟨record, hrecord⟩ := Option.isSome_iff_exists.mp (has_eq ▸ hc.has node hnode)
      exact ⟨record, hrecord, hfinds call pinged all hcall hphase node hread record hrecord⟩
    | settling all toPingAsync syncPings =>
      rw [hphase] at hbefore
      obtain ⟨-, -, rfl⟩ := (advance_settling sslRequired hphase).mp hadvance
      exact hkeep hbefore
    | basePinged _ _ =>
      simp only [advance, hphase, Option.some.injEq, Prod.mk.injEq] at hadvance
      obtain ⟨-, rfl⟩ := hadvance
      trivial
    | pinged _ _ =>
      simp only [advance, hphase, Option.some.injEq, Prod.mk.injEq] at hadvance
      obtain ⟨-, rfl⟩ := hadvance
      trivial
    | baseAll _ _ =>
      simp only [advance, hphase, Option.some.injEq, Prod.mk.injEq] at hadvance
      obtain ⟨-, rfl⟩ := hadvance
      trivial
    | done _ =>
      rw [advance_done sslRequired hphase] at hadvance
      cases hadvance

/-! ## The sort -/

/-- The wait of call `i` has come to its end: it sorts when it is resumed. -/
def Sorts (s : PingState) (i : Nat) : Prop :=
  ∃ call allOperationNodes toPingAsync syncPings, s.calls[i]? = some call ∧
    call.phase = .settling allOperationNodes toPingAsync syncPings ∧
    s.allSettled syncPings = true

/-- The ping of the URL is over, and whoever sorts from now on finds the same latency. -/
def Final (sslRequired : Bool) (s : PingState) (url : Url) : Prop :=
  s.Over url ∧ ∀ later t, Kit.run (step sslRequired) s later = some t → t.latency url = s.latency url

/-- Each call of the run waits for the pings of the nodes it can use that are under way when it
starts. -/
def WaitsForPings (sslRequired : Bool) (s₀ : PingState) (events : List PingEvent) : Prop :=
  ∀ before operation allNodes draws between after s t u,
    events = before ++ .marshalNodes operation allNodes draws ::
      (between ++ .resume s.calls.length :: after) →
    Kit.run (step sslRequired) s₀ before = some s →
    s.step sslRequired (.marshalNodes operation allNodes draws) = some t →
    Kit.run (step sslRequired) t between = some u → u.Sorts s.calls.length →
    ∀ record ∈ s.nodesMap, record.isDone = .pending →
      record.node.supports sslRequired operation → u.Final sslRequired record.node.httpUrl

theorem Recorded.final_iff (hs : Recorded events s) :
    s.Final sslRequired url ↔ s.Over url := by
  constructor
  · exact fun h => h.1
  · intro h
    refine ⟨h, fun later t hrun => ?_⟩
    obtain ⟨record, hrecord, hdone⟩ := h
    rw [PingState.latency, PingState.latency, hrecord, hs.over_run hrecord hdone hrun]

/-- Where every call finds the pings settled, every call has waited for them. -/
theorem waitsForPings_of_findsSettled (hs : s.Sound sslRequired) {past : List PingEvent}
    (hrecorded : Recorded past s) (h : Kit.EachStep (step sslRequired) FindsSettled s events) :
    WaitsForPings sslRequired s events := by
  intro before operation allNodes draws between after s' t u hevents hbefore hcall hbetween hsorts
    record hrecord hpending hsupports
  subst hevents
  have heach : Kit.EachStep (step sslRequired) FindsSettled t between := by
    have hright := (h.right hbefore).2
    rw [hcall] at hright
    exact hright.left
  have hcalled : Called sslRequired s'.getPingedNodes s'.calls.length operation t :=
    .new (hs.run hbefore) (hrecorded.run hbefore) hcall
  have hwaited : HasWaited sslRequired s'.getPingedNodes s'.calls.length operation t := by
    intro call hcall'
    simp only [step, Option.ite_none_right_eq_some, Option.some.injEq] at hcall
    obtain ⟨-, rfl⟩ := hcall
    simp only [PingState.marshalNodes, List.getElem?_concat_length, Option.some.injEq] at hcall'
    cases hcall'
    trivial
  obtain ⟨hcalled', hwaited'⟩ := heach.invariant
    (P := fun v => Called sslRequired s'.getPingedNodes s'.calls.length operation v ∧
      HasWaited sslRequired s'.getPingedNodes s'.calls.length operation v)
    (fun v event w hfinds hv hstep => ⟨hv.1.step hstep, hv.2.step hv.1 hfinds hstep⟩)
    ⟨hcalled, hwaited⟩ hbetween
  obtain ⟨past', hrecorded'⟩ := hcalled'.recorded
  obtain ⟨call, all, toPingAsync, syncPings, hcall', hphase, -⟩ := hsorts
  have hover := hwaited' call hcall'
  rw [hphase] at hover
  rw [hrecorded'.final_iff]
  refine hover record.node ?_ hsupports
  exact mem_getPingedNodes.mpr ⟨record, hrecord, by simp [hpending], rfl⟩

/-- The nodes of the call that nobody has pinged. -/
def notPinged (s : PingState) (allOperationNodes : Ref) : List RouterNode :=
  (s.arrays.read allOperationNodes).filter (!s.has ·.httpUrl)

/-- The nodes whose pings the call starts and waits for. -/
def toPingSync (s : PingState) (pingedNodes allOperationNodes : Ref) : List RouterNode :=
  (s.notPinged allOperationNodes).take (pingThreshold - (s.arrays.read pingedNodes).length)

/-- A call starts its pings, and waits for those that are new. -/
theorem step_startsPings (hcall : s.calls[i]? = some call) {pinged all : Ref}
    (hphase : call.phase = .all pinged all) :
    ∃ started, s.Starts (s.arrays.read pinged ++ s.toPingSync pinged all) started ∧
      s.step sslRequired (.resume i) = some ((s.withPings started).setPhase i
        (.settling all ((s.notPinged all).take pingThresholdInc) (started.map (·.httpUrl)))) := by
  obtain ⟨started, hstarts, henqueue⟩ :=
    enqueuePings_starts s (s.arrays.read pinged ++ s.toPingSync pinged all)
  refine ⟨started, hstarts, ?_⟩
  unfold toPingSync notPinged at henqueue
  simp only [PingState.step, hcall, advance, hphase, henqueue, Option.bind_eq_bind,
    Option.bind_some]
  rfl

/-- A call that is about to start its pings can get to sort before any other ping ends. -/
theorem exists_sorts (hcall : s.calls[i]? = some call) {pinged all : Ref}
    (hphase : call.phase = .all pinged all) :
    ∃ started later v, s.Starts (s.arrays.read pinged ++ s.toPingSync pinged all) started ∧
      (∀ event ∈ later, Helps (fun _ => true) i event) ∧
      Kit.run (step sslRequired) s (.resume i :: later) = some v ∧ v.Sorts i ∧
      ∀ url ∉ started.map (·.httpUrl), v.record? url = s.record? url := by
  obtain ⟨started, hstarts, hstep⟩ := @step_startsPings sslRequired _ _ _ hcall _ _ hphase
  obtain ⟨v, ⟨later, hhelps, hrun⟩, hcalls, hsettled, hothers⟩ := @exists_allSettled sslRequired
    (fun _ => true) i _ (started.map (·.httpUrl))
  refine ⟨started, later, v, hstarts, hhelps, Kit.run_cons_eq_some.mpr ⟨_, hstep, hrun⟩, ?_, ?_⟩
  · have hcall' := (congrArg (·[i]?) hcalls).trans (setPhase_calls_self hcall)
    exact ⟨_, _, _, _, hcall', rfl, allSettled_iff.mpr hsettled⟩
  · intro url hnew
    rw [hothers url hnew]
    change (s.withPings started).record? url = _
    have hnone : started.find? (·.httpUrl = url) = none := by
      simpa using hnew
    rw [record?_withPings, hnone, Option.map_none, Option.or_none]

/-- **Whom a call waits for**: the calls of a run wait for the pings that they find under way if no
ping of a node that a call knows as pinged is still under way when the call goes on to start its own
pings; and if one is, the call can sort before that ping ends. -/
theorem waits_iff {now : Int} {arrays : Heap RouterNode} :
    (∀ events, Kit.EachStep (step sslRequired) FindsSettled { now, arrays } events →
      WaitsForPings sslRequired { now, arrays } events) ∧
    ∀ before s operation allNodes draws t between u call pinged all,
      Kit.run (step sslRequired) { now, arrays } before = some s →
      s.step sslRequired (.marshalNodes operation allNodes draws) = some t →
      Kit.run (step sslRequired) t between = some u →
      u.calls[s.calls.length]? = some call → call.phase = .all pinged all →
      ((∀ later v, Kit.run (step sslRequired) u later = some v → v.Sorts s.calls.length →
        ∀ record ∈ s.nodesMap, record.isDone = .pending →
          record.node.supports sslRequired operation → v.Final sslRequired record.node.httpUrl) ↔
        FindsSettled u (.resume s.calls.length)) := by
  refine ⟨fun events h => waitsForPings_of_findsSettled sound_initial recorded_initial h, ?_⟩
  intro before s operation allNodes draws t between u call pinged all hbefore hmarshal hbetween hcall
    hphase
  have hrecorded : Recorded before s := recorded_initial.run hbefore
  have hcalled : Called sslRequired s.getPingedNodes s.calls.length operation u :=
    .run (.new (sound_initial.run hbefore) hrecorded hmarshal) hbetween
  have hrun : Kit.run (step sslRequired) s (.marshalNodes operation allNodes draws :: between)
      = some u := Kit.run_cons_eq_some.mpr ⟨t, hmarshal, hbetween⟩
  constructor
  · intro hfinal call' pinged' all' hcall' hphase' node hnode record hrecord hpending
    rw [hcalled.read_pinged hcall' hphase', nodeTypeStrategy_perm.mem_iff, List.mem_filter] at hnode
    obtain ⟨hfound, hsupports⟩ := hnode
    obtain ⟨old, hold, -, rfl⟩ := mem_getPingedNodes.mp hfound
    obtain ⟨record', hrecord', hgrows⟩ := hrecorded.run_record? hrun (hrecorded.record?_eq hold)
    rw [hrecord] at hrecord'
    cases hrecord'
    -- a ping that is pending now was so when the call started
    have hpending' : old.isDone = .pending := by
      by_contra hdone
      rw [← hgrows.isDone hdone] at hdone
      exact hdone hpending
    obtain ⟨started, later, v, hstarts, -, hlater, hsorts, hsame⟩ := @exists_sorts sslRequired
      u _ _ hcall _ _ hphase
    have hnew : old.node.httpUrl ∉ started.map (·.httpUrl) := by
      intro hmem
      obtain ⟨node, hnode, hurl⟩ := List.mem_map.mp hmem
      have hfresh := hstarts.fresh node hnode
      rw [hurl, has_eq, hrecord] at hfresh
      cases hfresh
    obtain ⟨⟨last, hlast, hdone⟩, -⟩ := hfinal _ v hlater hsorts old hold hpending' hsupports
    rw [hsame _ hnew, hrecord] at hlast
    cases hlast
    exact hdone hpending
  · intro hfinds later v hlater hsorts record hrecord hpending hsupports
    obtain ⟨past, hpast⟩ := hcalled.recorded
    obtain ⟨now', hnow', -⟩ := hrecorded.run_record? hrun (hrecorded.record?_eq hrecord)
    have hread : record.node ∈ u.arrays.read pinged := by
      rw [hcalled.read_pinged hcall hphase, nodeTypeStrategy_perm.mem_iff, List.mem_filter]
      exact ⟨mem_getPingedNodes.mpr ⟨record, hrecord, by simp [hpending], rfl⟩, hsupports⟩
    have hdone := hfinds call pinged all hcall hphase _ hread now' hnow'
    rw [(hpast.run hlater).final_iff]
    exact ⟨now', hpast.over_run hnow' hdone hlater, hdone⟩

/-! ## Two calls for one node -/

section

attribute [local simp] Kit.run_cons step PingState.marshalNodes advance setPhase
  BaseStrategy.marshal NodeTypeStrategy.marshal Heap.build Heap.alloc Heap.read Heap.write Heap.size
  shuffle_keepOrder RouterNode.handles priorityMap has record? updateRecord getPingedNodes
  enqueuePings enqueuePing allSettled pingThreshold pingThresholdInc storageNodeAt

/-- Call 0 waits for the ping of its node. -/
def pingingOneNode : PingState :=
  { now := 0
    arrays := ⟨[[nodeA], [nodeA], [], [], [nodeA]]⟩
    nodesMap := [{ node := nodeA, phase := .fetching 0 }]
    calls := [⟨.storePiece, keepOrder, [nodeA], .settling 4 [nodeA] [nodeA.httpUrl]⟩]
    pings := [nodeA.httpUrl] }

theorem run_pingOneNode : Kit.run (step false) { now := 0 } pingOneNode = some pingingOneNode := by
  simp [pingOneNode, pingingOneNode, nodeA]

/-- Call 1 is made for the same node, and goes on to its wait. -/
def secondCall : List PingEvent :=
  [.marshalNodes .storePiece 0 keepOrder, .resume 1, .resume 1, .resume 1, .resume 1]

/-- Call 1 has nothing to wait for. -/
def twoCalls : PingState :=
  { pingingOneNode with
    arrays := ⟨[[nodeA], [nodeA], [], [], [nodeA], [nodeA], [nodeA], [nodeA], [nodeA]]⟩
    calls := pingingOneNode.calls ++ [⟨.storePiece, keepOrder, [nodeA], .settling 8 [] []⟩] }

theorem run_secondCall : Kit.run (step false) pingingOneNode secondCall = some twoCalls := by
  simp [secondCall, twoCalls, pingingOneNode, nodeA]

/-- The first ping ends before the second call. -/
theorem waits_iff_settled :
    let events := pingOneNode ++ [.fetched nodeA.httpUrl true, .settle nodeA.httpUrl] ++
      secondCall ++ [.resume 1]
    (Kit.run (step false) { now := 0 } events).isSome ∧
      WaitsForPings false { now := 0 } events := by
  refine ⟨?_, (@waits_iff false 0 {}).1 _ ?_⟩
  · rw [List.append_assoc, List.append_assoc, Kit.run_append, run_pingOneNode]
    simp [secondCall, pingingOneNode, nodeA]
  · simp [Kit.EachStep, FindsSettled, Settled, pingOneNode, secondCall, nodeA]

/-- The second call sorts while the ping of the first one is under way. -/
theorem not_waitsForPings : ¬ ∀ events, WaitsForPings false { now := 0 } events := by
  intro h
  obtain ⟨t, ht, hu⟩ := Kit.run_cons_eq_some.mp run_secondCall
  have hfinal := h _ pingOneNode .storePiece 0 keepOrder secondCall.tail [] _ t _ rfl
    run_pingOneNode ht hu ⟨_, _, _, _, rfl, rfl, rfl⟩
  have hrecord : { node := nodeA, phase := .fetching 0 } ∈ pingingOneNode.nodesMap := by
    simp [pingingOneNode]
  obtain ⟨⟨record, hover, hdone⟩, -⟩ := hfinal _ hrecord rfl rfl
  cases hover
  exact hdone rfl

end

end PingState

end CereDdc
