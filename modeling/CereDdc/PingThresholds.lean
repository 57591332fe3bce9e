import CereDdc.InFlightPings
import Mathlib.Data.List.Dedup

/-!
# PingThresholds — how many nodes are pinged

A call pings nodes of its list until ten nodes of the whole map are pinged, and
leaves two for the background. Both batches are cut off the front of the same list,
and the ten are counted over the lists of all calls.
-/

namespace CereDdc

open Kit (Heap Ref)

/-! ## Two batches of one list -/

section

variable {α : Type*} [DecidableEq α]

/-- What is left of a list without those that are among its first `n`. -/
def leftAfter (n : Nat) (urls : List α) : List α := urls.filter (· ∉ urls.take n)

/-- When two that are cut off the same list after `n` are as many new ones as there are left. -/
theorem length_secondBatch (n : Nat) (urls : List α) :
    ((urls.take 2).filter (· ∉ urls.take n)).dedup.length = min 2 (leftAfter n urls).length ↔
      (leftAfter n urls).length = 0 ∨
        (urls.take 2).Nodup ∧ (n = 0 ∨ n = 1 ∧ (leftAfter n urls).length = 1) := by
  match n, urls with
  | 0, [] => simp [leftAfter]
  | 0, [a] => simp [leftAfter]
  | 0, a :: b :: rest =>
    by_cases hab : a = b
    · simp [leftAfter, hab]
    · simp [leftAfter, hab]
  | 1, [] => simp [leftAfter]
  | 1, [a] => simp [leftAfter]
  | 1, a :: b :: rest =>
    by_cases hab : a = b
    · -- the second of the two is the first one again
      have hbatch : ((a :: b :: rest).take 2).filter (· ∉ (a :: b :: rest).take 1) = [] := by
        simp [hab]
      have hnodup : ¬ ((a :: b :: rest).take 2).Nodup := by simp [hab]
      simp only [hbatch, hnodup, List.dedup_nil, List.length_nil, false_and, or_false]
      omega
    · have hbatch : ((a :: b :: rest).take 2).filter (· ∉ (a :: b :: rest).take 1) = [b] := by
        simp [Ne.symm hab]
      have hnodup : ((a :: b :: rest).take 2).Nodup := by simp [hab]
      have hleft : b ∈ leftAfter 1 (a :: b :: rest) := by simp [leftAfter, Ne.symm hab]
      have hpos := List.length_pos_of_mem hleft
      rw [hbatch, List.dedup_eq_self.mpr (List.nodup_singleton b), List.length_singleton]
      simp only [hnodup, true_and]
      omega
  | n + 2, urls =>
    have hbatch : (urls.take 2).filter (· ∉ urls.take (n + 2)) = [] := by
      rw [List.filter_eq_nil_iff]
      intro url hurl
      have hmem := List.take_subset_take_left urls (Nat.le_add_left 2 n) hurl
      simpa using hmem
    simp only [hbatch, List.dedup_nil, List.length_nil]
    omega

end

/-- The nodes of the call that it can use. -/
def MarshalCall.operationNodes (sslRequired : Bool) (call : MarshalCall) : List RouterNode :=
  call.given.filter (·.supports sslRequired call.operation)

namespace PingState

variable {sslRequired : Bool} {s t u v : PingState} {event : PingEvent}
  {events later : List PingEvent} {operation : RouterOperation} {draws : Draws} {r : Ref}
  {call : MarshalCall} {found nodes started : List RouterNode} {i : Nat} {url : Url}
  {pinged all : Ref}

/-! ## The pings that a call waits for -/

instance (s : PingState) (url : Url) : Decidable (s.Over url) :=
  decidable_of_iff ((s.record? url).any (·.isDone ≠ .pending) = true) <| by
    simp [Over, Option.any_eq_true]

/-- The pings that start are those of the URLs without a record. -/
theorem Starts.mem_urls (h : s.Starts nodes started) :
    url ∈ started.map (·.httpUrl) ↔ url ∈ nodes.map (·.httpUrl) ∧ s.has url = false := by
  constructor
  · intro hmem
    obtain ⟨node, hnode, rfl⟩ := List.mem_map.mp hmem
    exact ⟨List.mem_map_of_mem (h.sublist.subset hnode), h.fresh node hnode⟩
  · rintro ⟨hmem, hfresh⟩
    obtain ⟨node, hnode, rfl⟩ := List.mem_map.mp hmem
    have hcovers := h.covers node hnode
    rw [has_withPings, hfresh, Bool.false_or] at hcovers
    simpa using hcovers

theorem mem_toPingSync {node : RouterNode} (h : node ∈ s.toPingSync pinged all) :
    s.has node.httpUrl = false := by
  have hmem := (List.mem_filter.mp (List.mem_of_mem_take h)).2
  simpa using hmem

/-- Of the pings that a call asks for, those that start are the synchronous ones. -/
theorem Called.started_iff (hc : Called sslRequired found i operation s)
    (hcall : s.calls[i]? = some call) (hphase : call.phase = .all pinged all)
    (h : s.Starts (s.arrays.read pinged ++ s.toPingSync pinged all) started) :
    url ∈ started.map (·.httpUrl) ↔ url ∈ (s.toPingSync pinged all).map (·.httpUrl) := by
  rw [h.mem_urls, List.map_append, List.mem_append]
  constructor
  · rintro ⟨hpinged | hsync, hfresh⟩
    · obtain ⟨node, hnode, rfl⟩ := List.mem_map.mp hpinged
      rw [hc.read_pinged hcall hphase, nodeTypeStrategy_perm.mem_iff, List.mem_filter] at hnode
      rw [hc.has node hnode.1] at hfresh
      cases hfresh
    · exact hsync
  · intro hsync
    obtain ⟨node, hnode, rfl⟩ := List.mem_map.mp hsync
    exact ⟨.inr hsync, mem_toPingSync hnode⟩

/-- A call that waits waits for the same pings until it sorts. -/
theorem settling_run {syncPings : List Url} {toPingAsync : List RouterNode}
    (hcall : s.calls[i]? = some call) (hphase : call.phase = .settling all toPingAsync syncPings)
    (h : Kit.run (step sslRequired) s later = some t) :
    t.calls[i]? = some call ∨ ∃ result, t.calls[i]? = some { call with phase := .done result } := by
  refine Kit.run_invariant (P := fun v => v.calls[i]? = some call ∨
    ∃ result, v.calls[i]? = some { call with phase := .done result }) ?_ (.inl hcall) h
  intro v event w hv hstep
  rcases hv with hv | ⟨result, hv⟩
  · rcases step_call_cases hv hstep with hsame | ⟨rfl, s', phase, hadvance, rfl⟩
    · exact .inl hsame
    · have hmoved : s'.calls[i]? = some call := by rw [(advance_movesOn hadvance).calls, hv]
      obtain ⟨-, -, rfl⟩ := (advance_settling sslRequired hphase).mp hadvance
      exact .inr ⟨all, setPhase_calls_self hmoved⟩
  · rcases step_call_cases hv hstep with hsame | ⟨rfl, s', phase, hadvance, rfl⟩
    · exact .inr ⟨result, hsame⟩
    · cases hadvance

/-- The pings that the call waits for are over when it sorts. -/
theorem Sorts.over {syncPings : List Url} {toPingAsync : List RouterNode}
    (hs : Recorded events s) (hcall : s.calls[i]? = some call)
    (hphase : call.phase = .settling all toPingAsync syncPings)
    (h : Kit.run (step sslRequired) s later = some v) (hsorts : v.Sorts i)
    (hurl : url ∈ syncPings) (hhas : s.has url = true) : v.Over url := by
  obtain ⟨call', all', toPingAsync', syncPings', hcall', hphase', hsettled⟩ := hsorts
  obtain ⟨record, hrecord⟩ := Option.isSome_iff_exists.mp (has_eq ▸ hhas)
  obtain ⟨record', hrecord', -⟩ := hs.run_record? h hrecord
  refine ⟨record', hrecord', ?_⟩
  rcases settling_run hcall hphase h with hsame | ⟨result, hdone⟩
  · rw [hcall'] at hsame
    cases hsame
    rw [hphase] at hphase'
    cases hphase'
    exact allSettled_iff.mp hsettled url hurl record' hrecord'
  · rw [hcall'] at hdone
    cases hdone
    cases hphase'

/-! ## The threshold -/

/-- As many nodes of the call as the threshold asks for have a ping that is over. -/
def ThresholdMet (sslRequired : Bool) (s : PingState) (call : MarshalCall) : Prop :=
  min pingThreshold (call.operationNodes sslRequired).length ≤
    (call.operationNodes sslRequired).countP fun node => s.Over node.httpUrl

/-- No call is made. -/
def NoCall : PingEvent → Prop
  | .marshalNodes _ _ _ => False
  | _ => True

theorem Helps.noCall {ok : Url → Bool} (h : Helps ok i event) : NoCall event := by
  cases h <;> trivial

/-- **When the threshold is met**: however a call goes on that nobody comes between, the nodes with
a ping that is over are as many as the threshold asks for when it sorts, exactly if they are so many
together with those that it pings itself; and for these it counts the pinged nodes of every list
there was. -/
theorem thresholdMet_iff {now : Int} {arrays : Heap RouterNode} {before between : List PingEvent}
    (hbefore : Kit.run (step sslRequired) { now, arrays } before = some s)
    (hmarshal : s.step sslRequired (.marshalNodes operation r draws) = some t)
    (hbetween : Kit.run (step sslRequired) t between = some u)
    (hcall : u.calls[s.calls.length]? = some call) (hphase : call.phase = .all pinged all) :
    (∀ later v, (∀ event ∈ later, NoCall event) →
      Kit.run (step sslRequired) u (.resume s.calls.length :: later) = some v →
      v.Sorts s.calls.length → v.ThresholdMet sslRequired call) ↔
    min pingThreshold (call.operationNodes sslRequired).length ≤
      (call.operationNodes sslRequired).countP fun node => u.Over node.httpUrl ∨
        node.httpUrl ∈ (u.toPingSync pinged all).map (·.httpUrl) := by
  have hcalled : Called sslRequired s.getPingedNodes s.calls.length operation u :=
    .run (.new (sound_initial.run hbefore) (recorded_initial.run hbefore) hmarshal) hbetween
  obtain ⟨past, hpast⟩ := hcalled.recorded
  -- what is over when the call sorts, whatever happens
  have hover : ∀ later v, Kit.run (step sslRequired) u (.resume s.calls.length :: later) = some v →
      v.Sorts s.calls.length → ∀ url, u.Over url ∨
        url ∈ (u.toPingSync pinged all).map (·.httpUrl) → v.Over url := by
    intro later v hrun hsorts url hurl
    rcases hurl with ⟨record, hrecord, hdone⟩ | hsync
    · exact ⟨record, hpast.over_run hrecord hdone hrun, hdone⟩
    · obtain ⟨started, hstarts, hstep⟩ := @step_startsPings sslRequired _ _ _ hcall _ _ hphase
      obtain ⟨w, hstep', hlater⟩ := Kit.run_cons_eq_some.mp hrun
      rw [hstep] at hstep'
      cases hstep'
      have hmem := (hcalled.started_iff hcall hphase hstarts).mpr hsync
      refine Sorts.over (hpast.step hstep) (setPhase_calls_self hcall) rfl hlater hsorts hmem ?_
      change (u.withPings started).has url = true
      obtain ⟨node, hnode, rfl⟩ := List.mem_map.mp hmem
      rw [has_withPings, Bool.or_eq_true]
      exact .inr (List.any_eq_true.mpr ⟨node, hnode, by simp⟩)
  constructor
  · intro hmet
    obtain ⟨started, later, v, hstarts, hhelps, hrun, hsorts, hothers⟩ :=
      @exists_sorts sslRequired _ _ _ hcall _ _ hphase
    refine Nat.le_trans (hmet later v (fun event hevent => (hhelps event hevent).noCall) hrun hsorts)
      (List.countP_mono_left fun node _ hnode => ?_)
    simp only [decide_eq_true_eq] at hnode ⊢
    by_cases hmem : node.httpUrl ∈ started.map (·.httpUrl)
    · exact .inr ((hcalled.started_iff hcall hphase hstarts).mp hmem)
    · unfold Over at hnode
      rw [hothers _ hmem] at hnode
      exact .inl hnode
  · intro hcount later v _ hrun hsorts
    refine Nat.le_trans hcount (List.countP_mono_left fun node _ hnode => ?_)
    simp only [decide_eq_true_eq] at hnode ⊢
    exact hover later v hrun hsorts _ hnode

/-! ## The background -/

/-- A call that waits goes on to the end once its pings are settled. -/
theorem step_sort_iff {syncPings : List Url} {toPingAsync : List RouterNode}
    (hcall : s.calls[i]? = some call) (hphase : call.phase = .settling all toPingAsync syncPings) :
    s.step sslRequired (.resume i) = some t ↔ s.allSettled syncPings = true ∧
      t = PingState.setPhase { s with
        timers := s.timers ++ [⟨s.now + pingBackgroundDelay, toPingAsync⟩]
        arrays := s.arrays.write all ((s.arrays.read all).mergeSort (latencyLe s.latency)) } i
        (.done all) := by
  constructor
  · intro h
    simp only [PingState.step, hcall, Option.bind_eq_bind, Option.bind_some,
      Option.bind_eq_some_iff, Option.pure_def, Option.some.injEq] at h
    obtain ⟨⟨s', phase⟩, hadvance, rfl⟩ := h
    obtain ⟨hsettled, rfl, rfl⟩ := (advance_settling sslRequired hphase).mp hadvance
    exact ⟨hsettled, rfl⟩
  · rintro ⟨hsettled, rfl⟩
    have hadvance := (advance_settling sslRequired hphase).mpr ⟨hsettled, rfl, rfl⟩
    simp [PingState.step, hcall, hadvance]

theorem step_done {result : Kit.Ref} (hcall : s.calls[i]? = some call)
    (hphase : call.phase = .done result) : s.step sslRequired (.resume i) = none := by
  simp [PingState.step, hcall, advance_done sslRequired hphase]

/-- The call has started its pings. -/
def HasStarted (s : PingState) (i : Nat) : Prop :=
  ∃ call, s.calls[i]? = some call ∧
    ((∃ all toPingAsync syncPings, call.phase = .settling all toPingAsync syncPings) ∨
      ∃ result, call.phase = .done result)

theorem HasStarted.step (hs : s.HasStarted i) (h : s.step sslRequired event = some t) :
    t.HasStarted i := by
  obtain ⟨call, hcall, hphase⟩ := hs
  rcases step_call_cases hcall h with hsame | ⟨rfl, s', phase, hadvance, rfl⟩
  · exact ⟨call, hsame, hphase⟩
  · have hmoved : s'.calls[i]? = some call := by rw [(advance_movesOn hadvance).calls, hcall]
    refine ⟨_, setPhase_calls_self hmoved, .inr ?_⟩
    rcases hphase with ⟨all, toPingAsync, syncPings, hphase⟩ | ⟨result, hphase⟩
    · obtain ⟨-, -, rfl⟩ := (advance_settling sslRequired hphase).mp hadvance
      exact ⟨all, rfl⟩
    · rw [advance_done sslRequired hphase] at hadvance
      cases hadvance

/-- Nothing but call `i` and the pings goes on. -/
def Quiet (i : Nat) : PingEvent → Prop
  | .marshalNodes _ _ _ => False
  | .resume j => j = i
  | .timeout _ => False
  | _ => True

/-- No ping starts, and the timers stay. -/
structure StaysPinged (s t : PingState) : Prop where
  pings : t.pings = s.pings
  has : ∀ url, t.has url = s.has url
  timers : s.timers <+: t.timers

theorem StaysPinged.refl (s : PingState) : s.StaysPinged s := ⟨rfl, fun _ => rfl, List.prefix_rfl⟩

theorem StaysPinged.trans (h : s.StaysPinged t) (h' : t.StaysPinged u) : s.StaysPinged u where
  pings := h'.pings.trans h.pings
  has := fun url => (h'.has url).trans (h.has url)
  timers := h.timers.trans h'.timers

theorem HasStarted.staysPinged (hs : s.HasStarted i) (hquiet : Quiet i event)
    (h : s.step sslRequired event = some t) : s.StaysPinged t := by
  cases event with
  | array nodes =>
    cases h
    exact ⟨rfl, fun _ => rfl, List.prefix_rfl⟩
  | marshalNodes operation allNodes draws => cases hquiet
  | resume j =>
    cases hquiet
    obtain ⟨call, hcall, hphase⟩ := hs
    rcases hphase with ⟨all, toPingAsync, syncPings, hphase⟩ | ⟨result, hphase⟩
    · obtain ⟨-, rfl⟩ := (step_sort_iff hcall hphase).mp h
      exact ⟨rfl, fun _ => rfl, List.prefix_append _ _⟩
    · rw [step_done hcall hphase] at h
      cases h
  | fetched url ok =>
    cases step_records h with
    | started _ _ _ hevent => exact absurd rfl (hevent url ok)
    | fetched _ _ => exact ⟨rfl, fun _ => has_updateRecord fetchEnds_node, List.prefix_rfl⟩
  | settle url =>
    simp only [PingState.step, Option.bind_eq_bind, Option.bind_eq_some_iff] at h
    obtain ⟨record, -, h⟩ := h
    split at h
    · cases h
      exact ⟨rfl, fun _ => has_updateRecord fun _ => rfl, List.prefix_rfl⟩
    · cases h
  | timeout j => cases hquiet
  | tick milliseconds =>
    cases h
    exact ⟨rfl, fun _ => rfl, List.prefix_rfl⟩

theorem HasStarted.run (hs : s.HasStarted i) (hquiet : ∀ event ∈ later, Quiet i event)
    (h : Kit.run (PingState.step sslRequired) s later = some t) : t.HasStarted i ∧ s.StaysPinged t := by
  refine Kit.run_invariant_of (P := fun v => v.HasStarted i ∧ s.StaysPinged v) ?_ hquiet
    ⟨hs, .refl s⟩ h
  intro v event w hevent hv hstep
  exact ⟨hv.1.step hstep, hv.2.trans (hv.1.staysPinged hevent hstep)⟩

/-- How many pings start: as many as there are URLs without a record. -/
theorem Starts.length_eq (h : s.Starts nodes started) :
    started.length = ((nodes.map (·.httpUrl)).filter fun url => !s.has url).dedup.length := by
  have hperm : (started.map (·.httpUrl)).Perm
      ((nodes.map (·.httpUrl)).filter fun url => !s.has url).dedup := by
    rw [List.perm_ext_iff_of_nodup h.nodup (List.nodup_dedup _)]
    intro url
    rw [h.mem_urls, List.mem_dedup, List.mem_filter, Bool.not_eq_true']
  rw [← hperm.length_eq, List.length_map]

/-- The nodes that are not pinged once the call has started its pings. -/
theorem Called.notPinged_after (hc : Called sslRequired found i operation s)
    (hcall : s.calls[i]? = some call) (hphase : call.phase = .all pinged all)
    (h : s.Starts (s.arrays.read pinged ++ s.toPingSync pinged all) started)
    (hnodes : nodes.Sublist (s.notPinged all)) :
    (nodes.map (·.httpUrl)).filter (fun url => !(s.withPings started).has url) =
      (nodes.map (·.httpUrl)).filter
        (· ∉ ((s.notPinged all).map (·.httpUrl)).take
          (pingThreshold - (s.arrays.read pinged).length)) := by
  refine List.filter_congr fun url hurl => ?_
  have hfresh : s.has url = false := by
    obtain ⟨node, hnode, rfl⟩ := List.mem_map.mp hurl
    simpa using (List.mem_filter.mp (hnodes.subset hnode)).2
  have hmem := @Called.started_iff _ _ _ _ _ _ _ url _ _ hc hcall hphase h
  rw [toPingSync, List.map_take] at hmem
  rw [has_withPings, hfresh, Bool.false_or]
  simp only [← hmem]
  rw [Bool.eq_iff_iff]
  simp

/-- The pings that a timer starts. -/
theorem step_timeout {timer : PingTimer} (htimer : s.timers[i]? = some timer)
    (h : s.step sslRequired (.timeout i) = some t) :
    ∃ started, s.Starts timer.toPingAsync started ∧
      t.pings = s.pings ++ started.map (·.httpUrl) := by
  simp only [PingState.step, htimer, Option.bind_eq_bind, Option.bind_some] at h
  split at h
  · obtain ⟨started, hstarts, henqueue⟩ :=
      enqueuePings_starts { s with timers := s.timers.eraseIdx i } timer.toPingAsync
    rw [henqueue] at h
    cases h
    exact ⟨started, ⟨hstarts.sublist, hstarts.nodup, hstarts.fresh, hstarts.covers⟩, rfl⟩
  · cases h

/-- Call `i` starts its pings in `u` and sorts in `x`, and its timer fires in `y₀`; nothing else
goes on. -/
structure GoesToTimer (sslRequired : Bool) (i : Nat) (u u₁ x x' y₀ y : PingState) : Prop where
  starts : u.step sslRequired (.resume i) = some u₁
  waits : Kit.ReachesBy (step sslRequired) (Quiet i) u₁ x
  sorts : x.step sslRequired (.resume i) = some x'
  passes : Kit.ReachesBy (step sslRequired) (Quiet i) x' y₀
  fires : y₀.step sslRequired (.timeout x.timers.length) = some y

/-- In between the pings of the call itself start, and those of its timer. -/
theorem GoesToTimer.starts_more {u₁ x x' y₀ y : PingState} (hcall : u.calls[i]? = some call)
    (hphase : call.phase = .all pinged all) (h : GoesToTimer sslRequired i u u₁ x x' y₀ y) :
    ∃ started more, u.Starts (u.arrays.read pinged ++ u.toPingSync pinged all) started ∧
      u₁ = (u.withPings started).setPhase i (.settling all
        ((u.notPinged all).take pingThresholdInc) (started.map (·.httpUrl))) ∧
      u₁.StaysPinged y₀ ∧ y₀.Starts ((u.notPinged all).take pingThresholdInc) more ∧
      y.pings = y₀.pings ++ more.map (·.httpUrl) := by
  obtain ⟨hstart, ⟨waiting, hquiet, hwaiting⟩, hsort, ⟨rest, hquiet', hrest⟩, hfire⟩ := h
  obtain ⟨started, hstarts, hstep⟩ := @step_startsPings sslRequired _ _ _ hcall _ _ hphase
  rw [hstart] at hstep
  cases hstep
  have hcall₁ := @setPhase_calls_self (u.withPings started) _ (.settling all
    ((u.notPinged all).take pingThresholdInc) (started.map (·.httpUrl))) _ hcall
  have hstarted : HasStarted _ i := ⟨_, hcall₁, .inl ⟨_, _, _, rfl⟩⟩
  -- from here on the timer is all that is left to start pings
  obtain ⟨hx, hkeep⟩ := hstarted.run hquiet hwaiting
  have hself : Quiet i (.resume i) := rfl
  have hkeep' := hx.staysPinged hself hsort
  obtain ⟨-, hkeep''⟩ := (hx.step hsort).run hquiet' hrest
  have htimers : x'.timers = x.timers ++
      [⟨x.now + pingBackgroundDelay, (u.notPinged all).take pingThresholdInc⟩] := by
    rcases settling_run hcall₁ rfl hwaiting with hwaits | ⟨result, hdone⟩
    · obtain ⟨-, rfl⟩ := (step_sort_iff hwaits rfl).mp hsort
      rfl
    · rw [step_done hdone rfl] at hsort
      cases hsort
  have htimer : y₀.timers[x.timers.length]? =
      some ⟨x.now + pingBackgroundDelay, (u.notPinged all).take pingThresholdInc⟩ := by
    obtain ⟨more, hmore⟩ := hkeep''.timers
    rw [← hmore, htimers]
    simp
  obtain ⟨more, hmore, hpings⟩ := step_timeout htimer hfire
  exact ⟨started, more, hstarts, rfl, (hkeep.trans hkeep').trans hkeep'', hmore, hpings⟩

/-- How many nodes are left once the call has started its pings. -/
theorem Called.length_notPinged {phase : MarshalPhase}
    (hc : Called sslRequired found i operation s) (hcall : s.calls[i]? = some call)
    (hphase : call.phase = .all pinged all)
    (h : s.Starts (s.arrays.read pinged ++ s.toPingSync pinged all) started) :
    (((s.withPings started).setPhase i phase).notPinged all).length =
      (leftAfter (pingThreshold - (s.arrays.read pinged).length)
        ((s.notPinged all).map (·.httpUrl))).length := by
  rw [leftAfter, ← hc.notPinged_after hcall hphase h (List.Sublist.refl _), List.filter_map,
    List.length_map, notPinged, notPinged, List.filter_filter]
  refine congrArg List.length (List.filter_congr fun node _ => ?_)
  change (!(s.withPings started).has node.httpUrl) = _
  simp only [Function.comp_apply, has_withPings]
  cases s.has node.httpUrl <;> simp

/-- **What a call starts in the background**: when nothing else goes on, the timer of a call starts
pings of two more of its nodes, or of all that are left, only where none are left, or none was
pinged at once, or just one of two. -/
theorem backgroundPings_iff {now : Int} {arrays : Heap RouterNode}
    {before between : List PingEvent} {u₁ x x' y₀ y : PingState}
    (hbefore : Kit.run (step sslRequired) { now, arrays } before = some s)
    (hmarshal : s.step sslRequired (.marshalNodes operation r draws) = some t)
    (hbetween : Kit.run (step sslRequired) t between = some u)
    (hcall : u.calls[s.calls.length]? = some call) (hphase : call.phase = .all pinged all)
    (h : GoesToTimer sslRequired s.calls.length u u₁ x x' y₀ y) :
    (∃ more : List RouterNode, (∀ node ∈ more, node ∈ u₁.notPinged all) ∧
      y.pings = y₀.pings ++ more.map (·.httpUrl) ∧
      more.length = min pingThresholdInc (u₁.notPinged all).length) ↔
    (u₁.notPinged all).length = 0 ∨
      (((u.notPinged all).take pingThresholdInc).map (·.httpUrl)).Nodup ∧
        (pingThreshold - (u.arrays.read pinged).length = 0 ∨
          pingThreshold - (u.arrays.read pinged).length = 1 ∧ (u₁.notPinged all).length = 1) := by
  have hcalled : Called sslRequired s.getPingedNodes s.calls.length operation u :=
    .run (.new (sound_initial.run hbefore) (recorded_initial.run hbefore) hmarshal) hbetween
  obtain ⟨started, more, hstarts, rfl, hkeep, hmore, hpings⟩ := h.starts_more hcall hphase
  have hhas : (fun url => !y₀.has url) = fun url => !(u.withPings started).has url :=
    funext fun url => congrArg (!·) (hkeep.has url)
  have hcount : more.length = ((((u.notPinged all).map (·.httpUrl)).take 2).filter
      (· ∉ ((u.notPinged all).map (·.httpUrl)).take
        (pingThreshold - (u.arrays.read pinged).length))).dedup.length := by
    rw [hmore.length_eq, hhas, hcalled.notPinged_after hcall hphase hstarts
      (List.take_sublist pingThresholdInc (u.notPinged all)), List.map_take]
    rfl
  rw [hcalled.length_notPinged hcall hphase hstarts, List.map_take]
  refine Iff.trans ?_ (length_secondBatch _ _)
  rw [← hcount]
  constructor
  · rintro ⟨more', -, hpings', hlength⟩
    rw [hpings, List.append_cancel_left_eq] at hpings'
    have hsameLength := congrArg List.length hpings'
    rw [List.length_map, List.length_map] at hsameLength
    rw [hsameLength]
    exact hlength
  · intro hlength
    refine ⟨more, fun node hnode => ?_, hpings, hlength⟩
    have hmem := List.mem_filter.mp (List.mem_of_mem_take (hmore.sublist.subset hnode))
    refine List.mem_filter.mpr ⟨hmem.1, ?_⟩
    rw [← hkeep.has, hmore.fresh node hnode]
    rfl

/-! ## Two clusters -/

section

attribute [local simp] Kit.run_cons step PingState.marshalNodes advance setPhase
  BaseStrategy.marshal NodeTypeStrategy.marshal Heap.build Heap.alloc Heap.read Heap.write Heap.size
  shuffle_keepOrder

/-- The nodes of one cluster. -/
def elevenNodes : List RouterNode :=
  [nodeA, storageNodeAt "node-b" (by decide), storageNodeAt "node-c" (by decide),
    storageNodeAt "node-d" (by decide), storageNodeAt "node-e" (by decide),
    storageNodeAt "node-f" (by decide), storageNodeAt "node-g" (by decide),
    storageNodeAt "node-h" (by decide), storageNodeAt "node-i" (by decide),
    storageNodeAt "node-j" (by decide), storageNodeAt "node-k" (by decide)]

/-- The node of another one. -/
def otherNodes : List RouterNode := [storageNodeAt "other" (by decide)]

/-- No node of these lists comes before another. -/
theorem mergeSort_elevenNodes :
    elevenNodes.mergeSort (priorityLe .storePiece) = elevenNodes :=
  List.mergeSort_of_pairwise (by decide)

/-- Call 0 gets the eleven nodes, and is about to start its pings. -/
def aboutToPing : PingState :=
  { now := 0
    arrays := ⟨[elevenNodes, otherNodes, elevenNodes, [], [], elevenNodes]⟩
    calls := [⟨.storePiece, keepOrder, elevenNodes, .all 4 5⟩] }

theorem run_toPings : Kit.run (step false) { now := 0, arrays := ⟨[elevenNodes, otherNodes]⟩ }
    [.marshalNodes .storePiece 0 keepOrder, .resume 0, .resume 0, .resume 0] =
      some aboutToPing := by
  have hhandles : elevenNodes.filter (·.handles .storePiece) = elevenNodes := by decide
  simp [aboutToPing, getPingedNodes, hhandles, mergeSort_elevenNodes]

/-- Ten pings have come back at once. -/
def tenPinged (phase : MarshalPhase) : PingState :=
  { now := 0
    arrays := ⟨[elevenNodes, otherNodes, elevenNodes, [], [], elevenNodes]⟩
    nodesMap := (elevenNodes.take 10).map fun node => ⟨node, .resolved, some 0, .fetched true⟩
    calls := [⟨.storePiece, keepOrder, elevenNodes, phase⟩]
    pings := (elevenNodes.take 10).map (·.httpUrl) }

def pingsEnd (nodes : List RouterNode) : List PingEvent :=
  nodes.flatMap fun node => [.fetched node.httpUrl true, .settle node.httpUrl]

theorem mem_pingsEnd (h : event ∈ pingsEnd nodes) :
    (∃ url, event = .fetched url true) ∨ ∃ url, event = .settle url := by
  obtain ⟨node, -, hnode⟩ := List.mem_flatMap.mp h
  simp only [List.mem_cons, List.not_mem_nil, or_false] at hnode
  exact hnode.imp (fun heq => ⟨_, heq⟩) fun heq => ⟨_, heq⟩

/-- The wait of call 0. -/
def firstWait : MarshalPhase :=
  .settling 5 (elevenNodes.take 2) ((elevenNodes.take 10).map (·.httpUrl))

theorem run_pingsEnd :
    Kit.run (step false) aboutToPing (.resume 0 :: pingsEnd (elevenNodes.take 10)) =
      some (tenPinged firstWait) := rfl

theorem mergeSort_latency {phase : MarshalPhase} :
    elevenNodes.mergeSort (latencyLe (tenPinged phase).latency) = elevenNodes := by
  have hsame : (tenPinged phase).latency = (tenPinged (.done 5)).latency := rfl
  rw [hsame]
  exact List.mergeSort_of_pairwise (by decide)

/-- Call 0 has sorted. -/
def firstDone : PingState :=
  { tenPinged (.done 5) with timers := [⟨100, elevenNodes.take 2⟩] }

theorem step_firstDone : (tenPinged firstWait).step false (.resume 0) = some firstDone := by
  have hread : ∀ phase, (tenPinged phase).arrays.read 5 = elevenNodes := fun _ => rfl
  refine (step_sort_iff rfl rfl).mpr ⟨by decide, ?_⟩
  rw [hread, mergeSort_latency]
  rfl

/-- Call 1 gets the node of the other cluster. -/
def otherCall (phase : MarshalPhase) : PingState :=
  { firstDone with
    arrays := ⟨firstDone.arrays.cells ++
      [otherNodes, elevenNodes.take 10, elevenNodes.take 10, otherNodes]⟩
    calls := firstDone.calls ++ [⟨.storePiece, keepOrder, otherNodes, phase⟩] }

theorem run_otherCall : Kit.run (step false) firstDone
    [.marshalNodes .storePiece 1 keepOrder, .resume 1, .resume 1, .resume 1] =
      some (otherCall (.all 8 9)) := by
  have hpinged : firstDone.getPingedNodes = elevenNodes.take 10 := by decide
  have harrays : firstDone.arrays =
      ⟨[elevenNodes, otherNodes, elevenNodes, [], [], elevenNodes]⟩ := rfl
  have hcalls : firstDone.calls = [⟨.storePiece, keepOrder, elevenNodes, .done 5⟩] := rfl
  have hhandles : (elevenNodes.take 10).filter (·.handles .storePiece) = elevenNodes.take 10 := by
    decide
  have hsorted : (elevenNodes.take 10).mergeSort (priorityLe .storePiece) = elevenNodes.take 10 :=
    List.mergeSort_of_pairwise (by decide)
  have hhandles' : otherNodes.filter (·.handles .storePiece) = otherNodes := by decide
  have hsorted' : otherNodes.mergeSort (priorityLe .storePiece) = otherNodes :=
    List.mergeSort_of_pairwise (by decide)
  simp [otherCall, hpinged, harrays, hcalls, hhandles, hsorted, hhandles', hsorted']

/-- Call 0 from its start to its end. -/
def firstRun : List PingEvent :=
  [.marshalNodes .storePiece 0 keepOrder, .resume 0, .resume 0, .resume 0] ++
    (.resume 0 :: pingsEnd (elevenNodes.take 10) ++ [.resume 0])

theorem run_firstRun :
    Kit.run (step false) { now := 0, arrays := ⟨[elevenNodes, otherNodes]⟩ } firstRun =
      some firstDone := by
  rw [firstRun, Kit.run_append, run_toPings, Option.bind_some, Kit.run_append, run_pingsEnd,
    Option.bind_some, Kit.run_singleton]
  exact step_firstDone

/-- The first call has ten of its nodes pinged. -/
theorem thresholdMet_first : (tenPinged firstWait).Sorts 0 ∧
    (tenPinged firstWait).ThresholdMet false ⟨.storePiece, keepOrder, elevenNodes, .all 4 5⟩ := by
  obtain ⟨t, hmarshal, hbetween⟩ := Kit.run_cons_eq_some.mp run_toPings
  have hsorts : (tenPinged firstWait).Sorts 0 := ⟨_, _, _, _, rfl, rfl, by decide⟩
  refine ⟨hsorts, (thresholdMet_iff Kit.run_nil hmarshal hbetween rfl rfl).mpr (by decide)
    (pingsEnd (elevenNodes.take 10)) _ (fun event hevent => ?_) run_pingsEnd hsorts⟩
  rcases mem_pingsEnd hevent with ⟨url, rfl⟩ | ⟨url, rfl⟩ <;> trivial

/-- Ten pinged nodes of one cluster are enough for an operation on the other one. -/
theorem not_thresholdMet : ¬ ∀ before s operation r draws t between u call,
    Kit.run (step false) { now := 0, arrays := ⟨[elevenNodes, otherNodes]⟩ } before = some s →
    (∀ call ∈ s.calls, ∃ result, call.phase = .done result) →
    s.step false (.marshalNodes operation r draws) = some t →
    (∀ event ∈ between, NoCall event) → Kit.run (step false) t between = some u →
    u.Sorts s.calls.length → u.calls[s.calls.length]? = some call →
    u.ThresholdMet false call := by
  intro h
  obtain ⟨t, hmarshal, hbetween⟩ := Kit.run_cons_eq_some.mp run_otherCall
  have hstart : Kit.run (step false) t ([.resume 1, .resume 1, .resume 1] ++ [.resume 1]) =
      some (otherCall (.settling 9 otherNodes [])) := by
    rw [Kit.run_append, hbetween]
    rfl
  have hmet := h _ _ _ _ _ t _ _ _ run_firstRun (by simp [firstDone, tenPinged]) hmarshal
    (by simp [NoCall]) hstart ⟨_, _, _, _, rfl, rfl, rfl⟩ rfl
  revert hmet
  unfold ThresholdMet
  decide

/-- The second call starts the one ping that is left to it. -/
theorem backgroundPings_other : ∃ u₁ x x' y₀ y,
    GoesToTimer false 1 (otherCall (.all 8 9)) u₁ x x' y₀ y ∧
    ∃ more : List RouterNode, (∀ node ∈ more, node ∈ u₁.notPinged 9) ∧
      y.pings = y₀.pings ++ more.map (·.httpUrl) ∧
      more.length = min pingThresholdInc (u₁.notPinged 9).length := by
  obtain ⟨t, hmarshal, hbetween⟩ := Kit.run_cons_eq_some.mp run_otherCall
  have hsorts := (@step_sort_iff false (otherCall (.settling 9 otherNodes [])) _ _ 1 9 _ _ rfl
    rfl).mpr ⟨rfl, rfl⟩
  have htick : Quiet 1 (.tick 100) := trivial
  have hgoes : GoesToTimer false 1 (otherCall (.all 8 9)) _ _ _ _ _ :=
    ⟨rfl, .refl _, hsorts, .single htick rfl, rfl⟩
  exact ⟨_, _, _, _, _, hgoes,
    (backgroundPings_iff run_firstRun hmarshal hbetween rfl rfl hgoes).mpr (by decide)⟩

/-- The first call leaves one node, and none is pinged for it in the background. -/
theorem not_backgroundPings : ¬ ∀ before s operation r draws t between u call pinged all
    u₁ x x' y₀ y,
    Kit.run (step false) { now := 0, arrays := ⟨[elevenNodes, otherNodes]⟩ } before = some s →
    (∀ call ∈ s.calls, ∃ result, call.phase = .done result) →
    s.step false (.marshalNodes operation r draws) = some t →
    (∀ event ∈ between, Quiet s.calls.length event) → Kit.run (step false) t between = some u →
    u.calls[s.calls.length]? = some call → call.phase = .all pinged all →
    GoesToTimer false s.calls.length u u₁ x x' y₀ y →
    ∃ more : List RouterNode, (∀ node ∈ more, node ∈ u₁.notPinged all) ∧
      y.pings = y₀.pings ++ more.map (·.httpUrl) ∧
      more.length = min pingThresholdInc (u₁.notPinged all).length := by
  intro h
  obtain ⟨t, hmarshal, hbetween⟩ := Kit.run_cons_eq_some.mp run_toPings
  obtain ⟨u₁, hstart, hends⟩ := Kit.run_cons_eq_some.mp run_pingsEnd
  have hquiet : ∀ event ∈ pingsEnd (elevenNodes.take 10), Quiet 0 event := by
    intro event hevent
    rcases mem_pingsEnd hevent with ⟨url, rfl⟩ | ⟨url, rfl⟩ <;> trivial
  have htick : Quiet 0 (.tick 100) := trivial
  have hgoes : GoesToTimer false 0 aboutToPing u₁ _ _ _ _ :=
    ⟨hstart, ⟨_, hquiet, hends⟩, step_firstDone, .single htick rfl, rfl⟩
  obtain ⟨more, -, hpings, hlength⟩ := h [] _ _ _ _ t _ _ _ 4 5 u₁ _ _ _ _ Kit.run_nil (by simp)
    hmarshal (by simp [Quiet]) hbetween rfl rfl hgoes
  obtain rfl := Option.some.inj hstart
  have hpings' : firstDone.pings = firstDone.pings ++ more.map (·.httpUrl) := hpings
  have hnone : more = [] := by simpa using hpings'
  rw [hnone] at hlength
  revert hlength
  decide

end

end PingState

end CereDdc
