import CereDdc.MarshalledNodes
import Mathlib.Data.List.Nodup

/-!
# PingRecords — the records of a `PingStrategy`

Pings that a call waits for, those that go on in the background and those that a
later call finds under way all go through `enqueuePing`. It makes a record only
where there is none, and a record changes twice: when `fetch` ends, and when its
promise is settled.
-/

namespace CereDdc

namespace PingState

variable {sslRequired : Bool} {s t u : PingState} {event : PingEvent} {events : List PingEvent}
  {node : RouterNode} {nodes started : List RouterNode} {url : Url} {record : PingRecord}

/-! ## New records -/

theorem has_eq : s.has url = (s.record? url).isSome := by
  rw [Bool.eq_iff_iff, has, record?, List.any_eq_true, List.find?_isSome]

/-- The record of a ping that starts now. -/
def newRecord (s : PingState) (node : RouterNode) : PingRecord :=
  { node, phase := .fetching s.now }

/-- The state once pings of these nodes have started. -/
def withPings (s : PingState) (started : List RouterNode) : PingState :=
  { s with
    nodesMap := s.nodesMap ++ started.map s.newRecord
    pings := s.pings ++ started.map (·.httpUrl) }

@[simp] theorem withPings_nodesMap :
    (s.withPings started).nodesMap = s.nodesMap ++ started.map s.newRecord := rfl

@[simp] theorem withPings_pings :
    (s.withPings started).pings = s.pings ++ started.map (·.httpUrl) := rfl

@[simp] theorem newRecord_node : (s.newRecord node).node = node := rfl

@[simp] theorem withPings_nil : s.withPings [] = s := by simp [withPings]

theorem withPings_cons : s.withPings (node :: nodes) = (s.withPings [node]).withPings nodes := by
  simp [withPings, newRecord]

/-- A node with a record is what it was, and one with a ping that has just started has a new
record. -/
theorem record?_withPings :
    (s.withPings started).record? url =
      (s.record? url).or ((started.find? (·.httpUrl = url)).map s.newRecord) := by
  unfold record? withPings
  rw [List.find?_append, List.find?_map]
  rfl

theorem has_withPings :
    (s.withPings started).has url = (s.has url || started.any (·.httpUrl = url)) := by
  unfold has withPings
  rw [List.any_append, List.any_map]
  rfl

/-- The nodes of the list that `enqueuePing` starts pings of: those without a record, the first of
several with the same URL. -/
structure Starts (s : PingState) (nodes started : List RouterNode) : Prop where
  sublist : started.Sublist nodes
  nodup : (started.map (·.httpUrl)).Nodup
  fresh : ∀ node ∈ started, s.has node.httpUrl = false
  covers : ∀ node ∈ nodes, (s.withPings started).has node.httpUrl = true

/-- What `enqueuePing` does for a list of nodes. -/
theorem enqueuePings_starts (s : PingState) (nodes : List RouterNode) :
    ∃ started, s.Starts nodes started ∧
      s.enqueuePings nodes = (s.withPings started, started.map (·.httpUrl)) := by
  induction nodes generalizing s with
  | nil => exact ⟨[], ⟨.slnil, by simp, by simp, by simp⟩, by simp [enqueuePings]⟩
  | cons node nodes ih =>
    cases hhas : s.has node.httpUrl with
    | true =>
      have hfirst : s.enqueuePing node = (s, none) := by simp [enqueuePing, hhas]
      obtain ⟨started, hstarts, henqueue⟩ := ih s
      refine ⟨started, ⟨hstarts.sublist.cons node, hstarts.nodup, hstarts.fresh, ?_⟩, ?_⟩
      · intro other hother
        rcases List.mem_cons.mp hother with rfl | hmem
        · rw [has_withPings, hhas]
          rfl
        · exact hstarts.covers other hmem
      · simp [enqueuePings, hfirst, henqueue]
    | false =>
      have hfirst : s.enqueuePing node = (s.withPings [node], some node.httpUrl) := by
        simp [enqueuePing, hhas, withPings, newRecord]
      obtain ⟨started, hstarts, henqueue⟩ := ih (s.withPings [node])
      have hnew : ∀ other ∈ started, s.has other.httpUrl = false ∧ node.httpUrl ≠ other.httpUrl := by
        intro other hother
        have hfresh := hstarts.fresh other hother
        simpa [has_withPings] using hfresh
      refine ⟨node :: started, ⟨hstarts.sublist.cons_cons node, ?_, ?_, ?_⟩, ?_⟩
      · rw [List.map_cons, List.nodup_cons]
        refine ⟨fun hmem => ?_, hstarts.nodup⟩
        obtain ⟨other, hother, heq⟩ := List.mem_map.mp hmem
        exact (hnew other hother).2 heq.symm
      · intro other hother
        rcases List.mem_cons.mp hother with rfl | hmem
        · exact hhas
        · exact (hnew other hmem).1
      · intro other hother
        rw [withPings_cons]
        rcases List.mem_cons.mp hother with rfl | hmem
        · simp [has_withPings]
        · exact hstarts.covers other hmem
      · rw [withPings_cons]
        simp [enqueuePings, hfirst, henqueue]

/-! ## What an event does to the records -/

/-- `fetch` ends for a record with `latency`. -/
def fetchEnds (s : PingState) (ok : Bool) (start : Int) (latency : Option Int)
    (record : PingRecord) : PingRecord :=
  { record with phase := .fetched ok, latency := if ok then some (s.now - start) else latency }

/-- The promise of a record is settled. -/
def promiseSettles (ok : Bool) (record : PingRecord) : PingRecord :=
  { record with isDone := if ok then .resolved else .rejected }

theorem fetchEnds_node {ok : Bool} {start : Int} {latency : Option Int} (record : PingRecord) :
    (s.fetchEnds ok start latency record).node = record.node := rfl

theorem promiseSettles_node {ok : Bool} (record : PingRecord) :
    (promiseSettles ok record).node = record.node := rfl

/-- Pings start, the `fetch` of one ends, or the promise of one is settled. -/
inductive RecordStep (s : PingState) : PingEvent → PingState → Prop
  | started {event : PingEvent} {t : PingState} {nodes started : List RouterNode}
      (hstarts : s.Starts nodes started)
      (hmap : t.nodesMap = (s.withPings started).nodesMap)
      (hpings : t.pings = (s.withPings started).pings)
      (hevent : ∀ url ok, event ≠ .fetched url ok) : RecordStep s event t
  | fetched {url : Url} {ok : Bool} {record : PingRecord} {start : Int}
      (hrecord : s.record? url = some record) (hphase : record.phase = .fetching start) :
      RecordStep s (.fetched url ok) (s.updateRecord url (s.fetchEnds ok start record.latency))
  | settled {url : Url} {ok : Bool} {record : PingRecord}
      (hrecord : s.record? url = some record) (hphase : record.phase = .fetched ok)
      (hpending : record.isDone = .pending) :
      RecordStep s (.settle url) (s.updateRecord url (promiseSettles ok))

/-- Where no record changes no ping starts. -/
theorem RecordStep.quiet (hmap : t.nodesMap = s.nodesMap) (hpings : t.pings = s.pings)
    (hevent : ∀ url ok, event ≠ .fetched url ok) : RecordStep s event t :=
  @RecordStep.started s _ _ [] [] ⟨.slnil, by simp, by simp, by simp⟩
    (by rw [hmap, withPings_nil]) (by rw [hpings, withPings_nil]) hevent

/-- A call that goes on starts pings when it comes to `enqueuePings`, and otherwise none. -/
theorem advance_records {call : MarshalCall} {phase : MarshalPhase}
    (h : s.advance sslRequired call = some (t, phase))
    (hevent : ∀ url ok, event ≠ .fetched url ok) : RecordStep s event t := by
  obtain ⟨operation, draws, given, before⟩ := call
  cases before with
  | basePinged _ _ =>
    cases h
    exact .quiet rfl rfl hevent
  | pinged _ _ =>
    cases h
    exact .quiet rfl rfl hevent
  | baseAll _ _ =>
    cases h
    exact .quiet rfl rfl hevent
  | all pinged allOperationNodes =>
    cases h
    obtain ⟨started, hstarts, henqueue⟩ := enqueuePings_starts s
      (s.arrays.read pinged ++ ((s.arrays.read allOperationNodes).filter
        (!s.has ·.httpUrl)).take (pingThreshold - (s.arrays.read pinged).length))
    refine .started hstarts ?_ ?_ hevent
    · rw [henqueue]
    · rw [henqueue]
  | settling _ _ _ =>
    obtain ⟨-, rfl, -⟩ := (advance_settling sslRequired rfl).mp h
    exact .quiet rfl rfl hevent
  | done _ => cases h

theorem step_records (h : s.step sslRequired event = some t) : RecordStep s event t := by
  cases event with
  | array nodes =>
    cases h
    exact .quiet rfl rfl (by simp)
  | marshalNodes operation allNodes draws =>
    simp only [step, Option.ite_none_right_eq_some, Option.some.injEq] at h
    obtain ⟨-, rfl⟩ := h
    exact .quiet rfl rfl (by simp)
  | resume i =>
    simp only [step, Option.bind_eq_bind, Option.bind_eq_some_iff, Option.pure_def,
      Option.some.injEq] at h
    obtain ⟨call, -, ⟨s', phase⟩, hadvance, rfl⟩ := h
    -- the phase of the call is not part of the records
    have hrecords : RecordStep s (.resume i) s' := advance_records hadvance (by simp)
    cases hrecords with
    | started hstarts hmap hpings hevent => exact .started hstarts hmap hpings hevent
  | fetched url ok =>
    simp only [step, Option.bind_eq_bind, Option.bind_eq_some_iff] at h
    obtain ⟨record, hrecord, h⟩ := h
    split at h
    · rename_i start hphase
      cases h
      exact .fetched hrecord hphase
    · cases h
  | settle url =>
    simp only [step, Option.bind_eq_bind, Option.bind_eq_some_iff] at h
    obtain ⟨record, hrecord, h⟩ := h
    split at h
    · rename_i ok hphase hpending
      cases h
      exact .settled hrecord hphase hpending
    · cases h
  | timeout i =>
    simp only [step, Option.bind_eq_bind, Option.bind_eq_some_iff] at h
    obtain ⟨timer, -, h⟩ := h
    split at h
    · cases h
      obtain ⟨started, hstarts, henqueue⟩ :=
        enqueuePings_starts { s with timers := s.timers.eraseIdx i } timer.toPingAsync
      refine @RecordStep.started s _ _ timer.toPingAsync started
        ⟨hstarts.sublist, hstarts.nodup, hstarts.fresh, hstarts.covers⟩ ?_ ?_ (by simp)
      · rw [henqueue]
        rfl
      · rw [henqueue]
        rfl
    · cases h
  | tick milliseconds =>
    cases h
    exact .quiet rfl rfl (by simp)

/-! ## Every reachable state -/

/-- What the records show of the events so far. -/
structure Recorded (events : List PingEvent) (s : PingState) : Prop where
  pings : s.pings = s.nodesMap.map (·.node.httpUrl)
  nodup : s.pings.Nodup
  fetched : ∀ record ∈ s.nodesMap, ∀ ok,
    record.phase = .fetched ok ↔ .fetched record.node.httpUrl ok ∈ events
  has : ∀ url ok, .fetched url ok ∈ events → s.has url = true
  latency : ∀ record ∈ s.nodesMap, record.latency.isSome ↔ record.phase = .fetched true
  isDone : ∀ record ∈ s.nodesMap, record.isDone ≠ .pending → ∃ ok, record.phase = .fetched ok

theorem record?_mem (h : s.record? url = some record) :
    record ∈ s.nodesMap ∧ record.node.httpUrl = url :=
  ⟨List.mem_of_find?_eq_some h, by simpa using List.find?_some h⟩

theorem Recorded.record?_eq (hs : Recorded events s) (h : record ∈ s.nodesMap) :
    s.record? record.node.httpUrl = some record := by
  have hnodup : (s.nodesMap.map (·.node.httpUrl)).Nodup := hs.pings ▸ hs.nodup
  obtain ⟨other, hother⟩ : ∃ other, s.record? record.node.httpUrl = some other := by
    rw [← Option.isSome_iff_exists, ← has_eq]
    exact List.any_eq_true.mpr ⟨record, h, by simp⟩
  obtain ⟨hmem, hurl⟩ := record?_mem hother
  rw [hother, List.inj_on_of_nodup_map hnodup hmem h hurl]

/-- A URL has one record. -/
theorem Recorded.eq_of_url (hs : Recorded events s) (hrecord : s.record? url = some record)
    {other : PingRecord} (hother : other ∈ s.nodesMap) (hurl : other.node.httpUrl = url) :
    other = record := by
  have hfind := hs.record?_eq hother
  rw [hurl, hrecord] at hfind
  exact (Option.some.inj hfind).symm

theorem recorded_initial {now : Int} {arrays : Kit.Heap RouterNode} :
    Recorded [] { now, arrays } where
  pings := rfl
  nodup := List.nodup_nil
  fetched := by simp
  has := by simp
  latency := by simp
  isDone := by simp

/-- Pings that start find no trace of their URLs in the events. -/
theorem Recorded.pingsStart (hs : Recorded events s) (hstarts : s.Starts nodes started)
    (hmap : t.nodesMap = (s.withPings started).nodesMap)
    (hpings : t.pings = (s.withPings started).pings)
    (hevent : ∀ url ok, event ≠ .fetched url ok) : Recorded (events ++ [event]) t := by
  have hmem : ∀ url ok, .fetched url ok ∈ events ++ [event] ↔ .fetched url ok ∈ events := by
    intro url ok
    simp [(hevent url ok).symm]
  have hhas : ∀ url, t.has url = (s.withPings started).has url := by
    intro url
    rw [PingState.has, hmap, PingState.has]
  have hrecords : ∀ {P : PingRecord → Prop}, (∀ record ∈ s.nodesMap, P record) →
      (∀ node ∈ started, P (s.newRecord node)) → ∀ record ∈ t.nodesMap, P record := by
    intro P hold hnew record hrecord
    rw [hmap, withPings_nodesMap, List.mem_append] at hrecord
    rcases hrecord with hrecord | hrecord
    · exact hold record hrecord
    · obtain ⟨node, hnode, rfl⟩ := List.mem_map.mp hrecord
      exact hnew node hnode
  constructor
  · rw [hpings, hmap]
    simp [hs.pings, Function.comp_def]
  · rw [hpings, withPings_pings, List.nodup_append]
    refine ⟨hs.nodup, hstarts.nodup, ?_⟩
    intro url hurl url' hurl' heq
    subst heq
    obtain ⟨node, hnode, rfl⟩ := List.mem_map.mp hurl'
    have hfresh := hstarts.fresh node hnode
    rw [hs.pings] at hurl
    obtain ⟨record, hrecord, heq⟩ := List.mem_map.mp hurl
    simp only [PingState.has, List.any_eq_false, decide_eq_true_eq] at hfresh
    exact hfresh record hrecord heq
  · refine hrecords (fun record hrecord ok => ?_) fun node hnode ok => ?_
    · rw [hmem]
      exact hs.fetched record hrecord ok
    · rw [hmem]
      constructor
      · intro h
        cases h
      · intro h
        have hold : s.has node.httpUrl = true := hs.has _ _ h
        rw [hstarts.fresh node hnode] at hold
        cases hold
  · intro url ok h
    rw [hhas, has_withPings, hs.has url ok ((hmem url ok).mp h)]
    rfl
  · exact hrecords hs.latency fun node _ => by simp [newRecord]
  · exact hrecords hs.isDone fun node _ h => absurd rfl h

theorem mem_updateRecord {f : PingRecord → PingRecord}
    (h : record ∈ (s.updateRecord url f).nodesMap) :
    ∃ old ∈ s.nodesMap, (old.node.httpUrl = url ∧ record = f old) ∨
      (old.node.httpUrl ≠ url ∧ record = old) := by
  obtain ⟨old, hold, rfl⟩ := List.mem_map.mp h
  refine ⟨old, hold, ?_⟩
  by_cases hurl : old.node.httpUrl = url
  · exact .inl ⟨hurl, if_pos hurl⟩
  · exact .inr ⟨hurl, if_neg hurl⟩

theorem has_updateRecord {f : PingRecord → PingRecord} {url' : Url}
    (hf : ∀ record, (f record).node = record.node) :
    (s.updateRecord url f).has url' = s.has url' := by
  rw [has_eq, has_eq, record?_updateRecord hf, Option.isSome_map]

/-- The records stay in their order. -/
theorem nodes_updateRecord {f : PingRecord → PingRecord}
    (hf : ∀ record, (f record).node = record.node) :
    (s.updateRecord url f).nodesMap.map (·.node) = s.nodesMap.map (·.node) := by
  unfold updateRecord
  rw [List.map_map]
  refine List.map_congr_left fun record _ => ?_
  simp only [Function.comp_apply]
  split
  · exact hf record
  · rfl

theorem Recorded.pings_updateRecord (hs : Recorded events s) {f : PingRecord → PingRecord}
    (hf : ∀ record, (f record).node = record.node) :
    s.pings = (s.updateRecord url f).nodesMap.map (·.node.httpUrl) := by
  have hurls := congrArg (List.map (·.httpUrl)) (@nodes_updateRecord s url f hf)
  rw [List.map_map, List.map_map] at hurls
  exact hs.pings.trans hurls.symm

theorem Recorded.step (hs : Recorded events s) (h : s.step sslRequired event = some t) :
    Recorded (events ++ [event]) t := by
  cases step_records h with
  | started hstarts hmap hpings hevent => exact hs.pingsStart hstarts hmap hpings hevent
  | @fetched url ok record start hrecord hphase =>
    obtain ⟨hmem, hurl⟩ := record?_mem hrecord
    -- until now the events do not tell how this `fetch` ends
    have hnone : ∀ ok', .fetched url ok' ∉ events := by
      intro ok' hmem'
      rw [← hurl, ← hs.fetched record hmem ok', hphase] at hmem'
      cases hmem'
    constructor
    · exact hs.pings_updateRecord fetchEnds_node
    · exact hs.nodup
    · intro record' hrecord' ok'
      obtain ⟨old, hold, ⟨hsame, rfl⟩ | ⟨hother, rfl⟩⟩ := mem_updateRecord hrecord'
      · rw [show (s.fetchEnds ok start record.latency old).node.httpUrl = url from hsame]
        simp [fetchEnds, hnone ok', eq_comm]
      · rw [hs.fetched _ hold ok']
        simp [hother]
    · intro url' ok' hmem'
      rw [has_updateRecord fetchEnds_node]
      rcases List.mem_append.mp hmem' with hold | hnew
      · exact hs.has url' ok' hold
      · cases List.mem_singleton.mp hnew
        rw [has_eq, hrecord]
        rfl
    · intro record' hrecord'
      obtain ⟨old, hold, ⟨hsame, rfl⟩ | ⟨hother, rfl⟩⟩ := mem_updateRecord hrecord'
      · have hnone : record.latency.isSome ↔ False := by
          rw [hs.latency record hmem, hphase]
          simp
        cases ok with
        | true => simp [fetchEnds]
        | false => simpa [fetchEnds] using hnone
      · exact hs.latency _ hold
    · intro record' hrecord' hdone
      obtain ⟨old, hold, ⟨hsame, rfl⟩ | ⟨hother, rfl⟩⟩ := mem_updateRecord hrecord'
      · exact ⟨ok, rfl⟩
      · exact hs.isDone _ hold hdone
  | @settled url ok record hrecord hphase hpending =>
    have hmem : ∀ url' ok', .fetched url' ok' ∈ events ++ [PingEvent.settle url] ↔
        .fetched url' ok' ∈ events := by simp
    obtain ⟨hmemr, hurl⟩ := record?_mem hrecord
    constructor
    · exact hs.pings_updateRecord promiseSettles_node
    · exact hs.nodup
    · intro record' hrecord' ok'
      rw [hmem]
      obtain ⟨old, hold, ⟨-, rfl⟩ | ⟨-, rfl⟩⟩ := mem_updateRecord hrecord'
      · exact hs.fetched old hold ok'
      · exact hs.fetched _ hold ok'
    · intro url' ok' hmem'
      rw [has_updateRecord promiseSettles_node]
      exact hs.has url' ok' ((hmem url' ok').mp hmem')
    · intro record' hrecord'
      obtain ⟨old, hold, ⟨-, rfl⟩ | ⟨-, rfl⟩⟩ := mem_updateRecord hrecord'
      · exact hs.latency old hold
      · exact hs.latency _ hold
    · intro record' hrecord' hdone
      obtain ⟨old, hold, ⟨hsame, rfl⟩ | ⟨hother, rfl⟩⟩ := mem_updateRecord hrecord'
      · rw [hs.eq_of_url hrecord hold hsame]
        exact ⟨ok, hphase⟩
      · exact hs.isDone _ hold hdone

theorem Recorded.run (hs : Recorded events s) {later : List PingEvent}
    (h : Kit.run (PingState.step sslRequired) s later = some t) : Recorded (events ++ later) t :=
  Kit.run_history (fun _ _ _ _ hs h => hs.step h) hs h

/-! ## Records are kept -/

/-- What can become of a record: it is that of the same node, a latency stays, and once its promise
is settled nothing changes. -/
structure Grows (record record' : PingRecord) : Prop where
  node : record'.node = record.node
  latency : record.latency.isSome → record'.latency = record.latency
  isDone : record.isDone ≠ .pending → record' = record

theorem Grows.refl (record : PingRecord) : Grows record record := ⟨rfl, fun _ => rfl, fun _ => rfl⟩

theorem Grows.trans {record' record'' : PingRecord} (h : Grows record record')
    (h' : Grows record' record'') : Grows record record'' where
  node := h'.node.trans h.node
  latency := by
    intro hsome
    have hsame := h.latency hsome
    exact (h'.latency (by rw [hsame, hsome])).trans hsame
  isDone := by
    intro hdone
    have hsame := h.isDone hdone
    exact (h'.isDone (by rw [hsame]; exact hdone)).trans hsame

theorem grows_updateRecord {f : PingRecord → PingRecord}
    (hf : ∀ record, (f record).node = record.node)
    (hgrows : ∀ record, s.record? url = some record → Grows record (f record)) {url' : Url}
    (h : s.record? url' = some record) :
    ∃ record', (s.updateRecord url f).record? url' = some record' ∧ Grows record record' := by
  rw [record?_updateRecord hf, h]
  by_cases hurl : url' = url
  · subst hurl
    exact ⟨f record, by simp, hgrows record h⟩
  · exact ⟨record, by simp [hurl], .refl record⟩

theorem Recorded.step_record? (hs : Recorded events s) (h : s.step sslRequired event = some t)
    (hrecord : s.record? url = some record) :
    ∃ record', t.record? url = some record' ∧ Grows record record' := by
  cases step_records h with
  | started hstarts hmap hpings hevent =>
    refine ⟨record, ?_, .refl record⟩
    rw [record?, hmap]
    change (s.withPings _).record? url = _
    rw [record?_withPings, hrecord]
    rfl
  | @fetched url' ok record' start hrecord' hphase =>
    refine grows_updateRecord fetchEnds_node (fun old hold => ?_) hrecord
    rw [hrecord'] at hold
    cases hold
    obtain ⟨hmem, -⟩ := record?_mem hrecord'
    refine ⟨rfl, fun hsome => ?_, fun hdone => ?_⟩
    · rw [hs.latency record' hmem, hphase] at hsome
      cases hsome
    · obtain ⟨ok, hfetched⟩ := hs.isDone record' hmem hdone
      rw [hphase] at hfetched
      cases hfetched
  | @settled url' ok record' hrecord' hphase hpending =>
    refine grows_updateRecord promiseSettles_node (fun old hold => ?_) hrecord
    rw [hrecord'] at hold
    cases hold
    exact ⟨rfl, fun _ => rfl, fun hdone => absurd hpending hdone⟩

theorem Recorded.run_record? (hs : Recorded events s) {later : List PingEvent}
    (h : Kit.run (PingState.step sslRequired) s later = some t)
    (hrecord : s.record? url = some record) :
    ∃ record', t.record? url = some record' ∧ Grows record record' := by
  have hrun := Kit.run_history (P := fun ls u => Recorded ls u ∧
    ∃ record', u.record? url = some record' ∧ Grows record record') ?_
    ⟨hs, record, hrecord, .refl record⟩ h
  · exact hrun.2
  · intro ls u event v hu hstep
    obtain ⟨hrecorded, record', hrecord', hgrows⟩ := hu
    obtain ⟨record'', hrecord'', hgrows'⟩ := hrecorded.step_record? hstep hrecord'
    exact ⟨hrecorded.step hstep, record'', hrecord'', hgrows.trans hgrows'⟩

/-- The nodes of the records, in the order in which they were pinged. -/
theorem step_nodes (h : s.step sslRequired event = some t) :
    s.nodesMap.map (·.node) <+: t.nodesMap.map (·.node) := by
  cases step_records h with
  | started hstarts hmap hpings hevent =>
    rw [hmap, withPings_nodesMap, List.map_append]
    exact List.prefix_append _ _
  | fetched hrecord hphase => simp only [nodes_updateRecord fetchEnds_node, List.prefix_rfl]
  | settled hrecord hphase hpending =>
    simp only [nodes_updateRecord promiseSettles_node, List.prefix_rfl]

theorem run_nodes (h : Kit.run (PingState.step sslRequired) s events = some t) :
    s.nodesMap.map (·.node) <+: t.nodesMap.map (·.node) :=
  Kit.run_mono (R := fun s t => s.nodesMap.map (·.node) <+: t.nodesMap.map (·.node))
    (fun _ => List.prefix_rfl) (fun _ _ _ => List.IsPrefix.trans) (fun _ _ _ => step_nodes) h

/-- **A URL is pinged once**: no URL is in the log of pings twice, the records are those of the
pings and none of them is replaced, and a record has a latency, which then stays, exactly when its
`fetch` has come back with a response that is ok. -/
theorem pinged_once {now : Int} {arrays : Kit.Heap RouterNode} {later : List PingEvent}
    (h : Kit.run (step sslRequired) { now, arrays } events = some s)
    (h' : Kit.run (step sslRequired) s later = some t) :
    s.pings.Nodup ∧ s.pings = s.nodesMap.map (·.node.httpUrl) ∧
      s.nodesMap.map (·.node) <+: t.nodesMap.map (·.node) ∧
      (∀ record ∈ s.nodesMap, ∃ record' ∈ t.nodesMap, record'.node = record.node ∧
        (record.latency.isSome → record'.latency = record.latency)) ∧
      ∀ record ∈ s.nodesMap,
        (record.latency.isSome ↔ .fetched record.node.httpUrl true ∈ events) := by
  have hs : Recorded events s := Recorded.run recorded_initial h
  refine ⟨hs.nodup, hs.pings, run_nodes h', ?_, ?_⟩
  · intro record hrecord
    obtain ⟨record', hrecord', hgrows⟩ := hs.run_record? h' (hs.record?_eq hrecord)
    exact ⟨record', (record?_mem hrecord').1, hgrows.node, hgrows.latency⟩
  · intro record hrecord
    exact (hs.latency record hrecord).trans (hs.fetched record hrecord true)

/-- A storage node with this URL. -/
def storageNodeAt (url : String) (h : url ≠ "") : RouterNode :=
  { mode := .storage, httpUrl := ⟨url, h⟩, grpcUrl := ⟨url, h⟩ }

def nodeA : RouterNode := storageNodeAt "node-a" (by decide)

/-- Call 0 gets the node, and goes on to the wait for its ping. -/
def pingOneNode : List PingEvent :=
  [.array [nodeA], .marshalNodes .storePiece 0 keepOrder,
    .resume 0, .resume 0, .resume 0, .resume 0]

theorem pinged_once_one :
    ∃ s t, Kit.run (step false) { now := 0 } pingOneNode = some s ∧
      Kit.run (step false) s [.tick 5] = some t ∧ s.pings = [nodeA.httpUrl] ∧
      s.pings.Nodup ∧ s.pings = s.nodesMap.map (·.node.httpUrl) ∧
      s.nodesMap.map (·.node) <+: t.nodesMap.map (·.node) ∧
      (∀ record ∈ s.nodesMap, ∃ record' ∈ t.nodesMap, record'.node = record.node ∧
        (record.latency.isSome → record'.latency = record.latency)) ∧
      ∀ record ∈ s.nodesMap,
        (record.latency.isSome ↔ .fetched record.node.httpUrl true ∈ pingOneNode) := by
  refine ⟨_, _, rfl, rfl, ?_, @pinged_once false _ _ pingOneNode 0 {} [.tick 5] rfl rfl⟩
  -- a list of one node is sorted already
  simp [PingState.marshalNodes, BaseStrategy.marshal, NodeTypeStrategy.marshal, setPhase,
    Kit.Heap.build, Kit.Heap.alloc, Kit.Heap.read, Kit.Heap.write, Kit.Heap.size, has,
    getPingedNodes, shuffle_keepOrder, RouterNode.handles, priorityMap, nodeA, storageNodeAt]
  decide

end PingState

end CereDdc
