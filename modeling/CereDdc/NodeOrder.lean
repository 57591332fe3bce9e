import CereDdc.Kit.StableSort
import CereDdc.PingThresholds
import Mathlib

/-!
# NodeOrder — in which order `marshalNodes` returns the nodes

The nodes are sorted twice, by priority and then by the level of their latency. A
latency of 0 ms is taken for none, so the node that answers fastest of all comes
last with those that do not answer.
-/

namespace CereDdc

variable {sslRequired : Bool} {operation : RouterOperation} {draws : Draws}
  {latencies : Url → Option Int} {nodes : List RouterNode} {a b : RouterNode}

/-! ## Outcomes of pings -/

/-- What has come of the ping of a node. -/
inductive PingOutcome
  | success (latency : Nat) | failure | notPinged
  deriving DecidableEq, Repr

namespace PingOutcome

/-- The latency in the record of the node. -/
def latency : PingOutcome → Option Int
  | success latency => some latency
  | failure => none
  | notPinged => none

/-- The group of `PING_LATENCY_GROUP` milliseconds that the node belongs to. -/
def level : PingOutcome → WithTop Int
  | success latency => (⌈(latency : Rat) / pingLatencyGroup⌉ : Int)
  | failure => ⊤
  | notPinged => ⊤

end PingOutcome

/-- What the nodes are to be sorted by. -/
def sortKey (operation : RouterOperation) (outcome : Url → PingOutcome) (node : RouterNode) :
    Lex (WithTop Int × Int) :=
  toLex ((outcome node.httpUrl).level, node.effectivePriority operation)

/-! ## The two sorts -/

/-- A level of the code. -/
def toLevel : Option Int → WithTop Int
  | some level => level
  | none => ⊤

theorem levelLe_iff {a b : Option Int} : levelLe a b = true ↔ toLevel a ≤ toLevel b := by
  cases a with
  | none => cases b <;> simp [levelLe, toLevel]
  | some a => cases b <;> simp [levelLe, toLevel]

theorem latencyLe_iff : latencyLe latencies a b = true ↔
    toLevel (latencyLevel (latencies a.httpUrl)) ≤
      toLevel (latencyLevel (latencies b.httpUrl)) :=
  levelLe_iff

theorem latencyLe_trans (a b c : RouterNode) (hab : latencyLe latencies a b)
    (hbc : latencyLe latencies b c) : latencyLe latencies a c :=
  latencyLe_iff.mpr (le_trans (latencyLe_iff.mp hab) (latencyLe_iff.mp hbc))

theorem latencyLe_total (a b : RouterNode) :
    latencyLe latencies a b || latencyLe latencies b a := by
  rw [Bool.or_eq_true, latencyLe_iff, latencyLe_iff]
  exact le_total _ _

theorem priorityLe_trans (a b c : RouterNode) (hab : priorityLe operation a b)
    (hbc : priorityLe operation b c) : priorityLe operation a c :=
  decide_eq_true (Int.le_trans (of_decide_eq_true hab) (of_decide_eq_true hbc))

theorem priorityLe_total (a b : RouterNode) :
    priorityLe operation a b || priorityLe operation b a := by
  simpa [priorityLe] using Int.le_total _ _

/-- What the code sorts the nodes by. -/
def codeKey (operation : RouterOperation) (latencies : Url → Option Int) (node : RouterNode) :
    Lex (WithTop Int × Int) :=
  toLex (toLevel (latencyLevel (latencies node.httpUrl)), node.effectivePriority operation)

theorem nodeTypeStrategy_sorted :
    (NodeTypeStrategy.marshalNodes sslRequired operation nodes).Pairwise fun a b =>
      a.effectivePriority operation ≤ b.effectivePriority operation :=
  (List.pairwise_mergeSort priorityLe_trans priorityLe_total _).imp of_decide_eq_true

/-- The second sort keeps the order of the first one within a level. -/
theorem marshalNodes_sorted :
    (marshalNodes sslRequired operation draws latencies nodes).Pairwise fun a b =>
      codeKey operation latencies a ≤ codeKey operation latencies b := by
  have hsorted := Kit.pairwise_mergeSort_ties (@latencyLe_trans latencies) latencyLe_total
    (@nodeTypeStrategy_sorted sslRequired operation (shuffle draws nodes))
  refine hsorted.imp fun {a b} hab => ?_
  rw [codeKey, codeKey, Prod.Lex.toLex_le_toLex']
  refine ⟨latencyLe_iff.mp hab.1, fun heq => hab.2 (latencyLe_iff.mpr ?_)⟩
  exact heq.symm.le

/-! ## Draws -/

/-- Draws that exchange two elements. -/
def exchange {i j : Nat} (h : i < j) : Draws := fun index =>
  if heq : index = j then ⟨i, by omega⟩ else Fin.last index

theorem shuffleFrom_exchange {α : Type} {i j : Nat} (h : i < j) (index : Nat) (array : List α) :
    shuffleFrom (exchange h) index array = if j ≤ index then array.swap j i else array := by
  induction index generalizing array with
  | zero =>
    have hj : ¬ j ≤ 0 := by omega
    rw [shuffleFrom, if_neg hj]
  | succ index ih =>
    rw [shuffleFrom, ih]
    by_cases heq : index + 1 = j
    · subst heq
      simp [exchange]
    · have hlast : ((exchange h (index + 1) : Fin (index + 2)) : Nat) = index + 1 := by
        simp [exchange, heq]
      rw [hlast, List.swap_self]
      have hle : j ≤ index + 1 ↔ j ≤ index := by omega
      simp only [hle]

/-- Elements stand in the order of their places. -/
theorem pair_sublist_of_lt {α : Type} {l : List α} {i j : Nat} (hi : i < l.length)
    (hj : j < l.length) (h : i < j) : [l[i], l[j]].Sublist l :=
  List.pairwise_iff_getElem.mp (List.pairwise_iff_forall_sublist.mpr id) i j hi hj h

/-- A shuffle can bring any element before another one. -/
theorem exists_draws {α : Type} {l : List α} {a b : α} (ha : a ∈ l) (hb : b ∈ l) (hne : a ≠ b) :
    ∃ draws : Draws, [b, a].Sublist (shuffle draws l) := by
  obtain ⟨i, hi, rfl⟩ := List.getElem_of_mem ha
  obtain ⟨j, hj, rfl⟩ := List.getElem_of_mem hb
  rcases Nat.lt_trichotomy i j with hlt | rfl | hgt
  · refine ⟨exchange hlt, ?_⟩
    rw [shuffle, shuffleFrom_exchange, if_pos (by omega)]
    have hi' : i < (l.swap j i).length := by simpa using hi
    have hj' : j < (l.swap j i).length := by simpa using hj
    have hpair := pair_sublist_of_lt hi' hj' hlt
    rw [List.getElem_swap_right, List.getElem_swap_left, dif_pos hi, dif_pos hj] at hpair
    exact hpair
  · exact absurd rfl hne
  · refine ⟨keepOrder, ?_⟩
    rw [shuffle_keepOrder]
    exact pair_sublist_of_lt hj hi hgt

/-! ## Levels -/

namespace PingOutcome

variable {outcome : PingOutcome}

theorem level_success (latency : Nat) :
    (success latency).level = ((-(-latency / pingLatencyGroup) : Int) : WithTop Int) := by
  have hceil := Rat.ceil_natCast_div_natCast latency 100
  unfold level pingLatencyGroup
  exact congrArg _ hceil

theorem level_zero : (success 0).level = 0 := by
  rw [level_success]
  rfl

/-- Whoever did not answer within the first millisecond has a level above 0. -/
theorem level_pos (h : outcome ≠ success 0) : (success 0).level < outcome.level := by
  rw [level_zero]
  cases outcome with
  | success latency =>
    have hpos : latency ≠ 0 := fun heq => h (congrArg _ heq)
    rw [level_success, ← WithTop.coe_zero, WithTop.coe_lt_coe]
    unfold pingLatencyGroup
    omega
  | failure => exact WithTop.coe_lt_top 0
  | notPinged => exact WithTop.coe_lt_top 0

/-- The code takes 0 ms for no latency. -/
theorem toLevel_zero : toLevel (latencyLevel (success 0).latency) = ⊤ := rfl

theorem toLevel_eq (h : outcome ≠ success 0) :
    toLevel (latencyLevel outcome.latency) = outcome.level := by
  cases outcome with
  | success latency =>
    have hpos : latency ≠ 0 := fun heq => h (congrArg _ heq)
    rw [level_success]
    simp [PingOutcome.latency, latencyLevel, Option.filter, hpos, toLevel]
  | failure => rfl
  | notPinged => rfl

end PingOutcome

/-! ## The order -/

/-- No node that answers at once stands in a list with one that answers later, or that is to come
before it or beside it among those that do not answer. -/
def ZeroLast (sslRequired : Bool) (operation : RouterOperation) (outcome : Url → PingOutcome)
    (nodes : List RouterNode) : Prop :=
  ∀ a ∈ nodes, ∀ b ∈ nodes, a.supports sslRequired operation → b.supports sslRequired operation →
    outcome a.httpUrl = .success 0 → outcome b.httpUrl ≠ .success 0 →
    (outcome b.httpUrl).level = ⊤ ∧ a.effectivePriority operation < b.effectivePriority operation

section

variable {outcome : Url → PingOutcome}

theorem mem_marshalNodes : a ∈ marshalNodes sslRequired operation draws latencies nodes ↔
    a ∈ nodes ∧ a.supports sslRequired operation := by
  rw [marshalNodes_perm.mem_iff, List.mem_filter]

/-- Where the code sorts two nodes, they are sorted. -/
theorem ZeroLast.sortKey_le (h : ZeroLast sslRequired operation outcome nodes)
    (ha : a ∈ nodes ∧ a.supports sslRequired operation)
    (hb : b ∈ nodes ∧ b.supports sslRequired operation)
    (hcode : codeKey operation (fun url => (outcome url).latency) a ≤
      codeKey operation (fun url => (outcome url).latency) b) :
    sortKey operation outcome a ≤ sortKey operation outcome b := by
  unfold codeKey at hcode
  unfold sortKey
  rw [Prod.Lex.toLex_le_toLex'] at hcode ⊢
  obtain ⟨hlevel, hpriority⟩ := hcode
  dsimp only at hlevel hpriority ⊢
  by_cases hza : outcome a.httpUrl = .success 0
  · by_cases hzb : outcome b.httpUrl = .success 0
    · rw [hza, hzb] at hpriority ⊢
      exact ⟨le_refl _, fun _ => hpriority rfl⟩
    · have hlt := PingOutcome.level_pos hzb
      rw [hza]
      exact ⟨hlt.le, fun heq => absurd heq hlt.ne⟩
  · by_cases hzb : outcome b.httpUrl = .success 0
    · -- the node that did not answer stands first, against its priority
      obtain ⟨htop, hlt⟩ := h b hb.1 a ha.1 hb.2 ha.2 hzb hza
      rw [PingOutcome.toLevel_eq hza, htop, hzb] at hpriority
      exact absurd (hpriority PingOutcome.toLevel_zero.symm) (not_le.mpr hlt)
    · rw [PingOutcome.toLevel_eq hza, PingOutcome.toLevel_eq hzb] at hlevel hpriority
      exact ⟨hlevel, hpriority⟩

/-- A node that the shuffle brings before one of its priority stays before it. -/
theorem pair_sublist_marshalNodes (ha : a.supports sslRequired operation)
    (hb : b.supports sslRequired operation)
    (hle : priorityLe operation a b) (hle' : latencyLe latencies a b)
    (h : [a, b].Sublist (shuffle draws nodes)) :
    [a, b].Sublist (marshalNodes sslRequired operation draws latencies nodes) := by
  refine List.pair_sublist_mergeSort latencyLe_trans latencyLe_total hle' ?_
  refine List.pair_sublist_mergeSort priorityLe_trans priorityLe_total hle ?_
  rw [baseStrategy_eq_filter, List.filter_filter]
  have hfiltered := h.filter fun node => node.handles operation && (!sslRequired || node.secure)
  unfold RouterNode.supports at ha hb
  rw [Bool.and_comm] at ha hb
  simpa [List.filter_cons, ha, hb] using hfiltered

theorem ZeroLast.sorted (h : ZeroLast sslRequired operation outcome nodes) :
    (marshalNodes sslRequired operation draws (fun url => (outcome url).latency) nodes).Pairwise
      fun a b => sortKey operation outcome a ≤ sortKey operation outcome b := by
  refine marshalNodes_sorted.imp_of_mem fun {a b} ha hb hcode => ?_
  exact h.sortKey_le (mem_marshalNodes.mp ha) (mem_marshalNodes.mp hb) hcode

/-- **The order of the nodes**: whatever the draws, the nodes are sorted by the level of their
latency and then by priority, exactly if no node with a latency of 0 ms stands in the way. -/
theorem sorted_iff : (∀ draws, (marshalNodes sslRequired operation draws
      (fun url => (outcome url).latency) nodes).Pairwise fun a b =>
        sortKey operation outcome a ≤ sortKey operation outcome b) ↔
    ZeroLast sslRequired operation outcome nodes := by
  constructor
  · intro hsorted a ha b hb hsa hsb hza hzb
    have hne : a ≠ b := by
      rintro rfl
      exact hzb hza
    -- the node that answers at once is to come first
    have hlt : sortKey operation outcome a < sortKey operation outcome b := by
      unfold sortKey
      rw [Prod.Lex.toLex_lt_toLex, hza]
      exact .inl (PingOutcome.level_pos hzb)
    have hcode : codeKey operation (fun url => (outcome url).latency) a ≤
        codeKey operation (fun url => (outcome url).latency) b := by
      rcases Kit.pairwise_or ((hsorted keepOrder).and marshalNodes_sorted)
        (mem_marshalNodes.mpr ⟨ha, hsa⟩) (mem_marshalNodes.mpr ⟨hb, hsb⟩) hne with
        ⟨-, hcode⟩ | ⟨hkey, -⟩
      · exact hcode
      · exact absurd hkey (not_le.mpr hlt)
    unfold codeKey at hcode
    rw [Prod.Lex.toLex_le_toLex'] at hcode
    have hlevel := hcode.1
    dsimp only at hlevel
    rw [hza, PingOutcome.toLevel_zero, top_le_iff] at hlevel
    have htop : (outcome b.httpUrl).level = ⊤ := (PingOutcome.toLevel_eq hzb).symm.trans hlevel
    refine ⟨htop, lt_of_not_ge fun hge => ?_⟩
    -- if the second has no greater priority, a shuffle can bring it to the front
    obtain ⟨draws, hdraws⟩ := exists_draws ha hb hne
    have hlast : latencyLe (fun url => (outcome url).latency) b a := by
      rw [latencyLe_iff, hza, PingOutcome.toLevel_zero]
      exact le_top
    have hpair := pair_sublist_marshalNodes hsb hsa (decide_eq_true hge) hlast hdraws
    have hkey := List.pairwise_iff_forall_sublist.mp (hsorted draws) hpair
    exact absurd hkey (not_le.mpr hlt)
  · exact fun h draws => h.sorted

/-- A node that answers in 50 ms and one that answers at once. -/
def fastNodes : List RouterNode :=
  [PingState.nodeA, PingState.storageNodeAt "fast" (by decide)]

def fastOutcome (url : Url) : PingOutcome := if url = PingState.nodeA.httpUrl then .success 50 else .success 0

theorem not_sorted : ¬ ∀ sslRequired operation (outcome : Url → PingOutcome) draws nodes,
    (marshalNodes sslRequired operation draws (fun url => (outcome url).latency) nodes).Pairwise
      fun a b => sortKey operation outcome a ≤ sortKey operation outcome b := by
  intro h
  have hsorted := h false .storePiece fastOutcome keepOrder fastNodes
  have hpriority : fastNodes.mergeSort (priorityLe .storePiece) = fastNodes :=
    List.mergeSort_of_pairwise (by decide)
  have hlatency : fastNodes.mergeSort (latencyLe fun url => (fastOutcome url).latency)
      = fastNodes := List.mergeSort_of_pairwise (by decide)
  have hhandles : fastNodes.filter (·.handles .storePiece) = fastNodes := by decide
  rw [marshalNodes, NodeTypeStrategy.marshalNodes, BaseStrategy.marshalNodes, shuffle_keepOrder,
    if_neg (by simp), hhandles, hpriority, hlatency] at hsorted
  have hkey := List.rel_of_pairwise_cons hsorted List.mem_cons_self
  unfold sortKey at hkey
  rw [Prod.Lex.toLex_le_toLex'] at hkey
  have hlevel : (PingOutcome.success 50).level ≤ (PingOutcome.success 0).level := hkey.1
  exact absurd (PingOutcome.level_pos (by decide)) (not_lt.mpr hlevel)

end

/-! ## The result of a call -/

namespace PingState

variable {s t : PingState} {event : PingEvent} {events : List PingEvent} {call : MarshalCall}
  {i : Nat} {all : Kit.Ref} {url : Url}

/-- What has come of the ping of a URL so far. -/
def outcome (s : PingState) (url : Url) : PingOutcome :=
  match s.record? url with
  | none => .notPinged
  | some record =>
    match record.latency, record.phase with
    | some latency, _ => .success latency.toNat
    | none, .fetched _ => .failure
    | none, .fetching _ => .notPinged

/-- No ping starts in the future. -/
structure Timed (s : PingState) : Prop where
  start : ∀ record ∈ s.nodesMap, ∀ start, record.phase = .fetching start → start ≤ s.now
  latency : ∀ record ∈ s.nodesMap, ∀ latency, record.latency = some latency → 0 ≤ latency

@[simp] theorem enqueuePings_now : (s.enqueuePings nodes).1.now = s.now := by
  obtain ⟨started, -, henqueue⟩ := enqueuePings_starts s nodes
  rw [henqueue]
  rfl

theorem advance_now {s' : PingState} {phase : MarshalPhase}
    (h : s.advance sslRequired call = some (s', phase)) : s'.now = s.now := by
  obtain ⟨operation, draws, given, before⟩ := call
  cases before with
  | settling _ _ _ =>
    obtain ⟨-, rfl, -⟩ := (advance_settling sslRequired rfl).mp h
    rfl
  | all _ _ =>
    cases h
    exact enqueuePings_now
  | done _ => cases h
  | _ =>
    cases h
    rfl

/-- Time goes on. -/
theorem step_now (h : s.step sslRequired event = some t) : s.now ≤ t.now := by
  cases event with
  | array nodes =>
    cases h
    exact le_refl _
  | marshalNodes operation allNodes draws =>
    simp only [step, Option.ite_none_right_eq_some, Option.some.injEq] at h
    obtain ⟨-, rfl⟩ := h
    exact le_refl _
  | resume i =>
    simp only [step, Option.bind_eq_bind, Option.bind_eq_some_iff, Option.pure_def,
      Option.some.injEq] at h
    obtain ⟨call, -, ⟨s', phase⟩, hadvance, rfl⟩ := h
    exact (advance_now hadvance).ge
  | fetched url ok =>
    cases step_records h with
    | started _ _ _ hevent => exact absurd rfl (hevent url ok)
    | fetched _ _ => exact le_refl _
  | settle url =>
    simp only [step, Option.bind_eq_bind, Option.bind_eq_some_iff] at h
    obtain ⟨record, -, h⟩ := h
    split at h
    · cases h
      exact le_refl _
    · cases h
  | timeout i =>
    simp only [step, Option.bind_eq_bind, Option.bind_eq_some_iff] at h
    obtain ⟨timer, -, h⟩ := h
    split at h
    · cases h
      exact enqueuePings_now.ge
    · cases h
  | tick milliseconds =>
    cases h
    exact Int.le_add_of_nonneg_right (Int.natCast_nonneg _)

theorem timed_initial {now : Int} {arrays : Kit.Heap RouterNode} :
    Timed { now, arrays } where
  start := by simp
  latency := by simp

theorem Timed.step (hs : s.Timed) (h : s.step sslRequired event = some t) : t.Timed := by
  have hnow := step_now h
  cases step_records h with
  | started hstarts hmap hpings hevent =>
    constructor
    · intro record hrecord start hphase
      rw [hmap, withPings_nodesMap, List.mem_append] at hrecord
      rcases hrecord with hold | hnew
      · exact (hs.start record hold start hphase).trans hnow
      · obtain ⟨node, -, rfl⟩ := List.mem_map.mp hnew
        cases hphase
        exact hnow
    · intro record hrecord latency hlatency
      rw [hmap, withPings_nodesMap, List.mem_append] at hrecord
      rcases hrecord with hold | hnew
      · exact hs.latency record hold latency hlatency
      · obtain ⟨node, -, rfl⟩ := List.mem_map.mp hnew
        cases hlatency
  | @fetched url ok record start hrecord hphase =>
    have hmem := (record?_mem hrecord).1
    constructor
    · intro record' hrecord' start' hphase'
      obtain ⟨old, hold, ⟨-, rfl⟩ | ⟨-, rfl⟩⟩ := mem_updateRecord hrecord'
      · cases hphase'
      · exact hs.start _ hold start' hphase'
    · intro record' hrecord' latency hlatency
      obtain ⟨old, hold, ⟨-, rfl⟩ | ⟨-, rfl⟩⟩ := mem_updateRecord hrecord'
      · cases ok with
        | true =>
          cases hlatency
          exact Int.sub_nonneg_of_le (hs.start record hmem start hphase)
        | false => exact hs.latency record hmem latency hlatency
      · exact hs.latency _ hold latency hlatency
  | @settled url ok record hrecord hphase hpending =>
    constructor
    · intro record' hrecord' start hphase'
      obtain ⟨old, hold, ⟨-, rfl⟩ | ⟨-, rfl⟩⟩ := mem_updateRecord hrecord'
      · exact hs.start old hold start hphase'
      · exact hs.start _ hold start hphase'
    · intro record' hrecord' latency hlatency
      obtain ⟨old, hold, ⟨-, rfl⟩ | ⟨-, rfl⟩⟩ := mem_updateRecord hrecord'
      · exact hs.latency old hold latency hlatency
      · exact hs.latency _ hold latency hlatency

theorem Timed.latency_eq (hs : s.Timed) (url : Url) : s.latency url = (s.outcome url).latency := by
  unfold PingState.latency outcome
  cases hrecord : s.record? url with
  | none => rfl
  | some record =>
    have hmem := (record?_mem hrecord).1
    cases hlatency : record.latency with
    | none => cases hphase : record.phase <;> simp [hlatency, hphase, PingOutcome.latency]
    | some latency =>
      have hnonneg := hs.latency record hmem latency hlatency
      simp [hlatency, PingOutcome.latency, Int.toNat_of_nonneg hnonneg]

/-- What a call returns is sorted by what has come of the pings when it sorts. -/
theorem sorted_result {now : Int} {arrays : Kit.Heap RouterNode}
    (h : Kit.run (step sslRequired) { now, arrays } events = some s)
    (hcall : s.calls[i]? = some call) {syncPings : List Url} {toPingAsync : List RouterNode}
    (hphase : call.phase = .settling all toPingAsync syncPings)
    (hstep : s.step sslRequired (.resume i) = some t)
    (hlast : ZeroLast sslRequired call.operation s.outcome call.given) :
    (t.arrays.read all).Pairwise fun a b =>
      sortKey call.operation s.outcome a ≤ sortKey call.operation s.outcome b := by
  have hsound : s.Sound sslRequired := sound_initial.run h
  have htimed : s.Timed := Kit.run_invariant (fun _ _ _ hs hstep => hs.step hstep) timed_initial h
  have hlatency : s.latency = fun url => (s.outcome url).latency := funext htimed.latency_eq
  have hcalled := hsound.calls i call hcall
  have hread : s.arrays.read all = NodeTypeStrategy.marshalNodes sslRequired call.operation
      (shuffle call.draws call.given) := by
    have hholds := hcalled.holds
    unfold MarshalCall.Holds at hholds
    rw [hphase] at hholds
    exact hholds
  have hlt : all < s.arrays.size := by
    have hlt := hcalled.lt
    rw [hphase] at hlt
    exact hlt
  obtain ⟨-, rfl⟩ := (step_sort_iff hcall hphase).mp hstep
  rw [setPhase_arrays, Kit.Heap.read_write_self hlt, hread, hlatency]
  exact @ZeroLast.sorted sslRequired call.operation call.draws call.given s.outcome hlast

end PingState

end CereDdc
