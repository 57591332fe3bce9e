import CereDdc.Kit.Retry

/-!
# Kit — Promise

A promise that an executor settles by calls of `resolve` and `reject`. The first
call decides; all that come after it change nothing. A `Deferred` is the same with
its settlements kept.
-/

namespace Kit

variable {ε α : Type*}

/-- One call of `resolve` (`ok`) or of `reject` (`error`). -/
def Outcome.settle : Outcome ε α → Except ε α → Outcome ε α
  | .pending, .ok a => .resolved a
  | .pending, .error e => .rejected e
  | outcome, _ => outcome

/-- The promise after all calls of the executor, in their order. -/
def settled (calls : List (Except ε α)) : Outcome ε α := calls.foldl Outcome.settle .pending

variable {a : α} {e : ε} {calls : List (Except ε α)}

@[simp] theorem foldl_settle_resolved :
    calls.foldl Outcome.settle (.resolved a) = .resolved a := by
  induction calls with
  | nil => rfl
  | cons call calls ih => exact ih

@[simp] theorem foldl_settle_rejected :
    calls.foldl Outcome.settle (.rejected e : Outcome ε α) = .rejected e := by
  induction calls with
  | nil => rfl
  | cons call calls ih => exact ih

@[simp] theorem settled_nil : settled ([] : List (Except ε α)) = .pending := rfl

@[simp] theorem settled_ok_cons : settled (.ok a :: calls) = .resolved a :=
  foldl_settle_resolved

@[simp] theorem settled_error_cons : settled (.error e :: calls) = .rejected e :=
  foldl_settle_rejected

/-- A promise that is settled stays so. -/
theorem settled_cons {call : Except ε α} :
    settled (call :: calls) = Outcome.settle .pending call := by
  cases call with
  | ok a => exact settled_ok_cons
  | error e => exact settled_error_cons

theorem settle_ne_pending {call : Except ε α} : Outcome.settle .pending call ≠ .pending := by
  cases call <;> simp [Outcome.settle]

/-- Events that come in one after another: the first of them that makes a call settles the
promise. -/
theorem settled_take {ι : Type*} {f : ι → Option (Except ε α)} {before after : List ι} {event : ι}
    {call : Except ε α} (hbefore : ∀ earlier ∈ before, f earlier = none)
    (hevent : f event = some call) (m : Nat) :
    settled (((before ++ event :: after).take m).filterMap f) =
      if m < before.length + 1 then .pending else Outcome.settle .pending call := by
  split
  · rename_i hm
    have hnone : (before.take m).filterMap f = [] :=
      List.filterMap_eq_nil_iff.mpr fun earlier hmem => hbefore earlier (List.mem_of_mem_take hmem)
    rw [List.take_append_of_le_length (by omega), hnone, settled_nil]
  · rename_i hm
    obtain ⟨k, rfl⟩ : ∃ k, m = before.length + (k + 1) := ⟨m - before.length - 1, by omega⟩
    rw [List.take_length_add_append, List.take_succ_cons, List.filterMap_append,
      List.filterMap_eq_nil_iff.mpr hbefore, List.nil_append, List.filterMap_cons, hevent]
    exact settled_cons

/-! ## Deferred -/

/-- A promise that is settled from outside, with the settlements that it has had. -/
structure Deferred (ε α : Type*) where
  settlements : List (Except ε α)
  once : settlements.length ≤ 1

namespace Deferred

variable {d : Deferred ε α} {call : Except ε α}

def new : Deferred ε α := ⟨[], by simp⟩

/-- Settle the promise if it is still pending. -/
def settlePending (d : Deferred ε α) (call : Except ε α) : Deferred ε α :=
  if d.settlements.isEmpty then ⟨[call], by simp⟩ else d

def resolvePending (d : Deferred ε α) (a : α) : Deferred ε α := d.settlePending (.ok a)

def rejectPending (d : Deferred ε α) (e : ε) : Deferred ε α := d.settlePending (.error e)

def SettledOnce (d : Deferred ε α) : Prop := d.settlements.length = 1

/-- The promise is resolved with `a`. -/
def Resolved (d : Deferred ε α) (a : α) : Prop := d.settlements = [.ok a]

instance : DecidablePred (@SettledOnce ε α) :=
  fun d => inferInstanceAs (Decidable (d.settlements.length = 1))

@[simp] theorem not_settledOnce_new : ¬ (new : Deferred ε α).SettledOnce := by
  simp [SettledOnce, new]

@[simp] theorem settledOnce_settlePending : (d.settlePending call).SettledOnce := by
  obtain ⟨settlements, honce⟩ := d
  cases settlements with
  | nil => rfl
  | cons first rest =>
    have hrest : rest = [] := by simpa using honce
    subst hrest
    rfl

@[simp] theorem settledOnce_resolvePending {a : α} : (d.resolvePending a).SettledOnce :=
  settledOnce_settlePending

@[simp] theorem settledOnce_rejectPending {e : ε} : (d.rejectPending e).SettledOnce :=
  settledOnce_settlePending

theorem settlements_nil (h : ¬ d.SettledOnce) : d.settlements = [] := by
  obtain ⟨settlements, honce⟩ := d
  cases settlements with
  | nil => rfl
  | cons first rest =>
    have hrest : rest = [] := by simpa using honce
    subst hrest
    exact absurd rfl h

theorem settlements_of_head? (h : d.settlements.head? = some call) : d.settlements = [call] := by
  obtain ⟨settlements, honce⟩ := d
  cases settlements with
  | nil => cases h
  | cons first rest =>
    have hrest : rest = [] := by simpa using honce
    subst hrest
    cases h
    rfl

/-- What is settled stays as it is. -/
theorem settlePending_of_settledOnce (h : d.SettledOnce) : d.settlePending call = d := by
  unfold settlePending
  rw [if_neg]
  intro hempty
  rw [SettledOnce, List.isEmpty_iff.mp hempty] at h
  cases h

/-- A rejection resolves nothing. -/
theorem resolved_rejectPending {a : α} {e : ε} :
    (d.rejectPending e).Resolved a ↔ d.Resolved a := by
  unfold rejectPending
  by_cases hd : d.SettledOnce
  · rw [settlePending_of_settledOnce hd]
  · have hnil := settlements_nil hd
    simp [settlePending, Resolved, hnil]

theorem not_resolved_new {a : α} : ¬ (new : Deferred ε α).Resolved a := by
  simp [Resolved, new]

end Deferred

theorem settled_eq_resolved :
    settled calls = .resolved a ↔ calls.head? = some (.ok a) := by
  rcases calls with _ | ⟨call, calls⟩
  · simp
  · cases call <;> simp

theorem settled_eq_rejected :
    settled calls = .rejected e ↔ calls.head? = some (.error e) := by
  rcases calls with _ | ⟨call, calls⟩
  · simp
  · cases call <;> simp

end Kit
