import Mathlib.Data.List.Basic
import Mathlib.Tactic.Common

/-!
# Kit — Readable

A stream between a producer and a reader. The producer enqueues values and closes
the stream or fails it; the reader gets the values in their order, and the end once
the queue is empty. A failure drops what is in the queue.
-/

namespace Kit

inductive ReadableState (ε : Type*)
  | readable
  | closing
  | failed (e : ε)

/-- What a reader is told: the next value, the end, or the failure. -/
inductive ReadResult (ε α : Type*)
  | value (a : α)
  | done
  | failed (e : ε)

structure Readable (ε α : Type*) where
  queue : List α := []
  state : ReadableState ε := .readable
  /-- How often the stream was closed. -/
  closings : Nat := 0

namespace Readable

variable {ε α : Type*}

def enqueue (r : Readable ε α) (values : List α) : Readable ε α :=
  { r with queue := r.queue ++ values }

def close (r : Readable ε α) : Readable ε α :=
  { r with state := .closing, closings := r.closings + 1 }

def fail (r : Readable ε α) (e : ε) : Readable ε α := { r with queue := [], state := .failed e }

/-- `none` as long as the reader has to wait. -/
def read (r : Readable ε α) : Option (ReadResult ε α × Readable ε α) :=
  match r.queue, r.state with
  | a :: queue, _ => some (.value a, { r with queue })
  | [], .closing => some (.done, r)
  | [], .failed e => some (.failed e, r)
  | [], .readable => none

variable {r r' : Readable ε α} {result : ReadResult ε α} {values passed : List α} {e : ε}

/-- A reader takes the first value, or finds the queue empty. -/
theorem read_cases (h : r.read = some (result, r')) :
    (∃ a queue, result = .value a ∧ r.queue = a :: queue ∧ r' = { r with queue }) ∨
    (r' = r ∧ r.queue = [] ∧
      (result = .done ∧ r.state = .closing ∨ ∃ e, result = .failed e ∧ r.state = .failed e)) := by
  unfold read at h
  split at h
  · next state a queue hqueue =>
    cases h
    exact .inl ⟨a, queue, rfl, hqueue, rfl⟩
  · next hqueue hstate =>
    cases h
    exact .inr ⟨rfl, hqueue, .inl ⟨rfl, hstate⟩⟩
  · next e hqueue hstate =>
    cases h
    exact .inr ⟨rfl, hqueue, .inr ⟨e, rfl, hstate⟩⟩
  · cases h

theorem read_of_queue {a : α} {queue : List α} (h : r.queue = a :: queue) :
    r.read = some (.value a, { r with queue }) := by
  unfold read
  rw [h]

theorem read_of_closing (hqueue : r.queue = []) (hstate : r.state = .closing) :
    r.read = some (.done, r) := by
  unfold read
  rw [hqueue, hstate]

theorem read_of_failed (hqueue : r.queue = []) (hstate : r.state = .failed e) :
    r.read = some (.failed e, r) := by
  unfold read
  rw [hqueue, hstate]

/-! ## What passes through a stream -/

/-- What the stream still holds and its producer may still give it are the values of `rest`, after
those that have `passed`: `whole` in all, with an end or a failure as `ending` has it. -/
structure Carries (r : Readable ε α) (passed whole : List α) (ending : Except ε Unit)
    (rest : List α) : Prop where
  readable : r.state = .readable → passed ++ r.queue ++ rest = whole ∧ r.closings = 0
  closing : r.state = .closing → passed ++ r.queue = whole ∧ ending = .ok () ∧ r.closings = 1
  failed : ∀ e, r.state = .failed e → ending = .error e ∧ r.queue = [] ∧ r.closings = 0 ∧
    passed <+: whole

variable {whole rest : List α} {ending : Except ε Unit}

theorem carries_initial : Carries ({} : Readable ε α) [] whole ending whole where
  readable := fun _ => ⟨rfl, rfl⟩
  closing := by
    intro h
    cases h
  failed := by
    intro e h
    cases h

/-- The reader takes a value. -/
theorem Carries.read {a : α} {queue : List α} (h : r.Carries passed whole ending rest)
    (hqueue : r.queue = a :: queue) :
    Carries { r with queue } (passed ++ [a]) whole ending rest where
  readable := by
    intro hstate
    obtain ⟨hwhole, hclosings⟩ := h.readable hstate
    rw [hqueue] at hwhole
    exact ⟨by simpa using hwhole, hclosings⟩
  closing := by
    intro hstate
    obtain ⟨hwhole, hending, hclosings⟩ := h.closing hstate
    rw [hqueue] at hwhole
    exact ⟨by simpa using hwhole, hending, hclosings⟩
  failed := by
    intro e hstate
    obtain ⟨-, hempty, -⟩ := h.failed e hstate
    rw [hqueue] at hempty
    cases hempty

/-- What has not passed yet is in the queue or still to come. -/
theorem Carries.left {left : List α} (h : r.Carries passed whole ending rest)
    (hleft : passed ++ left = whole) {a : α} {queue : List α} (hqueue : r.queue = a :: queue) :
    ∃ left', left = a :: left' := by
  cases hstate : r.state with
  | readable =>
    obtain ⟨hwhole, -⟩ := h.readable hstate
    rw [← hleft, List.append_assoc, List.append_cancel_left_eq, hqueue] at hwhole
    exact ⟨queue ++ rest, hwhole.symm⟩
  | closing =>
    obtain ⟨hwhole, -⟩ := h.closing hstate
    rw [← hleft, List.append_cancel_left_eq, hqueue] at hwhole
    exact ⟨queue, hwhole.symm⟩
  | failed e =>
    obtain ⟨-, hempty, -⟩ := h.failed e hstate
    rw [hqueue] at hempty
    cases hempty

/-- At the end of the stream everything has passed. -/
theorem Carries.left_nil {left : List α} (h : r.Carries passed whole ending rest)
    (hleft : passed ++ left = whole) (hqueue : r.queue = []) (hstate : r.state = .closing) :
    left = [] := by
  obtain ⟨hwhole, -⟩ := h.closing hstate
  rw [← hleft, hqueue, List.append_cancel_left_eq] at hwhole
  exact hwhole.symm

/-- The producer gives values. -/
theorem Carries.enqueue (h : r.Carries passed whole ending (values ++ rest))
    (hstate : r.state = .readable) : (r.enqueue values).Carries passed whole ending rest where
  readable := by
    intro _
    obtain ⟨hwhole, hclosings⟩ := h.readable hstate
    exact ⟨by simpa [Readable.enqueue] using hwhole, hclosings⟩
  closing := by
    intro hclosing
    rw [show (r.enqueue values).state = r.state from rfl, hstate] at hclosing
    cases hclosing
  failed := by
    intro e hfailed
    rw [show (r.enqueue values).state = r.state from rfl, hstate] at hfailed
    cases hfailed

/-- The producer has given everything, and closes the stream. -/
theorem Carries.close {rest' : List α} (h : r.Carries passed whole (.ok ()) [])
    (hstate : r.state = .readable) : r.close.Carries passed whole (.ok ()) rest' where
  readable := by
    intro hreadable
    cases hreadable
  closing := by
    intro _
    obtain ⟨hwhole, hclosings⟩ := h.readable hstate
    refine ⟨by simpa [Readable.close] using hwhole, rfl, ?_⟩
    simp [Readable.close, hclosings]
  failed := by
    intro e hfailed
    cases hfailed

/-- The producer fails. -/
theorem Carries.fail {rest' : List α} (h : r.Carries passed whole (.error e) rest)
    (hstate : r.state = .readable) : (r.fail e).Carries passed whole (.error e) rest' where
  readable := by
    intro hreadable
    cases hreadable
  closing := by
    intro hclosing
    cases hclosing
  failed := by
    intro e' hfailed
    cases hfailed
    obtain ⟨hwhole, hclosings⟩ := h.readable hstate
    refine ⟨rfl, rfl, hclosings, ?_⟩
    rw [← hwhole, List.append_assoc]
    exact List.prefix_append _ _

end Readable

end Kit
