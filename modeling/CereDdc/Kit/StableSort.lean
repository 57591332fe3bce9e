import Mathlib.Data.List.Pairwise

/-!
# Kit — StableSort

A list that is sorted by one key and then, with a stable sort, by another one is
sorted by both: the first key decides where the second leaves it open.
-/

namespace Kit

variable {α : Type*} {le : α → α → Bool} {l : List α}

/-- The elements that come neither before nor after `x` stay in their order. -/
theorem filter_mergeSort (trans : ∀ a b c, le a b → le b c → le a c)
    (total : ∀ a b, le a b || le b a) (l : List α) (x : α) :
    (l.mergeSort le).filter (fun y => le x y && le y x) = l.filter fun y => le x y && le y x := by
  have hties : (l.filter fun y => le x y && le y x).Pairwise fun a b => le a b := by
    refine List.pairwise_filter.mpr (List.pairwise_of_forall fun a b ha hb => ?_)
    rw [Bool.and_eq_true] at ha hb
    exact trans a x b ha.2 hb.1
  have hsublist := (List.sublist_mergeSort trans total hties List.filter_sublist).filter
    fun y => le x y && le y x
  rw [List.filter_filter] at hsublist
  simp only [Bool.and_self] at hsublist
  refine (hsublist.eq_of_length ?_).symm
  exact ((List.mergeSort_perm l le).filter _).length_eq.symm

/-- A stable sort keeps the order of a list where it does not have an order of its own. -/
theorem pairwise_mergeSort_ties {r : α → α → Prop} (trans : ∀ a b c, le a b → le b c → le a c)
    (total : ∀ a b, le a b || le b a) (h : l.Pairwise r) :
    (l.mergeSort le).Pairwise fun a b => le a b ∧ (le b a → r a b) := by
  refine (List.pairwise_mergeSort trans total l).and ?_
  rw [List.pairwise_iff_forall_sublist]
  intro a b hab hba
  have hrefl : le a a := by simpa using total a a
  have hle : le a b := (List.pairwise_iff_forall_sublist.mp
    (List.pairwise_mergeSort trans total l)) hab
  have hsublist := hab.filter fun y => le a y && le y a
  rw [filter_mergeSort trans total] at hsublist
  simp only [List.filter_cons, List.filter_nil, hrefl, hle, hba, Bool.and_self, if_true]
    at hsublist
  exact (List.pairwise_iff_forall_sublist.mp h) (hsublist.trans List.filter_sublist)

/-- Two elements of a list stand in its order one way or the other. -/
theorem pairwise_or {r : α → α → Prop} (h : l.Pairwise r) {a b : α} (ha : a ∈ l) (hb : b ∈ l)
    (hne : a ≠ b) : r a b ∨ r b a := by
  have : Std.Symm fun a b => r a b ∨ r b a := ⟨fun _ _ => Or.symm⟩
  have hboth : l.Pairwise fun a b => r a b ∨ r b a := h.imp Or.inl
  exact hboth.forall ha hb hne

end Kit
