import Mathlib.Data.List.Nodup
import Mathlib.Data.List.Perm.Basic
import Mathlib.Data.List.Perm.Subperm
import Mathlib.Tactic.Common

/-!
# Kit — Exclusion

Choices among a fixed list of candidates by a chooser that is told whom to leave
out. Every choice is left out from then on; when the chooser finds nobody, the
one that was left out first is taken, and may be chosen again.
-/

namespace Kit

variable {ι : Type*}

/-- The chooser finds a candidate that is not excluded, if there is one. -/
structure Chooses (candidates : List ι) (choose : List ι → Option ι) : Prop where
  mem : ∀ excluded x, choose excluded = some x → x ∈ candidates ∧ x ∉ excluded
  exhausted : ∀ excluded, choose excluded = none → ∀ x ∈ candidates, x ∈ excluded

/-- One choice, with the excluded ones afterwards, latest first. -/
def choice (choose : List ι → Option ι) (excluded : List ι) : Option ι × List ι :=
  match choose excluded with
  | some x => (some x, x :: excluded)
  | none => (excluded.getLast?, excluded.dropLast)

/-- The excluded ones after a list of choices. -/
def excludedAfter : List (List ι → Option ι) → List ι → List ι
  | [], excluded => excluded
  | choose :: rest, excluded => excludedAfter rest (choice choose excluded).2

/-- Whom the choices take. -/
def chosen : List (List ι → Option ι) → List ι → List ι
  | [], _ => []
  | choose :: rest, excluded =>
    (choice choose excluded).1.toList ++ chosen rest (choice choose excluded).2

variable {candidates excluded : List ι} {choose choose' : List ι → Option ι}
  {chooses rest : List (List ι → Option ι)} {x p : ι}

@[simp] theorem chosen_nil : chosen [] excluded = ([] : List ι) := rfl

theorem chosen_cons : chosen (choose :: rest) excluded =
    (choice choose excluded).1.toList ++ chosen rest (choice choose excluded).2 := rfl

theorem chosen_append : chosen (chooses ++ rest) excluded =
    chosen chooses excluded ++ chosen rest (excludedAfter chooses excluded) := by
  induction chooses generalizing excluded with
  | nil => rfl
  | cons choose chooses ih =>
    rw [List.cons_append, chosen_cons, chosen_cons, ih, List.append_assoc]
    rfl

theorem choice_some (h : choose excluded = some x) :
    choice choose excluded = (some x, x :: excluded) := by
  simp [choice, h]

theorem choice_none (h : choose excluded = none) :
    choice choose excluded = (excluded.getLast?, excluded.dropLast) := by
  simp [choice, h]

/-! ## While somebody is left -/

/-- Different candidates are excluded, and there are others. -/
structure Open (candidates excluded : List ι) : Prop where
  nodup : excluded.Nodup
  subset : excluded ⊆ candidates
  lt : excluded.length < candidates.length

/-- Fewer excluded ones than different candidates leave somebody out. -/
theorem Open.exists_left (h : Open candidates excluded) (hcandidates : candidates.Nodup) :
    ∃ x ∈ candidates, x ∉ excluded := by
  by_contra hall
  have hsub : candidates ⊆ excluded := by
    intro x hx
    by_contra hout
    exact hall ⟨x, hx, hout⟩
  have hle : candidates.length ≤ excluded.length :=
    (List.subperm_of_subset hcandidates hsub).length_le
  exact absurd h.lt (by omega)

/-- A choice takes one of those that are left. -/
theorem Chooses.open_choice (hchooses : Chooses candidates choose)
    (hcandidates : candidates.Nodup) (h : Open candidates excluded) :
    ∃ x, x ∈ candidates ∧ x ∉ excluded ∧ choice choose excluded = (some x, x :: excluded) := by
  cases hx : choose excluded with
  | some x =>
    obtain ⟨hmem, hout⟩ := hchooses.mem excluded x hx
    exact ⟨x, hmem, hout, choice_some hx⟩
  | none =>
    obtain ⟨x, hmem, hout⟩ := h.exists_left hcandidates
    exact absurd (hchooses.exhausted excluded hx x hmem) hout

/-- As long as there are candidates for all of them, the choices take different ones, and what is
excluded is what was taken. -/
theorem excludedAfter_open (hcandidates : candidates.Nodup)
    (hchooses : ∀ choose ∈ chooses, Chooses candidates choose)
    (hnodup : excluded.Nodup) (hsubset : excluded ⊆ candidates)
    (hlength : excluded.length + chooses.length ≤ candidates.length) :
    excludedAfter chooses excluded = (chosen chooses excluded).reverse ++ excluded ∧
      (excludedAfter chooses excluded).Nodup ∧
      excludedAfter chooses excluded ⊆ candidates ∧
      (chosen chooses excluded).length = chooses.length := by
  induction chooses generalizing excluded with
  | nil => exact ⟨rfl, hnodup, hsubset, rfl⟩
  | cons choose chooses ih =>
    rw [List.length_cons] at hlength
    have hopen : Open candidates excluded := ⟨hnodup, hsubset, by omega⟩
    obtain ⟨x, hmem, hout, hchoice⟩ :=
      (hchooses choose (by simp)).open_choice hcandidates hopen
    obtain ⟨heq, hnodup', hsubset', hlen⟩ := ih
      (fun c hc => hchooses c (by simp [hc])) (List.nodup_cons.mpr ⟨hout, hnodup⟩)
      (List.cons_subset.mpr ⟨hmem, hsubset⟩) (by rw [List.length_cons]; omega)
    rw [excludedAfter, chosen_cons, hchoice]
    refine ⟨?_, hnodup', hsubset', ?_⟩
    · rw [heq]
      simp
    · simp [hlen, Nat.add_comm]

/-- From nobody excluded, as many choices as there are candidates take different ones. -/
theorem chosen_nodup (hcandidates : candidates.Nodup)
    (hchooses : ∀ choose ∈ chooses, Chooses candidates choose)
    (hlength : chooses.length ≤ candidates.length) :
    (chosen chooses []).Nodup ∧ chosen chooses [] ⊆ candidates ∧
      (chosen chooses []).length = chooses.length := by
  have hopen : ([] : List ι).length + chooses.length ≤ candidates.length := by simpa using hlength
  obtain ⟨heq, hnodup, hsubset, hlen⟩ := excludedAfter_open hcandidates hchooses
    List.nodup_nil (List.nil_subset _) hopen
  rw [heq, List.append_nil] at hnodup hsubset
  refine ⟨List.nodup_reverse.mp hnodup, fun x hx => hsubset (List.mem_reverse.mpr hx), hlen⟩

/-- The first choices, up to the number of the candidates. -/
theorem chosen_take (hcandidates : candidates.Nodup)
    (hchooses : ∀ choose ∈ chooses, Chooses candidates choose) :
    ((chosen chooses []).take candidates.length).Nodup ∧
      (chosen chooses []).take candidates.length ⊆ candidates ∧
      ((chosen chooses []).take candidates.length).length
        = min candidates.length chooses.length := by
  have hmem : ∀ choose ∈ chooses.take candidates.length, Chooses candidates choose :=
    fun choose h => hchooses choose (List.mem_of_mem_take h)
  obtain ⟨hnodup, hsubset, hlen⟩ := chosen_nodup hcandidates hmem (List.length_take_le _ _)
  rw [List.length_take] at hlen
  have heq : (chosen chooses []).take candidates.length
      = chosen (chooses.take candidates.length) [] := by
    conv_lhs => rw [← List.take_append_drop candidates.length chooses, chosen_append]
    by_cases hshort : chooses.length ≤ candidates.length
    · rw [List.drop_eq_nil_of_le hshort, chosen_nil, List.append_nil,
        List.take_of_length_le (by omega)]
    · rw [List.take_append_of_le_length (by omega), List.take_of_length_le (by omega)]
  rw [heq]
  exact ⟨hnodup, hsubset, hlen⟩

/-! ## When all are excluded -/

theorem Chooses.eq_none (hchoose : Chooses candidates choose)
    (hfull : excluded.Perm candidates) : choose excluded = none := by
  cases hx : choose excluded with
  | none => rfl
  | some x =>
    obtain ⟨hmem, hout⟩ := hchoose.mem excluded x hx
    exact absurd (hfull.mem_iff.mpr hmem) hout

/-- With everybody excluded the first one is taken again. -/
theorem chosen_full (hchoose : Chooses candidates choose)
    (hfull : (excluded ++ [p]).Perm candidates) :
    chosen (choose :: rest) (excluded ++ [p]) = p :: chosen rest excluded := by
  rw [chosen_cons, choice_none (hchoose.eq_none hfull), List.getLast?_concat,
    List.dropLast_concat]
  rfl

/-- And then it is the only one left, so that it is taken once more and is the latest. -/
theorem chosen_left (hcandidates : candidates.Nodup) (hchoose : Chooses candidates choose)
    (hfull : (excluded ++ [p]).Perm candidates) :
    chosen (choose :: rest) excluded = p :: chosen rest (p :: excluded) := by
  have hlast : choose excluded = some p := by
    cases hx : choose excluded with
    | some x =>
      obtain ⟨hmem, hout⟩ := hchoose.mem excluded x hx
      rcases List.mem_append.mp (hfull.mem_iff.mpr hmem) with hin | hp
      · exact absurd hin hout
      · rw [List.mem_singleton.mp hp]
    | none =>
      have hnodup : (excluded ++ [p]).Nodup := hfull.nodup_iff.mpr hcandidates
      have hp : p ∈ excluded := hchoose.exhausted excluded hx p (hfull.mem_iff.mp (by simp))
      rw [List.nodup_append] at hnodup
      exact absurd rfl (hnodup.2.2 p hp p (by simp))
  rw [chosen_cons, choice_some hlast]
  rfl

/-- The choices up to the point where all are excluded, and those after it. -/
theorem chosen_split (hcandidates : candidates.Nodup)
    (hchooses : ∀ choose ∈ chooses, Chooses candidates choose)
    (hlength : candidates.length ≤ chooses.length) (hne : candidates ≠ []) :
    ∃ first excluded p, first.Perm candidates ∧ (excluded ++ [p]).Perm candidates ∧
      chosen chooses [] = first ++ chosen (chooses.drop candidates.length) (excluded ++ [p]) := by
  have htake : (chooses.take candidates.length).length = candidates.length := by
    rw [List.length_take]
    omega
  have hmem : ∀ choose ∈ chooses.take candidates.length, Chooses candidates choose :=
    fun choose h => hchooses choose (List.mem_of_mem_take h)
  have hopen : ([] : List ι).length + (chooses.take candidates.length).length
      ≤ candidates.length := by simp [htake]
  obtain ⟨heq, hnodup, hsubset, hlen⟩ := excludedAfter_open hcandidates hmem
    List.nodup_nil (List.nil_subset _) hopen
  rw [List.append_nil] at heq
  have hlast : (excludedAfter (chooses.take candidates.length) []).length
      = candidates.length := by
    rw [heq, List.length_reverse, hlen, htake]
  have hfull : (excludedAfter (chooses.take candidates.length) []).Perm candidates :=
    (List.subperm_of_subset hnodup hsubset).perm_of_length_le (Nat.le_of_eq hlast.symm)
  have hsplit : chosen chooses [] = chosen (chooses.take candidates.length) [] ++
      chosen (chooses.drop candidates.length)
        (excludedAfter (chooses.take candidates.length) []) := by
    rw [← chosen_append, List.take_append_drop]
  -- the last one excluded was the first one taken
  have hne' : excludedAfter (chooses.take candidates.length) [] ≠ [] := by
    intro hnil
    rw [hnil] at hfull
    exact hne hfull.symm.eq_nil
  refine ⟨chosen (chooses.take candidates.length) [],
    (excludedAfter (chooses.take candidates.length) []).dropLast,
    (excludedAfter (chooses.take candidates.length) []).getLast hne', ?_, ?_, ?_⟩
  · refine (List.reverse_perm _).symm.trans ?_
    rwa [← heq]
  · rwa [List.dropLast_concat_getLast]
  · rwa [List.dropLast_concat_getLast]

/-! ## How often each is taken -/

/-- At every point the candidates were taken equally often, up to one. -/
def Balanced [DecidableEq ι] (candidates taken : List ι) : Prop :=
  ∀ before, before <+: taken → ∀ x ∈ candidates, ∀ y ∈ candidates,
    before.count x ≤ before.count y + 1

theorem balanced_of_nodup [DecidableEq ι] {taken : List ι} (h : taken.Nodup) :
    Balanced candidates taken := by
  intro before hbefore x hx y hy
  have hcount := List.nodup_iff_count_le_one.mp (h.sublist hbefore.sublist) x
  omega

theorem balanced_append_one [DecidableEq ι] {first : List ι} (hcandidates : candidates.Nodup)
    (hfirst : first.Perm candidates) : Balanced candidates (first ++ [p]) := by
  intro before hbefore x hx y hy
  rcases List.prefix_concat_iff.mp hbefore with rfl | hbefore
  · have hx1 : first.count x = 1 :=
      (hfirst.count_eq x).trans (List.count_eq_one_of_mem hcandidates hx)
    have hy1 : first.count y = 1 :=
      (hfirst.count_eq y).trans (List.count_eq_one_of_mem hcandidates hy)
    have hp : [p].count x ≤ 1 := by
      rw [List.count_singleton]
      split <;> omega
    rw [List.count_append, List.count_append]
    omega
  · exact balanced_of_nodup (hfirst.nodup_iff.mpr hcandidates) before hbefore x hx y hy

/-- Taken a third time when the others were taken once: that is out of balance. -/
theorem not_balanced_append_two [DecidableEq ι] {first more : List ι}
    (hcandidates : candidates.Nodup) (hfirst : first.Perm candidates)
    (hp : p ∈ candidates) (hlength : 2 ≤ candidates.length) :
    ¬ Balanced candidates (first ++ p :: p :: more) := by
  intro hbalanced
  obtain ⟨q, hq, hqp⟩ : ∃ q ∈ candidates, q ≠ p := by
    by_contra hall
    have hsub : candidates ⊆ [p] := by
      intro x hx
      by_contra hne
      exact hall ⟨x, hx, fun h => hne (by simp [h])⟩
    have hle := (List.subperm_of_subset hcandidates hsub).length_le
    rw [List.length_singleton] at hle
    omega
  have hpre : first ++ [p, p] <+: first ++ p :: p :: more := ⟨more, by simp⟩
  have hcount := hbalanced _ hpre p hp q hq
  have hp1 : first.count p = 1 :=
    (hfirst.count_eq p).trans (List.count_eq_one_of_mem hcandidates hp)
  have hq1 : first.count q = 1 :=
    (hfirst.count_eq q).trans (List.count_eq_one_of_mem hcandidates hq)
  have hpp : [p, p].count p = 2 := by simp
  have hqq : [p, p].count q = 0 := List.count_eq_zero.mpr (by simp [hqp])
  rw [List.count_append, List.count_append, hp1, hq1, hpp, hqq] at hcount
  omega

/-- The choices stay in balance exactly until one more than there are candidates. -/
theorem balanced_chosen_iff [DecidableEq ι] (hcandidates : candidates.Nodup)
    (htwo : 2 ≤ candidates.length) (hchooses : ∀ choose ∈ chooses, Chooses candidates choose) :
    Balanced candidates (chosen chooses []) ↔ chooses.length ≤ candidates.length + 1 := by
  by_cases hshort : chooses.length ≤ candidates.length
  · exact ⟨fun _ => by omega,
      fun _ => balanced_of_nodup (chosen_nodup hcandidates hchooses hshort).1⟩
  have hne : candidates ≠ [] := List.ne_nil_of_length_pos (by omega)
  obtain ⟨first, excluded, p, hfirst, hfull, hchosen⟩ :=
    chosen_split hcandidates hchooses (by omega) hne
  have hp : p ∈ candidates := hfull.mem_iff.mp (by simp)
  have hdrop : ∀ choose ∈ chooses.drop candidates.length, Chooses candidates choose :=
    fun choose h => hchooses choose (List.mem_of_mem_drop h)
  have hlength : (chooses.drop candidates.length).length
      = chooses.length - candidates.length := List.length_drop
  rw [hchosen]
  match hrest : chooses.drop candidates.length with
  | [] =>
    rw [hrest, List.length_nil] at hlength
    omega
  | [choose] =>
    rw [hrest, List.length_singleton] at hlength
    rw [chosen_full (hdrop choose (by simp [hrest])) hfull]
    exact ⟨fun _ => by omega, fun _ => balanced_append_one hcandidates hfirst⟩
  | choose :: choose' :: rest =>
    rw [hrest, List.length_cons, List.length_cons] at hlength
    rw [chosen_full (hdrop choose (by simp [hrest])) hfull,
      chosen_left hcandidates (hdrop choose' (by simp [hrest])) hfull]
    exact ⟨fun h => absurd h (not_balanced_append_two hcandidates hfirst hp htwo),
      fun _ => by omega⟩

end Kit
