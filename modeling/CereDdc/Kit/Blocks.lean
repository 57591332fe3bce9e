import Mathlib.Data.List.Basic
import Mathlib.Tactic.Common

/-!
# Kit — Blocks

Cutting a sequence into blocks of one size. `FixedBlocks n bs` says that every
block of `bs` has length `n`, but for a last one that may be shorter and is
never empty. The blocks are determined by the size and the sequence they spell
(`FixedBlocks.unique`), and so are their number and the offset of each.
-/

namespace Kit

variable {α : Type*}

theorem length_flatten_le {bs cs : List (List α)} (h : bs <+: cs) :
    bs.flatten.length ≤ cs.flatten.length := by
  obtain ⟨rest, rfl⟩ := h
  rw [List.flatten_append, List.length_append]
  exact Nat.le_add_right _ _

/-- Blocks of length `n`, the last one possibly shorter and never empty. -/
inductive FixedBlocks (n : Nat) : List (List α) → Prop
  | nil : FixedBlocks n []
  | last {b : List α} : 0 < b.length → b.length ≤ n → FixedBlocks n [b]
  | cons {b c : List α} {bs : List (List α)} :
      b.length = n → FixedBlocks n (c :: bs) → FixedBlocks n (b :: c :: bs)

namespace FixedBlocks

variable {n : Nat} {b : List α} {bs cs full : List (List α)}

theorem tail (h : FixedBlocks n (b :: bs)) : FixedBlocks n bs := by
  cases h with
  | last => exact .nil
  | cons _ hbs => exact hbs

theorem head_length_le (h : FixedBlocks n (b :: bs)) : b.length ≤ n := by
  cases h with
  | last _ hle => exact hle
  | cons hb => exact Nat.le_of_eq hb

theorem head_length_pos (hn : 0 < n) (h : FixedBlocks n (b :: bs)) : 0 < b.length := by
  cases h with
  | last hpos => exact hpos
  | cons hb => omega

/-- A short head is the only block. -/
theorem head_length_eq (h : FixedBlocks n (b :: bs)) (hbs : bs ≠ []) : b.length = n := by
  cases h with
  | last => exact absurd rfl hbs
  | cons hb => exact hb

theorem length_le_of_mem (h : FixedBlocks n bs) (hb : b ∈ bs) : b.length ≤ n := by
  induction bs with
  | nil => simp at hb
  | cons c cs ih =>
    rcases List.mem_cons.mp hb with rfl | hb
    · exact h.head_length_le
    · exact ih h.tail hb

theorem length_pos_of_mem (hn : 0 < n) (h : FixedBlocks n bs) (hb : b ∈ bs) : 0 < b.length := by
  induction bs with
  | nil => simp at hb
  | cons c cs ih =>
    rcases List.mem_cons.mp hb with rfl | hb
    · exact h.head_length_pos hn
    · exact ih h.tail hb

/-- Full blocks in front of blocks are blocks, once something follows. -/
theorem append (hfull : ∀ b ∈ full, b.length = n) (hn : 0 < n) (h : FixedBlocks n bs) :
    FixedBlocks n (full ++ bs) := by
  induction full with
  | nil => exact h
  | cons b full ih =>
    have hb : b.length = n := hfull b (by simp)
    have hrest : FixedBlocks n (full ++ bs) := ih (fun c hc => hfull c (by simp [hc]))
    rw [List.cons_append]
    cases hfb : full ++ bs with
    | nil => exact .last (by omega) (by omega)
    | cons c cs =>
      rw [hfb] at hrest
      exact .cons hb hrest

/-- The block size and the sequence fix the blocks. -/
theorem unique (hn : 0 < n) (hb : FixedBlocks n bs) (hc : FixedBlocks n cs)
    (h : bs.flatten = cs.flatten) : bs = cs := by
  induction bs generalizing cs with
  | nil =>
    cases cs with
    | nil => rfl
    | cons c cs =>
      have hpos := hc.head_length_pos hn
      have hlen := congrArg List.length h
      simp only [List.flatten_nil, List.length_nil, List.flatten_cons, List.length_append] at hlen
      omega
  | cons b bs ih =>
    cases cs with
    | nil =>
      have hpos := hb.head_length_pos hn
      have hlen := congrArg List.length h
      simp only [List.flatten_nil, List.length_nil, List.flatten_cons, List.length_append] at hlen
      omega
    | cons c cs =>
      simp only [List.flatten_cons] at h
      have hlen := congrArg List.length h
      simp only [List.length_append] at hlen
      -- a head that is shorter than the other one is the last block, so nothing makes up for it
      have heq : b.length = c.length := by
        have hbn := hb.head_length_le
        have hcn := hc.head_length_le
        rcases Nat.lt_trichotomy b.length c.length with hlt | heq | hgt
        · have hbs : bs = [] := by
            by_contra hne
            have := hb.head_length_eq hne
            omega
          subst hbs
          simp only [List.flatten_nil, List.length_nil] at hlen
          omega
        · exact heq
        · have hcs : cs = [] := by
            by_contra hne
            have := hc.head_length_eq hne
            omega
          subst hcs
          simp only [List.flatten_nil, List.length_nil] at hlen
          omega
      obtain ⟨rfl, hrest⟩ := List.append_inj h heq
      rw [ih hb.tail hc.tail hrest]

theorem take (hn : 0 < n) (h : FixedBlocks n bs) (m : Nat) : FixedBlocks n (bs.take m) := by
  induction h generalizing m with
  | nil => simpa using FixedBlocks.nil
  | last hpos hle =>
    cases m with
    | zero => exact .nil
    | succ m => simpa using FixedBlocks.last hpos hle
  | @cons b c bs hb _ ih =>
    match m with
    | 0 => exact .nil
    | 1 => exact .last (by omega) (by omega)
    | m + 2 =>
      have hrest := ih (m + 1)
      rw [List.take_succ_cons] at hrest
      rw [List.take_succ_cons, List.take_succ_cons]
      exact .cons hb hrest

/-- Every block that has a successor starts at a multiple of the block size. -/
theorem offset (h : FixedBlocks n bs) {i : Nat} (hi : i < bs.length) :
    (bs.take i).flatten.length = i * n := by
  induction bs generalizing i with
  | nil => simp at hi
  | cons b bs ih =>
    cases i with
    | zero => simp
    | succ i =>
      have hi' : i < bs.length := by simpa using hi
      have hne : bs ≠ [] := List.ne_nil_of_length_pos (by omega)
      rw [List.take_succ_cons, List.flatten_cons, List.length_append, ih h.tail hi',
        h.head_length_eq hne, Nat.succ_mul]
      omega

theorem getElem_length (h : FixedBlocks n bs) {i : Nat} (hi : i < bs.length)
    (hsucc : i + 1 < bs.length) : bs[i].length = n := by
  induction bs generalizing i with
  | nil => simp at hi
  | cons b bs ih =>
    cases i with
    | zero =>
      have hne : bs ≠ [] := List.ne_nil_of_length_pos (by simpa using hsucc)
      exact h.head_length_eq hne
    | succ i => exact ih h.tail (by simpa using hi) (by simpa using hsucc)

/-- The number of blocks is the length of the sequence over `n`, rounded up. -/
theorem length_eq (hn : 0 < n) (h : FixedBlocks n bs) :
    bs.length = (bs.flatten.length + n - 1) / n := by
  induction h with
  | nil => simp [Nat.div_eq_of_lt (by omega : n - 1 < n)]
  | @last b hpos hle =>
    have : b.length + n - 1 = (b.length - 1) + 1 * n := by omega
    simp only [List.length_singleton, List.flatten_singleton, this]
    rw [Nat.add_mul_div_right _ _ hn, Nat.div_eq_of_lt (by omega)]
  | @cons b c bs hb _ ih =>
    have hlen : (b :: c :: bs).flatten.length + n - 1
        = ((c :: bs).flatten.length + n - 1) + 1 * n := by
      have : (b :: c :: bs).flatten.length = b.length + (c :: bs).flatten.length := by simp
      omega
    rw [List.length_cons, ih, hlen, Nat.add_mul_div_right _ _ hn]

/-- More than one block's worth of data makes more than one block. -/
theorem one_lt_length (h : FixedBlocks n bs) (hlen : n < bs.flatten.length) : 1 < bs.length := by
  match bs, h with
  | [], _ => simp at hlen
  | [b], h =>
    have := h.head_length_le
    simp at hlen
    omega
  | _ :: _ :: _, _ => simp

end FixedBlocks

end Kit
