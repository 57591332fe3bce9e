import Mathlib.Tactic.Common

/-!
# Kit — Heap

Arrays that are passed around by reference. An allocation makes a new array; a
write changes one array in place, for everybody who holds its reference. What a
piece of code may count on is that the arrays it knows are extended, not written.
-/

namespace Kit

/-- The reference of an array. -/
abbrev Ref := Nat

/-- The arrays there are. -/
structure Heap (α : Type*) where
  cells : List (List α) := []

namespace Heap

variable {α : Type*} {h h' h'' : Heap α} {r r' : Ref} {array : List α}

def size (h : Heap α) : Nat := h.cells.length

def read (h : Heap α) (r : Ref) : List α := h.cells.getD r []

/-- A new array. -/
def alloc (h : Heap α) (array : List α) : Heap α × Ref := (⟨h.cells ++ [array]⟩, h.size)

/-- The array is changed in place. -/
def write (h : Heap α) (r : Ref) (array : List α) : Heap α := ⟨h.cells.set r array⟩

@[simp] theorem alloc_ref : (h.alloc array).2 = h.size := rfl

@[simp] theorem size_alloc : (h.alloc array).1.size = h.size + 1 := by
  simp [size, alloc]

@[simp] theorem size_write : (h.write r array).size = h.size := by
  simp [size, write]

@[simp] theorem read_alloc_self : (h.alloc array).1.read h.size = array := by
  simp [read, alloc, size, List.getD]

theorem read_alloc_of_lt (hr : r < h.size) : (h.alloc array).1.read r = h.read r := by
  unfold size at hr
  simp [read, alloc, List.getD, List.getElem?_append_left hr]

@[simp] theorem read_write_self (hr : r < h.size) : (h.write r array).read r = array := by
  unfold size at hr
  simp [read, write, List.getD, hr]

theorem read_write_of_ne (hne : r' ≠ r) : (h.write r array).read r' = h.read r' := by
  simp [read, write, List.getD, List.getElem?_set_ne hne.symm]

/-! ## Extensions -/

/-- The arrays of `h` are all there in `h'`, as they were. -/
structure Extends (h h' : Heap α) : Prop where
  size_le : h.size ≤ h'.size
  read_eq : ∀ r, r < h.size → h'.read r = h.read r

theorem Extends.refl (h : Heap α) : h.Extends h := ⟨Nat.le_refl _, fun _ _ => rfl⟩

theorem Extends.trans (h₁ : h.Extends h') (h₂ : h'.Extends h'') : h.Extends h'' where
  size_le := Nat.le_trans h₁.size_le h₂.size_le
  read_eq := by
    intro r hr
    rw [h₂.read_eq r (Nat.lt_of_lt_of_le hr h₁.size_le), h₁.read_eq r hr]

theorem extends_alloc (h : Heap α) (array : List α) : h.Extends (h.alloc array).1 where
  size_le := by simp
  read_eq := fun _ hr => read_alloc_of_lt hr

/-- An array that came after those of `h` may be written. -/
theorem Extends.write (hext : h.Extends h') (hr : h.size ≤ r) : h.Extends (h'.write r array) where
  size_le := by simpa using hext.size_le
  read_eq := by
    intro r' hr'
    have hne : r' ≠ r := by omega
    rw [read_write_of_ne hne, hext.read_eq r' hr']

/-- An array that is made and then written. -/
def build (h : Heap α) (array : List α) (f : List α → List α) : Heap α × Ref :=
  let made := h.alloc array
  (made.1.write made.2 (f (made.1.read made.2)), made.2)

variable {f : List α → List α}

@[simp] theorem build_ref : (h.build array f).2 = h.size := rfl

@[simp] theorem size_build : (h.build array f).1.size = h.size + 1 := by
  simp [build]

@[simp] theorem read_build_self : (h.build array f).1.read h.size = f array := by
  simp [build]

theorem extends_build (h : Heap α) (array : List α) (f : List α → List α) :
    h.Extends (h.build array f).1 :=
  (h.extends_alloc array).write (Nat.le_refl _)

end Heap

end Kit
