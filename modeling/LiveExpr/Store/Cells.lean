/-!
A row of cells. A cell is known by its index alone, and reading one that was never written gives the default
content, so reading and writing never fail. A new cell gets the first index that is not in use.
-/

namespace LiveExpr

structure Cells (α : Type) where
  contents : Array α
deriving Inhabited

namespace Cells

variable {α : Type} [Inhabited α]

def empty : Cells α := ⟨#[]⟩

/-- The number of cells in use. -/
def size (cells : Cells α) : Nat :=
  cells.contents.size

def get (cells : Cells α) (index : Nat) : α :=
  cells.contents.getD index default

/-- Writes a cell. The cells before it come into use. -/
def set (cells : Cells α) (index : Nat) (value : α) : Cells α :=
  if index < cells.contents.size then ⟨cells.contents.setIfInBounds index value⟩
  else ⟨(cells.contents ++ Array.replicate (index - cells.contents.size) default).push value⟩

/-- Adds a cell. Its index is the size before. -/
def push (cells : Cells α) (value : α) : Cells α :=
  ⟨cells.contents.push value⟩

/-! ## Reading after writing -/

omit [Inhabited α] in
@[simp] theorem size_push (cells : Cells α) (value : α) : (cells.push value).size = cells.size + 1 := by
  simp [size, push]

theorem size_le_set (cells : Cells α) (index : Nat) (value : α) : cells.size ≤ (cells.set index value).size := by
  unfold set size
  split
  · simp
  · simp only [Array.size_push, Array.size_append, Array.size_replicate]
    omega

theorem lt_size_set (cells : Cells α) (index : Nat) (value : α) :
    index < (cells.set index value).size := by
  unfold set size
  split
  · simpa
  · simp only [Array.size_push, Array.size_append, Array.size_replicate]
    omega

@[simp] theorem get_set_same (cells : Cells α) (index : Nat) (value : α) :
    (cells.set index value).get index = value := by
  unfold set get
  split
  · simp_all
  · simp only [Array.getD_eq_getD_getElem?, Array.getElem?_push, Array.size_append, Array.size_replicate]
    rw [if_pos (by omega)]
    rfl

theorem get_set_other (cells : Cells α) {index other : Nat} (different : other ≠ index) (value : α) :
    (cells.set index value).get other = cells.get other := by
  unfold set get
  split
  · simp [Array.getD_eq_getD_getElem?, Array.getElem?_setIfInBounds_ne (Ne.symm different)]
  · simp only [Array.getD_eq_getD_getElem?, Array.getElem?_push, Array.size_append, Array.size_replicate,
      Array.getElem?_append, Array.getElem?_replicate]
    split
    · omega
    · split
      · rfl
      · split
        · rw [Array.getElem?_eq_none (by omega)]; rfl
        · rw [Array.getElem?_eq_none (by omega)]

/-- Writing into a cell in use what it holds changes nothing. -/
theorem set_get (cells : Cells α) {index : Nat} (inUse : index < cells.size) :
    cells.set index (cells.get index) = cells := by
  have bound : index < cells.contents.size := inUse
  unfold set get
  rw [if_pos bound]
  have same : cells.contents.getD index default = cells.contents[index] := by
    simp [Array.getD_eq_getD_getElem?, bound]
  rw [same, Array.setIfInBounds, dif_pos bound, Array.set_getElem_self]

@[simp] theorem get_push_same (cells : Cells α) (value : α) :
    (cells.push value).get cells.size = value := by
  simp [get, push, size, Array.getD_eq_getD_getElem?]

theorem get_push_other (cells : Cells α) {index : Nat} (different : index ≠ cells.size) (value : α) :
    (cells.push value).get index = cells.get index := by
  simp only [get, push, size] at *
  simp [Array.getD_eq_getD_getElem?, Array.getElem?_push, different]

theorem get_of_size_le {cells : Cells α} {index : Nat} (unused : cells.size ≤ index) : cells.get index = default := by
  simp [get, Array.getD_eq_getD_getElem?, Array.getElem?_eq_none unused]

end Cells

end LiveExpr
