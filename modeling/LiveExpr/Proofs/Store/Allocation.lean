import LiveExpr.Proofs.Compile.Soundness
import LiveExpr.Proofs.Compile.Relabeling
import LiveExpr.Proofs.Node.Trace
import LiveExpr.Proofs.Store.Growth

/-!
Cells of all kinds: which of them are in use, and which comes into use next. Of a relabeling, all that matters for the
cells that come into use is how many of each kind are in use already.
-/

namespace LiveExpr

/-! ## Cells -/

namespace Cell

def kind : Cell → Kind
  | number _ => .scalar
  | string _ => .string
  | vector _ => .vector

def index : Cell → Nat
  | number cell => cell.index
  | string cell => cell.index
  | vector cell => cell.index

def ofKind (index : Nat) : Kind → Cell
  | .scalar => number ⟨index⟩
  | .string => string ⟨index⟩
  | .vector => vector ⟨index⟩

@[simp] theorem kind_ofKind (index : Nat) (kind : Kind) : (ofKind index kind).kind = kind := by
  cases kind <;> rfl

@[simp] theorem index_ofKind (index : Nat) (kind : Kind) : (ofKind index kind).index = index := by
  cases kind <;> rfl

@[simp] theorem ofKind_index (cell : Cell) : ofKind cell.index cell.kind = cell := by
  cases cell <;> rfl

/-- The binding that makes the name of a declared variable stand for the cell. -/
def binding : Cell → Binding
  | number cell => .scalar cell false
  | string cell => .string cell false
  | vector cell => .vector cell

end Cell

/-- The cell that a name stands for, unless it stands for a function. -/
def Binding.cell? : Binding → Option Cell
  | scalar cell _ => some (.number cell)
  | string cell _ => some (.string cell)
  | vector cell => some (.vector cell)
  | function _ => none

/-- How many cells of each kind are in use, or will be. -/
abbrev Frontier : Type :=
  Kind → Nat

def Store.frontier (store : Store) : Frontier
  | .scalar => store.numbers.size
  | .string => store.strings.size
  | .vector => store.vectors.size

def Frontier.past (frontier : Frontier) (kind : Kind) : Frontier :=
  fun other => if other = kind then frontier other + 1 else frontier other

/-- Whether the cell is in use. -/
def Cell.IsInUse (store : Store) (cell : Cell) : Prop :=
  cell.index < store.frontier cell.kind

theorem Store.Extends.frontier {before after : Store} (grown : before.Extends after) (kind : Kind) :
    before.frontier kind ≤ after.frontier kind := by
  cases kind with
  | scalar => exact grown.numbers
  | string => exact grown.strings
  | vector => exact grown.vectors

theorem Cell.IsInUse.extend {before after : Store} {cell : Cell} (inUse : cell.IsInUse before)
    (grown : before.Extends after) : cell.IsInUse after :=
  Nat.lt_of_lt_of_le inUse (grown.frontier cell.kind)

theorem Binding.isInUse_of_cell? {binding : Binding} {cell : Cell} {store : Store} (holds : binding.cell? = some cell)
    (inUse : binding.IsInUse store) : cell.IsInUse store := by
  cases binding <;> cases holds <;> exact inUse

@[simp] theorem Cell.cell?_binding (cell : Cell) : cell.binding.cell? = some cell := by
  cases cell <;> rfl

/-! ## Allocating -/

namespace Store

def allocate (store : Store) : Value → Cell × Store
  | .number value => (.number (store.newNumber value).1, (store.newNumber value).2)
  | .text content => (.string (store.newString content).1, (store.newString content).2)
  | .vector values => (.vector (store.newVector values).1, (store.newVector values).2)

variable (store other : Store) (content : Value)

theorem grows_allocate : store.Grows (store.allocate content).2 := by
  cases content with
  | number value => exact .newNumber store value
  | text content => exact .newString store content
  | vector values => exact .newVector store values

theorem allocate_cell : (other.allocate content).1 =
    .ofKind (other.frontier (store.allocate content).1.kind) (store.allocate content).1.kind := by
  cases content <;> rfl

theorem frontier_allocate :
    (other.allocate content).2.frontier = other.frontier.past (store.allocate content).1.kind := by
  funext kind
  cases content <;> cases kind <;>
    simp [allocate, frontier, Frontier.past, newNumber, newString, newVector, Cell.kind]

theorem not_isInUse_allocate : ¬(store.allocate content).1.IsInUse store := by
  cases content <;> exact Nat.lt_irrefl _

theorem isInUse_allocate : (store.allocate content).1.IsInUse (store.allocate content).2 := by
  cases content <;> exact Nat.lt_of_lt_of_eq (Nat.lt_succ_self _) (Cells.size_push _ _).symm

/-- Only one cell comes into use at a time. -/
theorem eq_of_isInUse_allocate {cell : Cell} (unused : ¬cell.IsInUse store)
    (inUse : cell.IsInUse (store.allocate content).2) : cell = (store.allocate content).1 := by
  unfold Cell.IsInUse at unused inUse
  rw [frontier_allocate store, Frontier.past] at inUse
  split at inUse
  · next same =>
    have last := Nat.le_antisymm (Nat.le_of_lt_succ inUse) (Nat.le_of_not_lt unused)
    rw [store.allocate_cell store content, ← same, ← last, Cell.ofKind_index]
  · exact absurd inUse unused

end Store

theorem World.allocates_allocate (world : World) (content : Value) :
    world.Allocates (world.store.allocate content).1.binding
      { world with store := (world.store.allocate content).2 } := by
  cases content with
  | number value => exact .number world value
  | text content => exact .string world content
  | vector values => exact .vector world values

theorem World.Allocates.isFresh_cell {before after : World} {binding : Binding} {cell : Cell}
    (allocates : before.Allocates binding after) (holds : binding.cell? = some cell) :
    ¬cell.IsInUse before.store ∧ cell.IsInUse after.store := by
  cases allocates with
  | number value =>
    cases holds
    exact ⟨before.store.not_isInUse_allocate (.number value), before.store.isInUse_allocate (.number value)⟩
  | string value =>
    cases holds
    exact ⟨before.store.not_isInUse_allocate (.text value), before.store.isInUse_allocate (.text value)⟩
  | vector values =>
    cases holds
    exact ⟨before.store.not_isInUse_allocate (.vector values), before.store.isInUse_allocate (.vector values)⟩

/-! ## Relabeled cells -/

namespace Relabeling

def cell (relabeling : Relabeling) : Cell → Cell
  | .number cell => .number (relabeling.number cell)
  | .string cell => .string (relabeling.string cell)
  | .vector cell => .vector (relabeling.vector cell)

/-- Whether cells are relabeled to those that come into use one after another. -/
def Fits (relabeling : Relabeling) (frontier : Frontier) : List Cell → Prop
  | [] => True
  | first :: rest =>
    relabeling.cell first = .ofKind (frontier first.kind) first.kind ∧ relabeling.Fits (frontier.past first.kind) rest

theorem binding_relabel (relabeling : Relabeling) (cell : Cell) :
    cell.binding.relabel relabeling = (relabeling.cell cell).binding := by
  cases cell <;> rfl

end Relabeling

end LiveExpr
