import LiveExpr.Store

/-!
Stores that grow: cells and functions come into use, and those in use stay as they are.
-/

namespace LiveExpr

namespace Cells

variable {α : Type} [Inhabited α]

/-- Whether the second row has all cells of the first, with the same contents. -/
structure Grows (before after : Cells α) : Prop where
  size : before.size ≤ after.size
  get (index : Nat) (inUse : index < before.size) : after.get index = before.get index

namespace Grows

theorem refl (cells : Cells α) : cells.Grows cells :=
  ⟨Nat.le_refl _, fun _ _ => rfl⟩

theorem trans {first second third : Cells α} (one : first.Grows second) (other : second.Grows third) :
    first.Grows third where
  size := Nat.le_trans one.size other.size
  get index inUse :=
    (other.get index (Nat.lt_of_lt_of_le inUse one.size)).trans (one.get index inUse)

theorem push (cells : Cells α) (value : α) : cells.Grows (cells.push value) where
  size := by simp
  get _ inUse := cells.get_push_other (Nat.ne_of_lt inUse) value

end Grows

end Cells

namespace Store

/-- Whether the second store has all cells and functions of the first, with the same contents, and no function of the
host has been called. -/
structure Grows (before after : Store) : Prop where
  numbers : before.numbers.Grows after.numbers
  strings : before.strings.Grows after.strings
  vectors : before.vectors.Grows after.vectors
  functions : before.functions.Grows after.functions
  calls : after.calls = before.calls

namespace Grows

theorem refl (store : Store) : store.Grows store :=
  ⟨.refl _, .refl _, .refl _, .refl _, rfl⟩

theorem trans {first second third : Store} (one : first.Grows second) (other : second.Grows third) :
    first.Grows third where
  numbers := one.numbers.trans other.numbers
  strings := one.strings.trans other.strings
  vectors := one.vectors.trans other.vectors
  functions := one.functions.trans other.functions
  calls := other.calls.trans one.calls

theorem newNumber (store : Store) (value : Float) : store.Grows (store.newNumber value).2 :=
  { refl store with numbers := .push _ _ }

theorem newString (store : Store) (value : Bytes) : store.Grows (store.newString value).2 :=
  { refl store with strings := .push _ _ }

theorem newVector (store : Store) (values : List Float) : store.Grows (store.newVector values).2 :=
  { refl store with vectors := .push _ _ }

theorem newFunction (store : Store) (arity : Nat) (answering : FunctionHandle → Answering) :
    store.Grows (store.newFunction arity answering).2 :=
  { refl store with functions := .push _ _ }

variable {before after : Store}

theorem number (grown : before.Grows after) {cell : NumberCell} (inUse : cell.index < before.numbers.size) :
    after.number cell = before.number cell :=
  grown.numbers.get _ inUse

theorem string (grown : before.Grows after) {cell : StringCell} (inUse : cell.index < before.strings.size) :
    after.string cell = before.string cell :=
  grown.strings.get _ inUse

theorem vector (grown : before.Grows after) {cell : VectorCell} (inUse : cell.index < before.vectors.size) :
    after.vector cell = before.vector cell :=
  grown.vectors.get _ inUse

end Grows

end Store

end LiveExpr
