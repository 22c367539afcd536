import LiveExpr.Store.Cells
import LiveExpr.Text.Bytes

/-!
The state that formulas live in: the cells that variables are bound to, and what is known of the functions
that the host has registered. Two handles denote the same cell when their indices agree.

A vector keeps the length that it was allocated with: a write replaces elements and neither adds nor drops
any.
-/

namespace LiveExpr

structure NumberCell where
  index : Nat
deriving DecidableEq, Repr

structure StringCell where
  index : Nat
deriving DecidableEq, Repr

structure VectorCell where
  index : Nat
deriving DecidableEq, Repr

/-- A function of the host, known by its index, with the number of arguments that it takes. -/
structure FunctionHandle where
  index : Nat
  arity : Nat
deriving DecidableEq, Repr

structure Call where
  function : FunctionHandle
  arguments : List Float

/-- How a function of the host answers: from the calls that were made before, the latest first, and the
arguments. It neither reads nor writes any cell. -/
abbrev Answering := List Call → List Float → Float

structure Store where
  numbers : Cells Float
  strings : Cells Bytes
  vectors : Cells (List Float)
  functions : Cells Answering
  /-- The calls made so far, the latest first. -/
  calls : List Call

namespace Store

def empty : Store :=
  ⟨.empty, .empty, .empty, .empty, []⟩

/-! ## Scalars -/

def number (store : Store) (cell : NumberCell) : Float :=
  store.numbers.get cell.index

def setNumber (store : Store) (cell : NumberCell) (value : Float) : Store :=
  { store with numbers := store.numbers.set cell.index value }

def newNumber (store : Store) (value : Float) : NumberCell × Store :=
  (⟨store.numbers.size⟩, { store with numbers := store.numbers.push value })

/-! ## Strings -/

def string (store : Store) (cell : StringCell) : Bytes :=
  store.strings.get cell.index

def setString (store : Store) (cell : StringCell) (value : Bytes) : Store :=
  { store with strings := store.strings.set cell.index value }

def newString (store : Store) (value : Bytes) : StringCell × Store :=
  (⟨store.strings.size⟩, { store with strings := store.strings.push value })

/-! ## Vectors -/

/-- Replaces the leading elements of a vector; what goes beyond its end is ignored. -/
def overwrite : List Float → List Float → List Float
  | _ :: old, value :: values => value :: overwrite old values
  | old, _ => old

@[simp] theorem length_overwrite (old values : List Float) : (overwrite old values).length = old.length := by
  induction old generalizing values with
  | nil => cases values <;> rfl
  | cons first rest induction => cases values <;> simp [overwrite, induction]

def vector (store : Store) (cell : VectorCell) : List Float :=
  store.vectors.get cell.index

def setVector (store : Store) (cell : VectorCell) (values : List Float) : Store :=
  { store with vectors := store.vectors.set cell.index (overwrite (store.vector cell) values) }

/-- Writes one element. A position beyond the end is ignored. -/
def setElement (store : Store) (cell : VectorCell) (index : Nat) (value : Float) : Store :=
  { store with vectors := store.vectors.set cell.index ((store.vector cell).set index value) }

def newVector (store : Store) (values : List Float) : VectorCell × Store :=
  (⟨store.vectors.size⟩, { store with vectors := store.vectors.push values })

/-! ## Functions of the host -/

/-- Registers a function. It learns its own handle, by which it can find its calls among all. -/
def newFunction (store : Store) (arity : Nat) (answering : FunctionHandle → Answering) :
    FunctionHandle × Store :=
  let handle := ⟨store.functions.size, arity⟩
  (handle, { store with functions := store.functions.push (answering handle) })

def call (store : Store) (function : FunctionHandle) (arguments : List Float) : Float × Store :=
  (store.functions.get function.index store.calls arguments,
    { store with calls := ⟨function, arguments⟩ :: store.calls })

end Store

end LiveExpr
