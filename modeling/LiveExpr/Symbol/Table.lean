import LiveExpr.Store
import LiveExpr.Symbol.Name
import LiveExpr.Symbol.NameMap

/-!
Symbol tables. A table binds names to cells and functions, each kind in a map of its own. Names are bound if they are
free under every kind.
-/

namespace LiveExpr

/-- What a name stands for. A constant cell is not assigned to by formulas. -/
inductive Binding where
  | scalar (cell : NumberCell) (constant : Bool)
  | string (cell : StringCell) (constant : Bool)
  | vector (cell : VectorCell)
  | function (handle : FunctionHandle)
deriving DecidableEq, Repr

namespace Binding

def kind : Binding → SymbolKind
  | scalar _ _ => .scalar
  | string _ _ => .string
  | vector _ => .vector
  | function _ => .function

def isConstantScalar : Binding → Bool
  | scalar _ constant => constant
  | _ => false

def isConstantString : Binding → Bool
  | string _ constant => constant
  | _ => false

end Binding

def SymbolKind.all : List SymbolKind :=
  [.scalar, .string, .vector, .function]

/-- The bindings of every kind by their names. -/
structure SymbolTable where
  scalars : NameMap (NumberCell × Bool)
  strings : NameMap (StringCell × Bool)
  vectors : NameMap VectorCell
  functions : NameMap FunctionHandle
deriving Inhabited

namespace SymbolTable

def empty : SymbolTable :=
  ⟨.empty, .empty, .empty, .empty⟩

/-- The bindings of one kind. -/
def ofKind (table : SymbolTable) : SymbolKind → NameMap Binding
  | .scalar => table.scalars.map fun (cell, constant) => .scalar cell constant
  | .string => table.strings.map fun (cell, constant) => .string cell constant
  | .vector => table.vectors.map .vector
  | .function => table.functions.map .function

def entries (table : SymbolTable) : List (String × Binding) :=
  SymbolKind.all.flatMap fun kind => (table.ofKind kind).entries

/-- The binding of a name, of the first kind that has one. -/
def lookup (table : SymbolTable) (name : String) : Option Binding :=
  SymbolKind.all.findSome? fun kind => (table.ofKind kind).lookup name

def contains (table : SymbolTable) (name : String) : Bool :=
  (table.lookup name).isSome

/-- Binds a name, over an earlier binding of the same kind. -/
def insert (table : SymbolTable) (name : String) : Binding → SymbolTable
  | .scalar cell constant => { table with scalars := table.scalars.insert name (cell, constant) }
  | .string cell constant => { table with strings := table.strings.insert name (cell, constant) }
  | .vector cell => { table with vectors := table.vectors.insert name cell }
  | .function handle => { table with functions := table.functions.insert name handle }

/-- Drops the binding of a name under one kind. -/
def erase (table : SymbolTable) (name : String) : SymbolKind → SymbolTable
  | .scalar => { table with scalars := table.scalars.remove name }
  | .string => { table with strings := table.strings.remove name }
  | .vector => { table with vectors := table.vectors.remove name }
  | .function => { table with functions := table.functions.remove name }

/-! ## Operations with conditions -/

def checkName (table : SymbolTable) (name : String) : Except BindingError Unit :=
  match Name.validate name with
  | .error error => .error error
  | .ok () => if table.contains name then .error (.duplicateName name) else .ok ()

def add (table : SymbolTable) (name : String) (binding : Binding) : Except BindingError SymbolTable :=
  match table.checkName name with
  | .error error => .error error
  | .ok () => .ok (table.insert name binding)

def remove (table : SymbolTable) (name : String) (kind : SymbolKind) : Except BindingError SymbolTable :=
  if (table.ofKind kind).contains name then .ok (table.erase name kind) else .error (.notFound name kind)

/-- Unbinds all names of a kind. -/
def clear (table : SymbolTable) : SymbolKind → SymbolTable
  | .scalar => { table with scalars := .empty }
  | .string => { table with strings := .empty }
  | .vector => { table with vectors := .empty }
  | .function => { table with functions := .empty }

def clearConstants (table : SymbolTable) : SymbolTable :=
  { table with scalars := table.scalars.filter fun _ (_, constant) => !constant }

/-! ## Views -/

/-- The names of a kind, in order. -/
def names (table : SymbolTable) (kind : SymbolKind) : List String :=
  (table.ofKind kind).names

def count (table : SymbolTable) (kind : SymbolKind) : Nat :=
  (table.names kind).length

def scalar? (table : SymbolTable) (name : String) : Option NumberCell :=
  (table.scalars.lookup name).map (·.1)

def string? (table : SymbolTable) (name : String) : Option StringCell :=
  (table.strings.lookup name).map (·.1)

/-- The cell of a vector. -/
def vector? (table : SymbolTable) (name : String) : Option VectorCell :=
  table.vectors.lookup name

/-- The function of a name. -/
def function? (table : SymbolTable) (name : String) : Option FunctionHandle :=
  table.functions.lookup name

end SymbolTable

end LiveExpr
