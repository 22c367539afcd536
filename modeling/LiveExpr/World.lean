import LiveExpr.Symbol.Table

/-!
The world of a host: the store and any number of symbol tables over it. Tables are known by handles, so
several owners can share one; an operation that is refused leaves everything as it was.
-/

namespace LiveExpr

structure TableHandle where
  index : Nat
deriving DecidableEq, Repr

structure World where
  store : Store
  tables : Cells SymbolTable

/-- The outcome of an operation that a table may refuse. -/
abbrev Bound := Except BindingError World

namespace World

def empty : World :=
  ⟨.empty, .empty⟩

def table (world : World) (handle : TableHandle) : SymbolTable :=
  world.tables.get handle.index

def setTable (world : World) (handle : TableHandle) (table : SymbolTable) : World :=
  { world with tables := world.tables.set handle.index table }

def newTable (world : World) : TableHandle × World :=
  (⟨world.tables.size⟩, { world with tables := world.tables.push .empty })

/-! ## Binding what exists -/

def add (world : World) (handle : TableHandle) (name : String) (binding : Binding) : Bound :=
  match (world.table handle).add name binding with
  | .error error => .error error
  | .ok table => .ok (world.setTable handle table)

/-- Binds a vector, which must have an element. -/
def addVector (world : World) (handle : TableHandle) (name : String) (cell : VectorCell) : Bound :=
  if (world.store.vector cell).isEmpty then .error (.emptyVector name)
  else world.add handle name (.vector cell)

/-- Binds a function, which must take one to four arguments. -/
def addFunction (world : World) (handle : TableHandle) (name : String) (function : FunctionHandle) :
    Bound :=
  if 1 ≤ function.arity && function.arity ≤ 4 then world.add handle name (.function function)
  else .error (.invalidArity name function.arity)

/-! ## Binding what is new -/

def createScalar (world : World) (handle : TableHandle) (name : String) (value : Float)
    (constant : Bool) : Bound :=
  let (cell, store) := world.store.newNumber value
  { world with store := store }.add handle name (.scalar cell constant)

def createString (world : World) (handle : TableHandle) (name : String) (value : Bytes)
    (constant : Bool) : Bound :=
  let (cell, store) := world.store.newString value
  { world with store := store }.add handle name (.string cell constant)

def createVector (world : World) (handle : TableHandle) (name : String) (values : List Float) : Bound :=
  let (cell, store) := world.store.newVector values
  { world with store := store }.addVector handle name cell

def createFunction (world : World) (handle : TableHandle) (name : String) (arity : Nat)
    (answering : FunctionHandle → Answering) : Bound :=
  let (function, store) := world.store.newFunction arity answering
  { world with store := store }.addFunction handle name function

/-- Binds a constant, and says whether the name was free. -/
def addConstant (world : World) (handle : TableHandle) (name : String) (value : Float) : Bool × World :=
  match world.createScalar handle name value true with
  | .ok world => (true, world)
  | .error _ => (false, world)

def addPi (world : World) (handle : TableHandle) : Bool × World :=
  world.addConstant handle "pi" Number.pi

def addEpsilon (world : World) (handle : TableHandle) : Bool × World :=
  world.addConstant handle "epsilon" Number.epsilon

def addInfinity (world : World) (handle : TableHandle) : Bool × World :=
  world.addConstant handle "inf" Number.infinity

/-- Binds the three constants as far as their names are free, and says whether all were. -/
def addConstants (world : World) (handle : TableHandle) : Bool × World :=
  let (pi, world) := world.addPi handle
  let (epsilon, world) := world.addEpsilon handle
  let (infinity, world) := world.addInfinity handle
  (pi && epsilon && infinity, world)

/-! ## Unbinding -/

def remove (world : World) (handle : TableHandle) (name : String) (kind : SymbolKind) : Bound :=
  match (world.table handle).remove name kind with
  | .error error => .error error
  | .ok table => .ok (world.setTable handle table)

def clear (world : World) (handle : TableHandle) (kind : SymbolKind) : World :=
  world.setTable handle ((world.table handle).clear kind)

def clearConstants (world : World) (handle : TableHandle) : World :=
  world.setTable handle (world.table handle).clearConstants

/-! ## Merging -/

/-- A binding for another table: new cells with the same contents, but the same function. -/
def copyBinding (store : Store) : Binding → Binding × Store
  | .scalar cell constant =>
    let (copy, store) := store.newNumber (store.number cell)
    (.scalar copy constant, store)
  | .string cell constant =>
    let (copy, store) := store.newString (store.string cell)
    (.string copy constant, store)
  | .vector cell =>
    let (copy, store) := store.newVector (store.vector cell)
    (.vector copy, store)
  | .function handle => (.function handle, store)

/-- Adds copies of those entries whose names are free, and counts them after the `count` added before. -/
def copyEntries (store : Store) (table : SymbolTable) (count : Nat) :
    List (String × Binding) → Nat × SymbolTable × Store
  | [] => (count, table, store)
  | (name, binding) :: rest =>
    if table.contains name then copyEntries store table count rest
    else
      let (copy, store) := copyBinding store binding
      copyEntries store (table.insert name copy) (count + 1) rest

/-- Copies the bindings of another table whose names are free here, and counts them. A table takes nothing
from itself. -/
def loadFrom (world : World) (handle source : TableHandle) : Nat × World :=
  if handle = source then (0, world)
  else
    let (count, table, store) :=
      copyEntries world.store (world.table handle) 0 (world.table source).entries
    (count, { world with store := store }.setTable handle table)

end World

end LiveExpr
