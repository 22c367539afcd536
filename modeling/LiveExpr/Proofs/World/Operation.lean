import LiveExpr.Proofs.Store.Growth
import LiveExpr.Proofs.Symbol.Table
import Mathlib.Logic.Relation

/-!
What a host can do to a world, as data: requests, which a table may refuse, and operations, which always come to a
world. A request that is granted concerns one name of one table, and one that is refused leaves everything as it was.
-/

namespace LiveExpr

/-- What a table may be asked to do with a name. -/
inductive Request where
  | addScalar (cell : NumberCell) (constant : Bool)
  | addString (cell : StringCell) (constant : Bool)
  | addVector (cell : VectorCell)
  | addFunction (function : FunctionHandle)
  | createScalar (value : Float) (constant : Bool)
  | createString (content : Bytes) (constant : Bool)
  | createVector (values : List Float)
  | createFunction (arity : Nat) (answering : FunctionHandle → Answering)
  | remove (kind : SymbolKind)

inductive Operation where
  | newTable
  | newNumber (value : Float)
  | newString (content : Bytes)
  | newVector (values : List Float)
  | newFunction (arity : Nat) (answering : FunctionHandle → Answering)
  | request (handle : TableHandle) (name : String) (request : Request)
  | addConstants (handle : TableHandle)
  | clear (handle : TableHandle) (kind : SymbolKind)
  | clearConstants (handle : TableHandle)
  | loadFrom (handle source : TableHandle)
  | setNumber (cell : NumberCell) (value : Float)
  | setString (cell : StringCell) (content : Bytes)
  | setVector (cell : VectorCell) (values : List Float)
  | setElement (cell : VectorCell) (index : Nat) (value : Float)

namespace World

/-- The outcome of a request. -/
def request (world : World) (handle : TableHandle) (name : String) : Request → Bound
  | .addScalar cell constant => world.add handle name (.scalar cell constant)
  | .addString cell constant => world.add handle name (.string cell constant)
  | .addVector cell => world.addVector handle name cell
  | .addFunction function => world.addFunction handle name function
  | .createScalar value constant => world.createScalar handle name value constant
  | .createString content constant => world.createString handle name content constant
  | .createVector values => world.createVector handle name values
  | .createFunction arity answering => world.createFunction handle name arity answering
  | .remove kind => world.remove handle name kind

/-- The world after a request, which is as it was if the request is refused. -/
def after (world : World) : Bound → World
  | .ok after => after
  | .error _ => world

/-- The world after an operation. -/
def perform (world : World) : Operation → World
  | .newTable => world.newTable.2
  | .newNumber value => { world with store := (world.store.newNumber value).2 }
  | .newString content => { world with store := (world.store.newString content).2 }
  | .newVector values => { world with store := (world.store.newVector values).2 }
  | .newFunction arity answering => { world with store := (world.store.newFunction arity answering).2 }
  | .request handle name request => world.after (world.request handle name request)
  | .addConstants handle => (world.addConstants handle).2
  | .clear handle kind => world.clear handle kind
  | .clearConstants handle => world.clearConstants handle
  | .loadFrom handle source => (world.loadFrom handle source).2
  | .setNumber cell value => { world with store := world.store.setNumber cell value }
  | .setString cell content => { world with store := world.store.setString cell content }
  | .setVector cell values => { world with store := world.store.setVector cell values }
  | .setElement cell index value => { world with store := world.store.setElement cell index value }

end World

/-! ## What requests come to -/

def Request.binds (store : Store) : Request → Option (Binding × Store)
  | .addScalar cell constant => some (.scalar cell constant, store)
  | .addString cell constant => some (.string cell constant, store)
  | .addVector cell => some (.vector cell, store)
  | .addFunction function => some (.function function, store)
  | .createScalar value constant => some (.scalar (store.newNumber value).1 constant, (store.newNumber value).2)
  | .createString content constant =>
    some (.string (store.newString content).1 constant, (store.newString content).2)
  | .createVector values => some (.vector (store.newVector values).1, (store.newVector values).2)
  | .createFunction arity answering =>
    some (.function (store.newFunction arity answering).1, (store.newFunction arity answering).2)
  | .remove _ => none

theorem Request.grows_of_binds {request : Request} {store after : Store} {binding : Binding}
    (binds : request.binds store = some (binding, after)) : store.Grows after := by
  cases request <;> cases binds
  case createScalar => exact .newNumber _ _
  case createString => exact .newString _ _
  case createVector => exact .newVector _ _
  case createFunction => exact .newFunction _ _ _
  all_goals exact .refl _

/-- Whether a table takes the binding: a vector must have an element, and a function one to four arguments. -/
def Binding.IsAdmissible (store : Store) : Binding → Prop
  | .vector cell => store.vector cell ≠ []
  | .function handle => 1 ≤ handle.arity ∧ handle.arity ≤ 4
  | _ => True

namespace World

variable {world after : World} {handle : TableHandle} {name : String}

theorem add_eq_ok_iff {binding : Binding} :
    world.add handle name binding = .ok after ↔
      Name.validate name = .ok () ∧ (world.table handle).lookup name = none ∧
        after = world.setTable handle ((world.table handle).insert name binding) := by
  unfold add SymbolTable.add SymbolTable.checkName SymbolTable.contains
  cases Name.validate name with
  | error error => simp
  | ok =>
    cases (world.table handle).lookup name with
    | none => simp [eq_comm]
    | some => simp

inductive Grants (world : World) (handle : TableHandle) (name : String) : Request → World → Prop
  | bound {request : Request} {binding : Binding} {store : Store}
      (binds : request.binds world.store = some (binding, store)) (valid : Name.validate name = .ok ())
      (free : (world.table handle).lookup name = none) (admissible : binding.IsAdmissible store) :
      Grants world handle name request
        ({ world with store := store }.setTable handle ((world.table handle).insert name binding))
  | removed {kind : SymbolKind} {binding : Binding}
      (found : ((world.table handle).ofKind kind).lookup name = some binding) :
      Grants world handle name (.remove kind) (world.setTable handle ((world.table handle).erase name kind))

theorem addVector_eq_ok_iff {cell : VectorCell} :
    world.addVector handle name cell = .ok after ↔
      world.store.vector cell ≠ [] ∧ world.add handle name (.vector cell) = .ok after := by
  unfold addVector
  split
  · next empty => simp [List.isEmpty_iff.mp empty]
  · next filled => simp [mt List.isEmpty_iff.mpr filled]

theorem addFunction_eq_ok_iff {function : FunctionHandle} :
    world.addFunction handle name function = .ok after ↔
      (1 ≤ function.arity ∧ function.arity ≤ 4) ∧ world.add handle name (.function function) = .ok after := by
  unfold addFunction
  simp only [Bool.and_eq_true, decide_eq_true_eq]
  split
  · next fits => exact (and_iff_right fits).symm
  · next misfits => exact ⟨nofun, fun granted => absurd granted.1 misfits⟩

theorem request_of_binds {request : Request} {binding : Binding} {store : Store}
    (binds : request.binds world.store = some (binding, store)) :
    world.request handle name request = .ok after ↔
      binding.IsAdmissible store ∧ { world with store := store }.add handle name binding = .ok after := by
  cases request <;> cases binds
  case addVector | createVector => exact addVector_eq_ok_iff
  case addFunction | createFunction => exact addFunction_eq_ok_iff
  all_goals exact (and_iff_right trivial).symm

theorem remove_eq_ok_iff {kind : SymbolKind} :
    world.remove handle name kind = .ok after ↔
      ∃ binding, ((world.table handle).ofKind kind).lookup name = some binding ∧
        after = world.setTable handle ((world.table handle).erase name kind) := by
  unfold remove SymbolTable.remove NameMap.contains
  cases ((world.table handle).ofKind kind).lookup name with
  | none => simp
  | some binding => simp [eq_comm]

/-- A request is granted under these conditions only. -/
theorem request_eq_ok_iff {request : Request} :
    world.request handle name request = .ok after ↔ world.Grants handle name request after := by
  constructor
  · intro granted
    cases bound : request.binds world.store with
    | some pair =>
      obtain ⟨admissible, added⟩ := (request_of_binds bound).mp granted
      obtain ⟨valid, free, rfl⟩ := add_eq_ok_iff.mp added
      exact .bound bound valid free admissible
    | none =>
      cases request <;> cases bound
      obtain ⟨binding, found, rfl⟩ := remove_eq_ok_iff.mp granted
      exact .removed found
  · rintro (@⟨_, _, _, binds, valid, free, admissible⟩ | @⟨kind, binding, found⟩)
    · exact (request_of_binds binds).mpr ⟨admissible, add_eq_ok_iff.mpr ⟨valid, free, rfl⟩⟩
    · exact remove_eq_ok_iff.mpr ⟨binding, found, rfl⟩

theorem Grants.store_grows {request : Request} (grants : world.Grants handle name request after) :
    world.store.Grows after.store := by
  cases grants with
  | bound binds => exact request.grows_of_binds binds
  | removed => exact .refl _

theorem Grants.lookup_other {request : Request} (grants : world.Grants handle name request after)
    {other : TableHandle} {found : String} (elsewhere : other ≠ handle ∨ found ≠ name) (kind : SymbolKind) :
    ((after.table other).ofKind kind).lookup found = ((world.table other).ofKind kind).lookup found := by
  by_cases same : other = handle
  · subst same
    have different : found ≠ name := elsewhere.resolve_left (absurd rfl)
    cases grants with
    | bound => rw [table_setTable, SymbolTable.lookup_ofKind_insert_other (.inl different)]
    | removed => rw [table_setTable, SymbolTable.lookup_ofKind_erase_other (.inl different)]
  · cases grants with
    | bound => rw [table_setTable_other _ same]; rfl
    | removed => rw [table_setTable_other _ same]

/-! ## Operations that bind several names -/

theorem addConstant_eq (world : World) (handle : TableHandle) (name : String) (value : Float) :
    (world.addConstant handle name value).2 = world.perform (.request handle name (.createScalar value true)) := by
  change _ = world.after (world.createScalar handle name value true)
  unfold addConstant
  cases world.createScalar handle name value true <;> rfl

/-- The three constants are bound by three requests. -/
theorem perform_addConstants (world : World) (handle : TableHandle) :
    world.perform (.addConstants handle) =
      ((world.perform (.request handle "pi" (.createScalar Number.pi true))).perform
        (.request handle "epsilon" (.createScalar Number.epsilon true))).perform
        (.request handle "inf" (.createScalar Number.infinity true)) := by
  rw [← addConstant_eq, ← addConstant_eq, ← addConstant_eq, perform]
  unfold addConstants addPi addEpsilon addInfinity
  cases world.addConstant handle "pi" Number.pi
  dsimp only

/-- What merging does at once: it binds a free name to a copy of what the other table binds it to. -/
inductive Copies (entries : List (String × Binding)) : SymbolTable × Store → SymbolTable × Store → Prop
  | intro {table : SymbolTable} {name : String} {binding : Binding} {store : Store}
      (listed : (name, binding) ∈ entries) (free : table.lookup name = none) :
      Copies entries (table, store)
        (table.insert name (copyBinding store binding).1, (copyBinding store binding).2)

theorem copyEntries_copies {entries : List (String × Binding)} {rest : List (String × Binding)}
    (listed : ∀ entry ∈ rest, entry ∈ entries) (store : Store) (table : SymbolTable) (count : Nat) :
    Relation.ReflTransGen (Copies entries) (table, store) (copyEntries store table count rest).2 := by
  induction rest generalizing store table count with
  | nil => exact .refl
  | cons entry rest induction =>
    obtain ⟨name, binding⟩ := entry
    obtain ⟨first, others⟩ := List.forall_mem_cons.mp listed
    rw [copyEntries]
    split
    · exact induction others store table count
    · next uncontained =>
      have free : table.lookup name = none := by
        rwa [SymbolTable.contains, Bool.not_eq_true, Option.isSome_eq_false_iff,
          Option.isNone_iff_eq_none] at uncontained
      exact .head (.intro first free) (induction others _ _ _)

theorem grows_copyBinding (store : Store) (binding : Binding) : store.Grows (copyBinding store binding).2 := by
  cases binding with
  | scalar => exact .newNumber _ _
  | string => exact .newString _ _
  | vector => exact .newVector _ _
  | function => exact .refl _

/-- A merger copies bindings of one table into the other, unless the two are one. -/
theorem perform_loadFrom (world : World) (handle source : TableHandle) :
    world.perform (.loadFrom handle source) = world ∨
      ∃ table store, Relation.ReflTransGen (Copies (world.table source).entries) (world.table handle, world.store)
        (table, store) ∧
        world.perform (.loadFrom handle source) = { world with store := store }.setTable handle table := by
  have performed : world.perform (.loadFrom handle source) = (world.loadFrom handle source).2 := rfl
  rw [performed, loadFrom]
  split
  · exact .inl rfl
  · exact .inr ⟨_, _, copyEntries_copies (fun _ listed => listed) _ _ _, rfl⟩

end World

end LiveExpr
