import LiveExpr.Proofs.Compile.Soundness
import LiveExpr.Proofs.Node.Agreement
import LiveExpr.Proofs.World.Operation

/-!
Who can get at a cell. A host gets at the cells that it holds handles of, and at those that a table binds; it cannot
make up a handle. What happens to a world is described by what it does to these: which bindings there are, and which
cells have come into use.
-/

namespace LiveExpr

/-! ## Cells -/

namespace Target

/-- The binding that makes a name stand for the cell. -/
def binding (constant : Bool) : Target → Binding
  | number cell => .scalar cell constant
  | string cell => .string cell constant

def IsInUse (store : Store) : Target → Prop
  | number cell => cell.index < store.numbers.size
  | string cell => cell.index < store.strings.size

def IsFresh (before after : Store) (target : Target) : Prop :=
  ¬target.IsInUse before ∧ target.IsInUse after

/-- Whether the cell has the same content in both stores. -/
def IsSame (before after : Store) : Target → Prop
  | number cell => after.number cell = before.number cell
  | string cell => after.string cell = before.string cell

variable {before middle after : Store} {target : Target}

theorem IsInUse.extend (inUse : target.IsInUse before) (grown : before.Extends after) : target.IsInUse after := by
  cases target with
  | number => exact Nat.lt_of_lt_of_le inUse grown.numbers
  | string => exact Nat.lt_of_lt_of_le inUse grown.strings

theorem IsFresh.later (fresh : target.IsFresh before middle) (grown : middle.Extends after) :
    target.IsFresh before after :=
  ⟨fresh.1, fresh.2.extend grown⟩

theorem IsFresh.earlier (grown : before.Extends middle) (fresh : target.IsFresh middle after) :
    target.IsFresh before after :=
  ⟨fun inUse => fresh.1 (inUse.extend grown), fresh.2⟩

theorem IsSame.refl (store : Store) (target : Target) : target.IsSame store store := by
  cases target <;> rfl

theorem IsSame.trans (first : target.IsSame before middle) (second : target.IsSame middle after) :
    target.IsSame before after := by
  cases target with
  | number | string => exact Eq.trans second first

theorem isSame_of_grows (grown : before.Grows after) (inUse : target.IsInUse before) : target.IsSame before after := by
  cases target with
  | number => exact grown.number inUse
  | string => exact grown.string inUse

theorem isSame_of_resembles (resembles : after.Resembles (· = target) before) : target.IsSame before after := by
  cases target with
  | number cell => exact resembles.numbers cell rfl
  | string cell => exact resembles.strings cell rfl

theorem isFresh_newNumber (store : Store) (value : Float) :
    (number (store.newNumber value).1).IsFresh store (store.newNumber value).2 := by
  simp [IsFresh, IsInUse, Store.newNumber]

theorem isFresh_newString (store : Store) (content : Bytes) :
    (string (store.newString content).1).IsFresh store (store.newString content).2 := by
  simp [IsFresh, IsInUse, Store.newString]

end Target

namespace Store

theorem Grows.extends {before after : Store} (grown : before.Grows after) : before.Extends after where
  numbers := grown.numbers.size
  strings := grown.strings.size
  vectors := grown.vectors.size
  lengths _ inUse := congrArg List.length (grown.vector inUse)

theorem Extends.setNumber (store : Store) (cell : NumberCell) (value : Float) :
    store.Extends (store.setNumber cell value) :=
  { refl store with numbers := store.numbers.size_le_set _ _ }

theorem Extends.setString (store : Store) (cell : StringCell) (content : Bytes) :
    store.Extends (store.setString cell content) :=
  { refl store with strings := store.strings.size_le_set _ _ }

theorem Extends.setVector (store : Store) (cell : VectorCell) (values : List Float) :
    store.Extends (store.setVector cell values) :=
  { refl store with
    vectors := store.vectors.size_le_set _ _
    lengths := fun other _ => ((@resembles_refl (fun _ => False) store).setVector cell values).lengths other }

theorem Extends.setElement (store : Store) (cell : VectorCell) (index : Nat) (value : Float) :
    store.Extends (store.setElement cell index value) :=
  { refl store with
    vectors := store.vectors.size_le_set _ _
    lengths := fun other _ => ((@resembles_refl (fun _ => False) store).setElement cell index value).lengths other }

end Store

/-! ## Bindings -/

namespace World

/-- Whether some name is bound so in some table. -/
def Binds (world : World) (binding : Binding) : Prop :=
  ∃ handle kind name, ((world.table handle).ofKind kind).lookup name = some binding

def BindsCell (world : World) (target : Target) : Prop :=
  ∃ constant, world.Binds (target.binding constant)

variable {world : World} {handle : TableHandle} {table : SymbolTable} {binding : Binding}

theorem binds_setTable (binds : (world.setTable handle table).Binds binding) :
    (∃ kind name, (table.ofKind kind).lookup name = some binding) ∨ world.Binds binding := by
  obtain ⟨other, kind, name, bound⟩ := binds
  by_cases same : other = handle
  · subst same
    rw [table_setTable] at bound
    exact .inl ⟨kind, name, bound⟩
  · rw [table_setTable_other _ same] at bound
    exact .inr ⟨other, kind, name, bound⟩

theorem Binds.setTable (binds : world.Binds binding) (isPart : (world.table handle).IsPartOf table) :
    (world.setTable handle table).Binds binding := by
  obtain ⟨other, kind, name, bound⟩ := binds
  by_cases same : other = handle
  · subst same
    exact ⟨other, kind, name, by rw [table_setTable]; exact isPart _ _ _ bound⟩
  · exact ⟨other, kind, name, by rw [table_setTable_other _ same]; exact bound⟩

/-- What may have happened to a world where a host holds handles of some cells: cells in use stay in use, vectors keep
their lengths, and a cell that has come to be bound was held or has come into use. -/
structure Follows (held : Target → Prop) (before after : World) : Prop where
  store : before.store.Extends after.store
  bound {target : Target} (binds : after.BindsCell target) :
    before.BindsCell target ∨ held target ∨ target.IsFresh before.store after.store

/-- What may have happened if, besides, nothing has been unbound and no cell has been written. -/
structure Adds (held : Target → Prop) (before after : World) : Prop extends before.Follows held after where
  grows : before.store.Grows after.store
  kept {binding : Binding} (binds : before.Binds binding) : after.Binds binding

variable {held : Target → Prop} {before middle after : World}

theorem Follows.refl (held : Target → Prop) (world : World) : world.Follows held world :=
  ⟨.refl _, .inl⟩

theorem Follows.trans (first : before.Follows held middle) (second : middle.Follows held after) :
    before.Follows held after where
  store := first.store.trans second.store
  bound binds := by
    rcases second.bound binds with binds | isHeld | fresh
    · exact (first.bound binds).imp_right (Or.imp_right (·.later second.store))
    · exact .inr (.inl isHeld)
    · exact .inr (.inr (.earlier first.store fresh))

theorem Adds.refl (held : Target → Prop) (world : World) : world.Adds held world :=
  ⟨.refl held world, .refl _, id⟩

theorem Adds.trans (first : before.Adds held middle) (second : middle.Adds held after) : before.Adds held after :=
  ⟨first.toFollows.trans second.toFollows, first.grows.trans second.grows, fun binds => second.kept (first.kept binds)⟩

/-- What changes nothing but the store binds nothing. -/
theorem Follows.of_store (held : Target → Prop) {store : Store} (extended : world.store.Extends store) :
    world.Follows held { world with store := store } :=
  ⟨extended, .inl⟩

theorem Adds.of_store (held : Target → Prop) {store : Store} (grown : world.store.Grows store) :
    world.Adds held { world with store := store } :=
  ⟨.of_store held grown.extends, grown, id⟩

/-- Dropping bindings binds nothing. -/
theorem Follows.of_isPartOf (held : Target → Prop) (isPart : table.IsPartOf (world.table handle)) :
    world.Follows held (world.setTable handle table) where
  store := .refl _
  bound := by
    rintro target ⟨constant, binds⟩
    rcases binds_setTable binds with ⟨kind, name, bound⟩ | binds
    · exact .inl ⟨constant, handle, kind, name, isPart _ _ _ bound⟩
    · exact .inl ⟨constant, binds⟩

theorem Adds.of_insert {store : Store} {name : String} (grown : world.store.Grows store)
    (free : (world.table handle).lookup name = none)
    (usable : ∀ target constant, binding = Target.binding constant target →
      held target ∨ target.IsFresh world.store store) :
    world.Adds held ({ world with store := store }.setTable handle ((world.table handle).insert name binding)) where
  store := grown.extends
  grows := grown
  kept binds := by
    have binds : Binds { world with store := store } _ := binds
    exact binds.setTable (SymbolTable.isPartOf_insert free binding)
  bound := by
    rintro target ⟨constant, binds⟩
    rcases binds_setTable binds with ⟨kind, found, bound⟩ | binds
    · rcases SymbolTable.lookup_ofKind_insert_cases bound with ⟨-, -, same⟩ | bound
      · exact .inr (usable target constant same.symm)
      · exact .inl ⟨constant, handle, kind, found, bound⟩
    · exact .inl ⟨constant, binds⟩

end World

/-! ## Operations -/

namespace Operation

/-- Whether the host needs a handle of the cell for the operation. -/
def Uses (target : Target) : Operation → Prop
  | .request _ _ (.addScalar cell _) | .setNumber cell _ => target = .number cell
  | .request _ _ (.addString cell _) | .setString cell _ => target = .string cell
  | _ => False

/-- Whether the host writes the cell. -/
def Writes (target : Target) : Operation → Prop
  | .setNumber cell _ => target = .number cell
  | .setString cell _ => target = .string cell
  | _ => False

/-- Whether the operation unbinds nothing and writes nothing. -/
def IsAdditive : Operation → Prop
  | .request _ _ (.remove _) | .clear _ _ | .clearConstants _ => False
  | .setNumber _ _ | .setString _ _ | .setVector _ _ | .setElement _ _ _ => False
  | _ => True

/-- The cell that the host gets a handle of. -/
def gives (store : Store) : Operation → Option Target
  | .newNumber value => some (.number (store.newNumber value).1)
  | .newString content => some (.string (store.newString content).1)
  | _ => none

end Operation

namespace World

variable {held : Target → Prop} {world after : World} {handle : TableHandle} {name : String} {request : Request}

theorem usable_of_binds {binding : Binding} {store : Store} (binds : request.binds world.store = some (binding, store))
    (usable : ∀ target, (Operation.request handle name request).Uses target → held target) (target : Target)
    (constant : Bool) (same : binding = target.binding constant) :
    held target ∨ target.IsFresh world.store store := by
  subst same
  cases target <;> cases request <;> cases binds
  case number.addScalar | string.addString => exact .inl (usable _ rfl)
  case number.createScalar => exact .inr (Target.isFresh_newNumber _ _)
  case string.createString => exact .inr (Target.isFresh_newString _ _)

theorem follows_request (usable : ∀ target, (Operation.request handle name request).Uses target → held target) :
    world.Follows held (world.perform (.request handle name request)) := by
  change world.Follows held (world.after (world.request handle name request))
  cases outcome : world.request handle name request with
  | error => exact .refl held world
  | ok after =>
    cases request_eq_ok_iff.mp outcome with
    | bound binds _ free =>
      exact (Adds.of_insert (request.grows_of_binds binds) free (usable_of_binds binds usable)).toFollows
    | removed => exact .of_isPartOf held (SymbolTable.isPartOf_erase _ _ _)

theorem adds_request (additive : (Operation.request handle name request).IsAdditive)
    (usable : ∀ target, (Operation.request handle name request).Uses target → held target) :
    world.Adds held (world.perform (.request handle name request)) := by
  change world.Adds held (world.after (world.request handle name request))
  cases outcome : world.request handle name request with
  | error => exact .refl held world
  | ok after =>
    cases request_eq_ok_iff.mp outcome with
    | bound binds _ free => exact .of_insert (request.grows_of_binds binds) free (usable_of_binds binds usable)
    | removed => exact additive.elim

/-- The three constants are new cells. -/
theorem adds_addConstants (held : Target → Prop) (world : World) (handle : TableHandle) :
    world.Adds held (world.perform (.addConstants handle)) := by
  have adds (world : World) (name : String) (value : Float) :
      world.Adds held (world.perform (.request handle name (.createScalar value true))) :=
    adds_request trivial fun _ => False.elim
  rw [perform_addConstants]
  exact ((adds _ _ _).trans (adds _ _ _)).trans (adds _ _ _)

theorem isFresh_copyBinding {store : Store} {binding : Binding} {target : Target} {constant : Bool}
    (same : (copyBinding store binding).1 = target.binding constant) :
    target.IsFresh store (copyBinding store binding).2 := by
  cases target <;> cases binding <;> cases same
  · exact Target.isFresh_newNumber _ _
  · exact Target.isFresh_newString _ _

/-- What is merged into a table is bound to new cells. -/
theorem copies_fresh {entries : List (String × Binding)} {start finish : SymbolTable × Store}
    (path : Relation.ReflTransGen (Copies entries) start finish) :
    start.2.Grows finish.2 ∧ start.1.IsPartOf finish.1 ∧
      ∀ target kind name constant, (finish.1.ofKind kind).lookup name = some (Target.binding constant target) →
        (start.1.ofKind kind).lookup name = some (Target.binding constant target) ∨
          target.IsFresh start.2 finish.2 := by
  induction path with
  | refl => exact ⟨.refl _, fun _ _ _ => id, fun _ _ _ _ => .inl⟩
  | tail _ copy induction =>
    obtain ⟨grown, isPart, fresh⟩ := induction
    cases copy with
    | @intro table name binding store listed free =>
      have more := grows_copyBinding store binding
      refine ⟨grown.trans more, fun kind found other bound => ?_, fun target kind found constant bound => ?_⟩
      · exact SymbolTable.isPartOf_insert free _ _ _ _ (isPart _ _ _ bound)
      · rcases SymbolTable.lookup_ofKind_insert_cases bound with ⟨-, -, same⟩ | bound
        · exact .inr ((isFresh_copyBinding same.symm).earlier grown.extends)
        · exact (fresh target kind found constant bound).imp_right (·.later more.extends)

theorem adds_loadFrom (held : Target → Prop) (world : World) (handle source : TableHandle) :
    world.Adds held (world.perform (.loadFrom handle source)) := by
  rcases world.perform_loadFrom handle source with same | ⟨table, store, path, merged⟩
  · rw [same]
    exact .refl held world
  · obtain ⟨grown, isPart, fresh⟩ := copies_fresh path
    rw [merged]
    refine ⟨⟨grown.extends, ?_⟩, grown, fun binds => ?_⟩
    · rintro target ⟨constant, binds⟩
      rcases binds_setTable binds with ⟨kind, name, bound⟩ | binds
      · exact (fresh target kind name constant bound).imp (fun bound => ⟨constant, handle, kind, name, bound⟩) .inr
      · exact .inl ⟨constant, binds⟩
    · have binds : Binds { world with store := store } _ := binds
      exact binds.setTable isPart

theorem adds_newTable (held : Target → Prop) (world : World) : world.Adds held (world.perform .newTable) := by
  have same {binding : Binding} : (world.perform .newTable).Binds binding ↔ world.Binds binding := by
    simp only [Binds, perform, table_newTable]
  have used {target : Target} (bound : (world.perform .newTable).BindsCell target) : world.BindsCell target := by
    obtain ⟨constant, binds⟩ := bound
    exact ⟨constant, same.mp binds⟩
  exact ⟨⟨.refl _, fun bound => .inl (used bound)⟩, .refl _, same.mpr⟩

theorem adds_perform {operation : Operation} (additive : operation.IsAdditive)
    (usable : ∀ target, operation.Uses target → held target) : world.Adds held (world.perform operation) := by
  cases operation with
  | newTable => exact adds_newTable held world
  | newNumber => exact .of_store held (.newNumber _ _)
  | newString => exact .of_store held (.newString _ _)
  | newVector => exact .of_store held (.newVector _ _)
  | newFunction => exact .of_store held (.newFunction _ _ _)
  | request => exact adds_request additive usable
  | addConstants handle => exact adds_addConstants held world handle
  | loadFrom handle source => exact adds_loadFrom held world handle source
  | clear | clearConstants | setNumber | setString | setVector | setElement => exact additive.elim

/-- Whatever the host does with cells that it holds, no other cell that was in use comes to be bound. -/
theorem follows_perform {operation : Operation} (usable : ∀ target, operation.Uses target → held target) :
    world.Follows held (world.perform operation) := by
  cases operation with
  | request => exact follows_request usable
  | clear handle kind => exact .of_isPartOf held (SymbolTable.isPartOf_clear _ _)
  | clearConstants handle => exact .of_isPartOf held (SymbolTable.isPartOf_clearConstants _)
  | setNumber => exact .of_store held (.setNumber _ _ _)
  | setString => exact .of_store held (.setString _ _ _)
  | setVector => exact .of_store held (.setVector _ _ _)
  | setElement => exact .of_store held (.setElement _ _ _ _)
  | _ => exact (adds_perform (by trivial) usable).toFollows

/-- An operation leaves the content of every cell that it does not write. -/
theorem isSame_perform {operation : Operation} {target : Target} (inUse : target.IsInUse world.store)
    (other : ¬operation.Writes target) : target.IsSame world.store (world.perform operation).store := by
  by_cases additive : operation.IsAdditive
  · have adds := @adds_perform (fun _ => True) world operation additive fun _ _ => trivial
    exact Target.isSame_of_grows adds.grows inUse
  have itself : world.store.Resembles (· = target) world.store := Store.resembles_refl
  cases operation with
  | setNumber => exact Target.isSame_of_resembles (itself.setNumber (fun same => other same.symm) _)
  | setString => exact Target.isSame_of_resembles (itself.setString (fun same => other same.symm) _)
  | setVector => exact Target.isSame_of_resembles (itself.setVector _ _)
  | setElement => exact Target.isSame_of_resembles (itself.setElement _ _ _)
  | clear | clearConstants => exact .refl _ target
  | request handle name request =>
    change target.IsSame _ (world.after (world.request handle name request)).store
    cases outcome : world.request handle name request with
    | error => exact .refl _ target
    | ok after => exact Target.isSame_of_grows (request_eq_ok_iff.mp outcome).store_grows inUse
  | _ => exact absurd trivial additive

end World

end LiveExpr
