import LiveExpr.Proofs.World.Regularity
import LiveExpr.Proofs.World.Session

/-!
The worlds that a host comes to. A host cannot make up a handle, so it binds only cells that are in use; a resolver that
it lends to a compilation may hold handles of the cells that were there when the compilation began. In all these worlds
the tables are regular, and whatever they bind is in use.
-/

namespace LiveExpr

def Request.IsPossible (store : Store) : Request → Prop
  | .addScalar cell constant => (Binding.scalar cell constant).IsInUse store
  | .addString cell constant => (Binding.string cell constant).IsInUse store
  | .addVector cell => (Binding.vector cell).IsInUse store
  | _ => True

def Operation.IsPossible (store : Store) : Operation → Prop
  | .request _ _ wish => wish.IsPossible store
  | _ => True

namespace World

/-- What a host comes to from a world by possible operations, by evaluations, and by compilations whose resolver, if
there is one, does no more than a host does who holds the cells of now. -/
inductive Reaches : World → World → Prop
  | refl (world : World) : Reaches world world
  | perform {before after : World} (run : Reaches before after) (operation : Operation)
      (possible : operation.IsPossible after.store) : Reaches before (after.perform operation)
  | evaluate {before after : World} (run : Reaches before after) {node : AnyNode} {fuel : Nat}
      {content : node.1.Content} {store : Store} (evaluated : node.2.eval fuel after.store = some (content, store)) :
      Reaches before { after with store := store }
  | compile {before after : World} (run : Reaches before after) (environment : Environment) (source : String)
      (lawful : ∀ resolver, environment.resolver = some resolver → ∀ name world, after.store.Extends world.store →
        Reaches world (resolver name environment.table world).2) :
      Reaches before (Compilation.ofSource environment source after).world

structure IsIntact (world : World) : Prop where
  regular : world.IsRegular
  inUse {binding : Binding} (binds : world.Binds binding) : binding.IsInUse world.store

variable {world after : World} {handle : TableHandle}

theorem isIntact_empty : World.empty.IsIntact where
  regular := isRegular_empty
  inUse := by
    rintro binding ⟨handle, kind, name, bound⟩
    change (SymbolTable.empty.ofKind kind).lookup name = _ at bound
    rw [SymbolTable.lookup_ofKind_empty] at bound
    cases bound

/-! ## Operations -/

theorem extends_perform (world : World) (operation : Operation) :
    world.store.Extends (world.perform operation).store := by
  have follows : world.Follows (fun _ => True) (world.perform operation) := follows_perform fun _ _ => trivial
  exact follows.store

theorem isInUse_of_binds {request : Request} {store : Store} {binding : Binding}
    (possible : request.IsPossible world.store) (binds : request.binds world.store = some (binding, store)) :
    binding.IsInUse store := by
  cases request <;> cases binds
  case addScalar | addString | addVector => exact possible
  case createScalar | createString | createVector =>
    exact Nat.lt_of_lt_of_eq (Nat.lt_succ_self _) (Cells.size_push ..).symm
  case addFunction | createFunction => trivial

theorem isInUse_copyBinding (store : Store) (binding : Binding) :
    (copyBinding store binding).1.IsInUse (copyBinding store binding).2 := by
  cases binding with
  | scalar | string | vector => exact Nat.lt_of_lt_of_eq (Nat.lt_succ_self _) (Cells.size_push ..).symm
  | function => trivial

namespace IsIntact

theorem later (intact : world.IsIntact) {store : Store} (extended : world.store.Extends store)
    (regular : IsRegular { world with store := store }) : IsIntact { world with store := store } where
  regular := regular
  inUse binds := Binding.IsInUse.extend (intact.inUse binds) extended

theorem inUse_setTable {store : Store} {table : SymbolTable} {binding : Binding} (intact : world.IsIntact)
    (extended : world.store.Extends store)
    (inUse : ∀ kind name binding, (table.ofKind kind).lookup name = some binding → binding.IsInUse store)
    (binds : (setTable { world with store := store } handle table).Binds binding) : binding.IsInUse store := by
  rcases binds_setTable binds with ⟨kind, name, bound⟩ | binds
  · exact inUse kind name binding bound
  · exact (intact.inUse binds).extend extended

theorem inUse_isPartOf {table : SymbolTable} {binding : Binding} (intact : world.IsIntact)
    (isPart : table.IsPartOf (world.table handle)) (binds : (world.setTable handle table).Binds binding) :
    binding.IsInUse world.store :=
  intact.inUse_setTable (.refl _) (fun kind name _ bound => intact.inUse ⟨handle, kind, name, isPart _ _ _ bound⟩) binds

theorem inUse_request {name : String} {request : Request} {binding : Binding} (intact : world.IsIntact)
    (possible : request.IsPossible world.store)
    (binds : (world.perform (.request handle name request)).Binds binding) :
    binding.IsInUse (world.perform (.request handle name request)).store := by
  change (world.after (world.request handle name request)).Binds binding at binds
  change binding.IsInUse (world.after (world.request handle name request)).store
  cases outcome : world.request handle name request with
  | error =>
    rw [outcome] at binds
    exact intact.inUse binds
  | ok after =>
    rw [outcome] at binds
    cases request_eq_ok_iff.mp outcome with
    | bound made _ free =>
      have extended := (request.grows_of_binds made).extends
      refine intact.inUse_setTable extended (fun kind found other bound => ?_) binds
      rcases SymbolTable.lookup_ofKind_insert_cases bound with ⟨-, -, rfl⟩ | bound
      · exact isInUse_of_binds possible made
      · exact (intact.inUse ⟨handle, kind, found, bound⟩).extend extended
    | removed => exact intact.inUse_isPartOf (SymbolTable.isPartOf_erase _ _ _) binds

theorem request {name : String} {request : Request} (intact : world.IsIntact)
    (possible : request.IsPossible world.store) : (world.perform (.request handle name request)).IsIntact :=
  ⟨intact.regular.perform _, intact.inUse_request possible⟩

theorem inUse_copies {entries : List (String × Binding)} {start finish : SymbolTable × Store}
    (path : Relation.ReflTransGen (Copies entries) start finish)
    (inUse : ∀ kind name binding, (start.1.ofKind kind).lookup name = some binding → binding.IsInUse start.2) :
    ∀ kind name binding, (finish.1.ofKind kind).lookup name = some binding → binding.IsInUse finish.2 := by
  induction path with
  | refl => exact inUse
  | tail _ copy induction =>
    cases copy with
    | @intro table name binding store listed free =>
      intro kind found other bound
      rcases SymbolTable.lookup_ofKind_insert_cases bound with ⟨-, -, rfl⟩ | bound
      · exact isInUse_copyBinding store binding
      · exact (induction kind found other bound).extend (grows_copyBinding store binding).extends

theorem inUse_loadFrom {source : TableHandle} {binding : Binding} (intact : world.IsIntact)
    (binds : (world.perform (.loadFrom handle source)).Binds binding) :
    binding.IsInUse (world.perform (.loadFrom handle source)).store := by
  have extended := world.extends_perform (.loadFrom handle source)
  rcases world.perform_loadFrom handle source with same | ⟨table, store, path, merged⟩
  · rw [same] at binds ⊢
    exact intact.inUse binds
  · rw [merged] at binds extended ⊢
    exact intact.inUse_setTable extended
      (inUse_copies path fun kind name _ bound => intact.inUse ⟨handle, kind, name, bound⟩) binds

/-- Every possible operation keeps the tables regular and what they bind in use. -/
theorem perform (intact : world.IsIntact) {operation : Operation} (possible : operation.IsPossible world.store) :
    (world.perform operation).IsIntact := by
  have regular := intact.regular.perform operation
  have extended := world.extends_perform operation
  cases operation with
  | request => exact intact.request possible
  | addConstants handle =>
    rw [perform_addConstants]
    have bound (world : World) (intact : world.IsIntact) (name : String) (value : Float) :
        (world.perform (.request handle name (.createScalar value true))).IsIntact := intact.request trivial
    exact bound _ (bound _ (bound _ intact _ _) _ _) _ _
  | loadFrom => exact ⟨regular, intact.inUse_loadFrom⟩
  | clear handle kind => exact ⟨regular, intact.inUse_isPartOf (SymbolTable.isPartOf_clear _ _)⟩
  | clearConstants handle => exact ⟨regular, intact.inUse_isPartOf (SymbolTable.isPartOf_clearConstants _)⟩
  | newTable =>
    refine ⟨regular, ?_⟩
    rintro binding ⟨handle, kind, name, bound⟩
    have same : (world.perform .newTable).table handle = world.table handle := table_newTable world handle
    rw [same] at bound
    exact intact.inUse ⟨handle, kind, name, bound⟩
  | _ => exact intact.later extended regular

end IsIntact

/-! ## Runs -/

theorem Effect.asks_or_performs {environment : Environment} {accepted : List String}
    (effect : world.Effect environment accepted after) :
    world.Asks environment after ∨
      ∃ operation : Operation, operation.IsPossible world.store ∧ after = world.perform operation := by
  cases effect with
  | @ask resolver installed name => exact .inl ⟨resolver, name, installed, rfl⟩
  | @create _ _ _ _ name _ created =>
    refine .inr ⟨.request environment.table name (.createScalar 0.0 false), trivial, ?_⟩
    exact (congrArg world.after created).symm
  | number => exact .inr ⟨.newNumber _, trivial, rfl⟩
  | string => exact .inr ⟨.newString _, trivial, rfl⟩
  | vector => exact .inr ⟨.newVector _, trivial, rfl⟩

theorem Reaches.preserves {before : World} (run : before.Reaches after) (intact : before.IsIntact) :
    before.store.Extends after.store ∧ after.IsIntact := by
  induction run with
  | refl => exact ⟨.refl _, intact⟩
  | perform _ operation possible induction =>
    obtain ⟨extended, intact⟩ := induction intact
    exact ⟨extended.trans (extends_perform _ operation), intact.perform possible⟩
  | evaluate _ evaluated induction =>
    obtain ⟨extended, intact⟩ := induction intact
    have regular := intact.regular.later (Store.keepsFilled_of_lengths (AnyNode.lengths_of_eval evaluated))
    exact ⟨extended.trans (AnyNode.extends_of_eval evaluated),
      intact.later (AnyNode.extends_of_eval evaluated) regular⟩
  | @compile _ start _ environment source lawful induction asked =>
    obtain ⟨extended, intact⟩ := induction intact
    have effects := Compilation.ofSource_effects environment source start
    generalize (Compilation.ofSource environment source start).world = finish at effects
    -- the resolver is asked in worlds that have the cells of the first
    suffices kept : start.store.Extends finish.store ∧ finish.IsIntact from ⟨extended.trans kept.1, kept.2⟩
    induction effects with
    | refl => exact ⟨.refl _, intact⟩
    | tail _ effect step =>
      obtain ⟨further, intact⟩ := step
      rcases effect.asks_or_performs with ⟨resolver, name, installed, rfl⟩ | ⟨operation, possible, rfl⟩
      · obtain ⟨more, intact⟩ := asked resolver installed name _ further intact
        exact ⟨further.trans more, intact⟩
      · exact ⟨further.trans (extends_perform _ _), intact.perform possible⟩

/-- In every world that a host comes to, the tables are regular and what they bind is in use. -/
theorem Reaches.isIntact (run : World.empty.Reaches world) : world.IsIntact :=
  (run.preserves isIntact_empty).2

end World

end LiveExpr
