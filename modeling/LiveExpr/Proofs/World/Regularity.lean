import LiveExpr.Proofs.Compile.Effects
import LiveExpr.Proofs.Node.Preservation
import LiveExpr.Proofs.World.Operation
import Mathlib.Data.List.Nodup

/-!
The invariant of symbol tables: no name is bound under two kinds, every bound name is one that symbols may carry, every
bound vector has an element, and every bound function takes one to four arguments. Whatever a host does, and however it
has formulas compiled and evaluated in between, all tables keep it.
-/

namespace LiveExpr

/-! ## Stores -/

/-- Whether every vector that has an element still has one. -/
def Store.KeepsFilled (before after : Store) : Prop :=
  ∀ cell, before.vector cell ≠ [] → after.vector cell ≠ []

theorem Store.Grows.keepsFilled {before after : Store} (grown : before.Grows after) : before.KeepsFilled after := by
  intro cell filled
  by_cases inUse : cell.index < before.vectors.size
  · rwa [grown.vector inUse]
  · exact absurd (Cells.get_of_size_le (Nat.le_of_not_lt inUse)) filled

theorem Store.keepsFilled_of_lengths {before after : Store}
    (lengths : ∀ cell, (after.vector cell).length = (before.vector cell).length) : before.KeepsFilled after := by
  intro cell filled empty
  have none := lengths cell
  rw [empty] at none
  exact filled (List.eq_nil_of_length_eq_zero none.symm)

theorem Binding.IsAdmissible.later {before after : Store} {binding : Binding} (admissible : binding.IsAdmissible before)
    (kept : before.KeepsFilled after) : binding.IsAdmissible after := by
  cases binding with
  | scalar | string => trivial
  | vector cell => exact kept cell admissible
  | function => exact admissible

/-! ## Tables -/

theorem Name.validate_eq_ok_iff {name : String} :
    validate name = .ok () ↔
      isIdentifier name = true ∧ Terminal.keyword? name = none ∧ Builtin.find? name = none := by
  unfold validate isReserved
  cases isIdentifier name <;> cases Terminal.keyword? name <;> cases Builtin.find? name <;> simp

structure SymbolTable.IsRegular (store : Store) (table : SymbolTable) : Prop where
  unique {name : String} {kind other : SymbolKind} {binding found : Binding}
    (bound : (table.ofKind kind).lookup name = some binding) (also : (table.ofKind other).lookup name = some found) :
    kind = other
  valid {name : String} {kind : SymbolKind} {binding : Binding}
    (bound : (table.ofKind kind).lookup name = some binding) : Name.validate name = .ok ()
  admissible {name : String} {kind : SymbolKind} {binding : Binding}
    (bound : (table.ofKind kind).lookup name = some binding) : binding.IsAdmissible store

namespace SymbolTable

variable {store after : Store} {table : SymbolTable}

theorem isRegular_empty (store : Store) : SymbolTable.empty.IsRegular store where
  unique bound := by simp at bound
  valid bound := by simp at bound
  admissible bound := by simp at bound

theorem mem_entries {name : String} {binding : Binding} :
    (name, binding) ∈ table.entries ↔ ∃ kind, (table.ofKind kind).lookup name = some binding := by
  simp only [entries, List.mem_flatMap, NameMap.lookup_eq_some_iff]
  exact ⟨fun ⟨kind, _, listed⟩ => ⟨kind, listed⟩, fun ⟨kind, listed⟩ => ⟨kind, kind.mem_all, listed⟩⟩

namespace IsRegular

variable (regular : table.IsRegular store)

include regular

theorem later (kept : store.KeepsFilled after) : table.IsRegular after where
  unique := regular.unique
  valid := regular.valid
  admissible bound := (regular.admissible bound).later kept

theorem of_isPartOf {part : SymbolTable} (isPart : part.IsPartOf table) : part.IsRegular store where
  unique bound also := regular.unique (isPart _ _ _ bound) (isPart _ _ _ also)
  valid bound := regular.valid (isPart _ _ _ bound)
  admissible bound := regular.admissible (isPart _ _ _ bound)

theorem lookup_of_ofKind {kind : SymbolKind} {name : String} {binding : Binding}
    (found : (table.ofKind kind).lookup name = some binding) : table.lookup name = some binding := by
  have same := kind_of_ofKind found
  subst same
  refine SymbolTable.lookup_of_ofKind found fun kind different => ?_
  exact Option.eq_none_iff_forall_not_mem.mpr fun other also => different (regular.unique also found)

theorem nodup_entries : (table.entries.map (·.1)).Nodup := by
  have kinds : SymbolKind.all.Nodup := by decide
  rw [entries, List.map_flatMap, List.nodup_flatMap]
  refine ⟨fun kind _ => (table.ofKind kind).nodup_names, kinds.imp fun different name listed also => different ?_⟩
  obtain ⟨binding, bound⟩ := NameMap.mem_names_iff.mp listed
  obtain ⟨found, boundAlso⟩ := NameMap.mem_names_iff.mp also
  exact regular.unique bound boundAlso

theorem insert {name : String} {binding : Binding} (valid : Name.validate name = .ok ())
    (free : table.lookup name = none) (admissible : binding.IsAdmissible store) :
    (table.insert name binding).IsRegular store := by
  -- a name that was bound before is not the new one, which was free
  have old {found : String} {kind : SymbolKind} {other : Binding}
      (bound : (table.ofKind kind).lookup found = some other) : found ≠ name := by
    rintro rfl
    exact absurd (bound.symm.trans (lookup_eq_none_iff.mp free kind)) nofun
  constructor
  · intro found kind other one another bound also
    rcases lookup_ofKind_insert_cases bound with ⟨rfl, rfl, -⟩ | before
    · rcases lookup_ofKind_insert_cases also with ⟨-, rfl, -⟩ | before
      · rfl
      · exact absurd rfl (old before)
    · rcases lookup_ofKind_insert_cases also with ⟨rfl, -⟩ | alsoBefore
      · exact absurd rfl (old before)
      · exact regular.unique before alsoBefore
  · intro found kind other bound
    rcases lookup_ofKind_insert_cases bound with ⟨rfl, -⟩ | before
    · exact valid
    · exact regular.valid before
  · intro found kind other bound
    rcases lookup_ofKind_insert_cases bound with ⟨-, -, rfl⟩ | before
    · exact admissible
    · exact regular.admissible before

end IsRegular

end SymbolTable

/-! ## Worlds -/

namespace World

def IsRegular (world : World) : Prop :=
  ∀ handle, (world.table handle).IsRegular world.store

variable {world after : World}

theorem isRegular_empty : World.empty.IsRegular :=
  fun _ => SymbolTable.isRegular_empty _

namespace IsRegular

theorem later (regular : world.IsRegular) {store : Store} (kept : world.store.KeepsFilled store) :
    IsRegular { world with store := store } :=
  fun handle => (regular handle).later kept

theorem setTable (regular : world.IsRegular) {handle : TableHandle} {table : SymbolTable}
    (regularTable : table.IsRegular world.store) : (world.setTable handle table).IsRegular := by
  intro other
  by_cases same : other = handle
  · subst same
    rw [table_setTable]
    exact regularTable
  · rw [table_setTable_other _ same]
    exact regular other

theorem newTable (regular : world.IsRegular) : world.newTable.2.IsRegular := by
  intro handle
  rw [table_newTable]
  exact regular handle

theorem grants (regular : world.IsRegular) {handle : TableHandle} {name : String} {request : Request}
    (grants : world.Grants handle name request after) : after.IsRegular := by
  cases grants with
  | bound binds valid free admissible =>
    have kept := (request.grows_of_binds binds).keepsFilled
    exact (regular.later kept).setTable (((regular handle).later kept).insert valid free admissible)
  | removed => exact regular.setTable ((regular handle).of_isPartOf (SymbolTable.isPartOf_erase _ _ _))

theorem request (regular : world.IsRegular) (handle : TableHandle) (name : String) (request : Request) :
    (world.perform (.request handle name request)).IsRegular := by
  change (world.after (world.request handle name request)).IsRegular
  cases outcome : world.request handle name request with
  | ok after => exact regular.grants (request_eq_ok_iff.mp outcome)
  | error => exact regular

theorem admissible_copyBinding {store : Store} {binding : Binding} (admissible : binding.IsAdmissible store) :
    (copyBinding store binding).1.IsAdmissible (copyBinding store binding).2 := by
  cases binding with
  | scalar | string => trivial
  | vector cell =>
    change (store.vectors.push (store.vector cell)).get store.vectors.size ≠ []
    rw [Cells.get_push_same]
    exact admissible
  | function => exact admissible

theorem copies {entries : List (String × Binding)} {start finish : SymbolTable × Store}
    (path : Relation.ReflTransGen (Copies entries) start finish) (regular : start.1.IsRegular start.2)
    (source : ∀ name binding, (name, binding) ∈ entries →
      Name.validate name = .ok () ∧ binding.IsAdmissible start.2) :
    start.2.Grows finish.2 ∧ finish.1.IsRegular finish.2 := by
  induction path with
  | refl => exact ⟨.refl _, regular⟩
  | tail _ copy induction =>
    obtain ⟨grown, regular⟩ := induction
    cases copy with
    | @intro table name binding store listed free =>
      have more := grows_copyBinding store binding
      obtain ⟨valid, admissible⟩ := source name binding listed
      have copied := admissible_copyBinding (admissible.later grown.keepsFilled)
      exact ⟨grown.trans more, (regular.later more.keepsFilled).insert valid free copied⟩

theorem loadFrom (regular : world.IsRegular) (handle source : TableHandle) :
    (world.perform (.loadFrom handle source)).IsRegular := by
  rcases world.perform_loadFrom handle source with same | ⟨table, store, path, merged⟩
  · rwa [same]
  · obtain ⟨grown, regularTable⟩ := copies path (regular handle) fun name binding listed => by
      obtain ⟨kind, bound⟩ := SymbolTable.mem_entries.mp listed
      exact ⟨(regular source).valid bound, (regular source).admissible bound⟩
    rw [merged]
    exact (regular.later grown.keepsFilled).setTable regularTable

/-- Every operation keeps all tables regular. -/
theorem perform (regular : world.IsRegular) (operation : Operation) : (world.perform operation).IsRegular := by
  cases operation with
  | newTable => exact regular.newTable
  | newNumber => exact regular.later (Store.Grows.newNumber _ _).keepsFilled
  | newString => exact regular.later (Store.Grows.newString _ _).keepsFilled
  | newVector => exact regular.later (Store.Grows.newVector _ _).keepsFilled
  | newFunction => exact regular.later (Store.Grows.newFunction _ _ _).keepsFilled
  | request handle name request => exact regular.request handle name request
  | addConstants handle =>
    rw [perform_addConstants]
    exact ((regular.request _ _ _).request _ _ _).request _ _ _
  | clear handle kind => exact regular.setTable ((regular handle).of_isPartOf (SymbolTable.isPartOf_clear _ kind))
  | clearConstants handle =>
    exact regular.setTable ((regular handle).of_isPartOf (SymbolTable.isPartOf_clearConstants _))
  | loadFrom handle source => exact regular.loadFrom handle source
  | setNumber | setString => exact regular.later fun _ => id
  | setVector cell values =>
    have resembles := (@Store.resembles_refl (fun _ => False) world.store).setVector cell values
    exact regular.later (Store.keepsFilled_of_lengths resembles.lengths)
  | setElement cell index value =>
    have resembles := (@Store.resembles_refl (fun _ => False) world.store).setElement cell index value
    exact regular.later (Store.keepsFilled_of_lengths resembles.lengths)

theorem effect {environment : Environment} {accepted : List String}
    (lawful : ∀ resolver, environment.resolver = some resolver → ∀ name (world : World),
      world.IsRegular → (resolver name environment.table world).2.IsRegular)
    (regular : world.IsRegular) (effect : world.Effect environment accepted after) : after.IsRegular := by
  cases effect with
  | ask installed name => exact lawful _ installed name world regular
  | create _ _ created =>
    have granted : world.request environment.table _ (.createScalar 0.0 false) = .ok after := created
    exact regular.grants (request_eq_ok_iff.mp granted)
  | number => exact regular.perform (.newNumber _)
  | string => exact regular.perform (.newString _)
  | vector => exact regular.perform (.newVector _)

end IsRegular

/-! ## Runs -/

/-- What a host comes to from a world by operations, by evaluations, and by compilations whose resolver, if there is
one, does no more than a host does. -/
inductive Runs : World → World → Prop
  | refl (world : World) : Runs world world
  | perform {before after : World} (run : Runs before after) (operation : Operation) :
      Runs before (after.perform operation)
  | evaluate {before after : World} (run : Runs before after) {node : AnyNode} {fuel : Nat} {content : node.1.Content}
      {store : Store} (evaluated : node.2.eval fuel after.store = some (content, store)) :
      Runs before { after with store := store }
  | compile {before after : World} (run : Runs before after) (environment : Environment) (source : String)
      (lawful : ∀ resolver, environment.resolver = some resolver → ∀ name world,
        Runs world (resolver name environment.table world).2) :
      Runs before (Compilation.ofSource environment source after).world

theorem Runs.isRegular {before : World} (run : before.Runs after) (regular : before.IsRegular) : after.IsRegular := by
  induction run with
  | refl => exact regular
  | perform _ operation induction => exact (induction regular).perform operation
  | evaluate _ evaluated induction =>
    exact (induction regular).later (Store.keepsFilled_of_lengths (AnyNode.lengths_of_eval evaluated))
  | @compile _ start _ environment source _ induction lawful =>
    have effects := Compilation.ofSource_effects environment source start
    generalize (Compilation.ofSource environment source start).world = finish at effects
    induction effects with
    | refl => exact induction regular
    | tail _ effect step => exact step.effect lawful effect

/-! ## Requests in regular worlds -/

theorem contains_of_ofKind {table : SymbolTable} {name : String} {kind : SymbolKind} {binding : Binding}
    (found : (table.ofKind kind).lookup name = some binding) : table.contains name = true := by
  rw [SymbolTable.contains, Option.isSome_iff_ne_none]
  intro free
  rw [SymbolTable.lookup_eq_none_iff.mp free kind] at found
  cases found

theorem IsRegular.contains_grants (regular : world.IsRegular) {handle : TableHandle} {name : String} {request : Request}
    (grants : world.Grants handle name request after) :
    (after.table handle).contains name = !(world.table handle).contains name := by
  cases grants with
  | bound binds valid free admissible =>
    rw [table_setTable, SymbolTable.contains, SymbolTable.contains, free, SymbolTable.lookup_insert_same free]
    rfl
  | @removed kind binding found =>
    have gone : ((world.table handle).erase name kind).lookup name = none := by
      refine SymbolTable.lookup_eq_none_iff.mpr fun other => Option.eq_none_iff_forall_not_mem.mpr fun still bound => ?_
      have before := SymbolTable.isPartOf_erase _ _ _ _ _ _ bound
      rw [← (regular handle).unique found before, SymbolTable.lookup_ofKind_erase_same] at bound
      cases bound
    rw [table_setTable, SymbolTable.contains, gone, contains_of_ofKind found]
    rfl

/-- The symbol tables of a host that starts with nothing, whatever it has done. A name is bound under one kind at most;
it has the shape of an identifier and is no keyword and no built-in function; vectors have elements, and functions take
one to four arguments. A request that is refused leaves the world as it was, and one that is granted binds or unbinds
its name, and changes no other binding and no cell. -/
theorem isRegular_of_runs (run : World.empty.Runs world) :
    (∀ handle name kind other, name ∈ (world.table handle).names kind → name ∈ (world.table handle).names other →
      kind = other) ∧
    (∀ handle name kind, name ∈ (world.table handle).names kind →
      Name.isIdentifier name = true ∧ Terminal.keyword? name = none ∧ Builtin.find? name = none) ∧
    (∀ handle name cell, (world.table handle).vector? name = some cell → world.store.vector cell ≠ []) ∧
    (∀ handle name function, (world.table handle).function? name = some function →
      1 ≤ function.arity ∧ function.arity ≤ 4) ∧
    ∀ handle name request,
      (∀ error, world.request handle name request = .error error →
        world.perform (.request handle name request) = world) ∧
      ∀ after, world.request handle name request = .ok after →
        world.perform (.request handle name request) = after ∧ world.store.Grows after.store ∧
        (after.table handle).contains name = !(world.table handle).contains name ∧
        ∀ other found, other ≠ handle ∨ found ≠ name → ∀ kind,
          ((after.table other).ofKind kind).lookup found = ((world.table other).ofKind kind).lookup found := by
  have regular := run.isRegular isRegular_empty
  refine ⟨fun handle name kind other bound also => ?_, fun handle name kind bound => ?_,
    fun handle name cell bound => ?_, fun handle name function bound => ?_,
    fun handle name request => ⟨fun error refused => ?_, fun after granted => ?_⟩⟩
  · obtain ⟨binding, bound⟩ := NameMap.mem_names_iff.mp bound
    obtain ⟨found, also⟩ := NameMap.mem_names_iff.mp also
    exact (regular handle).unique bound also
  · obtain ⟨binding, bound⟩ := NameMap.mem_names_iff.mp bound
    exact Name.validate_eq_ok_iff.mp ((regular handle).valid bound)
  · have found : ((world.table handle).ofKind .vector).lookup name = some (.vector cell) := by
      rw [SymbolTable.ofKind, NameMap.lookup_map]
      exact congrArg _ bound
    exact (regular handle).admissible found
  · have found : ((world.table handle).ofKind .function).lookup name = some (.function function) := by
      rw [SymbolTable.ofKind, NameMap.lookup_map]
      exact congrArg _ bound
    exact (regular handle).admissible found
  · rw [perform, refused]
    rfl
  · have grants := request_eq_ok_iff.mp granted
    refine ⟨?_, grants.store_grows, regular.contains_grants grants, fun _ _ => grants.lookup_other⟩
    rw [perform, granted]
    rfl

/-- After a scalar and a vector have been created, a second scalar of the name of the vector is refused. -/
theorem isRegular_of_runs_twoNames :
    let world := ((World.empty.perform .newTable).perform (.request ⟨0⟩ "x" (.createScalar 1.0 false))).perform
      (.request ⟨0⟩ "v" (.createVector [1.0, 2.0]))
    World.empty.Runs world ∧ world.store.vector ⟨0⟩ ≠ [] ∧
      world.perform (.request ⟨0⟩ "v" (.createScalar 2.0 true)) = world := by
  intro world
  have run : World.empty.Runs world := (((Runs.refl _).perform _).perform _).perform _
  have invariant := isRegular_of_runs run
  refine ⟨run, invariant.2.2.1 ⟨0⟩ "v" ⟨0⟩ rfl, (invariant.2.2.2.2 ⟨0⟩ "v" (.createScalar 2.0 true)).1 _ rfl⟩

end World

end LiveExpr
