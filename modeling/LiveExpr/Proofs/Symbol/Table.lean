import LiveExpr.Proofs.Symbol.NameMap
import LiveExpr.World

/-!
Symbol tables through their look-ups: what an operation on a table, or on a table of a world, does to the bindings
that are found.
-/

namespace LiveExpr

theorem SymbolKind.mem_all (kind : SymbolKind) : kind ∈ all := by
  cases kind <;> decide

namespace SymbolTable

/-! ## The kinds of a table -/

theorem kind_of_ofKind {table : SymbolTable} {kind : SymbolKind} {name : String} {binding : Binding}
    (found : (table.ofKind kind).lookup name = some binding) : binding.kind = kind := by
  cases kind <;>
  · obtain ⟨slot, -, rfl⟩ := Option.map_eq_some_iff.mp ((NameMap.lookup_map _ _ _).symm.trans found)
    rfl

@[simp] theorem lookup_ofKind_empty (kind : SymbolKind) (name : String) : (empty.ofKind kind).lookup name = none := by
  cases kind <;> rfl

theorem lookup_ofKind {table : SymbolTable} {name : String} {binding : Binding}
    (bound : table.lookup name = some binding) : (table.ofKind binding.kind).lookup name = some binding := by
  obtain ⟨kind, -, found⟩ := List.exists_of_findSome?_eq_some bound
  rwa [kind_of_ofKind found]

theorem lookup_eq_none_iff {table : SymbolTable} {name : String} :
    table.lookup name = none ↔ ∀ kind, (table.ofKind kind).lookup name = none := by
  rw [lookup, List.findSome?_eq_none_iff]
  exact ⟨fun free kind => free kind kind.mem_all, fun free kind _ => free kind⟩

/-- If a name is bound under no other kind, it is bound to what is found under this one. -/
theorem lookup_of_ofKind {table : SymbolTable} {name : String} {binding : Binding}
    (found : (table.ofKind binding.kind).lookup name = some binding)
    (only : ∀ kind, kind ≠ binding.kind → (table.ofKind kind).lookup name = none) :
    table.lookup name = some binding := by
  cases bound : table.lookup name with
  | none => exact absurd (found.symm.trans (lookup_eq_none_iff.mp bound _)) nofun
  | some other =>
    have under := lookup_ofKind bound
    by_cases same : other.kind = binding.kind
    · rw [same] at under
      exact under.symm.trans found
    · exact absurd (under.symm.trans (only _ same)) nofun

/-! ## Insertions -/

theorem lookup_ofKind_insert_same (table : SymbolTable) (name : String) (binding : Binding) :
    ((table.insert name binding).ofKind binding.kind).lookup name = some binding := by
  cases binding <;> simp [insert, ofKind, Binding.kind]

theorem lookup_ofKind_insert_other {table : SymbolTable} {name other : String} {binding : Binding}
    {kind : SymbolKind} (different : other ≠ name ∨ kind ≠ binding.kind) :
    ((table.insert name binding).ofKind kind).lookup other = (table.ofKind kind).lookup other := by
  cases kind <;> cases binding <;> rcases different with different | different <;>
    simp_all [insert, ofKind, Binding.kind, NameMap.lookup_insert_other]

/-- What is found after an insertion is the new binding or was there before. -/
theorem lookup_ofKind_insert_cases {table : SymbolTable} {name other : String} {binding found : Binding}
    {kind : SymbolKind} (bound : ((table.insert name binding).ofKind kind).lookup other = some found) :
    (other = name ∧ kind = binding.kind ∧ found = binding) ∨ (table.ofKind kind).lookup other = some found := by
  by_cases same : other = name ∧ kind = binding.kind
  · obtain ⟨rfl, rfl⟩ := same
    rw [lookup_ofKind_insert_same] at bound
    exact .inl ⟨rfl, rfl, (Option.some.inj bound).symm⟩
  · rw [lookup_ofKind_insert_other (Decidable.not_and_iff_not_or_not.mp same)] at bound
    exact .inr bound

theorem lookup_insert_same {table : SymbolTable} {name : String} (free : table.lookup name = none)
    (binding : Binding) : (table.insert name binding).lookup name = some binding := by
  refine lookup_of_ofKind (lookup_ofKind_insert_same table name binding) fun kind different => ?_
  rw [lookup_ofKind_insert_other (.inr different)]
  exact lookup_eq_none_iff.mp free kind

theorem lookup_insert_other {name other : String} (different : other ≠ name) (table : SymbolTable)
    (binding : Binding) : (table.insert name binding).lookup other = table.lookup other := by
  simp only [lookup, lookup_ofKind_insert_other (.inl different)]

theorem lookup_insert_cases {table : SymbolTable} {name other : String} {binding found : Binding}
    (free : table.lookup name = none) (bound : (table.insert name binding).lookup other = some found) :
    (other = name ∧ found = binding) ∨ table.lookup other = some found := by
  by_cases equal : other = name
  · subst equal
    rw [lookup_insert_same free] at bound
    exact .inl ⟨rfl, (Option.some.inj bound).symm⟩
  · rw [lookup_insert_other equal] at bound
    exact .inr bound

/-! ## Removals -/

theorem lookup_ofKind_erase_same (table : SymbolTable) (name : String) (kind : SymbolKind) :
    ((table.erase name kind).ofKind kind).lookup name = none := by
  cases kind <;> simp [erase, ofKind]

theorem lookup_ofKind_erase_other {table : SymbolTable} {name other : String} {kind found : SymbolKind}
    (different : other ≠ name ∨ found ≠ kind) :
    ((table.erase name kind).ofKind found).lookup other = (table.ofKind found).lookup other := by
  cases kind <;> cases found <;> rcases different with different | different <;>
    simp_all [erase, ofKind, NameMap.lookup_remove_other]

def IsPartOf (table other : SymbolTable) : Prop :=
  ∀ kind name binding, (table.ofKind kind).lookup name = some binding → (other.ofKind kind).lookup name = some binding

theorem isPartOf_erase (table : SymbolTable) (name : String) (kind : SymbolKind) :
    (table.erase name kind).IsPartOf table := by
  intro found other binding bound
  by_cases same : other = name ∧ found = kind
  · rw [same.1, same.2, lookup_ofKind_erase_same] at bound
    cases bound
  · rwa [lookup_ofKind_erase_other (Decidable.not_and_iff_not_or_not.mp same)] at bound

theorem isPartOf_insert {table : SymbolTable} {name : String} (free : table.lookup name = none) (binding : Binding) :
    table.IsPartOf (table.insert name binding) := by
  intro kind other found bound
  rw [lookup_ofKind_insert_other]
  · exact bound
  · refine .inl fun same => ?_
    rw [same, lookup_eq_none_iff.mp free kind] at bound
    cases bound

theorem isPartOf_clear (table : SymbolTable) (kind : SymbolKind) : (table.clear kind).IsPartOf table := by
  intro found name binding bound
  cases kind <;> cases found <;> first | exact bound | (simp [clear, ofKind] at bound)

theorem isPartOf_clearConstants (table : SymbolTable) : table.clearConstants.IsPartOf table := by
  intro kind name binding bound
  cases kind with
  | scalar =>
    rw [clearConstants, ofKind, NameMap.lookup_map, Option.map_eq_some_iff] at bound
    obtain ⟨slot, found, rfl⟩ := bound
    rw [ofKind, NameMap.lookup_map, (NameMap.lookup_filter.mp found).1]
    rfl
  | string | vector | function => exact bound

/-! ## Additions -/

theorem add_eq_ok {table after : SymbolTable} {name : String} {binding : Binding}
    (added : table.add name binding = .ok after) : after = table.insert name binding := by
  unfold add at added
  split at added
  · cases added
  · cases added
    rfl

theorem lookup_eq_none_of_add {table after : SymbolTable} {name : String} {binding : Binding}
    (added : table.add name binding = .ok after) : table.lookup name = none := by
  unfold add checkName at added
  cases validated : Name.validate name with
  | error error =>
    rw [validated] at added
    cases added
  | ok =>
    rw [validated] at added
    cases bound : table.lookup name with
    | none => rfl
    | some binding =>
      have contained : table.contains name = true := by rw [contains, bound, Option.isSome_some]
      rw [contained] at added
      cases added

end SymbolTable

namespace World

@[simp] theorem table_setTable (world : World) (handle : TableHandle) (table : SymbolTable) :
    (world.setTable handle table).table handle = table :=
  Cells.get_set_same world.tables handle.index table

theorem table_setTable_other (world : World) {handle other : TableHandle} (different : other ≠ handle)
    (table : SymbolTable) : (world.setTable handle table).table other = world.table other := by
  refine Cells.get_set_other world.tables (fun same => different ?_) table
  cases handle
  cases other
  exact congrArg TableHandle.mk same

/-- A new table is as empty as it was before it was made. -/
@[simp] theorem table_newTable (world : World) (handle : TableHandle) :
    world.newTable.2.table handle = world.table handle := by
  by_cases same : handle.index = world.tables.size
  · rw [table, table, same, Cells.get_of_size_le (Nat.le_refl _)]
    exact Cells.get_push_same _ _
  · exact Cells.get_push_other _ same _

theorem add_inTable {world after : World} {handle : TableHandle} {name : String} {binding : Binding}
    (added : world.add handle name binding = .ok after) :
    (world.table handle).add name binding = .ok ((world.table handle).insert name binding) := by
  unfold add at added
  split at added
  · cases added
  · next table inTable => rw [inTable, SymbolTable.add_eq_ok inTable]

theorem add_eq_ok {world after : World} {handle : TableHandle} {name : String} {binding : Binding}
    (added : world.add handle name binding = .ok after) :
    after = world.setTable handle ((world.table handle).insert name binding) := by
  unfold add at added
  split at added
  · cases added
  · next table inTable =>
    cases added
    rw [SymbolTable.add_eq_ok inTable]

theorem lookup_of_createScalar {world after : World} {handle : TableHandle} {name : String} {value : Float}
    {constant : Bool} (created : world.createScalar handle name value constant = .ok after) :
    (world.table handle).lookup name = none := by
  have added := add_inTable created
  exact SymbolTable.lookup_eq_none_of_add added

theorem createScalar_eq_ok {world after : World} {handle : TableHandle} {name : String} {value : Float}
    {constant : Bool} (created : world.createScalar handle name value constant = .ok after) :
    after.store = (world.store.newNumber value).2 ∧
      after.table handle =
        (world.table handle).insert name (.scalar (world.store.newNumber value).1 constant) := by
  rw [add_eq_ok created]
  exact ⟨rfl, table_setTable _ handle _⟩

end World

end LiveExpr
