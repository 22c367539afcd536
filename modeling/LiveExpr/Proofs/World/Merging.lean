import LiveExpr.Proofs.Store.Allocation
import LiveExpr.Proofs.World.Reachability

/-!
Merging one table into another. Names that are bound already stay as they are; each other name of the source gets a cell
of its own with the content of the cell that the source has for it, also where the source has one cell for two names.
-/

namespace LiveExpr

/-! ## Copies of bindings -/

def Cell.IsFresh (before after : Store) (cell : Cell) : Prop :=
  ¬cell.IsInUse before ∧ cell.IsInUse after

/-- Whether a binding has been copied between the two stores: the copy is constant if the original is, and stands for a
cell of its own with the same content, or for the same function. -/
inductive Binding.IsCopied (before after : Store) : Binding → Binding → Prop
  | scalar {cell copy : NumberCell} (constant : Bool) (fresh : (Cell.number copy).IsFresh before after)
      (same : after.number copy = before.number cell) :
      IsCopied before after (.scalar cell constant) (.scalar copy constant)
  | string {cell copy : StringCell} (constant : Bool) (fresh : (Cell.string copy).IsFresh before after)
      (same : after.string copy = before.string cell) :
      IsCopied before after (.string cell constant) (.string copy constant)
  | vector {cell copy : VectorCell} (fresh : (Cell.vector copy).IsFresh before after)
      (same : after.vector copy = before.vector cell) : IsCopied before after (.vector cell) (.vector copy)
  | function (handle : FunctionHandle) : IsCopied before after (.function handle) (.function handle)

namespace Binding.IsCopied

variable {before middle after : Store} {original copy : Binding}

theorem kind_eq (copied : original.IsCopied before after copy) : copy.kind = original.kind := by
  cases copied <;> rfl

theorem isFresh (copied : original.IsCopied before after copy) {cell : Cell} (holds : copy.cell? = some cell) :
    cell.IsFresh before after := by
  cases copied with
  | scalar _ fresh | string _ fresh | vector fresh =>
    cases holds
    exact fresh
  | function => cases holds

theorem later (copied : original.IsCopied before middle copy) (grown : middle.Grows after) :
    original.IsCopied before after copy := by
  cases copied with
  | scalar constant fresh same =>
    exact .scalar constant ⟨fresh.1, fresh.2.extend grown.extends⟩ ((grown.number fresh.2).trans same)
  | string constant fresh same =>
    exact .string constant ⟨fresh.1, fresh.2.extend grown.extends⟩ ((grown.string fresh.2).trans same)
  | vector fresh same => exact .vector ⟨fresh.1, fresh.2.extend grown.extends⟩ ((grown.vector fresh.2).trans same)
  | function handle => exact .function handle

theorem earlier (grown : before.Grows middle) (inUse : original.IsInUse before)
    (copied : original.IsCopied middle after copy) : original.IsCopied before after copy := by
  cases copied with
  | scalar constant fresh same =>
    exact .scalar constant ⟨fun used => fresh.1 (used.extend grown.extends), fresh.2⟩ (same.trans (grown.number inUse))
  | string constant fresh same =>
    exact .string constant ⟨fun used => fresh.1 (used.extend grown.extends), fresh.2⟩ (same.trans (grown.string inUse))
  | vector fresh same =>
    exact .vector ⟨fun used => fresh.1 (used.extend grown.extends), fresh.2⟩ (same.trans (grown.vector inUse))
  | function handle => exact .function handle

end Binding.IsCopied

theorem World.isCopied_copyBinding (store : Store) (binding : Binding) :
    binding.IsCopied store (copyBinding store binding).2 (copyBinding store binding).1 := by
  cases binding with
  | scalar cell constant =>
    have allocated := store.isInUse_allocate (.number (store.number cell))
    exact .scalar constant ⟨store.not_isInUse_allocate (.number (store.number cell)), allocated⟩
      (Cells.get_push_same _ _)
  | string cell constant =>
    have allocated := store.isInUse_allocate (.text (store.string cell))
    exact .string constant ⟨store.not_isInUse_allocate (.text (store.string cell)), allocated⟩
      (Cells.get_push_same _ _)
  | vector cell =>
    have allocated := store.isInUse_allocate (.vector (store.vector cell))
    exact .vector ⟨store.not_isInUse_allocate (.vector (store.vector cell)), allocated⟩ (Cells.get_push_same _ _)
  | function handle => exact .function handle

/-! ## Copied entries -/

namespace World

/-- What copying entries into a table comes to: the names that are `added` were free, and are bound to copies which have
no cell in common. -/
structure CopiesEntries (entries : List (String × Binding)) (table : SymbolTable) (store : Store) (added : List String)
    (merged : SymbolTable) (after : Store) : Prop where
  grows : store.Grows after
  nodup : added.Nodup
  mem_added {name : String} : name ∈ added ↔ table.lookup name = none ∧ ∃ binding, (name, binding) ∈ entries
  kept {name : String} (old : name ∉ added) (kind : SymbolKind) :
    (merged.ofKind kind).lookup name = (table.ofKind kind).lookup name
  copied {name : String} {binding : Binding} (new : name ∈ added) (listed : (name, binding) ∈ entries) :
    ∃ copy, merged.lookup name = some copy ∧ binding.IsCopied store after copy
  apart {name other : String} {binding found : Binding} {cell : Cell} (new : name ∈ added) (also : other ∈ added)
    (bound : merged.lookup name = some binding) (foundAlso : merged.lookup other = some found)
    (holds : binding.cell? = some cell) (shares : found.cell? = some cell) : name = other

namespace CopiesEntries

variable {rest : List (String × Binding)} {table merged : SymbolTable} {store after : Store} {added : List String}
  {name : String} {binding : Binding}

theorem nil (table : SymbolTable) (store : Store) : CopiesEntries [] table store [] table store where
  grows := .refl store
  nodup := .nil
  mem_added := by simp
  kept _ _ := rfl
  copied := nofun
  apart := nofun

theorem skip (bound : table.lookup name ≠ none) (copies : CopiesEntries rest table store added merged after) :
    CopiesEntries ((name, binding) :: rest) table store added merged after where
  grows := copies.grows
  nodup := copies.nodup
  mem_added {other} := by
    rw [copies.mem_added]
    refine and_congr_right fun free => exists_congr fun found => ?_
    have different : other ≠ name := fun same => bound (same ▸ free)
    simp [different]
  kept := copies.kept
  copied new listed := by
    rcases List.mem_cons.mp listed with same | listed
    · cases same
      exact absurd (copies.mem_added.mp new).1 bound
    · exact copies.copied new listed
  apart := copies.apart

variable (free : table.lookup name = none)

include free

theorem lookup_first (copies : CopiesEntries rest (table.insert name binding) store added merged after) :
    name ∉ added ∧ merged.lookup name = some binding := by
  have bound := SymbolTable.lookup_insert_same free binding
  have old : name ∉ added := fun new => absurd ((copies.mem_added.mp new).1.symm.trans bound) nofun
  exact ⟨old, by simp only [SymbolTable.lookup, copies.kept old]; exact bound⟩

/-- An entry whose name is free is copied. Whatever is copied after it has other cells. -/
theorem copy (inUse : ∀ entry ∈ rest, entry.2.IsInUse store) (names : ∀ entry ∈ rest, entry.1 ≠ name)
    (copies : CopiesEntries rest (table.insert name (copyBinding store binding).1) (copyBinding store binding).2 added
      merged after) :
    CopiesEntries ((name, binding) :: rest) table store (name :: added) merged after := by
  have more := grows_copyBinding store binding
  have first := isCopied_copyBinding store binding
  obtain ⟨old, boundFirst⟩ := copies.lookup_first free
  -- the later copies are fresh in a store where the first one is in use
  have distinct {other : String} {one found : Binding} {cell : Cell} (new : other ∈ added)
      (bound : merged.lookup name = some one) (foundAlso : merged.lookup other = some found)
      (holds : one.cell? = some cell) (shares : found.cell? = some cell) : False := by
    obtain ⟨original, listed⟩ := (copies.mem_added.mp new).2
    obtain ⟨copy, second, copied⟩ := copies.copied new listed
    cases boundFirst.symm.trans bound
    cases foundAlso.symm.trans second
    exact (copied.isFresh shares).1 (first.isFresh holds).2
  refine ⟨more.trans copies.grows, List.nodup_cons.mpr ⟨old, copies.nodup⟩, @fun other => ?_,
    @fun other unadded kind => ?_, @fun other found new listed => ?_,
    @fun one other _ _ _ new also bound foundAlso holds shares => ?_⟩
  · by_cases same : other = name
    · subst same
      simp [free]
    · rw [List.mem_cons, copies.mem_added, SymbolTable.lookup_insert_other same]
      simp [same]
  · obtain ⟨different, unadded⟩ := not_or.mp (mt List.mem_cons.mpr unadded)
    rw [copies.kept unadded, SymbolTable.lookup_ofKind_insert_other (.inl different)]
  · rcases List.mem_cons.mp listed with same | listed
    · cases same
      exact ⟨_, boundFirst, first.later copies.grows⟩
    · have new := (List.mem_cons.mp new).resolve_left (names _ listed)
      obtain ⟨copy, found, copied⟩ := copies.copied new listed
      exact ⟨copy, found, copied.earlier more (inUse _ listed)⟩
  · rcases List.mem_cons.mp new with rfl | later <;> rcases List.mem_cons.mp also with rfl | alsoLater
    · rfl
    · exact (distinct alsoLater bound foundAlso holds shares).elim
    · exact (distinct later foundAlso bound shares holds).elim
    · exact copies.apart later alsoLater bound foundAlso holds shares

end CopiesEntries

theorem copiesEntries_copyEntries {entries : List (String × Binding)} (names : (entries.map (·.1)).Nodup)
    (store : Store) (inUse : ∀ entry ∈ entries, entry.2.IsInUse store) (table : SymbolTable) (count : Nat) :
    ∃ added, (copyEntries store table count entries).1 = count + added.length ∧
      CopiesEntries entries table store added (copyEntries store table count entries).2.1
        (copyEntries store table count entries).2.2 := by
  induction entries generalizing store table count with
  | nil => exact ⟨[], rfl, .nil table store⟩
  | cons entry rest induction =>
    obtain ⟨name, binding⟩ := entry
    obtain ⟨other, names⟩ := List.nodup_cons.mp names
    have others (entry : String × Binding) (listed : entry ∈ rest) : entry.1 ≠ name :=
      fun same => other (List.mem_map.mpr ⟨entry, listed, same⟩)
    have restInUse (entry : String × Binding) (listed : entry ∈ rest) : entry.2.IsInUse store :=
      inUse entry (List.mem_cons_of_mem _ listed)
    rw [copyEntries]
    split
    · next contained =>
      obtain ⟨added, counted, copies⟩ := induction names store restInUse table count
      exact ⟨added, counted, copies.skip (Option.isSome_iff_ne_none.mp contained)⟩
    · next uncontained =>
      have free : table.lookup name = none := by
        rwa [SymbolTable.contains, Bool.not_eq_true, Option.isSome_eq_false_iff,
          Option.isNone_iff_eq_none] at uncontained
      have more := (grows_copyBinding store binding).extends
      have stillInUse (entry : String × Binding) (listed : entry ∈ rest) := (restInUse entry listed).extend more
      obtain ⟨added, counted, copies⟩ := induction names (copyBinding store binding).2 stillInUse
        (table.insert name (copyBinding store binding).1) (count + 1)
      refine ⟨name :: added, ?_, copies.copy free restInUse others⟩
      rw [counted, List.length_cons]
      omega

/-- Where all names are bound already, nothing is copied. -/
theorem copyEntries_of_contains {entries : List (String × Binding)} {table : SymbolTable}
    (contained : ∀ entry ∈ entries, table.contains entry.1 = true) (store : Store) (count : Nat) :
    copyEntries store table count entries = (count, table, store) := by
  induction entries with
  | nil => rfl
  | cons entry rest induction =>
    obtain ⟨first, others⟩ := List.forall_mem_cons.mp contained
    rw [copyEntries, if_pos first]
    exact induction others

/-! ## Merged tables -/

/-- What it is to merge a table into another: what was bound stays bound as it was, the other names of the source are
bound to copies, and no name besides; the copies have no cell in common with each other or with what any table binds;
the names that are bound now and were not before have been counted; and no other table and no cell has changed. -/
structure Merges (world : World) (handle source : TableHandle) (count : Nat) (after : World) : Prop where
  kept {kind : SymbolKind} {name : String} {binding : Binding}
    (bound : ((world.table handle).ofKind kind).lookup name = some binding) :
    ((after.table handle).ofKind kind).lookup name = some binding
  copied {kind : SymbolKind} {name : String} {binding : Binding} (free : (world.table handle).lookup name = none)
    (bound : ((world.table source).ofKind kind).lookup name = some binding) :
    ∃ copy, ((after.table handle).ofKind kind).lookup name = some copy ∧
      binding.IsCopied world.store after.store copy
  only {kind : SymbolKind} {name : String} {binding : Binding}
    (bound : ((after.table handle).ofKind kind).lookup name = some binding) :
    ((world.table handle).ofKind kind).lookup name = some binding ∨
      (world.table handle).lookup name = none ∧
        ∃ original, ((world.table source).ofKind kind).lookup name = some original
  apart {kind also : SymbolKind} {name other : String} {table : TableHandle} {binding found : Binding} {cell : Cell}
    (new : (world.table handle).lookup name = none)
    (bound : ((after.table handle).ofKind kind).lookup name = some binding)
    (boundAlso : ((after.table table).ofKind also).lookup other = some found)
    (holds : binding.cell? = some cell) (shares : found.cell? = some cell) : table = handle ∧ other = name
  counted : ∃ added : List String, added.Nodup ∧ added.length = count ∧ ∀ name, name ∈ added ↔
    (world.table handle).lookup name = none ∧ (after.table handle).lookup name ≠ none
  others {other : TableHandle} (different : other ≠ handle) : after.table other = world.table other
  grows : world.store.Grows after.store

section

variable {world : World} {handle source : TableHandle} {added : List String} {merged : SymbolTable} {store : Store}
  (copies : CopiesEntries (world.table source).entries (world.table handle) world.store added merged store)

include copies

theorem CopiesEntries.not_mem_added {kind : SymbolKind} {name : String} {binding : Binding}
    (bound : ((world.table handle).ofKind kind).lookup name = some binding) : name ∉ added := by
  intro new
  have free := SymbolTable.lookup_eq_none_iff.mp (copies.mem_added.mp new).1 kind
  exact absurd (free.symm.trans bound) nofun

theorem CopiesEntries.mem_added_of_bound {kind : SymbolKind} {name : String} {binding : Binding}
    (free : (world.table handle).lookup name = none) (bound : (merged.ofKind kind).lookup name = some binding) :
    name ∈ added := by
  by_contra old
  rw [copies.kept old, SymbolTable.lookup_eq_none_iff.mp free] at bound
  cases bound

theorem CopiesEntries.merges (intact : world.IsIntact) (regular : merged.IsRegular store)
    (different : source ≠ handle) :
    world.Merges handle source added.length (setTable { world with store := store } handle merged) := by
  have changed : (setTable { world with store := store } handle merged).table handle = merged := table_setTable _ _ _
  have unchanged {other : TableHandle} (different : other ≠ handle) :
      (setTable { world with store := store } handle merged).table other = world.table other :=
    table_setTable_other _ different _
  refine ⟨?_, ?_, ?_, ?_, ?_, unchanged, copies.grows⟩ <;> rw [changed]
  · intro kind name binding bound
    rwa [copies.kept (copies.not_mem_added bound)]
  · intro kind name binding free bound
    have listed := SymbolTable.mem_entries.mpr ⟨kind, bound⟩
    obtain ⟨copy, found, copied⟩ := copies.copied (copies.mem_added.mpr ⟨free, binding, listed⟩) listed
    have ofKind := SymbolTable.lookup_ofKind found
    rw [copied.kind_eq, SymbolTable.kind_of_ofKind bound] at ofKind
    exact ⟨copy, ofKind, copied⟩
  · intro kind name binding bound
    by_cases new : name ∈ added
    · obtain ⟨free, original, listed⟩ := copies.mem_added.mp new
      obtain ⟨copy, found, copied⟩ := copies.copied new listed
      obtain ⟨also, boundAlso⟩ := SymbolTable.mem_entries.mp listed
      have same : kind = copy.kind := regular.unique bound (SymbolTable.lookup_ofKind found)
      rw [copied.kind_eq, SymbolTable.kind_of_ofKind boundAlso] at same
      exact .inr ⟨free, original, same ▸ boundAlso⟩
    · exact .inl (copies.kept new kind ▸ bound)
  · intro kind also name other table binding found cell free bound boundAlso holds shares
    have new := copies.mem_added_of_bound free bound
    obtain ⟨original, listed⟩ := (copies.mem_added.mp new).2
    obtain ⟨copy, first, copied⟩ := copies.copied new listed
    cases first.symm.trans (regular.lookup_of_ofKind bound)
    -- a cell that was bound before was in use, and this one was not
    have notBefore (before : ((world.table table).ofKind also).lookup other = some found) : False :=
      (copied.isFresh holds).1 (Binding.isInUse_of_cell? shares (intact.inUse ⟨table, also, other, before⟩))
    by_cases here : table = handle
    · subst here
      rw [changed] at boundAlso
      by_cases newAlso : other ∈ added
      · have second := regular.lookup_of_ofKind boundAlso
        exact ⟨rfl, (copies.apart new newAlso first second holds shares).symm⟩
      · exact (notBefore (copies.kept newAlso also ▸ boundAlso)).elim
    · rw [unchanged here] at boundAlso
      exact (notBefore boundAlso).elim
  · refine ⟨added, copies.nodup, rfl, fun name => ⟨fun new => ?_, fun ⟨free, bound⟩ => ?_⟩⟩
    · obtain ⟨free, original, listed⟩ := copies.mem_added.mp new
      obtain ⟨copy, found, -⟩ := copies.copied new listed
      exact ⟨free, found ▸ nofun⟩
    · obtain ⟨binding, found⟩ := Option.ne_none_iff_exists'.mp bound
      exact copies.mem_added_of_bound free (SymbolTable.lookup_ofKind found)

end

theorem IsIntact.merges {world : World} (intact : world.IsIntact) {handle source : TableHandle}
    (different : handle ≠ source) :
    world.Merges handle source (world.loadFrom handle source).1 (world.loadFrom handle source).2 := by
  have inUse (entry : String × Binding) (listed : entry ∈ (world.table source).entries) :
      entry.2.IsInUse world.store := by
    obtain ⟨kind, bound⟩ := SymbolTable.mem_entries.mp listed
    exact intact.inUse ⟨source, kind, entry.1, bound⟩
  obtain ⟨added, counted, copies⟩ :=
    copiesEntries_copyEntries (intact.regular source).nodup_entries world.store inUse (world.table handle) 0
  have regular := intact.regular.loadFrom handle source handle
  change ((world.loadFrom handle source).2.table handle).IsRegular (world.loadFrom handle source).2.store at regular
  rw [loadFrom, if_neg different] at regular ⊢
  dsimp only at regular ⊢
  rw [table_setTable] at regular
  rw [counted, Nat.zero_add]
  exact copies.merges intact regular (Ne.symm different)

/-- Where all names of the source are bound already, a merger changes nothing. -/
theorem loadFrom_of_contains {world : World} {handle source : TableHandle}
    (contained : ∀ entry ∈ (world.table source).entries, (world.table handle).contains entry.1 = true)
    (inUse : handle.index < world.tables.size) : world.loadFrom handle source = (0, world) := by
  rw [loadFrom]
  split
  · rfl
  · rw [copyEntries_of_contains contained]
    exact congrArg (fun tables => (0, World.mk world.store tables)) (world.tables.set_get inUse)

theorem Merges.loadFrom_again {world after : World} {handle source : TableHandle} {count : Nat}
    (merges : world.Merges handle source count after) (different : source ≠ handle)
    (inUse : handle.index < after.tables.size) : after.loadFrom handle source = (0, after) := by
  refine loadFrom_of_contains (fun entry listed => ?_) inUse
  rw [merges.others different] at listed
  obtain ⟨kind, bound⟩ := SymbolTable.mem_entries.mp listed
  cases before : (world.table handle).lookup entry.1 with
  | none =>
    obtain ⟨copy, bound, -⟩ := merges.copied before bound
    exact contains_of_ofKind bound
  | some binding => exact contains_of_ofKind (merges.kept (SymbolTable.lookup_ofKind before))

/-- Merging in every world that a host comes to. It comes to what merging is; a second merger directly after it binds
nothing and changes nothing; and so does the merger of a table into itself. -/
theorem loadFrom_merges {world : World} (reached : World.empty.Reaches world) (handle source : TableHandle) :
    (handle ≠ source →
      world.Merges handle source (world.loadFrom handle source).1 (world.loadFrom handle source).2 ∧
      (world.loadFrom handle source).2.loadFrom handle source = (0, (world.loadFrom handle source).2)) ∧
    (handle = source → world.loadFrom handle source = (0, world)) := by
  refine ⟨fun different => ?_, fun same => if_pos same⟩
  have merges := reached.isIntact.merges different
  refine ⟨merges, merges.loadFrom_again (Ne.symm different) ?_⟩
  rw [loadFrom, if_neg different]
  exact world.tables.lt_size_set handle.index _

/-- A world with two tables. The first binds `x` to a string; the second binds `x` to a scalar, and `y` and `z` to one
cell, the latter as a constant. -/
def twoTables : World :=
  let world := ((World.empty.perform .newTable).perform .newTable).perform (.newNumber 1.0)
  let world := world.perform (.request ⟨0⟩ "x" (.createString [0x61] false))
  let world := world.perform (.request ⟨1⟩ "x" (.createScalar 2.0 false))
  let world := world.perform (.request ⟨1⟩ "y" (.addScalar ⟨0⟩ false))
  world.perform (.request ⟨1⟩ "z" (.addScalar ⟨0⟩ true))

theorem reaches_twoTables : World.empty.Reaches twoTables := by
  have tables := ((Reaches.refl World.empty).perform .newTable trivial).perform .newTable trivial
  have cell := tables.perform (.newNumber 1.0) trivial
  have string := cell.perform (.request ⟨0⟩ "x" (.createString [0x61] false)) trivial
  have scalar := string.perform (.request ⟨1⟩ "x" (.createScalar 2.0 false)) trivial
  have first := scalar.perform (.request ⟨1⟩ "y" (.addScalar ⟨0⟩ false)) (Nat.zero_lt_succ _)
  exact first.perform (.request ⟨1⟩ "z" (.addScalar ⟨0⟩ true)) (Nat.zero_lt_succ _)

/-- Merging the second table into the first binds `y` and `z`. -/
theorem loadFrom_merges_twoTables :
    (twoTables.loadFrom ⟨0⟩ ⟨1⟩).1 = 2 ∧ twoTables.Merges ⟨0⟩ ⟨1⟩ 2 (twoTables.loadFrom ⟨0⟩ ⟨1⟩).2 ∧
      twoTables.loadFrom ⟨1⟩ ⟨1⟩ = (0, twoTables) := by
  have counted : (twoTables.loadFrom ⟨0⟩ ⟨1⟩).1 = 2 := rfl
  have merged := loadFrom_merges reaches_twoTables ⟨0⟩ ⟨1⟩
  exact ⟨counted, counted ▸ (merged.1 (by decide)).1, (loadFrom_merges reaches_twoTables ⟨1⟩ ⟨1⟩).2 rfl⟩

end World

end LiveExpr
