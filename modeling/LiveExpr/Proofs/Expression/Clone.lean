import LiveExpr.Proofs.Compile.Declarations

/-!
Clones of expressions. A clone is the same source compiled again, without the resolver and against the bindings that
there are by now. Its graph is that of the original, with cells of its own for the declared variables.
-/

namespace LiveExpr

/-! ## Renumbering -/

/-- The indices that cells get which come into use one after another, and those that the others are given. -/
def Frontier.position (frontier : Frontier) (others : Cell → Nat) : List Cell → Cell → Nat
  | [], cell => others cell
  | first :: rest, cell =>
    if cell = first then frontier first.kind else (frontier.past first.kind).position others rest cell

namespace Frontier

variable {others : Cell → Nat} {cell other : Cell}

theorem le_past (frontier : Frontier) (kind other : Kind) : frontier other ≤ frontier.past kind other := by
  unfold past
  split <;> omega

theorem past_le (frontier : Frontier) (kind other : Kind) : frontier.past kind other ≤ frontier other + 1 := by
  unfold past
  split <;> omega

theorem position_of_mem (frontier : Frontier) {cells : List Cell} (listed : cell ∈ cells) :
    frontier cell.kind ≤ frontier.position others cells cell ∧
      frontier.position others cells cell < frontier cell.kind + cells.length := by
  induction cells generalizing frontier with
  | nil => cases listed
  | cons first rest induction =>
    rw [position, List.length_cons]
    split
    · next same =>
      subst same
      omega
    · next different =>
      have behind := induction (frontier.past first.kind) (List.mem_of_ne_of_mem different listed)
      have le := frontier.le_past first.kind cell.kind
      have ge := frontier.past_le first.kind cell.kind
      omega

theorem position_of_not_mem (frontier : Frontier) {cells : List Cell} (unlisted : cell ∉ cells) :
    frontier.position others cells cell = others cell := by
  induction cells generalizing frontier with
  | nil => rfl
  | cons first rest induction =>
    rw [position, if_neg (List.ne_of_not_mem_cons unlisted)]
    exact induction _ (List.not_mem_of_not_mem_cons unlisted)

theorem eq_of_position (frontier : Frontier) {cells : List Cell} (listed : cell ∈ cells) (alsoListed : other ∈ cells)
    (sameKind : cell.kind = other.kind)
    (same : frontier.position others cells cell = frontier.position others cells other) : cell = other := by
  -- the first cell of a kind gets the first index, which the ones of that kind behind it are beyond
  have beyond {first one : Cell} {rest : List Cell} (different : one ≠ first) (listed : one ∈ first :: rest)
      (kind : one.kind = first.kind) (frontier : Frontier) :
      frontier first.kind < (frontier.past first.kind).position others rest one := by
    have behind : _ ≤ (frontier.past first.kind).position others rest one :=
      (position_of_mem (frontier.past first.kind) (List.mem_of_ne_of_mem different listed)).1
    rw [kind, past, if_pos rfl] at behind
    exact behind
  induction cells generalizing frontier with
  | nil => cases listed
  | cons first rest induction =>
    rw [position, position] at same
    split at same <;> split at same
    · next one two => exact one.trans two.symm
    · next one two =>
      subst one
      exact absurd same (Nat.ne_of_lt (beyond two alsoListed sameKind.symm frontier))
    · next one two =>
      subst two
      exact absurd same.symm (Nat.ne_of_lt (beyond one listed sameKind frontier))
    · next one two =>
      exact induction _ (List.mem_of_ne_of_mem one listed) (List.mem_of_ne_of_mem two alsoListed) same

end Frontier

namespace Relabeling

/-- The relabeling that gives cells other indices. -/
def ofIndex (index : Cell → Nat) : Relabeling where
  number cell := ⟨index (.number cell)⟩
  string cell := ⟨index (.string cell)⟩
  vector cell := ⟨index (.vector cell)⟩
  limit := id

theorem cell_ofIndex (index : Cell → Nat) (cell : Cell) :
    (ofIndex index).cell cell = .ofKind (index cell) cell.kind := by
  cases cell <;> rfl

theorem fits_of_position {relabeling : Relabeling} {frontier : Frontier} {others : Cell → Nat} {cells : List Cell}
    (nodup : cells.Nodup)
    (renumbered : ∀ cell ∈ cells, relabeling.cell cell = .ofKind (frontier.position others cells cell) cell.kind) :
    relabeling.Fits frontier cells := by
  induction cells generalizing frontier with
  | nil => trivial
  | cons first rest induction =>
    obtain ⟨new, nodup⟩ := List.nodup_cons.mp nodup
    refine ⟨?_, induction nodup fun cell listed => ?_⟩
    · rw [renumbered first (List.mem_cons_self ..), Frontier.position, if_pos rfl]
    · rw [renumbered cell (List.mem_cons_of_mem _ listed), Frontier.position, if_neg]
      rintro rfl
      exact new listed

/-- There is a one-to-one relabeling that leaves shared cells as they are, gives the listed ones the next indices, and
sends everything else to unused cells too. -/
theorem exists_fits (frontier : Frontier) {cells : List Cell} {shared : Cell → Prop} (nodup : cells.Nodup)
    (inUse : ∀ cell, shared cell → cell.index < frontier cell.kind) (apart : ∀ cell ∈ cells, ¬shared cell) :
    ∃ relabeling : Relabeling, relabeling.limit = id ∧ relabeling.Fits frontier cells ∧
      Function.Injective relabeling.cell ∧ (∀ cell, shared cell → relabeling.cell cell = cell) ∧
      ∀ cell, ¬shared cell → frontier (relabeling.cell cell).kind ≤ (relabeling.cell cell).index := by
  classical
  let others (cell : Cell) : Nat := if shared cell then cell.index else frontier cell.kind + cells.length + cell.index
  let index := frontier.position others cells
  have unlisted {cell : Cell} (isShared : shared cell) : cell ∉ cells := fun listed => apart cell listed isShared
  -- the three regions of the new indices
  have index_of_shared {cell : Cell} (isShared : shared cell) : index cell = cell.index :=
    (frontier.position_of_not_mem (unlisted isShared)).trans (if_pos isShared)
  have index_of_listed {cell : Cell} (listed : cell ∈ cells) :
      frontier cell.kind ≤ index cell ∧ index cell < frontier cell.kind + cells.length :=
    frontier.position_of_mem listed
  have index_of_other {cell : Cell} (unlisted : cell ∉ cells) (unshared : ¬shared cell) :
      index cell = frontier cell.kind + cells.length + cell.index :=
    (frontier.position_of_not_mem unlisted).trans (if_neg unshared)
  refine ⟨ofIndex index, rfl, fits_of_position nodup fun cell _ => cell_ofIndex index cell, fun one other same => ?_,
    fun cell isShared => ?_, fun cell unshared => ?_⟩
  · rw [cell_ofIndex, cell_ofIndex] at same
    have sameKind : one.kind = other.kind := by simpa using congrArg Cell.kind same
    have sameIndex : index one = index other := by simpa using congrArg Cell.index same
    have sameFrontier := congrArg frontier sameKind
    have eq_of_index (equal : one.index = other.index) : one = other := by
      rw [← Cell.ofKind_index one, ← Cell.ofKind_index other, equal, sameKind]
    have region (cell : Cell) : (index cell = cell.index ∧ cell.index < frontier cell.kind) ∨
        (cell ∈ cells ∧ frontier cell.kind ≤ index cell ∧ index cell < frontier cell.kind + cells.length) ∨
          index cell = frontier cell.kind + cells.length + cell.index := by
      by_cases isShared : shared cell
      · exact .inl ⟨index_of_shared isShared, inUse cell isShared⟩
      · by_cases listed : cell ∈ cells
        · exact .inr (.inl ⟨listed, index_of_listed listed⟩)
        · exact .inr (.inr (index_of_other listed isShared))
    rcases region one with first | ⟨listed, first⟩ | first <;>
      rcases region other with second | ⟨alsoListed, second⟩ | second
    case inr.inl.inr.inl => exact frontier.eq_of_position listed alsoListed sameKind sameIndex
    case inl.inl | inr.inr.inr.inr => exact eq_of_index (by omega)
    all_goals omega
  · rw [cell_ofIndex, index_of_shared isShared, Cell.ofKind_index]
  · rw [cell_ofIndex, Cell.kind_ofKind, Cell.index_ofKind]
    by_cases listed : cell ∈ cells
    · exact (index_of_listed listed).1
    · rw [index_of_other listed unshared]
      omega

end Relabeling

/-! ## Clones -/

namespace Binding

variable {binding : Binding} {relabeling : Relabeling}
  (fixed : ∀ cell, binding.cell? = some cell → relabeling.cell cell = cell)

include fixed

theorem relabel_eq_self : binding.relabel relabeling = binding := by
  cases binding with
  | scalar cell => rw [relabel, Cell.number.inj (fixed _ rfl)]
  | string cell => rw [relabel, Cell.string.inj (fixed _ rfl)]
  | vector cell => rw [relabel, Cell.vector.inj (fixed _ rfl)]
  | function => rfl

theorem Agrees.of_fixed {store other : Store} (agrees : binding.Agrees .none store other) :
    binding.Agrees relabeling store other := by
  cases binding with
  | scalar cell => rwa [Agrees, Cell.number.inj (fixed _ rfl)]
  | string cell => rwa [Agrees, Cell.string.inj (fixed _ rfl)]
  | vector cell => rwa [Agrees, Cell.vector.inj (fixed _ rfl)]
  | function => trivial

end Binding

namespace World

variable {table : TableHandle} {world later : World} {cell : Cell}

theorem Shares.isInUse (shares : world.Shares table cell) (sound : world.IsSound table) : cell.IsInUse world.store := by
  obtain ⟨name, binding, bound, holds⟩ := shares
  exact Binding.isInUse_of_cell? holds (sound name binding bound)

variable (sound : world.IsSound table) (grown : world.store.Extends later.store)
  (bindings : ∀ name, (later.table table).lookup name = (world.table table).lookup name)

include sound grown bindings

theorem isSound_of_bindings : later.IsSound table := by
  intro name binding bound
  rw [bindings name] at bound
  exact (sound name binding bound).extend grown

theorem isCovered_of_bindings {relabeling : Relabeling}
    (constants : ∀ name (target : Target), (world.table table).lookup name = some (target.binding true) →
      target.IsSame world.store later.store)
    (fixed : ∀ cell, later.Shares table cell → relabeling.cell cell = cell) :
    world.IsCovered table relabeling later := by
  intro name binding bound
  have stillBound := (bindings name).trans bound
  have isFixed (cell : Cell) (holds : binding.cell? = some cell) : relabeling.cell cell = cell :=
    fixed cell ⟨name, binding, stillBound, holds⟩
  have inUse := sound name binding bound
  have agrees : binding.Agrees .none world.store later.store :=
    .of_constants inUse grown fun target isConstant => constants name target (isConstant ▸ bound)
  exact ⟨stillBound, Binding.relabel_eq_self isFixed, .of_fixed isFixed agrees, inUse.extend grown⟩

end World

theorem mirrors_start {relabeling : Relabeling} {cells : List Cell} (world : World) {later : World}
    (limit : relabeling.limit = id) (fits : relabeling.Fits later.store.frontier cells) :
    Mirrors relabeling later cells (.start world) (.start later) where
  limit := limit
  clear := ⟨rfl, rfl⟩
  tables := rfl
  grown := .refl _
  fits := fits
  unknown _ := rfl
  known declared := by cases declared

namespace Compilation

/-- Compiling once more, without the resolver and against the bindings there are at the end. -/
theorem ofSource_again {environment : Environment} {source : String} {world later : World} {root : AnyNode}
    (confined : environment.IsConfined world.store) (sound : world.IsSound environment.table)
    (compiled : (ofSource environment source world).root = some root)
    (apart : ∀ lexemes, tokenize source = .ok lexemes → ∀ name ∈ declaredNames lexemes,
      name ∉ (ofSource environment source world).accepted)
    (grown : (ofSource environment source world).world.store.Extends later.store)
    (bindings : ∀ name, (later.table environment.table).lookup name =
      ((ofSource environment source world).world.table environment.table).lookup name)
    (constants : ∀ name (target : Target),
      ((ofSource environment source world).world.table environment.table).lookup name = some (target.binding true) →
        target.IsSame (ofSource environment source world).world.store later.store) :
    ∃ relabeling : Relabeling, relabeling.limit = id ∧ Function.Injective relabeling.cell ∧
      (∀ cell, later.Shares environment.table cell → relabeling.cell cell = cell) ∧
      (∀ cell, ¬later.Shares environment.table cell → ¬(relabeling.cell cell).IsInUse later.store) ∧
      (ofSource environment.withoutResolver source later).root = some (root.relabel relabeling) ∧
      (ofSource environment.withoutResolver source later).world.tables = later.tables ∧
      later.store.Grows (ofSource environment.withoutResolver source later).world.store := by
  obtain ⟨success⟩ := exists_success compiled
  rw [success.eq] at compiled apart grown bindings constants
  dsimp only at compiled apart grown bindings constants
  obtain ⟨cells, runs, repeats⟩ := success.copies later
  have leads := runs.leads confined sound
  have asked : environment.BindsOnlyAsked := fun resolver installed => (confined resolver installed).onlyAsked
  have undeclared (name : String) (declares : name ∈ (usageOfStatements success.trees).declared) :
      (later.table environment.table).lookup name = none := by
    by_contra bound
    rw [bindings name, ← ne_eq, ← Option.isSome_iff_ne_none] at bound
    have accepted := runs.accepted_of_declared asked declares bound
    rw [← Grammar.declared_trees? success.read] at declares
    exact apart success.lexemes success.tokenized name declares (List.mem_reverse.mpr accepted)
  have inUse (cell : Cell) (shared : later.Shares environment.table cell) : cell.IsInUse later.store :=
    shared.isInUse (World.isSound_of_bindings leads.sound grown bindings)
  have separate (cell : Cell) (listed : cell ∈ cells) : ¬later.Shares environment.table cell := by
    rintro ⟨name, binding, bound, holds⟩
    rw [bindings name] at bound
    exact (runs.isPrivate confined sound (.refl _) listed).unbound bound holds
  obtain ⟨relabeling, limit, fits, injective, fixed, moved⟩ :=
    Relabeling.exists_fits later.store.frontier (runs.nodup confined sound) inUse separate
  have covered : success.final.world.IsCovered environment.table relabeling later :=
    World.isCovered_of_bindings leads.sound grown bindings constants fixed
  have mirrors : Mirrors relabeling later (cells ++ []) (.start world) (.start later) := by
    rw [List.append_nil]
    exact mirrors_start world limit fits
  obtain ⟨copied, repeated, mirrorsEnd⟩ := repeats confined sound covered undeclared mirrors
  let again : Success environment.withoutResolver source later :=
    { lexemes := success.lexemes
      trees := success.trees
      nodes := relabelStatements relabeling success.nodes
      result := success.result.relabel relabeling
      final := copied
      tokenized := success.tokenized
      read := success.read
      compiled := repeated
      clear := mirrorsEnd.clear.reports
      last := by rw [relabelStatements_eq_map, List.getLast?_map, success.last]; rfl }
  obtain rfl : AnyNode.sequence success.nodes.dropLast success.result = root := Option.some.inj compiled
  refine ⟨relabeling, limit, injective, fixed, fun cell unshared => Nat.not_lt.mpr (moved cell unshared), ?_⟩
  rw [again.eq]
  refine ⟨congrArg some ?_, mirrorsEnd.tables, mirrorsEnd.grown⟩
  rw [AnyNode.relabel_sequence, relabelStatements_eq_map, List.map_dropLast, ← relabelStatements_eq_map]

end Compilation

namespace Expression

/-- A clone reproduces its expression. The resolver, if there was one, has bound at most the names that it was asked
for, and has accepted no declared name; since the compilation no binding of the table has changed, and no content of a
constant. Then the clone is compiled, from the same source with the same settings, to a graph of the same kind that
differs in cells only: one to one, with the cells that the table binds as they are, and with no other cell that was in
use before. Nothing is bound, and no cell is written. -/
theorem clone_of_compile {expression : Expression} {settings : Settings} {resolver : Option Resolver}
    {source : String} {world later : World} {made : Compiled}
    (confined : Environment.IsConfined ⟨expression.table, resolver, settings⟩ world.store)
    (sound : world.IsSound expression.table)
    (compiled : (expression.compile settings resolver source world).1.compiled = some made)
    (apart : ∀ lexemes, tokenize source = .ok lexemes → ∀ name ∈ declaredNames lexemes,
      name ∉ (expression.compile settings resolver source world).2.accepted)
    (grown : (expression.compile settings resolver source world).2.world.store.Extends later.store)
    (bindings : ∀ name, (later.table expression.table).lookup name =
      ((expression.compile settings resolver source world).2.world.table expression.table).lookup name)
    (constants : ∀ name (target : Target),
      ((expression.compile settings resolver source world).2.world.table expression.table).lookup name =
        some (target.binding true) →
      target.IsSame (expression.compile settings resolver source world).2.world.store later.store) :
    let original := (expression.compile settings resolver source world).1
    let cloned := original.clone later
    cloned.1.source = original.source ∧ cloned.1.kind = original.kind ∧ cloned.1.table = original.table ∧
    (∃ relabeling : Relabeling, relabeling.limit = id ∧ Function.Injective relabeling.cell ∧
      (∀ cell, later.Shares expression.table cell → relabeling.cell cell = cell) ∧
      (∀ cell, ¬later.Shares expression.table cell → ¬(relabeling.cell cell).IsInUse later.store) ∧
      cloned.1.compiled = some ⟨made.source, made.settings, made.root.relabel relabeling⟩) ∧
    cloned.2.tables = later.tables ∧ later.store.Grows cloned.2.store := by
  obtain ⟨root, rooted, rfl⟩ := Option.map_eq_some_iff.mp compiled
  obtain ⟨relabeling, limit, injective, fixed, moved, repeated, tables, kept⟩ :=
    Compilation.ofSource_again confined sound rooted apart grown bindings constants
  intro original cloned
  have clones : cloned = ⟨⟨expression.table, some ⟨source, settings, root.relabel relabeling⟩⟩,
      (Compilation.ofSource ⟨expression.table, none, settings⟩ source later).world⟩ := by
    change original.clone later = _
    rw [clone, compiled]
    exact congrArg (fun root => (Expression.mk expression.table (Option.map (Compiled.mk source settings) root), _))
      repeated
  have sources : original.source = source := by rw [Expression.source, compiled]; rfl
  have kinds : original.kind = some root.kind := by rw [kind, compiled]; rfl
  have sameKind : (root.relabel relabeling).kind = root.kind := by
    cases root
    rfl
  rw [clones, sources, kinds]
  exact ⟨rfl, congrArg some sameKind, rfl, ⟨relabeling, limit, injective, fixed, moved, rfl⟩, tables, kept⟩

theorem isConfined_acceptAll (table : TableHandle) (start : Store) : acceptAll.IsConfined table start where
  lawful := ⟨fun _ world => .refl world.store, fun _ _ => id⟩
  onlyAsked _ _ _ _ := rfl
  constants _ world _ target _ := .refl world.store target
  outside name world _ _ unbound bound := by
    cases unbound.symm.trans bound

/-- The world of `var x:=y;x` after the resolver has accepted `y`, and after `y` has been set to one. -/
def suppliedWorld : World where
  store := { Store.empty with numbers := ⟨#[1.0, 0.0]⟩ }
  tables := ⟨#[SymbolTable.empty.insert "y" (.scalar ⟨0⟩ false)]⟩

/-- A clone of `var x:=y;x` has a cell of its own for `x`, and the one of the table for `y`. -/
theorem clone_of_compile_supplied :
    let compiled := (Expression.mk ⟨0⟩ none).compile .standard (some acceptAll) "var x:=y;x" .empty
    let cloned := compiled.1.clone suppliedWorld
    compiled.1.isCompiled = true ∧ cloned.1.source = "var x:=y;x" ∧ cloned.2.tables = suppliedWorld.tables ∧
      ∃ relabeling : Relabeling, relabeling.number ⟨0⟩ = ⟨0⟩ ∧
        ¬(relabeling.cell (.number ⟨1⟩)).IsInUse suppliedWorld.store ∧
        cloned.1.compiled = some ⟨"var x:=y;x", .standard,
          AnyNode.scalar (.sequence [AnyNode.scalar (.assign (relabeling.number ⟨1⟩) none (.variable ⟨0⟩))]
            (.variable (relabeling.number ⟨1⟩)))⟩ := by
  intro compiled cloned
  have outcome : Compilation.ofSource ⟨⟨0⟩, some acceptAll, .standard⟩ "var x:=y;x" .empty =
      ⟨some (AnyNode.scalar (.sequence [AnyNode.scalar (.assign ⟨1⟩ none (.variable ⟨0⟩))] (.variable ⟨1⟩))), [], ["y"],
        { suppliedWorld with store := { Store.empty with numbers := ⟨#[0.0, 0.0]⟩ } }⟩ := by
    unfold Compilation.ofSource
    rw [Compilation.tokenize_supplied]
    rfl
  have same : compiled.2 = Compilation.ofSource ⟨⟨0⟩, some acceptAll, .standard⟩ "var x:=y;x" .empty := rfl
  have stored : compiled.1.compiled = some ⟨"var x:=y;x", .standard,
      AnyNode.scalar (.sequence [AnyNode.scalar (.assign ⟨1⟩ none (.variable ⟨0⟩))] (.variable ⟨1⟩))⟩ := by
    change compiled.2.root.map _ = _
    rw [same, outcome]
    rfl
  have unbound (name : String) : SymbolTable.empty.lookup name = none :=
    SymbolTable.lookup_eq_none_iff.mpr fun kind => SymbolTable.lookup_ofKind_empty kind name
  have sound : World.empty.IsSound ⟨0⟩ := fun name binding bound => by
    cases (unbound name).symm.trans bound
  have grown : compiled.2.world.store.Extends suppliedWorld.store := by
    rw [same, outcome]
    exact ⟨Nat.le_refl _, Nat.le_refl _, Nat.le_refl _, fun _ _ => rfl⟩
  have apart (lexemes : List Lexeme) (tokenized : tokenize "var x:=y;x" = .ok lexemes) (name : String)
      (declares : name ∈ declaredNames lexemes) : name ∉ compiled.2.accepted := by
    rw [Compilation.tokenize_supplied] at tokenized
    cases tokenized
    obtain rfl : name = "x" := List.mem_singleton.mp declares
    rw [same, outcome]
    decide
  have bindings (name : String) : (suppliedWorld.table ⟨0⟩).lookup name = (compiled.2.world.table ⟨0⟩).lookup name := by
    rw [same, outcome]
    rfl
  have constants (name : String) (target : Target)
      (bound : (compiled.2.world.table ⟨0⟩).lookup name = some (target.binding true)) :
      target.IsSame compiled.2.world.store suppliedWorld.store := by
    have found : (SymbolTable.empty.insert "y" (.scalar ⟨0⟩ false)).lookup name = some (target.binding true) :=
      (bindings name).trans bound
    rcases SymbolTable.lookup_insert_cases (unbound "y") found with ⟨-, isVariable⟩ | found
    · cases target <;> cases isVariable
    · cases (unbound name).symm.trans found
  have confined : Environment.IsConfined ⟨⟨0⟩, some acceptAll, .standard⟩ World.empty.store := by
    rintro _ ⟨⟩
    exact isConfined_acceptAll _ _
  obtain ⟨sources, -, -, ⟨relabeling, -, -, fixed, moved, again⟩, tables, -⟩ :=
    clone_of_compile confined sound stored apart grown bindings constants
  have shared : relabeling.cell (.number ⟨0⟩) = .number ⟨0⟩ := fixed _ ⟨"y", .scalar ⟨0⟩ false, rfl, rfl⟩
  refine ⟨by rw [isCompiled, stored]; rfl, ?_, tables, relabeling, Cell.number.inj shared, moved _ ?_, ?_⟩
  · rw [sources, source, stored]
    rfl
  · rintro ⟨name, binding, bound, holds⟩
    have found : (SymbolTable.empty.insert "y" (.scalar ⟨0⟩ false)).lookup name = some binding := bound
    rcases SymbolTable.lookup_insert_cases (unbound "y") found with ⟨-, rfl⟩ | found
    · cases holds
    · cases (unbound name).symm.trans found
  · have read : (Node.variable ⟨0⟩).relabel relabeling = .variable ⟨0⟩ :=
      congrArg Node.variable (Cell.number.inj shared)
    let root (value : Node .scalar) : AnyNode := AnyNode.scalar
      (.sequence [AnyNode.scalar (.assign (relabeling.number ⟨1⟩) none value)] (.variable (relabeling.number ⟨1⟩)))
    exact again.trans (congrArg (fun value => some (Compiled.mk "var x:=y;x" .standard (root value))) read)

end Expression

end LiveExpr
