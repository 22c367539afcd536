import LiveExpr.Expression
import LiveExpr.Proofs.Compile.Grammar
import LiveExpr.Proofs.Node.Folding
import LiveExpr.Proofs.Store.Growth

/-!
What a compilation does to the world. On its own it writes no cell, calls no function and binds nothing; with a
resolver it binds fresh scalars to accepted names, between the calls of the resolver.
-/

namespace LiveExpr

/-! ## Folding -/

/-- Evaluating what is folded has no effect. -/
theorem Node.eval_foldable {node : Node .scalar} (foldable : node.isFoldable = true) (fuel : Nat) (store : Store) :
    ∃ value, node.eval fuel store = some (value, store) := by
  cases sized : node.sized? with
  | none =>
    obtain ⟨value, evaluated⟩ := Node.eval_of_isFoldable foldable sized
    exact ⟨value, by rw [evaluated fuel, Eval.pure_apply]⟩
  | some cell =>
    unfold Node.sized? at sized
    split at sized
    · exact ⟨_, rfl⟩
    · cases sized

theorem Node.eval_foldableString {node : Node .string} (foldable : node.isFoldableString = true) (fuel : Nat)
    (store : Store) : ∃ content, node.eval fuel store = some (content, store) := by
  obtain ⟨content, evaluated⟩ := Node.eval_of_isFoldableString foldable
  exact ⟨content, by rw [evaluated fuel, Eval.pure_apply]⟩

/-! ## The world -/

namespace World

/-- Whether the resolver has been asked once. -/
def Asks (environment : Environment) (before after : World) : Prop :=
  ∃ resolver name, environment.resolver = some resolver ∧ after = (resolver name environment.table before).2

/-- Whether nothing has happened but that fresh scalars, which are no constants and hold zero, have been bound to some
of the names in a table, and that cells have been allocated which nothing is bound to. -/
structure Supplies (table : TableHandle) (names : List String) (before after : World) : Prop where
  store : before.store.Grows after.store
  others (handle : TableHandle) (other : handle ≠ table) : after.table handle = before.table handle
  kept {name : String} {binding : Binding} (bound : (before.table table).lookup name = some binding) :
    (after.table table).lookup name = some binding
  fresh {name : String} {binding : Binding} (bound : (after.table table).lookup name = some binding) :
    (before.table table).lookup name = some binding ∨
      name ∈ names ∧ ∃ cell, binding = .scalar cell false ∧ before.store.numbers.size ≤ cell.index ∧
        cell.index < after.store.numbers.size ∧ after.store.number cell = 0.0

variable {environment : Environment} {accepted : List String} {before after : World}

/-- What only allocates cells binds nothing. -/
theorem Supplies.allocated (table : TableHandle) (names : List String) {store : Store}
    (grown : before.store.Grows store) : before.Supplies table names { before with store := store } :=
  ⟨grown, fun _ _ => rfl, id, .inl⟩

theorem Effect.asks_or_supplies (effect : before.Effect environment accepted after) :
    before.Asks environment after ∨ before.Supplies environment.table accepted after := by
  cases effect with
  | @ask resolver installed name => exact .inl ⟨resolver, name, installed, rfl⟩
  | @create _ _ _ name installed named created =>
    have free := lookup_of_createScalar created
    rw [add_eq_ok created]
    refine .inr ⟨.newNumber _ _, fun handle other => table_setTable_other _ other _, fun {found binding} bound => ?_,
      fun {found binding} bound => ?_⟩
    · rw [table_setTable, SymbolTable.lookup_insert_other]
      · exact bound
      · rintro rfl
        exact absurd (free.symm.trans bound) nofun
    · rw [table_setTable] at bound
      rcases SymbolTable.lookup_insert_cases free bound with ⟨rfl, rfl⟩ | bound
      · refine .inr ⟨named, _, rfl, Nat.le_refl _, ?_, ?_⟩
        · exact Nat.lt_of_lt_of_eq (Nat.lt_succ_self _) (Cells.size_push _ _).symm
        · exact Cells.get_push_same _ _
      · exact .inl bound
  | number => exact .inr (.allocated _ _ (.newNumber _ _))
  | string => exact .inr (.allocated _ _ (.newString _ _))
  | vector => exact .inr (.allocated _ _ (.newVector _ _))

/-- Without a resolver, all that happens is that cells are allocated. -/
theorem Effect.grows (none : environment.resolver = none) (effect : before.Effect environment accepted after) :
    before.store.Grows after.store ∧ after.tables = before.tables := by
  cases effect with
  | ask installed | create installed =>
    rw [none] at installed
    cases installed
  | number => exact ⟨.newNumber _ _, rfl⟩
  | string => exact ⟨.newString _ _, rfl⟩
  | vector => exact ⟨.newVector _ _, rfl⟩

theorem grows_of_effects (none : environment.resolver = none)
    (effects : Relation.ReflTransGen (World.Effect environment accepted) before after) :
    before.store.Grows after.store ∧ after.tables = before.tables := by
  induction effects with
  | refl => exact ⟨.refl _, rfl⟩
  | tail _ effect induction =>
    have last := effect.grows none
    exact ⟨induction.1.trans last.1, last.2.trans induction.2⟩

end World

/-! ## Compilations -/

namespace Compilation

/-- All that a compilation does to the world, with the names that it accepts in the end. -/
theorem ofSource_effects (environment : Environment) (source : String) (world : World) :
    Relation.ReflTransGen (World.Effect environment (ofSource environment source world).accepted) world
      (ofSource environment source world).world := by
  unfold ofSource
  cases tokenize source with
  | error malformed => exact .refl
  | ok lexemes =>
    have effects := (Compile.program_reaches environment world lexemes).world_effects
    have reversed : World.Effect environment (Compile.program environment lexemes (.start world)).2.accepted ≤
        World.Effect environment (Compile.program environment lexemes (.start world)).2.accepted.reverse :=
      fun _ _ effect => effect.mono fun _ => List.mem_reverse.mpr
    exact Relation.ReflTransGen.mono reversed _ _ effects

/-- A compilation has no effects on what exists. Without a resolver no cell in use is written, no function is called
and no table is changed. With one, all that happens besides what the resolver does is that fresh scalars of zero are
bound to accepted names. What is folded on the way has no effects when it is evaluated. -/
theorem ofSource_supplies (environment : Environment) (source : String) (world : World) :
    let compilation := ofSource environment source world
    (environment.resolver = none →
      world.store.Grows compilation.world.store ∧ compilation.world.tables = world.tables) ∧
    Relation.ReflTransGen
      (fun before after => before.Asks environment after ∨
        before.Supplies environment.table compilation.accepted after) world compilation.world ∧
    (∀ node : Node .scalar, node.isFoldable = true → ∀ fuel store,
      ∃ value, node.eval fuel store = some (value, store)) ∧
    ∀ node : Node .string, node.isFoldableString = true → ∀ fuel store,
      ∃ content, node.eval fuel store = some (content, store) := by
  intro compilation
  have effects := ofSource_effects environment source world
  have described : World.Effect environment compilation.accepted ≤
      fun before after => before.Asks environment after ∨
        before.Supplies environment.table compilation.accepted after :=
    fun _ _ => World.Effect.asks_or_supplies
  exact ⟨fun none => World.grows_of_effects none effects, Relation.ReflTransGen.mono described _ _ effects,
    fun _ => Node.eval_foldable, fun _ => Node.eval_foldableString⟩

theorem tokenize_declaredUnknown :
    tokenize "var v:=x;y" = .ok [⟨.fixed .varWord, "var", ⟨1, 1⟩⟩, ⟨.name "v", "v", ⟨1, 5⟩⟩,
      ⟨.fixed .assign, ":=", ⟨1, 6⟩⟩, ⟨.name "x", "x", ⟨1, 8⟩⟩, ⟨.fixed .semicolon, ";", ⟨1, 9⟩⟩,
      ⟨.name "y", "y", ⟨1, 10⟩⟩] := by
  with_unfolding_all rfl

/-- Where `x` is bound and a resolver accepts all, compiling `var v:=x;y` leaves `x` with its cell as it is and does
nothing but bind `y` to a fresh zero. -/
theorem ofSource_supplies_unknown :
    let environment : Environment := ⟨⟨0⟩, some Expression.acceptAll, .standard⟩
    let compilation := ofSource environment "var v:=x;y" Compile.countdownWorld
    (compilation.world.table ⟨0⟩).lookup "x" = some (.scalar ⟨0⟩ false) ∧
      compilation.world.store.number ⟨0⟩ = 3.0 ∧
      (compilation.world.table ⟨0⟩).lookup "y" = some (.scalar ⟨2⟩ false) ∧
      compilation.world.store.number ⟨2⟩ = 0.0 ∧
      Relation.ReflTransGen
        (fun before after => before.Asks environment after ∨ before.Supplies environment.table ["y"] after)
        Compile.countdownWorld compilation.world := by
  intro environment compilation
  have accepted : compilation.accepted = ["y"] := by
    change (ofSource environment "var v:=x;y" Compile.countdownWorld).accepted = _
    unfold ofSource
    rw [tokenize_declaredUnknown]
    rfl
  have world : compilation.world = { Compile.countdownWorld with
      store := { Compile.countdownWorld.store with numbers := ⟨#[3.0, 0.0, 0.0]⟩ }
      tables := ⟨#[(Compile.countdownWorld.table ⟨0⟩).insert "y" (.scalar ⟨2⟩ false)]⟩ } := by
    change (ofSource environment "var v:=x;y" Compile.countdownWorld).world = _
    unfold ofSource
    rw [tokenize_declaredUnknown]
    rfl
  obtain ⟨-, supplied, -⟩ := ofSource_supplies environment "var v:=x;y" Compile.countdownWorld
  rw [show (ofSource environment "var v:=x;y" Compile.countdownWorld).accepted = ["y"] from accepted] at supplied
  rw [world]
  exact ⟨rfl, rfl, rfl, rfl, world ▸ supplied⟩

end Compilation

end LiveExpr
