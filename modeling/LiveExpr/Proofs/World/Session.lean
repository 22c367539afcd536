import LiveExpr.Proofs.Compile.Effects
import LiveExpr.Proofs.Compile.Targets
import LiveExpr.Proofs.Node.Preservation
import LiveExpr.Proofs.World.Access

/-!
Sessions of a host: it performs operations on the cells that it holds, has formulas compiled, and evaluates the graphs,
also those that were compiled against bindings that have changed since. No graph ever writes a cell that is bound as a
constant, as long as the cell is not bound as a variable too.
-/

namespace LiveExpr

open AnyNode (Everywhere)

/-- A world with the cells that a host holds handles of. -/
structure Host where
  world : World
  held : Target → Prop

namespace Host

def Accesses (host : Host) (target : Target) : Prop :=
  host.held target ∨ host.world.BindsCell target

/-- Whether the cells that can be accessed are in use. -/
def IsSound (host : Host) : Prop :=
  ∀ target, host.Accesses target → target.IsInUse host.world.store

def perform (host : Host) (operation : Operation) : Host :=
  ⟨host.world.perform operation, fun target => host.held target ∨ operation.gives host.world.store = some target⟩

/-- What a host does at once: it performs a permitted operation on cells that it holds, or takes the handle of a cell
that a table binds. -/
inductive Step (permitted : Operation → Prop) : Host → Host → Prop
  | perform {host : Host} {operation : Operation} (allowed : permitted operation)
      (usable : ∀ target, operation.Uses target → host.held target) :
      Step permitted host (host.perform operation)
  | take {host : Host} {target : Target} (bound : host.world.BindsCell target) :
      Step permitted host { host with held := fun other => host.held other ∨ other = target }

/-- What may have happened while the host did something: cells in use stay in use, vectors keep their lengths, and no
cell can be accessed that could not before, unless it has come into use. -/
structure Follows (before after : Host) : Prop where
  store : before.world.store.Extends after.world.store
  accesses {target : Target} (accessed : after.Accesses target) :
    before.Accesses target ∨ target.IsFresh before.world.store after.world.store

namespace Follows

variable {before middle after : Host} {target : Target}

theorem refl (host : Host) : host.Follows host :=
  ⟨.refl _, .inl⟩

theorem trans (first : before.Follows middle) (second : middle.Follows after) : before.Follows after where
  store := first.store.trans second.store
  accesses accessed := by
    rcases second.accesses accessed with accessed | fresh
    · exact (first.accesses accessed).imp_right (·.later second.store)
    · exact .inr (fresh.earlier first.store)

theorem of_world {world : World} (follows : before.world.Follows before.held world) :
    before.Follows { before with world := world } where
  store := follows.store
  accesses accessed := by
    rcases accessed with held | binds
    · exact .inl (.inl held)
    · rcases follows.bound binds with binds | held | fresh
      · exact .inl (.inr binds)
      · exact .inl (.inl held)
      · exact .inr fresh

theorem isSound (follows : before.Follows after) (sound : before.IsSound) : after.IsSound := by
  intro target accessed
  rcases follows.accesses accessed with accessed | fresh
  · exact (sound target accessed).extend follows.store
  · exact fresh.2

end Follows

variable {permitted : Operation → Prop} {before after : Host}

theorem isFresh_of_gives {operation : Operation} {world : World} {target : Target}
    (given : operation.gives world.store = some target) :
    target.IsFresh world.store (world.perform operation).store := by
  cases operation <;> cases given
  · exact Target.isFresh_newNumber _ _
  · exact Target.isFresh_newString _ _

theorem Step.follows (step : before.Step permitted after) : before.Follows after := by
  cases step with
  | @perform operation _ usable =>
    have follows : before.world.Follows before.held (before.world.perform operation) := World.follows_perform usable
    refine ⟨follows.store, fun accessed => ?_⟩
    rcases accessed with (held | given) | binds
    · exact .inl (.inl held)
    · exact .inr (isFresh_of_gives given)
    · exact (Follows.of_world follows).accesses (.inr binds)
  | take bound =>
    refine ⟨.refl _, fun accessed => ?_⟩
    rcases accessed with (held | rfl) | binds
    · exact .inl (.inl held)
    · exact .inl (.inr bound)
    · exact .inl (.inr binds)

end Host

/-! ## Resolvers -/

/-- What a host may do by additive operations, with the handles that it comes to hold on the way. -/
theorem Host.adds_of_path {before after : Host}
    (path : Relation.ReflTransGen (Host.Step Operation.IsAdditive) before after) :
    before.Follows after ∧ before.world.Adds before.held after.world := by
  induction path with
  | refl => exact ⟨.refl _, .refl _ _⟩
  | @tail middle last _ step induction =>
    obtain ⟨follows, adds⟩ := induction
    have onward := follows.trans step.follows
    have grows : middle.world.store.Grows last.world.store ∧
        ∀ binding, middle.world.Binds binding → last.world.Binds binding := by
      cases step with
      | @perform operation additive usable =>
        have adds : middle.world.Adds middle.held (middle.world.perform operation) := World.adds_perform additive usable
        exact ⟨adds.grows, fun _ => adds.kept⟩
      | take => exact ⟨.refl _, fun _ => id⟩
    refine ⟨onward, ⟨onward.store, fun binds => ?_⟩, adds.grows.trans grows.1, fun binds => grows.2 _ (adds.kept binds)⟩
    rcases onward.accesses (.inr binds) with (held | binds) | fresh
    · exact .inr (.inl held)
    · exact .inl binds
    · exact .inr (.inr fresh)

/-- Whether the resolver, if there is one, only adds bindings: what it does can be done by additive operations with the
cells that the host holds when the compilation starts. Handles that it comes to hold in a call last until the call ends;
what it has bound it can take again in the next. -/
def Environment.OnlyAdds (environment : Environment) (held : Target → Prop) : Prop :=
  ∀ resolver, environment.resolver = some resolver → ∀ name world, ∃ later,
    Relation.ReflTransGen (Host.Step Operation.IsAdditive) ⟨world, held⟩
      ⟨(resolver name environment.table world).2, later⟩

/-! ## Compilations -/

section Compilations

variable {environment : Environment} {held : Target → Prop} (lawful : environment.OnlyAdds held)

include lawful

theorem World.Step.adds {before after : World} (step : before.Step environment after) : before.Adds held after := by
  cases step with
  | ask installed name =>
    obtain ⟨later, path⟩ := lawful _ installed name before
    exact (Host.adds_of_path path).2
  | @create _ _ _ _ name created =>
    have adds : before.Adds held (before.perform (.request environment.table name (.createScalar 0.0 false))) :=
      World.adds_request trivial fun _ => False.elim
    have performed : before.perform (.request environment.table name (.createScalar 0.0 false)) = after :=
      congrArg before.after created
    rwa [performed] at adds
  | number => exact .of_store held (.newNumber _ _)
  | string => exact .of_store held (.newString _ _)
  | vector => exact .of_store held (.newVector _ _)

theorem World.Passes.adds {before after : World} (passes : before.Passes environment after) :
    before.Adds held after := by
  induction passes with
  | refl => exact .refl held before
  | tail _ step induction => exact induction.trans (step.adds lawful)

omit lawful in
/-- An allocated cell is new, and nothing is bound meanwhile. -/
theorem World.Allocates.isFresh {before after : World} {target : Target} {constant : Bool}
    (allocates : before.Allocates (target.binding constant) after) :
    target.IsFresh before.store after.store ∧ after.tables = before.tables := by
  generalize binding : target.binding constant = allocated at allocates
  cases allocates with
  | number =>
    cases target <;> cases binding
    exact ⟨Target.isFresh_newNumber _ _, rfl⟩
  | string =>
    cases target <;> cases binding
    exact ⟨Target.isFresh_newString _ _, rfl⟩
  | vector => cases target <;> cases binding

/-- Whether the cell has come into use since the compilation began, and no table binds it. -/
def Target.IsHidden (start world : World) (target : Target) : Prop :=
  target.IsFresh start.store world.store ∧ ¬world.BindsCell target

variable {start : World} (sound : Host.IsSound ⟨start, held⟩)

include sound

theorem Target.IsHidden.later {before after : World} {target : Target} (hidden : target.IsHidden start before)
    (passes : before.Passes environment after) : target.IsHidden start after := by
  have adds := passes.adds lawful
  refine ⟨hidden.1.later adds.store, fun binds => ?_⟩
  rcases adds.bound binds with binds | isHeld | fresh
  · exact hidden.2 binds
  · exact hidden.1.1 (sound target (.inl isHeld))
  · exact fresh.1 hidden.1.2

theorem isHidden_of_allocates {before after : World} {target : Target} {constant : Bool}
    (passes : start.Passes environment before) (allocates : before.Allocates (target.binding constant) after) :
    target.IsHidden start after := by
  have adds := passes.adds lawful
  obtain ⟨fresh, sameTables⟩ := allocates.isFresh
  refine ⟨fresh.earlier adds.store, fun binds => ?_⟩
  have bound : before.BindsCell target := by
    unfold World.BindsCell World.Binds World.table at binds ⊢
    rwa [sameTables] at binds
  have follows : Host.Follows ⟨start, held⟩ ⟨before, held⟩ := .of_world adds.toFollows
  exact fresh.1 (follows.isSound sound target (.inr bound))

theorem isHidden_of_declared {progress : Progress} (reached : (Progress.start start).Reaches environment progress)
    {name : String} {target : Target} {constant : Bool}
    (declared : progress.locals.lookup name = some (target.binding constant)) :
    target.IsHidden start progress.world := by
  induction reached with
  | refl => cases declared
  | @tail middle _ earlier step induction =>
    cases step with
    | report | reportName | accept => exact induction declared
    | world effect => exact (induction declared).later lawful sound (.single effect.step)
    | declare _ _ allocates =>
      have effect : World.Effect environment [] _ _ := .of_allocates allocates
      rcases NameMap.lookup_insert_cases declared with ⟨-, same⟩ | declared
      · exact isHidden_of_allocates lawful sound (Progress.Reaches.world_passes earlier) (same ▸ allocates)
      · exact (induction declared).later lawful sound (.single effect.step)

/-- A variable that a formula may assign to is bound when the compilation ends, or the formula has declared it. -/
theorem binds_or_isHidden {progress : Progress} {target : Target}
    (assignable : progress.Assignable environment start (target.binding false)) :
    progress.world.Binds (target.binding false) ∨ target.IsHidden start progress.world := by
  cases assignable with
  | bound reached binds later =>
    have adds := later.world_passes.adds lawful
    obtain ⟨name, declared | bound⟩ := binds
    · exact .inr ((isHidden_of_declared lawful sound reached declared).later lawful sound later.world_passes)
    · exact .inl (adds.kept ⟨environment.table, _, name, SymbolTable.lookup_ofKind bound⟩)
  | allocated reached allocates later =>
    have hidden := isHidden_of_allocates lawful sound reached.world_passes allocates
    exact .inr (hidden.later lawful sound later.world_passes)

/-- If no name is bound to a cell as a variable when the compilation ends, the graph does not write it, unless it is the
cell of a declared variable. -/
theorem isFree_or_isHidden {source : String} {root : AnyNode} {target : Target}
    (compiled : (Compilation.ofSource environment source start).root = some root)
    (unbound : ¬(Compilation.ofSource environment source start).world.Binds (target.binding false)) :
    Everywhere (AnyNode.IsFree (· = target)) root ∨
      target.IsHidden start (Compilation.ofSource environment source start).world := by
  obtain ⟨progress, reached, sameWorld, assigns⟩ := Compilation.root_assigns compiled
  rw [← sameWorld] at unbound ⊢
  by_cases assignable : progress.Assignable environment start (target.binding false)
  · exact .inr ((binds_or_isHidden lawful sound assignable).resolve_left unbound)
  · refine .inl (assigns.imp fun node here => ?_)
    obtain ⟨k, node⟩ := node
    cases node with
    | assign cell =>
      rintro rfl
      exact assignable here
    | stringAssign cell =>
      rintro rfl
      exact assignable here
    | _ => trivial

end Compilations

/-! ## Sessions -/

/-- A host with the graphs that have been compiled so far. -/
structure Session extends Host where
  graphs : List AnyNode

/-- No evaluation takes a cell out of use or changes the length of a vector. -/
theorem AnyNode.extends_of_eval {node : AnyNode} {fuel : Nat} {before after : Store} {content : node.1.Content}
    (evaluated : node.2.eval fuel before = some (content, after)) : before.Extends after := by
  have preserves (node : AnyNode) : AnyNode.Preserves before.Extends node := by
    obtain ⟨k, node⟩ := node
    cases node with
    | assign => exact fun store value extended => extended.trans (.setNumber store _ value)
    | stringAssign => exact fun store content extended => extended.trans (.setString store _ content)
    | assignElement => exact fun store index value extended => extended.trans (.setElement store _ index value)
    | vectorAssign | reset => exact fun store values extended => extended.trans (.setVector store _ values)
    | userCall => exact fun store _ extended => ⟨extended.numbers, extended.strings, extended.vectors, extended.lengths⟩
    | _ => trivial
  exact (AnyNode.everywhere_of_forall preserves node).preserved evaluated (.refl before)

theorem Compilation.ofSource_passes (environment : Environment) (source : String) (world : World) :
    world.Passes environment (ofSource environment source world).world := by
  have steps : World.Effect environment (ofSource environment source world).accepted ≤ World.Step environment :=
    fun _ _ effect => effect.step
  exact Relation.ReflTransGen.mono steps _ _ (ofSource_effects environment source world)

namespace Session

/-- A session in which nothing has been done. -/
def start : Session :=
  ⟨⟨.empty, fun _ => False⟩, []⟩

def perform (session : Session) (operation : Operation) : Session :=
  { session with toHost := session.toHost.perform operation }

def compile (session : Session) (environment : Environment) (source : String) : Session :=
  { session with
    world := (Compilation.ofSource environment source session.world).world
    graphs := (Compilation.ofSource environment source session.world).root.toList ++ session.graphs }

/-- What happens in a session at once. -/
inductive Step (permitted : Operation → Prop) : Session → Session → Prop
  | host {session : Session} {after : Host} (step : session.toHost.Step permitted after) :
      Step permitted session { session with toHost := after }
  | compile {session : Session} {environment : Environment} (lawful : environment.OnlyAdds session.held)
      (source : String) : Step permitted session (session.compile environment source)
  | evaluate {session : Session} {node : AnyNode} (compiled : node ∈ session.graphs) {fuel : Nat}
      {content : node.1.Content} {store : Store}
      (evaluated : node.2.eval fuel session.world.store = some (content, store)) :
      Step permitted session { session with world := { session.world with store := store } }

/-- Whether no graph writes the cell. -/
def Spares (session : Session) (target : Target) : Prop :=
  ∀ node ∈ session.graphs, Everywhere (AnyNode.IsFree (· = target)) node

variable {permitted : Operation → Prop} {before after : Session} {target : Target}

theorem Step.follows (step : before.Step permitted after) : before.toHost.Follows after.toHost := by
  cases step with
  | host step => exact step.follows
  | compile lawful source => exact .of_world ((Compilation.ofSource_passes _ source _).adds lawful).toFollows
  | evaluate _ evaluated => exact .of_world (.of_store _ (AnyNode.extends_of_eval evaluated))

/-- If no name is bound to the cell as a variable, a new graph does not write it, unless the cell is new as well and
cannot be accessed. -/
theorem Step.spares (step : before.Step permitted after) (sound : before.IsSound)
    (unbound : ¬after.world.Binds (target.binding false)) (spares : before.Spares target) :
    after.Spares target ∨ target.IsFresh before.world.store after.world.store ∧ ¬after.Accesses target := by
  cases step with
  | host | evaluate => exact .inl spares
  | @compile environment lawful source =>
    unfold Spares
    cases compiled : (Compilation.ofSource environment source before.world).root with
    | none =>
      rw [Session.compile, compiled]
      exact .inl spares
    | some root =>
      rcases isFree_or_isHidden lawful sound compiled unbound with free | ⟨fresh, notBound⟩
      · rw [Session.compile, compiled]
        exact .inl (List.forall_mem_cons.mpr ⟨free, spares⟩)
      · refine .inr ⟨fresh, fun accessed => ?_⟩
        rcases accessed with held | binds
        · exact fresh.1 (sound target (.inl held))
        · exact notBound binds

/-- A step leaves the content of a cell that neither the host nor a graph writes. -/
theorem Step.isSame (step : before.Step permitted after) (spared : ∀ operation, permitted operation →
    ¬operation.Writes target) (inUse : target.IsInUse before.world.store) (spares : before.Spares target) :
    target.IsSame before.world.store after.world.store := by
  cases step with
  | host step =>
    cases step with
    | perform allowed => exact World.isSame_perform inUse (spared _ allowed)
    | take => exact .refl _ target
  | compile lawful source =>
    exact Target.isSame_of_grows ((Compilation.ofSource_passes _ source _).adds lawful).grows inUse
  | evaluate compiled evaluated =>
    exact Target.isSame_of_resembles (AnyNode.resembles_of_eval (spares _ compiled) evaluated)

/-! ## Runs -/

/-- The invariant of a cell to which no name is ever bound as a variable: no graph writes it, unless it cannot be
accessed. -/
structure Guards (session : Session) (target : Target) : Prop where
  sound : session.IsSound
  spares : session.Spares target ∨ target.IsInUse session.world.store ∧ ¬session.Accesses target

theorem guards_start (target : Target) : start.Guards target where
  sound := by
    rintro target (held | ⟨constant, handle, kind, name, bound⟩)
    · exact held.elim
    · change (SymbolTable.empty.ofKind kind).lookup name = _ at bound
      rw [SymbolTable.lookup_ofKind_empty] at bound
      cases bound
  spares := .inl (List.forall_mem_nil _)

theorem Guards.step (guards : before.Guards target) (step : before.Step permitted after)
    (unbound : ¬after.world.Binds (target.binding false)) : after.Guards target where
  sound := step.follows.isSound guards.sound
  spares := by
    rcases guards.spares with spares | ⟨inUse, hidden⟩
    · exact (step.spares guards.sound unbound spares).imp_right fun new => ⟨new.1.2, new.2⟩
    · refine .inr ⟨inUse.extend step.follows.store, fun accessed => ?_⟩
      rcases step.follows.accesses accessed with accessed | fresh
      · exact hidden accessed
      · exact fresh.1 inUse

/-- What can happen in a session, as long as no name is bound to the cell as a variable. -/
abbrev Runs (permitted : Operation → Prop) (target : Target) : Session → Session → Prop :=
  Relation.ReflTransGen fun before after => before.Step permitted after ∧ ¬after.world.Binds (target.binding false)

theorem guards_of_runs (run : start.Runs permitted target after) : after.Guards target := by
  induction run with
  | refl => exact guards_start target
  | tail _ step induction => exact induction.step step.1 step.2

/-- From a state in which a cell can be accessed on, it keeps its content unless the host writes it. -/
theorem Guards.isSame (guards : before.Guards target) (accessed : before.Accesses target)
    (spared : ∀ operation, permitted operation → ¬operation.Writes target)
    (run : before.Runs permitted target after) : target.IsSame before.world.store after.world.store := by
  have spares : before.Spares target := guards.spares.resolve_right fun hidden => hidden.2 accessed
  have inUse := guards.sound target accessed
  suffices kept : after.IsSound ∧ target.IsInUse after.world.store ∧ after.Spares target ∧
      target.IsSame before.world.store after.world.store from kept.2.2.2
  induction run with
  | refl => exact ⟨guards.sound, inUse, spares, .refl _ target⟩
  | tail _ step induction =>
    obtain ⟨step, unbound⟩ := step
    obtain ⟨sound, stillInUse, spares, same⟩ := induction
    refine ⟨step.follows.isSound sound, stillInUse.extend step.follows.store, ?_,
      same.trans (step.isSame spared stillInUse spares)⟩
    exact (step.spares sound unbound spares).resolve_right fun new => new.1.1 stillInUse

/-- Constants are never written. From the state on in which a name is bound to a cell as a constant, the cell keeps its
content, unless the host writes it, in every session in which no name is ever bound to it as a variable. The vectors
keep their lengths in every session. -/
theorem constant_kept :
    (∀ target session later, start.Runs (fun _ => True) target session →
      session.world.Binds (target.binding true) →
      session.Runs (fun operation => ¬operation.Writes target) target later →
      target.IsSame session.world.store later.world.store) ∧
    ∀ session later, Relation.ReflTransGen (Step fun _ => True) session later →
      ∀ cell : VectorCell, cell.index < session.world.store.vectors.size →
        (later.world.store.vector cell).length = (session.world.store.vector cell).length := by
  refine ⟨fun target session later first constant second => ?_, fun session later run => ?_⟩
  · exact (guards_of_runs first).isSame (.inr ⟨true, constant⟩) (fun _ => id) second
  · suffices extended : session.world.store.Extends later.world.store from extended.lengths
    induction run with
    | refl => exact .refl _
    | tail _ step induction => exact induction.trans step.follows.store

def oneConstant : Session :=
  (start.perform .newTable).perform (.request ⟨0⟩ "c" (.createScalar 1.0 true))

theorem not_binds_newTable (binding : Binding) : ¬(start.perform .newTable).world.Binds binding := by
  rintro ⟨handle, kind, name, bound⟩
  have empty : (start.perform .newTable).world.table handle = .empty := World.table_newTable .empty handle
  rw [empty, SymbolTable.lookup_ofKind_empty] at bound
  cases bound

theorem not_binds_oneConstant : ¬oneConstant.world.Binds ((Target.number ⟨0⟩).binding false) := by
  intro binds
  let world := (start.perform .newTable).world
  have made : oneConstant.world = { world with store := (world.store.newNumber 1.0).2 }.setTable ⟨0⟩
      ((world.table ⟨0⟩).insert "c" (.scalar (world.store.newNumber 1.0).1 true)) := rfl
  rw [made] at binds
  rcases World.binds_setTable binds with ⟨kind, name, bound⟩ | binds
  · rcases SymbolTable.lookup_ofKind_insert_cases bound with ⟨-, -, same⟩ | bound
    · cases same
    · exact not_binds_newTable _ ⟨⟨0⟩, kind, name, bound⟩
  · exact not_binds_newTable _ binds

/-- An environment without a resolver, in which nothing is folded. -/
def unfoldedEnvironment : Environment :=
  { Compile.plainEnvironment with settings := { Settings.standard with folding := false } }

theorem tokenize_declaredConstant :
    tokenize "var v:=c;v" = .ok [⟨.fixed .varWord, "var", ⟨1, 1⟩⟩, ⟨.name "v", "v", ⟨1, 5⟩⟩,
      ⟨.fixed .assign, ":=", ⟨1, 6⟩⟩, ⟨.name "c", "c", ⟨1, 8⟩⟩, ⟨.fixed .semicolon, ";", ⟨1, 9⟩⟩,
      ⟨.name "v", "v", ⟨1, 10⟩⟩] := by
  with_unfolding_all rfl

theorem graphs_declaredConstant : (oneConstant.compile unfoldedEnvironment "var v:=c;v").graphs =
    [AnyNode.scalar (.sequence [AnyNode.scalar (.assign ⟨1⟩ none (.variable ⟨0⟩))] (.variable ⟨1⟩))] := by
  unfold compile Compilation.ofSource
  rw [tokenize_declaredConstant]
  rfl

theorem numbers_declaredConstant : (oneConstant.compile unfoldedEnvironment "var v:=c;v").world.store =
    { oneConstant.world.store with numbers := ⟨#[1.0, 0.0]⟩ } := by
  unfold compile Compilation.ofSource
  rw [tokenize_declaredConstant]
  rfl

/-- Compiling `var v:=c;v` and evaluating it, which copies `c` to a cell of its own, leaves the constant `c`. -/
theorem constant_kept_evaluating :
    let compiled := oneConstant.compile unfoldedEnvironment "var v:=c;v"
    let node : Node .scalar := .sequence [AnyNode.scalar (.assign ⟨1⟩ none (.variable ⟨0⟩))] (.variable ⟨1⟩)
    oneConstant.world.Binds ((Target.number ⟨0⟩).binding true) ∧ AnyNode.scalar node ∈ compiled.graphs ∧
      ∃ store, node.eval 0 compiled.world.store = some ((1.0 : Float), store) ∧ store.number ⟨1⟩ = 1.0 ∧
        (Target.number ⟨0⟩).IsSame oneConstant.world.store store := by
  intro compiled node
  have bound : oneConstant.world.Binds ((Target.number ⟨0⟩).binding true) := ⟨⟨0⟩, .scalar, "c", rfl⟩
  have lawful : unfoldedEnvironment.OnlyAdds oneConstant.held := nofun
  have tables : compiled.world.tables = oneConstant.world.tables :=
    (World.grows_of_effects rfl (Compilation.ofSource_effects unfoldedEnvironment "var v:=c;v" oneConstant.world)).2
  have unbound {store : Store} :
      ¬({ compiled.world with store := store } : World).Binds ((Target.number ⟨0⟩).binding false) := by
    rintro ⟨handle, kind, name, found⟩
    apply not_binds_oneConstant
    exact ⟨handle, kind, name, by rw [← found, World.table, World.table, ← tables]⟩
  have graph : AnyNode.scalar node ∈ compiled.graphs := by
    rw [show compiled.graphs = [AnyNode.scalar node] from graphs_declaredConstant]
    exact List.mem_singleton_self _
  have evaluated : node.eval 0 compiled.world.store =
      some ((1.0 : Float), { oneConstant.world.store with numbers := ⟨#[1.0, 1.0]⟩ }) := by
    rw [show compiled.world.store = _ from numbers_declaredConstant]
    rfl
  have first : start.Runs (fun _ => True) (.number ⟨0⟩) oneConstant := by
    apply Relation.ReflTransGen.tail (.single ⟨.host (.perform trivial fun _ => False.elim), not_binds_newTable _⟩)
    exact ⟨.host (.perform trivial fun _ => False.elim), not_binds_oneConstant⟩
  have second : oneConstant.Runs (fun operation => ¬operation.Writes (.number ⟨0⟩)) (.number ⟨0⟩)
      { compiled with world := { compiled.world with
        store := { oneConstant.world.store with numbers := ⟨#[1.0, 1.0]⟩ } } } := by
    apply Relation.ReflTransGen.tail (.single ⟨.compile lawful "var v:=c;v", unbound⟩)
    exact ⟨.evaluate graph evaluated, unbound⟩
  exact ⟨bound, graph, _, evaluated, rfl, constant_kept.1 (.number ⟨0⟩) oneConstant _ first bound second⟩

end Session

end LiveExpr
