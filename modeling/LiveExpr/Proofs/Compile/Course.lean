import LiveExpr.Compile.Program
import LiveExpr.Proofs.Symbol.Table
import Mathlib.Logic.Relation

/-!
The course of a compilation: the states that it can pass through, one small change after another. What a
compilation does to its state is described by these changes alone; which of them are made, and in what order, is
left open.
-/

namespace LiveExpr

/-- What a compilation may do to the world at once: ask the resolver, bind an accepted name to a new scalar, or
allocate the cell of a declared variable. -/
inductive World.Step (environment : Environment) : World → World → Prop
  | ask {resolver : Resolver} (installed : environment.resolver = some resolver) (name : String)
      (world : World) : Step environment world (resolver name environment.table world).2
  | create {resolver : Resolver} (installed : environment.resolver = some resolver) {world after : World}
      {name : String} (created : world.createScalar environment.table name 0.0 false = .ok after) :
      Step environment world after
  | number (world : World) (value : Float) :
      Step environment world { world with store := (world.store.newNumber value).2 }
  | string (world : World) (value : Bytes) :
      Step environment world { world with store := (world.store.newString value).2 }
  | vector (world : World) (values : List Float) :
      Step environment world { world with store := (world.store.newVector values).2 }

/-- Whether a cell has been allocated for a variable that a formula declares, which comes to be bound so. -/
inductive World.Allocates : World → Binding → World → Prop
  | number (world : World) (value : Float) :
      Allocates world (.scalar (world.store.newNumber value).1 false)
        { world with store := (world.store.newNumber value).2 }
  | string (world : World) (value : Bytes) :
      Allocates world (.string (world.store.newString value).1 false)
        { world with store := (world.store.newString value).2 }
  | vector (world : World) (values : List Float) :
      Allocates world (.vector (world.store.newVector values).1)
        { world with store := (world.store.newVector values).2 }

abbrev World.Passes (environment : Environment) : World → World → Prop :=
  Relation.ReflTransGen (World.Step environment)

/-- What a compilation does to the world at once, when the resolver has accepted some names: as a step, but only an
accepted name is bound. -/
inductive World.Effect (environment : Environment) (accepted : List String) : World → World → Prop
  | ask {resolver : Resolver} (installed : environment.resolver = some resolver) (name : String)
      (world : World) : Effect environment accepted world (resolver name environment.table world).2
  | create {resolver : Resolver} (installed : environment.resolver = some resolver) {world after : World}
      {name : String} (named : name ∈ accepted)
      (created : world.createScalar environment.table name 0.0 false = .ok after) :
      Effect environment accepted world after
  | number (world : World) (value : Float) :
      Effect environment accepted world { world with store := (world.store.newNumber value).2 }
  | string (world : World) (value : Bytes) :
      Effect environment accepted world { world with store := (world.store.newString value).2 }
  | vector (world : World) (values : List Float) :
      Effect environment accepted world { world with store := (world.store.newVector values).2 }

namespace World.Effect

variable {environment : Environment} {accepted more : List String} {before after : World}

theorem step (effect : before.Effect environment accepted after) : before.Step environment after := by
  cases effect with
  | ask installed name => exact .ask installed name before
  | create installed _ created => exact .create installed created
  | number => exact .number before _
  | string => exact .string before _
  | vector => exact .vector before _

theorem mono (effect : before.Effect environment accepted after) (kept : ∀ name ∈ accepted, name ∈ more) :
    before.Effect environment more after := by
  cases effect with
  | ask installed name => exact .ask installed name before
  | create installed named created => exact .create installed (kept _ named) created
  | number => exact .number before _
  | string => exact .string before _
  | vector => exact .vector before _

theorem of_allocates {binding : Binding} (allocates : before.Allocates binding after) :
    before.Effect environment accepted after := by
  cases allocates with
  | number value => exact .number before value
  | string value => exact .string before value
  | vector values => exact .vector before values

end World.Effect

/-- Whether the binding is one that a formula makes for itself: a variable over an allocated cell. -/
def Binding.IsLocal (store : Store) : Binding → Prop
  | .scalar cell constant => constant = false ∧ cell.index < store.numbers.size
  | .string cell constant => constant = false ∧ cell.index < store.strings.size
  | .vector cell => cell.index < store.vectors.size
  | .function _ => False

theorem World.Allocates.isLocal {before after : World} {binding : Binding}
    (allocates : before.Allocates binding after) : binding.IsLocal after.store := by
  cases allocates with
  | number | string => simp [Binding.IsLocal, Store.newNumber, Store.newString]
  | vector => simp [Binding.IsLocal, Store.newVector]

namespace Progress

/-- What a compilation may do to its state at once. -/
inductive Step (environment : Environment) : Progress → Progress → Prop
  | report (progress : Progress) (report : Report) :
      Step environment progress { progress with reports := report :: progress.reports }
  | reportName (progress : Progress) (name : String) (report : Report) :
      Step environment progress
        { progress with reports := report :: progress.reports, reported := name :: progress.reported }
  | accept (progress : Progress) (name : String) :
      Step environment progress { progress with accepted := name :: progress.accepted }
  | world {progress : Progress} {after : World} (effect : progress.world.Effect environment progress.accepted after) :
      Step environment progress { progress with world := after }
  /-- Problems may be found between the allocation of the cell and the declaration. -/
  | declare {progress : Progress} (name : String) (found : List Report) {binding : Binding} {after : World}
      (allocates : progress.world.Allocates binding after) :
      Step environment progress
        { progress with
          world := after
          locals := progress.locals.insert name binding
          reports := found ++ progress.reports }

/-- The states that a compilation may get to. -/
abbrev Reaches (environment : Environment) : Progress → Progress → Prop :=
  Relation.ReflTransGen (Step environment)

variable {environment : Environment}

theorem Reaches.world_passes {before after : Progress} (reached : before.Reaches environment after) :
    before.world.Passes environment after.world := by
  induction reached with
  | refl => exact .refl
  | tail _ step induction =>
    cases step with
    | world effect => exact induction.tail effect.step
    | declare _ _ allocates =>
      have effect : World.Effect environment [] _ _ := .of_allocates allocates
      exact induction.tail effect.step
    | _ => exact induction

/-- All that happens to the world, with names that are accepted in the end. -/
theorem Reaches.world_effects {before after : Progress} (reached : before.Reaches environment after) :
    Relation.ReflTransGen (World.Effect environment after.accepted) before.world after.world := by
  induction reached with
  | refl => exact .refl
  | @tail progress _ _ step induction =>
    cases step with
    | world effect => exact induction.tail effect
    | declare _ _ allocates => exact induction.tail (.of_allocates allocates)
    | accept name =>
      have more : World.Effect environment progress.accepted ≤ World.Effect environment (name :: progress.accepted) :=
        fun _ _ effect => effect.mono fun _ => List.mem_cons_of_mem name
      exact Relation.ReflTransGen.mono more _ _ induction
    | _ => exact induction

theorem Reaches.reports_ne_nil {before after : Progress} (reached : before.Reaches environment after)
    (reported : before.reports ≠ []) : after.reports ≠ [] := by
  induction reached with
  | refl => exact reported
  | tail _ step induction =>
    cases step with
    | report => exact List.cons_ne_nil _ _
    | reportName => exact List.cons_ne_nil _ _
    | declare _ found => exact List.append_ne_nil_of_right_ne_nil found induction
    | _ => exact induction

/-- Where a name counts as reported, something is reported. -/
theorem reports_ne_nil_of_reported {world : World} {progress : Progress}
    (reached : (start world).Reaches environment progress) (reported : progress.reported ≠ []) :
    progress.reports ≠ [] := by
  induction reached with
  | refl => exact absurd rfl reported
  | tail _ step induction =>
    cases step with
    | report => exact List.cons_ne_nil _ _
    | reportName => exact List.cons_ne_nil _ _
    | declare _ found => exact List.append_ne_nil_of_right_ne_nil found (induction reported)
    | _ => exact induction reported

theorem reaches_reports (progress : Progress) (found : List Report) :
    progress.Reaches environment { progress with reports := found ++ progress.reports } := by
  induction found with
  | nil => exact .refl
  | cons report found induction => exact induction.tail (.report _ report)

/-- The state after a declaration, which makes its variable known if that is allowed. -/
def declared (progress : Progress) (allowed : Bool) (name : String) (found : List Report) (binding : Binding)
    (after : World) : Progress :=
  { progress with
    world := after
    locals := if allowed then progress.locals.insert name binding else progress.locals
    reports := found ++ progress.reports }

theorem reaches_declared {progress : Progress} (allowed : Bool) (name : String) (found : List Report)
    {binding : Binding} {after : World} (allocates : progress.world.Allocates binding after) :
    progress.Reaches environment (progress.declared allowed name found binding after) := by
  cases allowed with
  | true => exact .single (.declare name found allocates)
  | false => exact Relation.ReflTransGen.head (.world (.of_allocates allocates)) (reaches_reports _ found)

/-- Whether some name stands for the binding, as a declared variable or in the table. -/
def Binds (environment : Environment) (progress : Progress) (binding : Binding) : Prop :=
  ∃ name, progress.locals.lookup name = some binding ∨
    (progress.world.table environment.table).lookup name = some binding

/-- Whether the formula may assign to what is bound so: at some time a name has stood for the binding, or its cell has
been allocated for a declared variable. -/
inductive Assignable (environment : Environment) (world : World) (progress : Progress) (binding : Binding) : Prop
  | bound {earlier : Progress} (reached : (start world).Reaches environment earlier)
      (binds : earlier.Binds environment binding) (later : earlier.Reaches environment progress)
  | allocated {earlier middle : Progress} (reached : (start world).Reaches environment earlier)
      (allocates : earlier.world.Allocates binding middle.world) (later : middle.Reaches environment progress)

theorem assignable_declared {world : World} {progress : Progress}
    (reached : (start world).Reaches environment progress) (allowed : Bool) (name : String) (found : List Report)
    {binding : Binding} {after : World} (allocates : progress.world.Allocates binding after) :
    (progress.declared allowed name found binding after).Assignable environment world binding :=
  .allocated reached allocates .refl

theorem Assignable.later {world : World} {before after : Progress} {binding : Binding}
    (assignable : before.Assignable environment world binding) (reached : before.Reaches environment after) :
    after.Assignable environment world binding := by
  cases assignable with
  | bound seen binds later => exact .bound seen binds (later.trans reached)
  | allocated seen allocates later => exact .allocated seen allocates (later.trans reached)

end Progress

namespace Compile

open Progress (Reaches Binds)

theorem bind_eq_ok {α β : Type} {first : Compile α} {next : α → Compile β} {before after : Progress} {result : β}
    (done : (first >>= next) before = (.ok result, after)) :
    ∃ value middle, first before = (.ok value, middle) ∧ next value middle = (.ok result, after) := by
  rw [bind_apply] at done
  split at done
  · next value middle first => exact ⟨value, middle, first, done⟩
  · cases done

variable (environment : Environment)

/-! ## Names -/

theorem known?_eq (name : String) (progress : Progress) :
    ∃ found, known? environment name progress = (.ok found, progress) ∧
      ∀ binding, found = some binding → progress.Binds environment binding := by
  refine ⟨_, rfl, fun binding bound => ?_⟩
  dsimp only at bound
  split at bound
  · next declared =>
    cases bound
    exact ⟨name, .inl declared⟩
  · exact ⟨name, .inr bound⟩

/-- What resolving a name comes to: a binding that is in force, or nothing and then something is reported. -/
structure Resolved (before : Progress) (outcome : Except Halt (Option Binding) × Progress) : Prop where
  reaches : before.Reaches environment outcome.2
  found : ∃ binding, outcome.1 = .ok binding ∧
    (∀ bound, binding = some bound → outcome.2.Binds environment bound) ∧
    (binding = none → outcome.2.reports ≠ [])

variable {environment}

theorem Resolved.reported (progress : Progress) (name : String) (problem : Problem) (place : Place) :
    Resolved environment progress
      ((do reportName name problem place; pure none : Compile (Option Binding)) progress) where
  reaches := .single (.reportName progress name ⟨problem, place⟩)
  found := ⟨none, rfl, nofun, fun _ => List.cons_ne_nil _ _⟩

theorem Resolved.after {before middle : Progress} {outcome : Except Halt (Option Binding) × Progress}
    (reached : before.Reaches environment middle) (resolved : Resolved environment middle outcome) :
    Resolved environment before outcome :=
  { resolved with reaches := reached.trans resolved.reaches }

theorem bindAccepted_resolved {resolver : Resolver} (installed : environment.resolver = some resolver)
    (name : String) (place : Place) (progress : Progress) :
    Resolved environment progress (bindAccepted environment name place progress) := by
  have accepted : progress.Reaches environment { progress with accepted := name :: progress.accepted } :=
    .single (.accept progress name)
  unfold bindAccepted
  dsimp only
  split
  · next binding bound =>
    refine ⟨accepted, some binding, rfl, ?_, nofun⟩
    rintro _ ⟨⟩
    exact ⟨name, .inr bound⟩
  · split
    · next world created =>
      have bound : (world.table environment.table).lookup name =
          some (.scalar (progress.world.store.newNumber 0.0).1 false) := by
        rw [(World.createScalar_eq_ok created).2, SymbolTable.lookup_insert_same (World.lookup_of_createScalar created)]
      refine ⟨accepted.tail (.world (.create installed (List.mem_cons_self ..) created)), _, rfl, ?_, ?_⟩
      · exact fun binding equal => ⟨name, .inr equal⟩
      · intro unbound
        rw [bound] at unbound
        cases unbound
    · exact (Resolved.reported _ _ _ _).after accepted

theorem askResolver_resolved {resolver : Resolver} (installed : environment.resolver = some resolver)
    (name : String) (place : Place) (progress : Progress) :
    Resolved environment progress (askResolver environment resolver name place progress) := by
  have asked : progress.Reaches environment
      { progress with world := (resolver name environment.table progress.world).2 } :=
    .single (.world (.ask installed name progress.world))
  unfold askResolver
  dsimp only
  split
  · exact (bindAccepted_resolved installed name place _).after asked
  · exact (Resolved.reported _ _ _ _).after asked

theorem resolve_resolved {world : World} {progress : Progress}
    (reached : (Progress.start world).Reaches environment progress) (word : Lexeme) :
    Resolved environment progress (resolve environment word progress) := by
  obtain ⟨found, known, binds⟩ := known?_eq environment word.text progress
  rw [resolve, bind_of_ok known]
  cases found with
  | some binding => exact ⟨.refl, some binding, rfl, fun bound equal => binds bound equal, nofun⟩
  | none =>
    dsimp only
    rw [view_bind]
    split
    · next contained =>
      refine ⟨.refl, none, rfl, nofun, fun _ => ?_⟩
      apply Progress.reports_ne_nil_of_reported reached
      intro empty
      rw [empty] at contained
      cases contained
    · cases installed : environment.resolver with
      | some resolver => exact askResolver_resolved installed _ _ progress
      | none => exact Resolved.reported progress _ _ _

theorem mayDeclare_reaches (word : Lexeme) (progress : Progress) :
    progress.Reaches environment (mayDeclare environment word progress).2 ∧
      ∃ allowed, (mayDeclare environment word progress).1 = .ok allowed := by
  unfold mayDeclare
  split
  · exact ⟨.single (.report progress _), false, rfl⟩
  · obtain ⟨found, known, -⟩ := known?_eq environment word.text progress
    rw [bind_of_ok known]
    split
    · exact ⟨.single (.report progress _), false, rfl⟩
    · exact ⟨.refl, true, rfl⟩

end Compile

end LiveExpr
