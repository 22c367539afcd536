import LiveExpr.Proofs.Compile.Course

/-!
Handles stay good in the course of a compilation. A cell in use stays in use, a vector keeps its length, and what
names stand for is in use; of a resolver this has to be assumed, since it can change the world at will.
-/

namespace LiveExpr

/-- Whether the second store has all cells of the first, and vectors of the same lengths in them. -/
structure Store.Extends (before after : Store) : Prop where
  numbers : before.numbers.size ≤ after.numbers.size
  strings : before.strings.size ≤ after.strings.size
  vectors : before.vectors.size ≤ after.vectors.size
  lengths (cell : VectorCell) (inUse : cell.index < before.vectors.size) :
    (after.vector cell).length = (before.vector cell).length

/-- Whether the cell of a binding is in use. -/
def Binding.IsInUse (store : Store) : Binding → Prop
  | .scalar cell _ => cell.index < store.numbers.size
  | .string cell _ => cell.index < store.strings.size
  | .vector cell => cell.index < store.vectors.size
  | .function _ => True

/-- Whether all cells that a table binds are in use. -/
def World.IsSound (world : World) (table : TableHandle) : Prop :=
  ∀ name binding, (world.table table).lookup name = some binding → binding.IsInUse world.store

/-- Whether a resolver drops no cells, changes no lengths, and binds no cells that are not in use. -/
structure Resolver.IsLawful (resolver : Resolver) (table : TableHandle) : Prop where
  preserves (name : String) (world : World) : world.store.Extends (resolver name table world).2.store
  sound (name : String) (world : World) (isSound : world.IsSound table) :
    (resolver name table world).2.IsSound table

/-- Whether the resolver of the environment is lawful, if there is one. -/
def Environment.IsLawful (environment : Environment) : Prop :=
  ∀ resolver, environment.resolver = some resolver → resolver.IsLawful environment.table

namespace Store.Extends

theorem refl (store : Store) : store.Extends store :=
  ⟨Nat.le_refl _, Nat.le_refl _, Nat.le_refl _, fun _ _ => rfl⟩

theorem trans {first second third : Store} (one : first.Extends second) (other : second.Extends third) :
    first.Extends third where
  numbers := Nat.le_trans one.numbers other.numbers
  strings := Nat.le_trans one.strings other.strings
  vectors := Nat.le_trans one.vectors other.vectors
  lengths cell inUse :=
    (other.lengths cell (Nat.lt_of_lt_of_le inUse one.vectors)).trans (one.lengths cell inUse)

theorem newNumber (store : Store) (value : Float) : store.Extends (store.newNumber value).2 :=
  ⟨by simp [Store.newNumber], Nat.le_refl _, Nat.le_refl _, fun _ _ => rfl⟩

theorem newString (store : Store) (value : Bytes) : store.Extends (store.newString value).2 :=
  ⟨Nat.le_refl _, by simp [Store.newString], Nat.le_refl _, fun _ _ => rfl⟩

theorem newVector (store : Store) (values : List Float) : store.Extends (store.newVector values).2 := by
  refine ⟨Nat.le_refl _, Nat.le_refl _, by simp [Store.newVector], fun cell inUse => ?_⟩
  exact congrArg List.length (Cells.get_push_other store.vectors (Nat.ne_of_lt inUse) values)

end Store.Extends

variable {environment : Environment}

theorem Binding.IsInUse.extend {before after : Store} {binding : Binding} (inUse : binding.IsInUse before)
    (grown : before.Extends after) : binding.IsInUse after := by
  cases binding with
  | scalar cell constant => exact Nat.lt_of_lt_of_le inUse grown.numbers
  | string cell constant => exact Nat.lt_of_lt_of_le inUse grown.strings
  | vector cell => exact Nat.lt_of_lt_of_le inUse grown.vectors
  | function => trivial

namespace World

section

variable (preserves : ∀ resolver, environment.resolver = some resolver →
  ∀ (name : String) (world : World), world.store.Extends (resolver name environment.table world).2.store)

include preserves

theorem Step.store_extends_of_preserves {before after : World} (step : before.Step environment after) :
    before.store.Extends after.store := by
  cases step with
  | ask installed name => exact preserves _ installed name before
  | create _ created =>
    rw [(createScalar_eq_ok created).1]
    exact .newNumber _ _
  | number => exact .newNumber _ _
  | string => exact .newString _ _
  | vector => exact .newVector _ _

theorem Passes.store_extends_of_preserves {before after : World} (passes : before.Passes environment after) :
    before.store.Extends after.store := by
  induction passes with
  | refl => exact .refl _
  | tail _ step induction => exact induction.trans (step.store_extends_of_preserves preserves)

end

theorem Step.store_extends (lawful : environment.IsLawful) {before after : World}
    (step : before.Step environment after) : before.store.Extends after.store :=
  step.store_extends_of_preserves fun _ installed => (lawful _ installed).preserves

theorem Passes.store_extends (lawful : environment.IsLawful) {before after : World}
    (passes : before.Passes environment after) : before.store.Extends after.store :=
  passes.store_extends_of_preserves fun _ installed => (lawful _ installed).preserves

theorem Step.isSound (lawful : environment.IsLawful) {before after : World}
    (step : before.Step environment after) (sound : before.IsSound environment.table) :
    after.IsSound environment.table := by
  have grown := step.store_extends lawful
  cases step with
  | ask installed name => exact (lawful _ installed).sound name before sound
  | create _ created =>
    intro other binding bound
    rw [(createScalar_eq_ok created).2] at bound
    rcases SymbolTable.lookup_insert_cases (lookup_of_createScalar created) bound with ⟨-, rfl⟩ | bound
    · rw [(createScalar_eq_ok created).1]
      simp [Binding.IsInUse, Store.newNumber]
    · exact (sound other binding bound).extend grown
  | number | string | vector => exact fun name binding bound => (sound name binding bound).extend grown

end World

/-! ## Without a resolver -/

/-- Without a resolver, a compilation binds nothing, and writes no cell that was in use. -/
structure World.Retains (table : TableHandle) (before after : World) : Prop where
  grown : before.store.Extends after.store
  table : after.table table = before.table table
  numbers (cell : NumberCell) (inUse : cell.index < before.store.numbers.size) :
    after.store.number cell = before.store.number cell
  strings (cell : StringCell) (inUse : cell.index < before.store.strings.size) :
    after.store.string cell = before.store.string cell

theorem Environment.isLawful_of_none (none : environment.resolver = none) : environment.IsLawful := by
  intro resolver installed
  rw [none] at installed
  cases installed

theorem World.Step.retains (none : environment.resolver = none) {before after : World}
    (step : before.Step environment after) : before.Retains environment.table after := by
  have grown := step.store_extends (Environment.isLawful_of_none none)
  cases step with
  | ask installed | create installed =>
    rw [none] at installed
    cases installed
  | number =>
    refine ⟨grown, rfl, fun cell inUse => ?_, fun _ _ => rfl⟩
    exact Cells.get_push_other before.store.numbers (Nat.ne_of_lt inUse) _
  | string =>
    refine ⟨grown, rfl, fun _ _ => rfl, fun cell inUse => ?_⟩
    exact Cells.get_push_other before.store.strings (Nat.ne_of_lt inUse) _
  | vector => exact ⟨grown, rfl, fun _ _ => rfl, fun _ _ => rfl⟩

theorem World.Passes.retains (none : environment.resolver = none) {before after : World}
    (passes : before.Passes environment after) : before.Retains environment.table after := by
  induction passes with
  | refl => exact ⟨.refl _, rfl, fun _ _ => rfl, fun _ _ => rfl⟩
  | tail _ step induction =>
    have last := step.retains none
    refine ⟨induction.grown.trans last.grown, last.table.trans induction.table, fun cell inUse => ?_,
      fun cell inUse => ?_⟩
    · have still := Nat.lt_of_lt_of_le inUse induction.grown.numbers
      exact (last.numbers cell still).trans (induction.numbers cell inUse)
    · have still := Nat.lt_of_lt_of_le inUse induction.grown.strings
      exact (last.strings cell still).trans (induction.strings cell inUse)

theorem World.Passes.isSound (lawful : environment.IsLawful) {before after : World}
    (passes : before.Passes environment after) (sound : before.IsSound environment.table) :
    after.IsSound environment.table := by
  induction passes with
  | refl => exact sound
  | tail _ step induction => exact step.isSound lawful induction

/-! ## Declared variables -/

theorem Binding.IsLocal.extend {before after : Store} {binding : Binding} (isLocal : binding.IsLocal before)
    (grown : before.Extends after) : binding.IsLocal after := by
  cases binding with
  | scalar cell constant => exact ⟨isLocal.1, Nat.lt_of_lt_of_le isLocal.2 grown.numbers⟩
  | string cell constant => exact ⟨isLocal.1, Nat.lt_of_lt_of_le isLocal.2 grown.strings⟩
  | vector cell => exact Nat.lt_of_lt_of_le isLocal grown.vectors
  | function => exact isLocal

namespace Progress

/-- Whether the declared variables are variables of cells in use, and the table is sound. -/
structure IsSound (environment : Environment) (progress : Progress) : Prop where
  locals (name : String) (binding : Binding) (bound : progress.locals.lookup name = some binding) :
    binding.IsLocal progress.world.store
  table : progress.world.IsSound environment.table

theorem Reaches.isSound (lawful : environment.IsLawful) {world : World}
    (sound : world.IsSound environment.table) {progress : Progress}
    (reached : (start world).Reaches environment progress) : progress.IsSound environment := by
  induction reached with
  | refl => exact ⟨fun _ _ bound => (by cases bound), sound⟩
  | tail _ step induction =>
    cases step with
    | report | reportName | accept => exact ⟨induction.locals, induction.table⟩
    | world effect =>
      exact ⟨fun name binding bound => (induction.locals name binding bound).extend (effect.step.store_extends lawful),
        effect.step.isSound lawful induction.table⟩
    | declare name _ allocates =>
      have effect : World.Effect environment [] _ _ := .of_allocates allocates
      refine ⟨fun other binding bound => ?_, effect.step.isSound lawful induction.table⟩
      rcases NameMap.lookup_insert_cases bound with ⟨-, rfl⟩ | bound
      · exact allocates.isLocal
      · exact (induction.locals other binding bound).extend (effect.step.store_extends lawful)

/-- A constant that a name stands for is bound in the table, since a formula declares variables only. -/
theorem IsSound.bound_of_binds {progress : Progress} (sound : progress.IsSound environment)
    {binding : Binding} (binds : progress.Binds environment binding)
    (notLocal : ¬ binding.IsLocal progress.world.store) :
    ∃ name, (progress.world.table environment.table).lookup name = some binding := by
  obtain ⟨name, declared | bound⟩ := binds
  · exact absurd (sound.locals name binding declared) notLocal
  · exact ⟨name, bound⟩

theorem IsSound.vector_inUse {progress : Progress} (sound : progress.IsSound environment)
    {cell : VectorCell} (binds : progress.Binds environment (.vector cell)) :
    cell.index < progress.world.store.vectors.size := by
  obtain ⟨name, declared | bound⟩ := binds
  · exact sound.locals name _ declared
  · exact sound.table name _ bound

end Progress

end LiveExpr
