import LiveExpr.Proofs.Compile.Naming
import LiveExpr.Proofs.World.Access

/-!
What a compilation leaves alone while there is no problem, if its resolver is confined to its purpose: the bindings of
the table with the contents of constants, and the cells of declared variables, which the table never comes to bind.
-/

namespace LiveExpr

/-! ## Bindings in other stores -/

/-- Whether what a compilation knows of the content of a binding is the same for its relabeled cell in another store:
the content of a constant, and the length of a vector. -/
def Binding.Agrees (relabeling : Relabeling) (store other : Store) : Binding → Prop
  | .scalar cell constant => constant = true → other.number (relabeling.number cell) = store.number cell
  | .string cell constant => constant = true → other.string (relabeling.string cell) = store.string cell
  | .vector cell => (other.vector (relabeling.vector cell)).length = (store.vector cell).length
  | .function _ => True

namespace Binding.Agrees

variable {binding : Binding} {relabeling : Relabeling} {before middle after store : Store}

theorem refl (store : Store) (binding : Binding) : binding.Agrees .none store store := by
  cases binding <;> simp [Agrees]

theorem trans (first : binding.Agrees .none before middle) (second : binding.Agrees relabeling middle after) :
    binding.Agrees relabeling before after := by
  cases binding with
  | scalar | string => exact fun constant => (second constant).trans (first constant)
  | vector => exact second.trans first
  | function => trivial

theorem of_grows (grown : before.Grows after) (inUse : binding.IsInUse before) : binding.Agrees .none before after := by
  cases binding with
  | scalar => exact fun _ => grown.number inUse
  | string => exact fun _ => grown.string inUse
  | vector => exact congrArg List.length (grown.vector inUse)
  | function => trivial

theorem of_constants (inUse : binding.IsInUse before) (grown : before.Extends after)
    (constants : ∀ target : Target, binding = target.binding true → target.IsSame before after) :
    binding.Agrees .none before after := by
  cases binding with
  | scalar cell constant =>
    rintro rfl
    exact constants (.number cell) rfl
  | string cell constant =>
    rintro rfl
    exact constants (.string cell) rfl
  | vector cell => exact grown.lengths cell inUse
  | function => trivial

theorem grow (agrees : binding.Agrees relabeling store before) (grown : before.Grows after)
    (inUse : (binding.relabel relabeling).IsInUse before) : binding.Agrees relabeling store after := by
  cases binding with
  | scalar => exact fun constant => (grown.number inUse).trans (agrees constant)
  | string => exact fun constant => (grown.string inUse).trans (agrees constant)
  | vector => exact (congrArg List.length (grown.vector inUse)).trans agrees
  | function => trivial

end Binding.Agrees

/-! ## Worlds -/

/-- Whether the names that a table binds stay bound so, with what a compilation knows of their contents. -/
def World.Keeps (table : TableHandle) (before after : World) : Prop :=
  ∀ name binding, (before.table table).lookup name = some binding →
    (after.table table).lookup name = some binding ∧ binding.Agrees .none before.store after.store

/-- Whether some name in the table stands for the cell. -/
def World.Shares (world : World) (table : TableHandle) (cell : Cell) : Prop :=
  ∃ name binding, (world.table table).lookup name = some binding ∧ binding.cell? = some cell

structure Cell.IsPrivate (table : TableHandle) (start : Store) (world : World) (cell : Cell) : Prop where
  unused : ¬cell.IsInUse start
  inUse : cell.IsInUse world.store
  unbound {name : String} {binding : Binding} (bound : (world.table table).lookup name = some binding) :
    binding.cell? ≠ some cell

/-- Whether nothing is lost from one world to the other, and no private cell has come to be bound. -/
structure World.Leads (table : TableHandle) (start : Store) (before after : World) : Prop where
  grown : before.store.Extends after.store
  sound : after.IsSound table
  keeps : before.Keeps table after
  isPrivate {cell : Cell} (isPrivate : cell.IsPrivate table start before) : cell.IsPrivate table start after

namespace World.Leads

variable {table : TableHandle} {start : Store} {before middle after : World}

theorem refl (sound : before.IsSound table) : before.Leads table start before :=
  ⟨.refl _, sound, fun _ binding bound => ⟨bound, .refl _ binding⟩, id⟩

theorem trans (first : before.Leads table start middle) (second : middle.Leads table start after) :
    before.Leads table start after where
  grown := first.grown.trans second.grown
  sound := second.sound
  keeps name binding bound :=
    have one := first.keeps name binding bound
    have other := second.keeps name binding one.1
    ⟨other.1, one.2.trans other.2⟩
  isPrivate hidden := second.isPrivate (first.isPrivate hidden)

theorem of_grows {store : Store} (sound : before.IsSound table) (grown : before.store.Grows store) :
    before.Leads table start { before with store := store } where
  grown := grown.extends
  sound name binding bound := (sound name binding bound).extend grown.extends
  keeps name binding bound := ⟨bound, .of_grows grown (sound name binding bound)⟩
  isPrivate hidden := ⟨hidden.unused, hidden.inUse.extend grown.extends, hidden.unbound⟩

theorem of_createScalar {name : String} {value : Float} {constant : Bool} (sound : before.IsSound table)
    (created : before.createScalar table name value constant = .ok after) : before.Leads table start after := by
  have free := lookup_of_createScalar created
  obtain ⟨sameStore, sameTable⟩ := createScalar_eq_ok created
  have grown : before.store.Grows after.store := by
    rw [sameStore]
    exact .newNumber _ _
  have bound_cases {other : String} {binding : Binding} (bound : (after.table table).lookup other = some binding) :
      binding = .scalar (before.store.newNumber value).1 constant ∨
        (before.table table).lookup other = some binding := by
    rw [sameTable] at bound
    exact (SymbolTable.lookup_insert_cases free bound).imp_left And.right
  refine ⟨grown.extends, fun other binding bound => ?_, fun other binding bound => ⟨?_, ?_⟩,
    fun hidden => ⟨hidden.unused, hidden.inUse.extend grown.extends, fun bound => ?_⟩⟩
  · rcases bound_cases bound with rfl | bound
    · rw [sameStore]
      exact Nat.lt_of_lt_of_eq (Nat.lt_succ_self _) (Cells.size_push _ _).symm
    · exact (sound other binding bound).extend grown.extends
  · rw [sameTable, SymbolTable.lookup_insert_other, bound]
    rintro rfl
    rw [free] at bound
    cases bound
  · exact .of_grows grown (sound other binding bound)
  · rcases bound_cases bound with rfl | bound
    · rintro ⟨⟩
      exact Nat.lt_irrefl _ hidden.inUse
    · exact hidden.unbound bound

end World.Leads

/-! ## Resolvers -/

/-- Whether a resolver binds at most the name that it is asked for. -/
def Resolver.BindsOnlyAsked (resolver : Resolver) (table : TableHandle) : Prop :=
  ∀ name world other, other ≠ name →
    ((resolver name table world).2.table table).lookup other = (world.table table).lookup other

def Environment.BindsOnlyAsked (environment : Environment) : Prop :=
  ∀ resolver, environment.resolver = some resolver → resolver.BindsOnlyAsked environment.table

/-- Whether a resolver binds at most the name that it is asked for, leaves constants as they are, and gets hold of no
cell that a formula has allocated: it binds a cell that was in use at the start, one that the table binds already, or
one that has come into use in the call. -/
structure Resolver.IsConfined (resolver : Resolver) (table : TableHandle) (start : Store) : Prop where
  lawful : resolver.IsLawful table
  onlyAsked : resolver.BindsOnlyAsked table
  constants (name : String) (world : World) {other : String} {target : Target}
    (bound : (world.table table).lookup other = some (target.binding true)) :
    target.IsSame world.store (resolver name table world).2.store
  outside (name : String) (world : World) {binding : Binding} {cell : Cell}
    (unbound : (world.table table).lookup name = none)
    (bound : ((resolver name table world).2.table table).lookup name = some binding)
    (holds : binding.cell? = some cell) : cell.IsInUse start ∨ world.Shares table cell ∨ ¬cell.IsInUse world.store

/-- Whether the resolver of the environment is confined, if there is one. -/
def Environment.IsConfined (environment : Environment) (start : Store) : Prop :=
  ∀ resolver, environment.resolver = some resolver → resolver.IsConfined environment.table start

theorem Resolver.IsConfined.leads {resolver : Resolver} {table : TableHandle} {start : Store}
    (confined : resolver.IsConfined table start) {name : String} {world : World} (sound : world.IsSound table)
    (unbound : (world.table table).lookup name = none) :
    world.Leads table start (resolver name table world).2 where
  grown := confined.lawful.preserves name world
  sound := confined.lawful.sound name world sound
  keeps other binding bound := by
    refine ⟨?_, .of_constants (sound other binding bound) (confined.lawful.preserves name world) ?_⟩
    · rw [confined.onlyAsked name world other, bound]
      rintro rfl
      rw [unbound] at bound
      cases bound
    · rintro target rfl
      exact confined.constants name world bound
  isPrivate hidden := by
    refine ⟨hidden.unused, hidden.inUse.extend (confined.lawful.preserves name world), fun {other _} bound holds => ?_⟩
    by_cases asked : other = name
    · subst asked
      rcases confined.outside _ world unbound bound holds with inUse | ⟨another, shared, found, same⟩ | fresh
      · exact hidden.unused inUse
      · exact hidden.unbound found same
      · exact fresh hidden.inUse
    · rw [confined.onlyAsked name world other asked] at bound
      exact hidden.unbound bound holds

/-! ## Runs -/

namespace Progress

variable {environment : Environment} {start : Store} {before after : Progress} {usage : Usage} {cells : List Cell}
  {name : String}

theorem lookup_of_unknown (unknown : before.binding? environment name = none) :
    before.locals.lookup name = none ∧ (before.world.table environment.table).lookup name = none := by
  unfold binding? at unknown
  split at unknown
  · cases unknown
  · exact ⟨‹_›, unknown⟩

theorem leads_declare (start : Store) (sound : before.world.IsSound environment.table) (name : String)
    (content : Value) : before.world.Leads environment.table start (before.declare name content).world :=
  .of_grows sound (Store.grows_allocate _ content)

section Confined

variable (confined : environment.IsConfined start)

include confined

theorem Supplies.leads (supplies : before.Supplies environment name after)
    (sound : before.world.IsSound environment.table) (unknown : before.binding? environment name = none) :
    before.world.Leads environment.table start after.world := by
  have unbound := (lookup_of_unknown unknown).2
  cases supplies with
  | found installed => exact (confined _ installed).leads sound unbound
  | created installed created =>
    have asked := (confined _ installed).leads sound unbound
    exact asked.trans (.of_createScalar asked.sound created)

theorem Runs.leads (runs : Runs environment before usage cells after)
    (sound : before.world.IsSound environment.table) :
    before.world.Leads environment.table start after.world := by
  induction runs with
  | done => exact .refl sound
  | known _ _ induction => exact induction sound
  | supplied unknown supplies _ induction =>
    have here := supplies.leads confined sound unknown
    exact here.trans (induction here.sound)
  | @declared _ _ _ name _ _ _ _ _ _ content _ inner induction =>
    have here := inner sound
    have declares := leads_declare start here.sound name content
    exact here.trans (declares.trans (induction declares.sound))

theorem Runs.isFresh (runs : Runs environment before usage cells after)
    (sound : before.world.IsSound environment.table) {cell : Cell} (declared : cell ∈ cells) :
    ¬cell.IsInUse before.world.store ∧ cell.IsInUse after.world.store := by
  induction runs with
  | done => cases declared
  | known _ _ induction => exact induction sound declared
  | supplied unknown supplies _ induction =>
    have here := supplies.leads confined sound unknown
    have fresh := induction here.sound declared
    exact ⟨fun inUse => fresh.1 (inUse.extend here.grown), fresh.2⟩
  | @declared _ _ _ name _ _ _ _ _ initialized content others inner induction =>
    have here := initialized.leads confined sound
    have declares := leads_declare start here.sound name content
    have behind := others.leads confined declares.sound
    rcases List.mem_append.mp declared with declared | declared
    · have fresh := inner sound declared
      exact ⟨fresh.1, fresh.2.extend (declares.grown.trans behind.grown)⟩
    · rcases List.mem_cons.mp declared with rfl | declared
      · exact ⟨fun inUse => Store.not_isInUse_allocate _ content (inUse.extend here.grown),
          (Store.isInUse_allocate _ content).extend behind.grown⟩
      · have fresh := induction declares.sound declared
        exact ⟨fun inUse => fresh.1 (inUse.extend (here.grown.trans declares.grown)), fresh.2⟩

/-- No two declared variables share a cell. -/
theorem Runs.nodup (runs : Runs environment before usage cells after)
    (sound : before.world.IsSound environment.table) : cells.Nodup := by
  induction runs with
  | done => exact .nil
  | known _ _ induction => exact induction sound
  | supplied unknown supplies _ induction => exact induction (supplies.leads confined sound unknown).sound
  | @declared _ middle _ name _ _ inner cells _ initialized content others first second =>
    have here := initialized.leads confined sound
    have declares := leads_declare start here.sound name content
    have unused {cell : Cell} (later : cell ∈ cells) : ¬cell.IsInUse (middle.declare name content).world.store :=
      (others.isFresh confined declares.sound later).1
    refine List.nodup_append.mpr ⟨first sound, List.nodup_cons.mpr ⟨fun later => ?_, second declares.sound⟩, ?_⟩
    · exact unused later (Store.isInUse_allocate _ content)
    · rintro cell earlier _ other rfl
      have inUse := (initialized.isFresh confined sound earlier).2
      rcases List.mem_cons.mp other with rfl | later
      · exact Store.not_isInUse_allocate _ content inUse
      · exact unused later (inUse.extend declares.grown)

theorem Runs.isPrivate (runs : Runs environment before usage cells after)
    (sound : before.world.IsSound environment.table) (grown : start.Extends before.world.store) {cell : Cell}
    (declared : cell ∈ cells) : cell.IsPrivate environment.table start after.world := by
  induction runs with
  | done => cases declared
  | known _ _ induction => exact induction sound grown declared
  | supplied unknown supplies _ induction =>
    have here := supplies.leads confined sound unknown
    exact induction here.sound (grown.trans here.grown) declared
  | @declared _ middle _ name _ _ _ _ _ initialized content others inner induction =>
    have here := initialized.leads confined sound
    have declares := leads_declare start here.sound name content
    have behind := others.leads confined declares.sound
    rcases List.mem_append.mp declared with declared | declared
    · exact behind.isPrivate (declares.isPrivate (inner sound grown declared))
    · rcases List.mem_cons.mp declared with rfl | declared
      · have unused := Store.not_isInUse_allocate middle.world.store content
        refine behind.isPrivate ⟨fun inUse => unused (inUse.extend (grown.trans here.grown)),
          Store.isInUse_allocate _ content, fun {name binding} bound holds => unused ?_⟩
        exact Binding.isInUse_of_cell? holds (here.sound name binding bound)
      · exact induction declares.sound (grown.trans (here.grown.trans declares.grown)) declared

end Confined

end Progress

end LiveExpr
