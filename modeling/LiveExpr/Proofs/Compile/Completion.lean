import LiveExpr.Compile.Program
import LiveExpr.Proofs.Compile.Plain
import LiveExpr.Proofs.Symbol.Table

/-!
Compilations that come to an end. Apart from the reading that stopped in a tree, only a call with the wrong number of
arguments or a function without a call halts; problems with symbols and kinds are recorded, and compilation goes on.
-/

namespace LiveExpr

/-- What a compilation that does not halt may do to its state, as far as the grammar goes: the tables stay, no
declared variable is a function, and no problem with the grammar is recorded. -/
structure Progress.Onward (before after : Progress) : Prop where
  tables : after.world.tables = before.world.tables
  locals {name : String} {function : FunctionHandle}
    (bound : after.locals.lookup name = some (.function function)) :
    before.locals.lookup name = some (.function function)
  reports {report : Report} (reported : report ∈ after.reports) :
    report ∈ before.reports ∨ report.problem.phase ≠ .grammatical

namespace Progress.Onward

theorem refl (progress : Progress) : progress.Onward progress :=
  ⟨rfl, id, .inl⟩

theorem trans {before middle after : Progress} (first : before.Onward middle) (second : middle.Onward after) :
    before.Onward after where
  tables := second.tables.trans first.tables
  locals bound := first.locals (second.locals bound)
  reports reported := by
    rcases second.reports reported with reported | other
    · exact first.reports reported
    · exact .inr other

end Progress.Onward

theorem Progress.Quiet.onward {before after : Progress} (quiet : before.Quiet after) : before.Onward after := by
  obtain ⟨found, sameReports, kinds⟩ := quiet.reports
  refine ⟨quiet.tables, fun {name function} bound => ?_, fun {report} reported => ?_⟩
  · rwa [quiet.locals] at bound
  · rw [sameReports] at reported
    rcases List.mem_append.mp reported with new | old
    · exact .inr (by rw [kinds report new]; decide)
    · exact .inl old

namespace Compile

variable {world : World} {α β : Type}

/-- Whether a computation, from every state of a compilation in the world that has come so far, comes to a value
with a property. -/
def Completes (world : World) (property : α → Prop) (computation : Compile α) : Prop :=
  ∀ before, (Progress.start world).Onward before →
    ∃ value after, computation before = (.ok value, after) ∧ before.Onward after ∧ property value

/-- Whether a computation comes to a value, whichever it is. -/
abbrev Proceeds (world : World) (computation : Compile α) : Prop :=
  computation.Completes world fun _ => True

namespace Completes

variable {property : α → Prop} {next : β → Prop}

theorem pure {value : α} (holds : property value) : (Pure.pure value : Compile α).Completes world property :=
  fun before _ => ⟨value, before, rfl, .refl before, holds⟩

theorem bind {first : Compile α} {continuation : α → Compile β} (completes : first.Completes world property)
    (continued : ∀ value, property value → (continuation value).Completes world next) :
    (first >>= continuation).Completes world next := by
  intro before onward
  rcases completes before onward with ⟨value, middle, done, forth, holds⟩
  rcases continued value holds middle (onward.trans forth) with ⟨result, after, ended, further, holds⟩
  refine ⟨result, after, ?_, forth.trans further, holds⟩
  rw [bind_of_ok done, ended]

theorem view (look : Progress → α) : (Compile.view look).Proceeds world :=
  fun before _ => ⟨look before, before, rfl, .refl before, trivial⟩

theorem reportName (name : String) {problem : Problem} (other : (problem.phase == .grammatical) = false)
    (place : Place) : (Compile.reportName name problem place).Proceeds world := by
  intro before _
  refine ⟨(), _, rfl, ⟨rfl, id, fun reported => ?_⟩, trivial⟩
  rcases List.mem_cons.mp reported with rfl | reported
  · exact .inr (ne_of_beq_false other)
  · exact .inl reported

end Completes

theorem Plain.proceeds {computation : Compile α} (plain : computation.Plain) : computation.Proceeds world := by
  intro before _
  obtain ⟨value, after, done, quiet⟩ := plain before
  exact ⟨value, after, done, quiet.onward, trivial⟩

theorem Declares.proceeds {allowed : Bool} {name : String} {computation : Compile α}
    (declares : computation.Declares allowed name) : computation.Proceeds world := by
  intro before _
  obtain ⟨value, middle, after, done, quiet, ⟨-, binding, noFunction, rfl⟩ | ⟨rfl, -⟩⟩ := declares before
  · refine ⟨value, _, done, quiet.onward.trans ⟨rfl, fun bound => ?_, .inl⟩, trivial⟩
    rcases NameMap.lookup_insert_cases bound with ⟨-, same⟩ | bound
    · exact absurd same.symm (noFunction _)
    · exact bound
  · exact ⟨value, _, done, quiet.onward, trivial⟩

/-! ## Names -/

variable {environment : Environment}

def FunctionsOf (environment : Environment) (world : World) (name : String) (found : Option Binding) : Prop :=
  ∀ function, found = some (.function function) →
    (world.table environment.table).lookup name = some (.function function)

theorem known?_completes (name : String) :
    (known? environment name).Completes world (FunctionsOf environment world name) := by
  intro before onward
  refine ⟨_, before, rfl, .refl before, fun function found => ?_⟩
  have tables : before.world.table environment.table = world.table environment.table :=
    congrArg (·.get environment.table.index) onward.tables
  dsimp only at found
  split at found
  · next binding bound =>
    cases found
    cases onward.locals bound
  · rw [tables] at found
    exact found

theorem resolve_completes (unaided : environment.resolver = none) (word : Lexeme) :
    (resolve environment word).Completes world (FunctionsOf environment world word.text) := by
  refine (known?_completes word.text).bind fun found known => ?_
  cases found with
  | some binding => exact .pure known
  | none =>
    refine (Completes.view _).bind fun reported _ => ?_
    split
    · exact .pure nofun
    · rw [unaided]
      exact (Completes.reportName _ rfl _).bind fun _ _ => .pure nofun

/-! ## Calls -/

/-- Whether a function may be called with so many arguments: the built-in one of this name or else the one that the
table binds the name to. -/
def Accepts (environment : Environment) (world : World) (word : Lexeme) (count : Nat) : Prop :=
  match Builtin.find? word.text with
  | some function => function.arity.accepts count = true
  | none => ∀ function, (world.table environment.table).lookup word.text = some (.function function) →
    count = function.arity

theorem call_proceeds {word : Lexeme} {arguments : List (Place × AnyNode)}
    (accepts : Accepts environment world word arguments.length) (rest : List Lexeme) :
    (call environment word arguments rest).Proceeds world := by
  unfold Accepts at accepts
  unfold call
  dsimp only
  split
  · next function found =>
    rw [found] at accepts
    rw [if_pos accepts]
    exact (builtinCall_plain _ word function arguments).proceeds
  · next unfound =>
    rw [unfound] at accepts
    refine (known?_completes word.text).bind fun found known => ?_
    split
    · next function =>
      rw [if_pos (accepts function (known function rfl))]
      exact (userCall_plain function arguments).proceeds
    · exact (failed_plain rfl _).proceeds
    · refine (Completes.view _).bind fun reported _ => ?_
      split
      · exact .pure trivial
      · exact (Completes.reportName _ rfl _).bind fun _ _ => .pure trivial

end Compile

/-! ## Trees -/

/-- Whether compiling the tree comes to a node, and whatever it records is no problem with the grammar. -/
def Tree.Proceeds (environment : Environment) (world : World) (tree : Tree) : Prop :=
  (tree.compile environment).Proceeds world

namespace Tree.Proceeds

open Compile

variable {environment : Environment} {world : World}

theorem number (value : Float) : (Tree.number value).Proceeds environment world :=
  .pure trivial

theorem text (content : Bytes) : (Tree.text content).Proceeds environment world :=
  .pure trivial

theorem name (unaided : environment.resolver = none) {word : Lexeme}
    (value : ∀ function, (world.table environment.table).lookup word.text ≠ some (.function function))
    (rest : List Lexeme) : (Tree.name word rest).Proceeds environment world := by
  unfold Proceeds
  rw [Tree.compile]
  refine (resolve_completes unaided word).bind fun found known => ?_
  exact (reference_plain _ word rest fun function same => value function (known function same)).proceeds

theorem call {word : Lexeme} {arguments : List (Place × Tree)}
    (accepts : Accepts environment world word arguments.length)
    (proceed : ∀ one ∈ arguments, one.2.Proceeds environment world) (rest : List Lexeme) :
    (Tree.call word arguments rest).Proceeds environment world := by
  have placed : (compilePlaced environment arguments).Completes world
      fun nodes => nodes.length = arguments.length := by
    clear accepts
    induction arguments with
    | nil => exact .pure rfl
    | cons first others induction =>
      rw [List.forall_mem_cons] at proceed
      rw [compilePlaced]
      refine Completes.bind proceed.1 fun node _ => ?_
      exact (induction proceed.2).bind fun nodes counted => .pure (congrArg (· + 1) counted)
  unfold Proceeds
  rw [Tree.compile]
  refine placed.bind fun nodes counted => ?_
  rw [← counted] at accepts
  exact call_proceeds accepts rest

/-! ### Operators -/

theorem negation (sign : Lexeme) {operand : Tree} (proceeds : operand.Proceeds environment world) :
    (Tree.negation sign operand).Proceeds environment world := by
  unfold Proceeds
  rw [Tree.compile]
  exact Completes.bind proceeds fun node _ => (negation_plain _ sign node).proceeds

theorem affirmation (sign : Lexeme) {operand : Tree} (proceeds : operand.Proceeds environment world) :
    (Tree.affirmation sign operand).Proceeds environment world := by
  unfold Proceeds
  rw [Tree.compile]
  exact Completes.bind proceeds fun node _ => (affirmation_plain sign node).proceeds

theorem denial (start : Place) {operand : Tree} (proceeds : operand.Proceeds environment world) :
    (Tree.denial start operand).Proceeds environment world := by
  unfold Proceeds
  rw [Tree.compile]
  exact Completes.bind proceeds fun node _ => (denial_plain _ start node).proceeds

theorem arithmetic {first : Tree} (leftmost : first.Proceeds environment world)
    {run : List ((BinaryOperator × Lexeme) × Tree)} (proceed : ∀ step ∈ run, step.2.Proceeds environment world) :
    (Tree.arithmetic first run).Proceeds environment world := by
  have steps (left : AnyNode) : (compileArithmetic environment left run).Proceeds world := by
    induction run generalizing left with
    | nil => exact .pure trivial
    | cons step rest induction =>
      rw [List.forall_mem_cons] at proceed
      rw [compileArithmetic]
      refine Completes.bind proceed.1 fun right _ => ?_
      exact (arithmetic_plain _ _ _ left right).proceeds.bind fun node _ => induction proceed.2 node
  unfold Proceeds
  rw [Tree.compile]
  exact Completes.bind leftmost fun node _ => steps node

theorem logical (start : Place) {first : Tree} (leftmost : first.Proceeds environment world)
    {run : List ((BinaryOperator × Place) × Tree)} (proceed : ∀ step ∈ run, step.2.Proceeds environment world) :
    (Tree.logical start first run).Proceeds environment world := by
  have steps (left : AnyNode) : (compileLogical environment start left run).Proceeds world := by
    induction run generalizing left with
    | nil => exact .pure trivial
    | cons step rest induction =>
      rw [List.forall_mem_cons] at proceed
      rw [compileLogical]
      refine Completes.bind proceed.1 fun right _ => ?_
      exact (logical_plain _ _ _ left _ right).proceeds.bind fun node _ => induction proceed.2 node
  unfold Proceeds
  rw [Tree.compile]
  exact Completes.bind leftmost fun node _ => steps node

theorem relation (sign : Lexeme) {left right : Tree} (first : left.Proceeds environment world)
    (second : right.Proceeds environment world) : (Tree.relation sign left right).Proceeds environment world := by
  unfold Proceeds
  rw [Tree.compile]
  refine Completes.bind first fun left _ => ?_
  exact Completes.bind second fun right _ => (relation_plain _ sign left right).proceeds

/-! ### Conditionals, loops and choices -/

theorem conditional (start : Place) {condition : Tree} (branch : Place) {consequent alternative : Tree}
    (asked : condition.Proceeds environment world) (first : consequent.Proceeds environment world)
    (second : alternative.Proceeds environment world) :
    (Tree.conditional start condition branch consequent alternative).Proceeds environment world := by
  unfold Proceeds
  rw [Tree.compile]
  refine Completes.bind asked fun node _ => ?_
  refine (requireScalar_plain _ start node).proceeds.bind fun condition _ => ?_
  refine Completes.bind first fun consequent _ => ?_
  refine Completes.bind second fun alternative _ => ?_
  exact (conditional_plain _ condition branch consequent alternative).proceeds

theorem conditionalOnly (start : Place) {condition : Tree} (branch : Place) {consequent : Tree}
    (asked : condition.Proceeds environment world) (first : consequent.Proceeds environment world) :
    (Tree.conditionalOnly start condition branch consequent).Proceeds environment world := by
  unfold Proceeds
  rw [Tree.compile]
  refine Completes.bind asked fun node _ => ?_
  refine (requireScalar_plain _ start node).proceeds.bind fun condition _ => ?_
  exact Completes.bind first fun consequent _ => (conditionalOnly_plain _ condition branch consequent).proceeds

theorem loop {initializer : Tree} (start : Place) {condition step body : Tree}
    (initialized : initializer.Proceeds environment world) (asked : condition.Proceeds environment world)
    (stepped : step.Proceeds environment world) (governed : body.Proceeds environment world) :
    (Tree.loop initializer start condition step body).Proceeds environment world := by
  unfold Proceeds
  rw [Tree.compile]
  refine Completes.bind initialized fun _ _ => ?_
  refine Completes.bind asked fun node _ => ?_
  refine (requireScalar_plain _ start node).proceeds.bind fun _ _ => ?_
  refine Completes.bind stepped fun _ _ => ?_
  exact Completes.bind governed fun _ _ => .pure trivial

theorem choice {cases : List ((Place × Tree) × (Place × Tree))}
    (proceed : ∀ one ∈ cases, one.1.2.Proceeds environment world ∧ one.2.2.Proceeds environment world)
    (start : Place) {otherwise : Tree} (last : otherwise.Proceeds environment world) :
    (Tree.choice cases start otherwise).Proceeds environment world := by
  have tested : (compileCases environment cases).Proceeds world := by
    induction cases with
    | nil => exact .pure trivial
    | cons one others induction =>
      rw [List.forall_mem_cons] at proceed
      rw [compileCases]
      refine Completes.bind proceed.1.1 fun node _ => ?_
      refine (requireScalar_plain _ one.1.1 node).proceeds.bind fun _ _ => ?_
      refine Completes.bind proceed.1.2 fun node _ => ?_
      refine (requireScalar_plain _ one.2.1 node).proceeds.bind fun _ _ => ?_
      exact (induction proceed.2).bind fun _ _ => .pure trivial
  unfold Proceeds
  rw [Tree.compile]
  refine tested.bind fun _ _ => ?_
  refine Completes.bind last fun node _ => ?_
  exact (requireScalar_plain _ start node).proceeds.bind fun _ _ => .pure trivial

theorem block {statements : List Tree} (proceed : ∀ one ∈ statements, one.Proceeds environment world)
    {result : Tree} (last : result.Proceeds environment world) :
    (Tree.block statements result).Proceeds environment world := by
  have effects : (compileStatements environment statements).Proceeds world := by
    induction statements with
    | nil => exact .pure trivial
    | cons one others induction =>
      rw [List.forall_mem_cons] at proceed
      rw [compileStatements]
      exact Completes.bind proceed.1 fun _ _ => (induction proceed.2).bind fun _ _ => .pure trivial
  unfold Proceeds
  rw [Tree.compile]
  refine effects.bind fun _ _ => ?_
  exact Completes.bind last fun _ _ => .pure trivial

/-! ### Subscripts -/

theorem size (bracket : Lexeme) {base : Tree} (proceeds : base.Proceeds environment world) :
    (Tree.size bracket base).Proceeds environment world := by
  unfold Proceeds
  rw [Tree.compile]
  exact Completes.bind proceeds fun node _ => (size_plain _ bracket node).proceeds

theorem element (bracket : Lexeme) {base : Tree} (start : Place) {index : Tree}
    (source : base.Proceeds environment world) (place : index.Proceeds environment world) :
    (Tree.element bracket base start index).Proceeds environment world := by
  unfold Proceeds
  rw [Tree.compile]
  refine Completes.bind source fun base _ => ?_
  exact Completes.bind place fun index _ => (element_plain bracket base start index).proceeds

theorem range (bracket : Lexeme) {base : Tree} (firstStart : Place) {first : Tree} (lastStart : Place)
    {last : Tree} (source : base.Proceeds environment world) (lower : first.Proceeds environment world)
    (upper : last.Proceeds environment world) :
    (Tree.range bracket base firstStart first lastStart last).Proceeds environment world := by
  unfold Proceeds
  rw [Tree.compile]
  refine Completes.bind source fun base _ => ?_
  refine Completes.bind lower fun first _ => ?_
  exact Completes.bind upper fun last _ => (range_plain _ bracket base firstStart first lastStart last).proceeds

/-! ### Assignments and declarations -/

theorem assignment (unaided : environment.resolver = none) (word sign : Lexeme) (start : Place) {value : Tree}
    (proceeds : value.Proceeds environment world) :
    (Tree.assignment word sign start value).Proceeds environment world := by
  unfold Proceeds
  rw [Tree.compile]
  refine (resolve_completes unaided word).bind fun target _ => ?_
  exact Completes.bind proceeds fun value _ => (assignment_plain word sign target start value).proceeds

theorem elementAssignment (unaided : environment.resolver = none) (word : Lexeme) (start : Place) {index : Tree}
    (sign : Lexeme) {value : Tree} (place : index.Proceeds environment world)
    (proceeds : value.Proceeds environment world) :
    (Tree.elementAssignment word start index sign value).Proceeds environment world := by
  unfold Proceeds
  rw [Tree.compile]
  refine (resolve_completes unaided word).bind fun target _ => ?_
  refine Completes.bind place fun index _ => ?_
  exact Completes.bind proceeds fun value _ => (elementAssignment_plain word sign target start index value).proceeds

theorem declaration (word : Lexeme) (start : Place) {value : Tree} (proceeds : value.Proceeds environment world) :
    (Tree.declaration word start value).Proceeds environment world := by
  unfold Proceeds
  rw [Tree.compile]
  refine (mayDeclare_plain word).proceeds.bind fun allowed _ => ?_
  exact Completes.bind proceeds fun value _ => (declaration_declares allowed word start value).proceeds

theorem listedVector (word : Lexeme) (size : Nat) (bracket : Lexeme) {elements : List (Place × Tree)}
    (proceed : ∀ one ∈ elements, one.2.Proceeds environment world) :
    (Tree.listedVector word size bracket elements).Proceeds environment world := by
  have scalars : (compileElements environment elements).Proceeds world := by
    induction elements with
    | nil => exact .pure trivial
    | cons one others induction =>
      rw [List.forall_mem_cons] at proceed
      rw [compileElements]
      refine Completes.bind proceed.1 fun node _ => ?_
      refine (requireScalar_plain _ one.1 node).proceeds.bind fun _ _ => ?_
      exact (induction proceed.2).bind fun _ _ => .pure trivial
  unfold Proceeds
  rw [Tree.compile]
  refine (mayDeclare_plain word).proceeds.bind fun allowed _ => ?_
  exact scalars.bind fun elements _ => (listedVector_declares allowed word size bracket elements).proceeds

theorem filledVector (word : Lexeme) (size : Nat) (start : Place) {value : Tree}
    (proceeds : value.Proceeds environment world) :
    (Tree.filledVector word size start value).Proceeds environment world := by
  unfold Proceeds
  rw [Tree.compile]
  refine (mayDeclare_plain word).proceeds.bind fun allowed _ => ?_
  exact Completes.bind proceeds fun value _ => (filledVector_declares allowed word size start value).proceeds

end Tree.Proceeds

end LiveExpr
