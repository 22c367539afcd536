import LiveExpr.Proofs.Compile.Naming
import LiveExpr.Proofs.Compile.Results
import LiveExpr.Proofs.Grammar.Proper

/-!
Which trees come to the bare variable of a vector: names that stand for the vector, and what only wraps such a name.
Everything else makes a node of its own.
-/

namespace LiveExpr

def AnyNode.IsVectorVariable (node : AnyNode) (cell : VectorCell) : Prop :=
  node = AnyNode.vector (.vectorVariable cell)

def AnyNode.IsOwn (node : AnyNode) : Prop :=
  ∀ cell, ¬node.IsVectorVariable cell

namespace Compile

variable {environment : Environment}

abbrev MakesOwn (computation : Compile AnyNode) : Prop :=
  computation.Makes AnyNode.IsOwn

/-- Whether a computation that finds no problem comes to the variable of a vector only where a name stands for it. -/
def Names (environment : Environment) (computation : Compile AnyNode) : Prop :=
  ∀ ⦃before : Progress⦄ ⦃node : AnyNode⦄ ⦃after : Progress⦄, computation before = (.ok node, after) → after.IsClear →
    ∀ cell, node.IsVectorVariable cell → ∃ name, after.binding? environment name = some (.vector cell)

theorem MakesOwn.names {computation : Compile AnyNode} (makes : MakesOwn computation) : Names environment computation :=
  fun _ _ _ done _ cell isVariable => absurd isVariable (makes _ _ _ done cell)

theorem scalar_own (settings : Settings) (node : Node .scalar) : MakesOwn (scalar settings node) :=
  .view fun _ => nofun

theorem string_own (settings : Settings) (node : Node .string) : MakesOwn (string settings node) :=
  .view fun _ => nofun

theorem failed_own (problem : Problem) (place : Place) : MakesOwn (failed problem place) :=
  failed_makes nofun problem place

variable (settings : Settings)

/-! ## Operations -/

theorem negation_own (sign : Lexeme) (node : AnyNode) : MakesOwn (negation settings sign node) := by
  rcases node with ⟨_ | _ | _, node⟩
  · exact scalar_own settings _
  · exact failed_own _ _
  · exact .pure nofun

theorem arithmetic_own (op : BinaryOperator) (sign : Lexeme) (left right : AnyNode) :
    MakesOwn (arithmetic settings op sign left right) := by
  have elements (left right : Operand) (cell : VectorCell) :
      ¬(AnyNode.vector (.elementOperation op left right)).IsVectorVariable cell := by
    unfold Node.elementOperation
    split <;>
      · intro same
        cases same
  rcases left with ⟨_ | _ | _, left⟩ <;> rcases right with ⟨_ | _ | _, right⟩
  case scalar.scalar => exact scalar_own settings _
  case string.string =>
    unfold arithmetic
    dsimp only
    split
    · exact string_own settings _
    · exact failed_own _ _
  case vector.vector | vector.scalar | scalar.vector => exact .pure (elements _ _)
  all_goals exact failed_own _ _

theorem logical_own (op : BinaryOperator) (leftStart : Place) (left : AnyNode) (rightStart : Place)
    (right : AnyNode) : MakesOwn (logical settings op leftStart left rightStart right) :=
  .later _ fun _ => .later _ fun _ => scalar_own settings _

theorem relation_own (sign : Lexeme) (left right : AnyNode) : MakesOwn (relation settings sign left right) := by
  unfold relation
  split
  · unfold stringTest
    split
    · exact scalar_own settings _
    · exact failed_own _ _
  · unfold comparison
    split
    · exact scalar_own settings _
    · exact scalar_own settings _
    · exact failed_own _ _
  · exact .pure nofun

theorem conditional_own (condition : Node .scalar) (branch : Place) (consequent alternative : AnyNode) :
    MakesOwn (conditional settings condition branch consequent alternative) := by
  unfold conditional
  split
  · exact scalar_own settings _
  · exact string_own settings _
  all_goals exact failed_own _ _

theorem conditionalOnly_own (condition : Node .scalar) (branch : Place) (consequent : AnyNode) :
    MakesOwn (conditionalOnly settings condition branch consequent) := by
  unfold conditionalOnly
  split
  · exact scalar_own settings _
  · exact string_own settings _
  · exact failed_own _ _

theorem size_own (bracket : Lexeme) (base : AnyNode) : MakesOwn (size settings bracket base) := by
  unfold size
  split
  · exact scalar_own settings _
  · exact scalar_own settings _
  · exact failed_own _ _

theorem element_own (bracket : Lexeme) (base : AnyNode) (start : Place) (index : AnyNode) :
    MakesOwn (element bracket base start index) := by
  refine .later _ fun index => ?_
  split
  · exact .pure nofun
  · exact failed_own _ _

theorem range_own (bracket : Lexeme) (base : AnyNode) (firstStart : Place) (first : AnyNode) (lastStart : Place)
    (last : AnyNode) : MakesOwn (range settings bracket base firstStart first lastStart last) := by
  refine .later _ fun first => .later _ fun last => ?_
  split
  · exact string_own settings _
  · exact .later _ fun _ => .pure nofun

/-! ## Calls and assignments -/

theorem builtinCall_own (word : Lexeme) (function : Builtin) (arguments : List (Place × AnyNode)) :
    MakesOwn (builtinCall settings word function arguments) := by
  unfold builtinCall
  split
  · split
    · exact .pure nofun
    · exact .pure nofun
    all_goals exact failed_own _ _
  · exact .later _ fun _ => scalar_own settings _

theorem call_own (word : Lexeme) (arguments : List (Place × AnyNode)) (rest : List Lexeme) :
    MakesOwn (Compile.call environment word arguments rest) := by
  unfold Compile.call
  dsimp only
  split
  · split
    · exact builtinCall_own _ word _ arguments
    · exact .halt _ _ rest
  · refine .later _ fun known => ?_
    split
    · split
      · exact .later _ fun _ => .pure nofun
      · exact .halt _ _ rest
    · exact failed_own _ _
    · refine .later _ fun _ => ?_
      split
      · exact .pure nofun
      · exact .later _ fun _ => .pure nofun

theorem assignment_own (word sign : Lexeme) (target : Option Binding) (start : Place) (value : AnyNode) :
    MakesOwn (assignment word sign target start value) := by
  unfold assignment
  dsimp only
  split
  case h_4 => exact .later _ fun _ => .pure nofun
  case h_5 =>
    split
    · exact failed_own _ _
    · exact .later _ fun _ => .pure nofun
  case h_6 => split <;> first | exact .pure nofun | exact failed_own _ _
  all_goals first | exact .pure nofun | exact failed_own _ _

theorem elementAssignment_own (word sign : Lexeme) (target : Option Binding) (start : Place)
    (index value : AnyNode) : MakesOwn (elementAssignment word sign target start index value) := by
  unfold elementAssignment
  split
  · exact .pure nofun
  · exact .later _ fun _ => .later _ fun _ => .pure nofun
  · exact failed_own _ _

theorem declaration_own (allowed : Bool) (word : Lexeme) (start : Place) (value : AnyNode) :
    MakesOwn (declaration allowed word start value) := by
  unfold declaration
  split
  · exact .later _ fun _ => .later _ fun _ => .pure nofun
  · exact .later _ fun _ => .later _ fun _ => .pure nofun
  · exact failed_own _ _

theorem listedVector_own (allowed : Bool) (word : Lexeme) (size : Nat) (bracket : Lexeme)
    (elements : List (Node .scalar)) : MakesOwn (listedVector allowed word size bracket elements) := by
  unfold listedVector
  dsimp only
  split
  · exact .later _ fun _ => .later _ fun _ => .later _ fun _ => .pure nofun
  · exact .later _ fun _ => .later _ fun _ => .pure nofun

theorem filledVector_own (allowed : Bool) (word : Lexeme) (size : Nat) (start : Place) (value : AnyNode) :
    MakesOwn (filledVector allowed word size start value) := by
  intro before node after done cell
  obtain ⟨target, middle, -, done⟩ := bind_eq_ok done
  obtain ⟨filled, last, filling, done⟩ := bind_eq_ok done
  obtain ⟨⟨⟩, final, -, done⟩ := bind_eq_ok done
  cases done
  rcases value with ⟨_ | _ | _, value⟩ <;> cases filling <;> nofun

/-! ## Trees -/

/-- A run of operators that is not empty ends with an operation. -/
theorem compileArithmetic_own (left : AnyNode) (step : (BinaryOperator × Lexeme) × Tree)
    (rest : List ((BinaryOperator × Lexeme) × Tree)) :
    MakesOwn (compileArithmetic environment left (step :: rest)) := by
  induction rest generalizing left step with
  | nil =>
    refine .later _ fun right => ?_
    exact (arithmetic_own _ _ _ left right).bind fun value own => .pure own
  | cons next rest induction => exact .later _ fun right => .later _ fun value => induction value next

theorem compileLogical_own (start : Place) (left : AnyNode) (step : (BinaryOperator × Place) × Tree)
    (rest : List ((BinaryOperator × Place) × Tree)) :
    MakesOwn (compileLogical environment start left (step :: rest)) := by
  induction rest generalizing left step with
  | nil =>
    refine .later _ fun right => ?_
    exact (logical_own _ _ _ left _ right).bind fun value own => .pure own
  | cons next rest induction => exact .later _ fun right => .later _ fun value => induction value next

theorem reference_names (word : Lexeme) (rest : List Lexeme) :
    Names environment (do
      let binding ← resolve environment word
      reference environment.settings word rest binding) := by
  intro before node after done clear cell isVariable
  obtain ⟨found, middle, resolved, done⟩ := bind_eq_ok done
  match found with
  | none | some (.scalar _ _) | some (.string _ _) =>
    cases done
    cases isVariable
  | some (.vector vector) =>
    cases done
    cases isVariable
    obtain ⟨-, binding, same, bound, -⟩ := resolve_eq_ok resolved clear
    cases same
    exact ⟨word.text, bound⟩
  | some (.function _) => cases done

/-- What a computation comes to may be wrapped. -/
theorem Names.wrapped {first : Compile AnyNode} (names : Names environment first) :
    Names environment (first >>= fun node => Pure.pure node) := by
  intro before node after done
  obtain ⟨found, middle, made, done⟩ := bind_eq_ok done
  cases done
  exact names made

theorem affirmation_names (sign : Lexeme) {first : Compile AnyNode} (names : Names environment first) :
    Names environment (first >>= affirmation sign) := by
  intro before node after done clear
  obtain ⟨inner, middle, made, done⟩ := bind_eq_ok done
  rcases inner with ⟨_ | _ | _, inner⟩
  · cases done
    exact names made clear
  · cases done
    cases clear.reports
  · cases done
    exact names made clear

theorem sequence_names (statements : List AnyNode) {last : Compile AnyNode} (names : Names environment last) :
    Names environment (last >>= fun result => Pure.pure (AnyNode.sequence statements result)) := by
  intro before node after done clear cell isVariable
  obtain ⟨result, middle, made, done⟩ := bind_eq_ok done
  cases done
  cases statements with
  | nil => exact names made clear cell isVariable
  | cons =>
    obtain ⟨k, result⟩ := result
    cases isVariable

/-- A tree comes to the variable of a vector only where a name stands for it. -/
theorem compile_names {source : List Lexeme} {tree : Tree} (proper : tree.Proper source) :
    Names environment (tree.compile environment) := by
  induction proper with
  | number value => exact MakesOwn.names (.pure nofun)
  | text =>
    rw [Tree.compile]
    exact MakesOwn.names (.pure nofun)
  | name word rest => exact reference_names word rest
  | call word rest => exact MakesOwn.names (.later _ fun nodes => call_own word nodes rest)
  | negation sign => exact MakesOwn.names (.later _ fun node => negation_own _ sign node)
  | affirmation sign _ operand => exact affirmation_names sign operand
  | denial => exact MakesOwn.names (.later _ fun _ => .later _ fun _ => scalar_own _ _)
  | @arithmetic _ rest _ _ _ first =>
    cases rest with
    | nil => exact first.wrapped
    | cons step rest => exact MakesOwn.names (.later _ fun left => compileArithmetic_own left step rest)
  | @logical start _ rest _ _ first =>
    cases rest with
    | nil => exact first.wrapped
    | cons step rest => exact MakesOwn.names (.later _ fun left => compileLogical_own start left step rest)
  | relation => exact MakesOwn.names (.later _ fun left => .later _ fun right => relation_own _ _ left right)
  | conditional =>
    refine MakesOwn.names (.later _ fun _ => .later _ fun condition => .later _ fun one => .later _ fun other => ?_)
    exact conditional_own _ condition _ one other
  | conditionalOnly =>
    refine MakesOwn.names (.later _ fun _ => .later _ fun condition => .later _ fun one => ?_)
    exact conditionalOnly_own _ condition _ one
  | size bracket => exact MakesOwn.names (.later _ fun base => size_own _ bracket base)
  | element bracket start =>
    exact MakesOwn.names (.later _ fun base => .later _ fun index => element_own bracket base start index)
  | range bracket =>
    refine MakesOwn.names (.later _ fun base => .later _ fun one => .later _ fun other => ?_)
    exact range_own _ bracket base _ one _ other
  | block _ _ _ result =>
    intro before node after done
    obtain ⟨statements, middle, -, done⟩ := bind_eq_ok done
    exact sequence_names statements result done
  | loop =>
    refine MakesOwn.names (.later _ fun _ => .later _ fun _ => .later _ fun _ => ?_)
    exact .later _ fun _ => .later _ fun _ => .pure nofun
  | choice => exact MakesOwn.names (.later _ fun _ => .later _ fun _ => .later _ fun _ => .pure nofun)
  | assignment word sign start =>
    exact MakesOwn.names (.later _ fun target => .later _ fun value => assignment_own word sign target start value)
  | elementAssignment word start sign =>
    refine MakesOwn.names (.later _ fun target => .later _ fun index => .later _ fun value => ?_)
    exact elementAssignment_own word sign target start index value
  | declaration word start =>
    exact MakesOwn.names (.later _ fun allowed => .later _ fun value => declaration_own allowed word start value)
  | listedVector word size bracket =>
    refine MakesOwn.names (.later _ fun allowed => .later _ fun nodes => ?_)
    exact listedVector_own allowed word size bracket nodes
  | filledVector word size start =>
    exact MakesOwn.names (.later _ fun allowed => .later _ fun value => filledVector_own allowed word size start value)
  | @stop report _ rest => exact MakesOwn.names (.halt report.problem report.place rest)
  | andThen _ _ _ stopped =>
    intro before node after done
    obtain ⟨_, middle, -, done⟩ := bind_eq_ok done
    exact stopped done

end Compile

end LiveExpr
