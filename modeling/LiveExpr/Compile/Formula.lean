import LiveExpr.Compile.Assignment
import LiveExpr.Grammar.Tree

/-!
Compiling trees into node graphs. The parts of a tree are compiled in the order in which they stand in the
formula, so that problems are found, names resolved and variables declared in that order too.
-/

namespace LiveExpr

open Compile

/-- A call of the function that a name stands for, whose arguments are compiled already; `rest` are the
lexemes behind the call. -/
def Compile.call (environment : Environment) (word : Lexeme) (arguments : List (Place × AnyNode))
    (rest : List Lexeme) : Compile AnyNode := do
  let name := word.text
  match Builtin.find? name with
  | some function =>
    if function.arity.accepts arguments.length then
      builtinCall environment.settings word function arguments
    else halt (.wrongArity name function.arity arguments.length) (.lexeme word) rest
  | none =>
    match ← known? environment name with
    | some (.function function) =>
      if arguments.length = function.arity then userCall function arguments
      else halt (.wrongArity name (.exactly function.arity) arguments.length) (.lexeme word) rest
    | some _ => failed (.notFunction name) (.lexeme word)
    | none =>
      unless (← view (·.reported)).contains name do
        reportName name (.undefinedFunction name) (.lexeme word)
      pure placeholder

mutual

/-- Compiles a tree. It halts where reading the tree had stopped, or at a call or reference that does not
fit what its name stands for. -/
def Tree.compile (environment : Environment) : Tree → Compile AnyNode
  | .number value => pure (.scalar (.constant value))
  | .text content => pure (.string (.literal content))
  | .name word rest => do
    let binding ← resolve environment word
    reference environment.settings word rest binding
  | .call word arguments rest => do
    let arguments ← compilePlaced environment arguments
    Compile.call environment word arguments rest
  | .negation sign operand => do
    let operand ← operand.compile environment
    Compile.negation environment.settings sign operand
  | .affirmation sign operand => do
    let operand ← operand.compile environment
    Compile.affirmation sign operand
  | .denial start operand => do
    let operand ← operand.compile environment
    Compile.denial environment.settings start operand
  | .arithmetic first rest => do
    let first ← first.compile environment
    compileArithmetic environment first rest
  | .logical start first rest => do
    let first ← first.compile environment
    compileLogical environment start first rest
  | .relation sign left right => do
    let left ← left.compile environment
    let right ← right.compile environment
    Compile.relation environment.settings sign left right
  | .conditional start condition branch consequent alternative => do
    let condition ← condition.compile environment
    let condition ← requireScalar .condition start condition
    let consequent ← consequent.compile environment
    let alternative ← alternative.compile environment
    Compile.conditional environment.settings condition branch consequent alternative
  | .conditionalOnly start condition branch consequent => do
    let condition ← condition.compile environment
    let condition ← requireScalar .condition start condition
    let consequent ← consequent.compile environment
    Compile.conditionalOnly environment.settings condition branch consequent
  | .size bracket base => do
    let base ← base.compile environment
    Compile.size environment.settings bracket base
  | .element bracket base start index => do
    let base ← base.compile environment
    let index ← index.compile environment
    Compile.element bracket base start index
  | .range bracket base firstStart first lastStart last => do
    let base ← base.compile environment
    let first ← first.compile environment
    let last ← last.compile environment
    Compile.range environment.settings bracket base firstStart first lastStart last
  | .block statements result => do
    let statements ← compileStatements environment statements
    let result ← result.compile environment
    pure (AnyNode.sequence statements result)
  | .loop initializer start condition step body => do
    let initializer ← initializer.compile environment
    let condition ← condition.compile environment
    let condition ← requireScalar .loopCondition start condition
    let step ← step.compile environment
    let body ← body.compile environment
    pure (.scalar (.loop initializer condition step body environment.settings.loopLimit))
  | .choice cases start otherwise => do
    let cases ← compileCases environment cases
    let otherwise ← otherwise.compile environment
    let otherwise ← requireScalar .defaultResult start otherwise
    pure (.scalar (.choice cases otherwise))
  | .assignment word sign start value => do
    let target ← resolve environment word
    let value ← value.compile environment
    Compile.assignment word sign target start value
  | .elementAssignment word start index sign value => do
    let target ← resolve environment word
    let index ← index.compile environment
    let value ← value.compile environment
    Compile.elementAssignment word sign target start index value
  | .declaration word start value => do
    let allowed ← mayDeclare environment word
    let value ← value.compile environment
    Compile.declaration allowed word start value
  | .listedVector word size bracket elements => do
    let allowed ← mayDeclare environment word
    let elements ← compileElements environment elements
    Compile.listedVector allowed word size bracket elements
  | .filledVector word size start value => do
    let allowed ← mayDeclare environment word
    let value ← value.compile environment
    Compile.filledVector allowed word size start value
  | .stop report rest => halt report.problem report.place rest
  | .andThen done stopped => do
    let _ ← done.compile environment
    stopped.compile environment

def compilePlaced (environment : Environment) : List (Place × Tree) → Compile (List (Place × AnyNode))
  | [] => pure []
  | (start, tree) :: rest => do
    let node ← tree.compile environment
    let rest ← compilePlaced environment rest
    pure ((start, node) :: rest)

def compileElements (environment : Environment) : List (Place × Tree) → Compile (List (Node .scalar))
  | [] => pure []
  | (start, tree) :: rest => do
    let node ← tree.compile environment
    let first ← requireScalar .vectorElement start node
    let rest ← compileElements environment rest
    pure (first :: rest)

def compileArithmetic (environment : Environment) (left : AnyNode) :
    List ((BinaryOperator × Lexeme) × Tree) → Compile AnyNode
  | [] => pure left
  | ((op, sign), tree) :: rest => do
    let right ← tree.compile environment
    let left ← Compile.arithmetic environment.settings op sign left right
    compileArithmetic environment left rest

def compileLogical (environment : Environment) (start : Place) (left : AnyNode) :
    List ((BinaryOperator × Place) × Tree) → Compile AnyNode
  | [] => pure left
  | ((op, rightStart), tree) :: rest => do
    let right ← tree.compile environment
    let left ← Compile.logical environment.settings op start left rightStart right
    compileLogical environment start left rest

def compileStatements (environment : Environment) : List Tree → Compile (List AnyNode)
  | [] => pure []
  | first :: rest => do
    let first ← first.compile environment
    let rest ← compileStatements environment rest
    pure (first :: rest)

def compileCases (environment : Environment) : List ((Place × Tree) × (Place × Tree)) →
    Compile (List (Node .scalar × Node .scalar))
  | [] => pure []
  | ((start, condition), (resultStart, result)) :: rest => do
    let condition ← condition.compile environment
    let condition ← requireScalar .caseCondition start condition
    let result ← result.compile environment
    let result ← requireScalar .caseResult resultStart result
    let rest ← compileCases environment rest
    pure ((condition, result) :: rest)

end

attribute [simp] Tree.compile compilePlaced compileElements compileArithmetic compileLogical compileStatements
  compileCases

end LiveExpr
