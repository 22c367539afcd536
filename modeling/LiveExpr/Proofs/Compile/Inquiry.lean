import LiveExpr.Compile.Program

/-!
Compilation with a note of each question that the resolver is asked. Everything is compiled as it is without the notes;
only where a name is left to the resolver is something noted.

The clauses follow those of `Tree.compile` one by one. They are written out again because the compiler keeps to one
monad, so that its equations need no lifting; `Inquiry.Notes` relates the two clause by clause, and the outcome without
the notes is shown to be that of the compilation.
-/

namespace LiveExpr

/-- A question to the resolver: the lexeme that spells the name, and the state of the compilation. -/
structure Question where
  word : Lexeme
  progress : Progress

namespace Question

def name (question : Question) : String :=
  question.word.text

/-- What a resolver answers, and the world that it leaves. -/
def answer (table : TableHandle) (resolver : Resolver) (question : Question) : Resolution × World :=
  resolver question.name table question.progress.world

end Question

/-- A computation on the state of a compilation, with the questions that it asks, in order. -/
def Inquiry (α : Type) : Type :=
  Progress → List Question × (Except Halt α × Progress)

namespace Inquiry

/-- Goes on from an outcome, with the questions that come next behind those asked before. -/
def follow {α β : Type} (next : α → Inquiry β) :
    List Question × (Except Halt α × Progress) → List Question × (Except Halt β × Progress)
  | (asked, .ok value, progress) => (asked ++ (next value progress).1, (next value progress).2)
  | (asked, .error halt, progress) => (asked, .error halt, progress)

instance : Monad Inquiry where
  pure value := fun progress => ([], .ok value, progress)
  bind first next := fun progress => follow next (first progress)

/-- A computation that asks nothing. -/
instance : MonadLift Compile Inquiry where
  monadLift computation := fun progress => ([], computation progress)

theorem bind_of_ok {α β : Type} {first : Inquiry α} {next : α → Inquiry β} {before after : Progress}
    {asked : List Question} {value : α} (done : first before = (asked, .ok value, after)) :
    (first >>= next) before = (asked ++ (next value after).1, (next value after).2) :=
  congrArg (follow next) done

theorem bind_of_error {α β : Type} {first : Inquiry α} {next : α → Inquiry β} {before after : Progress}
    {asked : List Question} {halt : Halt} (halted : first before = (asked, .error halt, after)) :
    (first >>= next) before = (asked, .error halt, after) :=
  congrArg (follow next) halted

theorem lift_bind_of_ok {α β : Type} {first : Compile α} {next : α → Inquiry β} {before after : Progress} {value : α}
    (done : first before = (.ok value, after)) : ((liftM first : Inquiry α) >>= next) before = next value after :=
  congrArg (fun outcome => follow next ([], outcome)) done

theorem view_bind {α β : Type} (look : Progress → α) (next : α → Inquiry β) (progress : Progress) :
    ((liftM (Compile.view look) : Inquiry α) >>= next) progress = next (look progress) progress := rfl

variable (environment : Environment)

def ask (resolver : Resolver) (word : Lexeme) : Inquiry (Option Binding) := fun progress =>
  ([⟨word, progress⟩], Compile.askResolver environment resolver word.text (.lexeme word) progress)

def resolve (word : Lexeme) : Inquiry (Option Binding) := do
  match ← Compile.known? environment word.text with
  | some binding => pure (some binding)
  | none =>
    if (← Compile.view (·.reported)).contains word.text then pure none
    else
      match environment.resolver with
      | some resolver => ask environment resolver word
      | none =>
        Compile.reportName word.text (.undefinedSymbol word.text) (.lexeme word)
        pure none

end Inquiry

/-! ## Trees -/

mutual

/-- Compiles a tree and notes the questions. -/
def Tree.inquire (environment : Environment) : Tree → Inquiry AnyNode
  | .number value => pure (.scalar (.constant value))
  | .text content => pure (.string (.literal content))
  | .name word rest => do
    let binding ← Inquiry.resolve environment word
    Compile.reference environment.settings word rest binding
  | .call word arguments rest => do
    let arguments ← inquirePlaced environment arguments
    Compile.call environment word arguments rest
  | .negation sign operand => do
    let operand ← operand.inquire environment
    Compile.negation environment.settings sign operand
  | .affirmation sign operand => do
    let operand ← operand.inquire environment
    Compile.affirmation sign operand
  | .denial start operand => do
    let operand ← operand.inquire environment
    Compile.denial environment.settings start operand
  | .arithmetic first rest => do
    let first ← first.inquire environment
    inquireArithmetic environment first rest
  | .logical start first rest => do
    let first ← first.inquire environment
    inquireLogical environment start first rest
  | .relation sign left right => do
    let left ← left.inquire environment
    let right ← right.inquire environment
    Compile.relation environment.settings sign left right
  | .conditional start condition branch consequent alternative => do
    let condition ← condition.inquire environment
    let condition ← Compile.requireScalar .condition start condition
    let consequent ← consequent.inquire environment
    let alternative ← alternative.inquire environment
    Compile.conditional environment.settings condition branch consequent alternative
  | .conditionalOnly start condition branch consequent => do
    let condition ← condition.inquire environment
    let condition ← Compile.requireScalar .condition start condition
    let consequent ← consequent.inquire environment
    Compile.conditionalOnly environment.settings condition branch consequent
  | .size bracket base => do
    let base ← base.inquire environment
    Compile.size environment.settings bracket base
  | .element bracket base start index => do
    let base ← base.inquire environment
    let index ← index.inquire environment
    Compile.element bracket base start index
  | .range bracket base firstStart first lastStart last => do
    let base ← base.inquire environment
    let first ← first.inquire environment
    let last ← last.inquire environment
    Compile.range environment.settings bracket base firstStart first lastStart last
  | .block statements result => do
    let statements ← inquireStatements environment statements
    let result ← result.inquire environment
    pure (AnyNode.sequence statements result)
  | .loop initializer start condition step body => do
    let initializer ← initializer.inquire environment
    let condition ← condition.inquire environment
    let condition ← Compile.requireScalar .loopCondition start condition
    let step ← step.inquire environment
    let body ← body.inquire environment
    pure (.scalar (.loop initializer condition step body environment.settings.loopLimit))
  | .choice cases start otherwise => do
    let cases ← inquireCases environment cases
    let otherwise ← otherwise.inquire environment
    let otherwise ← Compile.requireScalar .defaultResult start otherwise
    pure (.scalar (.choice cases otherwise))
  | .assignment word sign start value => do
    let target ← Inquiry.resolve environment word
    let value ← value.inquire environment
    Compile.assignment word sign target start value
  | .elementAssignment word start index sign value => do
    let target ← Inquiry.resolve environment word
    let index ← index.inquire environment
    let value ← value.inquire environment
    Compile.elementAssignment word sign target start index value
  | .declaration word start value => do
    let allowed ← Compile.mayDeclare environment word
    let value ← value.inquire environment
    Compile.declaration allowed word start value
  | .listedVector word size bracket elements => do
    let allowed ← Compile.mayDeclare environment word
    let elements ← inquireElements environment elements
    Compile.listedVector allowed word size bracket elements
  | .filledVector word size start value => do
    let allowed ← Compile.mayDeclare environment word
    let value ← value.inquire environment
    Compile.filledVector allowed word size start value
  | .stop report rest => Compile.halt report.problem report.place rest
  | .andThen done stopped => do
    let _ ← done.inquire environment
    stopped.inquire environment

def inquirePlaced (environment : Environment) : List (Place × Tree) → Inquiry (List (Place × AnyNode))
  | [] => pure []
  | (start, tree) :: rest => do
    let node ← tree.inquire environment
    let rest ← inquirePlaced environment rest
    pure ((start, node) :: rest)

def inquireElements (environment : Environment) : List (Place × Tree) → Inquiry (List (Node .scalar))
  | [] => pure []
  | (start, tree) :: rest => do
    let node ← tree.inquire environment
    let first ← Compile.requireScalar .vectorElement start node
    let rest ← inquireElements environment rest
    pure (first :: rest)

def inquireArithmetic (environment : Environment) (left : AnyNode) :
    List ((BinaryOperator × Lexeme) × Tree) → Inquiry AnyNode
  | [] => pure left
  | ((op, sign), tree) :: rest => do
    let right ← tree.inquire environment
    let left ← Compile.arithmetic environment.settings op sign left right
    inquireArithmetic environment left rest

def inquireLogical (environment : Environment) (start : Place) (left : AnyNode) :
    List ((BinaryOperator × Place) × Tree) → Inquiry AnyNode
  | [] => pure left
  | ((op, rightStart), tree) :: rest => do
    let right ← tree.inquire environment
    let left ← Compile.logical environment.settings op start left rightStart right
    inquireLogical environment start left rest

def inquireStatements (environment : Environment) : List Tree → Inquiry (List AnyNode)
  | [] => pure []
  | first :: rest => do
    let first ← first.inquire environment
    let rest ← inquireStatements environment rest
    pure (first :: rest)

def inquireCases (environment : Environment) : List ((Place × Tree) × (Place × Tree)) →
    Inquiry (List (Node .scalar × Node .scalar))
  | [] => pure []
  | ((start, condition), (resultStart, result)) :: rest => do
    let condition ← condition.inquire environment
    let condition ← Compile.requireScalar .caseCondition start condition
    let result ← result.inquire environment
    let result ← Compile.requireScalar .caseResult resultStart result
    let rest ← inquireCases environment rest
    pure ((condition, result) :: rest)

end

/-! ## Programs -/

namespace Inquiry

variable (environment : Environment)

/-- Compiles the statement at the front and notes the questions. -/
def statement (bound : Nat) (lexemes : List Lexeme) : Inquiry (AnyNode × List Lexeme) :=
  match Grammar.endedStatement (Grammar.outermost environment.settings.maxDepth bound) lexemes with
  | .ok (tree, rest) => do
    let node ← tree.inquire environment
    pure (node, rest)
  | .error stopped => do
    let node ← stopped.inquire environment
    pure (node, [])

variable {environment} in
theorem statement_of_ok {bound : Nat} {lexemes rest : List Lexeme} {tree : Tree}
    (read : Grammar.endedStatement (Grammar.outermost environment.settings.maxDepth bound) lexemes =
      .ok (tree, rest)) :
    statement environment bound lexemes = (do
      let node ← tree.inquire environment
      pure (node, rest)) := by
  unfold statement
  rw [read]

variable {environment} in
theorem statement_of_error {bound : Nat} {lexemes : List Lexeme} {stopped : Tree}
    (read : Grammar.endedStatement (Grammar.outermost environment.settings.maxDepth bound) lexemes =
      .error stopped) :
    statement environment bound lexemes = (do
      let node ← stopped.inquire environment
      pure (node, [])) := by
  unfold statement
  rw [read]

/-- Compiles the statements of a program and notes the questions. -/
def statements (bound : Nat) : (count : Nat) → List Lexeme → Progress → List Question × (List AnyNode × Progress)
  | 0, _, progress => ([], [], progress)
  | _ + 1, [], progress => ([], [], progress)
  | count + 1, first :: rest, progress =>
    if first.is .semicolon then statements bound count rest progress
    else
      match statement environment bound (first :: rest) progress with
      | (asked, .ok (node, after), progress) =>
        let (more, nodes, progress) := statements bound count after progress
        (asked ++ more, node :: nodes, progress)
      | (asked, .error halt, progress) =>
        let progress := { progress with reports := halt.report :: progress.reports }
        let skip := (first :: rest).length - halt.rest.length
        let (more, result) := statements bound count (Grammar.recover 0 skip (first :: rest)) progress
        (asked ++ more, result)

section

variable {environment} {bound count : Nat} {first : Lexeme} {rest : List Lexeme} (other : ¬first.is .semicolon = true)
  {before middle : Progress} {asked : List Question}

include other

theorem statements_of_done {node : AnyNode} {behind : List Lexeme}
    (done : statement environment bound (first :: rest) before = (asked, .ok (node, behind), middle)) :
    statements environment bound (count + 1) (first :: rest) before =
      (asked ++ (statements environment bound count behind middle).1,
        node :: (statements environment bound count behind middle).2.1,
        (statements environment bound count behind middle).2.2) := by
  rw [statements, if_neg other, done]

theorem statements_of_halted {halt : Halt}
    (halted : statement environment bound (first :: rest) before = (asked, .error halt, middle))
    {later : List Question × (List AnyNode × Progress)}
    (continued : statements environment bound count
      (Grammar.recover 0 ((first :: rest).length - halt.rest.length) (first :: rest))
      { middle with reports := halt.report :: middle.reports } = later) :
    statements environment bound (count + 1) (first :: rest) before = (asked ++ later.1, later.2) := by
  rw [← continued, statements, if_neg other, halted]

end

/-- Compiles a program and notes the questions. -/
def program (lexemes : List Lexeme) (progress : Progress) : List Question × (Option AnyNode × Progress) :=
  let (asked, nodes, progress) := statements environment lexemes.length lexemes.length lexemes progress
  match nodes.getLast? with
  | some result => (asked, some (AnyNode.sequence nodes.dropLast result), progress)
  | none =>
    if progress.reports.isEmpty then (asked, none, { progress with reports := [⟨.emptyFormula, .ending⟩] })
    else (asked, none, progress)

end Inquiry

/-- Compiles a source text and notes the questions. -/
def Compilation.inquire (environment : Environment) (source : String) (world : World) : List Question × Compilation :=
  match tokenize source with
  | .error malformed => ([], ⟨none, malformed.map malformedReport, [], world⟩)
  | .ok lexemes =>
    let (asked, root, progress) := Inquiry.program environment lexemes (.start world)
    (asked,
      { root := if progress.reports.isEmpty then root else none
        reports := progress.reports.reverse
        accepted := progress.accepted.reverse
        world := progress.world })

end LiveExpr
