import LiveExpr.Proofs.Grammar.Derivation
import LiveExpr.Proofs.Pass.Parser

/-!
The routines of a pass, from those for blocks and declarations to that for whole programs. Each makes the node of what
it moves over. A routine may fail at any lexeme that does not fit the grammar, and at a call or reference that does not
fit what its name stands for.

The routines call one another, and some repeat a round as long as the lexemes go on alike. How many calls may be nested
and how many rounds there may be is bounded from outside, and a run that would take more is `unfinished`.
-/

namespace LiveExpr.Pass

open LiveExpr.Pass.Parser

/-- What the routines of one level call further in, and how many rounds a repetition may have. -/
structure Calls where
  assignment : Parser AnyNode
  /-- What stands behind a prefix operator or `^`. -/
  operand : Parser AnyNode
  rounds : Nat

variable (calls : Calls)

/-! ## Lists -/

/-- Goes on with items that are separated by commas, behind those found, up to the closing bracket. -/
def items {α : Type} (closing : Terminal) (item : Parser α) : (rounds : Nat) → (found : List α) → Parser (List α)
  | 0, _ => unfinished
  | rounds + 1, found => do
    let one ← item
    if ← eat .comma then items closing item rounds (found ++ [one])
    else
      let _ ← expect closing .listEnd
      pure (found ++ [one])

def list {α : Type} (closing : Terminal) (item : Parser α) : Parser (List α) := do
  if ← eat closing then pure [] else items closing item calls.rounds []

def item {α : Type} (make : Place → AnyNode → Compile α) : Parser α := do
  let start ← place
  let node ← calls.assignment
  perform fun _ => make start node

def argument : Parser (Place × AnyNode) :=
  item calls fun start node => pure (start, node)

def element : Parser (Node .scalar) :=
  item calls (Compile.requireScalar .vectorElement)

/-! ## Declarations -/

def vectorSize : Parser Nat := do
  match ← peek with
  | some lexeme =>
    match Grammar.vectorSize? lexeme.token with
    | some size => do
      step
      pure size
    | none => failAt (.badVectorSize (some lexeme.text)) (.lexeme lexeme)
  | none => failAt (.badVectorSize none) .ending

def closedVectorSize : Parser Nat := do
  let size ← vectorSize
  let _ ← expect .rightBracket .sizeEnd
  pure size

def vectorDeclaration (word : Lexeme) (allowed : Bool) : Parser AnyNode := do
  let size ← closedVectorSize
  if ← eat .assign then
    match ← accept fun lexeme => if lexeme.is .leftBrace then some lexeme else none with
    | some bracket => do
      let elements ← list calls .rightBrace (element calls)
      perform fun _ => Compile.listedVector allowed word size bracket elements
    | none => do
      let start ← place
      let value ← calls.assignment
      perform fun _ => Compile.filledVector allowed word size start value
  else perform fun _ => Compile.listedVector allowed word size word []

def declarationOf (word : Lexeme) : Parser AnyNode := do
  let allowed ← perform fun environment => Compile.mayDeclare environment word
  if ← eat .leftBracket then vectorDeclaration calls word allowed
  else if ← eat .assign then
    let start ← place
    let value ← calls.assignment
    perform fun _ => Compile.declaration allowed word start value
  else perform fun _ => Compile.declaration allowed word .ending (.scalar (.constant 0.0))

def declaration : Parser AnyNode := do
  match ← peek with
  | some word =>
    if word.token.isName then
      step
      declarationOf calls word
    else failAt (.expected .declaredName (some word.text)) (.lexeme word)
  | none => failAt .unexpectedEnd .ending

/-! ## Blocks -/

def statement : Parser AnyNode := do
  if ← eat .varWord then declaration calls else calls.assignment

/-- Makes one node of the statements of a block, whose closing bracket has been passed last. -/
def blockOf (found : List AnyNode) : Parser AnyNode := do
  match found.getLast? with
  | some result => pure (AnyNode.sequence found.dropLast result)
  | none => failAt .emptyBlock (← previousPlace)

/-- Goes on with the statements of a block, behind those found, up to its closing bracket. -/
def statements (closing : Terminal) : (rounds : Nat) → (found : List AnyNode) → Parser AnyNode
  | 0, _ => unfinished
  | rounds + 1, found => do
    if ← eat closing then blockOf found
    else
      let node ← statement calls
      if ← eat .semicolon then statements closing rounds (found ++ [node])
      else
        let _ ← expect closing .blockEnd
        blockOf (found ++ [node])

def block (closing : Terminal) : Parser AnyNode :=
  statements calls closing calls.rounds []

def body : Parser AnyNode := do
  if ← eat .leftBrace then block calls .rightBrace else statement calls

/-! ## Forms -/

/-- Moves over `else`, and over a semicolon in front of it, and says whether it did. -/
def eatElse : Parser Bool := do
  let separated ← check .semicolon
  let otherwise := (← peekAt 1).any (·.is .elseWord)
  if separated && otherwise then step
  eat .elseWord

theorem eatElse_apply (task : Task) (state : State) :
    eatElse task state =
      if task.lexemes[state.cursor]?.any (·.is .semicolon) && task.lexemes[state.cursor + 1]?.any (·.is .elseWord) then
        eat .elseWord task state.advance
      else eat .elseWord task state := by
  change (if (_ && _) = true then _ else _ : Parser Bool) task state = _
  rw [Nat.add_zero]
  split
  · next ahead =>
    obtain ⟨lexeme, found, -⟩ := (Option.any_eq_true _ _).mp (Bool.and_eq_true_iff.mp ahead).1
    exact bind_of_done (step_of_found found) _
  · rfl

def ifForm : Parser AnyNode := do
  let _ ← expect .leftParen .ifOpen
  let start ← place
  let condition ← calls.assignment
  let condition ← perform fun _ => Compile.requireScalar .condition start condition
  if ← eat .comma then
    let branch ← place
    let consequent ← calls.assignment
    let _ ← expect .comma .ifComma
    let alternative ← calls.assignment
    let _ ← expect .rightParen .ifEnd
    perform fun environment =>
      Compile.conditional environment.settings condition branch consequent alternative
  else
    let _ ← expect .rightParen .conditionEnd
    let branch ← place
    let consequent ← body calls
    if ← eatElse then
      let alternative ← body calls
      perform fun environment =>
        Compile.conditional environment.settings condition branch consequent alternative
    else perform fun environment => Compile.conditionalOnly environment.settings condition branch consequent

def loopOf (initializer : AnyNode) (condition : Node .scalar) (increment body : AnyNode) : Parser AnyNode :=
  perform fun environment => pure (.scalar (.loop initializer condition increment body environment.settings.loopLimit))

def whileForm : Parser AnyNode := do
  let _ ← expect .leftParen .whileOpen
  let start ← place
  let condition ← calls.assignment
  let condition ← perform fun _ => Compile.requireScalar .loopCondition start condition
  let _ ← expect .rightParen .whileEnd
  let body ← body calls
  loopOf AnyNode.skip condition AnyNode.skip body

def clause (ending : Terminal) (absent : AnyNode) (present : Parser AnyNode) : Parser AnyNode := do
  if ← check ending then pure absent else present

def forForm : Parser AnyNode := do
  let _ ← expect .leftParen .forOpen
  let initializer ← clause .semicolon AnyNode.skip (statement calls)
  let _ ← expect .semicolon .afterInitializer
  let start ← place
  let condition ← clause .semicolon (.scalar (.constant 1.0)) calls.assignment
  let condition ← perform fun _ => Compile.requireScalar .loopCondition start condition
  let _ ← expect .semicolon .afterLoopCondition
  let increment ← clause .rightParen AnyNode.skip (statement calls)
  let _ ← expect .rightParen .forEnd
  let body ← body calls
  loopOf initializer condition increment body

def cases : (rounds : Nat) → (found : List (Node .scalar × Node .scalar)) → Parser (List (Node .scalar × Node .scalar))
  | 0, _ => unfinished
  | rounds + 1, found => do
    if ← eat .caseWord then
      let start ← place
      let condition ← calls.assignment
      let condition ← perform fun _ => Compile.requireScalar .caseCondition start condition
      let _ ← expect .colon .caseColon
      let start ← place
      let result ← calls.assignment
      let result ← perform fun _ => Compile.requireScalar .caseResult start result
      let _ ← expect .semicolon .caseEnd
      cases rounds (found ++ [(condition, result)])
    else pure found

def switchForm : Parser AnyNode := do
  let _ ← expect .leftBrace .switchOpen
  let cases ← cases calls calls.rounds []
  let _ ← expect .defaultWord .caseOrDefault
  let _ ← expect .colon .defaultColon
  let start ← place
  let otherwise ← calls.assignment
  let otherwise ← perform fun _ => Compile.requireScalar .defaultResult start otherwise
  let _ ← eat .semicolon
  let _ ← expect .rightBrace .switchEnd
  pure (.scalar (.choice cases otherwise))

/-! ## Operands -/

def call (word : Lexeme) : Parser AnyNode := do
  let arguments ← list calls .rightParen (argument calls)
  let rest ← remaining
  perform fun environment => Compile.call environment word arguments rest

/-- A name that has been passed: a call if a parenthesis follows, and else a value. -/
def name (word : Lexeme) (name : String) : Parser AnyNode := do
  if ← eat .leftParen then call calls word
  else if (Builtin.find? name).isSome then fail (.bareFunction name)
  else
    let binding ← perform fun environment => Compile.resolve environment word
    let rest ← remaining
    perform fun environment => Compile.reference environment.settings word rest binding

def primary : Parser AnyNode := do
  match ← peek with
  | none => unexpected
  | some lexeme =>
    match lexeme.token with
    | .number value => do
      step
      pure (.scalar (.constant value))
    | .text content => do
      step
      pure (.string (.literal content))
    | .name spelled => do
      step
      name calls lexeme spelled
    | .fixed .trueWord => do
      step
      pure (.scalar (.constant 1.0))
    | .fixed .falseWord => do
      step
      pure (.scalar (.constant 0.0))
    | .fixed .leftParen => do
      step
      block calls .rightParen
    | .fixed .leftBrace => do
      step
      block calls .rightBrace
    | .fixed .ifWord => do
      step
      ifForm calls
    | .fixed .whileWord => do
      step
      whileForm calls
    | .fixed .forWord => do
      step
      forForm calls
    | .fixed .switchWord => do
      step
      switchForm calls
    | .fixed _ => unexpected

/-- The upper bound of a range, behind its colon, up to the closing bracket. -/
def rangeEnd (bracket : Lexeme) (base : AnyNode) (firstStart : Place) (first : AnyNode) : Parser AnyNode := do
  if ← eat .rightBracket then
    perform fun environment => Compile.range environment.settings bracket base firstStart first .ending
      (.scalar (.constant Number.infinity))
  else
    let lastStart ← place
    let last ← calls.assignment
    let _ ← expect .rightBracket .rangeEnd
    perform fun environment => Compile.range environment.settings bracket base firstStart first lastStart last

def subscript (bracket : Lexeme) (base : AnyNode) : Parser AnyNode := do
  if ← eat .rightBracket then perform fun environment => Compile.size environment.settings bracket base
  else if ← eat .colon then rangeEnd calls bracket base .ending (.scalar (.constant 0.0))
  else
    let start ← place
    let index ← calls.assignment
    if ← eat .colon then rangeEnd calls bracket base start index
    else
      let _ ← expect .rightBracket .indexEnd
      perform fun _ => Compile.element bracket base start index

/-- Goes on with the subscripts of a node. Each enters one more level, and all levels are left behind the last one, as
they are where one fails. At the start, `entry` levels were entered. -/
def subscripts (entry : Nat) : (rounds : Nat) → AnyNode → Parser AnyNode
  | 0, _ => unfinished
  | rounds + 1, base => do
    match (← peek).filter (·.is .leftBracket) with
    | none => do
      setDepth entry
      pure base
    | some bracket => do
      let limit := (← settings).maxDepth
      if limit ≤ (← depth) then
        setDepth entry
        fail (.tooDeep limit)
      else
        setDepth ((← depth) + 1)
        step
        match ← attempt (subscript calls bracket base) with
        | .ok base => subscripts entry rounds base
        | .error report => do
          setDepth entry
          resume (.error report)

section Subscripts

variable {task : Task} {state : State} {bracket : Lexeme} (entry rounds : Nat) (base : AnyNode)

theorem subscripts_of_not (other : task.lexemes[state.cursor]?.filter (·.is .leftBracket) = none) :
    subscripts calls entry (rounds + 1) base task state = .done base (state.atDepth entry) := by
  rw [subscripts, bind_of_done (peek_apply task state), other]
  rfl

theorem subscripts_of_tooDeep (next : task.lexemes[state.cursor]?.filter (·.is .leftBracket) = some bracket)
    (deep : task.settings.maxDepth ≤ state.depth) :
    subscripts calls entry (rounds + 1) base task state =
      fail (.tooDeep task.settings.maxDepth) task (state.atDepth entry) := by
  rw [subscripts, bind_of_done (peek_apply task state), next]
  change (if task.settings.maxDepth ≤ state.depth then _ else _ : Parser AnyNode) task state = _
  rw [if_pos deep]
  rfl

theorem subscripts_of_bracket (next : task.lexemes[state.cursor]?.filter (·.is .leftBracket) = some bracket)
    (shallow : ¬task.settings.maxDepth ≤ state.depth) :
    subscripts calls entry (rounds + 1) base task state =
      match subscript calls bracket base task (state.atDepth (state.depth + 1)).advance with
      | .done base after => subscripts calls entry rounds base task after
      | .failed report after => .failed report (after.atDepth entry)
      | .broken => .broken
      | .unfinished => .unfinished := by
  rw [subscripts, bind_of_done (peek_apply task state), next]
  change (if task.settings.maxDepth ≤ state.depth then _ else _ : Parser AnyNode) task state = _
  rw [if_neg shallow]
  have found := (Option.filter_eq_some_iff.mp next).1
  have moved : step task (state.atDepth (state.depth + 1)) = .done () (state.atDepth (state.depth + 1)).advance :=
    step_of_found found
  change (step >>= fun _ => attempt (subscript calls bracket base) >>= _) task (state.atDepth (state.depth + 1)) = _
  rw [bind_of_done moved, bind_apply, attempt]
  cases subscript calls bracket base task (state.atDepth (state.depth + 1)).advance <;> rfl

end Subscripts

def subscripted : Parser AnyNode := do
  let base ← primary calls
  subscripts calls (← depth) calls.rounds base

def power : Parser AnyNode := do
  let base ← subscripted calls
  match ← accept fun lexeme => if lexeme.is .caret then some lexeme else none with
  | some sign => do
    let exponent ← calls.operand
    perform fun environment => Compile.arithmetic environment.settings .pow sign base exponent
  | none => pure base

def unary : Parser AnyNode := do
  match ← peek with
  | none => power calls
  | some sign =>
    match sign.token with
    | .fixed .minus => do
      step
      let operand ← calls.operand
      perform fun environment => Compile.negation environment.settings sign operand
    | .fixed .plus => do
      step
      let operand ← calls.operand
      perform fun _ => Compile.affirmation sign operand
    | .fixed .bang | .fixed .notWord => do
      step
      let start ← place
      let operand ← calls.operand
      perform fun environment => Compile.denial environment.settings start operand
    | _ => power calls

/-! ## Operators between operands -/

def operators {α : Type} (sign : Parser (Option α)) (operand : Parser AnyNode)
    (combine : Environment → α → AnyNode → AnyNode → Compile AnyNode) : (rounds : Nat) → AnyNode → Parser AnyNode
  | 0, _ => unfinished
  | rounds + 1, left => do
    match ← sign with
    | none => pure left
    | some spelled => do
      let right ← operand
      let left ← perform fun environment => combine environment spelled left right
      operators sign operand combine rounds left

def arithmetic (level : List BinaryOperator) (operand : Parser AnyNode) : Parser AnyNode := do
  let first ← operand
  operators (accept fun sign => (Grammar.operatorOf? level sign).map fun op => (op, sign)) operand
    (fun environment sign => Compile.arithmetic environment.settings sign.1 sign.2) calls.rounds first

def logicalSign (level : List BinaryOperator) : Parser (Option (BinaryOperator × Place)) := do
  match ← accept (Grammar.operatorOf? level) with
  | some op => do
    let start ← place
    pure (some (op, start))
  | none => pure none

def logical (level : List BinaryOperator) (operand : Parser AnyNode) : Parser AnyNode := do
  let start ← place
  let first ← operand
  operators (logicalSign level) operand
    (fun environment sign left right => Compile.logical environment.settings sign.1 start left sign.2 right)
    calls.rounds first

def product : Parser AnyNode :=
  arithmetic calls [.mul, .div, .mod] (unary calls)

def sum : Parser AnyNode :=
  arithmetic calls [.add, .sub] (product calls)

def noSecondRelation : Parser Unit := do
  if (← peek).any (·.isRelation) then fail .chainedComparison else pure ()

def relation : Parser AnyNode := do
  let left ← sum calls
  match ← accept fun sign => if sign.isRelation then some sign else none with
  | some sign => do
    let right ← sum calls
    noSecondRelation
    perform fun environment => Compile.relation environment.settings sign left right
  | none => pure left

def conjunction : Parser AnyNode :=
  logical calls [.and, .nand] (relation calls)

def exclusion : Parser AnyNode :=
  logical calls [.xor, .xnor] (conjunction calls)

def disjunction : Parser AnyNode :=
  logical calls [.or, .nor] (exclusion calls)

def conditional : Parser AnyNode := do
  let start ← place
  let condition ← disjunction calls
  if ← eat .question then
    let condition ← perform fun _ => Compile.requireScalar .condition start condition
    let branch ← place
    let consequent ← calls.assignment
    let _ ← expect .colon .conditionalColon
    let alternative ← calls.assignment
    perform fun environment =>
      Compile.conditional environment.settings condition branch consequent alternative
  else pure condition

/-! ## Assignments -/

def signAt (offset : Nat) : Parser Bool := do
  pure ((← peekAt offset).any (·.token.assigns))

/-- Looks for the bracket that closes as many square brackets as are open, from so many places behind the cursor on, and
gives the distance at which it stands. -/
def closingBracket : (rounds : Nat) → (offset opened : Nat) → Parser (Option Nat)
  | 0, _, _ => unfinished
  | rounds + 1, offset, opened => do
    match ← peekAt offset with
    | none => pure none
    | some lexeme =>
      if lexeme.is .leftBracket then closingBracket rounds (offset + 1) (opened + 1)
      else if lexeme.is .rightBracket then
        let opened ← decrease opened
        if opened = 0 then pure (some offset) else closingBracket rounds (offset + 1) opened
      else closingBracket rounds (offset + 1) opened

/-- Whether an assignment starts at the cursor: a name, perhaps an index in brackets, and an assignment sign. -/
def atAssignment : Parser Bool := do
  if (← peek).any (·.token.isName) then
    if (← peekAt 1).any (·.is .leftBracket) then
      match ← closingBracket calls.rounds 1 0 with
      | some offset => signAt (offset + 1)
      | none => pure false
    else signAt 1
  else pure false

/-- Moves over the lexeme at the cursor, whatever it is. -/
def anyLexeme : Parser Lexeme := do
  match ← peek with
  | some lexeme => do
    step
    pure lexeme
  | none => failAt .unexpectedEnd .ending

def wholeAssignment (word : Lexeme) (target : Option Binding) : Parser AnyNode := do
  let sign ← anyLexeme
  let start ← place
  let value ← calls.assignment
  perform fun _ => Compile.assignment word sign target start value

def elementAssignment (word : Lexeme) (target : Option Binding) : Parser AnyNode := do
  let start ← place
  let index ← calls.assignment
  let _ ← expect .rightBracket .indexEnd
  let sign ← anyLexeme
  let value ← calls.assignment
  perform fun _ => Compile.elementAssignment word sign target start index value

def assignmentTo (word : Lexeme) : Parser AnyNode := do
  let target ← perform fun environment => Compile.resolve environment word
  if ← eat .leftBracket then elementAssignment calls word target else wholeAssignment calls word target

def assigned : Parser AnyNode := do
  let word ← anyLexeme
  assignmentTo calls word

def assignmentBody : Parser AnyNode := do
  if ← atAssignment calls then assigned calls else conditional calls

/-! ## Levels -/

/-- The calls of a routine, if so many more may be nested. -/
def callsAt : (fuel : Nat) → Calls
  | 0 => ⟨unfinished, unfinished, 1⟩
  | fuel + 1 => ⟨nested (assignmentBody (callsAt fuel)), nested (unary (callsAt fuel)), fuel + 2⟩

/-! ## Programs -/

def statementEnd : Parser Unit := do
  match ← peek with
  | none => pure ()
  | some lexeme =>
    if lexeme.is .semicolon then step else failAt (.unexpected lexeme.text) (.lexeme lexeme)

def endedStatement : Parser AnyNode := do
  let node ← statement calls
  statementEnd
  pure node

/-- The place to go on from behind a failed statement, of which the lexemes from `index` on are given: behind the first
semicolon outside the brackets that it has opened, but not in front of the cursor. -/
def resumption (task : Task) (cursor : Nat) : (depth : Int) → (index : Nat) → List Lexeme → Nat
  | _, _, [] => task.lexemes.length
  | depth, index, first :: rest =>
    if first.opens then resumption task cursor (depth + 1) (index + 1) rest
    else if first.closes then resumption task cursor (depth - 1) (index + 1) rest
    else if first.is .semicolon && depth ≤ 0 && cursor ≤ index then index + 1
    else resumption task cursor depth (index + 1) rest

/-- Moves behind a failed statement that started at `start`. -/
def synchronize (start : Nat) : Parser Unit :=
  fun task state =>
    .done () { state with cursor := resumption task state.cursor 0 start (task.lexemes.drop start) }

def record (report : Report) : Parser Unit :=
  perform fun _ => Compile.report report.problem report.place

/-- One round of a program: a semicolon that stands alone, or a statement, which is left out if it fails. -/
def round : Parser (Option AnyNode) := do
  if ← eat .semicolon then pure none
  else
    let start ← cursor
    match ← attempt (endedStatement calls) with
    | .ok node => pure (some node)
    | .error report => do
      record report
      synchronize start
      pure none

def proceed : (rounds : Nat) → (found : List AnyNode) → Parser (List AnyNode)
  | 0, _ => unfinished
  | rounds + 1, found => do
    match ← peek with
    | none => pure found
    | some _ => do
      let node ← round calls
      proceed rounds (found ++ node.toList)

/-- A whole program. Without a single statement there must be something to report. -/
def program : Parser (Option AnyNode) := do
  let found ← proceed calls calls.rounds []
  match found.getLast? with
  | some result => pure (some (AnyNode.sequence found.dropLast result))
  | none => do
    let reports ← perform fun _ => Compile.view (·.reports)
    if reports.isEmpty then record ⟨.emptyFormula, .ending⟩
    pure none

/-! ## What a routine costs -/

/-- The routines of a pass, each with the least number of lexemes that a value costs it. The rounds that are repeated
inside of a routine are a part of it. -/
inductive Routine (calls : Calls) : {α : Type} → (need : Nat) → Parser α → Prop
  | eat (terminal : Terminal) : Routine calls 0 (eat terminal)
  | eatElse : Routine calls 0 eatElse
  | expect (terminal : Terminal) (wanted : Expectation) : Routine calls 1 (expect terminal wanted)
  | anyLexeme : Routine calls 1 anyLexeme
  | nested {α : Type} {need : Nat} {routine : Parser α} (cost : Routine calls need routine) :
      Routine calls need (nested routine)
  | assignment : Routine calls 1 calls.assignment
  | operand : Routine calls 1 calls.operand
  | list {α : Type} (closing : Terminal) {item : Parser α} (cost : Routine calls 1 item) :
      Routine calls 1 (list calls closing item)
  | item {α : Type} (make : Place → AnyNode → Compile α) : Routine calls 1 (item calls make)
  | vectorSize : Routine calls 1 vectorSize
  | closedVectorSize : Routine calls 1 closedVectorSize
  | vectorDeclaration (word : Lexeme) (allowed : Bool) : Routine calls 1 (vectorDeclaration calls word allowed)
  | declarationOf (word : Lexeme) : Routine calls 0 (declarationOf calls word)
  | declaration : Routine calls 1 (declaration calls)
  | statement : Routine calls 1 (statement calls)
  | block (closing : Terminal) : Routine calls 1 (block calls closing)
  | body : Routine calls 1 (body calls)
  | ifForm : Routine calls 1 (ifForm calls)
  | whileForm : Routine calls 1 (whileForm calls)
  | clause (ending : Terminal) (absent : AnyNode) {present : Parser AnyNode} (cost : Routine calls 1 present) :
      Routine calls 0 (clause ending absent present)
  | forForm : Routine calls 1 (forForm calls)
  | switchForm : Routine calls 1 (switchForm calls)
  | call (word : Lexeme) : Routine calls 1 (call calls word)
  | name (word : Lexeme) (spelled : String) : Routine calls 0 (name calls word spelled)
  | primary : Routine calls 1 (primary calls)
  | rangeEnd (bracket : Lexeme) (base : AnyNode) (firstStart : Place) (first : AnyNode) :
      Routine calls 1 (rangeEnd calls bracket base firstStart first)
  | subscript (bracket : Lexeme) (base : AnyNode) : Routine calls 1 (subscript calls bracket base)
  | subscripted : Routine calls 1 (subscripted calls)
  | power : Routine calls 1 (power calls)
  | unary : Routine calls 1 (unary calls)
  | product : Routine calls 1 (product calls)
  | sum : Routine calls 1 (sum calls)
  | relation : Routine calls 1 (relation calls)
  | conjunction : Routine calls 1 (conjunction calls)
  | exclusion : Routine calls 1 (exclusion calls)
  | disjunction : Routine calls 1 (disjunction calls)
  | conditional : Routine calls 1 (conditional calls)
  | atAssignment : Routine calls 0 (atAssignment calls)
  | assignmentTo (word : Lexeme) : Routine calls 1 (assignmentTo calls word)
  | assignmentBody : Routine calls 1 (assignmentBody calls)
  | statementEnd : Routine calls 0 statementEnd
  | endedStatement : Routine calls 1 (endedStatement calls)
  | synchronize (start : Nat) : Routine calls 0 (synchronize start)

end LiveExpr.Pass
