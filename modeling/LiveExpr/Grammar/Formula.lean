import LiveExpr.Grammar.Operand

/-!
Formulas: the binary operators from products to disjunctions, conditionals and assignments.
-/

namespace LiveExpr.Grammar

/-! ## Operators between operands -/

def operatorOf? (level : List BinaryOperator) (sign : Lexeme) : Option BinaryOperator :=
  match sign.token.binaryOperator? with
  | some op => if level.contains op then some op else none
  | none => none

def arithmeticSign (level : List BinaryOperator) : Reader (Option (BinaryOperator × Lexeme)) :=
  Reader.accept fun sign => (operatorOf? level sign).map fun op => (op, sign)

def logicalSign (level : List BinaryOperator) : Reader (Option (BinaryOperator × Place)) := do
  match ← Reader.accept (operatorOf? level) with
  | some op => do
    let start ← Reader.place
    pure (some (op, start))
  | none => pure none

def product (inner : Inner) : Reader Tree :=
  run inner.bound (arithmeticSign [.mul, .div, .mod]) (unary inner) Tree.arithmetic

def sum (inner : Inner) : Reader Tree :=
  run inner.bound (arithmeticSign [.add, .sub]) (product inner) Tree.arithmetic

/-- Whether the next lexeme is the sign of a comparison. -/
def startsRelation : List Lexeme → Bool
  | [] => false
  | first :: _ => first.isRelation

def noSecondRelation : Reader Unit :=
  fun lexemes =>
    if startsRelation lexemes then Reader.stop .chainedComparison lexemes else .ok ((), lexemes)

def relation (inner : Inner) : Reader Tree := do
  let left ← sum inner
  match ← Reader.accept fun sign => if sign.isRelation then some sign else none with
  | some sign =>
    Reader.within (.relation sign left) do
      let right ← sum inner
      noSecondRelation.within (.andThen right)
      pure (.relation sign left right)
  | none => pure left

def logical (inner : Inner) (level : List BinaryOperator) (operand : Reader Tree) : Reader Tree := do
  let start ← Reader.place
  run inner.bound (logicalSign level) operand (.logical start)

def conjunction (inner : Inner) : Reader Tree :=
  logical inner [.and, .nand] (relation inner)

def exclusion (inner : Inner) : Reader Tree :=
  logical inner [.xor, .xnor] (conjunction inner)

def disjunction (inner : Inner) : Reader Tree :=
  logical inner [.or, .nor] (exclusion inner)

def conditional (inner : Inner) : Reader Tree := do
  let start ← Reader.place
  let condition ← disjunction inner
  if ← Reader.takes .question then
    let branch ← Reader.place
    let consequent ← inner.assignment.within fun stopped =>
      .conditional start condition branch stopped stopped
    Reader.within (.conditional start condition branch consequent) do
      let _ ← Reader.require .colon .conditionalColon
      let alternative ← inner.assignment
      pure (.conditional start condition branch consequent alternative)
  else pure condition

/-! ## Assignments -/

def startsWithAssignmentSign : List Lexeme → Bool
  | [] => false
  | first :: _ =>
    match first.token with
    | .fixed terminal => terminal.assignment?.isSome
    | _ => false

/-- Whether an assignment sign follows the bracket that closes as many square brackets as are open. -/
def assignsElement (opened : Nat) : List Lexeme → Bool
  | [] => false
  | first :: rest =>
    if first.is .leftBracket then assignsElement (opened + 1) rest
    else if first.is .rightBracket then
      if opened ≤ 1 then startsWithAssignmentSign rest else assignsElement (opened - 1) rest
    else assignsElement opened rest

/-- Whether an assignment comes next: a name, perhaps an index in brackets, and an assignment sign. -/
def startsAssignment : List Lexeme → Bool
  | [] => false
  | word :: rest =>
    match word.token with
    | .name _ =>
      if startsWith .leftBracket rest then assignsElement 0 rest else startsWithAssignmentSign rest
    | _ => false

def assignmentSign : Reader Lexeme
  | [] => Reader.stop .unexpectedEnd []
  | sign :: rest => .ok (sign, rest)

/-- The rest of an assignment to a variable, behind the name. -/
def wholeAssignment (inner : Inner) (word : Lexeme) : Reader Tree := do
  let sign ← assignmentSign.within (.assignment word word .ending)
  let start ← Reader.place
  let value ← inner.assignment.within (.assignment word sign start)
  pure (.assignment word sign start value)

/-- The rest of an assignment to an element of a vector, behind the opening bracket. -/
def elementAssignment (inner : Inner) (word : Lexeme) : Reader Tree := do
  let start ← Reader.place
  let index ← inner.assignment.within fun stopped => .elementAssignment word start stopped word stopped
  let sign ← Reader.within
    (fun stopped => .elementAssignment word start (.andThen index stopped) word stopped) do
      let _ ← Reader.require .rightBracket .indexEnd
      assignmentSign
  let value ← inner.assignment.within (.elementAssignment word start index sign)
  pure (.elementAssignment word start index sign value)

/-- The rest of an assignment, behind the name. -/
def assignmentTo (inner : Inner) (word : Lexeme) : Reader Tree := do
  if ← Reader.takes .leftBracket then elementAssignment inner word else wholeAssignment inner word

/-- An assignment or, where none starts, a conditional. -/
def assignment (inner : Inner) : Reader Tree
  | [] => conditional inner []
  | word :: rest =>
    if startsAssignment (word :: rest) then assignmentTo inner word rest
    else conditional inner (word :: rest)

end LiveExpr.Grammar
