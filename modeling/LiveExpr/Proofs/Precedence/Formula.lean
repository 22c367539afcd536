import LiveExpr.Node.Evaluation
import LiveExpr.Proofs.Grammar.Derivation

/-!
Formulas of scalars, apart from how they are spelled: what they evaluate to, and how they are written. Parentheses have
to stand where an operator is looser than the place that it stands in, and may stand anywhere.
-/

namespace LiveExpr

/-- A formula of numbers, variables, operators, conditionals and plain assignments. -/
inductive Formula where
  | constant (value : Float)
  | variable (name : String)
  | unary (op : UnaryOperator) (operand : Formula)
  | binary (op : BinaryOperator) (left right : Formula)
  | conditional (condition consequent alternative : Formula)
  | assignment (name : String) (value : Formula)

namespace Formula

/-- The variables that the formula reads or assigns to. -/
def names : Formula → List String
  | .constant _ => []
  | .variable name => [name]
  | .unary _ operand => operand.names
  | .binary _ left right => left.names ++ right.names
  | .conditional condition consequent alternative =>
    condition.names ++ (consequent.names ++ alternative.names)
  | .assignment name value => name :: value.names

/-- The value of a formula and its effect on a store, in which every variable has a cell. The left operand comes first;
`and` and `or` leave the right one out if the left one decides, and a conditional leaves one branch out. -/
def eval (cell : String → NumberCell) : Formula → StateM Store Float
  | .constant value => pure value
  | .variable name => do
    let store ← get
    pure (store.number (cell name))
  | .unary op operand => do
    let value ← operand.eval cell
    pure (op.apply value)
  | .binary .and left right => do
    let first ← left.eval cell
    if Number.isTrue first then
      let second ← right.eval cell
      pure (Number.ofBool (Number.isTrue second))
    else pure 0.0
  | .binary .or left right => do
    let first ← left.eval cell
    if Number.isTrue first then pure 1.0
    else
      let second ← right.eval cell
      pure (Number.ofBool (Number.isTrue second))
  | .binary op left right => do
    let first ← left.eval cell
    let second ← right.eval cell
    pure (op.apply first second)
  | .conditional condition consequent alternative => do
    let value ← condition.eval cell
    if Number.isTrue value then consequent.eval cell else alternative.eval cell
  | .assignment name value => do
    let value ← value.eval cell
    modify (·.setNumber (cell name) value)
    pure value

end Formula

/-! ## Writing -/

namespace Token

def constant? : Token → Option Float
  | number value => some value
  | fixed .trueWord => some 1.0
  | fixed .falseWord => some 0.0
  | _ => none

def unaryOperator? : Token → Option UnaryOperator
  | fixed .minus => some .negate
  | fixed .bang | fixed .notWord => some .not
  | _ => none

end Token

namespace Formula

open Grammar (Phrase Level operatorOf?)

/-- Whether the lexemes are a way to write the formula where a phrase of the grammar stands. -/
inductive Writes : Phrase → Formula → List Lexeme → Prop
  | constant {word : Lexeme} {value : Float} (spelled : word.token.constant? = some value) :
      Writes .primary (.constant value) [word]
  | variable {word : Lexeme} (spelled : word.token = .name word.text) :
      Writes .primary (.variable word.text) [word]
  | parentheses {formula : Formula} {opening closing : Lexeme} {content : List Lexeme}
      (opened : opening.is .leftParen = true) (inside : Writes .assignment formula content)
      (closed : closing.is .rightParen = true) : Writes .primary formula (opening :: (content ++ [closing]))
  | base {formula : Formula} {lexemes : List Lexeme} (primary : Writes .primary formula lexemes) :
      Writes .power formula lexemes
  -- the exponent may have prefix operators, the base may not
  | raised {base exponent : Formula} {caret : Lexeme} {first last : List Lexeme}
      (primary : Writes .primary base first) (spelled : caret.is .caret = true)
      (operand : Writes .unary exponent last) :
      Writes .power (.binary .pow base exponent) (first ++ caret :: last)
  | signed {operand : Formula} {op : UnaryOperator} {sign : Lexeme} {lexemes : List Lexeme}
      (spelled : sign.token.unaryOperator? = some op) (behind : Writes .unary operand lexemes) :
      Writes .unary (.unary op operand) (sign :: lexemes)
  | unsigned {formula : Formula} {lexemes : List Lexeme} (power : Writes .power formula lexemes) :
      Writes .unary formula lexemes
  -- the operators of a level group to the left
  | single {level : Level} {formula : Formula} {lexemes : List Lexeme}
      (operand : Writes level.operand formula lexemes) : Writes (.run level) formula lexemes
  | step {level : Level} {left right : Formula} {op : BinaryOperator} {sign : Lexeme} {first last : List Lexeme}
      (run : Writes (.run level) left first) (spelled : operatorOf? level.operators sign = some op)
      (operand : Writes level.operand right last) :
      Writes (.run level) (.binary op left right) (first ++ sign :: last)
  -- comparisons do not group at all
  | unrelated {formula : Formula} {lexemes : List Lexeme} (sum : Writes (.run .sum) formula lexemes) :
      Writes .relation formula lexemes
  | related {left right : Formula} {op : BinaryOperator} {sign : Lexeme} {first last : List Lexeme}
      (sum : Writes (.run .sum) left first) (spelled : sign.token.binaryOperator? = some op)
      (compares : op.isComparison = true) (other : Writes (.run .sum) right last) :
      Writes .relation (.binary op left right) (first ++ sign :: last)
  | unconditional {formula : Formula} {lexemes : List Lexeme}
      (disjunction : Writes (.run .disjunction) formula lexemes) : Writes .conditional formula lexemes
  | chosen {condition consequent alternative : Formula} {question colon : Lexeme} {first second third : List Lexeme}
      (disjunction : Writes (.run .disjunction) condition first) (asked : question.is .question = true)
      (branch : Writes .assignment consequent second) (separated : colon.is .colon = true)
      (other : Writes .assignment alternative third) :
      Writes .conditional (.conditional condition consequent alternative)
        (first ++ question :: (second ++ colon :: third))
  | unassigned {formula : Formula} {lexemes : List Lexeme} (conditional : Writes .conditional formula lexemes) :
      Writes .assignment formula lexemes
  | assigned {value : Formula} {word sign : Lexeme} {lexemes : List Lexeme} (spelled : word.token = .name word.text)
      (assigned : sign.is .assign = true) (behind : Writes .assignment value lexemes) :
      Writes .assignment (.assignment word.text value) (word :: sign :: lexemes)

end Formula

end LiveExpr
