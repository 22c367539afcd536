import LiveExpr.Number.Notation
import LiveExpr.Proofs.Precedence.Formula

/-!
Formulas as lexemes with the fewest parentheses. A formula is put into parentheses where it is looser than the place
that it stands in, and an assignment everywhere but on its own and behind another assignment.
-/

namespace LiveExpr

namespace BinaryOperator

def terminal : BinaryOperator → Terminal
  | add => .plus | sub => .minus | mul => .star | div => .slash | mod => .percent | pow => .caret
  | less => .less | lessEqual => .lessEqual | greater => .greater | greaterEqual => .greaterEqual
  | equal => .doubleEqual | notEqual => .bangEqual
  | and => .andWord | or => .orWord | xor => .xorWord | nand => .nandWord | nor => .norWord | xnor => .xnorWord

def looseness : BinaryOperator → Nat
  | pow => 1
  | mul | div | mod => 3
  | add | sub => 4
  | less | lessEqual | greater | greaterEqual | equal | notEqual => 5
  | and | nand => 6
  | xor | xnor => 7
  | or | nor => 8

/-- How loose the left operand may be. -/
def leftLooseness : BinaryOperator → Nat
  | pow => 0
  | less | lessEqual | greater | greaterEqual | equal | notEqual => 4
  | op => op.looseness

/-- How loose the right operand may be. -/
def rightLooseness : BinaryOperator → Nat
  | pow => 2
  | op => op.looseness - 1

end BinaryOperator

def UnaryOperator.terminal : UnaryOperator → Terminal
  | negate => .minus
  | not => .notWord

namespace Formula

open Grammar (Phrase Level)

/-- The phrases in the order of their looseness. -/
def phrase : Nat → Phrase
  | 0 => .primary
  | 1 => .power
  | 2 => .unary
  | 3 => .run .product
  | 4 => .run .sum
  | 5 => .relation
  | 6 => .run .conjunction
  | 7 => .run .exclusion
  | 8 => .run .disjunction
  | 9 => .conditional
  | _ => .assignment

def spelled (terminal : Terminal) : Lexeme :=
  lexemeOf (.fixed terminal) terminal.spelling

/-- Puts what has the first looseness into parentheses if the place has not room for it. -/
def enclosed (looseness place : Nat) (lexemes : List Lexeme) : List Lexeme :=
  if looseness ≤ place then lexemes else spelled .leftParen :: (lexemes ++ [spelled .rightParen])

/-- The formula where a phrase of the given looseness stands. -/
def lexemes : Formula → (place : Nat) → List Lexeme
  | .constant value, _ => [lexemeOf (.number value) (Number.plain value)]
  | .variable name, _ => [lexemeOf (.name name) name]
  | .unary op operand, place => enclosed 2 place (spelled op.terminal :: operand.lexemes 2)
  | .binary op left right, place =>
    enclosed op.looseness place
      (left.lexemes op.leftLooseness ++ spelled op.terminal :: right.lexemes op.rightLooseness)
  | .conditional condition consequent alternative, place =>
    enclosed 9 place
      (condition.lexemes 8 ++ spelled .question ::
        (consequent.lexemes 9 ++ spelled .colon :: alternative.lexemes 9))
  | .assignment name value, place =>
    enclosed 10 place (lexemeOf (.name name) name :: spelled .assign :: value.lexemes 10)

variable {formula : Formula} {written : List Lexeme} {looseness place : Nat}

theorem Writes.looser_succ (writes : Writes (phrase place) formula written) :
    Writes (phrase (place + 1)) formula written := by
  match place, writes with
  | 0, writes => exact .base writes
  | 1, writes => exact .unsigned writes
  | 2, writes | 3, writes | 5, writes | 6, writes | 7, writes => exact .single writes
  | 4, writes => exact .unrelated writes
  | 8, writes => exact .unconditional writes
  | 9, writes => exact .unassigned writes
  | place + 10, writes => exact writes

theorem Writes.looser (writes : Writes (phrase looseness) formula written) (room : looseness ≤ place) :
    Writes (phrase place) formula written := by
  induction room with
  | refl => exact writes
  | step _ induction => exact induction.looser_succ

theorem Writes.enclosed (writes : Writes (phrase looseness) formula written) (bounded : looseness ≤ 10) :
    Writes (phrase place) formula (enclosed looseness place written) := by
  unfold Formula.enclosed
  split
  · next room => exact writes.looser room
  · have parenthesized : Writes (phrase 0) formula (spelled .leftParen :: (written ++ [spelled .rightParen])) :=
      .parentheses rfl (writes.looser bounded) rfl
    exact parenthesized.looser (Nat.zero_le place)

theorem writes_binary (op : BinaryOperator) {left right : Formula} {first last : List Lexeme}
    (writesLeft : Writes (phrase op.leftLooseness) left first)
    (writesRight : Writes (phrase op.rightLooseness) right last) :
    Writes (phrase op.looseness) (.binary op left right) (first ++ spelled op.terminal :: last) := by
  cases op with
  | pow => exact .raised writesLeft rfl writesRight
  | mul | div | mod => exact .step writesLeft rfl writesRight
  | add | sub => exact .step writesLeft rfl writesRight
  | and | nand => exact .step writesLeft rfl writesRight
  | xor | xnor => exact .step writesLeft rfl writesRight
  | or | nor => exact .step writesLeft rfl writesRight
  | less | lessEqual | greater | greaterEqual | equal | notEqual => exact .related writesLeft rfl rfl writesRight

/-- Every formula can be written where any phrase stands. -/
theorem writes_lexemes (formula : Formula) (place : Nat) : Writes (phrase place) formula (formula.lexemes place) := by
  induction formula generalizing place with
  | constant value =>
    have writes : Writes (phrase 0) (.constant value) [lexemeOf (.number value) (Number.plain value)] := .constant rfl
    exact writes.looser (Nat.zero_le place)
  | «variable» name =>
    have writes : Writes (phrase 0) (.variable name) [lexemeOf (.name name) name] :=
      @Writes.variable (lexemeOf (.name name) name) rfl
    exact writes.looser (Nat.zero_le place)
  | unary op operand induction =>
    refine Writes.enclosed (.signed ?_ (induction 2)) (by decide)
    cases op <;> rfl
  | binary op left right inductionLeft inductionRight =>
    refine (writes_binary op (inductionLeft _) (inductionRight _)).enclosed ?_
    cases op <;> decide
  | conditional condition consequent alternative inductionCondition inductionConsequent inductionAlternative =>
    have branch : Writes .assignment consequent (consequent.lexemes 9) :=
      (inductionConsequent 9).looser (Nat.le_succ 9)
    have other : Writes .assignment alternative (alternative.lexemes 9) :=
      (inductionAlternative 9).looser (Nat.le_succ 9)
    have writes : Writes (phrase 9) (.conditional condition consequent alternative)
        (condition.lexemes 8 ++ spelled .question ::
          (consequent.lexemes 9 ++ spelled .colon :: alternative.lexemes 9)) :=
      .chosen (inductionCondition 8) rfl branch rfl other
    exact writes.enclosed (by decide)
  | assignment name value induction =>
    have writes : Writes (phrase 10) (.assignment name value)
        (lexemeOf (.name name) name :: spelled .assign :: value.lexemes 10) :=
      @Writes.assigned value (lexemeOf (.name name) name) (spelled .assign) _ rfl rfl (induction 10)
    exact writes.enclosed (by decide)

/-- Left operands need no parentheses within a level, right operands do. -/
example : ((Formula.binary .sub (.binary .sub (.variable "a") (.variable "b"))
    (.binary .add (.variable "c") (.variable "d"))).lexemes 10).map (·.text) =
      ["a", "-", "b", "-", "(", "c", "+", "d", ")"] := by decide

end Formula

end LiveExpr
