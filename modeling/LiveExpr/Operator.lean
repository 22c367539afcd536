import LiveExpr.Number.Functions
import LiveExpr.Text.Wildcard
import LiveExpr.Token

/-!
The operators of formulas and what they compute on values. Comparisons and logical operators give `1` or
`0`; everything else follows the arithmetic of doubles, where nothing fails.
-/

namespace LiveExpr

/-- The kinds of values. -/
inductive Kind where
  | scalar | string | vector
deriving DecidableEq, Repr

namespace Kind

def label : Kind → String
  | scalar => "scalar"
  | string => "string"
  | vector => "vector"

/-- The values of a kind: a number, a byte string, or a fixed count of numbers. -/
abbrev Content : Kind → Type
  | scalar => Float
  | string => Bytes
  | vector => List Float

/-- The value where there is nothing to evaluate. -/
def blank : (kind : Kind) → kind.Content
  | scalar => Number.nan
  | string => []
  | vector => []

end Kind

/-- Operators in front of their operand. -/
inductive UnaryOperator where
  | negate | not
deriving DecidableEq, Repr

/-- Operators between two scalars. The arithmetic ones also work on vectors, and the comparisons also on
strings. -/
inductive BinaryOperator where
  | add | sub | mul | div | mod | pow
  | less | lessEqual | greater | greaterEqual | equal | notEqual
  | and | or | xor | nand | nor | xnor
deriving DecidableEq, Repr

/-- Operators that test one string against another. -/
inductive StringOperator where
  | within | like | likeIgnoringCase
deriving DecidableEq, Repr

/-- Reductions of a list of numbers to one. -/
inductive Aggregate where
  | min | max | sum | average | product
deriving DecidableEq, Repr

namespace UnaryOperator

def apply : UnaryOperator → Float → Float
  | negate, x => -x
  | not, x => Number.ofBool (!Number.isTrue x)

end UnaryOperator

namespace BinaryOperator

def label : BinaryOperator → String
  | add => "+" | sub => "-" | mul => "*" | div => "/" | mod => "%" | pow => "^"
  | less => "<" | lessEqual => "<=" | greater => ">" | greaterEqual => ">=" | equal => "==" | notEqual => "!="
  | and => "and" | or => "or" | xor => "xor" | nand => "nand" | nor => "nor" | xnor => "xnor"

def isArithmetic : BinaryOperator → Bool
  | add | sub | mul | div | mod | pow => true
  | _ => false

def isComparison : BinaryOperator → Bool
  | less | lessEqual | greater | greaterEqual | equal | notEqual => true
  | _ => false

/-- The value of an arithmetic operator; NaN for any other. -/
def arithmetic : BinaryOperator → Float → Float → Float
  | add, left, right => left + right
  | sub, left, right => left - right
  | mul, left, right => left * right
  | div, left, right => left / right
  | mod, left, right => Number.remainder left right
  | pow, left, right => Float.pow left right
  | _, _, _ => Number.nan

/-- Whether a comparison holds of two values in the given order. Without an order, only the inequality
does. -/
def holds : BinaryOperator → Option Ordering → Bool
  | notEqual, none => true
  | _, none => false
  | less, some order => order == .lt
  | lessEqual, some order => order != .gt
  | greater, some order => order == .gt
  | greaterEqual, some order => order != .lt
  | equal, some order => order == .eq
  | notEqual, some order => order != .eq
  | _, some _ => false

def compare (op : BinaryOperator) (left right : Float) : Bool :=
  op.holds (Number.order? left right)

/-- The truth table of a logical operator. -/
def logic : BinaryOperator → Bool → Bool → Bool
  | and, left, right => left && right
  | or, left, right => left || right
  | xor, left, right => left != right
  | nand, left, right => !(left && right)
  | nor, left, right => !(left || right)
  | xnor, left, right => left == right
  | _, _, _ => false

/-- The value of any operator on two scalars. -/
def apply (op : BinaryOperator) (left right : Float) : Float :=
  if op.isArithmetic then op.arithmetic left right
  else if op.isComparison then Number.ofBool (op.compare left right)
  else Number.ofBool (op.logic (Number.isTrue left) (Number.isTrue right))

/-- The value that the left operand settles alone: `and` needs no right operand after a false one, and `or`
none after a true one. -/
def settled? : BinaryOperator → Float → Option Float
  | and, left => if Number.isTrue left then none else some 0.0
  | or, left => if Number.isTrue left then some 1.0 else none
  | _, _ => none

end BinaryOperator

namespace StringOperator

def test : StringOperator → Bytes → Bytes → Bool
  | within, left, right => Bytes.contains left right
  | like, left, right => Wildcard.isMatch left right false
  | likeIgnoringCase, left, right => Wildcard.isMatch left right true

end StringOperator

namespace Aggregate

/-- The reduction of a list, from its first number on; NaN for the empty list. -/
def apply (op : Aggregate) : List Float → Float
  | [] => Number.nan
  | first :: rest =>
    match op with
    | min => rest.foldl Number.smaller first
    | max => rest.foldl Number.larger first
    | sum => rest.foldl (· + ·) first
    | product => rest.foldl (· * ·) first
    | average => rest.foldl (· + ·) first / Float.ofNat (rest.length + 1)

end Aggregate

/-! ## Operators by their tokens -/

namespace Terminal

/-- The operator between scalars that a terminal spells. Some operators have two spellings. -/
def binaryOperator? : Terminal → Option BinaryOperator
  | plus => some .add
  | minus => some .sub
  | star => some .mul
  | slash => some .div
  | percent => some .mod
  | caret => some .pow
  | less => some .less
  | lessEqual => some .lessEqual
  | greater => some .greater
  | greaterEqual => some .greaterEqual
  | doubleEqual | equal => some .equal
  | bangEqual | lessGreater => some .notEqual
  | andWord | ampersand => some .and
  | orWord | pipe => some .or
  | xorWord => some .xor
  | nandWord => some .nand
  | norWord => some .nor
  | xnorWord => some .xnor
  | _ => none

def stringOperator? : Terminal → Option StringOperator
  | inWord => some .within
  | likeWord => some .like
  | ilikeWord => some .likeIgnoringCase
  | _ => none

/-- Whether the terminal stands between the two sides of a comparison. -/
def isRelation (terminal : Terminal) : Bool :=
  terminal.stringOperator?.isSome || terminal.binaryOperator?.any BinaryOperator.isComparison

/-- What an assignment sign does: nothing but assign, or combine with the old value first. -/
def assignment? : Terminal → Option (Option BinaryOperator)
  | assign => some none
  | plusAssign => some (some .add)
  | minusAssign => some (some .sub)
  | timesAssign => some (some .mul)
  | overAssign => some (some .div)
  | modAssign => some (some .mod)
  | _ => none

end Terminal

namespace Token

def binaryOperator? : Token → Option BinaryOperator
  | fixed terminal => terminal.binaryOperator?
  | _ => none

def stringOperator? : Token → Option StringOperator
  | fixed terminal => terminal.stringOperator?
  | _ => none

end Token

end LiveExpr
