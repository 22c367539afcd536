import LiveExpr.Symbol.Name
import LiveExpr.Token.Scan

/-!
What can be wrong with a formula. A problem is a cause; its wording and the phase of compilation that it
belongs to are functions of the cause.
-/

namespace LiveExpr

/-- The phases of compilation that find problems. -/
inductive Phase where
  /-- A piece of text is not a token. -/
  | lexical
  /-- The tokens do not fit together. -/
  | grammatical
  /-- A name has no meaning. -/
  | symbolic
  /-- The parts have kinds that do not fit together. -/
  | kinds
deriving DecidableEq, Repr

def Phase.label : Phase → String
  | lexical => "lexer"
  | grammatical => "syntax"
  | symbolic => "symbol"
  | kinds => "type"

def Malformation.message : Malformation → String
  | strayCharacter => "invalid character"
  | numberWithoutExponent => "malformed number literal"
  | openText => "unterminated string literal"
  | openComment => "unterminated comment"
  | badEscape => "invalid escape sequence in string literal"

/-- What the grammar requires at some place. -/
inductive Expectation where
  | blockEnd | listEnd
  | conditionalColon
  | ifOpen | ifComma | ifEnd | conditionEnd
  | whileOpen | whileEnd
  | forOpen | afterInitializer | afterLoopCondition | forEnd
  | switchOpen | caseColon | caseEnd | caseOrDefault | defaultColon | switchEnd
  | rangeEnd | indexEnd | sizeEnd
  | declaredName
deriving DecidableEq, Repr

def Expectation.label : Expectation → String
  | blockEnd => "';' or a closing bracket"
  | listEnd => "',' or a closing bracket"
  | conditionalColon => "':' in conditional expression"
  | ifOpen => "'(' after 'if'"
  | ifComma => "',' in 'if'"
  | ifEnd => "')' after 'if' arguments"
  | conditionEnd => "')' after condition"
  | whileOpen => "'(' after 'while'"
  | whileEnd => "')' after loop condition"
  | forOpen => "'(' after 'for'"
  | afterInitializer => "';' after loop initializer"
  | afterLoopCondition => "';' after loop condition"
  | forEnd => "')' after loop increment"
  | switchOpen => "'\x7b' after 'switch'"
  | caseColon => "':' after case condition"
  | caseEnd => "';' after case result"
  | caseOrDefault => "'case' or 'default'"
  | defaultColon => "':' after 'default'"
  | switchEnd => "'\x7d' after switch"
  | rangeEnd => "']' after range"
  | indexEnd => "']' after index"
  | sizeEnd => "']' after vector size"
  | declaredName => "a name after 'var'"

/-- What a part of a formula is used as, where only one kind of value will do. -/
inductive Role where
  | condition | loopCondition | caseCondition | caseResult | defaultResult
  | index | rangeStart | rangeEnd
  | argument | vectorElement
  | assignedValue | elementValue
  | operandOfNot
  | operandOf (op : BinaryOperator)
deriving DecidableEq, Repr

def Role.label : Role → String
  | condition => "condition"
  | loopCondition => "loop condition"
  | caseCondition => "case condition"
  | caseResult => "case result"
  | defaultResult => "default result"
  | index => "index"
  | rangeStart => "range start"
  | rangeEnd => "range end"
  | argument => "argument"
  | vectorElement => "vector element"
  | assignedValue => "assigned value"
  | elementValue => "element value"
  | operandOfNot => "operand of 'not'"
  | operandOf op => "operand of '" ++ op.label ++ "'"

/-- The causes of failed compilations. -/
inductive Problem where
  | malformed (cause : Malformation)
  -- the grammar
  | emptyFormula
  | emptyBlock
  | unexpected (text : String)
  | unexpectedEnd
  | expected (wanted : Expectation) (found : Option String)
  | badVectorSize (found : Option String)
  | chainedComparison
  | tooDeep (limit : Nat)
  | bareFunction (name : String)
  | wrongArity (name : String) (arity : Arity) (given : Nat)
  -- symbols
  | undefinedSymbol (name : String)
  | undefinedFunction (name : String)
  | refused (reason : String)
  | rejected (error : BindingError)
  -- kinds
  | notScalar (role : Role) (found : Kind)
  | notString (role : Role) (found : Kind)
  | signOfString (sign : String)
  | notIndexable (found : Kind)
  | notSliceable (found : Kind)
  | scalarSize
  | operands (op : BinaryOperator) (left right : Kind)
  | notStrings (operator : String) (left right : Kind)
  | notComparable (left right : Kind)
  | vectorBranch
  | unlikeBranches (left right : Kind)
  | notFunction (name : String)
  | noVectorArgument (name : String)
  | unsizedVector (name : String)
  | tooManyElements (count : Nat) (name : String) (size : Nat)
  | vectorFromString (name : String)
  | reservedName (name : String)
  | alreadyDefined (name : String)
  | constantTarget (name : String)
  | functionTarget (name : String)
  | notVector (name : String)
  | stringAssignment (operator : String)
  | stringIntoVector (name : String)

namespace Problem

def quoted (text : String) : String :=
  "'" ++ text ++ "'"

/-- What was found at a place: the text of a token, or nothing more. -/
def foundText : Option String → String
  | some text => quoted text
  | none => "end of expression"

def message : Problem → String
  | malformed cause => cause.message
  | emptyFormula => "empty expression"
  | emptyBlock => "empty block"
  | unexpected text => "unexpected token " ++ quoted text
  | unexpectedEnd => "unexpected end of expression"
  | expected wanted found => "expected " ++ wanted.label ++ ", found " ++ foundText found
  | badVectorSize found => "vector size must be a positive integer, found " ++ foundText found
  | chainedComparison => "comparison operators do not chain"
  | tooDeep limit => "expression nesting exceeds " ++ toString limit ++ " levels"
  | bareFunction name => "expected '(' after function " ++ quoted name
  | wrongArity name arity given =>
    "arity mismatch: " ++ quoted name ++ " takes " ++ arity.label ++ ", got " ++ toString given
  | undefinedSymbol name => "undefined symbol: " ++ quoted name
  | undefinedFunction name => "undefined function: " ++ quoted name
  | refused reason => reason
  | rejected error => error.message
  | notScalar role found => role.label ++ " must be a scalar, found a " ++ found.label
  | notString role found => role.label ++ " must be a string, found a " ++ found.label
  | signOfString sign => "unary " ++ quoted sign ++ " cannot be applied to a string"
  | notIndexable found => "a " ++ found.label ++ " cannot be indexed; use a range to slice strings"
  | notSliceable found => "a " ++ found.label ++ " cannot be sliced"
  | scalarSize => "a scalar has no size"
  | operands op left right =>
    "operator " ++ quoted op.label ++ " cannot be applied to a " ++ left.label ++ " and a " ++ right.label
  | notStrings operator left right =>
    "operator " ++ quoted operator ++ " requires two strings, found a " ++ left.label ++ " and a " ++
      right.label
  | notComparable left right => "cannot compare a " ++ left.label ++ " with a " ++ right.label
  | vectorBranch => "conditional branches cannot be vectors"
  | unlikeBranches left right =>
    "conditional branches must have the same kind, found a " ++ left.label ++ " and a " ++ right.label
  | notFunction name => quoted name ++ " is not a function"
  | noVectorArgument name => quoted name ++ " does not accept a vector"
  | unsizedVector name => "declare vectors with a size, as in 'var " ++ name ++ "[n]'"
  | tooManyElements count name size =>
    toString count ++ " initializers given for vector " ++ quoted name ++ " of size " ++ toString size
  | vectorFromString name => "vector " ++ quoted name ++ " cannot be initialised from a string"
  | reservedName name => quoted name ++ " is reserved"
  | alreadyDefined name => quoted name ++ " is already defined"
  | constantTarget name => "cannot assign to constant " ++ quoted name
  | functionTarget name => "cannot assign to function " ++ quoted name
  | notVector name => quoted name ++ " is not a vector"
  | stringAssignment operator => "operator " ++ quoted operator ++ " cannot be applied to a string"
  | stringIntoVector name => "cannot assign a string to vector " ++ quoted name

/-- The phase of compilation that finds the problem. -/
def phase : Problem → Phase
  | malformed _ => .lexical
  | emptyFormula | emptyBlock | unexpected _ | unexpectedEnd | expected .. | badVectorSize _
  | chainedComparison | tooDeep _ | bareFunction _ | wrongArity .. => .grammatical
  | undefinedSymbol _ | undefinedFunction _ | refused _ | rejected _ => .symbolic
  | _ => .kinds

end Problem

end LiveExpr
