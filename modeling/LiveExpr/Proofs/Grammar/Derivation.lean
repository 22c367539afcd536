import LiveExpr.Grammar

/-!
The grammar of formulas as a relation between its phrases and lists of lexemes. It says nothing about how a phrase
is found; the readers have to find it.
-/

namespace LiveExpr

/-! ## Kinds of tokens -/

namespace Token

def isName : Token → Bool
  | name _ => true
  | _ => false

/-- Whether the token is a number, a string or a truth value. -/
def isLiteral : Token → Bool
  | number _ | text _ | fixed .trueWord | fixed .falseWord => true
  | _ => false

/-- Whether the token is an operator that stands in front of its operand. -/
def isSign : Token → Bool
  | fixed .minus | fixed .plus | fixed .bang | fixed .notWord => true
  | _ => false

def assigns : Token → Bool
  | fixed terminal => terminal.assignment?.isSome
  | _ => false

end Token

namespace Grammar

/-! ## Phrases -/

/-- The levels of the binary operators that group to the left. -/
inductive Level where
  | product | sum | conjunction | exclusion | disjunction

/-- The phrases of the grammar. Some of them are the rests of others. -/
inductive Phrase where
  | program
  /-- What stands between the brackets of a block. -/
  | block
  | statement
  /-- A declaration behind its keyword. -/
  | declaration
  /-- What may follow the size in the declaration of a vector. -/
  | initializer
  | assignment
  | conditional
  /-- Operands of a level with the operators between them. -/
  | run (level : Level)
  /-- Operators of a level, each with the operand behind it. -/
  | steps (level : Level)
  | relation
  | unary
  | power
  | subscripts
  | primary
  /-- So many formulas with commas between them. -/
  | list (count : Nat)
  /-- What a condition or loop governs. -/
  | body
  /-- The second branch of a condition, with its keyword. -/
  | otherwise
  | cases
  /-- A semicolon that may be left out. -/
  | separator
  | optional (phrase : Phrase)

namespace Level

def operators : Level → List BinaryOperator
  | product => [.mul, .div, .mod]
  | sum => [.add, .sub]
  | conjunction => [.and, .nand]
  | exclusion => [.xor, .xnor]
  | disjunction => [.or, .nor]

def operand : Level → Phrase
  | product => .unary
  | sum => .run product
  | conjunction => .relation
  | exclusion => .run conjunction
  | disjunction => .run exclusion

end Level

/-- What is left open by the rules of the grammar. -/
structure Dialect where
  /-- A body may be a statement without braces. -/
  looseBody : Prop
  /-- The name may stand for a value. -/
  value (word : Lexeme) : Prop
  /-- The name may be called with so many arguments. -/
  call (word : Lexeme) (count : Nat) : Prop
  /-- The token may be the size of a vector. -/
  size (token : Token) : Prop
  size_number (token : Token) (sized : size token) : token.category = .number
  /-- The formula may be what a vector is filled from. -/
  filling (formula : List Lexeme) : Prop

/-! ## Derivations -/

/-- Whether the rules of the grammar derive the lexemes from the phrase. -/
inductive Derives (dialect : Dialect) : Phrase → List Lexeme → Prop
  | lastStatement {before only after : List Lexeme} (leading : ∀ one ∈ before, one.is .semicolon = true)
      (statement : Derives dialect .statement only) (trailing : ∀ one ∈ after, one.is .semicolon = true) :
      Derives dialect .program (before ++ (only ++ after))
  | nextStatement {before first rest : List Lexeme} {semicolon : Lexeme}
      (leading : ∀ one ∈ before, one.is .semicolon = true) (statement : Derives dialect .statement first)
      (separated : semicolon.is .semicolon = true) (more : Derives dialect .program rest) :
      Derives dialect .program (before ++ (first ++ semicolon :: rest))
  -- blocks
  | noSeparator : Derives dialect .separator []
  | separator {semicolon : Lexeme} (spelled : semicolon.is .semicolon = true) :
      Derives dialect .separator [semicolon]
  | result {last after : List Lexeme} (statement : Derives dialect .statement last)
      (trailing : Derives dialect .separator after) : Derives dialect .block (last ++ after)
  | effect {first rest : List Lexeme} {semicolon : Lexeme} (statement : Derives dialect .statement first)
      (separated : semicolon.is .semicolon = true) (more : Derives dialect .block rest) :
      Derives dialect .block (first ++ semicolon :: rest)
  -- statements
  | declared {word : Lexeme} {rest : List Lexeme} (spelled : word.is .varWord = true)
      (declaration : Derives dialect .declaration rest) : Derives dialect .statement (word :: rest)
  | formula {lexemes : List Lexeme} (assignment : Derives dialect .assignment lexemes) :
      Derives dialect .statement lexemes
  | zero {word : Lexeme} (name : word.token.isName = true) : Derives dialect .declaration [word]
  | initialized {word sign : Lexeme} {value : List Lexeme} (name : word.token.isName = true)
      (assigned : sign.is .assign = true) (formula : Derives dialect .assignment value) :
      Derives dialect .declaration (word :: sign :: value)
  | vector {word opening number closing : Lexeme} {rest : List Lexeme} (name : word.token.isName = true)
      (opened : opening.is .leftBracket = true) (sized : dialect.size number.token)
      (closed : closing.is .rightBracket = true) (filled : Derives dialect .initializer rest) :
      Derives dialect .declaration (word :: opening :: number :: closing :: rest)
  | noInitializer : Derives dialect .initializer []
  | listed {sign opening closing : Lexeme} {count : Nat} {elements : List Lexeme}
      (assigned : sign.is .assign = true) (opened : opening.is .leftBrace = true)
      (formulas : Derives dialect (.list count) elements) (closed : closing.is .rightBrace = true) :
      Derives dialect .initializer (sign :: opening :: (elements ++ [closing]))
  | filled {sign : Lexeme} {value : List Lexeme} (assigned : sign.is .assign = true)
      (filling : dialect.filling value) (formula : Derives dialect .assignment value) :
      Derives dialect .initializer (sign :: value)
  -- formulas
  | unassigned {lexemes : List Lexeme} (conditional : Derives dialect .conditional lexemes) :
      Derives dialect .assignment lexemes
  | assigned {word sign : Lexeme} {value : List Lexeme} (name : word.token.isName = true)
      (assigned : sign.token.assigns = true) (formula : Derives dialect .assignment value) :
      Derives dialect .assignment (word :: sign :: value)
  | elementAssigned {word opening closing sign : Lexeme} {index value : List Lexeme}
      (name : word.token.isName = true) (opened : opening.is .leftBracket = true)
      (place : Derives dialect .assignment index) (closed : closing.is .rightBracket = true)
      (assigned : sign.token.assigns = true) (formula : Derives dialect .assignment value) :
      Derives dialect .assignment (word :: opening :: (index ++ closing :: sign :: value))
  | unconditional {lexemes : List Lexeme} (disjunction : Derives dialect (.run .disjunction) lexemes) :
      Derives dialect .conditional lexemes
  | chosen {question colon : Lexeme} {condition consequent alternative : List Lexeme}
      (disjunction : Derives dialect (.run .disjunction) condition)
      (asked : question.is .question = true) (first : Derives dialect .assignment consequent)
      (separated : colon.is .colon = true) (second : Derives dialect .assignment alternative) :
      Derives dialect .conditional (condition ++ question :: (consequent ++ colon :: alternative))
  | run {level : Level} {first rest : List Lexeme} (operand : Derives dialect level.operand first)
      (steps : Derives dialect (.steps level) rest) : Derives dialect (.run level) (first ++ rest)
  | noStep {level : Level} : Derives dialect (.steps level) []
  | step {level : Level} {sign : Lexeme} {op : BinaryOperator} {right rest : List Lexeme}
      (spelled : operatorOf? level.operators sign = some op)
      (operand : Derives dialect level.operand right) (steps : Derives dialect (.steps level) rest) :
      Derives dialect (.steps level) (sign :: (right ++ rest))
  | unrelated {lexemes : List Lexeme} (sum : Derives dialect (.run .sum) lexemes) :
      Derives dialect .relation lexemes
  | related {sign : Lexeme} {left right : List Lexeme} (first : Derives dialect (.run .sum) left)
      (spelled : sign.isRelation = true) (second : Derives dialect (.run .sum) right) :
      Derives dialect .relation (left ++ sign :: right)
  | signed {sign : Lexeme} {rest : List Lexeme} (spelled : sign.token.isSign = true)
      (operand : Derives dialect .unary rest) : Derives dialect .unary (sign :: rest)
  | unsigned {lexemes : List Lexeme} (power : Derives dialect .power lexemes) :
      Derives dialect .unary lexemes
  | base {base rest : List Lexeme} (primary : Derives dialect .primary base)
      (subscripts : Derives dialect .subscripts rest) : Derives dialect .power (base ++ rest)
  | raised {base rest exponent : List Lexeme} {caret : Lexeme} (primary : Derives dialect .primary base)
      (subscripts : Derives dialect .subscripts rest) (spelled : caret.is .caret = true)
      (operand : Derives dialect .unary exponent) :
      Derives dialect .power (base ++ (rest ++ caret :: exponent))
  -- subscripts
  | noSubscript : Derives dialect .subscripts []
  | size {opening closing : Lexeme} {rest : List Lexeme} (opened : opening.is .leftBracket = true)
      (closed : closing.is .rightBracket = true) (more : Derives dialect .subscripts rest) :
      Derives dialect .subscripts (opening :: closing :: rest)
  | element {opening closing : Lexeme} {index rest : List Lexeme} (opened : opening.is .leftBracket = true)
      (place : Derives dialect .assignment index) (closed : closing.is .rightBracket = true)
      (more : Derives dialect .subscripts rest) :
      Derives dialect .subscripts (opening :: (index ++ closing :: rest))
  | range {opening colon closing : Lexeme} {first last rest : List Lexeme}
      (opened : opening.is .leftBracket = true) (lower : Derives dialect (.optional .assignment) first)
      (separated : colon.is .colon = true) (upper : Derives dialect (.optional .assignment) last)
      (closed : closing.is .rightBracket = true) (more : Derives dialect .subscripts rest) :
      Derives dialect .subscripts (opening :: (first ++ colon :: (last ++ closing :: rest)))
  | absent {phrase : Phrase} : Derives dialect (.optional phrase) []
  | present {phrase : Phrase} {lexemes : List Lexeme} (derived : Derives dialect phrase lexemes) :
      Derives dialect (.optional phrase) lexemes
  -- operands
  | literal {word : Lexeme} (spelled : word.token.isLiteral = true) : Derives dialect .primary [word]
  | name {word : Lexeme} (name : word.token.isName = true) (value : dialect.value word) :
      Derives dialect .primary [word]
  | call {word opening closing : Lexeme} {count : Nat} {arguments : List Lexeme} (name : word.token.isName = true)
      (opened : opening.is .leftParen = true) (formulas : Derives dialect (.list count) arguments)
      (closed : closing.is .rightParen = true) (callable : dialect.call word count) :
      Derives dialect .primary (word :: opening :: (arguments ++ [closing]))
  | parentheses {opening closing : Lexeme} {content : List Lexeme} (opened : opening.is .leftParen = true)
      (block : Derives dialect .block content) (closed : closing.is .rightParen = true) :
      Derives dialect .primary (opening :: (content ++ [closing]))
  | braces {opening closing : Lexeme} {content : List Lexeme} (opened : opening.is .leftBrace = true)
      (block : Derives dialect .block content) (closed : closing.is .rightBrace = true) :
      Derives dialect .primary (opening :: (content ++ [closing]))
  | noItem : Derives dialect (.list 0) []
  | lastItem {lexemes : List Lexeme} (formula : Derives dialect .assignment lexemes) :
      Derives dialect (.list 1) lexemes
  | nextItem {comma : Lexeme} {count : Nat} {first rest : List Lexeme}
      (formula : Derives dialect .assignment first) (separated : comma.is .comma = true)
      (more : Derives dialect (.list (count + 1)) rest) :
      Derives dialect (.list (count + 2)) (first ++ comma :: rest)
  -- forms
  | ifFunction {word opening comma second closing : Lexeme}
      {condition consequent alternative : List Lexeme} (spelled : word.is .ifWord = true)
      (opened : opening.is .leftParen = true) (asked : Derives dialect .assignment condition)
      (separated : comma.is .comma = true) (first : Derives dialect .assignment consequent)
      (separatedAgain : second.is .comma = true) (last : Derives dialect .assignment alternative)
      (closed : closing.is .rightParen = true) :
      Derives dialect .primary
        (word :: opening :: (condition ++ comma :: (consequent ++ second :: (alternative ++ [closing]))))
  | ifStatement {word opening closing : Lexeme} {condition consequent alternative : List Lexeme}
      (spelled : word.is .ifWord = true) (opened : opening.is .leftParen = true)
      (asked : Derives dialect .assignment condition) (closed : closing.is .rightParen = true)
      (first : Derives dialect .body consequent) (second : Derives dialect .otherwise alternative) :
      Derives dialect .primary (word :: opening :: (condition ++ closing :: (consequent ++ alternative)))
  | whileLoop {word opening closing : Lexeme} {condition governed : List Lexeme}
      (spelled : word.is .whileWord = true) (opened : opening.is .leftParen = true)
      (asked : Derives dialect .assignment condition) (closed : closing.is .rightParen = true)
      (body : Derives dialect .body governed) :
      Derives dialect .primary (word :: opening :: (condition ++ closing :: governed))
  | forLoop {word opening first second closing : Lexeme} {start condition step governed : List Lexeme}
      (spelled : word.is .forWord = true) (opened : opening.is .leftParen = true)
      (initialized : Derives dialect (.optional .statement) start) (separated : first.is .semicolon = true)
      (asked : Derives dialect (.optional .assignment) condition)
      (separatedAgain : second.is .semicolon = true)
      (stepped : Derives dialect (.optional .statement) step) (closed : closing.is .rightParen = true)
      (body : Derives dialect .body governed) :
      Derives dialect .primary
        (word :: opening :: (start ++ first :: (condition ++ second :: (step ++ closing :: governed))))
  | choice {word opening keyword colon closing : Lexeme} {found otherwise after : List Lexeme}
      (spelled : word.is .switchWord = true) (opened : opening.is .leftBrace = true)
      (tested : Derives dialect .cases found) (defaulted : keyword.is .defaultWord = true)
      (separated : colon.is .colon = true) (formula : Derives dialect .assignment otherwise)
      (trailing : Derives dialect .separator after) (closed : closing.is .rightBrace = true) :
      Derives dialect .primary
        (word :: opening :: (found ++ keyword :: colon :: (otherwise ++ (after ++ [closing]))))
  | noCase : Derives dialect .cases []
  | case {word colon semicolon : Lexeme} {condition value rest : List Lexeme}
      (spelled : word.is .caseWord = true) (asked : Derives dialect .assignment condition)
      (separated : colon.is .colon = true) (formula : Derives dialect .assignment value)
      (ended : semicolon.is .semicolon = true) (more : Derives dialect .cases rest) :
      Derives dialect .cases (word :: (condition ++ colon :: (value ++ semicolon :: rest)))
  | bracedBody {opening closing : Lexeme} {content : List Lexeme} (opened : opening.is .leftBrace = true)
      (block : Derives dialect .block content) (closed : closing.is .rightBrace = true) :
      Derives dialect .body (opening :: (content ++ [closing]))
  | looseBody {lexemes : List Lexeme} (allowed : dialect.looseBody)
      (statement : Derives dialect .statement lexemes) : Derives dialect .body lexemes
  | noOtherwise : Derives dialect .otherwise []
  | otherwise {word : Lexeme} {before branch : List Lexeme} (separated : Derives dialect .separator before)
      (spelled : word.is .elseWord = true) (body : Derives dialect .body branch) :
      Derives dialect .otherwise (before ++ word :: branch)

namespace Derives

variable {dialect : Dialect} {lexemes : List Lexeme}

theorem single {level : Level} (operand : Derives dialect level.operand lexemes) :
    Derives dialect (.run level) lexemes := by
  have derived := Derives.run operand .noStep
  rw [List.append_nil] at derived
  exact derived

/-- A formula without operators. -/
theorem bare (primary : Derives dialect .primary lexemes) : Derives dialect .assignment lexemes := by
  have power := Derives.base primary .noSubscript
  rw [List.append_nil] at power
  have sum : Derives dialect (.run .sum) lexemes := single (single (.unsigned power))
  exact .unassigned (.unconditional (single (single (single (.unrelated sum)))))

theorem alone (statement : Derives dialect .statement lexemes) : Derives dialect .program lexemes := by
  have derived := Derives.lastStatement (List.forall_mem_nil _) statement (List.forall_mem_nil _)
  rw [List.nil_append, List.append_nil] at derived
  exact derived

end Derives

/-- The grammar as it is documented. -/
def Dialect.documented : Dialect where
  looseBody := True
  value _ := True
  call _ _ := True
  size token := token.category = .number
  size_number _ sized := sized
  filling _ := True

def Dialect.braced : Dialect :=
  { Dialect.documented with looseBody := False }

end Grammar

/-! ## Lexemes apart -/

/-- A lexeme at the beginning of its source. -/
def lexemeOf (token : Token) (text : String) : Lexeme :=
  ⟨token, text, .start⟩

namespace Lexeme

variable {lexeme : Lexeme} {terminal : Terminal}

theorem token_of_is (spelled : lexeme.is terminal = true) : lexeme.token = .fixed terminal := by
  unfold is at spelled
  split at spelled
  · next found same =>
    rw [same, beq_iff_eq.mp spelled]
  · cases spelled

theorem is_of_token (spelled : lexeme.token = .fixed terminal) : lexeme.is terminal = true := by
  rw [is, spelled]
  exact beq_self_eq_true terminal

theorem of_is {property : Token → Bool} {value : Bool} (spelled : lexeme.is terminal = true)
    (holds : property (.fixed terminal) = value) : property lexeme.token = value := by
  rw [token_of_is spelled]
  exact holds

theorem is_eq_false {property : Token → Bool} (holds : property lexeme.token = true)
    (apart : property (.fixed terminal) = false) : lexeme.is terminal = false := by
  cases spelled : lexeme.is terminal with
  | false => rfl
  | true =>
    rw [of_is spelled apart] at holds
    cases holds

theorem is_eq_false_of_ne {other : Terminal} (spelled : lexeme.is terminal = true) (apart : terminal ≠ other) :
    lexeme.is other = false := by
  refine Bool.eq_false_iff.mpr fun again => apart ?_
  have same := (token_of_is spelled).symm.trans (token_of_is again)
  cases same
  rfl

end Lexeme

theorem startsWith_cons_eq_false {first : Lexeme} {terminal other : Terminal} (spelled : first.is terminal = true)
    (apart : terminal ≠ other) (rest : List Lexeme) : startsWith other (first :: rest) = false :=
  Lexeme.is_eq_false_of_ne spelled apart

end LiveExpr
