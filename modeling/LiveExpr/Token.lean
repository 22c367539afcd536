import LiveExpr.Text.Bytes

/-!
The tokens of formulas. A token is a number, a string, a name, or one of the terminals, whose spelling is
fixed: keywords, punctuation and operators.
-/

namespace LiveExpr

/-- A token with a fixed spelling. -/
inductive Terminal where
  | trueWord | falseWord | andWord | orWord | notWord | xorWord | nandWord | norWord | xnorWord
  | ifWord | elseWord | whileWord | forWord | switchWord | caseWord | defaultWord | varWord
  | inWord | likeWord | ilikeWord
  | leftParen | rightParen | leftBracket | rightBracket | leftBrace | rightBrace
  | comma | semicolon | colon | question
  | assign | plusAssign | minusAssign | timesAssign | overAssign | modAssign
  | plus | minus | star | slash | percent | caret
  | doubleEqual | equal | bangEqual | lessGreater | lessEqual | greaterEqual | less | greater
  | bang | ampersand | pipe
deriving DecidableEq, Repr

/-- The groups of tokens that diagnostics name. -/
inductive Category where
  | number | text | name | keyword | punctuation | operator
deriving DecidableEq, Repr

namespace Category

def label : Category → String
  | number => "NUMBER"
  | text => "STRING"
  | name => "SYMBOL"
  | keyword => "KEYWORD"
  | punctuation => "PUNCTUATION"
  | operator => "OPERATOR"

end Category

namespace Terminal

def spelling : Terminal → String
  | trueWord => "true" | falseWord => "false" | andWord => "and" | orWord => "or" | notWord => "not"
  | xorWord => "xor" | nandWord => "nand" | norWord => "nor" | xnorWord => "xnor"
  | ifWord => "if" | elseWord => "else" | whileWord => "while" | forWord => "for"
  | switchWord => "switch" | caseWord => "case" | defaultWord => "default" | varWord => "var"
  | inWord => "in" | likeWord => "like" | ilikeWord => "ilike"
  | leftParen => "(" | rightParen => ")" | leftBracket => "[" | rightBracket => "]"
  | leftBrace => "\x7b" | rightBrace => "\x7d"
  | comma => "," | semicolon => ";" | colon => ":" | question => "?"
  | assign => ":=" | plusAssign => "+=" | minusAssign => "-=" | timesAssign => "*="
  | overAssign => "/=" | modAssign => "%="
  | plus => "+" | minus => "-" | star => "*" | slash => "/" | percent => "%" | caret => "^"
  | doubleEqual => "==" | equal => "=" | bangEqual => "!=" | lessGreater => "<>"
  | lessEqual => "<=" | greaterEqual => ">=" | less => "<" | greater => ">"
  | bang => "!" | ampersand => "&" | pipe => "|"

/-- The terminals that are spelled like names. None of them can be a name. -/
def keywords : List Terminal :=
  [trueWord, falseWord, andWord, orWord, notWord, xorWord, nandWord, norWord, xnorWord, ifWord, elseWord,
    whileWord, forWord, switchWord, caseWord, defaultWord, varWord, inWord, likeWord, ilikeWord]

/-- The keyword with the given spelling. -/
def keyword? (word : String) : Option Terminal :=
  keywords.find? (·.spelling == word)

def category : Terminal → Category
  | leftParen | rightParen | leftBracket | rightBracket | leftBrace | rightBrace
  | comma | semicolon | colon | question => .punctuation
  | terminal => if keywords.contains terminal then .keyword else .operator

end Terminal

/-- One token with the value that it carries. -/
inductive Token where
  | number (value : Float)
  | text (content : Bytes)
  | name (name : String)
  | fixed (terminal : Terminal)

def Token.category : Token → Category
  | number _ => .number
  | text _ => .text
  | name _ => .name
  | fixed terminal => terminal.category

/-! ## Positions -/

/-- A place in a source text. Lines and columns count from one, columns in characters. -/
structure Position where
  line : Nat
  column : Nat
deriving DecidableEq, Repr

namespace Position

def start : Position := ⟨1, 1⟩

def next (position : Position) (c : Char) : Position :=
  if c = '\n' then ⟨position.line + 1, 1⟩ else ⟨position.line, position.column + 1⟩

/-- The place after a run of characters. -/
def after (position : Position) (characters : List Char) : Position :=
  characters.foldl next position

end Position

/-- A token with the exact text that it was read from and the place where that text starts. -/
structure Lexeme where
  token : Token
  text : String
  position : Position

end LiveExpr
