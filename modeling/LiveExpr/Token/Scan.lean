import LiveExpr.Number.Reading
import LiveExpr.Token
import LiveExpr.Token.Literal

/-!
Splitting a source text into tokens. At each place the longest token is taken; blanks and comments between
tokens are passed over. What is no token becomes a malformed piece, and the scan goes on behind it, so one
pass finds all of them.
-/

namespace LiveExpr

/-- The ways in which a piece of source text fails to be a token. -/
inductive Malformation where
  | strayCharacter
  | numberWithoutExponent
  | openText
  | openComment
  | badEscape
deriving DecidableEq, Repr

/-- A piece of source text that is not a token. -/
structure Malformed where
  cause : Malformation
  text : String
  position : Position

/-- What the scan reports: tokens and what should have been one. -/
inductive Piece where
  | lexeme (lexeme : Lexeme)
  | malformed (malformed : Malformed)

namespace Scan

/-- What the characters at some place are. -/
inductive Finding where
  | blank
  | token (token : Token)
  | fault (cause : Malformation)

/-! ## Single pieces

Each function looks at the characters after the first one of a piece, and says how many of them belong to it.
-/

def startsName (c : Char) : Bool :=
  c.isAlpha || c == '_'

def continuesName (c : Char) : Bool :=
  c.isAlphanum || c == '_'

def word (first : Char) (rest : List Char) : Finding × Nat :=
  let more := rest.takeWhile continuesName
  let spelling := String.ofList (first :: more)
  let token := match Terminal.keyword? spelling with
    | some terminal => .fixed terminal
    | none => .name spelling
  (.token token, more.length)

/-- The digits before the exponent of a number, with the point among them. -/
def mantissa (characters : List Char) : List Char :=
  characters.takeWhile Char.isDigit ++
    match characters.dropWhile Char.isDigit with
    | '.' :: rest => '.' :: rest.takeWhile Char.isDigit
    | _ => []

/-- A number, with the exponent that follows it. An exponent without digits makes the number malformed. -/
def number (first : Char) (rest : List Char) : Finding × Nat :=
  let mantissa := mantissa (first :: rest)
  let read (text : List Char) : Finding :=
    .token (.number (((Number.decimal? text).getD ⟨0, 0⟩).toFloat false))
  match (first :: rest).drop mantissa.length with
  | mark :: more =>
    if mark == 'e' || mark == 'E' then
      let sign := (more.take 1).filter fun c => c == '+' || c == '-'
      let digits := (more.drop sign.length).takeWhile Char.isDigit
      if digits.isEmpty then (.fault .numberWithoutExponent, mantissa.length + sign.length)
      else
        (read (mantissa ++ mark :: (sign ++ digits)), mantissa.length + sign.length + digits.length)
    else (read mantissa, mantissa.length - 1)
  | [] => (read mantissa, mantissa.length - 1)

/-- A string literal, from its opening quote. -/
def text (rest : List Char) : Finding × Nat :=
  let (inside, closed) := Literal.extent 0 rest
  if closed then
    match Literal.decode? (rest.take inside) with
    | some content => (.token (.text content), inside + 1)
    | none => (.fault .badEscape, inside + 1)
  else (.fault .openText, inside)

def lineComment (rest : List Char) : Finding × Nat :=
  (.blank, (rest.takeWhile fun c => c != '\n' && c != '\r').length)

/-- How many characters a block comment takes up to its end, after `taken` have been counted. -/
def blockEnd? (taken : Nat) : List Char → Option Nat
  | '*' :: '/' :: _ => some (taken + 2)
  | _ :: rest => blockEnd? (taken + 1) rest
  | [] => none

def blockComment (rest : List Char) : Finding × Nat :=
  match blockEnd? 1 (rest.drop 1) with
  | some length => (.blank, length)
  | none => (.fault .openComment, rest.length)

/-- The operator or punctuation that two characters spell. -/
def pair? (first second : Char) : Option Terminal :=
  match first, second with
  | ':', '=' => some .assign
  | '+', '=' => some .plusAssign
  | '-', '=' => some .minusAssign
  | '*', '=' => some .timesAssign
  | '/', '=' => some .overAssign
  | '%', '=' => some .modAssign
  | '=', '=' => some .doubleEqual
  | '!', '=' => some .bangEqual
  | '<', '>' => some .lessGreater
  | '<', '=' => some .lessEqual
  | '>', '=' => some .greaterEqual
  | _, _ => none

/-- The operator or punctuation that one character spells. -/
def single? (c : Char) : Option Terminal :=
  match c with
  | '(' => some .leftParen
  | ')' => some .rightParen
  | '[' => some .leftBracket
  | ']' => some .rightBracket
  | '\x7b' => some .leftBrace
  | '\x7d' => some .rightBrace
  | ',' => some .comma
  | ';' => some .semicolon
  | ':' => some .colon
  | '?' => some .question
  | '+' => some .plus
  | '-' => some .minus
  | '*' => some .star
  | '/' => some .slash
  | '%' => some .percent
  | '^' => some .caret
  | '=' => some .equal
  | '<' => some .less
  | '>' => some .greater
  | '!' => some .bang
  | '&' => some .ampersand
  | '|' => some .pipe
  | _ => none

/-- An operator or punctuation of two characters if there is one, else of one. -/
def symbol (first : Char) (rest : List Char) : Finding × Nat :=
  match rest.head?.bind (pair? first) with
  | some terminal => (.token (.fixed terminal), 1)
  | none =>
    match single? first with
    | some terminal => (.token (.fixed terminal), 0)
    | none => (.fault .strayCharacter, 0)

def isBlank (c : Char) : Bool :=
  c == ' ' || c == '\t' || c == '\r' || c == '\x0c' || c == '\n'

def longest (first : Char) (rest : List Char) : Finding × Nat :=
  if isBlank first then (.blank, 0)
  else if startsName first then word first rest
  else if first.isDigit || (first == '.' && rest.head?.any Char.isDigit) then number first rest
  else if first == '\x27' then text rest
  else if first == '#' then lineComment rest
  else if first == '/' && rest.head? == some '/' then lineComment rest
  else if first == '/' && rest.head? == some '*' then blockComment rest
  else symbol first rest

/-! ## The whole text -/

/-- The pieces of the characters at `position`, in front of which come those of `found` in reverse. -/
def pieces (found : List Piece) (position : Position) (characters : List Char) : List Piece :=
  match characters with
  | [] => found.reverse
  | first :: rest =>
    let (finding, extra) := longest first rest
    let text := first :: rest.take extra
    let found := match finding with
      | .blank => found
      | .token token => .lexeme ⟨token, String.ofList text, position⟩ :: found
      | .fault cause => .malformed ⟨cause, String.ofList text, position⟩ :: found
    pieces found (position.after text) (rest.drop extra)
termination_by characters.length

end Scan

/-- The pieces of a source text, in order. -/
def scan (source : String) : List Piece :=
  Scan.pieces [] .start source.toList

/-- The tokens of a source text, or all of its malformed pieces if it has any. -/
def tokenize (source : String) : Except (List Malformed) (List Lexeme) :=
  let pieces := scan source
  let malformed := pieces.filterMap fun
    | .malformed malformed => some malformed
    | .lexeme _ => none
  if malformed.isEmpty then
    .ok (pieces.filterMap fun
      | .lexeme lexeme => some lexeme
      | .malformed _ => none)
  else .error malformed

end LiveExpr
