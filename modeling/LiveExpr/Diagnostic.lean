import LiveExpr.Problem

/-!
Diagnostics. Compilation reports a problem at a place among the pieces of the source; a diagnostic is such a
report in words, with the line of the source that it points into.
-/

namespace LiveExpr

/-- Where a problem lies. -/
inductive Place where
  | lexeme (lexeme : Lexeme)
  | malformed (malformed : Malformed)
  /-- Behind the last character of the source. -/
  | ending

def Place.ofNext : List Lexeme → Place
  | [] => .ending
  | next :: _ => .lexeme next

/-- A problem and the place where it lies. -/
structure Report where
  problem : Problem
  place : Place

/-- A report in words. -/
structure Diagnostic where
  phase : Phase
  tokenType : String
  tokenValue : String
  message : String
  sourceLine : String
  position : Position
deriving DecidableEq

namespace Source

/-- What follows the given number of newlines. -/
def skipLines : Nat → List Char → List Char
  | 0, characters => characters
  | count + 1, characters => skipLines count ((characters.dropWhile (· != '\n')).drop 1)

def withoutReturn (line : List Char) : List Char :=
  if line.getLast? = some '\r' then line.dropLast else line

/-- The text of the line with the given number, which counts from one. The newline that ends it, alone or
with a carriage return before it, is taken off; a line that no newline ends is left as it is. -/
def line (source : String) (number : Nat) : String :=
  let rest := skipLines (number - 1) source.toList
  let line := rest.takeWhile (· != '\n')
  String.ofList (if line.length < rest.length then withoutReturn line else line)

/-- The place behind the last character. -/
def ending (source : String) : Position :=
  Position.start.after source.toList

end Source

namespace Diagnostic

def locate (source : String) (phase : Phase) (tokenType tokenValue message : String)
    (position : Position) : Diagnostic where
  phase := phase
  tokenType := tokenType
  tokenValue := tokenValue
  message := message
  sourceLine := Source.line source position.line
  position := position

def ofReport (source : String) (report : Report) : Diagnostic :=
  let (tokenType, tokenValue, position) := match report.place with
    | .lexeme lexeme => (lexeme.token.category.label, lexeme.text, lexeme.position)
    | .malformed malformed => ("ERROR", malformed.text, malformed.position)
    | .ending => ("EOF", "", Source.ending source)
  locate source report.problem.phase tokenType tokenValue report.problem.message position

/-- The diagnostic on one line. -/
def text (diagnostic : Diagnostic) : String :=
  toString diagnostic.position.line ++ ":" ++ toString diagnostic.position.column ++ ": " ++
    diagnostic.phase.label ++ " error: " ++ diagnostic.message

/-- A failed compilation on one line: its first diagnostic, and how many more there are. -/
def summary : List Diagnostic → String
  | [] => "compilation failed"
  | [only] => only.text
  | first :: more => first.text ++ " (and " ++ toString more.length ++ " more)"

end Diagnostic

end LiveExpr
