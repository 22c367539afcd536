import LiveExpr.Diagnostic

/-!
The trees that formulas are read into. A tree has the shape of its formula and keeps the lexemes and places
that diagnostics may have to point at; what its names stand for is not asked yet.

Where a formula does not fit the grammar, reading stops. The tree then holds all that was read, with `stop`
at the place where nothing fitted. What would follow `stop` in its tree is never looked at, and any tree may
stand there.
-/

namespace LiveExpr

inductive Tree where
  | number (value : Float)
  | text (content : Bytes)
  /-- A name that stands for a value; `rest` are the lexemes behind it. -/
  | name (word : Lexeme) (rest : List Lexeme)
  /-- A call, with the arguments and the places where they start; `rest` are the lexemes behind it. -/
  | call (word : Lexeme) (arguments : List (Place × Tree)) (rest : List Lexeme)
  | negation (sign : Lexeme) (operand : Tree)
  /-- A plus sign in front of an operand. -/
  | affirmation (sign : Lexeme) (operand : Tree)
  | denial (start : Place) (operand : Tree)
  /-- A run of arithmetic operators, each with its sign and right operand. -/
  | arithmetic (first : Tree) (rest : List ((BinaryOperator × Lexeme) × Tree))
  /-- A run of logical operators, each with its right operand and the place where that starts. -/
  | logical (start : Place) (first : Tree) (rest : List ((BinaryOperator × Place) × Tree))
  | relation (sign : Lexeme) (left right : Tree)
  /-- A condition that starts at `start`, and the two branches, of which the first starts at `branch`. -/
  | conditional (start : Place) (condition : Tree) (branch : Place) (consequent alternative : Tree)
  /-- A condition with a single branch. -/
  | conditionalOnly (start : Place) (condition : Tree) (branch : Place) (consequent : Tree)
  | size (bracket : Lexeme) (base : Tree)
  | element (bracket : Lexeme) (base : Tree) (start : Place) (index : Tree)
  | range (bracket : Lexeme) (base : Tree) (firstStart : Place) (first : Tree) (lastStart : Place)
      (last : Tree)
  | block (statements : List Tree) (result : Tree)
  /-- A loop: the initializer, the condition that starts at `start`, the step after each round, the body. -/
  | loop (initializer : Tree) (start : Place) (condition step body : Tree)
  /-- The cases with the places where their conditions and results start, and the default. -/
  | choice (cases : List ((Place × Tree) × (Place × Tree))) (start : Place) (otherwise : Tree)
  | assignment (word sign : Lexeme) (start : Place) (value : Tree)
  | elementAssignment (word : Lexeme) (start : Place) (index : Tree) (sign : Lexeme) (value : Tree)
  | declaration (word : Lexeme) (start : Place) (value : Tree)
  /-- A vector of `size` elements with its first ones given in a list that opens with `bracket`. -/
  | listedVector (word : Lexeme) (size : Nat) (bracket : Lexeme) (elements : List (Place × Tree))
  /-- A vector of `size` elements filled from one value, which starts at `start`. -/
  | filledVector (word : Lexeme) (size : Nat) (start : Place) (value : Tree)
  /-- Reading stopped in front of `rest`. -/
  | stop (report : Report) (rest : List Lexeme)
  /-- What was read as a whole before reading stopped in the second tree. -/
  | andThen (done stopped : Tree)

end LiveExpr
