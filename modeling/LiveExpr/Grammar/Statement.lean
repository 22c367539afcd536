import LiveExpr.Grammar.Sequence

/-!
Statements and the blocks that hold them: declarations of scalars, strings and vectors, and statements that
are formulas.
-/

namespace LiveExpr.Grammar

/-- The size in a vector declaration: a whole positive number. -/
def vectorSize? (token : Token) : Option Nat :=
  match token with
  | .number value =>
    if Number.fraction value == 0.0 && value >= 1.0 then Number.toIndex? value else none
  | _ => none

def vectorSize : Reader Nat
  | [] => Reader.stop (.badVectorSize none) []
  | first :: rest =>
    match vectorSize? first.token with
    | some size => .ok (size, rest)
    | none => Reader.stop (.badVectorSize (some first.text)) (first :: rest)

def closedVectorSize : Reader Nat := do
  let size ← vectorSize
  let _ ← Reader.require .rightBracket .sizeEnd
  pure size

/-- What a declared vector is to hold, behind its size. -/
def vectorContent (inner : Inner) (word : Lexeme) (size : Nat) : Reader Tree := do
  if ← Reader.takes .assign then
    match ← Reader.acceptTerminal .leftBrace with
    | some bracket => do
      let elements ← list inner .rightBrace (.listedVector word size bracket)
      pure (.listedVector word size bracket elements)
    | none => do
      let start ← Reader.place
      let value ← inner.assignment.within (.filledVector word size start)
      pure (.filledVector word size start value)
  else pure (.listedVector word size word [])

/-- The rest of a vector declaration, behind its opening bracket. -/
def vectorDeclaration (inner : Inner) (word : Lexeme) : Reader Tree := do
  let size ← closedVectorSize.within (.declaration word .ending)
  vectorContent inner word size

/-- The rest of a declaration, behind the name. -/
def declarationOf (inner : Inner) (word : Lexeme) : Reader Tree := do
  if ← Reader.takes .leftBracket then vectorDeclaration inner word
  else if ← Reader.takes .assign then
    let start ← Reader.place
    let value ← inner.assignment.within (.declaration word start)
    pure (.declaration word start value)
  else pure (.declaration word .ending (.number 0.0))

/-- A declaration, behind its keyword. -/
def declaration (inner : Inner) : Reader Tree
  | [] => Reader.stop .unexpectedEnd []
  | word :: rest =>
    match word.token with
    | .name _ => declarationOf inner word rest
    | _ => Reader.stop (.expected .declaredName (some word.text)) (word :: rest)

def statement (inner : Inner) : Reader Tree := do
  if ← Reader.takes .varWord then declaration inner else inner.assignment

/-- The tree of a block, of whose statements the last one comes first; none makes a problem at the closing
bracket. -/
def blockOf (closing : Lexeme) : List Tree → Reader Tree
  | [] => fun lexemes => .error (.stop ⟨.emptyBlock, .lexeme closing⟩ lexemes)
  | [only] => pure only
  | result :: earlier => pure (.block earlier.reverse result)

/-- Reads the statements of a block up to its closing bracket, after those in `found`, which has the last
one first. -/
def statements (inner : Inner) (closing : Terminal) : (bound : Nat) → (found : List Tree) → Reader Tree
  | 0, _ => .stopUnexpected
  | bound + 1, found => fun lexemes =>
    match lexemes with
    | first :: rest =>
      if first.is closing then blockOf first found rest else next bound found lexemes
    | [] => next bound found lexemes
where
  next (bound : Nat) (found : List Tree) : Reader Tree := do
    let tree ← (statement inner).within (.block found.reverse)
    let found := tree :: found
    if ← Reader.takes .semicolon then statements inner closing bound found
    else
      let last ← (Reader.require closing .blockEnd).within (.block found.reverse)
      blockOf last found

/-- A block, behind its opening bracket. -/
def block (inner : Inner) (closing : Terminal) : Reader Tree :=
  statements inner closing inner.bound []

/-- What a condition or loop governs: a block in braces or one statement. -/
def body (inner : Inner) : Reader Tree := do
  if ← Reader.takes .leftBrace then block inner .rightBrace else statement inner

end LiveExpr.Grammar
