import LiveExpr.Grammar.Statement

/-!
The forms that begin with a keyword: both spellings of `if`, the loops and `switch`.
-/

namespace LiveExpr.Grammar

/-- What stands for a clause that is left out: a statement without effect. -/
def nothing : Tree := .number 0.0

/-- Takes `else`, and a semicolon in front of it, and says whether it did. -/
def takesElse : Reader Bool
  | first :: second :: rest =>
    if first.is .semicolon && second.is .elseWord then .ok (true, rest)
    else Reader.takes .elseWord (first :: second :: rest)
  | lexemes => Reader.takes .elseWord lexemes

def secondBranch (inner : Inner) (start : Place) (condition : Tree) (branch : Place) (consequent : Tree) :
    Reader Tree := do
  if ← takesElse then
    let alternative ← (body inner).within (.conditional start condition branch consequent)
    pure (.conditional start condition branch consequent alternative)
  else pure (.conditionalOnly start condition branch consequent)

/-- Both forms of `if`, behind the keyword: with three arguments in parentheses, or with a condition in
parentheses and one or two branches. -/
def ifForm (inner : Inner) : Reader Tree := do
  let _ ← Reader.require .leftParen .ifOpen
  let start ← Reader.place
  let condition ← inner.assignment
  if ← Reader.takes .comma then
    let branch ← Reader.place
    let consequent ← inner.assignment.within fun stopped =>
      .conditional start condition branch stopped stopped
    Reader.within (.conditional start condition branch consequent) do
      let _ ← Reader.require .comma .ifComma
      let alternative ← inner.assignment
      let _ ← (Reader.require .rightParen .ifEnd).within (.andThen alternative)
      pure (.conditional start condition branch consequent alternative)
  else
    let (branch, consequent) ← Reader.within
      (fun stopped => .conditional start condition .ending stopped stopped) do
        let _ ← Reader.require .rightParen .conditionEnd
        let branch ← Reader.place
        let consequent ← body inner
        pure (branch, consequent)
    secondBranch inner start condition branch consequent

/-- A `while` loop, behind the keyword. -/
def whileForm (inner : Inner) : Reader Tree := do
  let _ ← Reader.require .leftParen .whileOpen
  let start ← Reader.place
  let condition ← inner.assignment
  Reader.within (.loop nothing start condition nothing) do
    let _ ← Reader.require .rightParen .whileEnd
    let body ← body inner
    pure (.loop nothing start condition nothing body)

def clause (ending : Terminal) (absent : Tree) (present : Reader Tree) : Reader Tree := do
  if ← Reader.sees ending then pure absent else present

/-- A `for` loop, behind the keyword. Each of its three clauses may be left out; without a condition, only
the limit ends it. -/
def forForm (inner : Inner) : Reader Tree := do
  let _ ← Reader.require .leftParen .forOpen
  let initializer ← clause .semicolon nothing (statement inner)
  let (start, condition) ← Reader.within (.andThen initializer) do
    let _ ← Reader.require .semicolon .afterInitializer
    let start ← Reader.place
    let condition ← clause .semicolon (.number 1.0) inner.assignment
    pure (start, condition)
  let step ← Reader.within (fun stopped => .loop initializer start condition stopped stopped) do
    let _ ← Reader.require .semicolon .afterLoopCondition
    clause .rightParen nothing (statement inner)
  Reader.within (.loop initializer start condition step) do
    let _ ← Reader.require .rightParen .forEnd
    let body ← body inner
    pure (.loop initializer start condition step body)

/-- Reads the cases of a `switch`, after those in `found`, which has the last one first. -/
def cases (inner : Inner) : (bound : Nat) → (found : List ((Place × Tree) × (Place × Tree))) →
    Reader (List ((Place × Tree) × (Place × Tree)))
  | 0, found => pure found.reverse
  | bound + 1, found => do
    if ← Reader.takes .caseWord then
      let start ← Reader.place
      let condition ← inner.assignment.within (.choice found.reverse .ending)
      let (resultStart, result) ← Reader.within
        (fun stopped => .choice (((start, condition), (.ending, stopped)) :: found).reverse .ending stopped)
        do
          let _ ← Reader.require .colon .caseColon
          let resultStart ← Reader.place
          let result ← inner.assignment
          pure (resultStart, result)
      let found := ((start, condition), (resultStart, result)) :: found
      let _ ← (Reader.require .semicolon .caseEnd).within (.choice found.reverse .ending)
      cases inner bound found
    else pure found.reverse

/-- A `switch`, behind the keyword. -/
def switchForm (inner : Inner) : Reader Tree := do
  let _ ← Reader.require .leftBrace .switchOpen
  let cases ← cases inner inner.bound []
  let tree ← Reader.within (.choice cases .ending) do
    let _ ← Reader.require .defaultWord .caseOrDefault
    let _ ← Reader.require .colon .defaultColon
    let start ← Reader.place
    let otherwise ← inner.assignment
    pure (.choice cases start otherwise)
  let _ ← Reader.takes .semicolon
  let _ ← (Reader.require .rightBrace .switchEnd).within (.andThen tree)
  pure tree

end LiveExpr.Grammar
