import LiveExpr.Grammar.Form

/-!
Operands, which are what stands between the binary operators: literals, names, calls, blocks and forms,
with their subscripts, powers and prefix operators.
-/

namespace LiveExpr.Grammar

/-- A name, behind which `rest` follows: a call if that begins with a parenthesis, and else a value. The
name of a built-in function is no value. -/
def nameForm (inner : Inner) (word : Lexeme) (name : String) : Reader Tree := do
  if ← Reader.takes .leftParen then
    let arguments ← list inner .rightParen (.call word · [])
    let rest ← Reader.remaining
    pure (.call word arguments rest)
  else if (Builtin.find? name).isSome then .stop (.bareFunction name)
  else do
    let rest ← Reader.remaining
    pure (.name word rest)

def primary (inner : Inner) : Reader Tree
  | [] => Reader.stopUnexpected []
  | first :: rest =>
    match first.token with
    | .number value => .ok (.number value, rest)
    | .text content => .ok (.text content, rest)
    | .name name => nameForm inner first name rest
    | .fixed .trueWord => .ok (.number 1.0, rest)
    | .fixed .falseWord => .ok (.number 0.0, rest)
    | .fixed .leftParen => block inner .rightParen rest
    | .fixed .leftBrace => block inner .rightBrace rest
    | .fixed .ifWord => ifForm inner rest
    | .fixed .whileWord => whileForm inner rest
    | .fixed .forWord => forForm inner rest
    | .fixed .switchWord => switchForm inner rest
    | .fixed _ => Reader.stopUnexpected (first :: rest)

/-- The upper bound of a range, behind its colon, up to the closing bracket. -/
def rangeEnd (assignment : Reader Tree) (bracket : Lexeme) (base : Tree) (firstStart : Place)
    (first : Tree) : Reader Tree := do
  if ← Reader.takes .rightBracket then
    pure (.range bracket base firstStart first .ending (.number Number.infinity))
  else
    let lastStart ← Reader.place
    let last ← assignment.within (.range bracket base firstStart first lastStart)
    let _ ← (Reader.require .rightBracket .rangeEnd).within fun stopped =>
      .range bracket base firstStart first lastStart (.andThen last stopped)
    pure (.range bracket base firstStart first lastStart last)

/-- One subscript of `base`, behind its opening bracket: nothing for the size, an index, or a range. -/
def subscript (assignment : Reader Tree) (bracket : Lexeme) (base : Tree) : Reader Tree := do
  if ← Reader.takes .rightBracket then pure (.size bracket base)
  else if ← Reader.takes .colon then rangeEnd assignment bracket base .ending (.number 0.0)
  else
    let start ← Reader.place
    let index ← assignment.within (.element bracket base start)
    if ← Reader.takes .colon then rangeEnd assignment bracket base start index
    else
      let _ ← (Reader.require .rightBracket .indexEnd).within fun stopped =>
        .element bracket base start (.andThen index stopped)
      pure (.element bracket base start index)

/-- A power: the exponent is one level deeper, which makes `^` group to the right. -/
def power (inner : Inner) : Reader Tree := do
  let base ← primary inner
  let base ← inner.subscripts base
  match ← Reader.acceptTerminal .caret with
  | some sign => do
    let exponent ← inner.operand.within fun stopped => .arithmetic base [((.pow, sign), stopped)]
    pure (.arithmetic base [((.pow, sign), exponent)])
  | none => pure base

/-- Prefix operators in front of a power. They bind looser than `^`. -/
def unary (inner : Inner) : Reader Tree
  | [] => power inner []
  | sign :: rest =>
    match sign.token with
    | .fixed .minus => (.negation sign <$> inner.operand.within (.negation sign)) rest
    | .fixed .plus => (.affirmation sign <$> inner.operand.within (.affirmation sign)) rest
    | .fixed .bang | .fixed .notWord =>
      let start := Place.ofNext rest
      (.denial start <$> inner.operand.within (.denial start)) rest
    | _ => power inner (sign :: rest)

end LiveExpr.Grammar
