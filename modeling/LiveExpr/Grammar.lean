import LiveExpr.Grammar.Formula

/-!
The grammar of formulas, as readers. From the loosest to the tightest binding:

* a statement is a declaration or an assignment;
* an assignment has a name, perhaps with an index, on its left, or is a conditional;
* a conditional is `c ? a : b` over `or`, `xor`, `and`, one comparison, sums and products, which all but
  the comparison group to the left;
* then come prefix operators, `^`, whose exponent may have a prefix operator, and subscripts;
* what is left are literals, names, calls, blocks, and the forms with keywords.

Every assignment, prefix operand, exponent and subscript is one level deeper than what it stands in. The
readers for one level are given those for the next deeper level; the levels are tied together at the end.
-/

namespace LiveExpr.Grammar

/-! ## Levels -/

mutual

def assignmentAt (limit bound : Nat) : (level : Nat) → List Lexeme → Except Tree (Tree × List Lexeme)
  | 0, lexemes => Reader.stop (.tooDeep limit) lexemes
  | level + 1, lexemes =>
    assignment ⟨assignmentAt limit bound level, operandAt limit bound level,
      subscriptsAt limit bound level, bound⟩ lexemes

/-- What stands behind a prefix operator or `^`, where `level` more levels may be entered. -/
def operandAt (limit bound : Nat) : (level : Nat) → List Lexeme → Except Tree (Tree × List Lexeme)
  | 0, lexemes => Reader.stop (.tooDeep limit) lexemes
  | level + 1, lexemes =>
    unary ⟨assignmentAt limit bound level, operandAt limit bound level,
      subscriptsAt limit bound level, bound⟩ lexemes

/-- The subscripts that follow a tree, where `level` more levels may be entered. Each of them enters one. -/
def subscriptsAt (limit bound : Nat) : (level : Nat) → Tree → List Lexeme →
    Except Tree (Tree × List Lexeme)
  | 0, base, lexemes =>
    if startsWith .leftBracket lexemes then (Reader.stop (.tooDeep limit)).within (.andThen base) lexemes
    else .ok (base, lexemes)
  | level + 1, base, lexemes =>
    (do
      match ← Reader.acceptTerminal .leftBracket with
      | some bracket => do
        let base ← subscript (assignmentAt limit bound level) bracket base
        subscriptsAt limit bound level base
      | none => pure base : Reader Tree) lexemes

end

/-- The readers inside the outermost level of a source of at most `bound` lexemes, of which `limit` levels
may be entered. -/
def outermost (limit bound : Nat) : Inner :=
  ⟨assignmentAt limit bound limit, operandAt limit bound limit, subscriptsAt limit bound limit, bound⟩

/-! ## Statements of a program -/

def statementEnd : Reader Unit
  | [] => .ok ((), [])
  | first :: rest =>
    if first.is .semicolon then .ok ((), rest)
    else Reader.stop (.unexpected first.text) (first :: rest)

def endedStatement (inner : Inner) : Reader Tree := do
  let tree ← statement inner
  statementEnd.within (.andThen tree)
  pure tree

/-- Goes on behind a failed statement: after the first semicolon outside the brackets that the statement
has opened, but not before `skip` lexemes are passed. -/
def recover (depth : Int) (skip : Nat) : List Lexeme → List Lexeme
  | [] => []
  | first :: rest =>
    if first.opens then recover (depth + 1) (skip - 1) rest
    else if first.closes then recover (depth - 1) (skip - 1) rest
    else if first.is .semicolon && depth ≤ 0 && skip = 0 then rest
    else recover depth (skip - 1) rest

end LiveExpr.Grammar
