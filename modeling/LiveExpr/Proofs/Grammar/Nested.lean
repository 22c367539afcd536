import LiveExpr.Proofs.Grammar.Derivation

/-!
Lexemes with their brackets in pairs. Recovery from a failed statement ends behind such lexemes, and so does the search
for the bracket that closes an index.
-/

namespace LiveExpr

def Terminal.closing? : Terminal → Option Terminal
  | leftParen => some rightParen
  | leftBracket => some rightBracket
  | leftBrace => some rightBrace
  | _ => none

def Token.isPlain : Token → Bool
  | fixed .leftParen | fixed .rightParen | fixed .leftBracket | fixed .rightBracket | fixed .leftBrace
  | fixed .rightBrace | fixed .semicolon => false
  | _ => true

/-- Whether lexemes close the brackets with these closing ones, and those that they open themselves, and have no
semicolon outside all brackets. -/
inductive Nested : (brackets : List Terminal) → List Lexeme → Prop
  | done : Nested [] []
  | plain {brackets : List Terminal} {first : Lexeme} {rest : List Lexeme} (plain : first.token.isPlain = true)
      (nested : Nested brackets rest) : Nested brackets (first :: rest)
  | opened {brackets : List Terminal} {opening closing : Terminal} {first : Lexeme} {rest : List Lexeme}
      (opens : first.is opening = true) (pairs : opening.closing? = some closing)
      (nested : Nested (closing :: brackets) rest) : Nested brackets (first :: rest)
  | closed {brackets : List Terminal} {opening closing : Terminal} {first : Lexeme} {rest : List Lexeme}
      (closes : first.is closing = true) (pairs : opening.closing? = some closing) (nested : Nested brackets rest) :
      Nested (closing :: brackets) (first :: rest)
  | semicolon {brackets : List Terminal} {closing : Terminal} {first : Lexeme} {rest : List Lexeme}
      (separates : first.is .semicolon = true) (nested : Nested (closing :: brackets) rest) :
      Nested (closing :: brackets) (first :: rest)

namespace Terminal

variable {opening closing : Terminal} (pairs : opening.closing? = some closing)

include pairs

theorem pairs_cases :
    opening = leftParen ∧ closing = rightParen ∨ opening = leftBracket ∧ closing = rightBracket ∨
      opening = leftBrace ∧ closing = rightBrace := by
  cases opening <;> cases pairs <;> decide

theorem isPlain_opening : (Token.fixed opening).isPlain = false := by
  rcases pairs_cases pairs with ⟨rfl, _⟩ | ⟨rfl, _⟩ | ⟨rfl, _⟩ <;> rfl

theorem isPlain_closing : (Token.fixed closing).isPlain = false := by
  rcases pairs_cases pairs with ⟨_, rfl⟩ | ⟨_, rfl⟩ | ⟨_, rfl⟩ <;> rfl

/-- A bracket that closes another one opens none. -/
theorem closing?_closing : closing.closing? = none := by
  rcases pairs_cases pairs with ⟨_, rfl⟩ | ⟨_, rfl⟩ | ⟨_, rfl⟩ <;> rfl

theorem closing_ne_semicolon : closing ≠ semicolon := by
  rcases pairs_cases pairs with ⟨_, rfl⟩ | ⟨_, rfl⟩ | ⟨_, rfl⟩ <;> decide

end Terminal

namespace Lexeme

variable {lexeme : Lexeme} {opening closing : Terminal}

theorem terminal_eq {one other : Terminal} (spelled : lexeme.is one = true) (again : lexeme.is other = true) :
    one = other := by
  have same := (token_of_is spelled).symm.trans (token_of_is again)
  cases same
  rfl

theorem opens_of_is (opens : lexeme.is opening = true) (pairs : opening.closing? = some closing) :
    lexeme.opens = true := by
  rw [Lexeme.opens]
  rcases Terminal.pairs_cases pairs with ⟨rfl, _⟩ | ⟨rfl, _⟩ | ⟨rfl, _⟩ <;> simp [opens]

theorem closes_of_is (closes : lexeme.is closing = true) (pairs : opening.closing? = some closing) :
    lexeme.opens = false ∧ lexeme.closes = true := by
  have token := token_of_is closes
  rw [Lexeme.opens, Lexeme.closes]
  rcases Terminal.pairs_cases pairs with ⟨_, rfl⟩ | ⟨_, rfl⟩ | ⟨_, rfl⟩ <;> simp [Lexeme.is, token]

theorem noBracket_of_semicolon (separates : lexeme.is .semicolon = true) :
    lexeme.opens = false ∧ lexeme.closes = false := by
  simp [Lexeme.opens, Lexeme.closes, Lexeme.is, token_of_is separates]

theorem noBracket_of_isPlain (plain : lexeme.token.isPlain = true) :
    lexeme.opens = false ∧ lexeme.closes = false ∧ lexeme.is .semicolon = false := by
  have other (terminal : Terminal) (apart : (Token.fixed terminal).isPlain = false) : lexeme.is terminal = false :=
    is_eq_false plain apart
  rw [Lexeme.opens, Lexeme.closes, other _ rfl, other _ rfl, other _ rfl, other _ rfl, other _ rfl, other _ rfl]
  exact ⟨rfl, rfl, other _ rfl⟩

end Lexeme

namespace Nested

variable {brackets : List Terminal} {first : Lexeme} {rest segment : List Lexeme}

theorem of_plain (nested : Nested brackets (first :: rest)) (plain : first.token.isPlain = true) :
    Nested brackets rest := by
  cases nested with
  | plain _ nested => exact nested
  | opened opens pairs _ =>
    rw [Lexeme.token_of_is opens, Terminal.isPlain_opening pairs] at plain
    cases plain
  | closed closes pairs _ =>
    rw [Lexeme.token_of_is closes, Terminal.isPlain_closing pairs] at plain
    cases plain
  | semicolon separates _ =>
    rw [Lexeme.token_of_is separates] at plain
    cases plain

theorem of_opening (nested : Nested brackets (first :: rest)) {opening closing : Terminal}
    (opens : first.is opening = true) (pairs : opening.closing? = some closing) :
    Nested (closing :: brackets) rest := by
  cases nested with
  | plain plain _ =>
    rw [Lexeme.token_of_is opens, Terminal.isPlain_opening pairs] at plain
    cases plain
  | opened opensToo pairsToo nested =>
    obtain rfl := Lexeme.terminal_eq opens opensToo
    rw [pairs] at pairsToo
    cases pairsToo
    exact nested
  | closed closes pairsToo _ =>
    obtain rfl := Lexeme.terminal_eq opens closes
    rw [Terminal.closing?_closing pairsToo] at pairs
    cases pairs
  | semicolon separates _ =>
    obtain rfl := Lexeme.terminal_eq opens separates
    cases pairs

theorem of_closing {opening closing : Terminal} (nested : Nested (closing :: brackets) (first :: rest))
    (closes : first.is closing = true) (pairs : opening.closing? = some closing) : Nested brackets rest := by
  cases nested with
  | plain plain _ =>
    rw [Lexeme.token_of_is closes, Terminal.isPlain_closing pairs] at plain
    cases plain
  | opened opens pairsToo _ =>
    obtain rfl := Lexeme.terminal_eq closes opens
    rw [Terminal.closing?_closing pairs] at pairsToo
    cases pairsToo
  | closed _ _ nested => exact nested
  | semicolon separates _ => exact absurd (Lexeme.terminal_eq closes separates) (Terminal.closing_ne_semicolon pairs)

theorem of_semicolon (nested : Nested brackets (first :: rest)) (separates : first.is .semicolon = true) :
    brackets ≠ [] ∧ Nested brackets rest := by
  cases nested with
  | plain plain _ =>
    rw [Lexeme.token_of_is separates] at plain
    cases plain
  | opened opens pairs _ =>
    obtain rfl := Lexeme.terminal_eq separates opens
    cases pairs
  | closed closes pairs _ => exact absurd (Lexeme.terminal_eq closes separates) (Terminal.closing_ne_semicolon pairs)
  | semicolon _ nested => exact ⟨List.cons_ne_nil _ _, nested⟩

/-- Recovery passes over a segment, wherever in it reading has stopped, and the semicolon behind it. -/
theorem recover (nested : Nested brackets segment) {skip : Nat} (enough : skip ≤ segment.length) {tail : List Lexeme}
    (separates : ∀ first ∈ tail.head?, first.is .semicolon = true) :
    Grammar.recover brackets.length skip (segment ++ tail) = tail.tail := by
  induction nested generalizing skip with
  | done =>
    obtain rfl : skip = 0 := Nat.le_zero.mp enough
    cases tail with
    | nil => rfl
    | cons semicolon rest =>
      have token := Lexeme.token_of_is (separates semicolon rfl)
      simp [Grammar.recover, Lexeme.opens, Lexeme.closes, Lexeme.is, token]
  | plain plain _ induction =>
    obtain ⟨noOpening, noClosing, noSemicolon⟩ := Lexeme.noBracket_of_isPlain plain
    rw [List.cons_append, Grammar.recover, noOpening, noClosing, noSemicolon]
    exact induction (Nat.sub_le_of_le_add enough)
  | opened opens pairs _ induction =>
    rw [List.cons_append, Grammar.recover, if_pos (Lexeme.opens_of_is opens pairs)]
    exact induction (Nat.sub_le_of_le_add enough)
  | closed closes pairs _ induction =>
    obtain ⟨noOpening, closes⟩ := Lexeme.closes_of_is closes pairs
    rw [List.cons_append, Grammar.recover, noOpening, closes, List.length_cons, Int.natCast_succ, Int.add_sub_cancel]
    exact induction (Nat.sub_le_of_le_add enough)
  | @semicolon brackets closing first rest separates _ induction =>
    obtain ⟨noOpening, noClosing⟩ := Lexeme.noBracket_of_semicolon separates
    have inside : ¬((closing :: brackets).length : Int) ≤ 0 := by simp
    rw [List.cons_append, Grammar.recover, noOpening, noClosing, decide_eq_false inside, Bool.and_false]
    exact induction (Nat.sub_le_of_le_add enough)

theorem startsWithAssignmentSign_append {rest behind : List Lexeme} (last : rest = [] → behind = []) :
    Grammar.startsWithAssignmentSign (rest ++ behind) = Grammar.startsWithAssignmentSign rest := by
  cases rest with
  | nil => rw [last rfl, List.append_nil]
  | cons => rfl

/-- The search passes over what is no square bracket. -/
theorem assignsElement_passed {opened : Nat} {tail behind : List Lexeme} (noLeft : first.is .leftBracket = false)
    (noRight : first.is .rightBracket = false)
    (same : Grammar.assignsElement opened (rest ++ tail ++ behind) = Grammar.assignsElement opened (rest ++ tail)) :
    Grammar.assignsElement opened (first :: rest ++ tail ++ behind) =
      Grammar.assignsElement opened (first :: rest ++ tail) := by
  rw [List.cons_append, List.cons_append, Grammar.assignsElement, noLeft, noRight, Grammar.assignsElement, noLeft,
    noRight]
  exact same

/-- The search for the bracket that closes an index ends in the segment. -/
theorem assignsElement (nested : Nested brackets segment) {opened : Nat}
    (square : opened < brackets.count .rightBracket) {tail behind : List Lexeme} (last : tail = [] → behind = []) :
    Grammar.assignsElement (opened + 1) (segment ++ tail ++ behind) =
      Grammar.assignsElement (opened + 1) (segment ++ tail) := by
  induction nested generalizing opened with
  | done => cases square
  | plain plain _ induction =>
    exact assignsElement_passed (Lexeme.is_eq_false plain rfl) (Lexeme.is_eq_false plain rfl) (induction square)
  | @opened brackets opening closing first rest opens pairs _ induction =>
    have passed (noLeft : opening ≠ .leftBracket) (noRight : opening ≠ .rightBracket)
        (other : closing ≠ .rightBracket) :
        Grammar.assignsElement (opened + 1) (first :: rest ++ tail ++ behind) =
          Grammar.assignsElement (opened + 1) (first :: rest ++ tail) :=
      assignsElement_passed (Lexeme.is_eq_false_of_ne opens noLeft) (Lexeme.is_eq_false_of_ne opens noRight)
        (induction (by rwa [List.count_cons_of_ne other]))
    rcases Terminal.pairs_cases pairs with ⟨rfl, rfl⟩ | ⟨rfl, rfl⟩ | ⟨rfl, rfl⟩
    · exact passed (by decide) (by decide) (by decide)
    · rw [List.cons_append, List.cons_append, Grammar.assignsElement, if_pos opens, Grammar.assignsElement,
        if_pos opens]
      exact induction (by rw [List.count_cons_self]; omega)
    · exact passed (by decide) (by decide) (by decide)
  | @closed brackets opening closing first rest closes pairs _ induction =>
    have noLeft : first.is .leftBracket = false := by
      refine Lexeme.is_eq_false_of_ne closes ?_
      rcases Terminal.pairs_cases pairs with ⟨_, rfl⟩ | ⟨_, rfl⟩ | ⟨_, rfl⟩ <;> decide
    by_cases same : closing = .rightBracket
    · subst same
      rw [List.count_cons_self] at square
      rw [List.cons_append, List.cons_append, Grammar.assignsElement, noLeft, if_pos closes, Grammar.assignsElement,
        noLeft, if_pos closes]
      cases opened with
      | zero =>
        refine startsWithAssignmentSign_append fun none => last ?_
        exact (List.append_eq_nil_iff.mp none).2
      | succ opened => exact induction (by omega)
    · rw [List.count_cons_of_ne same] at square
      exact assignsElement_passed noLeft (Lexeme.is_eq_false_of_ne closes same) (induction square)
  | semicolon separates _ induction =>
    exact assignsElement_passed (Lexeme.is_eq_false_of_ne separates (by decide))
      (Lexeme.is_eq_false_of_ne separates (by decide)) (induction square)

end Nested

end LiveExpr
