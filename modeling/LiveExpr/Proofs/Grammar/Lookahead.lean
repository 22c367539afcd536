import LiveExpr.Proofs.Grammar.Derivation

/-!
How reading finds out whether an assignment comes next. What the grammar derives has its square brackets in pairs, so
the bracket that closes an index is found behind all that stands between.
-/

namespace LiveExpr

def Token.isSquare : Token → Bool
  | fixed .leftBracket | fixed .rightBracket => true
  | _ => false

namespace Grammar

/-! ## Brackets in pairs -/

/-- Whether the search for the bracket that closes an index passes over the lexemes. -/
def PassedOver (lexemes : List Lexeme) : Prop :=
  ∀ opened rest, assignsElement (opened + 1) (lexemes ++ rest) = assignsElement (opened + 1) rest

namespace PassedOver

theorem nil : PassedOver [] :=
  fun _ _ => rfl

theorem append {first second : List Lexeme} (one : PassedOver first) (other : PassedOver second) :
    PassedOver (first ++ second) := by
  intro opened rest
  rw [List.append_assoc, one, other]

theorem plain {lexeme : Lexeme} (noSquare : lexeme.token.isSquare = false) {rest : List Lexeme}
    (others : PassedOver rest) : PassedOver (lexeme :: rest) := by
  intro opened more
  have noLeft : ¬ lexeme.is .leftBracket = true := fun spelled => by
    rw [Lexeme.token_of_is spelled] at noSquare
    cases noSquare
  have noRight : ¬ lexeme.is .rightBracket = true := fun spelled => by
    rw [Lexeme.token_of_is spelled] at noSquare
    cases noSquare
  rw [List.cons_append, assignsElement, if_neg noLeft, if_neg noRight, others]

theorem terminal {lexeme : Lexeme} {terminal : Terminal} (spelled : lexeme.is terminal = true)
    (noSquare : (Token.fixed terminal).isSquare = false) {rest : List Lexeme} (others : PassedOver rest) :
    PassedOver (lexeme :: rest) :=
  plain (Lexeme.of_is spelled noSquare) others

theorem other {lexeme : Lexeme} {property : Token → Bool} (holds : property lexeme.token = true)
    (noLeft : property (.fixed .leftBracket) = false) (noRight : property (.fixed .rightBracket) = false)
    {rest : List Lexeme} (others : PassedOver rest) : PassedOver (lexeme :: rest) := by
  refine plain ?_ others
  unfold Token.isSquare
  split
  · next spelled =>
    rw [spelled, noLeft] at holds
    cases holds
  · next spelled =>
    rw [spelled, noRight] at holds
    cases holds
  · rfl

theorem brackets {opening closing : Lexeme} (opened : opening.is .leftBracket = true)
    (closed : closing.is .rightBracket = true) {content rest : List Lexeme} (between : PassedOver content)
    (others : PassedOver rest) : PassedOver (opening :: (content ++ closing :: rest)) := by
  intro depth more
  have noLeft : ¬ closing.is .leftBracket = true := fun spelled => by
    have same := (Lexeme.token_of_is spelled).symm.trans (Lexeme.token_of_is closed)
    cases same
  have deeper : ¬ depth + 1 + 1 ≤ 1 := by omega
  rw [List.cons_append, assignsElement, if_pos opened, List.append_assoc, between, List.cons_append,
    assignsElement, if_neg noLeft, if_pos closed, if_neg deeper]
  exact others depth more

theorem semicolons {lexemes : List Lexeme} (spelled : ∀ one ∈ lexemes, one.is .semicolon = true) :
    PassedOver lexemes := by
  induction lexemes with
  | nil => exact nil
  | cons first rest induction =>
    have parts := List.forall_mem_cons.mp spelled
    exact terminal parts.1 rfl (induction parts.2)

end PassedOver

theorem noSquare_of_number {token : Token} (number : token.category = .number) : token.isSquare = false := by
  unfold Token.isSquare
  split
  · cases number
  · cases number
  · rfl

theorem noSquare_of_operator {level : List BinaryOperator} {sign : Lexeme} {op : BinaryOperator}
    (spelled : operatorOf? level sign = some op) : sign.token.isSquare = false := by
  unfold operatorOf? at spelled
  unfold Token.isSquare
  split
  · next square =>
    rw [square] at spelled
    cases spelled
  · next square =>
    rw [square] at spelled
    cases spelled
  · rfl

theorem noSquare_of_isRelation {sign : Lexeme} (isRelation : sign.isRelation = true) :
    sign.token.isSquare = false := by
  unfold Lexeme.isRelation at isRelation
  unfold Token.isSquare
  split
  · next square =>
    rw [square] at isRelation
    cases isRelation
  · next square =>
    rw [square] at isRelation
    cases isRelation
  · rfl

/-- Square brackets come in pairs in whatever the grammar derives. -/
theorem Derives.passedOver {dialect : Dialect} {phrase : Phrase} {lexemes : List Lexeme}
    (derived : Derives dialect phrase lexemes) : PassedOver lexemes := by
  induction derived with
  | lastStatement leading _ trailing statement =>
    exact (PassedOver.semicolons leading).append (statement.append (.semicolons trailing))
  | nextStatement leading _ separated _ statement more =>
    exact (PassedOver.semicolons leading).append (statement.append (.terminal separated rfl more))
  | noSeparator => exact .nil
  | separator spelled => exact .terminal spelled rfl .nil
  | result _ _ statement trailing => exact statement.append trailing
  | effect _ separated _ statement more => exact statement.append (.terminal separated rfl more)
  | declared spelled _ declaration => exact .terminal spelled rfl declaration
  | formula _ assignment => exact assignment
  | zero name => exact .other name rfl rfl .nil
  | initialized name assigned _ formula => exact .other name rfl rfl (.terminal assigned rfl formula)
  | vector name opened sized closed _ filled =>
    refine .other name rfl rfl (.brackets opened closed (.plain ?_ .nil) filled)
    exact noSquare_of_number (dialect.size_number _ sized)
  | noInitializer => exact .nil
  | listed assigned opened _ closed formulas =>
    exact .terminal assigned rfl (.terminal opened rfl (formulas.append (.terminal closed rfl .nil)))
  | filled assigned _ _ formula => exact .terminal assigned rfl formula
  | unassigned _ conditional => exact conditional
  | assigned name assigned _ formula => exact .other name rfl rfl (.other assigned rfl rfl formula)
  | elementAssigned name opened _ closed assigned _ place formula =>
    exact .other name rfl rfl (.brackets opened closed place (.other assigned rfl rfl formula))
  | unconditional _ disjunction => exact disjunction
  | chosen _ asked _ separated _ disjunction first second =>
    exact disjunction.append (.terminal asked rfl (first.append (.terminal separated rfl second)))
  | run _ _ operand steps => exact operand.append steps
  | noStep => exact .nil
  | step spelled _ _ operand steps => exact .plain (noSquare_of_operator spelled) (operand.append steps)
  | unrelated _ sum => exact sum
  | related _ spelled _ first second => exact first.append (.plain (noSquare_of_isRelation spelled) second)
  | signed spelled _ operand => exact .other spelled rfl rfl operand
  | unsigned _ power => exact power
  | base _ _ primary subscripts => exact primary.append subscripts
  | raised _ _ spelled _ primary subscripts operand =>
    exact primary.append (subscripts.append (.terminal spelled rfl operand))
  | noSubscript => exact .nil
  | size opened closed _ more => exact .brackets opened closed .nil more
  | element opened _ closed _ place more => exact .brackets opened closed place more
  | @range opening colon closing first last rest opened _ separated _ closed _ lower upper more =>
    have content := lower.append (.terminal separated rfl upper)
    have inside : PassedOver (opening :: ((first ++ colon :: last) ++ closing :: rest)) :=
      .brackets opened closed content more
    rwa [List.append_assoc] at inside
  | absent => exact .nil
  | present _ derived => exact derived
  | literal spelled => exact .other spelled rfl rfl .nil
  | name name _ => exact .other name rfl rfl .nil
  | call name opened _ closed _ formulas =>
    exact .other name rfl rfl (.terminal opened rfl (formulas.append (.terminal closed rfl .nil)))
  | parentheses opened _ closed block => exact .terminal opened rfl (block.append (.terminal closed rfl .nil))
  | braces opened _ closed block => exact .terminal opened rfl (block.append (.terminal closed rfl .nil))
  | noItem => exact .nil
  | lastItem _ formula => exact formula
  | nextItem _ separated _ formula more => exact formula.append (.terminal separated rfl more)
  | ifFunction spelled opened _ separated _ separatedAgain _ closed asked first last =>
    refine .terminal spelled rfl (.terminal opened rfl (asked.append (.terminal separated rfl ?_)))
    exact first.append (.terminal separatedAgain rfl (last.append (.terminal closed rfl .nil)))
  | ifStatement spelled opened _ closed _ _ asked first second =>
    refine .terminal spelled rfl (.terminal opened rfl (asked.append (.terminal closed rfl ?_)))
    exact first.append second
  | whileLoop spelled opened _ closed _ asked body =>
    exact .terminal spelled rfl (.terminal opened rfl (asked.append (.terminal closed rfl body)))
  | forLoop spelled opened _ separated _ separatedAgain _ closed _ initialized asked stepped body =>
    refine .terminal spelled rfl (.terminal opened rfl (initialized.append (.terminal separated rfl ?_)))
    exact asked.append (.terminal separatedAgain rfl (stepped.append (.terminal closed rfl body)))
  | choice spelled opened _ defaulted separated _ _ closed tested formula trailing =>
    refine .terminal spelled rfl (.terminal opened rfl (tested.append (.terminal defaulted rfl ?_)))
    refine .terminal separated rfl (formula.append (trailing.append (.terminal closed rfl .nil)))
  | noCase => exact .nil
  | case spelled _ separated _ ended _ asked formula more =>
    refine .terminal spelled rfl (asked.append (.terminal separated rfl ?_))
    exact formula.append (.terminal ended rfl more)
  | bracedBody opened _ closed block => exact .terminal opened rfl (block.append (.terminal closed rfl .nil))
  | looseBody _ _ statement => exact statement
  | noOtherwise => exact .nil
  | otherwise _ spelled _ separated body => exact separated.append (.terminal spelled rfl body)

/-! ## Assignments ahead -/

theorem startsAssignment_cons (word : Lexeme) (rest : List Lexeme) :
    startsAssignment (word :: rest) = (word.token.isName &&
      if startsWith .leftBracket rest then assignsElement 0 rest else startsWithAssignmentSign rest) := by
  rcases word with ⟨token, text, position⟩
  cases token <;> rfl

theorem noParen_of_startsWithAssignmentSign {lexemes : List Lexeme}
    (assigns : startsWithAssignmentSign lexemes = true) : startsWith .leftParen lexemes = false := by
  cases lexemes with
  | nil => rfl
  | cons sign rest => exact @Lexeme.is_eq_false _ _ Token.assigns assigns rfl

theorem isName_of_startsAssignment {word : Lexeme} {rest : List Lexeme}
    (starts : startsAssignment (word :: rest) = true) : word.token.isName = true := by
  rw [startsAssignment_cons, Bool.and_eq_true] at starts
  exact starts.1

theorem noParen_of_startsAssignment {word : Lexeme} {rest : List Lexeme}
    (starts : startsAssignment (word :: rest) = true) : startsWith .leftParen rest = false := by
  rw [startsAssignment_cons, Bool.and_eq_true] at starts
  obtain ⟨-, assigns⟩ := starts
  split at assigns
  · next bracketed =>
    cases rest with
    | nil => rfl
    | cons opening => exact Lexeme.is_eq_false_of_ne bracketed (by decide)
  · exact noParen_of_startsWithAssignmentSign assigns

theorem assignsElement_brackets {opening closing : Lexeme} (opened : opening.is .leftBracket = true)
    (closed : closing.is .rightBracket = true) {index : List Lexeme} (between : PassedOver index)
    (rest : List Lexeme) :
    assignsElement 0 (opening :: (index ++ closing :: rest)) = startsWithAssignmentSign rest := by
  have noLeft : ¬ closing.is .leftBracket = true := fun spelled => by
    have same := (Lexeme.token_of_is spelled).symm.trans (Lexeme.token_of_is closed)
    cases same
  rw [assignsElement, if_pos opened, between, assignsElement, if_neg noLeft, if_pos closed, if_pos (by omega)]

end Grammar

end LiveExpr
