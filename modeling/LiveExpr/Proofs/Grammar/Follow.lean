import LiveExpr.Proofs.Grammar.Lookahead

/-!
What phrases begin with, and what may follow them. Every token goes on with phrases of some level and looser ones; a
phrase has come to its end where the token that follows belongs to a looser level than its own.
-/

namespace LiveExpr

/-! ## Beginnings -/

namespace Token

/-- Whether a literal, name, call, block or form may begin with the token. -/
def startsPrimary : Token → Bool
  | name _ | fixed .leftParen | fixed .leftBrace => true
  | fixed .ifWord | fixed .whileWord | fixed .forWord | fixed .switchWord => true
  | token => token.isLiteral

def startsFormula (token : Token) : Bool :=
  token.startsPrimary || token.isSign

def startsStatement : Token → Bool
  | fixed .varWord => true
  | token => token.startsFormula

theorem startsFormula_of_startsPrimary {token : Token} (starts : token.startsPrimary = true) :
    token.startsFormula = true := by
  rw [startsFormula, starts, Bool.true_or]

theorem startsStatement_of_startsFormula {token : Token} (starts : token.startsFormula = true) :
    token.startsStatement = true := by
  unfold startsStatement
  split
  · rfl
  · exact starts

theorem startsPrimary_of_isLiteral {token : Token} (isLiteral : token.isLiteral = true) :
    token.startsPrimary = true := by
  unfold startsPrimary
  split <;> first | rfl | exact isLiteral

theorem startsPrimary_of_isName {token : Token} (isName : token.isName = true) : token.startsPrimary = true := by
  cases token with
  | name _ => rfl
  | _ => cases isName

theorem isLiteral_eq_false_of_isName {token : Token} (isName : token.isName = true) :
    token.isLiteral = false := by
  cases token with
  | name _ => rfl
  | _ => cases isName

theorem isSign_eq_false_of_isName {token : Token} (isName : token.isName = true) : token.isSign = false := by
  cases token with
  | name _ => rfl
  | _ => cases isName

end Token

namespace Grammar

def Begins (kind : Token → Bool) (lexemes : List Lexeme) : Prop :=
  ∃ first rest, lexemes = first :: rest ∧ kind first.token = true

namespace Begins

variable {kind other : Token → Bool} {lexemes : List Lexeme}

theorem cons {first : Lexeme} (holds : kind first.token = true) (rest : List Lexeme) :
    Begins kind (first :: rest) :=
  ⟨first, rest, rfl, holds⟩

theorem terminal {first : Lexeme} {terminal : Terminal} (spelled : first.is terminal = true)
    (holds : kind (.fixed terminal) = true) (rest : List Lexeme) : Begins kind (first :: rest) :=
  ⟨first, rest, rfl, Lexeme.of_is spelled holds⟩

theorem append (begins : Begins kind lexemes) (more : List Lexeme) : Begins kind (lexemes ++ more) := by
  rcases begins with ⟨first, rest, rfl, holds⟩
  exact ⟨first, rest ++ more, rfl, holds⟩

theorem imp (begins : Begins kind lexemes) (implies : ∀ token, kind token = true → other token = true) :
    Begins other lexemes := by
  rcases begins with ⟨first, rest, rfl, holds⟩
  exact ⟨first, rest, rfl, implies _ holds⟩

theorem length_pos (begins : Begins kind lexemes) : 0 < lexemes.length := by
  rcases begins with ⟨first, rest, rfl, -⟩
  exact Nat.succ_pos _

theorem startsWith_eq_false (begins : Begins kind lexemes) {terminal : Terminal}
    (apart : kind (.fixed terminal) = false) (rest : List Lexeme) :
    startsWith terminal (lexemes ++ rest) = false := by
  rcases begins with ⟨first, others, rfl, holds⟩
  exact Lexeme.is_eq_false holds apart

end Begins

def Phrase.Begins : Phrase → List Lexeme → Prop
  | .primary | .power => Grammar.Begins Token.startsPrimary
  | .unary | .run _ | .relation | .conditional | .assignment | .list (_ + 1) =>
    Grammar.Begins Token.startsFormula
  | .statement | .block => Grammar.Begins Token.startsStatement
  | _ => fun _ => True

theorem Derives.begins {dialect : Dialect} {phrase : Phrase} {lexemes : List Lexeme}
    (derived : Derives dialect phrase lexemes) : phrase.Begins lexemes := by
  induction derived with
  | result _ _ statement _ => exact statement.append _
  | effect _ _ _ statement _ => exact statement.append _
  | declared spelled _ _ => exact .terminal spelled rfl _
  | formula _ assignment => exact assignment.imp fun _ => Token.startsStatement_of_startsFormula
  | unassigned _ conditional => exact conditional
  | assigned name _ _ _ =>
    exact .cons (Token.startsFormula_of_startsPrimary (Token.startsPrimary_of_isName name)) _
  | elementAssigned name _ _ _ _ _ _ _ =>
    exact .cons (Token.startsFormula_of_startsPrimary (Token.startsPrimary_of_isName name)) _
  | unconditional _ disjunction => exact disjunction
  | chosen _ _ _ _ _ disjunction _ _ => exact Begins.append disjunction _
  | @run level first rest _ _ operand _ =>
    have begins : Begins Token.startsFormula first := by
      cases level <;> exact operand
    exact begins.append _
  | unrelated _ sum => exact sum
  | related _ _ _ first _ => exact Begins.append first _
  | signed spelled _ _ => exact .cons (by rw [Token.startsFormula, spelled, Bool.or_true]) _
  | unsigned _ power => exact power.imp fun _ => Token.startsFormula_of_startsPrimary
  | base _ _ primary _ => exact primary.append _
  | raised _ _ _ _ primary _ _ => exact primary.append _
  | literal spelled => exact .cons (Token.startsPrimary_of_isLiteral spelled) _
  | name name _ => exact .cons (Token.startsPrimary_of_isName name) _
  | call name _ _ _ _ _ => exact .cons (Token.startsPrimary_of_isName name) _
  | parentheses opened _ _ _ => exact .terminal opened rfl _
  | braces opened _ _ _ => exact .terminal opened rfl _
  | lastItem _ formula => exact formula
  | nextItem _ _ _ formula _ => exact Begins.append formula _
  | ifFunction spelled => exact .terminal spelled rfl _
  | ifStatement spelled => exact .terminal spelled rfl _
  | whileLoop spelled => exact .terminal spelled rfl _
  | forLoop spelled => exact .terminal spelled rfl _
  | choice spelled => exact .terminal spelled rfl _
  | _ => exact trivial

end Grammar

/-! ## Ranks -/

/-- The tightest level of phrases that the terminal goes on with. Calls and second branches belong to the tightest
level of all; then come subscripts and powers, the levels of the operators, and last assignments. -/
def Terminal.rank : Terminal → Nat
  | leftParen | elseWord => 0
  | leftBracket | caret => 1
  | star | slash | percent => 2
  | plus | minus => 3
  | doubleEqual | equal | bangEqual | lessGreater | lessEqual | greaterEqual | less | greater => 4
  | inWord | likeWord | ilikeWord => 4
  | andWord | nandWord | ampersand => 5
  | xorWord | xnorWord => 6
  | orWord | norWord | pipe => 7
  | question => 8
  | assign | plusAssign | minusAssign | timesAssign | overAssign | modAssign => 9
  | _ => 10

def Token.rank : Token → Nat
  | fixed terminal => terminal.rank
  | _ => 10

namespace Grammar

/-- The rank of the tokens between the operands of a level. -/
def Level.rank : Level → Nat
  | product => 2
  | sum => 3
  | conjunction => 5
  | exclusion => 6
  | disjunction => 7

/-- Whether a phrase of a rank has come to its end in front of the lexemes. -/
def Stops (rank : Nat) : List Lexeme → Prop
  | [] => True
  | first :: rest =>
    rank < first.token.rank ∧ (first.is .semicolon = true → startsWith .elseWord rest = false)

namespace Stops

variable {rank : Nat} {lexemes : List Lexeme}

theorem mono (stops : Stops rank lexemes) {tighter : Nat} (below : tighter ≤ rank) : Stops tighter lexemes := by
  cases lexemes with
  | nil => exact trivial
  | cons first rest => exact ⟨Nat.lt_of_le_of_lt below stops.1, stops.2⟩

theorem terminal {first : Lexeme} {terminal : Terminal} (spelled : first.is terminal = true)
    (above : rank < terminal.rank) (other : terminal ≠ .semicolon) (rest : List Lexeme) :
    Stops rank (first :: rest) := by
  have same := Lexeme.token_of_is spelled
  refine ⟨?_, fun semicolon => ?_⟩
  · rw [same]
    exact above
  · rw [Lexeme.is_eq_false_of_ne spelled other] at semicolon
    cases semicolon

theorem sign {first : Lexeme} {loosest : Nat} (spelled : first.token.rank = loosest) (above : rank < loosest)
    (below : loosest < 10) (rest : List Lexeme) : Stops rank (first :: rest) := by
  refine ⟨by rw [spelled]; exact above, fun semicolon => ?_⟩
  rw [Lexeme.token_of_is semicolon] at spelled
  exact absurd below (Nat.not_lt.mpr (Nat.le_of_eq spelled))

theorem semicolon {first : Lexeme} (spelled : first.is .semicolon = true) (below : rank < 10)
    {rest : List Lexeme} (noElse : startsWith .elseWord rest = false) : Stops rank (first :: rest) := by
  refine ⟨?_, fun _ => noElse⟩
  rw [Lexeme.token_of_is spelled]
  exact below

/-- No terminal of this level or a tighter one follows. -/
theorem startsWith_eq_false (stops : Stops rank lexemes) {terminal : Terminal} (within : terminal.rank ≤ rank) :
    startsWith terminal lexemes = false := by
  cases lexemes with
  | nil => rfl
  | cons first rest =>
    refine Bool.eq_false_iff.mpr fun spelled => ?_
    have above := stops.1
    rw [Lexeme.token_of_is spelled] at above
    exact absurd above (Nat.not_lt.mpr within)

end Stops

/-! ## Operators -/

theorem rank_of_operatorOf? {level : Level} {sign : Lexeme} {op : BinaryOperator}
    (spelled : operatorOf? level.operators sign = some op) : sign.token.rank = level.rank := by
  rcases sign with ⟨token, text, position⟩
  cases token with
  | fixed terminal => cases level <;> cases terminal <;> first | rfl | cases spelled
  | _ => cases spelled

theorem rank_of_isRelation {sign : Lexeme} (isRelation : sign.isRelation = true) : sign.token.rank = 4 := by
  rcases sign with ⟨token, text, position⟩
  cases token with
  | fixed terminal => cases terminal <;> first | rfl | cases isRelation
  | _ => cases isRelation

theorem rank_of_assigns {token : Token} (assigns : token.assigns = true) : token.rank = 9 := by
  cases token with
  | fixed terminal => cases terminal <;> first | rfl | cases assigns
  | _ => cases assigns

/-- What follows the first operand in a run. -/
theorem stops_steps {dialect : Dialect} {level : Level} {lexemes : List Lexeme}
    (steps : Derives dialect (.steps level) lexemes) {rest : List Lexeme} (stops : Stops level.rank rest)
    {rank : Nat} (below : rank < level.rank) : Stops rank (lexemes ++ rest) := by
  cases steps with
  | noStep => exact stops.mono (Nat.le_of_lt below)
  | step spelled _ _ => exact .sign (rank_of_operatorOf? spelled) below (by cases level <;> decide) _

/-! ## Assignments ahead -/

/-- Whether neither an index nor an assignment sign comes next. -/
def NotAssigned (lexemes : List Lexeme) : Prop :=
  startsWith .leftBracket lexemes = false ∧ startsWithAssignmentSign lexemes = false

namespace NotAssigned

theorem nil : NotAssigned [] :=
  ⟨rfl, rfl⟩

theorem cons {first : Lexeme} (noBracket : first.is .leftBracket = false) (noSign : first.token.assigns = false)
    (rest : List Lexeme) : NotAssigned (first :: rest) :=
  ⟨noBracket, noSign⟩

theorem terminal {first : Lexeme} {terminal : Terminal} (spelled : first.is terminal = true)
    (noBracket : terminal ≠ .leftBracket) (noSign : (Token.fixed terminal).assigns = false)
    (rest : List Lexeme) : NotAssigned (first :: rest) :=
  cons (Lexeme.is_eq_false_of_ne spelled noBracket) (Lexeme.of_is spelled noSign) rest

/-- A token between the levels of subscripts and assignments belongs to neither. -/
theorem of_rank {first : Lexeme} (above : 1 < first.token.rank) (below : first.token.rank ≠ 9)
    (rest : List Lexeme) : NotAssigned (first :: rest) := by
  refine cons (Bool.eq_false_iff.mpr fun bracket => ?_) (Bool.eq_false_iff.mpr fun assigns => ?_) rest
  · rw [Lexeme.token_of_is bracket] at above
    exact absurd above (Nat.lt_irrefl 1)
  · exact below (rank_of_assigns assigns)

theorem of_stops {rank : Nat} {lexemes : List Lexeme} (stops : Stops rank lexemes) (loose : 9 ≤ rank) :
    NotAssigned lexemes := by
  cases lexemes with
  | nil => exact nil
  | cons first rest =>
    have above := stops.1
    exact of_rank (by omega) (by omega) rest

end NotAssigned

section

variable {dialect : Dialect} {lexemes rest : List Lexeme}

theorem notAssigned_steps {level : Level} (steps : Derives dialect (.steps level) lexemes)
    (after : NotAssigned rest) : NotAssigned (lexemes ++ rest) := by
  cases steps with
  | noStep => exact after
  | step spelled _ _ =>
    have same := rank_of_operatorOf? spelled
    refine .of_rank ?_ ?_ _ <;> rw [same] <;> cases level <;> decide

theorem noSign_subscripts (subscripts : Derives dialect .subscripts lexemes) (after : NotAssigned rest) :
    startsWithAssignmentSign (lexemes ++ rest) = false := by
  have noSign {opening : Lexeme} (opened : opening.is .leftBracket = true) : opening.token.assigns = false :=
    Lexeme.of_is opened rfl
  cases subscripts with
  | noSubscript => exact after.2
  | size opened _ _ => exact noSign opened
  | element opened _ _ _ => exact noSign opened
  | range opened _ _ _ _ _ => exact noSign opened

/-- A name with subscripts is not taken for the beginning of an assignment to an element. -/
theorem startsAssignment_subscripts {word : Lexeme} (subscripts : Derives dialect .subscripts lexemes)
    (after : NotAssigned rest) : startsAssignment (word :: (lexemes ++ rest)) = false := by
  have between {opening closing : Lexeme} (opened : opening.is .leftBracket = true)
      (closed : closing.is .rightBracket = true) {content more : List Lexeme} (paired : PassedOver content)
      (others : Derives dialect .subscripts more) :
      startsAssignment (word :: (opening :: (content ++ closing :: (more ++ rest)))) = false := by
    have bracket : startsWith .leftBracket (opening :: (content ++ closing :: (more ++ rest))) = true := opened
    rw [startsAssignment_cons, if_pos bracket, assignsElement_brackets opened closed paired,
      noSign_subscripts others after, Bool.and_false]
  cases subscripts with
  | noSubscript =>
    rw [List.nil_append, startsAssignment_cons, if_neg (Bool.eq_false_iff.mp after.1), after.2, Bool.and_false]
  | size opened closed more => exact between opened closed .nil more
  | @element opening closing index others opened place closed more =>
    have found := between opened closed place.passedOver more
    simpa using found
  | @range opening colon closing first last others opened lower separated upper closed more =>
    have paired := lower.passedOver.append (.terminal separated rfl upper.passedOver)
    have found := between opened closed paired more
    simpa using found

theorem startsAssignment_primary {base : List Lexeme} (primary : Derives dialect .primary base)
    (subscripts : Derives dialect .subscripts lexemes) (after : NotAssigned rest) :
    startsAssignment (base ++ (lexemes ++ rest)) = false := by
  have noName {first : Lexeme} {others : List Lexeme} (other : first.token.isName = false) :
      startsAssignment (first :: others) = false := by
    rw [startsAssignment_cons, other, Bool.false_and]
  cases primary with
  | literal spelled =>
    refine noName (Bool.eq_false_iff.mpr fun isName => ?_)
    rw [Token.isLiteral_eq_false_of_isName isName] at spelled
    cases spelled
  | name _ _ =>
    rw [List.singleton_append]
    exact startsAssignment_subscripts subscripts after
  | @call word opening closing count arguments _ opened _ _ _ =>
    have ahead := NotAssigned.terminal opened nofun rfl (arguments ++ [closing] ++ (lexemes ++ rest))
    rw [List.cons_append, startsAssignment_cons, List.cons_append, if_neg (Bool.eq_false_iff.mp ahead.1), ahead.2,
      Bool.and_false]
  | parentheses opened _ _ => exact noName (Lexeme.of_is opened rfl)
  | braces opened _ _ => exact noName (Lexeme.of_is opened rfl)
  | ifFunction spelled => exact noName (Lexeme.of_is spelled rfl)
  | ifStatement spelled => exact noName (Lexeme.of_is spelled rfl)
  | whileLoop spelled => exact noName (Lexeme.of_is spelled rfl)
  | forLoop spelled => exact noName (Lexeme.of_is spelled rfl)
  | choice spelled => exact noName (Lexeme.of_is spelled rfl)

/-- Whether the phrase is one below the level of assignments and above that of literals, names, calls, blocks and
forms. -/
def Phrase.IsOperation : Phrase → Prop
  | .conditional | .run _ | .relation | .unary | .power => True
  | _ => False

/-- What derives from a phrase below the level of assignments is not taken for the beginning of one. -/
theorem Derives.startsAssignment_eq_false {phrase : Phrase} (derived : Derives dialect phrase lexemes)
    (isOperation : phrase.IsOperation) (after : NotAssigned rest) : startsAssignment (lexemes ++ rest) = false := by
  induction derived generalizing rest with
  | unconditional _ disjunction => exact disjunction trivial after
  | chosen _ asked _ _ _ disjunction _ _ =>
    rw [List.append_assoc]
    exact disjunction trivial (.terminal asked nofun rfl _)
  | @run level _ _ _ steps operand _ =>
    rw [List.append_assoc]
    exact operand (by cases level <;> trivial) (notAssigned_steps steps after)
  | unrelated _ sum => exact sum trivial after
  | related _ spelled _ first _ =>
    have rank := rank_of_isRelation spelled
    rw [List.append_assoc]
    exact first trivial (.of_rank (by omega) (by omega) _)
  | @signed sign rest spelled _ _ =>
    have other : sign.token.isName = false := by
      cases isName : sign.token.isName with
      | false => rfl
      | true => rw [Token.isSign_eq_false_of_isName isName] at spelled; cases spelled
    rw [List.cons_append, startsAssignment_cons, other, Bool.false_and]
  | unsigned _ power => exact power trivial after
  | base primary subscripts _ _ =>
    rw [List.append_assoc]
    exact startsAssignment_primary primary subscripts after
  | raised primary subscripts spelled _ _ _ _ =>
    rw [List.append_assoc, List.append_assoc]
    exact startsAssignment_primary primary subscripts (.terminal spelled nofun rfl _)
  | _ => cases isOperation

end

end Grammar

end LiveExpr
