import LiveExpr.Proofs.Grammar.Contracts
import LiveExpr.Proofs.Grammar.Follow
import LiveExpr.Proofs.Grammar.Proper

/-!
Readers in front of what does not go on with their phrases. There a reader takes the whole phrase, and what holds of
the trees of its parts decides what holds of its tree.
-/

namespace LiveExpr

namespace Grammar

/-! ## Phrases and their readers -/

def Level.reader : Level → Inner → Reader Tree
  | product => Grammar.product
  | sum => Grammar.sum
  | conjunction => Grammar.conjunction
  | exclusion => Grammar.exclusion
  | disjunction => Grammar.disjunction

namespace Phrase

def reader : Phrase → Inner → Reader Tree
  | statement => Grammar.statement
  | declaration => Grammar.declaration
  | assignment => Grammar.assignment
  | conditional => Grammar.conditional
  | run level => level.reader
  | relation => Grammar.relation
  | unary => Grammar.unary
  | power => Grammar.power
  | primary => Grammar.primary
  | _ => fun _ => .stopUnexpected

/-- Whether the phrase stands for a tree of its own. -/
def IsWhole : Phrase → Prop
  | statement | declaration | assignment | conditional | run _ | relation | unary | power | primary => True
  | _ => False

def rank : Phrase → Nat
  | statement | declaration | assignment | conditional => 9
  | run level => level.rank
  | relation => 4
  | unary | power => 1
  | _ => 0

/-- How many lexemes of the phrase are read without entering a level. -/
def slack : Phrase → Nat
  | statement | declaration => 0
  | _ => 1

end Phrase

/-! ## Signs of operators -/

structure Level.IsSign {α : Type} (level : Level) (sign : Reader (Option (BinaryOperator × α))) : Prop where
  taken {first : Lexeme} {op : BinaryOperator} (spelled : operatorOf? level.operators first = some op)
    (rest : List Lexeme) : sign.Gives (fun found => ∃ detail, found = some (op, detail)) (first :: rest) rest
  refused {lexemes : List Lexeme} (other : ∀ first ∈ lexemes.head?, operatorOf? level.operators first = none) :
    sign.Gives (· = none) lexemes lexemes

theorem isSign_arithmeticSign (level : Level) : level.IsSign (arithmeticSign level.operators) where
  taken {first op} spelled rest := by
    refine ⟨some (op, first), Reader.accept_of_some ?_ rest, first, rfl⟩
    rw [spelled]
    rfl
  refused other := by
    refine ⟨none, Reader.accept_of_none fun first next => ?_, rfl⟩
    rw [other first next]
    rfl

theorem isSign_logicalSign (level : Level) : level.IsSign (logicalSign level.operators) where
  taken {first op} spelled rest := by
    refine ⟨some (op, .ofNext rest), ?_, .ofNext rest, rfl⟩
    unfold logicalSign
    rw [Reader.bind_of_ok (Reader.accept_of_some spelled rest)]
    rfl
  refused other := by
    refine ⟨none, ?_, rfl⟩
    unfold logicalSign
    rw [Reader.bind_of_ok (Reader.accept_of_none other)]
    rfl

theorem operatorOf?_of_stops {level : Level} {rest : List Lexeme} (stops : Stops level.rank rest) :
    ∀ first ∈ rest.head?, operatorOf? level.operators first = none := by
  intro first next
  cases rest with
  | nil => cases next
  | cons head others =>
    cases next
    cases spelled : operatorOf? level.operators first with
    | none => rfl
    | some op =>
      have above := stops.1
      rw [rank_of_operatorOf? spelled] at above
      exact absurd above (Nat.lt_irrefl _)

/-! ## Readers at all levels -/

/-- The bounds of a source: how many levels may be entered, and how many lexemes there are at most. -/
structure Bounds where
  limit : Nat
  bound : Nat

namespace Bounds

def inner (bounds : Bounds) (level : Nat) : Inner :=
  innerAt bounds.limit bounds.bound level

/-- Whether the lexemes derive from the phrase, and its reader takes them all to a tree with a property, in front of
what does not go on with the phrase. As many levels are needed as there are lexemes. -/
structure Takes (bounds : Bounds) (dialect : Dialect) (good : Tree → Prop) (phrase : Phrase)
    (lexemes : List Lexeme) : Prop where
  derived : Derives dialect phrase lexemes
  gives (level : Nat) (rest : List Lexeme) (deep : lexemes.length ≤ level + phrase.slack)
    (short : lexemes.length ≤ bounds.bound) (stops : Stops phrase.rank rest) :
    (phrase.reader (bounds.inner level)).Gives good (lexemes ++ rest) rest

end Bounds

section

variable {bounds : Bounds} {dialect : Dialect} {good goodFirst goodSecond goodThird : Tree → Prop}
  {lexemes : List Lexeme}

namespace Bounds.Takes

/-- One level further in, an assignment needs no slack. -/
theorem assignmentWithin (takes : bounds.Takes dialect good .assignment lexemes) {level : Nat} {rest : List Lexeme}
    (deep : lexemes.length ≤ level) (short : lexemes.length ≤ bounds.bound) (stops : Stops 9 rest) :
    (bounds.inner level).assignment.Gives good (lexemes ++ rest) rest := by
  cases level with
  | zero =>
    have some := Begins.length_pos takes.derived.begins
    omega
  | succ level => exact takes.gives level rest deep short stops

theorem operandWithin (takes : bounds.Takes dialect good .unary lexemes) {level : Nat} {rest : List Lexeme}
    (deep : lexemes.length ≤ level) (short : lexemes.length ≤ bounds.bound) (stops : Stops 1 rest) :
    (bounds.inner level).operand.Gives good (lexemes ++ rest) rest := by
  cases level with
  | zero =>
    have some := Begins.length_pos takes.derived.begins
    omega
  | succ level => exact takes.gives level rest deep short stops

end Bounds.Takes

/-! ## Assignments -/

theorem gives_unassigned {inner : Inner} {rest : List Lexeme} (other : startsAssignment lexemes = false)
    (gives : (conditional inner).Gives good lexemes rest) : (assignment inner).Gives good lexemes rest := by
  refine .of_eq ?_ gives
  cases lexemes with
  | nil => rfl
  | cons first others => exact if_neg (Bool.eq_false_iff.mp other)

theorem Bounds.Takes.unassigned (conditional : bounds.Takes dialect good .conditional lexemes) :
    bounds.Takes dialect good .assignment lexemes where
  derived := .unassigned conditional.derived
  gives level rest deep short stops :=
    gives_unassigned (conditional.derived.startsAssignment_eq_false trivial (.of_stops stops (Nat.le_refl 9)))
      (conditional.gives level rest deep short stops)

theorem gives_assignmentTo {inner : Inner} {word : Lexeme} {ahead rest : List Lexeme}
    (starts : startsAssignment (word :: ahead) = true) (gives : (assignmentTo inner word).Gives good ahead rest) :
    (assignment inner).Gives good (word :: ahead) rest := by
  rcases gives with ⟨tree, read, holds⟩
  exact ⟨tree, (if_pos starts).trans read, holds⟩

theorem gives_assignmentSign {sign : Lexeme} {rest : List Lexeme} :
    assignmentSign.Gives (· = sign) (sign :: rest) rest :=
  ⟨sign, rfl, rfl⟩

namespace Bounds.Takes

theorem assigned {word sign : Lexeme} {value : List Lexeme} (name : word.token.isName = true)
    (assigned : sign.token.assigns = true) (formula : bounds.Takes dialect goodFirst .assignment value)
    (made : ∀ start {tree}, goodFirst tree → good (.assignment word sign start tree)) :
    bounds.Takes dialect good .assignment (word :: sign :: value) where
  derived := .assigned name assigned formula.derived
  gives level rest deep short stops := by
    have enough : value.length + 2 ≤ level + 1 := deep
    have few : value.length + 2 ≤ bounds.bound := short
    have noBracket : startsWith .leftBracket (sign :: (value ++ rest)) = false :=
      Lexeme.is_eq_false assigned rfl
    refine gives_assignmentTo ?_ (.skipping noBracket ?_)
    · change startsAssignment (word :: sign :: (value ++ rest)) = true
      rw [startsAssignment_cons, name, if_neg (Bool.eq_false_iff.mp noBracket)]
      exact assigned
    · refine (gives_assignmentSign.within _).bind ?_
      rintro _ rfl
      refine Reader.Gives.place.bind fun start _ => ?_
      refine ((formula.assignmentWithin (by omega) (by omega) stops).within _).bind fun tree holds => ?_
      exact .pure (made start holds)

theorem elementAssigned {word opening closing sign : Lexeme} {index value : List Lexeme}
    (name : word.token.isName = true) (opened : opening.is .leftBracket = true)
    (place : bounds.Takes dialect goodFirst .assignment index) (closed : closing.is .rightBracket = true)
    (assigned : sign.token.assigns = true) (formula : bounds.Takes dialect goodSecond .assignment value)
    (made : ∀ start {index tree}, goodFirst index → goodSecond tree →
      good (.elementAssignment word start index sign tree)) :
    bounds.Takes dialect good .assignment (word :: opening :: (index ++ closing :: sign :: value)) where
  derived := .elementAssigned name opened place.derived closed assigned formula.derived
  gives level rest deep short stops := by
    simp only [List.length_append, List.length_cons, Phrase.slack] at deep short
    rw [List.cons_append, List.cons_append, List.append_assoc, List.cons_append, List.cons_append]
    have bracket : startsWith .leftBracket (opening :: (index ++ closing :: sign :: (value ++ rest))) = true :=
      opened
    refine gives_assignmentTo ?_ (.taking opened ?_)
    · rw [startsAssignment_cons, name, if_pos bracket,
        assignsElement_brackets opened closed place.derived.passedOver]
      exact assigned
    · refine Reader.Gives.place.bind fun start _ => ?_
      refine ((place.assignmentWithin (by omega) (by omega) (.terminal closed (by decide) nofun _)).within _).bind
        fun index goodIndex => ?_
      refine Reader.Gives.bind (.within ((Reader.Gives.require closed _).bind fun _ _ => gives_assignmentSign) _) ?_
      rintro _ rfl
      refine ((formula.assignmentWithin (by omega) (by omega) stops).within _).bind fun tree holds => ?_
      exact .pure (made start goodIndex holds)

end Bounds.Takes

/-! ## Conditionals -/

/-- A condition that no question mark follows stands alone. -/
theorem gives_unconditional {inner : Inner} {rest : List Lexeme} (stops : Stops 9 rest)
    (gives : (disjunction inner).Gives good lexemes rest) : (conditional inner).Gives good lexemes rest := by
  have noQuestion : startsWith .question rest = false := stops.startsWith_eq_false (by decide)
  refine Reader.Gives.place.bind fun start _ => ?_
  exact gives.bind fun condition holds => .skipping noQuestion (.pure holds)

namespace Bounds.Takes

theorem unconditional (disjunction : bounds.Takes dialect good (.run .disjunction) lexemes) :
    bounds.Takes dialect good .conditional lexemes where
  derived := .unconditional disjunction.derived
  gives level rest deep short stops :=
    gives_unconditional stops (disjunction.gives level rest deep short (stops.mono (by decide)))

theorem chosen {question colon : Lexeme} {condition consequent alternative : List Lexeme}
    (disjunction : bounds.Takes dialect goodFirst (.run .disjunction) condition)
    (asked : question.is .question = true) (first : bounds.Takes dialect goodSecond .assignment consequent)
    (separated : colon.is .colon = true) (second : bounds.Takes dialect goodThird .assignment alternative)
    (made : ∀ start branch {condition consequent alternative}, goodFirst condition → goodSecond consequent →
      goodThird alternative → good (.conditional start condition branch consequent alternative)) :
    bounds.Takes dialect good .conditional (condition ++ question :: (consequent ++ colon :: alternative)) where
  derived := .chosen disjunction.derived asked first.derived separated second.derived
  gives level rest deep short stops := by
    simp only [List.length_append, List.length_cons, Phrase.slack] at deep short
    rw [List.append_assoc, List.cons_append, List.append_assoc, List.cons_append]
    refine Reader.Gives.place.bind fun start _ => ?_
    refine (disjunction.gives level _ (show _ ≤ level + 1 by omega) (by omega)
      (.terminal asked (by decide) nofun _)).bind fun condition holds => ?_
    refine .taking asked ?_
    refine Reader.Gives.place.bind fun branch _ => ?_
    refine ((first.assignmentWithin (by omega) (by omega) (.terminal separated (by decide) nofun _)).within _).bind
      fun consequent holdsFirst => ?_
    refine Reader.Gives.within ?_ _
    refine (Reader.Gives.require separated _).bind fun _ _ => ?_
    refine (second.assignmentWithin (by omega) (by omega) stops).bind fun alternative holdsSecond => ?_
    exact .pure (made start branch holds holdsFirst holdsSecond)

end Bounds.Takes

/-! ## Runs -/

section

variable {α : Type} {level : Level} {sign : Reader (Option (BinaryOperator × α))}
  {property : List ((BinaryOperator × α) × Tree) → Prop}

/-- Reading a run ends in front of what does not go on with it. -/
theorem gives_noStep (isSign : level.IsSign sign) {rest : List Lexeme} (stops : Stops level.rank rest)
    (operand : Reader Tree) (soFar : List ((BinaryOperator × α) × Tree) → Tree) (count : Nat)
    {found : List ((BinaryOperator × α) × Tree)} (holds : property found.reverse) :
    (operators sign operand soFar count found).Gives property rest rest := by
  cases count with
  | zero => exact .pure holds
  | succ count =>
    refine (isSign.refused (operatorOf?_of_stops stops)).bind ?_
    rintro _ rfl
    exact .pure holds

/-- Reading a run goes on behind an operator and its operand. -/
theorem gives_step (isSign : level.IsSign sign) {spelling : Lexeme} {op : BinaryOperator}
    (spelled : operatorOf? level.operators spelling = some op) {operand : Reader Tree}
    {right between rest : List Lexeme}
    (gives : operand.Gives good (right ++ between) between) {soFar : List ((BinaryOperator × α) × Tree) → Tree}
    {count : Nat} {found : List ((BinaryOperator × α) × Tree)}
    (continued : ∀ detail tree, good tree →
      (operators sign operand soFar count (((op, detail), tree) :: found)).Gives property between rest) :
    (operators sign operand soFar (count + 1) found).Gives property (spelling :: (right ++ between)) rest := by
  refine (isSign.taken spelled _).bind ?_
  rintro _ ⟨detail, rfl⟩
  exact (gives.within _).bind fun tree holds => continued detail tree holds

theorem gives_run {bound : Nat} {operand : Reader Tree} {first between rest : List Lexeme}
    (gives : operand.Gives goodFirst (first ++ between) between)
    {make : Tree → List ((BinaryOperator × α) × Tree) → Tree}
    (steps : ∀ leftmost, goodFirst leftmost → (operators sign operand (make leftmost) bound []).Gives
      (fun run => good (if run.isEmpty then leftmost else make leftmost run)) between rest) :
    (run bound sign operand make).Gives good (first ++ between) rest :=
  gives.bind fun leftmost holds => (steps leftmost holds).bind fun _ holdsRun => .pure holdsRun

end

namespace Bounds.Takes

theorem operandOf {level : Level} (takes : bounds.Takes dialect good level.operand lexemes) {depth : Nat}
    {rest : List Lexeme} (deep : lexemes.length ≤ depth + 1) (short : lexemes.length ≤ bounds.bound)
    (stops : Stops (level.rank - 1) rest) :
    (level.operand.reader (bounds.inner depth)).Gives good (lexemes ++ rest) rest := by
  have gives := takes.gives depth rest
  cases level <;> exact gives deep short stops

theorem length_pos_operand {level : Level} (takes : bounds.Takes dialect good level.operand lexemes) :
    0 < lexemes.length := by
  have begins := takes.derived.begins
  cases level <;> exact Begins.length_pos begins

end Bounds.Takes

theorem gives_single (level : Level) {inner : Inner} {rest : List Lexeme} (stops : Stops level.rank rest)
    (gives : (level.operand.reader inner).Gives good (lexemes ++ rest) rest) :
    (level.reader inner).Gives good (lexemes ++ rest) rest := by
  have alone {α : Type} {sign : Reader (Option (BinaryOperator × α))} (isSign : level.IsSign sign)
      (make : Tree → List ((BinaryOperator × α) × Tree) → Tree) :
      (run inner.bound sign (level.operand.reader inner) make).Gives good (lexemes ++ rest) rest :=
    gives_run gives fun leftmost holds => gives_noStep isSign stops _ _ _ holds
  have arithmetic := alone (isSign_arithmeticSign level) .arithmetic
  have logical (start : Place) := alone (isSign_logicalSign level) (.logical start)
  cases level with
  | product => exact arithmetic
  | sum => exact arithmetic
  | conjunction => exact Reader.Gives.place.bind fun start _ => logical start
  | exclusion => exact Reader.Gives.place.bind fun start _ => logical start
  | disjunction => exact Reader.Gives.place.bind fun start _ => logical start

theorem Bounds.Takes.single (level : Level) (operand : bounds.Takes dialect good level.operand lexemes) :
    bounds.Takes dialect good (.run level) lexemes where
  derived := by
    have run := Derives.run operand.derived .noStep
    rwa [List.append_nil] at run
  gives depth rest deep short stops :=
    gives_single level stops (operand.operandOf deep short (stops.mono (Nat.sub_le _ _)))

theorem Level.rank_pred_lt (level : Level) : level.rank - 1 < level.rank := by
  cases level <;> decide

/-! ## Comparisons -/

theorem startsRelation_of_stops {rest : List Lexeme} (stops : Stops 4 rest) : startsRelation rest = false := by
  cases rest with
  | nil => rfl
  | cons first others =>
    refine Bool.eq_false_iff.mpr fun isRelation => ?_
    have above := stops.1
    rw [rank_of_isRelation isRelation] at above
    exact absurd above (Nat.lt_irrefl 4)

theorem gives_noSecondRelation {rest : List Lexeme} (stops : Stops 4 rest) :
    noSecondRelation.Gives (fun _ => True) rest rest :=
  ⟨(), if_neg (Bool.eq_false_iff.mp (startsRelation_of_stops stops)), trivial⟩

/-- A sum that no comparison follows stands alone. -/
theorem gives_unrelated {inner : Inner} {rest : List Lexeme} (stops : Stops 4 rest)
    (gives : (sum inner).Gives good lexemes rest) : (relation inner).Gives good lexemes rest := by
  have refused : ∀ first ∈ rest.head?, (if first.isRelation then some first else none) = none := by
    intro first next
    cases rest with
    | nil => cases next
    | cons head others =>
      cases next
      exact if_neg (Bool.eq_false_iff.mp (startsRelation_of_stops stops))
  refine gives.bind fun left holds => ?_
  refine Reader.Gives.bind ⟨none, Reader.accept_of_none refused, rfl⟩ ?_
  rintro _ rfl
  exact .pure holds

namespace Bounds.Takes

theorem unrelated (sum : bounds.Takes dialect good (.run .sum) lexemes) :
    bounds.Takes dialect good .relation lexemes where
  derived := .unrelated sum.derived
  gives level rest deep short stops :=
    gives_unrelated stops (sum.gives level rest deep short (stops.mono (by decide)))

theorem related {sign : Lexeme} {left right : List Lexeme}
    (first : bounds.Takes dialect goodFirst (.run .sum) left) (spelled : sign.isRelation = true)
    (second : bounds.Takes dialect goodSecond (.run .sum) right)
    (made : ∀ {left right}, goodFirst left → goodSecond right → good (.relation sign left right)) :
    bounds.Takes dialect good .relation (left ++ sign :: right) where
  derived := .related first.derived spelled second.derived
  gives level rest deep short stops := by
    simp only [List.length_append, List.length_cons, Phrase.slack] at deep short
    rw [List.append_assoc]
    refine (first.gives level _ (show _ ≤ level + 1 by omega) (by omega)
      (.sign (rank_of_isRelation spelled) (by decide) (by decide) _)).bind fun left holds => ?_
    refine Reader.Gives.bind ⟨some sign, Reader.accept_of_some (if_pos spelled) _, rfl⟩ ?_
    rintro _ rfl
    refine Reader.Gives.within ?_ _
    refine (second.gives level rest (show _ ≤ level + 1 by omega) (by omega) (stops.mono (by decide))).bind
      fun right holdsRight => ?_
    exact ((gives_noSecondRelation stops).within _).bind fun _ _ => .pure (made holds holdsRight)

end Bounds.Takes

/-! ## Prefix operators and powers -/

theorem unary_of_startsPrimary (inner : Inner) (begins : Begins Token.startsPrimary lexemes) (rest : List Lexeme) :
    unary inner (lexemes ++ rest) = power inner (lexemes ++ rest) := by
  rcases begins with ⟨⟨token, text, position⟩, others, rfl, starts⟩
  cases token with
  | fixed terminal => cases terminal <;> first | rfl | cases starts
  | _ => rfl

/-- What a prefix operator makes of its operand. -/
def signedBy (sign : Lexeme) (start : Place) (operand : Tree) : Tree :=
  match sign.token with
  | .fixed .minus => .negation sign operand
  | .fixed .plus => .affirmation sign operand
  | _ => .denial start operand

namespace Bounds.Takes

theorem signed {sign : Lexeme} {operand : List Lexeme} (spelled : sign.token.isSign = true)
    (takes : bounds.Takes dialect goodFirst .unary operand)
    (made : ∀ start {tree}, goodFirst tree → good (signedBy sign start tree)) :
    bounds.Takes dialect good .unary (sign :: operand) where
  derived := .signed spelled takes.derived
  gives level rest deep short stops := by
    have enough : operand.length + 1 ≤ level + 1 := deep
    have few : operand.length + 1 ≤ bounds.bound := short
    have reads : (bounds.inner level).operand.Gives goodFirst (operand ++ rest) rest :=
      takes.operandWithin (by omega) (by omega) stops
    have behind {make context : Tree → Tree} (holds : ∀ tree, goodFirst tree → good (make tree)) :
        (make <$> (bounds.inner level).operand.within context).Gives good (operand ++ rest) rest :=
      (reads.within context).bind fun tree holdsTree => .pure (holds tree holdsTree)
    rcases sign with ⟨token, text, position⟩
    cases token with
    | fixed terminal =>
      cases terminal with
      | minus => exact behind fun _ => made .ending
      | plus => exact behind fun _ => made .ending
      | bang => exact behind fun _ => made _
      | notWord => exact behind fun _ => made _
      | _ => cases spelled
    | _ => cases spelled

theorem unsigned (power : bounds.Takes dialect good .power lexemes) : bounds.Takes dialect good .unary lexemes where
  derived := .unsigned power.derived
  gives level rest deep short stops :=
    .of_eq (unary_of_startsPrimary _ power.derived.begins rest) (power.gives level rest deep short stops)

end Bounds.Takes

/-- What follows a primary before its subscripts. -/
theorem stops_subscripts (subscripts : Derives dialect .subscripts lexemes) {rest : List Lexeme}
    (stops : Stops 0 rest) : Stops 0 (lexemes ++ rest) := by
  cases subscripts with
  | noSubscript => exact stops
  | size opened _ _ => exact .terminal opened (by decide) nofun _
  | element opened _ _ _ => exact .terminal opened (by decide) nofun _
  | range opened _ _ _ _ _ => exact .terminal opened (by decide) nofun _

structure Bounds.Subscripts (bounds : Bounds) (dialect : Dialect) (good goodBehind : Tree → Prop)
    (lexemes : List Lexeme) : Prop where
  derived : Derives dialect .subscripts lexemes
  gives (level : Nat) (base : Tree) (rest : List Lexeme) (deep : lexemes.length ≤ level)
    (short : lexemes.length ≤ bounds.bound) (holds : good base) (other : startsWith .leftBracket rest = false) :
    ((bounds.inner level).subscripts base).Gives goodBehind (lexemes ++ rest) rest

theorem gives_noSubscript (limit bound level : Nat) {base : Tree} (holds : good base)
    (other : startsWith .leftBracket lexemes = false) :
    ((innerAt limit bound level).subscripts base).Gives good lexemes lexemes := by
  cases level with
  | zero => exact ⟨base, if_neg (Bool.eq_false_iff.mp other), holds⟩
  | succ level =>
    refine Reader.Gives.bind (Reader.Gives.refusing other) ?_
    rintro _ rfl
    exact .pure holds

theorem Bounds.Subscripts.none : bounds.Subscripts dialect good good [] where
  derived := .noSubscript
  gives level _ _ _ _ holds other := gives_noSubscript bounds.limit bounds.bound level holds other

theorem gives_base {inner : Inner} {between rest : List Lexeme} (stops : Stops 1 rest)
    (gives : (primary inner).Gives goodFirst lexemes between)
    (behind : ∀ base, goodFirst base → (inner.subscripts base).Gives good between rest) :
    (power inner).Gives good lexemes rest := by
  have noCaret : startsWith .caret rest = false := stops.startsWith_eq_false (by decide)
  refine gives.bind fun base holds => (behind base holds).bind fun tree holdsTree => ?_
  refine (Reader.Gives.refusing noCaret).bind ?_
  rintro _ rfl
  exact .pure holdsTree

namespace Bounds.Takes

theorem base {base subscripts : List Lexeme} (primary : bounds.Takes dialect goodFirst .primary base)
    (more : bounds.Subscripts dialect goodFirst good subscripts) :
    bounds.Takes dialect good .power (base ++ subscripts) where
  derived := .base primary.derived more.derived
  gives level rest deep short stops := by
    simp only [List.length_append, Phrase.slack] at deep short
    have some := Begins.length_pos primary.derived.begins
    rw [List.append_assoc]
    have noBracket : startsWith .leftBracket rest = false := stops.startsWith_eq_false (by decide)
    refine gives_base stops (primary.gives level _ (show _ ≤ level + 1 by omega) (by omega)
      (stops_subscripts more.derived (stops.mono (Nat.zero_le _)))) fun base holds => ?_
    exact more.gives level base rest (by omega) (by omega) holds noBracket

theorem raised {base subscripts exponent : List Lexeme} {caret : Lexeme}
    (primary : bounds.Takes dialect goodFirst .primary base)
    (more : bounds.Subscripts dialect goodFirst goodSecond subscripts) (spelled : caret.is .caret = true)
    (operand : bounds.Takes dialect goodThird .unary exponent)
    (made : ∀ {base exponent}, goodSecond base → goodThird exponent →
      good (.arithmetic base [((.pow, caret), exponent)])) :
    bounds.Takes dialect good .power (base ++ (subscripts ++ caret :: exponent)) where
  derived := .raised primary.derived more.derived spelled operand.derived
  gives level rest deep short stops := by
    simp only [List.length_append, List.length_cons, Phrase.slack] at deep short
    have some := Begins.length_pos primary.derived.begins
    rw [List.append_assoc, List.append_assoc, List.cons_append]
    refine (primary.gives level _ (show _ ≤ level + 1 by omega) (by omega)
      (stops_subscripts more.derived (.terminal spelled (by decide) nofun _))).bind fun base holds => ?_
    refine (more.gives level base _ (by omega) (by omega) holds
      (startsWith_cons_eq_false spelled (by decide) _)).bind fun base holdsBase => ?_
    refine (Reader.Gives.accepting spelled).bind ?_
    rintro _ rfl
    refine ((operand.operandWithin (by omega) (by omega) stops).within _).bind fun tree holdsTree => ?_
    exact .pure (made holdsBase holdsTree)

end Bounds.Takes

theorem gives_alone {inner : Inner} {rest : List Lexeme} (begins : Begins Token.startsPrimary lexemes)
    (other : startsAssignment (lexemes ++ rest) = false) (stops : Stops 9 rest)
    (gives : (power inner).Gives good (lexemes ++ rest) rest) :
    (assignment inner).Gives good (lexemes ++ rest) rest := by
  have unary : (unary inner).Gives good (lexemes ++ rest) rest :=
    .of_eq (unary_of_startsPrimary inner begins rest) gives
  have product := gives_single .product (stops.mono (by decide)) unary
  have sum := gives_single .sum (stops.mono (by decide)) product
  have relation := gives_unrelated (stops.mono (by decide)) sum
  have conjunction := gives_single .conjunction (stops.mono (by decide)) relation
  have exclusion := gives_single .exclusion (stops.mono (by decide)) conjunction
  have disjunction := gives_single .disjunction (stops.mono (by decide)) exclusion
  exact gives_unassigned other (gives_unconditional stops disjunction)

theorem Bounds.Takes.alone (primary : bounds.Takes dialect good .primary lexemes) :
    bounds.Takes dialect good .assignment lexemes := by
  have power := primary.base .none
  rw [List.append_nil] at power
  have sum := (power.unsigned.single .product).single .sum
  have conjunction : bounds.Takes dialect good (.run .conjunction) lexemes := sum.unrelated.single .conjunction
  have disjunction := (conjunction.single .exclusion).single .disjunction
  exact disjunction.unconditional.unassigned

/-! ## Blocks of one statement -/

def IsCloser (closing : Terminal) : Prop :=
  closing = .rightParen ∨ closing = .rightBrace

theorem statements_of_begins (inner : Inner) {closing : Terminal} (isCloser : IsCloser closing) (count : Nat)
    (found : List Tree) (begins : Begins Token.startsStatement lexemes) (rest : List Lexeme) :
    statements inner closing (count + 1) found (lexemes ++ rest) =
      statements.next inner closing count found (lexemes ++ rest) := by
  have other : startsWith closing (lexemes ++ rest) = false := by
    rcases isCloser with rfl | rfl <;> exact begins.startsWith_eq_false rfl rest
  rcases begins with ⟨first, others, rfl, -⟩
  rw [List.cons_append, statements]
  exact if_neg (Bool.eq_false_iff.mp other)

theorem stops_closer {closing : Terminal} (isCloser : IsCloser closing) {bracket : Lexeme}
    (closed : bracket.is closing = true) (rest : List Lexeme) : Stops 9 (bracket :: rest) := by
  rcases isCloser with rfl | rfl
  · exact .terminal closed (by decide) nofun rest
  · exact .terminal closed (by decide) nofun rest

theorem startsWith_closer {closing other : Terminal} (isCloser : IsCloser closing) {bracket : Lexeme}
    (closed : bracket.is closing = true) (apart : other ≠ .rightParen ∧ other ≠ .rightBrace)
    (rest : List Lexeme) : startsWith other (bracket :: rest) = false := by
  rcases isCloser with rfl | rfl
  · exact startsWith_cons_eq_false closed apart.1.symm rest
  · exact startsWith_cons_eq_false closed apart.2.symm rest

theorem gives_formula {inner : Inner} {rest : List Lexeme} (begins : Begins Token.startsFormula lexemes)
    (gives : inner.assignment.Gives good (lexemes ++ rest) rest) :
    (statement inner).Gives good (lexemes ++ rest) rest :=
  .skipping (begins.startsWith_eq_false rfl rest) gives

theorem gives_blockOfOne {inner : Inner} {closing : Terminal} (isCloser : IsCloser closing) {bracket : Lexeme}
    (closed : bracket.is closing = true) (some : 0 < inner.bound) (begins : Begins Token.startsStatement lexemes)
    {rest : List Lexeme} (gives : (statement inner).Gives good (lexemes ++ bracket :: rest) (bracket :: rest)) :
    (block inner closing).Gives good (lexemes ++ bracket :: rest) rest := by
  have next (count : Nat) : (statements.next inner closing count []).Gives good (lexemes ++ bracket :: rest) rest := by
    rw [statements.next]
    refine (gives.within _).bind fun tree holds => ?_
    refine .skipping (startsWith_closer isCloser closed (by decide) rest) ?_
    exact ((Reader.Gives.require closed _).within _).bind fun _ _ => .pure holds
  obtain ⟨count, more⟩ := Nat.exists_eq_succ_of_ne_zero (Nat.ne_of_gt some)
  rw [block, more]
  exact .of_eq (statements_of_begins inner isCloser count [] begins _) (next count)

namespace Bounds.Takes

theorem formula (assignment : bounds.Takes dialect good .assignment lexemes) :
    bounds.Takes dialect good .statement lexemes where
  derived := .formula assignment.derived
  gives _ _ deep short stops :=
    gives_formula assignment.derived.begins (assignment.assignmentWithin deep short stops)

end Bounds.Takes

/-! ## Literals, names and parentheses -/

/-- A primary that begins with a name is read behind it. -/
theorem gives_nameForm {inner : Inner} {word : Lexeme} (isName : word.token.isName = true)
    {ahead rest : List Lexeme} (gives : ∀ name, word.token = .name name →
      (nameForm inner word name).Gives good ahead rest) :
    (primary inner).Gives good (word :: ahead) rest := by
  rcases word with ⟨token, text, position⟩
  cases token with
  | name name => exact gives name rfl
  | _ => cases isName

/-- A primary that begins with a terminal is read behind it. -/
theorem gives_primary {inner : Inner} {terminal : Terminal} {first : Lexeme} (spelled : first.is terminal = true)
    {reader : Reader Tree} (same : ∀ text position rest,
      primary inner (⟨.fixed terminal, text, position⟩ :: rest) = reader rest) {ahead rest : List Lexeme}
    (gives : reader.Gives good ahead rest) : (primary inner).Gives good (first :: ahead) rest := by
  rcases first with ⟨token, text, position⟩
  rcases gives with ⟨tree, read, holds⟩
  have terminal : token = .fixed terminal := Lexeme.token_of_is spelled
  rw [terminal]
  exact ⟨tree, (same text position ahead).trans read, holds⟩

/-- A formula in parentheses is read inside the level that the parentheses are in. -/
theorem gives_parenthesized {inner : Inner} {opening closing : Lexeme} (opened : opening.is .leftParen = true)
    (closed : closing.is .rightParen = true) (some : 0 < inner.bound) (begins : Begins Token.startsFormula lexemes)
    {rest : List Lexeme} (gives : inner.assignment.Gives good (lexemes ++ closing :: rest) (closing :: rest)) :
    (primary inner).Gives good (opening :: (lexemes ++ closing :: rest)) rest :=
  gives_primary opened (fun _ _ _ => rfl) (gives_blockOfOne (.inl rfl) closed some
    (begins.imp fun _ => Token.startsStatement_of_startsFormula) (gives_formula begins gives))

namespace Bounds.Takes

theorem name {word : Lexeme} (isName : word.token.isName = true) (value : dialect.value word)
    (other : ∀ name, word.token = .name name → Builtin.find? name = none)
    (made : ∀ behind, good (.name word behind)) : bounds.Takes dialect good .primary [word] where
  derived := .name isName value
  gives level rest _ _ stops := by
    have noParen : startsWith .leftParen rest = false := stops.startsWith_eq_false (by decide)
    refine gives_nameForm isName fun name same => .skipping noParen ?_
    rw [other name same]
    exact Reader.Gives.remaining.bind fun behind _ => .pure (made behind)

theorem parenthesized {opening closing : Lexeme} (opened : opening.is .leftParen = true)
    (formula : bounds.Takes dialect good .assignment lexemes) (closed : closing.is .rightParen = true) :
    bounds.Takes dialect good .primary (opening :: (lexemes ++ [closing])) where
  derived := by
    have block := Derives.result formula.formula.derived .noSeparator
    rw [List.append_nil] at block
    exact .parentheses opened block closed
  gives level rest deep short _ := by
    simp only [List.length_cons, List.length_append, List.length_nil, Phrase.slack] at deep short
    rw [List.cons_append, List.append_assoc]
    have some : 0 < (bounds.inner level).bound := Nat.zero_lt_of_lt (show lexemes.length < bounds.bound by omega)
    exact gives_parenthesized opened closed some formula.derived.begins
      (formula.assignmentWithin (by omega) (by omega) (stops_closer (.inl rfl) closed rest))

end Bounds.Takes

end

end Grammar

end LiveExpr
