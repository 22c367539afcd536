import LiveExpr.Proofs.Grammar.Lookahead
import LiveExpr.Proofs.Pass.Order
import Mathlib.Tactic.SplitIfs

/-!
The routines of a pass keep order. A routine that calls others further in has moved over a lexeme before, so those calls
are made in front of fewer lexemes, and every round of a repetition takes one.
-/

namespace LiveExpr.Pass

open LiveExpr.Grammar
open LiveExpr.Pass.Parser

/-- Whether what is called further in keeps order in front of fewer lexemes than `size`, which leaves enough rounds. -/
structure Calls.Orderly (calls : Calls) (size : Nat) : Prop where
  assignment : calls.assignment.Orderly size 1
  operand : calls.operand.Orderly size 1
  rounds : calls.rounds = size + 1

variable {calls : Calls} {size : Nat}

theorem Calls.Orderly.enough (orderly : calls.Orderly size) : size ≤ calls.rounds :=
  orderly.rounds ▸ Nat.le_succ size

theorem expected_orderly (terminal : Terminal) (wanted : Expectation) : (expect terminal wanted).Orderly size 0 :=
  (Orderly.expect terminal wanted).weaken

/-! ## Lists -/

section

variable {α : Type} {item : Parser α}

theorem items_orderly (orderly : item.Orderly size 1) (closing : Terminal) {rounds : Nat} (enough : size ≤ rounds)
    (found : List α) : (items closing item rounds found).Orderly size 1 := by
  induction rounds generalizing size found with
  | zero =>
    obtain rfl := Nat.le_zero.mp enough
    exact .zero _
  | succ rounds induction =>
    refine .ofSucc fun fewer same => ?_
    subst same
    refine .behind orderly fun one => .either (.eat .comma) ?_ ?_
    · exact (induction (orderly.mono (Nat.le_succ fewer)) (Nat.le_of_succ_le_succ enough) _).weaken
    · exact (expected_orderly closing .listEnd).bind fun _ => .pure _

theorem list_orderly (orderly : calls.Orderly size) (items : item.Orderly size 1) (closing : Terminal) :
    (list calls closing item).Orderly size 1 := by
  refine .ofSucc fun fewer same => ?_
  subst same
  exact .eating (Nat.le_refl 1) (.pure []) (items_orderly items closing orderly.enough [])

end

theorem item_orderly {α : Type} (orderly : calls.Orderly size) (make : Place → AnyNode → Compile α) :
    (item calls make).Orderly size 1 :=
  .bind .place fun _ => .after orderly.assignment fun _ => .perform _

/-! ## Declarations -/

theorem vectorSize_orderly : vectorSize.Orderly size 1 := by
  refine .ofSucc fun fewer _ => .peeking (.failAt _ _) fun lexeme task state found => ?_
  dsimp only
  split
  · exact Orderly.step found (.pure _)
  · exact Orderly.failAt _ _ task state

theorem closedVectorSize_orderly : closedVectorSize.Orderly size 1 :=
  .after vectorSize_orderly fun _ => (expected_orderly .rightBracket .sizeEnd).bind fun _ => .pure _

theorem vectorDeclaration_orderly (orderly : calls.Orderly size) (word : Lexeme) (allowed : Bool) :
    (vectorDeclaration calls word allowed).Orderly size 1 := by
  refine .after closedVectorSize_orderly fun vectorSize => .either (.eat .assign) ?_ (.perform _)
  refine .ofSucc fun fewer same => .accepting (accept_accepts _) (Nat.zero_le 1) (fun bracket => ?_) ?_
  · subst same
    have elements := list_orderly orderly (item_orderly orderly (Compile.requireScalar .vectorElement)) .rightBrace
    exact ((elements.mono (Nat.le_succ fewer)).weaken).bind fun _ => .perform _
  · subst same
    exact .bind .place fun _ => orderly.assignment.weaken.bind fun _ => .perform _

theorem declarationOf_orderly (orderly : calls.Orderly size) (word : Lexeme) :
    (declarationOf calls word).Orderly size 0 := by
  refine .bind (.perform _) fun allowed => .either (.eat .leftBracket) ?_ ?_
  · exact (vectorDeclaration_orderly orderly word allowed).weaken
  · refine .either (.eat .assign) ?_ (.perform _)
    exact .bind .place fun _ => orderly.assignment.weaken.bind fun _ => .perform _

theorem declaration_orderly (orderly : calls.Orderly size) : (declaration calls).Orderly (size + 1) 1 := by
  refine .peeking (.failAt _ _) fun word task state found => ?_
  dsimp only
  split
  · exact Orderly.step found (declarationOf_orderly orderly word)
  · exact Orderly.failAt _ _ task state

/-! ## Blocks -/

theorem statement_orderly (orderly : calls.Orderly size) : (statement calls).Orderly size 1 := by
  refine .ofSucc fun fewer same => .eating (Nat.le_refl 1) ?_ ?_
  · subst same
    exact ((declaration_orderly orderly).mono (by omega)).weaken
  · subst same
    exact orderly.assignment

theorem blockOf_orderly (found : List AnyNode) : (blockOf found).Orderly size 0 := by
  unfold blockOf
  split
  · exact .pure _
  · exact .bind (.look .previousPlace) fun _ => .failAt _ _

theorem statements_orderly {limit : Nat} (orderly : calls.Orderly limit) (closing : Terminal) {rounds : Nat}
    (small : size ≤ limit) (enough : size ≤ rounds) (found : List AnyNode) :
    (statements calls closing rounds found).Orderly size 1 := by
  induction rounds generalizing size found with
  | zero =>
    obtain rfl := Nat.le_zero.mp enough
    exact .zero _
  | succ rounds induction =>
    refine .ofSucc fun fewer same => ?_
    subst same
    refine .eating (Nat.le_refl 1) (blockOf_orderly found) ?_
    refine .behind ((statement_orderly orderly).mono small) fun node => .either (.eat .semicolon) ?_ ?_
    · exact (induction (Nat.le_of_succ_le small) (Nat.le_of_succ_le_succ enough) _).weaken
    · exact (expected_orderly closing .blockEnd).bind fun _ => blockOf_orderly _

theorem block_orderly (orderly : calls.Orderly size) (closing : Terminal) : (block calls closing).Orderly size 1 :=
  statements_orderly orderly closing (Nat.le_refl size) orderly.enough []

theorem body_orderly (orderly : calls.Orderly size) : (body calls).Orderly size 1 := by
  refine .ofSucc fun fewer same => .eating (Nat.le_refl 1) ?_ ?_
  · subst same
    exact ((block_orderly orderly .rightBrace).mono (Nat.le_succ fewer)).weaken
  · subst same
    exact statement_orderly orderly

/-! ## Forms -/

theorem eatElse_orderly : eatElse.Orderly size 0 := by
  intro task state inside short
  rw [eatElse_apply]
  split
  · next ahead =>
    obtain ⟨separated, -⟩ := Bool.and_eq_true_iff.mp ahead
    obtain ⟨semicolon, found, -⟩ := (Option.any_eq_true _ _).mp separated
    exact (Orderly.eat .elseWord).advance found (Nat.zero_le 1) (Nat.lt_succ_of_lt short)
  · exact Orderly.eat .elseWord task state inside short

theorem ifForm_orderly (orderly : calls.Orderly size) : (ifForm calls).Orderly size 1 := by
  have formula : calls.assignment.Orderly size 0 := orderly.assignment.weaken
  have governed : (body calls).Orderly size 0 := (body_orderly orderly).weaken
  apply Orderly.after (Orderly.expect .leftParen .ifOpen)
  intro _
  apply Orderly.bind .place
  intro start
  apply formula.bind
  intro condition
  apply Orderly.bind (.perform _)
  intro condition
  apply Orderly.either (.eat .comma)
  -- a function of three arguments
  · apply Orderly.bind .place
    intro branch
    apply formula.bind
    intro consequent
    apply (expected_orderly .comma .ifComma).bind
    intro _
    apply formula.bind
    intro alternative
    apply (expected_orderly .rightParen .ifEnd).bind
    intro _
    exact .perform _
  -- a condition in parentheses
  · apply (expected_orderly .rightParen .conditionEnd).bind
    intro _
    apply Orderly.bind .place
    intro branch
    apply governed.bind
    intro consequent
    apply Orderly.either eatElse_orderly
    · apply governed.bind
      intro alternative
      exact .perform _
    · exact .perform _

theorem whileForm_orderly (orderly : calls.Orderly size) : (whileForm calls).Orderly size 1 := by
  have formula : calls.assignment.Orderly size 0 := orderly.assignment.weaken
  have governed : (body calls).Orderly size 0 := (body_orderly orderly).weaken
  apply Orderly.after (Orderly.expect .leftParen .whileOpen)
  intro _
  apply Orderly.bind .place
  intro start
  apply formula.bind
  intro condition
  apply Orderly.bind (.perform _)
  intro condition
  apply (expected_orderly .rightParen .whileEnd).bind
  intro _
  apply governed.bind
  intro body
  exact .perform _

theorem clause_orderly (ending : Terminal) (absent : AnyNode) {present : Parser AnyNode}
    (orderly : present.Orderly size 1) : (clause ending absent present).Orderly size 0 :=
  .either (.look (.check ending)) (.pure _) orderly.weaken

theorem forForm_orderly (orderly : calls.Orderly size) : (forForm calls).Orderly size 1 := by
  have effects (ending : Terminal) : (clause ending AnyNode.skip (statement calls)).Orderly size 0 :=
    clause_orderly ending AnyNode.skip (statement_orderly orderly)
  have conditions (absent : AnyNode) : (clause .semicolon absent calls.assignment).Orderly size 0 :=
    clause_orderly .semicolon absent orderly.assignment
  have governed : (body calls).Orderly size 0 := (body_orderly orderly).weaken
  apply Orderly.after (Orderly.expect .leftParen .forOpen)
  intro _
  apply (effects .semicolon).bind
  intro initializer
  apply (expected_orderly .semicolon .afterInitializer).bind
  intro _
  apply Orderly.bind .place
  intro start
  apply (conditions _).bind
  intro condition
  apply Orderly.bind (.perform _)
  intro condition
  apply (expected_orderly .semicolon .afterLoopCondition).bind
  intro _
  apply (effects .rightParen).bind
  intro increment
  apply (expected_orderly .rightParen .forEnd).bind
  intro _
  apply governed.bind
  intro body
  exact .perform _

theorem cases_orderly {limit : Nat} (orderly : calls.Orderly limit) {rounds : Nat} (small : size ≤ limit)
    (enough : size ≤ rounds) (found : List (Node .scalar × Node .scalar)) :
    (cases calls rounds found).Orderly size 0 := by
  induction rounds generalizing size found with
  | zero =>
    obtain rfl := Nat.le_zero.mp enough
    exact .zero _
  | succ rounds induction =>
    apply Orderly.ofSucc
    rintro fewer rfl
    have fits : fewer ≤ limit := Nat.le_of_succ_le small
    have formula : calls.assignment.Orderly fewer 0 := (orderly.assignment.mono fits).weaken
    -- behind the keyword of a case there is one lexeme less, also for the cases that follow
    refine Orderly.eating (Nat.zero_le 1) ?_ (.pure found)
    apply Orderly.bind .place
    intro start
    apply formula.bind
    intro condition
    apply Orderly.bind (.perform _)
    intro condition
    apply (expected_orderly .colon .caseColon).bind
    intro _
    apply Orderly.bind .place
    intro resultStart
    apply formula.bind
    intro result
    apply Orderly.bind (.perform _)
    intro result
    apply (expected_orderly .semicolon .caseEnd).bind
    intro _
    exact induction fits (Nat.le_of_succ_le_succ enough) _

theorem switchForm_orderly (orderly : calls.Orderly size) : (switchForm calls).Orderly size 1 := by
  have formula : calls.assignment.Orderly size 0 := orderly.assignment.weaken
  have tested : (cases calls calls.rounds []).Orderly size 0 :=
    cases_orderly orderly (Nat.le_refl size) orderly.enough []
  apply Orderly.after (Orderly.expect .leftBrace .switchOpen)
  intro _
  apply tested.bind
  intro cases
  apply (expected_orderly .defaultWord .caseOrDefault).bind
  intro _
  apply (expected_orderly .colon .defaultColon).bind
  intro _
  apply Orderly.bind .place
  intro start
  apply formula.bind
  intro otherwise
  apply Orderly.bind (.perform _)
  intro otherwise
  apply Orderly.bind (.eat .semicolon)
  intro _
  apply (expected_orderly .rightBrace .switchEnd).bind
  intro _
  exact .pure _

/-! ## Operands -/

theorem call_orderly (orderly : calls.Orderly size) (word : Lexeme) : (call calls word).Orderly size 1 := by
  refine .after (list_orderly orderly (item_orderly orderly _) .rightParen) fun arguments => ?_
  exact .bind (.look fun _ _ => ⟨_, rfl⟩) fun _ => .perform _

theorem name_orderly (orderly : calls.Orderly size) (word : Lexeme) (spelled : String) :
    (name calls word spelled).Orderly size 0 := by
  refine .either (.eat .leftParen) (call_orderly orderly word).weaken ?_
  split
  · exact .fail _
  · exact .bind (.perform _) fun binding => .bind (.look fun _ _ => ⟨_, rfl⟩) fun _ => .perform _

theorem primary_orderly (orderly : calls.Orderly size) : (primary calls).Orderly (size + 1) 1 := by
  refine .peeking .unexpected fun lexeme task state found => ?_
  dsimp only
  split
  · exact Orderly.step found (.pure _)
  · exact Orderly.step found (.pure _)
  · exact Orderly.step found (name_orderly orderly lexeme _)
  · exact Orderly.step found (.pure _)
  · exact Orderly.step found (.pure _)
  · exact Orderly.step found (block_orderly orderly .rightParen).weaken
  · exact Orderly.step found (block_orderly orderly .rightBrace).weaken
  · exact Orderly.step found (ifForm_orderly orderly).weaken
  · exact Orderly.step found (whileForm_orderly orderly).weaken
  · exact Orderly.step found (forForm_orderly orderly).weaken
  · exact Orderly.step found (switchForm_orderly orderly).weaken
  · exact Orderly.unexpected task state

theorem rangeEnd_orderly (orderly : calls.Orderly size) (bracket : Lexeme) (base : AnyNode) (firstStart : Place)
    (first : AnyNode) : (rangeEnd calls bracket base firstStart first).Orderly size 1 := by
  refine .ofSucc fun fewer same => .eating (Nat.le_refl 1) (.perform _) ?_
  subst same
  refine .bind .place fun lastStart => .after orderly.assignment fun last => ?_
  exact (expected_orderly _ _).bind fun _ => .perform _

theorem subscript_orderly (orderly : calls.Orderly size) (bracket : Lexeme) (base : AnyNode) :
    (subscript calls bracket base).Orderly size 1 := by
  refine .ofSucc fun fewer same => .eating (Nat.le_refl 1) (.perform _) ?_
  subst same
  refine .eating (Nat.le_refl 1) ((rangeEnd_orderly orderly _ _ _ _).mono (Nat.le_succ fewer)).weaken ?_
  refine .bind .place fun start => .after orderly.assignment fun index => .either (.eat .colon) ?_ ?_
  · exact (rangeEnd_orderly orderly _ _ _ _).weaken
  · exact (expected_orderly _ _).bind fun _ => .perform _

/-- Behind the last subscript and behind one that fails, as many levels are entered as at the start. -/
theorem subscripts_orderly {limit : Nat} (orderly : calls.Orderly limit) (entry : Nat) {rounds : Nat} (base : AnyNode)
    (small : size ≤ limit) (enough : size ≤ rounds) (task : Task) (state : State)
    (inside : state.cursor ≤ task.lexemes.length) (short : task.lexemes.length < state.cursor + size) :
    (subscripts calls entry rounds base task state).Orderly task (state.atDepth entry) 0 := by
  induction rounds generalizing size base state with
  | zero => omega
  | succ rounds induction =>
    cases next : task.lexemes[state.cursor]?.filter (·.is .leftBracket) with
    | none =>
      rw [subscripts_of_not calls entry rounds base next]
      exact ⟨Nat.le_refl _, inside, rfl⟩
    | some bracket =>
      have ahead := cursor_lt (Option.filter_eq_some_iff.mp next).1
      by_cases deep : task.settings.maxDepth ≤ state.depth
      · rw [subscripts_of_tooDeep calls entry rounds base next deep]
        exact Orderly.fail _ task (state.atDepth entry) inside short
      · have fewer : task.lexemes.length < state.cursor + 1 + (size - 1) := by omega
        have kept := (subscript_orderly orderly bracket base).mono (Nat.le_trans (Nat.sub_le size 1) small) task
          (state.atDepth (state.depth + 1)).advance ahead fewer
        rw [subscripts_of_bracket calls entry rounds base next deep]
        cases ran : subscript calls bracket base task (state.atDepth (state.depth + 1)).advance with
        | done found after =>
          rw [ran] at kept
          obtain ⟨moved, within, -⟩ := kept
          have moved : state.cursor + 1 + 1 ≤ after.cursor := moved
          have more := induction found (show size - 1 ≤ limit by omega) (by omega) after within (by omega)
          exact more.since (show state.cursor + 0 ≤ after.cursor by omega) rfl (Nat.le_refl 0)
        | failed report after =>
          rw [ran] at kept
          exact ⟨Nat.le_of_succ_le kept.1, kept.2.1, rfl⟩
        | broken | unfinished =>
          rw [ran] at kept
          exact kept

theorem subscripted_orderly (orderly : calls.Orderly size) : (subscripted calls).Orderly (size + 1) 1 := by
  refine .behind (primary_orderly orderly) fun base task state inside short => ?_
  exact subscripts_orderly orderly state.depth base (Nat.le_refl size) orderly.enough task state inside short

theorem power_orderly (orderly : calls.Orderly size) : (power calls).Orderly (size + 1) 1 := by
  refine .after (subscripted_orderly orderly) fun base => ?_
  refine .accepting (accept_accepts _) (Nat.zero_le 1) (fun sign => ?_) (.pure base)
  exact orderly.operand.weaken.bind fun _ => .perform _

theorem unary_orderly (orderly : calls.Orderly size) : (unary calls).Orderly (size + 1) 1 := by
  refine .peeking (power_orderly orderly) fun sign task state found => ?_
  have operand := orderly.operand.weaken
  dsimp only
  split
  · exact Orderly.step found (operand.bind fun _ => .perform _)
  · exact Orderly.step found (operand.bind fun _ => .perform _)
  · exact Orderly.step found (.bind .place fun _ => operand.bind fun _ => .perform _)
  · exact Orderly.step found (.bind .place fun _ => operand.bind fun _ => .perform _)
  · exact power_orderly orderly task state

/-! ## Operators between operands -/

section

variable {operand : Parser AnyNode}

theorem operators_orderly {α : Type} {sign : Parser (Option α)} (accepts : sign.Accepts) {limit : Nat}
    (orderly : operand.Orderly limit 1) (combine : Environment → α → AnyNode → AnyNode → Compile AnyNode) {rounds : Nat}
    (small : size ≤ limit) (enough : size ≤ rounds) (left : AnyNode) :
    (operators sign operand combine rounds left).Orderly size 0 := by
  induction rounds generalizing size left with
  | zero =>
    obtain rfl := Nat.le_zero.mp enough
    exact .zero _
  | succ rounds induction =>
    refine .ofSucc fun fewer same => .accepting accepts (Nat.zero_le 1) (fun spelled => ?_) (.pure left)
    subst same
    have fits := Nat.le_of_succ_le small
    refine (orderly.mono fits).weaken.bind fun right => .bind (.perform _) fun left => ?_
    exact induction fits (Nat.le_of_succ_le_succ enough) left

theorem arithmetic_orderly (orderly : calls.Orderly size) (operands : operand.Orderly (size + 1) 1)
    (level : List BinaryOperator) : (arithmetic calls level operand).Orderly (size + 1) 1 :=
  .behind operands fun first =>
    operators_orderly (accept_accepts _) operands _ (Nat.le_succ size) orderly.enough first

theorem logicalSign_accepts (level : List BinaryOperator) : (logicalSign level).Accepts := by
  intro task state
  obtain done | ⟨op, more, done⟩ := accept_accepts (Grammar.operatorOf? level) task state
  · exact .inl (bind_of_done done _)
  · obtain ⟨start, placed⟩ := Looks.place task state.advance
    refine .inr ⟨(op, start), more, ?_⟩
    exact (bind_of_done done _).trans (bind_of_done placed _)

theorem logical_orderly (orderly : calls.Orderly size) (operands : operand.Orderly (size + 1) 1)
    (level : List BinaryOperator) : (logical calls level operand).Orderly (size + 1) 1 :=
  .bind .place fun _ => .behind operands fun first =>
    operators_orderly (logicalSign_accepts level) operands _ (Nat.le_succ size) orderly.enough first

end

theorem product_orderly (orderly : calls.Orderly size) : (product calls).Orderly (size + 1) 1 :=
  arithmetic_orderly orderly (unary_orderly orderly) _

theorem sum_orderly (orderly : calls.Orderly size) : (sum calls).Orderly (size + 1) 1 :=
  arithmetic_orderly orderly (product_orderly orderly) _

theorem noSecondRelation_orderly : noSecondRelation.Orderly size 0 := by
  refine .bind (.look (.peekAt 0)) fun found => ?_
  split
  · exact .fail _
  · exact .pure _

theorem relation_orderly (orderly : calls.Orderly size) : (relation calls).Orderly (size + 1) 1 := by
  refine .after (sum_orderly orderly) fun left => ?_
  refine .accepting (accept_accepts _) (Nat.zero_le 1) (fun sign => ?_) (.pure left)
  refine ((sum_orderly orderly).mono (Nat.le_succ size)).weaken.bind fun right => ?_
  exact noSecondRelation_orderly.bind fun _ => .perform _

theorem conjunction_orderly (orderly : calls.Orderly size) : (conjunction calls).Orderly (size + 1) 1 :=
  logical_orderly orderly (relation_orderly orderly) _

theorem exclusion_orderly (orderly : calls.Orderly size) : (exclusion calls).Orderly (size + 1) 1 :=
  logical_orderly orderly (conjunction_orderly orderly) _

theorem disjunction_orderly (orderly : calls.Orderly size) : (disjunction calls).Orderly (size + 1) 1 :=
  logical_orderly orderly (exclusion_orderly orderly) _

theorem conditional_orderly (orderly : calls.Orderly size) : (conditional calls).Orderly (size + 1) 1 := by
  have formula : calls.assignment.Orderly size 0 := orderly.assignment.weaken
  apply Orderly.bind .place
  intro start
  apply (disjunction_orderly orderly).after
  intro condition
  refine Orderly.eating (Nat.zero_le 1) ?_ (.pure condition)
  apply Orderly.bind (.perform _)
  intro condition
  apply Orderly.bind .place
  intro branch
  apply formula.bind
  intro consequent
  apply (expected_orderly _ _).bind
  intro _
  apply formula.bind
  intro alternative
  exact .perform _

/-! ## Assignments -/

section

variable {task : Task} {state : State}

theorem startsWith_drop (terminal : Terminal) (lexemes : List Lexeme) (count : Nat) :
    startsWith terminal (lexemes.drop count) = lexemes[count]?.any (·.is terminal) := by
  rw [← List.head?_drop]
  cases lexemes.drop count <;> rfl

theorem signAt_done (offset : Nat) : signAt offset task state =
    .done (startsWithAssignmentSign (task.lexemes.drop (state.cursor + offset))) state := by
  change Outcome.done (task.lexemes[state.cursor + offset]?.any (·.token.assigns)) state = _
  rw [← List.head?_drop]
  cases task.lexemes.drop (state.cursor + offset) <;> rfl

/-- With a bracket open, the search for the closing one never counts below zero, and ends before the rounds do. -/
theorem closingBracket_done (rounds : Nat) {offset : Nat} (opened : Nat)
    (inside : state.cursor + offset ≤ task.lexemes.length)
    (enough : task.lexemes.length < state.cursor + offset + rounds) :
    ∃ distance, closingBracket rounds offset (opened + 1) task state = .done distance state ∧
      assignsElement (opened + 1) (task.lexemes.drop (state.cursor + offset)) =
        distance.any fun distance =>
          startsWithAssignmentSign (task.lexemes.drop (state.cursor + (distance + 1))) := by
  -- The count is `opened + 1`, so it can be decreased, and where nothing is left of it the search is over.
  induction rounds generalizing offset opened with
  | zero => omega
  | succ rounds induction =>
    cases found : task.lexemes[state.cursor + offset]? with
    | none =>
      refine ⟨none, ?_, ?_⟩
      · rw [closingBracket, bind_of_done (peekAt_apply offset task state), found]
        rfl
      · rw [List.drop_eq_nil_of_le (List.getElem?_eq_none_iff.mp found)]
        rfl
    | some lexeme =>
      have ahead : state.cursor + offset < task.lexemes.length := (List.getElem?_eq_some_iff.mp found).1
      have more := fun opened => induction opened (show state.cursor + (offset + 1) ≤ _ by omega) (by omega)
      have split : task.lexemes.drop (state.cursor + offset) =
          lexeme :: task.lexemes.drop (state.cursor + offset + 1) := by
        rw [← List.getElem_cons_drop ahead, (List.getElem?_eq_some_iff.mp found).2]
      have ran : closingBracket (rounds + 1) offset (opened + 1) task state =
          (if lexeme.is .leftBracket then closingBracket rounds (offset + 1) (opened + 2)
          else if lexeme.is .rightBracket then
            if opened = 0 then pure (some offset) else closingBracket rounds (offset + 1) opened
          else closingBracket rounds (offset + 1) (opened + 1)) task state := by
        rw [closingBracket, bind_of_done (peekAt_apply offset task state), found]
        rfl
      rw [ran, split, assignsElement]
      by_cases opens : lexeme.is .leftBracket
      · rw [if_pos opens, if_pos opens]
        exact more (opened + 1)
      rw [if_neg opens, if_neg opens]
      by_cases closes : lexeme.is .rightBracket
      · rw [if_pos closes, if_pos closes]
        cases opened with
        | zero => exact ⟨some offset, rfl, rfl⟩
        | succ opened => exact more opened
      · rw [if_neg closes, if_neg closes]
        exact more opened

/-- The lookahead answers what it is asked, wherever the cursor stands. -/
theorem atAssignment_done (enough : task.lexemes.length < state.cursor + calls.rounds) :
    atAssignment calls task state = .done (startsAssignment (task.lexemes.drop state.cursor)) state := by
  rw [atAssignment, bind_of_done (peek_apply task state)]
  cases found : task.lexemes[state.cursor]? with
  | none =>
    rw [List.drop_eq_nil_of_le (List.getElem?_eq_none_iff.mp found)]
    rfl
  | some word =>
    rw [List.drop_eq_getElem?_toList_append, found, Option.toList_some, List.singleton_append, startsAssignment_cons,
      Option.any_some]
    cases word.token.isName with
    | false => rfl
    | true =>
      rw [if_pos rfl, Bool.true_and, startsWith_drop]
      change (if task.lexemes[state.cursor + 1]?.any (·.is .leftBracket) then _ else signAt 1 : Parser Bool) task
        state = _
      by_cases opens : task.lexemes[state.cursor + 1]?.any (·.is .leftBracket)
      · rw [if_pos opens, if_pos opens]
        obtain ⟨opening, next, opened⟩ := (Option.any_eq_true _ _).mp opens
        have ahead := (List.getElem?_eq_some_iff.mp next).1
        obtain ⟨rounds, same⟩ : ∃ rounds, calls.rounds = rounds + 1 := Nat.exists_eq_succ_of_ne_zero (by omega)
        obtain ⟨distance, ran, answer⟩ :=
          closingBracket_done rounds 0 (show state.cursor + 2 ≤ task.lexemes.length from ahead) (by omega)
        have searched : closingBracket calls.rounds 1 0 task state = .done distance state := by
          rw [same, ← ran, closingBracket, bind_of_done (peekAt_apply 1 task state), next]
          dsimp only
          rw [if_pos opened]
        have counted : assignsElement 0 (task.lexemes.drop (state.cursor + 1)) =
            assignsElement 1 (task.lexemes.drop (state.cursor + 2)) := by
          rw [List.drop_eq_getElem?_toList_append, next, Option.toList_some, List.singleton_append, assignsElement,
            if_pos opened]
        rw [bind_of_done searched, counted, answer]
        cases distance with
        | none => rfl
        | some distance => exact signAt_done (distance + 1)
      · rw [if_neg opens, if_neg opens]
        exact signAt_done 1

theorem atAssignment_orderly (orderly : calls.Orderly size) : (atAssignment calls).Orderly size 0 := by
  intro task state inside short
  rw [atAssignment_done (orderly.rounds ▸ Nat.lt_succ_of_lt short)]
  exact ⟨Nat.le_refl _, inside, rfl⟩

end

theorem wholeAssignment_orderly (orderly : calls.Orderly size) (word : Lexeme) (target : Option Binding) :
    (wholeAssignment calls word target).Orderly size 1 :=
  .after .anyLexeme fun _ => .bind .place fun _ => orderly.assignment.weaken.bind fun _ => .perform _

theorem elementAssignment_orderly (orderly : calls.Orderly size) (word : Lexeme) (target : Option Binding) :
    (elementAssignment calls word target).Orderly size 1 := by
  have value : calls.assignment.Orderly size 0 := orderly.assignment.weaken
  apply Orderly.bind .place
  intro start
  apply orderly.assignment.after
  intro index
  apply (expected_orderly _ _).bind
  intro _
  apply Orderly.anyLexeme.weaken.bind
  intro sign
  apply value.bind
  intro found
  exact .perform _

theorem assignmentTo_orderly (orderly : calls.Orderly size) (word : Lexeme) :
    (assignmentTo calls word).Orderly size 1 :=
  .bind (.perform _) fun target =>
    .either (.eat _) (elementAssignment_orderly orderly word target) (wholeAssignment_orderly orderly word target)

theorem assigned_orderly (orderly : calls.Orderly size) : (assigned calls).Orderly (size + 1) 1 :=
  .behind .anyLexeme fun word => (assignmentTo_orderly orderly word).weaken

theorem assignmentBody_orderly (orderly : calls.Orderly size) : (assignmentBody calls).Orderly (size + 1) 1 := by
  intro task state inside short
  have enough : task.lexemes.length < state.cursor + calls.rounds := orderly.rounds ▸ short
  rw [assignmentBody, bind_of_done (atAssignment_done enough)]
  split
  · exact assigned_orderly orderly task state inside short
  · exact conditional_orderly orderly task state inside short

/-! ## Levels -/

theorem callsAt_orderly (fuel : Nat) : (callsAt fuel).Orderly fuel := by
  induction fuel with
  | zero => exact ⟨.zero _, .zero _, rfl⟩
  | succ fuel induction =>
    exact ⟨.nested (assignmentBody_orderly induction), .nested (unary_orderly induction), rfl⟩

/-! ## Programs -/

theorem statementEnd_orderly : statementEnd.Orderly size 0 := by
  refine .ofSucc fun fewer _ => .peeking (.pure ()) fun lexeme task state found => ?_
  dsimp only
  split
  · intro inside _
    rw [step_of_found found]
    exact ⟨Nat.le_succ _, cursor_lt found, rfl⟩
  · exact Orderly.failAt _ _ task state

theorem endedStatement_orderly (orderly : calls.Orderly size) : (endedStatement calls).Orderly size 1 :=
  .after (statement_orderly orderly) fun _ => statementEnd_orderly.bind fun _ => .pure _

/-- The place to go on from lies behind the first lexeme that is looked at, and not in front of the cursor. -/
theorem resumption_bounds {task : Task} {cursor : Nat} (inside : cursor ≤ task.lexemes.length) (depth : Int)
    {index : Nat} {lexemes : List Lexeme} (whole : index + lexemes.length = task.lexemes.length) :
    min (index + 1) task.lexemes.length ≤ resumption task cursor depth index lexemes ∧
      cursor ≤ resumption task cursor depth index lexemes ∧
      resumption task cursor depth index lexemes ≤ task.lexemes.length := by
  induction lexemes generalizing depth index with
  | nil => exact ⟨Nat.min_le_right _ _, inside, Nat.le_refl _⟩
  | cons first rest induction =>
    rw [List.length_cons] at whole
    have more := fun depth => induction depth (show index + 1 + rest.length = _ by omega)
    unfold resumption
    split_ifs with opens closes ends
    · have := more (depth + 1)
      omega
    · have := more (depth - 1)
      omega
    · simp only [Bool.and_eq_true, decide_eq_true_eq] at ends
      omega
    · have := more depth
      omega

theorem synchronize_orderly (start : Nat) : (synchronize start).Orderly size 0 := by
  intro task state inside _
  rcases Nat.le_total start task.lexemes.length with started | behind
  · have whole : start + (task.lexemes.drop start).length = task.lexemes.length := by
      rw [List.length_drop, Nat.add_sub_cancel' started]
    have bounds := resumption_bounds inside 0 whole
    exact ⟨bounds.2.1, bounds.2.2, rfl⟩
  · rw [synchronize, List.drop_eq_nil_of_le behind]
    exact ⟨inside, Nat.le_refl _, rfl⟩

/-- However a round ends, the cursor has moved on, and as many levels are entered as before. -/
theorem round_orderly (orderly : calls.Orderly size) {task : Task} {state : State}
    (more : state.cursor < task.lexemes.length) (short : task.lexemes.length < state.cursor + size) :
    ∃ node after, round calls task state = .done node after ∧
      state.cursor < after.cursor ∧ after.cursor ≤ task.lexemes.length ∧ after.depth = state.depth := by
  unfold round
  by_cases alone : task.lexemes[state.cursor]?.any (·.is .semicolon)
  · rw [bind_of_done ((eat_apply .semicolon task state).trans (if_pos alone))]
    exact ⟨none, state.advance, rfl, Nat.lt_succ_self _, more, rfl⟩
  rw [bind_of_done ((eat_apply .semicolon task state).trans (if_neg alone))]
  have kept := endedStatement_orderly orderly task state (Nat.le_of_lt more) short
  change ∃ node after, (attempt (endedStatement calls) >>= _) task state = .done node after ∧ _
  rw [bind_apply, attempt]
  cases ran : endedStatement calls task state with
  | done node after =>
    rw [ran] at kept
    exact ⟨some node, after, rfl, kept⟩
  | failed report after =>
    rw [ran] at kept
    obtain ⟨-, within, sameDepth⟩ := kept
    have whole : state.cursor + (task.lexemes.drop state.cursor).length = task.lexemes.length := by
      rw [List.length_drop]
      omega
    have bounds := resumption_bounds within 0 whole
    exact ⟨none, _, rfl, by dsimp only; omega, bounds.2.2, sameDepth⟩
  | broken | unfinished =>
    rw [ran] at kept
    exact kept.elim

/-! ## All routines -/

/-- Every routine keeps order, and a value costs it the lexemes that it is said to cost. -/
theorem Routine.orderly {α : Type} {need : Nat} {routine : Parser α} (cost : Routine calls need routine)
    (orderly : calls.Orderly size) : routine.Orderly size need := by
  have more := Nat.le_succ size
  induction cost with
  | eat terminal => exact .eat terminal
  | eatElse => exact eatElse_orderly
  | expect terminal wanted => exact .expect terminal wanted
  | anyLexeme => exact .anyLexeme
  | nested _ inside => exact .nested inside
  | assignment => exact orderly.assignment
  | operand => exact orderly.operand
  | list closing _ items => exact list_orderly orderly items closing
  | item make => exact item_orderly orderly make
  | vectorSize => exact vectorSize_orderly
  | closedVectorSize => exact closedVectorSize_orderly
  | vectorDeclaration word allowed => exact vectorDeclaration_orderly orderly word allowed
  | declarationOf word => exact declarationOf_orderly orderly word
  | declaration => exact (declaration_orderly orderly).mono more
  | statement => exact statement_orderly orderly
  | block closing => exact block_orderly orderly closing
  | body => exact body_orderly orderly
  | ifForm => exact ifForm_orderly orderly
  | whileForm => exact whileForm_orderly orderly
  | clause ending absent _ present => exact clause_orderly ending absent present
  | forForm => exact forForm_orderly orderly
  | switchForm => exact switchForm_orderly orderly
  | call word => exact call_orderly orderly word
  | name word spelled => exact name_orderly orderly word spelled
  | primary => exact (primary_orderly orderly).mono more
  | rangeEnd bracket base firstStart first => exact rangeEnd_orderly orderly bracket base firstStart first
  | subscript bracket base => exact subscript_orderly orderly bracket base
  | subscripted => exact (subscripted_orderly orderly).mono more
  | power => exact (power_orderly orderly).mono more
  | unary => exact (unary_orderly orderly).mono more
  | product => exact (product_orderly orderly).mono more
  | sum => exact (sum_orderly orderly).mono more
  | relation => exact (relation_orderly orderly).mono more
  | conjunction => exact (conjunction_orderly orderly).mono more
  | exclusion => exact (exclusion_orderly orderly).mono more
  | disjunction => exact (disjunction_orderly orderly).mono more
  | conditional => exact (conditional_orderly orderly).mono more
  | atAssignment => exact atAssignment_orderly orderly
  | assignmentTo word => exact assignmentTo_orderly orderly word
  | assignmentBody => exact (assignmentBody_orderly orderly).mono more
  | statementEnd => exact statementEnd_orderly
  | endedStatement => exact endedStatement_orderly orderly
  | synchronize start => exact synchronize_orderly start

end LiveExpr.Pass
