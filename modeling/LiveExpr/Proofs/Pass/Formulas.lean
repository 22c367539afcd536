import LiveExpr.Proofs.Grammar.Levels
import LiveExpr.Proofs.Pass.Forms
import LiveExpr.Proofs.Pass.Keeping

/-!
The formulas of a pass follow the readers of the grammar, from names and literals up to assignments, and so does what is
called on every level further in.
-/

namespace LiveExpr.Pass

open LiveExpr.Grammar
open LiveExpr.Compile
open LiveExpr.Pass.Parser

variable {task : Task} {level size : Nat} {calls : Calls}

/-! ## Calls and references -/

theorem arguments_gather (word : Lexeme) :
    Gathers task (pure ()) (.call word · []) (fun start node => pure (start, node))
      (compilePlaced task.environment) where
  none := rfl
  append found start tree := by
    simp only [compilePlaced_append, compilePlaced, bind_assoc, pure_bind]
  lasts start node := (Plain.pure _).lasts
  opened found start := by
    refine .of_opens (Work.Opens.call word found start []) ?_
    simp only [Work.arguments, Work.of, both, bind_assoc, pure_bind]

theorem name_follows (follow : calls.Follow task size) (within : level ≤ task.settings.maxDepth) (word : Lexeme)
    (spelled : String) :
    Follows task level size (nameForm (task.inner level) word spelled) (name calls word spelled) := by
  refine .either (takes_matches .leftParen) ?_ ?_
  · refine .entering (list_performs follow (arguments_gather word) within .rightParen) fun arguments => ?_
    refine .finishing (fun rest found => call_haltsAt task.environment word found rest) fun rest => ?_
    simp only [Tree.compile, pure_bind]
  · by_cases builtin : (Builtin.find? spelled).isSome
    · rw [if_pos builtin, if_pos builtin]
      exact .stop .alone _
    · rw [if_neg builtin, if_neg builtin]
      refine .computing (resolve_lasts task.environment word) ?_
      refine .finishing (fun rest found => reference_haltsAt task.environment.settings word rest found) fun rest => ?_
      simp only [Tree.compile]

theorem primary_follows (follow : calls.Follow task size) (within : level ≤ task.settings.maxDepth) :
    Follows task level (size + 1) (Grammar.primary (task.inner level)) (primary calls) := by
  refine .peeking (.unexpected .alone (List.nil_suffix)) fun first rest ends short => ?_
  have behind := (List.suffix_cons first rest).trans ends
  have block (closing : Terminal) := block_follows follow within closing rest behind short
  have literal {tree : Tree} {node : AnyNode} (compiled : tree.compile task.environment = pure node) :
      Performs.On task level (fun tree => tree) (pure ()) (fun tree => tree.compile task.environment) rest
        (fun _ => pure node) (.ok (tree, rest)) :=
    Performs.pure compiled rest behind short
  rcases first with ⟨token, text, position⟩
  cases token with
  | number value => exact .step (literal rfl) ends
  | text content => exact .step (literal rfl) ends
  | name spelled => exact .step (name_follows follow within _ spelled rest behind short) ends
  | fixed terminal =>
    cases terminal
    case trueWord => exact .step (literal rfl) ends
    case falseWord => exact .step (literal rfl) ends
    case leftParen => exact .step (block .rightParen) ends
    case leftBrace => exact .step (block .rightBrace) ends
    case ifWord => exact .step (ifForm_follows follow within rest behind short) ends
    case whileWord => exact .step (whileForm_follows follow within rest behind short) ends
    case forWord => exact .step (forForm_follows follow within rest behind short) ends
    case switchWord => exact .step (switchForm_follows follow within rest behind short) ends
    all_goals exact .unexpected .alone ends

/-! ## Subscripts -/

section Subscript

variable (bracket : Lexeme) (base : Tree)

theorem rangeEnd_performs (follow : calls.Follow task size) (within : level ≤ task.settings.maxDepth)
    (firstStart : Place) (first : Tree) :
    Performs task level size (fun tree => tree)
      (both (base.compile task.environment) fun _ => first.compile task.environment)
      (fun tree => tree.compile task.environment)
      (Grammar.rangeEnd (task.inner level).assignment bracket base firstStart first)
      fun done => rangeEnd calls bracket done.1 firstStart done.2 := by
  refine .either (takes_matches .rightBracket) ?_ (.scan place_matches fun lastStart => ?_)
  · refine .finish (fun done => (range_plain _ bracket done.1 firstStart done.2 .ending _).lasts) ?_
    simp only [Tree.compile, both, bind_assoc, pure_bind]
  · have opened : Opened task (.range bracket base firstStart first lastStart)
        (both (base.compile task.environment) fun _ => first.compile task.environment) := by
      refine .of_opens (.range bracket base firstStart first lastStart) ?_
      simp only [Work.andThen, Tree.work, Work.of, both, bind_assoc, pure_bind]
    refine .bind (.within (.entered (follow.assignment level within) opened)) fun last => ?_
    refine .pass (.within (.required (require_requires .rightBracket .rangeEnd) (opened.andThen last))) fun _ => ?_
    refine .finish (fun done => (range_plain _ bracket done.1.1 firstStart done.1.2 lastStart done.2).lasts) ?_
    simp only [Tree.compile, both, bind_assoc, pure_bind]

theorem subscript_performs (follow : calls.Follow task size) (within : level ≤ task.settings.maxDepth) :
    Performs task level size (fun tree => tree) (base.compile task.environment)
      (fun tree => tree.compile task.environment)
      (Grammar.subscript (task.inner level).assignment bracket base) (subscript calls bracket) := by
  refine .either (takes_matches .rightBracket) ?_ ?_
  · refine .finish (fun node => (size_plain _ bracket node).lasts) ?_
    simp only [Tree.compile]
  refine .either (takes_matches .colon) ?_ (.scan place_matches fun start => ?_)
  · exact (rangeEnd_performs bracket base follow within .ending (.number 0.0)).formed (fun node => (node, _)) rfl
  · have opened : Opened task (.element bracket base start) (base.compile task.environment) :=
      .of_opens (.element bracket base start) rfl
    refine .bind (.within (.entered (follow.assignment level within) opened)) fun index => ?_
    refine .either (takes_matches .colon) (rangeEnd_performs bracket base follow within start index) ?_
    refine .pass (.within (.required (require_requires .rightBracket .indexEnd) (opened.andThen index))) fun _ => ?_
    refine .finish (fun done => (element_plain bracket done.1 start done.2).lasts) ?_
    simp only [Tree.compile, both, bind_assoc, pure_bind]

end Subscript

section Deeper

variable {lexemes : List Lexeme} (progress : Progress) (within : level + 1 ≤ task.settings.maxDepth)

include within

/-- Where another level may be entered, the state on it is that with one level less to enter. -/
theorem deeper_at : (task.at (level + 1) lexemes progress).atDepth ((task.at (level + 1) lexemes progress).depth + 1) =
    task.at level lexemes progress := by
  have counted : task.settings.maxDepth - (level + 1) + 1 = task.settings.maxDepth - level := by omega
  rw [Task.at, State.atDepth, counted]
  rfl

theorem shallow_at (lexemes : List Lexeme) :
    ¬task.settings.maxDepth ≤ (task.at (level + 1) lexemes progress).depth := by
  change ¬task.settings.maxDepth ≤ task.settings.maxDepth - (level + 1)
  omega

end Deeper

def subscriptsFrom (calls : Calls) (task : Task) (entry level rounds : Nat) (node : AnyNode) : Parser AnyNode := do
  setDepth (task.settings.maxDepth - level)
  subscripts calls (task.settings.maxDepth - entry) rounds node

section Subscripts

variable {base : Tree} {bracket : Lexeme} {lexemes rest : List Lexeme} (entry rounds : Nat)

theorem subscripts_ended (ends : lexemes <:+ task.lexemes) (other : startsWith .leftBracket lexemes = false) :
    Performs.On task entry (fun tree => tree) (base.compile task.environment)
      (fun tree => tree.compile task.environment) lexemes (subscriptsFrom calls task entry level (rounds + 1))
      ((task.inner level).subscripts base lexemes) := by
  change Performs.On _ _ _ _ _ _ _ (subscriptsAt _ _ level base lexemes)
  rw [subscriptsAt_of_not level base other]
  refine ⟨List.suffix_refl _, .refl _, fun start node progress done => ?_⟩
  have absent : task.lexemes[(task.at level lexemes progress).cursor]?.filter (·.is .leftBracket) = none := by
    rw [head_at progress ends]
    cases lexemes with
    | nil => rfl
    | cons first rest => exact if_neg (Bool.eq_false_iff.mp other)
  dsimp only
  rw [done]
  exact subscripts_of_not calls _ rounds node absent

variable (opens : startsWith .leftBracket (bracket :: rest) = true)

include opens

theorem subscripts_succ :
    (task.inner (level + 1)).subscripts base (bracket :: rest) =
      (Grammar.subscript (task.inner level).assignment bracket base >>= (task.inner level).subscripts) rest := by
  change subscriptsAt _ _ (level + 1) base (bracket :: rest) = _
  rw [subscriptsAt, Reader.bind_of_ok (Reader.acceptTerminal_of_is opens rest)]
  rfl

variable (ends : bracket :: rest <:+ task.lexemes)

include ends

theorem bracket_at (progress : Progress) :
    task.lexemes[(task.at level (bracket :: rest) progress).cursor]?.filter (·.is .leftBracket) = some bracket := by
  rw [head_at progress ends]
  exact if_pos opens

theorem subscripts_refused :
    Performs.On task entry (fun tree => tree) (base.compile task.environment)
      (fun tree => tree.compile task.environment) (bracket :: rest) (subscriptsFrom calls task entry 0 (rounds + 1))
      ((task.inner 0).subscripts base (bracket :: rest)) := by
  change Performs.On _ _ _ _ _ _ _ (subscriptsAt _ task.lexemes.length 0 base (bracket :: rest))
  rw [subscriptsAt_zero base opens]
  refine ⟨.first _ _, fun start node progress done => ⟨_, progress, bind_of_ok done, ?_⟩⟩
  refine (subscripts_of_tooDeep calls _ rounds node (bracket_at opens ends progress) (Nat.le_refl _)).trans ?_
  exact bind_of_done (place_at progress ends) _

theorem subscripts_entered (within : level + 1 ≤ task.settings.maxDepth) (node : AnyNode) (progress : Progress) :
    subscriptsFrom calls task entry (level + 1) (rounds + 1) node task (task.at entry (bracket :: rest) progress) =
      match subscript calls bracket node task (task.at level rest progress) with
      | .done found after => subscripts calls (task.settings.maxDepth - entry) rounds found task after
      | .failed report after => .failed report (after.atDepth (task.settings.maxDepth - entry))
      | .broken => .broken
      | .unfinished => .unfinished := by
  have entered := subscripts_of_bracket calls (task.settings.maxDepth - entry) rounds node
    (bracket_at opens ends progress) (shallow_at progress within _)
  rwa [deeper_at _ within, advance_at _ ends] at entered

end Subscripts

/-- The subscripts of a node are passed one level further in each, and left with all those levels at once. -/
theorem subscripts_performs (follow : calls.Follow task size) (entry : Nat) (within : level ≤ task.settings.maxDepth)
    {fewer rounds : Nat} (few : fewer ≤ size + 1) (enough : fewer ≤ rounds) (base : Tree) :
    Performs task entry fewer (fun tree => tree) (base.compile task.environment)
      (fun tree => tree.compile task.environment) ((task.inner level).subscripts base)
      (subscriptsFrom calls task entry level rounds) := by
  induction fewer generalizing level rounds base with
  | zero => exact nofun
  | succ fewer induction =>
    cases rounds with
    | zero => omega
    | succ rounds =>
    intro lexemes ends short
    cases starts : startsWith .leftBracket lexemes with
    | false => exact subscripts_ended entry rounds ends starts
    | true =>
      cases lexemes with
      | nil => cases starts
      | cons bracket rest =>
        cases level with
        | zero => exact subscripts_refused entry rounds starts ends
        | succ level =>
          have behind := (List.suffix_cons bracket rest).trans ends
          have shorter : rest.length < fewer := Nat.lt_of_succ_lt_succ short
          -- The subscript stands on a level of its own, so the rules for a single level do not apply.
          rw [subscripts_succ starts]
          have one := subscript_performs bracket base follow (Nat.le_of_succ_le within) rest behind (by omega)
          have more (tree : Tree) (middle : List Lexeme) (taken : middle <:+ rest) :=
            induction (Nat.le_of_succ_le within) (by omega) (Nat.le_of_succ_le_succ enough) tree middle
              (taken.trans behind) (Nat.lt_of_le_of_lt taken.length_le shorter)
          refine one.continued (List.suffix_cons bracket rest) (fun tree middle _ => more tree middle) ?_ ?_
          · intro node progress found last after ran
            rw [subscripts_entered entry rounds starts ends within, ran]
            rfl
          · intro node progress report last after ran
            rw [subscripts_entered entry rounds starts ends within, ran]
            rfl

theorem subscripted_follows (follow : calls.Follow task size) (within : level ≤ task.settings.maxDepth) :
    Follows task level (size + 1) (Grammar.primary (task.inner level) >>= (task.inner level).subscripts)
      (subscripted calls) := by
  refine .entering (primary_follows follow within) fun base lexemes ends short => ?_
  have subscripts := subscripts_performs follow level within (Nat.le_refl _) follow.enough base lexemes ends short
  exact subscripts.behind (List.suffix_refl _) fun _ _ _ _ => rfl

/-! ## Powers and prefix operators -/

theorem power_follows (follow : calls.Follow task size) (within : level ≤ task.settings.maxDepth) :
    Follows task level (size + 1) (Grammar.power (task.inner level)) (power calls) := by
  unfold Grammar.power
  rw [← bind_assoc]
  refine .entering (subscripted_follows follow within) fun base => ?_
  refine .accepting (accept_signs _) (fun sign => ?_) (.pure (bind_pure _).symm)
  have opened : Opened task (fun tree => .arithmetic base [((.pow, sign), tree)]) (base.compile task.environment) := by
    refine .of_opens (.arithmetic base [] (.pow, sign)) ?_
    simp only [Tree.work, Work.of, Tree.compile, compileArithmetic, bind_pure]
  refine .bind (.within (.entered (follow.operand level within) opened)) fun exponent => ?_
  refine .finish (fun done => (arithmetic_plain _ .pow sign done.1 done.2).lasts) ?_
  simp only [Tree.compile, compileArithmetic, both, bind_assoc, pure_bind, bind_pure]

/-- An operator in front of an operand is computed behind that. -/
theorem operand_follows (follow : calls.Follow task size) (within : level ≤ task.settings.maxDepth)
    (make : Tree → Tree) (combine : AnyNode → Environment → Compile AnyNode)
    (compiled : ∀ tree, (make tree).compile task.environment =
      tree.compile task.environment >>= fun node => combine node task.environment)
    (lasts : ∀ node, (combine node task.environment).Lasts) :
    Follows task level size (make <$> (task.inner level).operand.within make)
      (calls.operand >>= fun node => perform (combine node)) := by
  have opened : Opened task make (pure () : Compile Unit) := by
    intro tree
    rw [compiled]
    exact .first _ _
  unfold Follows
  rw [map_eq_pure_bind]
  refine .entering (.within ?_) fun tree => .finish lasts (compiled tree)
  exact .entered (follow.operand level within) opened

theorem unary_follows (follow : calls.Follow task size) (within : level ≤ task.settings.maxDepth) :
    Follows task level (size + 1) (Grammar.unary (task.inner level)) (unary calls) := by
  have power := power_follows follow within
  refine .peeking (power [] List.nil_suffix (Nat.succ_pos size)) fun sign rest ends short => ?_
  have behind := (List.suffix_cons sign rest).trans ends
  have plain := power (sign :: rest) ends (Nat.succ_lt_succ short)
  have negation := operand_follows follow within (.negation sign)
    (fun node environment => Compile.negation environment.settings sign node) (fun tree => by rw [Tree.compile])
    (fun node => (negation_plain _ sign node).lasts) rest behind short
  have affirmation := operand_follows follow within (.affirmation sign) (fun node _ => Compile.affirmation sign node)
    (fun tree => by rw [Tree.compile]) (fun node => (affirmation_plain sign node).lasts) rest behind short
  have denial : Performs.On task level (fun tree => tree) (pure ()) (fun tree => tree.compile task.environment) rest
      (fun _ => do
        let start ← place
        let operand ← calls.operand
        perform fun environment => Compile.denial environment.settings start operand)
      ((.denial (.ofNext rest) <$> (task.inner level).operand.within (.denial (.ofNext rest)) : Reader Tree) rest) := by
    have found := operand_follows follow within (.denial (.ofNext rest))
      (fun node environment => Compile.denial environment.settings (.ofNext rest) node)
      (fun tree => by rw [Tree.compile]) (fun node => (denial_plain _ _ node).lasts) rest behind short
    exact found.behind (List.suffix_refl _) fun start found progress _ => bind_of_done (place_at progress behind) _
  rcases sign with ⟨token, text, position⟩
  cases token with
  | fixed terminal =>
    cases terminal
    case minus => exact .step negation ends
    case plus => exact .step affirmation ends
    case bang => exact .step denial ends
    case notWord => exact .step denial ends
    all_goals exact plain
  | number | text | name => exact plain

/-! ## Operators between operands -/

/-- Whether the operators of a run are computed one after another. -/
structure Combines {α : Type} (task : Task) (make : Tree → List (α × Tree) → Tree)
    (combine : Environment → α → AnyNode → AnyNode → Compile AnyNode) : Prop where
  alone (first : Tree) : (make first []).compile task.environment = first.compile task.environment
  append (first : Tree) (found : List (α × Tree)) (sign : α) (tree : Tree) :
    (make first (found ++ [(sign, tree)])).compile task.environment = do
      let left ← (make first found).compile task.environment
      let right ← tree.compile task.environment
      combine task.environment sign left right
  lasts (sign : α) (left right : AnyNode) : (combine task.environment sign left right).Lasts

section

variable {α : Type} {make : Tree → List (α × Tree) → Tree}
  {combine : Environment → α → AnyNode → AnyNode → Compile AnyNode} {sign : Reader (Option α)}
  {parseSign : Parser (Option α)} {operand : Reader Tree} {parse : Parser AnyNode}

theorem operators_performs (combines : Combines task make combine) (signs : Signs task sign parseSign)
    (operands : Follows task level (size + 1) operand parse) (first : Tree) {fewer bound rounds : Nat}
    (few : fewer ≤ size) (bounded : fewer ≤ bound) (enough : fewer < rounds) (found : List (α × Tree)) :
    Performs task level (fewer + 1) (fun tree => tree) ((make first found.reverse).compile task.environment)
      (fun run => (make first run).compile task.environment)
      (Grammar.operators sign operand (make first) bound found) (operators parseSign parse combine rounds) := by
  induction fewer generalizing bound rounds found with
  | zero =>
    intro lexemes ends short
    obtain rfl := List.length_eq_zero_iff.mp (Nat.lt_one_iff.mp short)
    obtain ⟨reads, ran⟩ | ⟨_, _, _, impossible, -⟩ := signs [] ends
    · have ended : Grammar.operators sign operand (make first) bound found [] = .ok (found.reverse, []) := by
        cases bound with
        | zero => rfl
        | succ bound =>
          rw [Grammar.operators, Reader.bind_of_ok reads]
          rfl
      obtain ⟨rounds, rfl⟩ := Nat.exists_eq_succ_of_ne_zero (Nat.ne_of_gt enough)
      rw [ended]
      refine ⟨List.suffix_refl _, .refl _, fun start left progress done => ?_⟩
      dsimp only
      rw [operators, bind_of_done (ran level progress), done]
      rfl
    · cases impossible
  | succ fewer induction =>
    cases bound with
    | zero => omega
    | succ bound =>
    cases rounds with
    | zero => omega
    | succ rounds =>
    refine .accepting signs (fun spelled => ?_) (.pure (bind_pure _).symm)
    have opened : Opened task (fun tree => make first ((spelled, tree) :: found).reverse)
        ((make first found.reverse).compile task.environment) := by
      intro tree
      dsimp only
      rw [List.reverse_cons, combines.append]
      exact .bind _ fun _ => .first _ _
    refine .bind (.within (.entered (operands.mono (by omega)) opened)) fun tree => ?_
    refine .performing (fun done => combines.lasts spelled done.1 done.2) ?_
    have more := induction (Nat.le_of_succ_le few) (Nat.le_of_succ_le_succ bounded) (Nat.lt_of_succ_lt_succ enough)
      ((spelled, tree) :: found)
    refine more.formed Prod.snd ?_
    simp only [both, List.reverse_cons, combines.append, bind_assoc, pure_bind, bind_pure]

theorem run_follows (combines : Combines task make combine) (signs : Signs task sign parseSign)
    (operands : Follows task level (size + 1) operand parse) {bound rounds : Nat} (bounded : size ≤ bound)
    (enough : size < rounds) :
    Follows task level (size + 1) (Grammar.run bound sign operand make)
      (parse >>= operators parseSign parse combine rounds) := by
  refine .entering operands fun first => ?_
  have steps := operators_performs combines signs operands first (Nat.le_refl size) bounded enough []
  rw [List.reverse_nil, combines.alone] at steps
  refine steps.mapped fun run => ?_
  split
  · next empty => rw [List.isEmpty_iff.mp empty, combines.alone]
  · rfl

end

theorem arithmetic_combines : Combines task Tree.arithmetic fun environment (sign : BinaryOperator × Lexeme) =>
    Compile.arithmetic environment.settings sign.1 sign.2 where
  alone first := by simp only [Tree.compile, compileArithmetic, bind_pure]
  append first found sign tree := by
    simp only [Tree.compile, compileArithmetic_append, compileArithmetic, bind_assoc, bind_pure]
  lasts sign left right := (arithmetic_plain _ sign.1 sign.2 left right).lasts

theorem logical_combines (start : Place) : Combines task (Tree.logical start)
    fun environment (sign : BinaryOperator × Place) left right =>
      Compile.logical environment.settings sign.1 start left sign.2 right where
  alone first := by simp only [Tree.compile, compileLogical, bind_pure]
  append first found sign tree := by
    simp only [Tree.compile, compileLogical_append, compileLogical, bind_assoc, bind_pure]
  lasts sign left right := (logical_plain _ sign.1 start left sign.2 right).lasts

theorem logicalSign_signs (level : List BinaryOperator) :
    Signs task (Grammar.logicalSign level) (logicalSign level) := by
  intro lexemes ends
  obtain ⟨reads, ran⟩ | ⟨op, first, rest, rfl, reads, ran⟩ := accept_signs (operatorOf? level) lexemes ends
  · exact .inl ⟨Reader.bind_of_ok reads _, fun level progress => bind_of_done (ran level progress) _⟩
  · refine .inr ⟨(op, .ofNext rest), first, rest, rfl, Reader.bind_of_ok reads _, fun level progress => ?_⟩
    refine (bind_of_done (ran level progress) _).trans (bind_of_done ?_ _)
    exact place_at progress ((List.suffix_cons first rest).trans ends)

section

variable {operand : Reader Tree} {parse : Parser AnyNode} (follow : calls.Follow task size)
  (operands : Follows task level (size + 1) operand parse)

include follow operands

theorem arithmetic_follows (operators : List BinaryOperator) :
    Follows task level (size + 1)
      (Grammar.run (task.inner level).bound (Grammar.arithmeticSign operators) operand Tree.arithmetic)
      (arithmetic calls operators parse) :=
  run_follows arithmetic_combines (accept_signs _) operands follow.small follow.enough

theorem logical_follows (operators : List BinaryOperator) :
    Follows task level (size + 1) (Grammar.logical (task.inner level) operators operand)
      (logical calls operators parse) :=
  .scan place_matches fun start =>
    run_follows (logical_combines start) (logicalSign_signs operators) operands follow.small follow.enough

end

theorem noSecondRelation_requires : Requires task Grammar.noSecondRelation noSecondRelation := by
  refine .peeking (.inl ⟨(), [], rfl, List.suffix_refl _, fun _ _ => rfl⟩) fun first rest ends => ?_
  dsimp only [Option.any_some]
  by_cases second : first.isRelation
  · rw [if_pos second]
    exact .inr ⟨_, first :: rest, if_pos second, fun level progress => bind_of_done (place_at progress ends) _⟩
  · rw [if_neg second]
    exact .inl ⟨(), first :: rest, if_neg second, List.suffix_refl _, fun _ _ => rfl⟩

theorem anyLexeme_at {first : Lexeme} {rest : List Lexeme} (ends : first :: rest <:+ task.lexemes)
    (progress : Progress) :
    anyLexeme task (task.at level (first :: rest) progress) = .done first (task.at level rest progress) := by
  rw [anyLexeme, bind_of_done (peek_at progress ends)]
  exact bind_of_done (step_at progress ends) _

theorem anyLexeme_requires : Requires task assignmentSign anyLexeme :=
  .peeking (.inr (.failAt rfl)) fun _ _ ends => .inl (.step rfl ends)

section

variable (follow : calls.Follow task size) (within : level ≤ task.settings.maxDepth)

include follow within

theorem product_follows : Follows task level (size + 1) (Grammar.product (task.inner level)) (product calls) :=
  arithmetic_follows follow (unary_follows follow within) _

theorem sum_follows : Follows task level (size + 1) (Grammar.sum (task.inner level)) (sum calls) :=
  arithmetic_follows follow (product_follows follow within) _

theorem relation_follows : Follows task level (size + 1) (Grammar.relation (task.inner level)) (relation calls) := by
  have sum := sum_follows follow within
  unfold Grammar.relation
  refine .entering sum fun left => .accepting (accept_signs _) (fun sign => ?_) (.pure (bind_pure _).symm)
  have opened : Opened task (.relation sign left) (left.compile task.environment) :=
    .of_opens (.relation sign left) rfl
  refine .within (.bind (.entered (sum.mono (Nat.le_succ size)) opened) fun right => ?_)
  refine .pass (.within (.required noSecondRelation_requires (opened.andThen right))) fun _ => ?_
  refine .finish (fun done => (relation_plain _ sign done.1 done.2).lasts) ?_
  simp only [Tree.compile, both, bind_assoc, pure_bind]

theorem conjunction_follows :
    Follows task level (size + 1) (Grammar.conjunction (task.inner level)) (conjunction calls) :=
  logical_follows follow (relation_follows follow within) _

theorem exclusion_follows : Follows task level (size + 1) (Grammar.exclusion (task.inner level)) (exclusion calls) :=
  logical_follows follow (conjunction_follows follow within) _

theorem disjunction_follows :
    Follows task level (size + 1) (Grammar.disjunction (task.inner level)) (disjunction calls) :=
  logical_follows follow (exclusion_follows follow within) _

theorem conditional_follows :
    Follows task level (size + 1) (Grammar.conditional (task.inner level)) (conditional calls) := by
  have assignment := follow.assignment level within
  refine .scan place_matches fun start => .entering (disjunction_follows follow within) fun condition => ?_
  refine .taking ?_ (.pure (bind_pure _).symm)
  refine .through (fun node => (requireScalar_plain _ start node).lasts) (.scan place_matches fun branch => ?_)
  have opened := (opened_consequent start condition branch fun tree => tree : Opened task _ _)
  refine .bind (.within (.entered assignment opened)) fun consequent => ?_
  have opened := (opened_alternative start condition branch consequent : Opened task _ _)
  refine .within (.pass (.required (require_requires .colon .conditionalColon) opened) fun _ => ?_)
  refine .bind (.entered assignment opened) fun alternative => ?_
  refine .finish (fun done => (conditional_plain _ done.1.1 branch done.1.2 done.2).lasts) ?_
  simp only [Tree.compile, both, bind_assoc, pure_bind]

/-! ## Assignments -/

theorem wholeAssignment_performs (word : Lexeme) :
    Performs task level size (fun tree => tree) (resolve task.environment word)
      (fun tree => tree.compile task.environment) (Grammar.wholeAssignment (task.inner level) word)
      (wholeAssignment calls word) := by
  have opened (sign : Lexeme) (start : Place) :
      Opened task (.assignment word sign start) (resolve task.environment word) :=
    .of_opens (.assignment word sign start) rfl
  refine .pass (.within (.required anyLexeme_requires (opened word .ending))) fun sign => ?_
  refine .scan place_matches fun start => ?_
  refine .bind (.within (.entered (follow.assignment level within) (opened sign start))) fun value => ?_
  refine .finish (fun done => (assignment_plain word sign done.1 start done.2).lasts) ?_
  simp only [Tree.compile, both, bind_assoc, pure_bind]

theorem elementAssignment_performs (word : Lexeme) :
    Performs task level size (fun tree => tree) (resolve task.environment word)
      (fun tree => tree.compile task.environment) (Grammar.elementAssignment (task.inner level) word)
      (elementAssignment calls word) := by
  have assignment := follow.assignment level within
  unfold Grammar.elementAssignment
  simp only [Reader.bind_within, bind_assoc]
  refine .scan place_matches fun start => ?_
  have opened : Opened task (fun tree => .elementAssignment word start tree word tree)
      (resolve task.environment word) := by
    refine .of_opens (.assignedIndex word start word .id fun tree => tree) ?_
    simp only [Work.andThen, Work.seeking, Work.none, Work.of, bind_assoc, pure_bind]
  refine .bind (.within (.entered assignment opened)) fun index => ?_
  have opened : Opened task (fun tree => .elementAssignment word start (.andThen index tree) word tree)
      (both (resolve task.environment word) fun _ => index.compile task.environment) := by
    refine .of_opens (.assignedIndex word start word (.andThen index) fun tree => tree) ?_
    simp only [Work.andThen, Work.seeking, Tree.work, Work.of, both, bind_assoc, pure_bind]
  refine .pass (.within (.required (require_requires .rightBracket .indexEnd) opened)) fun _ => ?_
  refine .pass (.within (.required anyLexeme_requires opened)) fun sign => ?_
  have opened : Opened task (.elementAssignment word start index sign)
      (both (resolve task.environment word) fun _ => index.compile task.environment) := by
    refine .of_opens (.assignedElement word start index sign) ?_
    simp only [Work.andThen, Work.seeking, Tree.work, Work.of, both, bind_assoc, pure_bind]
  refine .bind (.within (.entered assignment opened)) fun value => ?_
  refine .finish (fun done => (elementAssignment_plain word sign done.1.1 start done.1.2 done.2).lasts) ?_
  simp only [Tree.compile, both, bind_assoc, pure_bind]

theorem assignmentTo_follows (word : Lexeme) :
    Follows task level size (Grammar.assignmentTo (task.inner level) word) (assignmentTo calls word) := by
  refine .computing (resolve_lasts task.environment word) (.either (takes_matches .leftBracket) ?_ ?_)
  · exact elementAssignment_performs follow within word
  · exact wholeAssignment_performs follow within word

theorem assignment_follows :
    Follows task level (size + 1) (Grammar.assignment (task.inner level)) (assignmentBody calls) := by
  intro lexemes ends short
  have answered (progress : Progress) : assignmentBody calls task (task.at level lexemes progress) =
      (if startsAssignment lexemes then assigned calls else conditional calls : Parser AnyNode) task
        (task.at level lexemes progress) := by
    have fits := ends.length_le
    have enough : task.lexemes.length < (task.at level lexemes progress).cursor + calls.rounds := by
      change task.lexemes.length < task.lexemes.length - lexemes.length + calls.rounds
      have := follow.enough
      omega
    rw [assignmentBody, bind_of_done (atAssignment_done enough), drop_at progress ends]
  have otherwise := conditional_follows follow within lexemes ends short
  cases lexemes with
  | nil => exact otherwise.behind (List.suffix_refl _) fun start found progress _ => answered progress
  | cons word rest =>
    by_cases starts : startsAssignment (word :: rest)
    · rw [Grammar.assignment, if_pos starts]
      have behind := List.suffix_cons word rest
      have assigns := assignmentTo_follows follow within word rest (behind.trans ends) (Nat.lt_of_succ_lt_succ short)
      refine assigns.behind behind fun start found progress _ => (answered progress).trans ?_
      rw [if_pos starts]
      exact bind_of_done (anyLexeme_at ends progress) _
    · rw [Grammar.assignment, if_neg starts]
      refine otherwise.behind (List.suffix_refl _) fun start found progress _ => (answered progress).trans ?_
      rw [if_neg starts]

end

/-! ## Levels -/

theorem nested_at {parse : Parser AnyNode} {lexemes rest : List Lexeme} {progress : Progress}
    {result : Except Halt AnyNode × Progress} (within : level + 1 ≤ task.settings.maxDepth)
    (ran : parse task (task.at level lexemes progress) = task.ended level rest result) :
    nested parse task (task.at (level + 1) lexemes progress) = task.ended (level + 1) rest result := by
  have shallow := shallow_at progress within lexemes
  have counted : task.settings.maxDepth - level = task.settings.maxDepth - (level + 1) + 1 := by omega
  rw [← deeper_at progress within] at ran
  rcases result with ⟨_ | value, after⟩
  · exact nested_of_failed shallow ran counted
  · exact nested_of_done shallow ran counted

theorem nested_follows {read : Reader Tree} {parse : Parser AnyNode} (within : level + 1 ≤ task.settings.maxDepth)
    (follows : Follows task level size read parse) : Follows task (level + 1) size read (nested parse) := by
  intro lexemes ends short
  have on := follows lexemes ends short
  cases outcome : read lexemes with
  | ok pair =>
    rw [outcome] at on
    obtain ⟨taken, leads, runs⟩ := on
    exact ⟨taken, leads, fun start found progress done => nested_at within (runs start found progress done)⟩
  | error stopped =>
    rw [outcome] at on
    obtain ⟨leads, runs⟩ := on
    refine ⟨leads, fun start found progress done => ?_⟩
    obtain ⟨halt, after, halted, ran⟩ := runs start found progress done
    have result : parse task (task.at level lexemes progress) = task.ended level lexemes (.error halt, after) := ran
    exact ⟨halt, after, halted, nested_at within result⟩

/-- Where no more levels may be entered, both stop at once. -/
theorem nested_stops (parse : Parser AnyNode) :
    Follows task 0 size (Reader.stop (.tooDeep task.settings.maxDepth)) (nested parse) := by
  intro lexemes ends short
  refine (Performs.stop .alone _ lexemes ends short).behind (List.suffix_refl _) fun start found progress _ => ?_
  exact nested_of_tooDeep (Nat.le_refl _)

theorem callsAt_follows {fuel : Nat} (enough : size ≤ fuel) (small : size ≤ task.lexemes.length + 1)
    (within : level ≤ task.settings.maxDepth) :
    Follows task level size (task.inner level).assignment (callsAt fuel).assignment ∧
      Follows task level size (task.inner level).operand (callsAt fuel).operand := by
  induction fuel generalizing size level with
  | zero =>
    obtain rfl := Nat.le_zero.mp enough
    exact ⟨nofun, nofun⟩
  | succ fuel induction =>
    cases size with
    | zero => exact ⟨nofun, nofun⟩
    | succ size =>
      have fits := Nat.le_of_succ_le_succ enough
      have short := Nat.le_of_succ_le_succ small
      have follow : (callsAt fuel).Follow task size :=
        { assignment level within := (induction fits (Nat.le_succ_of_le short) within).1
          operand level within := (induction fits (Nat.le_succ_of_le short) within).2
          enough := (callsAt_orderly fuel).rounds ▸ Nat.lt_succ_of_le fits
          small := short }
      cases level with
      | zero => exact ⟨nested_stops _, nested_stops _⟩
      | succ level =>
        have deeper := Nat.le_of_succ_le within
        have assignment := assignment_follows follow deeper
        exact ⟨nested_follows within assignment, nested_follows within (unary_follows follow deeper)⟩

/-- With enough calls to be nested, what is called further in follows the readers of every level. -/
theorem callsAt_follow {fuel : Nat} (enough : size ≤ fuel) (small : size ≤ task.lexemes.length) :
    (callsAt fuel).Follow task size where
  assignment _ within := (callsAt_follows enough (Nat.le_succ_of_le small) within).1
  operand _ within := (callsAt_follows enough (Nat.le_succ_of_le small) within).2
  enough := (callsAt_orderly fuel).rounds ▸ Nat.lt_succ_of_le enough
  small := small

end LiveExpr.Pass
