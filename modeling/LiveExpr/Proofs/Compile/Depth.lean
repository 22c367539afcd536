import LiveExpr.Expression
import LiveExpr.Proofs.Compile.Grammar
import LiveExpr.Proofs.Compile.Recovery
import LiveExpr.Proofs.Grammar.Levels

/-!
The limit of nesting only rejects: where no level is entered too many, a source compiles alike under every higher
limit.
-/

namespace LiveExpr

open Compile

/-- The settings with another limit of nesting. -/
def Settings.withDepth (settings : Settings) (depth : Nat) : Settings :=
  { settings with maxDepth := depth }

/-- The environment with another limit of nesting. -/
def Environment.withDepth (environment : Environment) (depth : Nat) : Environment :=
  { environment with settings := environment.settings.withDepth depth }

/-! ## Trees

The limit is for readers alone.
-/

mutual

theorem Tree.compile_withDepth (environment : Environment) (depth : Nat) :
    (tree : Tree) → tree.compile (environment.withDepth depth) = tree.compile environment
  | .number _ | .text _ | .stop _ _ => rfl
  | .name word rest => by
    rw [Tree.compile, Tree.compile]
    rfl
  | .call word arguments rest => by
    rw [Tree.compile, Tree.compile, compilePlaced_withDepth]
    rfl
  | .negation sign operand => by
    rw [Tree.compile, Tree.compile, operand.compile_withDepth]
    rfl
  | .affirmation sign operand => by
    rw [Tree.compile, Tree.compile, operand.compile_withDepth]
  | .denial start operand => by
    rw [Tree.compile, Tree.compile, operand.compile_withDepth]
    rfl
  | .arithmetic first rest => by
    rw [Tree.compile, Tree.compile, first.compile_withDepth]
    simp only [compileArithmetic_withDepth]
  | .logical start first rest => by
    rw [Tree.compile, Tree.compile, first.compile_withDepth]
    simp only [compileLogical_withDepth]
  | .relation sign left right => by
    rw [Tree.compile, Tree.compile, left.compile_withDepth, right.compile_withDepth]
    rfl
  | .conditional start condition branch consequent alternative => by
    rw [Tree.compile, Tree.compile, condition.compile_withDepth, consequent.compile_withDepth,
      alternative.compile_withDepth]
    rfl
  | .conditionalOnly start condition branch consequent => by
    rw [Tree.compile, Tree.compile, condition.compile_withDepth, consequent.compile_withDepth]
    rfl
  | .size bracket base => by
    rw [Tree.compile, Tree.compile, base.compile_withDepth]
    rfl
  | .element bracket base start index => by
    rw [Tree.compile, Tree.compile, base.compile_withDepth, index.compile_withDepth]
  | .range bracket base firstStart first lastStart last => by
    rw [Tree.compile, Tree.compile, base.compile_withDepth, first.compile_withDepth, last.compile_withDepth]
    rfl
  | .block statements result => by
    rw [Tree.compile, Tree.compile, compileStatements_withDepth, result.compile_withDepth]
  | .loop initializer start condition step body => by
    rw [Tree.compile, Tree.compile, initializer.compile_withDepth, condition.compile_withDepth,
      step.compile_withDepth, body.compile_withDepth]
    rfl
  | .choice cases start otherwise => by
    rw [Tree.compile, Tree.compile, compileCases_withDepth, otherwise.compile_withDepth]
  | .assignment word sign start value => by
    rw [Tree.compile, Tree.compile, value.compile_withDepth]
    rfl
  | .elementAssignment word start index sign value => by
    rw [Tree.compile, Tree.compile, index.compile_withDepth, value.compile_withDepth]
    rfl
  | .declaration word start value => by
    rw [Tree.compile, Tree.compile, value.compile_withDepth]
    rfl
  | .listedVector word size bracket elements => by
    rw [Tree.compile, Tree.compile, compileElements_withDepth]
    rfl
  | .filledVector word size start value => by
    rw [Tree.compile, Tree.compile, value.compile_withDepth]
    rfl
  | .andThen done stopped => by
    rw [Tree.compile, Tree.compile, done.compile_withDepth, stopped.compile_withDepth]

theorem compilePlaced_withDepth (environment : Environment) (depth : Nat) : (trees : List (Place × Tree)) →
    compilePlaced (environment.withDepth depth) trees = compilePlaced environment trees
  | [] => rfl
  | (_, tree) :: rest => by
    rw [compilePlaced, compilePlaced, tree.compile_withDepth, compilePlaced_withDepth]

theorem compileElements_withDepth (environment : Environment) (depth : Nat) : (trees : List (Place × Tree)) →
    compileElements (environment.withDepth depth) trees = compileElements environment trees
  | [] => rfl
  | (_, tree) :: rest => by
    rw [compileElements, compileElements, tree.compile_withDepth, compileElements_withDepth]

theorem compileArithmetic_withDepth (environment : Environment) (depth : Nat) (left : AnyNode) :
    (run : List ((BinaryOperator × Lexeme) × Tree)) →
      compileArithmetic (environment.withDepth depth) left run = compileArithmetic environment left run
  | [] => rfl
  | ((op, sign), tree) :: rest => by
    rw [compileArithmetic, compileArithmetic, tree.compile_withDepth]
    simp only [compileArithmetic_withDepth]
    rfl

theorem compileLogical_withDepth (environment : Environment) (depth : Nat) (start : Place) (left : AnyNode) :
    (run : List ((BinaryOperator × Place) × Tree)) →
      compileLogical (environment.withDepth depth) start left run = compileLogical environment start left run
  | [] => rfl
  | ((op, rightStart), tree) :: rest => by
    rw [compileLogical, compileLogical, tree.compile_withDepth]
    simp only [compileLogical_withDepth]
    rfl

theorem compileStatements_withDepth (environment : Environment) (depth : Nat) : (trees : List Tree) →
    compileStatements (environment.withDepth depth) trees = compileStatements environment trees
  | [] => rfl
  | first :: rest => by
    rw [compileStatements, compileStatements, first.compile_withDepth, compileStatements_withDepth]

theorem compileCases_withDepth (environment : Environment) (depth : Nat) :
    (cases : List ((Place × Tree) × (Place × Tree))) →
      compileCases (environment.withDepth depth) cases = compileCases environment cases
  | [] => rfl
  | ((_, condition), (_, result)) :: rest => by
    rw [compileCases, compileCases, condition.compile_withDepth, result.compile_withDepth, compileCases_withDepth]

end

/-! ## Statements and programs -/

namespace Compile

variable {environment : Environment} {bound : Nat} {lexemes : List Lexeme} {before after : Progress}

theorem statement_of_work {halt : Halt}
    (halted : Reader.outcomeWork (fun tree => tree) Tree.work
      (Grammar.endedStatement (Grammar.outermost environment.settings.maxDepth bound) lexemes) environment before =
        (.error halt, after)) :
    statement environment bound lexemes before = (.error halt, after) := by
  cases read : Grammar.endedStatement (Grammar.outermost environment.settings.maxDepth bound) lexemes with
  | ok pair =>
    rw [read] at halted
    rw [statement_of_ok read]
    exact bind_of_error (Tree.halted_of_work halted)
  | error stopped =>
    rw [read] at halted
    rw [statement_of_error read]
    exact bind_of_error (Tree.halted_of_work halted)

/-- What is read alike is compiled alike. -/
theorem statement_of_same {depth : Nat}
    (same : Grammar.endedStatement (Grammar.outermost environment.settings.maxDepth bound) lexemes =
      Grammar.endedStatement (Grammar.outermost depth bound) lexemes) :
    statement (environment.withDepth depth) bound lexemes = statement environment bound lexemes := by
  cases read : Grammar.endedStatement (Grammar.outermost environment.settings.maxDepth bound) lexemes with
  | ok pair =>
    rw [statement_of_ok read, @statement_of_ok (environment.withDepth depth) _ _ _ _ (same ▸ read),
      Tree.compile_withDepth]
  | error stopped =>
    rw [statement_of_error read, @statement_of_error (environment.withDepth depth) _ _ _ (same ▸ read),
      Tree.compile_withDepth]

theorem length_rest_le {node : AnyNode} {rest : List Lexeme}
    (done : statement environment bound lexemes before = (.ok (node, rest), after)) : rest.length ≤ lexemes.length := by
  obtain ⟨taken, -, ⟨-, rfl⟩ | ⟨semicolon, rfl, -⟩⟩ := statement_derives done
  · exact Nat.zero_le _
  · simp
    omega

variable {world : World} {depth : Nat} (deeper : environment.settings.maxDepth ≤ depth)

include deeper

/-- A statement is compiled alike, unless it enters too many levels. -/
theorem statement_withDepth (short : lexemes.length ≤ bound) (before : Progress) :
    (∃ halt after, statement environment bound lexemes before = (.error halt, after) ∧ halt.report.IsNesting) ∨
      statement (environment.withDepth depth) bound lexemes before = statement environment bound lexemes before := by
  obtain ⟨more, rfl⟩ := Nat.exists_eq_add_of_le deeper
  let limit := environment.settings.maxDepth
  have deepens := Grammar.innerAt_deepens limit (limit + more) bound limit more
  obtain ⟨-, -, same | ⟨stopped, read, cut⟩⟩ :=
    Grammar.endedStatement_deepens deepens lexemes (Nat.lt_succ_of_le short)
  · exact .inr (congrFun (statement_of_same same) before)
  · obtain ⟨halt, after, halted, reason⟩ := cut (environment.withDepth (limit + more)) before
    rw [Tree.compile_withDepth] at halted
    have shallow : statement environment bound lexemes before = (.error halt, after) := by
      rw [statement_of_error read]
      exact bind_of_error halted
    rw [shallow]
    exact reason.imp (fun nests => ⟨halt, after, rfl, nests⟩) statement_of_work

/-- Statements are compiled alike where none of them enters too many levels. -/
theorem statements_withDepth (bound count : Nat) {lexemes : List Lexeme} (short : lexemes.length ≤ bound)
    (reached : (Progress.start world).Reaches environment before)
    (shallow : ∀ report ∈ (statements environment bound count lexemes before).2.reports, ¬report.IsNesting) :
    statements (environment.withDepth depth) bound count lexemes before =
      statements environment bound count lexemes before := by
  induction count generalizing lexemes before with
  | zero => rfl
  | succ count induction =>
    cases lexemes with
    | nil => rfl
    | cons first rest =>
      cases alone : first.is .semicolon with
      | true =>
        rw [statements_separated alone] at shallow
        rw [statements_separated alone, statements_separated alone]
        exact induction (Nat.le_of_succ_le short) reached shallow
      | false =>
        have reaches := statement_reaches reached bound (first :: rest)
        have compared := statement_withDepth deeper short before
        rw [statements, if_neg (Bool.eq_false_iff.mp alone)] at shallow ⊢
        rw [statements, if_neg (Bool.eq_false_iff.mp alone)]
        cases done : statement environment bound (first :: rest) before with
        | mk outcome middle =>
          rw [done] at reaches compared shallow
          cases outcome with
          | error halt =>
            have recorded := (reached.trans reaches).tail (.report middle halt.report)
            let skip := (first :: rest).length - halt.rest.length
            have later := statements_reaches recorded bound count (Grammar.recover 0 skip (first :: rest))
            obtain ⟨_, _, ⟨⟩, nests⟩ | same := compared
            · exact absurd nests (shallow _ (later.mem_reports (List.mem_cons_self ..)))
            · rw [same]
              have fewer := (Grammar.recover_suffix 0 skip (first :: rest)).length_le
              exact induction (fewer.trans short) recorded shallow
          | ok pair =>
            obtain ⟨_, _, ⟨⟩, -⟩ | same := compared
            rw [same]
            have fewer := length_rest_le done
            dsimp only at shallow ⊢
            rw [induction (fewer.trans short) (reached.trans reaches) shallow]

theorem program_withDepth {lexemes : List Lexeme}
    (shallow : ∀ report ∈ (program environment lexemes (.start world)).2.reports, ¬report.IsNesting) :
    program (environment.withDepth depth) lexemes (.start world) = program environment lexemes (.start world) := by
  have same := @statements_withDepth _ _ world _ deeper lexemes.length lexemes.length lexemes (Nat.le_refl _) .refl ?_
  · rw [program, program, same]
  · intro report reported
    apply shallow report
    rw [program_eq, if_neg]
    · exact reported
    · rw [Bool.and_eq_true, List.isEmpty_iff, List.isEmpty_iff]
      rintro ⟨-, empty⟩
      rw [empty] at reported
      cases reported

end Compile

/-- A source is compiled alike under a higher limit, unless it enters too many levels. -/
theorem Compilation.ofSource_withDepth {environment : Environment} {world : World} {depth : Nat}
    (deeper : environment.settings.maxDepth ≤ depth) {source : String}
    (shallow : ∀ report ∈ (ofSource environment source world).reports, ¬report.IsNesting) :
    ofSource (environment.withDepth depth) source world = ofSource environment source world := by
  unfold ofSource at shallow ⊢
  cases tokenized : tokenize source with
  | error malformed => rfl
  | ok lexemes =>
    rw [tokenized] at shallow
    have same := Compile.program_withDepth deeper fun report reported =>
      shallow report (List.mem_reverse.mpr reported)
    dsimp only
    rw [same]

/-- The limit of nesting only rejects. If a source enters no level too many, then compiling it under a higher limit,
from the same tables and with the same resolver, comes to the same reports, the same accepted names, the same tables and
the same graph. -/
theorem Expression.compile_deeper (expression : Expression) (settings : Settings) (resolver : Option Resolver)
    (source : String) (world : World) {depth deeper : Nat} (higher : depth ≤ deeper)
    (shallow : ∀ report ∈ (expression.compile (settings.withDepth depth) resolver source world).2.reports,
      ¬report.IsNesting) :
    let one := expression.compile (settings.withDepth depth) resolver source world
    let other := expression.compile (settings.withDepth deeper) resolver source world
    other.2 = one.2 ∧ other.2.diagnostics source = one.2.diagnostics source ∧ other.1.table = one.1.table ∧
      other.1.compiled.map (·.root) = one.1.compiled.map (·.root) := by
  intro one other
  let environment : Environment := ⟨expression.table, resolver, settings.withDepth depth⟩
  have same : other.2 = one.2 := @Compilation.ofSource_withDepth environment world deeper higher source shallow
  have graph (compilation : Compilation) (settings : Settings) :
      (compilation.root.map (Compiled.mk source settings)).map (·.root) = compilation.root := by
    rw [Option.map_map]
    exact Option.map_id'
  refine ⟨same, by rw [same], rfl, ?_⟩
  change (other.2.root.map _).map _ = (one.2.root.map _).map _
  rw [graph, graph, same]

theorem tokenize_uncalled : tokenize "abs()+((true))" = .ok [⟨.name "abs", "abs", ⟨1, 1⟩⟩,
    ⟨.fixed .leftParen, "(", ⟨1, 4⟩⟩, ⟨.fixed .rightParen, ")", ⟨1, 5⟩⟩, ⟨.fixed .plus, "+", ⟨1, 6⟩⟩,
    ⟨.fixed .leftParen, "(", ⟨1, 7⟩⟩, ⟨.fixed .leftParen, "(", ⟨1, 8⟩⟩, ⟨.fixed .trueWord, "true", ⟨1, 9⟩⟩,
    ⟨.fixed .rightParen, ")", ⟨1, 13⟩⟩, ⟨.fixed .rightParen, ")", ⟨1, 14⟩⟩] := by
  with_unfolding_all rfl

theorem tokenize_nested : tokenize "!!true" =
    .ok [⟨.fixed .bang, "!", ⟨1, 1⟩⟩, ⟨.fixed .bang, "!", ⟨1, 2⟩⟩, ⟨.fixed .trueWord, "true", ⟨1, 3⟩⟩] := by
  with_unfolding_all rfl

/-- A formula that fits into the limit is compiled to the same graph under a higher one. Under a limit of one level, the
parentheses behind a call stand too deep, but the call in front of them is reported first; so it is under every higher
limit. -/
theorem Expression.compile_deeper_nested :
    let fitting := (Expression.mk ⟨0⟩ none).compile (Settings.standard.withDepth 3) none "!!true" .empty
    let roomy := (Expression.mk ⟨0⟩ none).compile (Settings.standard.withDepth 5) none "!!true" .empty
    let one := (Expression.mk ⟨0⟩ none).compile (Settings.standard.withDepth 1) none "abs()+((true))" .empty
    let other := (Expression.mk ⟨0⟩ none).compile (Settings.standard.withDepth 3) none "abs()+((true))" .empty
    (∀ report ∈ fitting.2.reports, ¬report.IsNesting) ∧
      roomy.1.compiled.map (·.root) = some (AnyNode.scalar (.constant 1.0)) ∧
      (∀ report ∈ one.2.reports, ¬report.IsNesting) ∧ other.2 = one.2 ∧
      one.2.reports = [⟨.wrongArity "abs" (.exactly 1) 0, .lexeme ⟨.name "abs", "abs", ⟨1, 1⟩⟩⟩] := by
  intro fitting roomy one other
  have compiled : fitting.2.root = some (AnyNode.scalar (.constant 1.0)) ∧ fitting.2.reports = [] := by
    change (Compilation.ofSource _ "!!true" .empty).root = _ ∧ (Compilation.ofSource _ "!!true" .empty).reports = _
    unfold Compilation.ofSource
    rw [tokenize_nested]
    exact ⟨rfl, rfl⟩
  have reports : one.2.reports = [⟨.wrongArity "abs" (.exactly 1) 0, .lexeme ⟨.name "abs", "abs", ⟨1, 1⟩⟩⟩] := by
    change (Compilation.ofSource _ "abs()+((true))" .empty).reports = _
    unfold Compilation.ofSource
    rw [tokenize_uncalled]
    cbv
  have clean : ∀ report ∈ fitting.2.reports, ¬report.IsNesting := by
    rw [compiled.2]
    exact List.forall_mem_nil _
  have shallow : ∀ report ∈ one.2.reports, ¬report.IsNesting := by
    rw [reports, List.forall_mem_singleton]
    rintro ⟨_, ⟨⟩⟩
  have success := compile_deeper ⟨⟨0⟩, none⟩ Settings.standard none "!!true" .empty (by decide : 3 ≤ 5) clean
  have failure := compile_deeper ⟨⟨0⟩, none⟩ Settings.standard none "abs()+((true))" .empty (by decide : 1 ≤ 3) shallow
  have graph : fitting.1.compiled.map (·.root) = some (AnyNode.scalar (.constant 1.0)) := by
    change (fitting.2.root.map _).map _ = _
    rw [compiled.1]
    rfl
  exact ⟨clean, success.2.2.2.trans graph, shallow, failure.1, reports⟩

end LiveExpr
