import LiveExpr.Proofs.Pass.Agreement

/-!
The keyword forms of a pass follow the readers of the grammar: both spellings of `if`, the loops and `switch`. What has
been read of a form is the context in which its next part is read, and what has been computed is what opens it.
-/

namespace LiveExpr.Pass

open LiveExpr.Grammar
open LiveExpr.Compile
open LiveExpr.Pass.Parser

variable {task : Task} {level size : Nat} {calls : Calls}

/-! ## Conditionals -/

theorem takesElse_matches : Matches task takesElse eatElse := by
  intro lexemes ends
  have looked (level : Nat) (progress : Progress) := eatElse_apply task (task.at level lexemes progress)
  simp only [head_at _ ends, second_at _ ends] at looked
  match lexemes with
  | [] =>
    refine ⟨false, [], rfl, List.suffix_refl _, fun level progress => (looked level progress).trans ?_⟩
    exact eat_of_not progress ends rfl
  | [only] =>
    obtain ⟨answer, rest, reads, taken, ran⟩ := takes_matches .elseWord [only] ends
    refine ⟨answer, rest, reads, taken, fun level progress => (looked level progress).trans ?_⟩
    rw [if_neg (by simp)]
    exact ran level progress
  | first :: second :: others =>
    have behind := List.suffix_cons first (second :: others)
    by_cases separated : first.is .semicolon && second.is .elseWord
    · refine ⟨true, others, if_pos separated, (List.suffix_cons second others).trans behind, fun level progress => ?_⟩
      refine (looked level progress).trans ((if_pos separated).trans ?_)
      rw [advance_at progress ends]
      exact eat_of_is progress (behind.trans ends) (Bool.and_eq_true_iff.mp separated).2
    · obtain ⟨answer, rest, reads, taken, ran⟩ := takes_matches .elseWord (first :: second :: others) ends
      refine ⟨answer, rest, (if_neg separated).trans reads, taken, fun level progress => ?_⟩
      exact (looked level progress).trans ((if_neg separated).trans (ran level progress))

def scalarOf (environment : Environment) (role : Role) (start : Place) (tree : Tree) : Compile (Node .scalar) := do
  let node ← tree.compile environment
  requireScalar role start node

section Conditional

variable (start : Place) (condition : Tree) (branch : Place)

theorem opened_consequent (alternative : Tree → Tree) :
    Opened task (fun tree => .conditional start condition branch tree (alternative tree))
      (scalarOf task.environment .condition start condition) :=
  .of_opens (.consequent start condition branch alternative) rfl

theorem opened_alternative (consequent : Tree) :
    Opened task (.conditional start condition branch consequent)
      (both (scalarOf task.environment .condition start condition) fun _ => consequent.compile task.environment) := by
  refine .of_opens (.alternative start condition branch consequent) ?_
  simp only [Work.andThen, Work.scalar, Tree.work, Work.of, scalarOf, both, bind_assoc, pure_bind]

theorem secondBranch_performs (follow : calls.Follow task size) (within : level ≤ task.settings.maxDepth)
    (consequent : Tree) :
    Performs task level size (fun tree => tree)
      (both (scalarOf task.environment .condition start condition) fun _ => consequent.compile task.environment)
      (fun tree => tree.compile task.environment)
      (secondBranch (task.inner level) start condition branch consequent)
      (fun done => do
        if ← eatElse then
          let alternative ← body calls
          perform fun environment => Compile.conditional environment.settings done.1 branch done.2 alternative
        else perform fun environment => Compile.conditionalOnly environment.settings done.1 branch done.2) := by
  refine .either takesElse_matches ?_ ?_
  · have opened := (opened_alternative start condition branch consequent : Opened task _ _)
    refine .bind (.within (.entered (body_follows follow within) opened)) fun alternative => ?_
    refine .finish (fun done => (conditional_plain _ done.1.1 branch done.1.2 done.2).lasts) ?_
    simp only [Tree.compile, scalarOf, both, bind_assoc, pure_bind]
  · refine .finish (fun done => (conditionalOnly_plain _ done.1 branch done.2).lasts) ?_
    simp only [Tree.compile, scalarOf, both, bind_assoc, pure_bind]

end Conditional

theorem ifForm_follows (follow : calls.Follow task size) (within : level ≤ task.settings.maxDepth) :
    Follows task level size (Grammar.ifForm (task.inner level)) (ifForm calls) := by
  have assignment := follow.assignment level within
  unfold Grammar.ifForm
  simp only [Reader.bind_within, Reader.place_within, Reader.pure_within, bind_assoc, pure_bind]
  refine .pass (.required (require_requires .leftParen .ifOpen) .alone) fun _ => .scan place_matches fun start => ?_
  refine .entering assignment fun condition => .through (fun node => (requireScalar_plain _ start node).lasts) ?_
  refine .either (takes_matches .comma) ?_ ?_
  · refine .scan place_matches fun branch => ?_
    have opened := (opened_consequent start condition branch fun tree => tree : Opened task _ _)
    refine .bind (.within (.entered assignment opened)) fun consequent => ?_
    have opened := (opened_alternative start condition branch consequent : Opened task _ _)
    refine .pass (.within (.required (require_requires .comma .ifComma) opened)) fun _ => ?_
    refine .bind (.within (.entered assignment opened)) fun alternative => ?_
    have opened := opened.andThen alternative
    refine .pass (.within (.within (.required (require_requires .rightParen .ifEnd) opened))) fun _ => ?_
    refine .finish (fun done => (conditional_plain _ done.1.1 branch done.1.2 done.2).lasts) ?_
    simp only [Tree.compile, both, bind_assoc, pure_bind]
  · have opened := (opened_consequent start condition .ending fun tree => tree : Opened task _ _)
    refine .pass (.within (.required (require_requires .rightParen .conditionEnd) opened)) fun _ => ?_
    refine .scan place_matches fun branch => ?_
    refine .bind (.within (.entered (body_follows follow within) opened)) fun consequent => ?_
    exact secondBranch_performs start condition branch follow within consequent

/-! ## Loops -/

theorem whileForm_follows (follow : calls.Follow task size) (within : level ≤ task.settings.maxDepth) :
    Follows task level size (Grammar.whileForm (task.inner level)) (whileForm calls) := by
  unfold Grammar.whileForm
  simp only [Reader.bind_within, Reader.pure_within]
  refine .pass (.required (require_requires .leftParen .whileOpen) .alone) fun _ => .scan place_matches fun start => ?_
  refine .entering (follow.assignment level within) fun condition => ?_
  refine .through (fun node => (requireScalar_plain _ start node).lasts) ?_
  have opened : Opened task (.loop nothing start condition nothing)
      (scalarOf task.environment .loopCondition start condition) := by
    refine .of_opens (.loopBody nothing start condition nothing) ?_
    simp only [Work.andThen, Work.entry, Work.scalar, Tree.work, Work.of, nothing, Tree.compile, scalarOf, bind_assoc,
      pure_bind]
  refine .pass (.within (.required (require_requires .rightParen .whileEnd) opened)) fun _ => ?_
  refine .bind (.within (.entered (body_follows follow within) opened)) fun body => ?_
  refine .finish (fun _ => (Plain.pure _).lasts) ?_
  simp only [Tree.compile, nothing, both, bind_assoc, pure_bind, AnyNode.skip]

theorem clause_follows (ending : Terminal) {absent : Tree} {node : AnyNode}
    (compiled : absent.compile task.environment = pure node) {present : Reader Tree} {parse : Parser AnyNode}
    (follows : Follows task level size present parse) :
    Follows task level size (Grammar.clause ending absent present) (clause ending node parse) :=
  .either (sees_matches ending) (.pure compiled) follows

theorem forForm_follows (follow : calls.Follow task size) (within : level ≤ task.settings.maxDepth) :
    Follows task level size (Grammar.forForm (task.inner level)) (forForm calls) := by
  have assignment := follow.assignment level within
  have statement := statement_follows follow within assignment (by omega)
  unfold Grammar.forForm
  simp only [Reader.bind_within, Reader.place_within, Reader.pure_within, bind_assoc, pure_bind]
  refine .pass (.required (require_requires .leftParen .forOpen) .alone) fun _ => ?_
  refine .entering (clause_follows .semicolon rfl statement) fun initializer => ?_
  have opened : Opened task (.andThen initializer) (initializer.compile task.environment) :=
    .of_opens (.andThen initializer) rfl
  refine .pass (.within (.required (require_requires .semicolon .afterInitializer) opened)) fun _ => ?_
  refine .scan place_matches fun start => ?_
  refine .bind (.within (.entered (clause_follows .semicolon rfl assignment) opened)) fun condition => ?_
  refine .performing (fun done => (requireScalar_plain _ start done.2).lasts) ?_
  have opened : Opened task (fun tree => .loop initializer start condition tree tree)
      (both (both (initializer.compile task.environment) fun _ => condition.compile task.environment)
        fun done => requireScalar .loopCondition start done.2) := by
    refine .of_opens (.loopStep initializer start condition fun tree => tree) ?_
    simp only [Work.andThen, Work.entry, Work.scalar, Tree.work, Work.of, both, bind_assoc, pure_bind]
  refine .pass (.within (.required (require_requires .semicolon .afterLoopCondition) opened)) fun _ => ?_
  refine .bind (.within (.entered (clause_follows .rightParen rfl statement) opened)) fun increment => ?_
  have opened : Opened task (.loop initializer start condition increment)
      (both (both (both (initializer.compile task.environment) fun _ => condition.compile task.environment)
        fun done => requireScalar .loopCondition start done.2) fun _ => increment.compile task.environment) := by
    refine .of_opens (.loopBody initializer start condition increment) ?_
    simp only [Work.andThen, Work.entry, Work.scalar, Tree.work, Work.of, both, bind_assoc, pure_bind]
  refine .pass (.within (.required (require_requires .rightParen .forEnd) opened)) fun _ => ?_
  refine .bind (.within (.entered (body_follows follow within) opened)) fun body => ?_
  refine .finish (fun _ => (Plain.pure _).lasts) ?_
  simp only [Tree.compile, both, bind_assoc, pure_bind]

/-! ## Choices -/

theorem cases_performs (follow : calls.Follow task size) (within : level ≤ task.settings.maxDepth)
    {fewer bound rounds : Nat} (few : fewer ≤ size) (bounded : fewer ≤ bound) (enough : fewer ≤ rounds)
    (found : List ((Place × Tree) × (Place × Tree))) :
    Performs task level fewer (fun tree => tree) (compileCases task.environment found.reverse)
      (compileCases task.environment) (Grammar.cases (task.inner level) bound found) (cases calls rounds) := by
  induction fewer generalizing bound rounds found with
  | zero => exact nofun
  | succ fewer induction =>
    cases bound with
    | zero => omega
    | succ bound =>
    cases rounds with
    | zero => omega
    | succ rounds =>
    unfold Grammar.cases
    simp only [Reader.bind_within, Reader.place_within, Reader.pure_within, bind_assoc, pure_bind]
    refine .taking ?_ (.pure (bind_pure _).symm)
    have assignment := (follow.assignment level within).mono (Nat.le_of_succ_le few)
    refine .scan place_matches fun start => ?_
    have opened (found : List ((Place × Tree) × (Place × Tree))) :
        Opened task (.choice found.reverse .ending) (compileCases task.environment found.reverse) :=
      .of_opens (.choice found.reverse .ending) rfl
    refine .bind (.within (.entered assignment (opened found))) fun condition => ?_
    refine .performing (fun done => (requireScalar_plain _ start done.2).lasts) ?_
    have inside : Opened task
        (fun tree => .choice (((start, condition), (.ending, tree)) :: found).reverse .ending tree)
        (both (both (compileCases task.environment found.reverse) fun _ => condition.compile task.environment)
          fun done => requireScalar .caseCondition start done.2) := by
      simp only [List.reverse_cons]
      refine .of_opens (.caseResult found.reverse start condition .ending .ending fun tree => tree) ?_
      simp only [Work.andThen, Work.cases, Work.scalar, Work.of, both, bind_assoc, pure_bind]
    refine .pass (.within (.required (require_requires .colon .caseColon) inside)) fun _ => ?_
    refine .scan place_matches fun resultStart => ?_
    refine .bind (.within (.entered assignment inside)) fun result => ?_
    refine .performing (fun done => (requireScalar_plain _ resultStart done.2).lasts) ?_
    have grown : compileCases task.environment (((start, condition), (resultStart, result)) :: found).reverse =
        both (both (both (both (compileCases task.environment found.reverse) fun _ =>
          condition.compile task.environment) fun done => requireScalar .caseCondition start done.2) fun _ =>
          result.compile task.environment) (fun done => requireScalar .caseResult resultStart done.2) >>=
            fun done => pure (done.1.1.1.1 ++ [(done.1.1.2, done.2)]) := by
      simp only [both, List.reverse_cons, compileCases_append, compileCases, bind_assoc, pure_bind]
    refine .pass (.within (.required (require_requires .semicolon .caseEnd) ((opened _).formed grown))) fun _ => ?_
    have more := induction (Nat.le_of_succ_le few) (Nat.le_of_succ_le_succ bounded) (Nat.le_of_succ_le_succ enough)
      (((start, condition), (resultStart, result)) :: found)
    exact more.formed _ grown

theorem switchForm_follows (follow : calls.Follow task size) (within : level ≤ task.settings.maxDepth) :
    Follows task level size (Grammar.switchForm (task.inner level)) (switchForm calls) := by
  unfold Grammar.switchForm
  simp only [Reader.bind_within, Reader.place_within, Reader.pure_within, bind_assoc, pure_bind]
  refine .pass (.required (require_requires .leftBrace .switchOpen) .alone) fun _ => ?_
  have cases := cases_performs follow within (Nat.le_refl size) follow.small (Nat.le_of_lt follow.enough) []
  refine .entering (cases.formed (fun _ => []) rfl) fun cases => ?_
  have opened : Opened task (.choice cases .ending) (compileCases task.environment cases) :=
    .of_opens (.choice cases .ending) rfl
  refine .pass (.within (.required (require_requires .defaultWord .caseOrDefault) opened)) fun _ => ?_
  refine .pass (.within (.required (require_requires .colon .defaultColon) opened)) fun _ => ?_
  refine .scan place_matches fun start => ?_
  refine .bind (.within (.entered (follow.assignment level within) opened)) fun otherwise => ?_
  refine .performing (fun done => (requireScalar_plain _ start done.2).lasts) ?_
  refine .scan (takes_matches .semicolon) fun _ => ?_
  have opened : Opened task (.andThen (.choice cases start otherwise))
      (both (both (compileCases task.environment cases) fun _ => otherwise.compile task.environment)
        fun done => requireScalar .defaultResult start done.2) := by
    refine .of_opens (.andThen _) ?_
    simp only [Tree.work, Work.of, Tree.compile, both, bind_assoc, pure_bind]
  refine .pass (.within (.required (require_requires .rightBrace .switchEnd) opened)) fun _ => .pure ?_
  simp only [Tree.compile, both, bind_assoc, pure_bind]

end LiveExpr.Pass
