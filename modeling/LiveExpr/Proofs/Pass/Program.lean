import LiveExpr.Proofs.Compile.Recovery
import LiveExpr.Proofs.Pass.Formulas

/-!
Passes over whole programs. Round by round, a pass comes to what compiling the trees of a program comes to, and a round
that meets a statement which does not fit the grammar moves on as well. So compilation makes progress and ends, whatever
the lexemes, the names and the settings are.
-/

namespace LiveExpr.Pass

open LiveExpr.Grammar
open LiveExpr.Compile
open LiveExpr.Pass.Parser

variable {task : Task}

abbrev Task.front (task : Task) (lexemes : List Lexeme) (progress : Progress) : State :=
  task.at task.settings.maxDepth lexemes progress

/-! ## Statements -/

theorem statementEnd_requires : Requires task Grammar.statementEnd statementEnd := by
  refine .peeking (.inl ⟨(), [], rfl, List.suffix_refl _, fun _ _ => rfl⟩) fun first rest ends => ?_
  dsimp only
  by_cases ended : first.is .semicolon
  · rw [if_pos ended]
    exact .inl ⟨(), rest, if_pos ended, List.suffix_cons _ _, fun _ progress => step_at progress ends⟩
  · rw [if_neg ended]
    exact .inr (.failAt (if_neg ended))

section

variable {fuel : Nat} (enough : task.lexemes.length < fuel)

include enough

theorem endedStatement_follows :
    Follows task task.settings.maxDepth (task.lexemes.length + 1)
      (Grammar.endedStatement (task.inner task.settings.maxDepth)) (endedStatement (callsAt fuel)) := by
  have follow : (callsAt fuel).Follow task task.lexemes.length := callsAt_follow (Nat.le_of_lt enough) (Nat.le_refl _)
  have follows : Follows task task.settings.maxDepth (task.lexemes.length + 1) _ (callsAt fuel).assignment :=
    (callsAt_follows enough (Nat.le_refl _) (Nat.le_refl _)).1
  refine .entering (statement_follows follow (Nat.le_refl _) follows (by omega)) fun tree => ?_
  have opened : Opened task (.andThen tree) (tree.compile task.environment) :=
    .of_opens (.andThen tree) rfl
  exact .pass (.within (.required statementEnd_requires opened)) fun _ => .pure (bind_pure _).symm

/-- A statement is compiled alike, and where it halts, the cursor stands in front of the same lexemes. -/
theorem endedStatement_at {lexemes : List Lexeme} (ends : lexemes <:+ task.lexemes) (progress : Progress) :
    match Compile.statement task.environment task.lexemes.length lexemes progress with
    | (.ok (node, rest), after) =>
      rest <:+ lexemes ∧
        endedStatement (callsAt fuel) task (task.front lexemes progress) = .done node (task.front rest after)
    | (.error halt, after) =>
      endedStatement (callsAt fuel) task (task.front lexemes progress) =
        .failed halt.report (task.front halt.rest after) := by
  have on := endedStatement_follows enough lexemes ends (Nat.lt_succ_of_le ends.length_le)
  have same : Grammar.endedStatement (outermost task.environment.settings.maxDepth task.lexemes.length) =
      Grammar.endedStatement (task.inner task.settings.maxDepth) := rfl
  unfold Compile.statement
  rw [same]
  cases outcome : Grammar.endedStatement (task.inner task.settings.maxDepth) lexemes with
  | ok pair =>
    obtain ⟨tree, rest⟩ := pair
    rw [outcome] at on
    obtain ⟨taken, -, runs⟩ := on
    have ran := runs progress () progress rfl
    dsimp only at ran ⊢
    rw [Compile.bind_apply]
    cases compiled : tree.compile task.environment progress with
    | mk result after =>
      rw [compiled] at ran
      cases result with
      | ok node => exact ⟨taken, ran⟩
      | error halt => exact ran
  | error stopped =>
    rw [outcome] at on
    obtain ⟨-, runs⟩ := on
    obtain ⟨halt, after, halted, ran⟩ := runs progress () progress rfl
    dsimp only
    rw [bind_of_error halted]
    exact ran

end

/-! ## Recovery -/

/-- The cursor goes on where recovery leaves off. -/
theorem resumption_eq (cursor : Nat) (depth : Int) {index : Nat} {lexemes : List Lexeme}
    (whole : index + lexemes.length = task.lexemes.length) :
    resumption task cursor depth index lexemes =
      task.lexemes.length - (recover depth (cursor - index) lexemes).length := by
  induction lexemes generalizing depth index with
  | nil => rfl
  | cons first rest induction =>
    rw [List.length_cons] at whole
    have more (depth : Int) := induction depth (show index + 1 + rest.length = task.lexemes.length by omega)
    rw [← Nat.sub_sub] at more
    have passed : decide (cursor ≤ index) = decide (cursor - index = 0) :=
      decide_eq_decide.mpr Nat.sub_eq_zero_iff_le.symm
    rw [resumption, recover, more, more, more, passed]
    split_ifs
    · rfl
    · rfl
    · omega
    · rfl

/-- Behind a failed statement, a pass goes on in front of what recovery leaves. -/
theorem synchronize_at {lexemes : List Lexeme} (ends : lexemes <:+ task.lexemes) (stopped : List Lexeme)
    (progress : Progress) :
    synchronize (task.lexemes.length - lexemes.length) task (task.front stopped progress) =
      .done () (task.front (recover 0 (lexemes.length - stopped.length) lexemes) progress) := by
  have fits := ends.length_le
  have found : task.lexemes.drop (task.lexemes.length - lexemes.length) = lexemes :=
    (List.suffix_iff_eq_drop.mp ends).symm
  have skipped : task.lexemes.length - stopped.length - (task.lexemes.length - lexemes.length) =
      lexemes.length - stopped.length := by omega
  rw [synchronize, found, resumption_eq _ _ (Nat.sub_add_cancel fits)]
  dsimp only [Task.front, Task.at]
  rw [skipped]

/-! ## Rounds -/

section

variable {fuel : Nat} (enough : task.lexemes.length < fuel)

include enough

/-- A round comes to what the first of the statements comes to, and leaves the others to be compiled. -/
theorem round_at {first : Lexeme} {rest : List Lexeme} (ends : first :: rest <:+ task.lexemes) (progress : Progress) :
    ∃ node later after,
      round (callsAt fuel) task (task.front (first :: rest) progress) = .done node (task.front later after) ∧
      later <:+ first :: rest ∧
      ∀ count, Compile.statements task.environment task.lexemes.length (count + 1) (first :: rest) progress =
        let others := Compile.statements task.environment task.lexemes.length count later after
        (node.toList ++ others.1, others.2) := by
  unfold round
  by_cases separates : first.is .semicolon
  · refine ⟨none, rest, progress, ?_, List.suffix_cons first rest, fun count => ?_⟩
    · rw [bind_of_done (eat_of_is progress ends separates)]
      rfl
    · rw [Compile.statements_separated separates]
      rfl
  rw [bind_of_done (eat_of_not progress ends (Bool.eq_false_iff.mpr separates))]
  have compiled := endedStatement_at enough ends progress
  simp only [Compile.statements, separates, Bool.false_eq_true, if_false]
  revert compiled
  generalize Compile.statement task.environment task.lexemes.length (first :: rest) progress = outcome
  rcases outcome with ⟨halt | ⟨node, later⟩, after⟩
  · intro ran
    let reported : Progress := { after with reports := halt.report :: after.reports }
    refine ⟨none, recover 0 ((first :: rest).length - halt.rest.length) (first :: rest), reported, ?_,
      recover_suffix .., fun count => rfl⟩
    have caught : attempt (endedStatement (callsAt fuel)) task (task.front (first :: rest) progress) =
        .done (.error halt.report) (task.front halt.rest after) := by
      rw [attempt, ran]
    have recorded : record halt.report task (task.front halt.rest after) =
        .done () (task.front halt.rest reported) := rfl
    refine (bind_of_done caught _).trans ((bind_of_done recorded _).trans ?_)
    exact bind_of_done (synchronize_at ends halt.rest reported) _
  · rintro ⟨taken, ran⟩
    refine ⟨some node, later, after, ?_, taken, fun count => rfl⟩
    have caught : attempt (endedStatement (callsAt fuel)) task (task.front (first :: rest) progress) =
        .done (.ok node) (task.front later after) := by
      rw [attempt, ran]
    exact bind_of_done caught _

/-- A round leaves less than it has found. -/
theorem round_shortens {first : Lexeme} {rest later : List Lexeme} {progress after : Progress} {node : Option AnyNode}
    (ends : first :: rest <:+ task.lexemes)
    (ran : round (callsAt fuel) task (task.front (first :: rest) progress) = .done node (task.front later after)) :
    later.length ≤ rest.length := by
  have fits := ends.length_le
  rw [List.length_cons] at fits
  have more : (task.front (first :: rest) progress).cursor < task.lexemes.length := by
    dsimp only [Task.front, Task.at, List.length_cons]
    omega
  obtain ⟨same, next, rounded, moved, -⟩ := round_orderly (callsAt_orderly fuel) more (by omega)
  rw [ran] at rounded
  cases rounded
  dsimp only [Task.front, Task.at, List.length_cons] at moved
  omega

/-- The rounds of a program find the nodes of its statements, and go on up to the end of the source. -/
theorem proceed_at {rounds count : Nat} {lexemes : List Lexeme} (ends : lexemes <:+ task.lexemes)
    (rounded : lexemes.length < rounds) (counted : lexemes.length ≤ count) (found : List AnyNode)
    (progress : Progress) :
    let compiled := Compile.statements task.environment task.lexemes.length count lexemes progress
    proceed (callsAt fuel) rounds found task (task.front lexemes progress) =
      .done (found ++ compiled.1) (task.front [] compiled.2) := by
  -- A semicolon that stands alone takes a round here, and one of the `count` there.
  induction rounds generalizing count lexemes found progress with
  | zero => omega
  | succ rounds induction =>
    cases lexemes with
    | nil =>
      rw [statements_nil]
      dsimp only
      rw [List.append_nil]
      exact bind_of_done (peek_at progress ends) _
    | cons first rest =>
      obtain ⟨count, rfl⟩ : ∃ fewer, count = fewer + 1 := Nat.exists_eq_add_one.mpr (Nat.zero_lt_of_lt counted)
      obtain ⟨node, later, after, ran, taken, split⟩ := round_at enough ends progress
      have fewer := round_shortens enough ends ran
      rw [List.length_cons] at rounded counted
      have proceeded := @induction count later (taken.trans ends) (by omega) (by omega) (found ++ node.toList) after
      rw [split]
      dsimp only at proceeded ⊢
      rw [← List.append_assoc, ← proceeded]
      exact (bind_of_done (peek_at progress ends) _).trans (bind_of_done ran _)

/-- A pass over a whole program comes to what compiling comes to, with the cursor at the end of the source. -/
theorem program_at (progress : Progress) :
    let compiled := Compile.program task.environment task.lexemes progress
    program (callsAt fuel) task ⟨0, 0, progress⟩ = .done compiled.1 ⟨task.lexemes.length, 0, compiled.2⟩ := by
  have start : (⟨0, 0, progress⟩ : State) = task.front task.lexemes progress := by
    rw [Task.front, Task.at, Nat.sub_self, Nat.sub_self]
  have ended (after : Progress) : task.front [] after = ⟨task.lexemes.length, 0, after⟩ := by
    rw [Task.front, Task.at, Nat.sub_self]
    rfl
  have rounds : task.lexemes.length < (callsAt fuel).rounds :=
    (callsAt_orderly fuel).rounds ▸ Nat.lt_succ_of_lt enough
  have proceeded := proceed_at enough (List.suffix_refl _) rounds (Nat.le_refl _) [] progress
  dsimp only at proceeded ⊢
  rw [List.nil_append, ended] at proceeded
  rw [start, program, bind_of_done proceeded, Compile.program]
  generalize Compile.statements task.environment task.lexemes.length task.lexemes.length task.lexemes progress = found
  obtain ⟨nodes, last⟩ := found
  dsimp only
  cases nodes.getLast? with
  | some result => rfl
  | none =>
    obtain ⟨world, locals, reports, accepted, reported⟩ := last
    cases reports <;> rfl

end

/-- Compiling makes progress and ends. With more calls and rounds allowed than there are lexemes, a pass comes to what
compiling comes to, with the cursor at the end of the source and all levels left. Wherever the cursor stands, with more
of them allowed than there are lexemes left, each routine keeps order and costs what it is said to cost. A round of a
program moves the cursor on, also where it meets a statement that does not fit the grammar. The search for an assignment
sign finds it where it is, without a counter below zero. -/
theorem program_progress (task : Task) (fuel : Nat) (progress : Progress) :
    (task.lexemes.length < fuel →
      let compiled := Compile.program task.environment task.lexemes progress
      program (callsAt fuel) task ⟨0, 0, progress⟩ = .done compiled.1 ⟨task.lexemes.length, 0, compiled.2⟩) ∧
    ∀ state : State, state.cursor ≤ task.lexemes.length → task.lexemes.length < state.cursor + fuel →
      (∀ {α : Type} {need : Nat} {routine : Parser α}, Routine (callsAt fuel) need routine →
        (routine task state).Orderly task state need) ∧
      (state.cursor < task.lexemes.length →
        ∃ node after, round (callsAt fuel) task state = .done node after ∧
          state.cursor < after.cursor ∧ after.cursor ≤ task.lexemes.length ∧ after.depth = state.depth) ∧
      atAssignment (callsAt fuel) task state =
        .done (startsAssignment (task.lexemes.drop state.cursor)) state := by
  have orderly := callsAt_orderly fuel
  refine ⟨fun enough => program_at enough progress, fun state inside short => ⟨?_, ?_, ?_⟩⟩
  · exact fun cost => cost.orderly orderly task state inside short
  · exact fun more => round_orderly orderly more short
  · exact atAssignment_done (orderly.rounds ▸ Nat.lt_succ_of_lt short)

/-- The first round of `(+;);y` meets a sum that is not finished, and goes on in front of the name. -/
theorem program_progress_unfinished :
    let task : Task := ⟨plainEnvironment, [⟨.fixed .leftParen, "(", ⟨1, 1⟩⟩, ⟨.fixed .plus, "+", ⟨1, 2⟩⟩,
      ⟨.fixed .semicolon, ";", ⟨1, 3⟩⟩, ⟨.fixed .rightParen, ")", ⟨1, 4⟩⟩, ⟨.fixed .semicolon, ";", ⟨1, 5⟩⟩,
      ⟨.name "y", "y", ⟨1, 6⟩⟩]⟩
    let start : State := ⟨0, 0, .start .empty⟩
    let compiled := Compile.program plainEnvironment task.lexemes (.start .empty)
    task.lexemes.length < 7 ∧ start.cursor < task.lexemes.length ∧
      program (callsAt 7) task start = .done compiled.1 ⟨6, 0, compiled.2⟩ ∧ compiled.2.reports.length = 2 ∧
      (endedStatement (callsAt 7) task start).Orderly task start 1 ∧
      (∃ node after, round (callsAt 7) task start = .done node after ∧
        after.cursor = 5 ∧ start.cursor < after.cursor ∧ after.depth = start.depth) ∧
      atAssignment (callsAt 7) task start = .done false start := by
  intro task start compiled
  obtain ⟨ends, keeps⟩ := program_progress task 7 (.start .empty)
  obtain ⟨orderly, rounds, looked⟩ := keeps start (Nat.zero_le _) (by decide)
  obtain ⟨node, after, ran, moved, -, sameDepth⟩ := rounds (by decide)
  have five : after.cursor = 5 := by
    have computed : ∃ last, round (callsAt 7) task start = .done none ⟨5, 0, last⟩ := ⟨_, rfl⟩
    obtain ⟨last, computed⟩ := computed
    rw [computed] at ran
    cases ran
    rfl
  have reported : compiled.2.reports.length = 2 := by
    subst compiled
    cbv
  exact ⟨by decide, by decide, ends (by decide), reported, orderly .endedStatement,
    ⟨node, after, ran, five, moved, sameDepth⟩, looked⟩

end LiveExpr.Pass
