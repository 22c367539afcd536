import LiveExpr.Expression
import LiveExpr.Proofs.Compile.Source
import LiveExpr.Proofs.Grammar.Height
import LiveExpr.Proofs.Grammar.Soundness

/-!
The height of the graphs that are stored. It is bounded by the levels that a formula may have, so the evaluator recurses
no deeper for a long source than for a short one.
-/

namespace LiveExpr

namespace Compile

variable (tally : Tally) (environment : Environment) (bound : Nat)

/-- What a statement is compiled to: where it stops, it is not compiled at all. -/
theorem statement_makes (lexemes : List Lexeme) :
    (statement environment bound lexemes).Makes fun one =>
      one.1.weigh tally ≤ Grammar.weightAt tally environment.settings.maxDepth + 3 * tally.unit := by
  let limit := environment.settings.maxDepth
  have within : (Grammar.outermost limit bound).Within tally (Grammar.weightAt tally limit) limit :=
    Grammar.innerAt_within limit bound limit
  cases read : Grammar.endedStatement (Grammar.outermost limit bound) lexemes with
  | ok pair =>
    have low : pair.1.Within tally (Grammar.weightAt tally limit + 3 * tally.unit) :=
      Grammar.endedStatement_makes within lexemes pair.1 pair.2 read
    rw [statement_of_ok read]
    exact (low environment).bind fun node low => .pure low
  | error stopped =>
    have sound : (Grammar.outermost limit bound).Sound := Grammar.innerAt_sound limit bound limit
    intro before one after done
    rcases Grammar.endedStatement_halts sound read environment before with ⟨halt, middle, halted⟩
    rw [statement_of_error read, bind_of_error halted] at done
    cases done

theorem weigh_statements_le (count : Nat) (lexemes : List Lexeme) (progress : Progress) :
    ∀ one ∈ (statements environment bound count lexemes progress).1,
      one.weigh tally ≤ Grammar.weightAt tally environment.settings.maxDepth + 3 * tally.unit := by
  induction count generalizing lexemes progress with
  | zero => exact List.forall_mem_nil _
  | succ count induction =>
    cases lexemes with
    | nil => exact List.forall_mem_nil _
    | cons first rest =>
      unfold statements
      split
      · exact induction rest progress
      · split
        · next node after middle done =>
          have low := statement_makes tally environment bound (first :: rest) progress (node, after) middle done
          exact List.forall_mem_cons.mpr ⟨low, induction after middle⟩
        · exact induction _ _

end Compile

namespace Compilation

variable {environment : Environment} {source : String} {world : World} {root : AnyNode}

theorem weigh_root_le (tally : Tally) (compiled : (ofSource environment source world).root = some root) :
    root.weigh tally ≤ Grammar.weightAt tally environment.settings.maxDepth + 3 * tally.unit + tally.unit := by
  unfold ofSource at compiled
  split at compiled
  · cases compiled
  · next lexemes _ =>
    dsimp only at compiled
    split at compiled
    · have low :=
        Compile.weigh_statements_le tally environment lexemes.length lexemes.length lexemes (.start world)
      unfold Compile.program at compiled
      dsimp only at compiled
      split at compiled
      · next result last =>
        cases compiled
        exact Compile.weigh_sequence (fun one listed => low one (List.dropLast_subset _ listed))
          (low result (List.mem_of_getLast? last))
      · split at compiled <;> cases compiled
    · cases compiled

/-- What a compilation comes to is at most so high, however long the source is. -/
theorem height_root_le (compiled : (ofSource environment source world).root = some root) :
    root.height ≤ 13 * (environment.settings.maxDepth + 1) ^ 2 := by
  rw [root.height_eq_weigh]
  exact (weigh_root_le .levels compiled).trans (Grammar.weightAt_levels_le environment.settings.maxDepth)

/-- However subscripts and brackets alternate, a path has at most so many subscripts. -/
theorem subscripts_root_le (compiled : (ofSource environment source world).root = some root) :
    root.subscripts ≤ environment.settings.maxDepth * (environment.settings.maxDepth - 1) / 2 := by
  rw [root.subscripts_eq_weigh, ← Grammar.weightAt_subscripts]
  exact weigh_root_le .subscripts compiled

end Compilation

/-- The height of a stored graph does not depend on the length of the source. It is at most quadratic in the levels that
a formula may have, whatever names stand for, whatever the resolver does and whether constants are folded or not. -/
theorem Expression.height_compile_le (expression : Expression) (settings : Settings) (resolver : Option Resolver)
    (source : String) (world : World) (compiled : Compiled)
    (stored : (expression.compile settings resolver source world).1.compiled = some compiled) :
    compiled.root.height ≤ 13 * (settings.maxDepth + 1) ^ 2 := by
  obtain ⟨root, made, rfl⟩ := Option.map_eq_some_iff.mp stored
  exact Compilation.height_root_le made

theorem tokenize_truths :
    tokenize "true-true-true" = .ok [⟨.fixed .trueWord, "true", ⟨1, 1⟩⟩, ⟨.fixed .minus, "-", ⟨1, 5⟩⟩,
      ⟨.fixed .trueWord, "true", ⟨1, 6⟩⟩, ⟨.fixed .minus, "-", ⟨1, 10⟩⟩,
      ⟨.fixed .trueWord, "true", ⟨1, 11⟩⟩] := by
  with_unfolding_all rfl

/-- A run of three operands is compiled to one node above them, with a single level to go. -/
theorem Expression.height_compile_le_truths :
    ∃ compiled, ((Expression.mk ⟨0⟩ none).compile ⟨false, 1, none⟩ none "true-true-true" World.empty).1.compiled =
        some compiled ∧
      compiled.root.height ≤ 13 * (1 + 1) ^ 2 := by
  have stored : ((Expression.mk ⟨0⟩ none).compile ⟨false, 1, none⟩ none "true-true-true" World.empty).1.compiled =
      some ⟨"true-true-true", ⟨false, 1, none⟩,
        .scalar (.chain (.constant 1.0) [(.sub, .constant 1.0), (.sub, .constant 1.0)])⟩ := by
    change (Compilation.ofSource _ "true-true-true" World.empty).root.map _ = _
    unfold Compilation.ofSource
    rw [tokenize_truths]
    rfl
  exact ⟨_, stored, Expression.height_compile_le _ _ _ _ _ _ stored⟩

end LiveExpr
