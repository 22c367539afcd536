import LiveExpr.Expression
import LiveExpr.Proofs.Compile.Law

/-!
A successful compilation yields a well-formed graph. Where something is reported nothing is claimed, since
placeholders may stand in the graph; a graph is only kept if nothing is.
-/

namespace LiveExpr

open AnyNode (Everywhere)

theorem AnyNode.isWellFormed_elementOperation {op : BinaryOperator} (arithmetic : op.isArithmetic = true)
    {left right : Operand} (here : left.node.IsWellFormed) (spans : (left.isVector || right.isVector) = true) :
    (AnyNode.vector (.elementOperation op left right)).IsWellFormed := by
  unfold Node.elementOperation
  split
  next start rest =>
    obtain ⟨signs, spans⟩ : AnyNode.IsWellFormed (.vector (.elementwise start rest)) := here
    exact ⟨List.forall_mem_append.mpr ⟨signs, List.forall_mem_singleton.mpr arithmetic⟩,
      runsOverVector_append spans _⟩
  next =>
    refine ⟨List.forall_mem_singleton.mpr arithmetic, ?_⟩
    simpa [runsOverVector] using spans

/-- All nodes are well formed. -/
def wellFormedLaw (environment : Environment) (world : World) : GraphLaw environment world where
  Holds _ node := node.IsWellFormed
  later _ _ := id
  number _ _ _ _ := trivial
  text _ _ _ _ := trivial
  vector _ _ _ := trivial
  constant _ := trivial
  literal _ := trivial
  binary _ _ _ := trivial
  chain _ _ := trivial
  concat _ := trivial
  loop _ _ _ _ _ := trivial
  elementOperation arithmetic _ _ := AnyNode.isWellFormed_elementOperation arithmetic
  alike alike := by
    cases alike with
    | builtin accepted => exact accepted
    | userCall counted => exact counted
    | stringCompare comparison => exact comparison
    | assign compound | assignElement compound | vectorAssign compound => exact compound
    | _ => trivial

/-- A compilation succeeds if and only if it raises no diagnostic, and the expression is compiled afterwards if and
only if it succeeds. The graph is well formed all over, so that no node of it is ever evaluated outside the proper
cases, and has no node in it that could not be made. -/
theorem compile_isWellFormed (expression : Expression) (settings : Settings) (resolver : Option Resolver)
    (source : String) (world : World) :
    let after := (expression.compile settings resolver source world).1
    let compilation := (expression.compile settings resolver source world).2
    (compilation.succeeded = true ↔ compilation.diagnostics source = []) ∧
      (after.isCompiled = true ↔ compilation.succeeded = true) ∧
      (compilation.succeeded = false → after.source = "") ∧
      ∀ compiled, after.compiled = some compiled →
        compiled.root.Everywhere fun node => node.IsWellFormed ∧ node.KeepsToCases := by
  intro after compilation
  have agrees := (Correspondence.course ⟨expression.table, resolver, settings⟩ world).ofSource_agrees rfl source
  have compiled : after.compiled = compilation.root.map (⟨source, settings, ·⟩) := rfl
  refine ⟨?_, ?_, fun failed => ?_, fun found equal => ?_⟩
  · have reported : compilation.diagnostics source = [] ↔ compilation.reports = [] := List.map_eq_nil_iff
    rw [reported]
    exact agrees.compiled
  · rw [Expression.isCompiled, compiled, Option.isSome_map]
    rfl
  · have none : compilation.root = none := Option.isSome_eq_false_iff.mp failed |> Option.isNone_iff_eq_none.mp
    rw [Expression.source, compiled, none]
    rfl
  · rw [compiled] at equal
    obtain ⟨root, kept, rfl⟩ := Option.map_eq_some_iff.mp equal
    obtain ⟨progress, -, -, wellFormed⟩ :=
      (wellFormedLaw ⟨expression.table, resolver, settings⟩ world).everywhere_root kept
    exact wellFormed.imp fun node here => ⟨here, here.keepsToCases⟩

theorem tokenize_minimum :
    tokenize "min(true, false)" = .ok [⟨.name "min", "min", ⟨1, 1⟩⟩, ⟨.fixed .leftParen, "(", ⟨1, 4⟩⟩,
      ⟨.fixed .trueWord, "true", ⟨1, 5⟩⟩, ⟨.fixed .comma, ",", ⟨1, 9⟩⟩,
      ⟨.fixed .falseWord, "false", ⟨1, 11⟩⟩, ⟨.fixed .rightParen, ")", ⟨1, 16⟩⟩] := by
  with_unfolding_all rfl

/-- Without folding, the graph of this source is a call of a function of any number of arguments. -/
theorem compile_isWellFormed_minimum :
    ∃ compiled, ((Expression.mk ⟨0⟩ none).compile ⟨false, 40, none⟩ none "min(true, false)"
        World.empty).1.compiled = some compiled ∧
      compiled.root.Everywhere fun node => node.IsWellFormed ∧ node.KeepsToCases := by
  obtain ⟨-, -, -, wellFormed⟩ :=
    compile_isWellFormed (Expression.mk ⟨0⟩ none) ⟨false, 40, none⟩ none "min(true, false)" World.empty
  have compiled : ((Expression.mk ⟨0⟩ none).compile ⟨false, 40, none⟩ none "min(true, false)"
      World.empty).1.compiled = some ⟨"min(true, false)", ⟨false, 40, none⟩,
        .scalar (.builtin ⟨"min", .aggregate .min⟩ [.constant 1.0, .constant 0.0])⟩ := by
    change (Compilation.ofSource _ "min(true, false)" World.empty).root.map _ = _
    unfold Compilation.ofSource
    rw [tokenize_minimum]
    rfl
  exact ⟨_, compiled, wellFormed _ compiled⟩

end LiveExpr
