import LiveExpr.Proofs.Compile.Correspondence
import LiveExpr.Proofs.Grammar.Proper

/-!
Making nodes keeps every correspondence: from related operands, two compilations make related nodes, with the same
reports.
-/

namespace LiveExpr

namespace Correspondence

open Compile

variable {environment : Environment} {left right : Settings} {world : World}
  (kept : Correspondence environment left right world)

abbrev Scalars (progress : Progress) : Node .scalar → Node .scalar → Prop :=
  kept.Holds progress .scalar

abbrev Nodes (progress : Progress) : AnyNode → AnyNode → Prop :=
  AnyNode.Related (kept.Holds progress)

abbrev Placed (progress : Progress) (one other : Place × AnyNode) : Prop :=
  one.1 = other.1 ∧ kept.Nodes progress one.2 other.2

variable {kept} {before after : Progress}

theorem nodes_later (reached : before.Reaches environment after) {node other : AnyNode}
    (related : kept.Nodes before node other) : kept.Nodes after node other := by
  cases related with
  | intro holds => exact .intro (kept.later reached holds)

theorem placed_later (reached : before.Reaches environment after) {nodes others : List (Place × AnyNode)}
    (related : List.Forall₂ (kept.Placed before) nodes others) :
    List.Forall₂ (kept.Placed after) nodes others :=
  related.imp fun _ _ placed => ⟨placed.1, nodes_later reached placed.2⟩

variable (reached : (Progress.start world).Reaches environment before)

include reached

theorem scalar_parallel {node other : Node .scalar} (holds : kept.Scalars before node other) :
    Parallel environment kept.Nodes before (scalar left node) (scalar right other) :=
  .view (.intro (kept.settle reached holds))

theorem string_parallel {node other : Node .string} (holds : kept.Holds before .string node other) :
    Parallel environment kept.Nodes before (string left node) (string right other) :=
  .view (.intro (kept.settleString reached holds))

/-! ## Failures -/

theorem placeholder_parallel (reported : before.reports ≠ []) :
    Parallel environment kept.Nodes before (pure placeholder) (pure placeholder) :=
  .pure (.intro (kept.missing reached reported .scalar))

theorem failed_parallel (problem : Problem) (place : Place) :
    Parallel environment kept.Nodes before (failed problem place) (failed problem place) := by
  refine Parallel.report fun middle reported _ => ?_
  exact placeholder_parallel (reached.trans middle) reported

/-! ## Required kinds -/

theorem requireScalar_parallel (role : Role) (place : Place) {node other : AnyNode}
    (related : kept.Nodes before node other) :
    Parallel environment kept.Scalars before (requireScalar role place node)
      (requireScalar role place other) := by
  cases related with
  | @intro k _ _ holds =>
    cases k with
    | scalar => exact .pure holds
    | string | vector =>
      refine Parallel.report fun middle reported _ => ?_
      exact .pure (kept.missing (reached.trans middle) reported .scalar)

theorem requireString_parallel (role : Role) (place : Place) {node other : AnyNode}
    (related : kept.Nodes before node other) :
    Parallel environment (fun progress => kept.Holds progress .string) before
      (requireString role place node) (requireString role place other) := by
  cases related with
  | @intro k _ _ holds =>
    cases k with
    | string => exact .pure holds
    | scalar | vector =>
      refine Parallel.report fun middle reported _ => ?_
      exact .pure (kept.missing (reached.trans middle) reported .string)

theorem requireScalars_parallel (role : Role) {nodes others : List (Place × AnyNode)}
    (related : List.Forall₂ (kept.Placed before) nodes others) :
    Parallel environment
      (fun progress scalars others =>
        scalars.length = nodes.length ∧ List.Forall₂ (kept.Scalars progress) scalars others)
      before (requireScalars role nodes) (requireScalars role others) := by
  induction nodes generalizing before others with
  | nil =>
    cases related
    exact .pure ⟨rfl, .nil⟩
  | cons one nodes induction =>
    rcases related with _ | ⟨⟨samePlace, related⟩, rest⟩
    rw [requireScalars, requireScalars, samePlace]
    refine (requireScalar_parallel reached role _ related).bind fun middle first => ?_
    refine (induction (reached.trans middle) (placed_later middle rest)).bind fun last others => ?_
    have sameLength := congrArg (· + 1) others.1
    exact .pure ⟨sameLength, .cons (kept.later last first) others.2⟩

/-! ## Prefix operators -/

theorem negation_parallel (sign : Lexeme) {node other : AnyNode} (related : kept.Nodes before node other) :
    Parallel environment kept.Nodes before (negation left sign node) (negation right sign other) := by
  cases related with
  | @intro k _ _ holds =>
    cases k with
    | scalar => exact scalar_parallel reached (kept.alike (.unary .negate holds))
    | vector => exact .pure (.intro (kept.alike (.negate holds)))
    | string => exact failed_parallel reached _ _

theorem affirmation_parallel (sign : Lexeme) {node other : AnyNode}
    (related : kept.Nodes before node other) :
    Parallel environment kept.Nodes before (affirmation sign node) (affirmation sign other) := by
  cases related with
  | @intro k _ _ holds =>
    cases k with
    | scalar | vector => exact .pure (.intro holds)
    | string => exact failed_parallel reached _ _

theorem denial_parallel (start : Place) {node other : AnyNode} (related : kept.Nodes before node other) :
    Parallel environment kept.Nodes before (denial left start node) (denial right start other) := by
  refine (requireScalar_parallel reached .operandOfNot start related).bind fun middle operand => ?_
  exact scalar_parallel (reached.trans middle) (kept.alike (.unary .not operand))

/-! ## Operators between operands -/

theorem arithmetic_parallel {op : BinaryOperator} (arithmetic : op.isArithmetic = true) (sign : Lexeme)
    {node other node₁ other₁ : AnyNode} (first : kept.Nodes before node other)
    (second : kept.Nodes before node₁ other₁) :
    Parallel environment kept.Nodes before (Compile.arithmetic left op sign node node₁)
      (Compile.arithmetic right op sign other other₁) := by
  rcases first with @⟨k, node, other, first⟩
  rcases second with @⟨k₁, node₁, other₁, second⟩
  cases k <;> cases k₁
  case scalar.scalar => exact scalar_parallel reached (kept.operation op first second)
  case vector.vector =>
    exact .pure (.intro (kept.elementOperation arithmetic (.vector first) (.vector second) rfl))
  case vector.scalar =>
    exact .pure (.intro (kept.elementOperation arithmetic (.vector first) (.scalar second) rfl))
  case scalar.vector =>
    exact .pure (.intro (kept.elementOperation arithmetic (.scalar first) (.vector second) rfl))
  case string.string =>
    dsimp only [Compile.arithmetic]
    by_cases plus : op = .add
    · rw [if_pos plus, if_pos plus]
      exact string_parallel reached (kept.joined first second)
    · rw [if_neg plus, if_neg plus]
      exact failed_parallel reached _ _
  all_goals exact failed_parallel reached _ _

theorem logical_parallel (op : BinaryOperator) (leftStart rightStart : Place)
    {node other node₁ other₁ : AnyNode} (first : kept.Nodes before node other)
    (second : kept.Nodes before node₁ other₁) :
    Parallel environment kept.Nodes before (logical left op leftStart node rightStart node₁)
      (logical right op leftStart other rightStart other₁) := by
  refine (requireScalar_parallel reached _ leftStart first).bind fun middle first => ?_
  refine (requireScalar_parallel (reached.trans middle) _ rightStart (nodes_later middle second)).bind
    fun last second => ?_
  exact scalar_parallel ((reached.trans middle).trans last) (kept.operation op (kept.later last first) second)

theorem comparison_parallel {op : BinaryOperator} (comparison : op.isComparison = true) (sign : Lexeme)
    {node other node₁ other₁ : AnyNode} (first : kept.Nodes before node other)
    (second : kept.Nodes before node₁ other₁) :
    Parallel environment kept.Nodes before (Compile.comparison left op sign node node₁)
      (Compile.comparison right op sign other other₁) := by
  rcases first with @⟨k, node, other, first⟩
  rcases second with @⟨k₁, node₁, other₁, second⟩
  cases k <;> cases k₁
  case scalar.scalar => exact scalar_parallel reached (kept.operation op first second)
  case string.string =>
    exact scalar_parallel reached (kept.alike (.stringCompare comparison first second))
  all_goals exact failed_parallel reached _ _

theorem stringTest_parallel (op : StringOperator) (sign : Lexeme) {node other node₁ other₁ : AnyNode}
    (first : kept.Nodes before node other) (second : kept.Nodes before node₁ other₁) :
    Parallel environment kept.Nodes before (stringTest left op sign node node₁)
      (stringTest right op sign other other₁) := by
  rcases first with @⟨k, node, other, first⟩
  rcases second with @⟨k₁, node₁, other₁, second⟩
  cases k <;> cases k₁
  case string.string => exact scalar_parallel reached (kept.alike (.stringMatch op first second))
  all_goals exact failed_parallel reached _ _

theorem relation_parallel {sign : Lexeme} (isRelation : sign.isRelation = true)
    {node other node₁ other₁ : AnyNode} (first : kept.Nodes before node other)
    (second : kept.Nodes before node₁ other₁) :
    Parallel environment kept.Nodes before (relation left sign node node₁)
      (relation right sign other other₁) := by
  unfold relation
  cases test : sign.token.stringOperator? with
  | some op => exact stringTest_parallel reached op sign first second
  | none =>
    obtain ⟨op, spelled, comparison⟩ := Lexeme.comparison_of_isRelation isRelation test
    rw [spelled]
    exact comparison_parallel reached comparison sign first second

/-! ## Conditionals -/

theorem conditional_parallel {condition otherCondition : Node .scalar}
    (holds : kept.Scalars before condition otherCondition) (branch : Place)
    {node other node₁ other₁ : AnyNode} (first : kept.Nodes before node other)
    (second : kept.Nodes before node₁ other₁) :
    Parallel environment kept.Nodes before (conditional left condition branch node node₁)
      (conditional right otherCondition branch other other₁) := by
  rcases first with @⟨k, node, other, first⟩
  rcases second with @⟨k₁, node₁, other₁, second⟩
  cases k <;> cases k₁
  case scalar.scalar => exact scalar_parallel reached (kept.alike (.conditional holds first second))
  case string.string => exact string_parallel reached (kept.alike (.stringConditional holds first second))
  all_goals exact failed_parallel reached _ _

theorem conditionalOnly_parallel {condition otherCondition : Node .scalar}
    (holds : kept.Scalars before condition otherCondition) (branch : Place) {node other : AnyNode}
    (related : kept.Nodes before node other) :
    Parallel environment kept.Nodes before (conditionalOnly left condition branch node)
      (conditionalOnly right otherCondition branch other) := by
  rcases related with @⟨k, node, other, related⟩
  cases k
  case scalar =>
    exact scalar_parallel reached (kept.alike (.conditional holds related (kept.alike (.constant _))))
  case string =>
    exact string_parallel reached (kept.alike (.stringConditional holds related (kept.alike (.literal _))))
  case vector => exact failed_parallel reached _ _

/-! ## Subscripts -/

theorem size_parallel (bracket : Lexeme) {node other : AnyNode} (related : kept.Nodes before node other) :
    Parallel environment kept.Nodes before (size left bracket node) (size right bracket other) := by
  rcases related with @⟨k, node, other, related⟩
  cases k
  case vector => exact scalar_parallel reached (kept.alike (.vectorSize related))
  case string => exact scalar_parallel reached (kept.alike (.stringLength related))
  case scalar => exact failed_parallel reached _ _

theorem element_parallel (bracket : Lexeme) (start : Place) {node other index otherIndex : AnyNode}
    (related : kept.Nodes before node other) (indices : kept.Nodes before index otherIndex) :
    Parallel environment kept.Nodes before (element bracket node start index)
      (element bracket other start otherIndex) := by
  refine (requireScalar_parallel reached .index start indices).bind fun middle indices => ?_
  rcases related with @⟨k, node, other, related⟩
  cases k
  case vector => exact .pure (.intro (kept.alike (.element (kept.later middle related) indices)))
  all_goals exact failed_parallel (reached.trans middle) _ _

theorem range_parallel (bracket : Lexeme) (firstStart lastStart : Place)
    {node other first otherFirst last otherLast : AnyNode} (related : kept.Nodes before node other)
    (firsts : kept.Nodes before first otherFirst) (lasts : kept.Nodes before last otherLast) :
    Parallel environment kept.Nodes before (range left bracket node firstStart first lastStart last)
      (range right bracket other firstStart otherFirst lastStart otherLast) := by
  refine (requireScalar_parallel reached .rangeStart firstStart firsts).bind fun middle firsts => ?_
  refine (requireScalar_parallel (reached.trans middle) .rangeEnd lastStart
    (nodes_later middle lasts)).bind fun final lasts => ?_
  rcases related with @⟨k, node, other, related⟩
  have source := kept.later (middle.trans final) related
  cases k
  case string =>
    exact string_parallel ((reached.trans middle).trans final)
      (kept.alike (.substring source (kept.later final firsts) lasts))
  all_goals
    refine Parallel.report fun reported nonempty _ => .pure (.intro ?_)
    exact kept.missing ((reached.trans middle).trans (final.trans reported)) nonempty .string

/-! ## Calls -/

theorem scalarCall_parallel {function : Builtin} {nodes others : List (Place × AnyNode)}
    (accepted : function.arity.accepts nodes.length = true)
    (related : List.Forall₂ (kept.Placed before) nodes others) :
    Parallel environment kept.Nodes before
      (do
        let arguments ← requireScalars .argument nodes
        scalar left (.builtin function arguments))
      (do
        let arguments ← requireScalars .argument others
        scalar right (.builtin function arguments)) := by
  refine (requireScalars_parallel reached .argument related).bind fun middle arguments => ?_
  have acceptedScalars := accepted
  rw [← arguments.1] at acceptedScalars
  exact scalar_parallel (reached.trans middle) (kept.alike (.builtin acceptedScalars arguments.2))

theorem builtinCall_parallel (word : Lexeme) {function : Builtin} {nodes others : List (Place × AnyNode)}
    (accepted : function.arity.accepts nodes.length = true)
    (related : List.Forall₂ (kept.Placed before) nodes others) :
    Parallel environment kept.Nodes before (builtinCall left word function nodes)
      (builtinCall right word function others) := by
  have scalarCall := scalarCall_parallel reached accepted related
  rcases related with _ | ⟨⟨samePlace, related⟩, rest⟩
  case nil => exact scalarCall
  case cons one other nodes others =>
    rcases one with ⟨place, node⟩
    rcases other with ⟨otherPlace, other⟩
    rcases related with @⟨k, node, other, related⟩
    rcases rest with _ | ⟨second, rest⟩
    case cons => cases k <;> exact scalarCall
    case nil =>
      cases k
      case scalar | string => exact scalarCall
      case vector =>
        unfold builtinCall
        cases function.computation with
        | unary apply => exact .pure (.intro (kept.alike (.map apply related)))
        | aggregate op => exact .pure (.intro (kept.alike (.vectorAggregate op related)))
        | binary | ternary => exact failed_parallel reached _ _

theorem userCall_parallel {function : FunctionHandle} {nodes others : List (Place × AnyNode)}
    (counted : nodes.length = function.arity)
    (related : List.Forall₂ (kept.Placed before) nodes others) :
    Parallel environment kept.Nodes before (userCall function nodes) (userCall function others) := by
  refine (requireScalars_parallel reached .argument related).bind fun _ arguments => ?_
  exact .pure (.intro (kept.alike (.userCall (arguments.1.trans counted) arguments.2)))

end Correspondence

end LiveExpr
