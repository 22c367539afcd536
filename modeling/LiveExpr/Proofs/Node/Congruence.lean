import LiveExpr.Proofs.Compile.Correspondence
import LiveExpr.Proofs.Node.Agreement
import LiveExpr.Proofs.Node.Everywhere
import LiveExpr.Proofs.Node.Flattening

/-!
Nodes that are made in one way from nodes that agree agree themselves.
-/

namespace LiveExpr

open AnyNode (Everywhere)

variable {keeps : Store → Prop} {frozen : Target → Prop} {reference : Store} {fuel : Nat}

abbrev Node.AgreeOn (keeps : Store → Prop) (frozen : Target → Prop) (fuel : Nat) (k : Kind) (one other : Node k) :
    Prop :=
  Eval.Agree keeps frozen (one.eval fuel) (other.trace fuel)

def Node.Agree (frozen : Target → Prop) (reference : Store) (fuel : Nat) (k : Kind) (one other : Node k) : Prop :=
  Node.AgreeOn (·.Resembles frozen reference) frozen fuel k one other

/-! ## Lists of nodes -/

theorem evalAll_agree {nodes others : List (Node .scalar)}
    (agree : List.Forall₂ (Node.AgreeOn keeps frozen fuel .scalar) nodes others) :
    Eval.Agree keeps frozen (evalAll fuel nodes) (traceAll fuel others) := by
  induction agree with
  | nil => exact .pure []
  | cons first _ induction => exact first.bind fun _ => induction.bind fun _ => .pure _

theorem evalCases_agree {cases others : List (Node .scalar × Node .scalar)}
    (agree : List.Forall₂ (fun one other => Node.AgreeOn keeps frozen fuel .scalar one.1 other.1 ∧
      Node.AgreeOn keeps frozen fuel .scalar one.2 other.2) cases others) :
    Eval.Agree keeps frozen (evalCases fuel cases) (traceCases fuel others) := by
  induction agree with
  | nil => exact .pure none
  | cons first _ induction =>
    exact first.1.bind fun _ => .ite (first.2.bind fun _ => .pure _) induction

theorem execute_agree {one other : AnyNode}
    (agree : AnyNode.Related (Node.AgreeOn keeps frozen fuel) one other) :
    Eval.Agree keeps frozen (execute fuel one) (traceStatement fuel other) := by
  rcases agree with ⟨agree⟩
  exact Eval.Agree.discard agree

theorem executeAll_agree {nodes others : List AnyNode}
    (agree : List.Forall₂ (AnyNode.Related (Node.AgreeOn keeps frozen fuel)) nodes others) :
    Eval.Agree keeps frozen (executeAll fuel nodes) (traceStatements fuel others) := by
  induction agree with
  | nil => exact .pure ()
  | cons first _ induction => exact (execute_agree first).bind fun _ => induction

theorem evalScalar_agree {one other : AnyNode}
    (agree : AnyNode.Related (Node.AgreeOn keeps frozen fuel) one other) :
    Eval.Agree keeps frozen (evalScalar fuel one) (traceScalar fuel other) := by
  rcases agree with @⟨k, _, _, agree⟩
  cases k with
  | scalar => exact agree
  | string | vector => exact (Eval.Agree.discard agree).bind fun _ => .pure _

theorem Operand.eval_agree {one other : Operand}
    (agree : Operand.Related (Node.AgreeOn keeps frozen fuel) one other) :
    Eval.Agree keeps frozen (one.eval fuel) (other.trace fuel) := by
  cases agree with
  | vector agree => exact Eval.Agree.bind agree fun _ => .pure _
  | scalar agree => exact Eval.Agree.bind agree fun _ => .pure _

/-! ## Nodes -/

theorem Node.Alike.children_related {assignable : Binding → Prop} {relation : NodeRelation} {k : Kind}
    {one other : Node k} (alike : Node.Alike assignable relation k one other) :
    List.Forall₂ (AnyNode.Related relation) one.children other.children := by
  have scalars {nodes others : List (Node .scalar)} (related : List.Forall₂ (relation .scalar) nodes others) :
      List.Forall₂ (AnyNode.Related relation) (nodes.map .scalar) (others.map .scalar) := by
    rw [List.forall₂_map_left_iff, List.forall₂_map_right_iff]
    exact related.imp fun _ _ => .intro
  cases alike with
  | choice cases otherwise =>
    refine .cons (.intro otherwise) ?_
    induction cases with
    | nil => exact .nil
    | cons first _ induction => exact .cons (.intro first.1) (.cons (.intro first.2) induction)
  | builtin _ arguments => exact scalars arguments
  | userCall _ arguments => exact scalars arguments
  | reset _ values => exact scalars values
  | sequence statements result => exact .cons (.intro result) statements
  | constant | literal => exact .nil
  | unary _ operand | assign _ operand | stringAssign _ operand | vectorSize operand
  | stringLength operand | vectorAggregate _ operand | negate operand | map _ operand =>
    exact .cons (.intro operand) .nil
  | element first second | assignElement _ first second | stringCompare _ first second
  | stringMatch _ first second => exact .cons (.intro first) (.cons (.intro second) .nil)
  | conditional first second third | substring first second third | stringConditional first second third =>
    exact .cons (.intro first) (.cons (.intro second) (.cons (.intro third) .nil))
  | vectorAssign _ value =>
    cases value with
    | vector value => exact .cons (.intro value) .nil
    | scalar value => exact .cons (.intro value) .nil

theorem forall_left_of_related {α β : Type} {relation : α → β → Prop} {property : α → Prop}
    (implies : ∀ one other, relation one other → property one) {ones : List α} {others : List β}
    (related : List.Forall₂ relation ones others) : ∀ one ∈ ones, property one := by
  induction related with
  | nil => exact List.forall_mem_nil _
  | cons first _ induction => exact List.forall_mem_cons.mpr ⟨implies _ _ first, induction⟩

section Everywhere

variable {assignable : Binding → Prop} {relation : NodeRelation} {property : AnyNode → Prop} {k : Kind}
  {one other : Node k} (alike : Node.Alike assignable relation k one other)

include alike

/-- A property of everything that the first node is made from holds everywhere in it, if it holds of it. -/
theorem Node.Alike.everywhere_left
    (inherited : ∀ {k : Kind} {one other : Node k}, relation k one other → Everywhere property ⟨k, one⟩)
    (here : property ⟨k, one⟩) : Everywhere property ⟨k, one⟩ := by
  refine .intro here (forall_left_of_related (fun _ _ related => ?_) alike.children_related)
  rcases related with ⟨related⟩
  exact inherited related

theorem Node.Alike.everywhere_right
    (inherited : ∀ {k : Kind} {one other : Node k}, relation k one other → Everywhere property ⟨k, other⟩)
    (here : property ⟨k, other⟩) : Everywhere property ⟨k, other⟩ := by
  refine .intro here (forall_left_of_related (fun _ _ related => ?_) alike.children_related.flip)
  rcases related with ⟨related⟩
  exact inherited related

end Everywhere

theorem AnyNode.Related.imp {relation weaker : NodeRelation} {one other : AnyNode}
    (related : AnyNode.Related relation one other)
    (implies : ∀ {k : Kind} {one other : Node k}, relation k one other → weaker k one other) :
    AnyNode.Related weaker one other := by
  rcases related with ⟨related⟩
  exact .intro (implies related)

theorem Operand.Related.imp {relation weaker : NodeRelation} {one other : Operand}
    (related : Operand.Related relation one other)
    (implies : ∀ {k : Kind} {one other : Node k}, relation k one other → weaker k one other) :
    Operand.Related weaker one other := by
  cases related with
  | vector related => exact .vector (implies related)
  | scalar related => exact .scalar (implies related)

section Agree

variable {relation : NodeRelation}
  (inherited : ∀ {k : Kind} {one other : Node k}, relation k one other → Node.Agree frozen reference fuel k one other)

include inherited

theorem Node.Alike.agree {assignable : Binding → Prop} {k : Kind} {one other : Node k}
    (alike : Node.Alike assignable relation k one other) : Node.Agree frozen reference fuel k one other := by
  unfold Node.Agree Node.AgreeOn
  cases alike with
  | constant value => exact .pure value
  | literal content => exact .pure content
  | unary op operand => exact Eval.Agree.bind (inherited operand) fun _ => .pure _
  | conditional condition consequent alternative | stringConditional condition consequent alternative =>
    exact Eval.Agree.bind (inherited condition) fun _ => .ite (inherited consequent) (inherited alternative)
  | choice cases otherwise =>
    refine Eval.Agree.bind (evalCases_agree (cases.imp fun _ _ both => ⟨inherited both.1, inherited both.2⟩))
      fun value => ?_
    cases value with
    | some value => exact .pure value
    | none => exact inherited otherwise
  | assign _ value =>
    refine Eval.Agree.bind (inherited value) fun _ => .noting fun _ kept spared _ _ done => ?_
    cases done
    exact kept.setNumber (fun isFrozen => spared _ isFrozen (Traced.mem_replaces _ _)) _
  | element vector index =>
    refine Eval.Agree.bind (inherited index) fun value => ?_
    cases Number.toIndex? value with
    | none => exact .pure _
    | some position => exact Eval.Agree.bind (inherited vector) fun _ => .pure _
  | @assignElement target _ _ _ _ _ _ index value =>
    refine Eval.Agree.bind (inherited index) fun _ => Eval.Agree.bind (inherited value) fun _ => ?_
    exact .assignElement (Traced.erase_assignElement ..) fun _ _ _ kept => kept.setElement target _ _
  | vectorSize operand | stringLength operand | vectorAggregate _ operand | negate operand
  | map _ operand => exact Eval.Agree.bind (inherited operand) fun _ => .pure _
  | stringCompare _ first second | stringMatch _ first second =>
    exact Eval.Agree.bind (inherited first) fun _ => Eval.Agree.bind (inherited second) fun _ => .pure _
  | builtin _ arguments =>
    rw [Node.eval, Node.trace, arguments.length_eq]
    have all := evalAll_agree (arguments.imp fun _ _ => inherited)
    exact .ite (Eval.Agree.bind all fun _ => .pure _) (.pure _)
  | userCall _ arguments =>
    have all := evalAll_agree (arguments.imp fun _ _ => inherited)
    refine Eval.Agree.bind all fun values => .noting fun _ kept _ _ _ done => ?_
    cases done
    exact kept.call _ _
  | substring source first last =>
    exact Eval.Agree.bind (inherited source) fun _ => Eval.Agree.bind (inherited first) fun _ =>
      Eval.Agree.bind (inherited last) fun _ => .pure _
  | stringAssign _ value =>
    refine Eval.Agree.bind (inherited value) fun _ => .noting fun _ kept spared _ _ done => ?_
    cases done
    exact kept.setString (fun isFrozen => spared _ isFrozen (Traced.mem_replaces _ _)) _
  | @vectorAssign target _ _ _ _ value =>
    refine Eval.Agree.bind (Operand.eval_agree (value.imp inherited)) fun _ => .noting fun _ kept _ _ _ done => ?_
    cases done
    exact kept.setVector target _
  | @reset target _ _ _ values =>
    refine Eval.Agree.bind (evalAll_agree (values.imp fun _ _ => inherited)) fun _ =>
      .noting fun _ kept _ _ _ done => ?_
    cases done
    exact kept.setVector target _
  | sequence statements result =>
    have each := statements.imp fun _ _ related => AnyNode.Related.imp related inherited
    exact Eval.Agree.bind (executeAll_agree each) fun _ => inherited result

/-! ## Loops and joined operands -/

theorem Node.loop_agree {start otherStart step otherStep body otherBody : AnyNode}
    {condition otherCondition : Node .scalar} (first : AnyNode.Related relation start otherStart)
    (second : relation .scalar condition otherCondition) (third : AnyNode.Related relation step otherStep)
    (fourth : AnyNode.Related relation body otherBody) (limit : Option Nat) :
    Node.Agree frozen reference fuel .scalar (.loop start condition step body limit)
      (.loop otherStart otherCondition otherStep otherBody limit) := by
  refine Eval.Agree.bind (execute_agree (first.imp inherited)) fun _ => ?_
  exact .repeatWhile (inherited second) (evalScalar_agree (fourth.imp inherited))
    (execute_agree (third.imp inherited)) _ _ _ _

theorem Node.elementOperation_agree (op : BinaryOperator) {one other one₁ other₁ : Operand}
    (first : Operand.Related relation one other) (second : Operand.Related relation one₁ other₁)
    (pointwise : one.isPointwise = true) (otherPointwise : other.isPointwise = true) :
    Node.Agree frozen reference fuel .vector (.elementOperation op one one₁)
      (.elementOperation op other other₁) := by
  unfold Node.Agree Node.AgreeOn
  rw [Node.eval_elementOperation fuel op pointwise, Node.trace_elementOperation fuel op otherPointwise, Node.trace]
  refine Eval.Agree.bind (Operand.eval_agree (first.imp inherited)) fun left => ?_
  have run : Eval.Agree (·.Resembles frozen reference) frozen
      (one₁.eval fuel >>= fun right => pure (Broadcast.apply op left right))
      (traceElementwise fuel left [(op, other₁)]) :=
    Eval.Agree.bind (Operand.eval_agree (second.imp inherited)) fun _ => .pure _
  simpa using run.bind fun value => .pure value.elements

end Agree

theorem Node.operation_agree (op : BinaryOperator) {one other one₁ other₁ : Node .scalar}
    (first : Node.Agree frozen reference fuel .scalar one other)
    (second : Node.Agree frozen reference fuel .scalar one₁ other₁) :
    Node.Agree frozen reference fuel .scalar (.operation op one one₁) (.operation op other other₁) := by
  unfold Node.Agree Node.AgreeOn
  rw [Node.eval_operation, Node.trace_operation]
  exact Eval.Agree.bind first fun value => .continueWith op value second

theorem Node.joined_agree {one other one₁ other₁ : Node .string}
    (first : Node.Agree frozen reference fuel .string one other)
    (second : Node.Agree frozen reference fuel .string one₁ other₁) :
    Node.Agree frozen reference fuel .string (.joined one one₁) (.joined other other₁) := by
  unfold Node.Agree Node.AgreeOn
  rw [Node.eval_joined, Node.trace_joined]
  exact Eval.Agree.bind first fun _ => Eval.Agree.bind second fun _ => .pure _

end LiveExpr
