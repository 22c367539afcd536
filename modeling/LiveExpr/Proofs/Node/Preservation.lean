import LiveExpr.Proofs.Node.Congruence

/-!
What evaluation preserves: a property of stores that no node of a graph breaks by the cell that it writes, or by the
function that it calls, holds after the evaluation of the whole graph.
-/

namespace LiveExpr

open AnyNode (Everywhere everywhere_iff)

/-- Whether a computation, of which a log may be kept, leaves a store with the property when it starts from one. -/
abbrev Eval.Keeps {α : Type} (keeps : Store → Prop) (computation : Eval α) (traced : Traced α) : Prop :=
  Eval.Agree keeps (fun _ => False) computation traced

abbrev Node.Keeps (keeps : Store → Prop) (fuel : Nat) {k : Kind} (node : Node k) : Prop :=
  Eval.Keeps keeps (node.eval fuel) (node.trace fuel)

/-- Whether the node itself writes no frozen cell. -/
def AnyNode.IsFree (frozen : Target → Prop) : AnyNode → Prop
  | ⟨_, .assign target _ _⟩ => ¬ frozen (.number target)
  | ⟨_, .stringAssign target _ _⟩ => ¬ frozen (.string target)
  | _ => True

def AnyNode.Preserves (keeps : Store → Prop) : AnyNode → Prop
  | ⟨_, .assign target _ _⟩ => ∀ store value, keeps store → keeps (store.setNumber target value)
  | ⟨_, .stringAssign target _ _⟩ => ∀ store content, keeps store → keeps (store.setString target content)
  | ⟨_, .assignElement target _ _ _⟩ =>
    ∀ store index value, keeps store → keeps (store.setElement target index value)
  | ⟨_, .vectorAssign target _ _⟩ | ⟨_, .reset target _ _⟩ =>
    ∀ store values, keeps store → keeps (store.setVector target values)
  | ⟨_, .userCall function _⟩ => ∀ store arguments, keeps store → keeps (store.call function arguments).2
  | _ => True

variable {keeps : Store → Prop} {fuel : Nat}

/-! ## Lists of nodes -/

theorem evalAll_keeps {nodes : List (Node .scalar)} (kept : ∀ node ∈ nodes, node.Keeps keeps fuel) :
    Eval.Keeps keeps (evalAll fuel nodes) (traceAll fuel nodes) :=
  evalAll_agree (List.forall₂_same.mpr kept)

theorem evalChain_keeps {rest : List (BinaryOperator × Node .scalar)}
    (kept : ∀ step ∈ rest, step.2.Keeps keeps fuel) (value : Float) :
    Eval.Keeps keeps (evalChain fuel value rest) (traceChain fuel value rest) := by
  induction rest generalizing value with
  | nil => exact .pure value
  | cons step rest induction =>
    have each := List.forall_mem_cons.mp kept
    exact (Eval.Agree.continueWith step.1 value each.1).bind fun value => induction each.2 value

theorem evalParts_keeps {parts : List (Node .string)} (kept : ∀ part ∈ parts, part.Keeps keeps fuel) :
    Eval.Keeps keeps (evalParts fuel parts) (traceParts fuel parts) := by
  induction parts with
  | nil => exact .pure []
  | cons part parts induction =>
    have each := List.forall_mem_cons.mp kept
    exact Eval.Agree.bind each.1 fun _ => (induction each.2).bind fun _ => .pure _

theorem evalElementwise_keeps {rest : List (BinaryOperator × Operand)}
    (kept : ∀ step ∈ rest, Eval.Keeps keeps (step.2.eval fuel) (step.2.trace fuel)) (value : Broadcast) :
    Eval.Keeps keeps (evalElementwise fuel value rest) (traceElementwise fuel value rest) := by
  induction rest generalizing value with
  | nil => exact .pure value
  | cons step rest induction =>
    have each := List.forall_mem_cons.mp kept
    exact each.1.bind fun _ => induction each.2 _

theorem execute_keeps {node : AnyNode} (kept : node.2.Keeps keeps fuel) :
    Eval.Keeps keeps (execute fuel node) (traceStatement fuel node) :=
  execute_agree (.intro kept)

theorem executeAll_keeps {nodes : List AnyNode} (kept : ∀ node ∈ nodes, node.2.Keeps keeps fuel) :
    Eval.Keeps keeps (executeAll fuel nodes) (traceStatements fuel nodes) :=
  executeAll_agree (List.forall₂_same.mpr fun node inside => .intro (kept node inside))

theorem evalScalar_keeps {node : AnyNode} (kept : node.2.Keeps keeps fuel) :
    Eval.Keeps keeps (evalScalar fuel node) (traceScalar fuel node) :=
  evalScalar_agree (.intro kept)

theorem Operand.eval_keeps {operand : Operand} (kept : operand.node.2.Keeps keeps fuel) :
    Eval.Keeps keeps (operand.eval fuel) (operand.trace fuel) := by
  cases operand with
  | vector vector => exact Eval.Agree.bind kept fun _ => .pure _
  | scalar scalar => exact Eval.Agree.bind kept fun _ => .pure _

/-! ## Nodes -/

theorem Node.eval_keeps {k : Kind} {node : Node k} (preserves : AnyNode.Preserves keeps ⟨k, node⟩)
    (kept : ∀ child ∈ node.children, child.2.Keeps keeps fuel) : node.Keeps keeps fuel := by
  cases node with
  | constant value => exact .pure value
  | literal content => exact .pure content
  | «variable» | stringVariable | vectorVariable => exact .read _
  | missing => exact .pure _
  | unary | vectorSize | stringLength | vectorAggregate | negate | map =>
    exact Eval.Agree.bind (List.forall_mem_cons.mp kept).1 fun _ => .pure _
  | binary op =>
    simp only [children, List.forall_mem_cons] at kept
    exact Eval.Agree.bind kept.1 fun value => .continueWith op value kept.2.1
  | chain =>
    simp only [children, List.forall_mem_cons, List.forall_mem_map] at kept
    exact Eval.Agree.bind kept.1 fun value => evalChain_keeps kept.2 value
  | conditional | stringConditional =>
    simp only [children, List.forall_mem_cons] at kept
    exact Eval.Agree.bind kept.1 fun _ => .ite kept.2.1 kept.2.2.1
  | choice =>
    simp only [children, List.forall_mem_cons, List.forall_mem_flatMap] at kept
    refine Eval.Agree.bind (evalCases_agree (List.forall₂_same.mpr fun one inside =>
      ⟨(kept.2 one inside).1, (kept.2 one inside).2.1⟩)) fun value => ?_
    cases value with
    | some value => exact .pure value
    | none => exact kept.1
  | loop =>
    simp only [children, List.forall_mem_cons] at kept
    obtain ⟨start, condition, step, body, -⟩ := kept
    refine Eval.Agree.bind (execute_keeps start) fun _ => ?_
    exact .repeatWhile condition (evalScalar_keeps body) (execute_keeps step) _ _ _ _
  | assign | stringAssign =>
    refine Eval.Agree.bind (List.forall_mem_cons.mp kept).1 fun _ => .noting fun store holds _ _ _ done => ?_
    cases done
    exact preserves store _ holds
  | element =>
    simp only [children, List.forall_mem_cons] at kept
    refine Eval.Agree.bind kept.2.1 fun value => ?_
    cases Number.toIndex? value with
    | none => exact .pure _
    | some position => exact Eval.Agree.bind kept.1 fun _ => .pure _
  | assignElement =>
    simp only [children, List.forall_mem_cons] at kept
    refine Eval.Agree.bind kept.1 fun _ => Eval.Agree.bind kept.2.1 fun _ => ?_
    exact .assignElement (Traced.erase_assignElement ..) preserves
  | stringCompare | stringMatch =>
    simp only [children, List.forall_mem_cons] at kept
    exact Eval.Agree.bind kept.1 fun _ => Eval.Agree.bind kept.2.1 fun _ => .pure _
  | builtin =>
    rw [children, List.forall_mem_map] at kept
    exact .ite (Eval.Agree.bind (evalAll_keeps kept) fun _ => .pure _) (.pure _)
  | userCall =>
    rw [children, List.forall_mem_map] at kept
    refine Eval.Agree.bind (evalAll_keeps kept) fun _ => .noting fun store holds _ _ _ done => ?_
    cases done
    exact preserves store _ holds
  | concat =>
    rw [children, List.forall_mem_map] at kept
    exact evalParts_keeps kept
  | substring =>
    simp only [children, List.forall_mem_cons] at kept
    exact Eval.Agree.bind kept.1 fun _ => Eval.Agree.bind kept.2.1 fun _ => Eval.Agree.bind kept.2.2.1 fun _ => .pure _
  | elementwise =>
    simp only [children, List.forall_mem_cons, List.forall_mem_map] at kept
    refine Eval.Agree.bind (Operand.eval_keeps kept.1) fun value => ?_
    have run := evalElementwise_keeps (fun step inside => Operand.eval_keeps (kept.2 step inside)) value
    refine Eval.Agree.bind run fun _ => ?_
    exact .pure _
  | vectorAssign =>
    refine Eval.Agree.bind (Operand.eval_keeps (List.forall_mem_cons.mp kept).1) fun _ =>
      .noting fun store holds _ _ _ done => ?_
    cases done
    exact preserves store _ holds
  | reset =>
    rw [children, List.forall_mem_map] at kept
    refine Eval.Agree.bind (evalAll_keeps kept) fun _ => .noting fun store holds _ _ _ done => ?_
    cases done
    exact preserves store _ holds
  | sequence =>
    rw [children, List.forall_mem_cons] at kept
    exact Eval.Agree.bind (executeAll_keeps kept.2) fun _ => kept.1

theorem AnyNode.Everywhere.eval_keeps {node : AnyNode} (preserve : Everywhere (AnyNode.Preserves keeps) node) :
    node.2.Keeps keeps fuel := by
  induction preserve with
  | intro here _ induction => exact Node.eval_keeps here induction

theorem AnyNode.Everywhere.preserved {node : AnyNode} (preserve : Everywhere (AnyNode.Preserves keeps) node)
    {before after : Store} {content : node.1.Content} (evaluated : node.2.eval fuel before = some (content, after))
    (holds : keeps before) : keeps after := by
  have kept : node.2.Keeps keeps fuel := preserve.eval_keeps
  obtain ⟨same, left⟩ := kept before holds fun _ => False.elim
  exact left content after (same.symm.trans evaluated)

/-! ## Frozen cells -/

/-- What a node does that writes no frozen cell keeps the contents of all of them, and all lengths of vectors. -/
theorem AnyNode.IsFree.preserves {frozen : Target → Prop} {node : AnyNode} (free : node.IsFree frozen)
    (reference : Store) : AnyNode.Preserves (·.Resembles frozen reference) node := by
  obtain ⟨k, node⟩ := node
  cases node with
  | assign => exact fun _ value resembles => resembles.setNumber free value
  | stringAssign => exact fun _ content resembles => resembles.setString free content
  | assignElement => exact fun _ index value resembles => resembles.setElement _ index value
  | vectorAssign | reset => exact fun _ values resembles => resembles.setVector _ values
  | userCall => exact fun _ arguments resembles => resembles.call _ arguments
  | _ => trivial

variable {node : AnyNode} {before after : Store} {content : node.1.Content}

theorem AnyNode.resembles_of_eval {frozen : Target → Prop} (free : Everywhere (AnyNode.IsFree frozen) node)
    (evaluated : node.2.eval fuel before = some (content, after)) : after.Resembles frozen before := by
  have preserve : Everywhere (AnyNode.Preserves (·.Resembles frozen before)) node :=
    free.imp fun _ free => free.preserves before
  exact preserve.preserved evaluated Store.resembles_refl

theorem AnyNode.lengths_of_eval (evaluated : node.2.eval fuel before = some (content, after)) (cell : VectorCell) :
    (after.vector cell).length = (before.vector cell).length := by
  have nothing (node : AnyNode) : node.IsFree fun _ => False := by
    obtain ⟨k, node⟩ := node
    cases node <;> simp [AnyNode.IsFree]
  exact (AnyNode.resembles_of_eval (everywhere_of_forall nothing node) evaluated).lengths cell

end LiveExpr
