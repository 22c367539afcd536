import LiveExpr.Proofs.Node.Everywhere
import LiveExpr.Proofs.Node.Relabeling
import LiveExpr.Proofs.Node.Trace

/-!
Relations between two evaluations of graphs that differ in nothing but the limits of their loops. A relation that is
kept by running one computation after another, and that holds of the accesses to cells, of calls and of loops, holds of
the evaluations of whole graphs.
-/

namespace LiveExpr

open AnyNode (Everywhere everywhere_iff)

/-- The cell that the node itself reads or writes, apart from the nodes that it is made from. -/
def AnyNode.cell? : AnyNode → Option Cell
  | ⟨_, .variable cell⟩ | ⟨_, .assign cell _ _⟩ => some (.number cell)
  | ⟨_, .stringVariable cell⟩ | ⟨_, .stringAssign cell _ _⟩ => some (.string cell)
  | ⟨_, .vectorVariable cell⟩ | ⟨_, .assignElement cell _ _ _⟩ | ⟨_, .vectorAssign cell _ _⟩
  | ⟨_, .reset cell _ _⟩ => some (.vector cell)
  | _ => none

namespace Traced

inductive IsAccess : Cell → {α : Type} → Traced α → Prop
  | number (cell : NumberCell) : IsAccess (.number cell) (number cell)
  | string (cell : StringCell) : IsAccess (.string cell) (string cell)
  | vector (cell : VectorCell) : IsAccess (.vector cell) (vector cell)
  | assign (target : NumberCell) (op : Option BinaryOperator) (value : Float) :
      IsAccess (.number target) (assign target op value)
  | assignString (target : StringCell) (append : Bool) (value : Bytes) :
      IsAccess (.string target) (assignString target append value)
  | assignElement (target : VectorCell) (index : Float) (op : Option BinaryOperator) (value : Float) :
      IsAccess (.vector target) (assignElement target index op value)
  | assignVector (target : VectorCell) (op : Option BinaryOperator) (value : Broadcast) :
      IsAccess (.vector target) (assignVector target op value)
  | reset (target : VectorCell) (values : List Float) (fill : Bool) :
      IsAccess (.vector target) (reset target values fill)

/-- A relation between computations that goes through whole graphs, where the cells, the functions and the limits are
such as the relation admits. The second graph has other limits, and loops without one have other rounds. -/
structure Relation (fuel otherFuel : Nat) (limit : Option Nat → Option Nat) where
  Holds {α : Type} (one other : Traced α) : Prop
  accessible (cell : Cell) : Prop
  callable (function : FunctionHandle) : Prop
  bounded (limit : Option Nat) : Prop
  pure {α : Type} (value : α) : Holds (pure value) (pure value)
  bind {α β : Type} {one other : Traced α} {next otherNext : α → Traced β} (first : Holds one other)
    (second : ∀ value, Holds (next value) (otherNext value)) : Holds (one >>= next) (other >>= otherNext)
  access {α : Type} {cell : Cell} {computation : Traced α} (isAccess : computation.IsAccess cell)
    (admitted : accessible cell) : Holds computation computation
  call {function : FunctionHandle} (admitted : callable function) (arguments : List Float) :
    Holds (call function arguments) (call function arguments)
  loop {bound : Option Nat} (admitted : bounded bound) {condition otherCondition body otherBody : Traced Float}
    {step otherStep : Traced Unit} (first : Holds condition otherCondition) (second : Holds body otherBody)
    (third : Holds step otherStep) :
    Holds (loop fuel condition body step bound) (loop otherFuel otherCondition otherBody otherStep (limit bound))

namespace Relation

variable {fuel otherFuel : Nat} {limit : Option Nat → Option Nat} (relation : Relation fuel otherFuel limit)

/-- Whether the relation admits what the node itself accesses or calls, or how often it goes round. -/
def Admits : AnyNode → Prop
  | ⟨_, .userCall function _⟩ => relation.callable function
  | ⟨_, .loop _ _ _ _ bound⟩ => relation.bounded bound
  | node => ∀ cell ∈ node.cell?, relation.accessible cell

def Relates (node : AnyNode) : Prop :=
  relation.Holds (node.2.trace fuel) ((node.2.relabel (.onLimits limit)).trace otherFuel)

variable {relation}

theorem holds_ite {α : Type} {condition : Prop} [Decidable condition] {one other one₁ other₁ : Traced α}
    (first : relation.Holds one other) (second : relation.Holds one₁ other₁) :
    relation.Holds (if condition then one else one₁) (if condition then other else other₁) := by
  split
  · exact first
  · exact second

theorem holds_discard {α : Type} {one other : Traced α} (holds : relation.Holds one other) :
    relation.Holds one.discard other.discard :=
  relation.bind holds fun _ => relation.pure ()

theorem holds_continueWith (op : BinaryOperator) (left : Float) {one other : Traced Float}
    (holds : relation.Holds one other) :
    relation.Holds (Traced.continueWith op left one) (Traced.continueWith op left other) := by
  unfold Traced.continueWith
  cases op.settled? left with
  | some value => exact relation.pure value
  | none => exact relation.bind holds fun _ => relation.pure _

/-! ## Lists of nodes -/

theorem holds_traceAll {nodes : List (Node .scalar)} (relates : ∀ node ∈ nodes, relation.Relates (.scalar node)) :
    relation.Holds (traceAll fuel nodes) (traceAll otherFuel (relabelAll (.onLimits limit) nodes)) := by
  induction nodes with
  | nil => exact relation.pure []
  | cons first rest induction =>
    have each := List.forall_mem_cons.mp relates
    exact relation.bind each.1 fun _ => relation.bind (induction each.2) fun _ => relation.pure _

theorem holds_traceParts {parts : List (Node .string)} (relates : ∀ part ∈ parts, relation.Relates (.string part)) :
    relation.Holds (traceParts fuel parts) (traceParts otherFuel (relabelParts (.onLimits limit) parts)) := by
  induction parts with
  | nil => exact relation.pure []
  | cons first rest induction =>
    have each := List.forall_mem_cons.mp relates
    exact relation.bind each.1 fun _ => relation.bind (induction each.2) fun _ => relation.pure _

theorem holds_traceChain {rest : List (BinaryOperator × Node .scalar)}
    (relates : ∀ step ∈ rest, relation.Relates (.scalar step.2)) (value : Float) :
    relation.Holds (traceChain fuel value rest)
      (traceChain otherFuel value (relabelChain (.onLimits limit) rest)) := by
  induction rest generalizing value with
  | nil => exact relation.pure value
  | cons step rest induction =>
    have each := List.forall_mem_cons.mp relates
    exact relation.bind (holds_continueWith step.1 value each.1) fun value => induction each.2 value

theorem holds_traceCases {cases : List (Node .scalar × Node .scalar)}
    (relates : ∀ one ∈ cases, relation.Relates (.scalar one.1) ∧ relation.Relates (.scalar one.2)) :
    relation.Holds (traceCases fuel cases) (traceCases otherFuel (relabelCases (.onLimits limit) cases)) := by
  induction cases with
  | nil => exact relation.pure none
  | cons one rest induction =>
    have each := List.forall_mem_cons.mp relates
    exact relation.bind each.1.1 fun _ =>
      holds_ite (relation.bind each.1.2 fun _ => relation.pure _) (induction each.2)

theorem holds_operand {operand : Operand} (relates : relation.Relates operand.node) :
    relation.Holds (operand.trace fuel) ((operand.relabel (.onLimits limit)).trace otherFuel) := by
  cases operand with
  | vector vector => exact relation.bind relates fun _ => relation.pure _
  | scalar scalar => exact relation.bind relates fun _ => relation.pure _

theorem holds_traceElementwise {rest : List (BinaryOperator × Operand)}
    (relates : ∀ step ∈ rest, relation.Relates step.2.node) (value : Broadcast) :
    relation.Holds (traceElementwise fuel value rest)
      (traceElementwise otherFuel value (relabelElementwise (.onLimits limit) rest)) := by
  induction rest generalizing value with
  | nil => exact relation.pure value
  | cons step rest induction =>
    have each := List.forall_mem_cons.mp relates
    exact relation.bind (holds_operand each.1) fun _ => induction each.2 _

theorem holds_traceStatement {node : AnyNode} (relates : relation.Relates node) :
    relation.Holds (traceStatement fuel node) (traceStatement otherFuel (node.relabel (.onLimits limit))) := by
  obtain ⟨k, node⟩ := node
  exact holds_discard relates

theorem holds_traceStatements {nodes : List AnyNode} (relates : ∀ node ∈ nodes, relation.Relates node) :
    relation.Holds (traceStatements fuel nodes)
      (traceStatements otherFuel (relabelStatements (.onLimits limit) nodes)) := by
  induction nodes with
  | nil => exact relation.pure ()
  | cons first rest induction =>
    have each := List.forall_mem_cons.mp relates
    exact relation.bind (holds_traceStatement each.1) fun _ => induction each.2

theorem holds_traceScalar {node : AnyNode} (relates : relation.Relates node) :
    relation.Holds (traceScalar fuel node) (traceScalar otherFuel (node.relabel (.onLimits limit))) := by
  obtain ⟨k, node⟩ := node
  cases k with
  | scalar => exact relates
  | string | vector => exact relation.bind (holds_discard relates) fun _ => relation.pure _

/-! ## Nodes -/

theorem of_children {node : AnyNode} (admitted : relation.Admits node)
    (relates : ∀ child ∈ node.2.children, relation.Relates child) : relation.Relates node := by
  obtain ⟨k, node⟩ := node
  unfold Relates
  dsimp only at relates ⊢
  cases node with
  | constant | literal | missing => exact relation.pure _
  | «variable» => exact relation.access (.number _) (admitted _ rfl)
  | stringVariable => exact relation.access (.string _) (admitted _ rfl)
  | vectorVariable => exact relation.access (.vector _) (admitted _ rfl)
  | unary | vectorSize | stringLength | vectorAggregate | negate | map =>
    exact relation.bind (List.forall_mem_cons.mp relates).1 fun _ => relation.pure _
  | binary op =>
    simp only [Node.children, List.forall_mem_cons] at relates
    exact relation.bind relates.1 fun value => holds_continueWith op value relates.2.1
  | chain =>
    simp only [Node.children, List.forall_mem_cons, List.forall_mem_map] at relates
    exact relation.bind relates.1 fun value => holds_traceChain relates.2 value
  | conditional | stringConditional =>
    simp only [Node.children, List.forall_mem_cons] at relates
    exact relation.bind relates.1 fun _ => holds_ite relates.2.1 relates.2.2.1
  | choice =>
    simp only [Node.children, List.forall_mem_cons, List.forall_mem_flatMap] at relates
    have cases := holds_traceCases fun one inside => ⟨(relates.2 one inside).1, (relates.2 one inside).2.1⟩
    refine relation.bind cases fun value => ?_
    cases value with
    | some value => exact relation.pure value
    | none => exact relates.1
  | loop =>
    simp only [Node.children, List.forall_mem_cons] at relates
    obtain ⟨start, condition, step, body, -⟩ := relates
    exact relation.bind (holds_traceStatement start) fun _ =>
      relation.loop admitted condition (holds_traceScalar body) (holds_traceStatement step)
  | assign =>
    exact relation.bind (List.forall_mem_cons.mp relates).1 fun _ => relation.access (.assign ..) (admitted _ rfl)
  | stringAssign =>
    exact relation.bind (List.forall_mem_cons.mp relates).1 fun _ =>
      relation.access (.assignString ..) (admitted _ rfl)
  | element =>
    simp only [Node.children, List.forall_mem_cons] at relates
    refine relation.bind relates.2.1 fun value => ?_
    cases Number.toIndex? value with
    | none => exact relation.pure _
    | some position => exact relation.bind relates.1 fun _ => relation.pure _
  | assignElement =>
    simp only [Node.children, List.forall_mem_cons] at relates
    exact relation.bind relates.1 fun _ => relation.bind relates.2.1 fun _ =>
      relation.access (.assignElement ..) (admitted _ rfl)
  | stringCompare | stringMatch =>
    simp only [Node.children, List.forall_mem_cons] at relates
    exact relation.bind relates.1 fun _ => relation.bind relates.2.1 fun _ => relation.pure _
  | builtin function arguments =>
    rw [Node.children, List.forall_mem_map] at relates
    have sameLength : (relabelAll (.onLimits limit) arguments).length = arguments.length := by
      rw [relabelAll_eq_map, List.length_map]
    rw [Node.relabel, Node.trace, Node.trace, sameLength]
    exact holds_ite (relation.bind (holds_traceAll relates) fun _ => relation.pure _) (relation.pure _)
  | userCall =>
    rw [Node.children, List.forall_mem_map] at relates
    exact relation.bind (holds_traceAll relates) fun _ => relation.call admitted _
  | concat =>
    rw [Node.children, List.forall_mem_map] at relates
    exact holds_traceParts relates
  | substring =>
    simp only [Node.children, List.forall_mem_cons] at relates
    exact relation.bind relates.1 fun _ => relation.bind relates.2.1 fun _ =>
      relation.bind relates.2.2.1 fun _ => relation.pure _
  | elementwise =>
    simp only [Node.children, List.forall_mem_cons, List.forall_mem_map] at relates
    exact relation.bind (holds_operand relates.1) fun value =>
      relation.bind (holds_traceElementwise relates.2 value) fun _ => relation.pure _
  | vectorAssign =>
    exact relation.bind (holds_operand (List.forall_mem_cons.mp relates).1) fun _ =>
      relation.access (.assignVector ..) (admitted _ rfl)
  | reset =>
    rw [Node.children, List.forall_mem_map] at relates
    exact relation.bind (holds_traceAll relates) fun _ => relation.access (.reset ..) (admitted _ rfl)
  | sequence =>
    rw [Node.children, List.forall_mem_cons] at relates
    exact relation.bind (holds_traceStatements relates.2) fun _ => relates.1

/-- The relation holds of the evaluations of a graph if it admits all cells, calls and limits in it. -/
theorem of_everywhere {node : AnyNode} (admitted : Everywhere relation.Admits node) : relation.Relates node := by
  induction admitted with
  | intro here _ induction => exact of_children here induction

end Relation

end Traced

end LiveExpr
