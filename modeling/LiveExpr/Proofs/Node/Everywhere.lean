import LiveExpr.Node

/-!
Properties of all nodes of a graph: of a node, of the nodes that it is made from, and so on down to the leaves.
-/

namespace LiveExpr

def Operand.node : Operand → AnyNode
  | .vector node => AnyNode.vector node
  | .scalar node => AnyNode.scalar node

def Node.children {k : Kind} : Node k → List AnyNode
  | .constant _ => []
  | .variable _ => []
  | .unary _ operand => [.scalar operand]
  | .binary _ left right => [.scalar left, .scalar right]
  | .chain first rest => .scalar first :: rest.map fun step => .scalar step.2
  | .conditional condition consequent alternative =>
    [.scalar condition, .scalar consequent, .scalar alternative]
  | .choice cases otherwise =>
    .scalar otherwise :: cases.flatMap fun one => [.scalar one.1, .scalar one.2]
  | .loop start condition step body _ => [start, .scalar condition, step, body]
  | .assign _ _ value => [.scalar value]
  | .element vector index => [.vector vector, .scalar index]
  | .assignElement _ index _ value => [.scalar index, .scalar value]
  | .vectorSize vector => [.vector vector]
  | .stringLength string => [.string string]
  | .stringCompare _ left right => [.string left, .string right]
  | .stringMatch _ left right => [.string left, .string right]
  | .builtin _ arguments => arguments.map .scalar
  | .vectorAggregate _ vector => [.vector vector]
  | .userCall _ arguments => arguments.map .scalar
  | .literal _ => []
  | .stringVariable _ => []
  | .concat parts => parts.map .string
  | .substring source first last => [.string source, .scalar first, .scalar last]
  | .stringConditional condition consequent alternative =>
    [.scalar condition, .string consequent, .string alternative]
  | .stringAssign _ _ value => [.string value]
  | .vectorVariable _ => []
  | .negate vector => [.vector vector]
  | .map _ vector => [.vector vector]
  | .elementwise first rest => first.node :: rest.map fun step => step.2.node
  | .vectorAssign _ _ value => [value.node]
  | .reset _ values _ => values.map .scalar
  | .sequence statements result => ⟨_, result⟩ :: statements
  | .missing => []

namespace AnyNode

/-- Whether a property holds of a node and of everything that it is made from. -/
inductive Everywhere (property : AnyNode → Prop) : AnyNode → Prop
  | intro {node : AnyNode} (here : property node)
      (below : ∀ child ∈ node.2.children, Everywhere property child) : Everywhere property node

variable {property : AnyNode → Prop}

theorem everywhere_iff {node : AnyNode} :
    Everywhere property node ↔ property node ∧ ∀ child ∈ node.2.children, Everywhere property child := by
  constructor
  · rintro ⟨here, below⟩
    exact ⟨here, below⟩
  · exact fun ⟨here, below⟩ => .intro here below

theorem Everywhere.imp {other : AnyNode → Prop} (implies : ∀ node, property node → other node)
    {node : AnyNode} (everywhere : Everywhere property node) : Everywhere other node := by
  induction everywhere with
  | intro here _ induction => exact .intro (implies _ here) induction

theorem Everywhere.and {other : AnyNode → Prop} {node : AnyNode} (first : Everywhere property node)
    (second : Everywhere other node) : Everywhere (fun node => property node ∧ other node) node := by
  induction first with
  | intro here _ induction =>
    obtain ⟨otherHere, otherBelow⟩ := second
    exact .intro ⟨here, otherHere⟩ fun child listed => induction child listed (otherBelow child listed)

end AnyNode

/-! ## Joined nodes

A property that says nothing of runs holds everywhere in a joined node if it does so in both operands.
-/

namespace Node

open AnyNode (Everywhere everywhere_iff)

variable {property : AnyNode → Prop}

theorem everywhere_binary {op : BinaryOperator} {left right : Node .scalar} :
    Everywhere property (.scalar (.binary op left right)) ↔
      property (.scalar (.binary op left right)) ∧
        Everywhere property (.scalar left) ∧ Everywhere property (.scalar right) := by
  rw [everywhere_iff]
  simp [AnyNode.scalar, children]

theorem everywhere_chain {first : Node .scalar} {rest : List (BinaryOperator × Node .scalar)} :
    Everywhere property (.scalar (.chain first rest)) ↔
      property (.scalar (.chain first rest)) ∧ Everywhere property (.scalar first) ∧
        ∀ step ∈ rest, Everywhere property (.scalar step.2) := by
  rw [everywhere_iff]
  simp only [AnyNode.scalar, children, List.forall_mem_cons, List.forall_mem_map]

theorem everywhere_concat {parts : List (Node .string)} :
    Everywhere property (.string (.concat parts)) ↔
      property (.string (.concat parts)) ∧ ∀ part ∈ parts, Everywhere property (.string part) := by
  rw [everywhere_iff]
  simp [AnyNode.string, children]

theorem everywhere_elementwise {first : Operand} {rest : List (BinaryOperator × Operand)} :
    Everywhere property (.vector (.elementwise first rest)) ↔
      property (.vector (.elementwise first rest)) ∧ Everywhere property first.node ∧
        ∀ step ∈ rest, Everywhere property step.2.node := by
  rw [everywhere_iff]
  simp only [AnyNode.vector, children, List.forall_mem_cons, List.forall_mem_map]

theorem everywhere_operation (binary : ∀ op left right, property (.scalar (.binary op left right)))
    (chain : ∀ first rest, property (.scalar (.chain first rest))) {op : BinaryOperator}
    {left right : Node .scalar} :
    Everywhere property (.scalar (operation op left right)) ↔
      Everywhere property (.scalar left) ∧ Everywhere property (.scalar right) := by
  unfold operation
  split
  · simp only [everywhere_chain, chain, true_and, List.forall_mem_append, List.forall_mem_singleton,
      and_assoc]
  · simp only [everywhere_chain, everywhere_binary, chain, binary, true_and, List.forall_mem_cons,
      List.not_mem_nil, false_implies, implies_true, and_true, and_assoc]
  · simp only [everywhere_binary, binary, true_and]

theorem everywhere_parts (concat : ∀ parts, property (.string (.concat parts))) {string : Node .string} :
    (∀ part ∈ string.parts, Everywhere property (.string part)) ↔ Everywhere property (.string string) := by
  unfold parts
  split
  · simp only [everywhere_concat, concat, true_and]
  · simp only [List.forall_mem_singleton]

theorem everywhere_joined (concat : ∀ parts, property (.string (.concat parts)))
    {left right : Node .string} :
    Everywhere property (.string (joined left right)) ↔
      Everywhere property (.string left) ∧ Everywhere property (.string right) := by
  rw [joined, everywhere_concat, List.forall_mem_append, everywhere_parts concat, everywhere_parts concat]
  exact and_iff_right (concat _)

/-- What holds of a run that is extended must be shown to hold of the longer run. -/
theorem everywhere_elementOperation {op : BinaryOperator} {left right : Operand}
    (here : property (.vector (elementOperation op left right)))
    (inLeft : Everywhere property left.node) (inRight : Everywhere property right.node) :
    Everywhere property (.vector (elementOperation op left right)) := by
  unfold elementOperation at here ⊢
  split
  next first rest =>
    obtain ⟨-, inFirst, inRest⟩ := everywhere_elementwise.mp inLeft
    refine everywhere_elementwise.mpr ⟨here, inFirst, ?_⟩
    exact List.forall_mem_append.mpr ⟨inRest, List.forall_mem_singleton.mpr inRight⟩
  next =>
    simp only at here
    exact everywhere_elementwise.mpr ⟨here, inLeft, List.forall_mem_singleton.mpr inRight⟩

end Node

/-! ## Sizes -/

@[simp] theorem AnyNode.sizeOf_mk {k : Kind} (node : Node k) : sizeOf (⟨k, node⟩ : AnyNode).2 = sizeOf node := rfl
@[simp] theorem AnyNode.sizeOf_scalar (node : Node .scalar) : sizeOf (scalar node).2 = sizeOf node := rfl
@[simp] theorem AnyNode.sizeOf_string (node : Node .string) : sizeOf (string node).2 = sizeOf node := rfl
@[simp] theorem AnyNode.sizeOf_vector (node : Node .vector) : sizeOf (vector node).2 = sizeOf node := rfl

theorem AnyNode.sizeOf_lt (node : AnyNode) : sizeOf node.2 < sizeOf node := by
  rcases node with ⟨k, node⟩
  rw [sizeOf_mk, Sigma.mk.sizeOf_spec]
  omega

theorem Operand.sizeOf_node (operand : Operand) : sizeOf operand.node.2 < sizeOf operand := by
  cases operand with
  | vector node | scalar node =>
    change sizeOf node < _
    simp

theorem Node.sizeOf_child {k : Kind} {node : Node k} {child : AnyNode} (inside : child ∈ node.children) :
    sizeOf child.2 < sizeOf node := by
  have smaller := child.sizeOf_lt
  cases node with
  | chain first rest =>
    simp only [children, List.mem_cons, List.mem_map] at inside
    rw [chain.sizeOf_spec]
    rcases inside with rfl | ⟨⟨op, operand⟩, listed, rfl⟩
    · rw [AnyNode.sizeOf_scalar]
      omega
    · have member := List.sizeOf_lt_of_mem listed
      rw [Prod.mk.sizeOf_spec] at member
      change sizeOf operand < _
      omega
  | choice cases otherwise =>
    simp only [children, List.mem_cons, List.mem_flatMap, List.not_mem_nil, or_false] at inside
    rw [choice.sizeOf_spec]
    rcases inside with rfl | ⟨⟨condition, result⟩, listed, inOne⟩
    · rw [AnyNode.sizeOf_scalar]
      omega
    · have member := List.sizeOf_lt_of_mem listed
      rw [Prod.mk.sizeOf_spec] at member
      rcases inOne with rfl | rfl
      · change sizeOf condition < _
        omega
      · change sizeOf result < _
        omega
  | elementwise first rest =>
    simp only [children, List.mem_cons, List.mem_map] at inside
    rw [elementwise.sizeOf_spec]
    rcases inside with rfl | ⟨⟨op, operand⟩, listed, rfl⟩
    · have wrapped := first.sizeOf_node
      omega
    · have member := List.sizeOf_lt_of_mem listed
      have wrapped := operand.sizeOf_node
      rw [Prod.mk.sizeOf_spec] at member
      change sizeOf operand.node.2 < _
      omega
  | vectorAssign _ _ value =>
    obtain rfl := List.mem_singleton.mp inside
    have wrapped := value.sizeOf_node
    rw [vectorAssign.sizeOf_spec]
    omega
  | sequence statements result =>
    rw [sequence.sizeOf_spec]
    rcases List.mem_cons.mp inside with rfl | listed
    · rw [AnyNode.sizeOf_mk]
      omega
    · have member := List.sizeOf_lt_of_mem listed
      omega
  | builtin _ arguments | userCall _ arguments | concat arguments | reset _ arguments _ =>
    obtain ⟨argument, listed, rfl⟩ := List.mem_map.mp inside
    have member := List.sizeOf_lt_of_mem listed
    simp only [AnyNode.sizeOf_scalar, AnyNode.sizeOf_string, builtin.sizeOf_spec, userCall.sizeOf_spec,
      concat.sizeOf_spec, reset.sizeOf_spec]
    omega
  | constant | «variable» | literal | stringVariable | vectorVariable | missing => cases inside
  | _ =>
    simp only [children, List.mem_cons, List.not_mem_nil, or_false] at inside
    rcases inside with rfl | rfl | rfl | rfl <;> simp at smaller ⊢ <;> omega

theorem AnyNode.everywhere_of_forall {property : AnyNode → Prop} (all : ∀ node, property node) (node : AnyNode) :
    Everywhere property node :=
  .intro (all node) fun child _ => everywhere_of_forall all child
termination_by sizeOf node.2
decreasing_by exact Node.sizeOf_child ‹_›

end LiveExpr
