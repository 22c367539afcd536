import LiveExpr.Proofs.Node.Folding
import Mathlib.Data.List.MinMax
import Mathlib.Order.Nat

/-!
The height of graphs, and the subscripts along their paths. Joining goes on with the run that its left operand is, so
what bounds the operands of a run bounds the run, however long it gets. That is proved once for all that is counted so.
-/

namespace LiveExpr

/-! ## Measures -/

/-- The levels that a node adds to those of the nodes it is made from: its own and, where these are wrapped as the
operands of an operation on vectors, that of the wrapping. -/
def Node.levels {k : Kind} : Node k → Nat
  | .elementwise _ _ | .vectorAssign _ _ _ => 2
  | _ => 1

/-- How many scalars, strings, vectors and operands are nested in one another at most. -/
def AnyNode.height (node : AnyNode) : Nat :=
  (node.2.children.attach.map fun child => child.1.height).foldr max 0 + node.2.levels
termination_by sizeOf node.2
decreasing_by exact Node.sizeOf_child child.2

def Node.isSubscript {k : Kind} : Node k → Bool
  | .element _ _ | .vectorSize _ | .stringLength _ | .substring _ _ _ => true
  | _ => false

/-- How many subscripts there are at most on a path from a node to a leaf. -/
def AnyNode.subscripts (node : AnyNode) : Nat :=
  (node.2.children.attach.map fun child => child.1.subscripts).foldr max 0 + if node.2.isSubscript then 1 else 0
termination_by sizeOf node.2
decreasing_by exact Node.sizeOf_child child.2

/-- What is counted along the paths of a graph: all levels, or subscripts alone. -/
inductive Tally where
  | levels
  | subscripts

namespace Tally

def unit : Tally → Nat
  | levels => 1
  | subscripts => 0

theorem unit_le (tally : Tally) : tally.unit ≤ 1 := by
  cases tally <;> decide

theorem unit_le_succ (tally : Tally) (bound : Nat) : tally.unit ≤ bound + 1 :=
  tally.unit_le.trans (Nat.le_add_left _ _)

end Tally

variable (tally : Tally)

/-- What a node adds to what is counted below it. -/
def Node.weight {k : Kind} : Node k → Nat
  | .element _ _ | .vectorSize _ | .stringLength _ | .substring _ _ _ => 1
  | .elementwise _ _ | .vectorAssign _ _ _ => 2 * tally.unit
  | _ => tally.unit

theorem Node.unit_le_weight {k : Kind} (node : Node k) : tally.unit ≤ node.weight tally := by
  have least := tally.unit_le
  unfold weight
  split <;> omega

theorem Node.weight_levels {k : Kind} (node : Node k) : node.weight .levels = node.levels := by
  cases node <;> rfl

theorem Node.weight_subscripts {k : Kind} (node : Node k) :
    node.weight .subscripts = if node.isSubscript then 1 else 0 := by
  cases node <;> rfl

namespace AnyNode

/-- What is counted at most on a path from a node to a leaf. -/
def weigh (node : AnyNode) : Nat :=
  (node.2.children.attach.map fun child => child.1.weigh).foldr max 0 + node.2.weight tally
termination_by sizeOf node.2
decreasing_by exact Node.sizeOf_child child.2

theorem height_eq_weigh (node : AnyNode) : node.height = node.weigh .levels := by
  rw [height, weigh, Node.weight_levels]
  congr 2
  exact List.map_congr_left fun child _ => height_eq_weigh child.1
termination_by sizeOf node.2
decreasing_by exact Node.sizeOf_child child.2

theorem subscripts_eq_weigh (node : AnyNode) : node.subscripts = node.weigh .subscripts := by
  rw [subscripts, weigh, Node.weight_subscripts]
  congr 2
  exact List.map_congr_left fun child _ => subscripts_eq_weigh child.1
termination_by sizeOf node.2
decreasing_by exact Node.sizeOf_child child.2

variable {tally} {node : AnyNode} {bound : Nat}

theorem weigh_le_iff :
    node.weigh tally ≤ bound + node.2.weight tally ↔ ∀ child ∈ node.2.children, child.weigh tally ≤ bound := by
  rw [weigh, Nat.add_le_add_iff_right, List.attach_map_val]
  constructor
  · intro low child inside
    exact (List.le_max_of_le (List.mem_map_of_mem inside) (Nat.le_refl _)).trans low
  · intro low
    exact List.max_le_of_forall_le _ _ (List.forall_mem_map.mpr low)

theorem weight_le_weigh (node : AnyNode) : node.2.weight tally ≤ node.weigh tally := by
  rw [weigh]
  exact Nat.le_add_left _ _

theorem unit_le_weigh (node : AnyNode) : tally.unit ≤ node.weigh tally :=
  (node.2.unit_le_weight tally).trans node.weight_le_weigh

theorem weigh_child_le {child : AnyNode} (inside : child ∈ node.2.children) : child.weigh tally ≤ node.weigh tally := by
  have exact : node.weigh tally ≤ (node.weigh tally - node.2.weight tally) + node.2.weight tally := by
    rw [Nat.sub_add_cancel node.weight_le_weigh]
  exact (weigh_le_iff.mp exact child inside).trans (Nat.sub_le _ _)

end AnyNode

/-! ## Runs -/

/-- The operands of a run. Any other node is the only operand of a run that begins with it. -/
def Node.operands {k : Kind} : Node k → List AnyNode
  | .binary op left right => (binary op left right).children
  | .chain first rest => (chain first rest).children
  | .concat parts => (concat parts).children
  | .elementwise first rest => (elementwise first rest).children
  | node => [⟨_, node⟩]

def Operand.operands : Operand → List AnyNode
  | .vector node => node.operands
  | .scalar node => [.scalar node]

namespace Node

theorem operands_operation (op : BinaryOperator) (left right : Node .scalar) :
    (operation op left right).operands = left.operands ++ [.scalar right] := by
  unfold operation
  split
  · simp [operands, children]
  · simp [operands, children]
  · cases left <;> simp_all [operands, children, AnyNode.scalar]

theorem map_parts (string : Node .string) : string.parts.map .string = string.operands := by
  cases string <;> rfl

theorem operands_joined (left right : Node .string) :
    (joined left right).operands = left.operands ++ right.operands := by
  rw [joined, operands, children, List.map_append, map_parts, map_parts]

theorem operands_elementOperation (op : BinaryOperator) (left right : Operand) :
    (elementOperation op left right).operands = left.operands ++ [right.node] := by
  unfold elementOperation
  split
  · simp [operands, Operand.operands, children]
  · cases left with
    | scalar => rfl
    | vector vector => cases vector <;> simp_all [operands, Operand.operands, children, Operand.node, AnyNode.vector]

def Spans (bound : Nat) {k : Kind} (node : Node k) : Prop :=
  ∀ operand ∈ node.operands, operand.weigh tally ≤ bound

variable {tally} {bound : Nat}

theorem spans_of_weigh_le {k : Kind} {node : Node k} (low : AnyNode.weigh tally ⟨k, node⟩ ≤ bound) :
    node.Spans tally bound := by
  intro operand inside
  unfold operands at inside
  split at inside
  case h_5 =>
    rw [List.mem_singleton.mp inside]
    exact low
  all_goals exact (AnyNode.weigh_child_le inside).trans low

namespace Spans

theorem weigh_le {k : Kind} {node : Node k} (spans : node.Spans tally bound) :
    AnyNode.weigh tally ⟨k, node⟩ ≤ bound + 2 * tally.unit := by
  unfold Spans operands at spans
  split at spans
  case h_4 => exact AnyNode.weigh_le_iff.mpr spans
  case h_5 => exact (spans _ (List.mem_singleton.mpr rfl)).trans (Nat.le_add_right _ _)
  all_goals
    refine (AnyNode.weigh_le_iff.mpr spans).trans (Nat.add_le_add_left ?_ _)
    exact Nat.le_mul_of_pos_left _ Nat.two_pos

theorem weigh_scalar_le {node : Node .scalar} (spans : node.Spans tally bound) :
    (AnyNode.scalar node).weigh tally ≤ bound + tally.unit := by
  cases node with
  | binary | chain => exact AnyNode.weigh_le_iff.mpr spans
  | _ => exact (spans _ (List.mem_singleton.mpr rfl)).trans (Nat.le_add_right _ _)

theorem operation {left right : Node .scalar} (spans : left.Spans tally bound)
    (low : (AnyNode.scalar right).weigh tally ≤ bound) (op : BinaryOperator) :
    (Node.operation op left right).Spans tally bound := by
  unfold Spans
  rw [operands_operation]
  exact List.forall_mem_append.mpr ⟨spans, List.forall_mem_singleton.mpr low⟩

theorem joined {left right : Node .string} (spans : left.Spans tally bound) (more : right.Spans tally bound) :
    (Node.joined left right).Spans tally bound := by
  unfold Spans
  rw [operands_joined]
  exact List.forall_mem_append.mpr ⟨spans, more⟩

theorem elementOperation {left : Node .vector} {right : Operand} (spans : left.Spans tally bound)
    (low : right.node.weigh tally ≤ bound) (op : BinaryOperator) :
    (Node.elementOperation op (.vector left) right).Spans tally bound := by
  unfold Spans
  rw [operands_elementOperation]
  exact List.forall_mem_append.mpr ⟨spans, List.forall_mem_singleton.mpr low⟩

/-- A scalar in front of a vector begins a run of its own. -/
theorem broadcastOperation {left : Node .scalar} {right : Operand} (first : (AnyNode.scalar left).weigh tally ≤ bound)
    (second : right.node.weigh tally ≤ bound) (op : BinaryOperator) :
    (Node.elementOperation op (.scalar left) right).Spans tally bound := by
  unfold Spans
  rw [operands_elementOperation]
  exact List.forall_mem_append.mpr ⟨List.forall_mem_singleton.mpr first, List.forall_mem_singleton.mpr second⟩

end Spans

/-! ## Folding -/

theorem weigh_constant (value : Float) : (AnyNode.scalar (.constant value)).weigh tally = tally.unit := by
  rw [AnyNode.weigh]
  exact Nat.zero_add _

theorem weigh_literal (content : Bytes) : (AnyNode.string (.literal content)).weigh tally = tally.unit := by
  rw [AnyNode.weigh]
  exact Nat.zero_add _

theorem branches_of_weigh_le {condition consequent alternative : Node .scalar}
    (low : (AnyNode.scalar (.conditional condition consequent alternative)).weigh tally ≤ bound) :
    (AnyNode.scalar consequent).weigh tally ≤ bound ∧ (AnyNode.scalar alternative).weigh tally ≤ bound := by
  have below : ∀ child ∈ (conditional condition consequent alternative).children, child.weigh tally ≤ bound :=
    fun child inside => (AnyNode.weigh_child_le inside).trans low
  simp only [children, List.forall_mem_cons] at below
  exact ⟨below.2.1, below.2.2.1⟩

theorem stringBranches_of_weigh_le {condition : Node .scalar} {consequent alternative : Node .string}
    (low : (AnyNode.string (.stringConditional condition consequent alternative)).weigh tally ≤ bound) :
    (AnyNode.string consequent).weigh tally ≤ bound ∧ (AnyNode.string alternative).weigh tally ≤ bound := by
  have below : ∀ child ∈ (stringConditional condition consequent alternative).children, child.weigh tally ≤ bound :=
    fun child inside => (AnyNode.weigh_child_le inside).trans low
  simp only [children, List.forall_mem_cons] at below
  exact ⟨below.2.1, below.2.2.1⟩

theorem weigh_fold_le {node : Node .scalar} (low : (AnyNode.scalar node).weigh tally ≤ bound) (store : Store) :
    (AnyNode.scalar (node.fold store)).weigh tally ≤ bound := by
  refine fold_of (fun node => (AnyNode.scalar node).weigh tally ≤ bound) low ?_ ?_ store
  · intro value
    rw [weigh_constant]
    exact (AnyNode.unit_le_weigh _).trans low
  · exact fun _ _ _ => branches_of_weigh_le

theorem weigh_foldString_le {node : Node .string} (low : (AnyNode.string node).weigh tally ≤ bound) (store : Store) :
    (AnyNode.string (node.foldString store)).weigh tally ≤ bound := by
  refine foldString_of (fun node => (AnyNode.string node).weigh tally ≤ bound) low ?_ ?_ store
  · intro content
    rw [weigh_literal]
    exact (AnyNode.unit_le_weigh _).trans low
  · exact fun _ _ _ => stringBranches_of_weigh_le

theorem Spans.fold {node : Node .scalar} (spans : node.Spans tally bound) (least : tally.unit ≤ bound) (store : Store) :
    (node.fold store).Spans tally bound := by
  refine fold_of (Spans tally bound) spans ?_ ?_ store
  · exact fun value => spans_of_weigh_le ((weigh_constant value).trans_le least)
  · intro condition consequent alternative spans
    have branches := branches_of_weigh_le (spans _ (List.mem_singleton.mpr rfl))
    exact ⟨spans_of_weigh_le branches.1, spans_of_weigh_le branches.2⟩

theorem Spans.foldString {node : Node .string} (spans : node.Spans tally bound) (least : tally.unit ≤ bound)
    (store : Store) : (node.foldString store).Spans tally bound := by
  refine foldString_of (Spans tally bound) spans ?_ ?_ store
  · exact fun content => spans_of_weigh_le ((weigh_literal content).trans_le least)
  · intro condition consequent alternative spans
    have branches := stringBranches_of_weigh_le (spans _ (List.mem_singleton.mpr rfl))
    exact ⟨spans_of_weigh_le branches.1, spans_of_weigh_le branches.2⟩

end Node

/-! ## Nodes so far -/

/-- Whether no operand of the run that a node is or begins weighs more than the bound. The first operand of a run of
vectors may itself be a run of scalars. -/
def AnyNode.Runs (bound : Nat) : AnyNode → Prop
  | ⟨.vector, node⟩ => node.Spans tally (bound + tally.unit)
  | ⟨_, node⟩ => node.Spans tally bound

namespace AnyNode

variable {tally} {node : AnyNode} {bound : Nat}

theorem runs_of_weigh_le (low : node.weigh tally ≤ bound) : node.Runs tally bound := by
  rcases node with ⟨_ | _ | _, node⟩
  · exact Node.spans_of_weigh_le low
  · exact Node.spans_of_weigh_le low
  · exact Node.spans_of_weigh_le (low.trans (Nat.le_add_right _ _))

theorem Runs.weigh_le (runs : node.Runs tally bound) : node.weigh tally ≤ bound + 3 * tally.unit := by
  rcases node with ⟨_ | _ | _, node⟩
  all_goals
    have low := Node.Spans.weigh_le runs
    omega

end AnyNode

end LiveExpr
