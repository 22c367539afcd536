import LiveExpr.Proofs.Compile.Results
import LiveExpr.Proofs.Node.Height

/-!
How high the graphs are that trees are compiled to. A run adds a few levels to its operands, however long it is and
whatever folding makes of its beginning. Where subscripts are counted, it adds none.
-/

namespace LiveExpr

namespace Compile

/-! ## Bounds -/

abbrev Within (tally : Tally) (bound : Nat) (computation : Compile AnyNode) : Prop :=
  computation.Makes fun node => node.weigh tally ≤ bound

abbrev ScalarWithin (tally : Tally) (bound : Nat) (computation : Compile (Node .scalar)) : Prop :=
  computation.Makes fun node => (AnyNode.scalar node).weigh tally ≤ bound

variable {tally : Tally} {bound : Nat} {settings : Settings}

theorem weigh_missing (k : Kind) : AnyNode.weigh tally ⟨k, .missing⟩ = tally.unit := by
  rw [AnyNode.weigh]
  exact Nat.zero_add _

theorem weigh_placeholder : placeholder.weigh tally = tally.unit :=
  weigh_missing _

theorem failed_within_of_le (least : tally.unit ≤ bound) (problem : Problem) (place : Place) :
    (failed problem place).Within tally bound :=
  failed_makes (weigh_placeholder.trans_le least) problem place

theorem failed_within (problem : Problem) (place : Place) : (failed problem place).Within tally (bound + tally.unit) :=
  failed_within_of_le (Nat.le_add_left _ _) problem place

theorem scalar_within {node : Node .scalar} (low : (AnyNode.scalar node).weigh tally ≤ bound) :
    (scalar settings node).Within tally bound := by
  refine .view fun progress => ?_
  split
  · exact Node.weigh_fold_le low _
  · exact low

theorem string_within {node : Node .string} (low : (AnyNode.string node).weigh tally ≤ bound) :
    (string settings node).Within tally bound := by
  refine .view fun progress => ?_
  split
  · exact Node.weigh_foldString_le low _
  · exact low

/-! ## Required kinds -/

theorem requireScalar_within {node : AnyNode} (low : node.weigh tally ≤ bound) (role : Role) (place : Place) :
    (requireScalar role place node).ScalarWithin tally bound := by
  refine requireScalar_makes (fun scalar => (AnyNode.scalar scalar).weigh tally ≤ bound) ?_
    (fun scalar same => same ▸ low) role place
  exact (weigh_missing _).trans_le (node.unit_le_weigh.trans low)

theorem requireString_within {node : AnyNode} (low : node.weigh tally ≤ bound) (role : Role) (place : Place) :
    (requireString role place node).Makes fun string => (AnyNode.string string).weigh tally ≤ bound := by
  have missing : (AnyNode.string .missing).weigh tally ≤ bound :=
    (weigh_missing _).trans_le (node.unit_le_weigh.trans low)
  rcases node with ⟨_ | _ | _, node⟩
  · exact .later _ fun _ => .pure missing
  · exact .pure low
  · exact .later _ fun _ => .pure missing

theorem requireScalars_within {nodes : List (Place × AnyNode)} (low : ∀ one ∈ nodes, one.2.weigh tally ≤ bound)
    (role : Role) :
    (requireScalars role nodes).Makes fun scalars => ∀ one ∈ scalars, (AnyNode.scalar one).weigh tally ≤ bound := by
  induction nodes with
  | nil => exact .pure (List.forall_mem_nil _)
  | cons node rest induction =>
    obtain ⟨first, others⟩ := List.forall_mem_cons.mp low
    refine (requireScalar_within first role _).bind fun scalar low => ?_
    exact (induction others).bind fun scalars all => .pure (List.forall_mem_cons.mpr ⟨low, all⟩)

/-! ## Operators -/

theorem negation_within {node : AnyNode} (low : node.weigh tally ≤ bound) (sign : Lexeme) :
    (negation settings sign node).Within tally (bound + tally.unit) := by
  rcases node with ⟨_ | _ | _, node⟩
  · exact scalar_within (AnyNode.weigh_le_iff.mpr (List.forall_mem_singleton.mpr low))
  · exact failed_within _ _
  · exact .pure (AnyNode.weigh_le_iff.mpr (List.forall_mem_singleton.mpr low))

theorem affirmation_within {node : AnyNode} (low : node.weigh tally ≤ bound) (sign : Lexeme) :
    (affirmation sign node).Within tally (bound + tally.unit) := by
  rcases node with ⟨_ | _ | _, node⟩
  · exact .pure (low.trans (Nat.le_add_right _ _))
  · exact failed_within _ _
  · exact .pure (low.trans (Nat.le_add_right _ _))

theorem denial_within {node : AnyNode} (low : node.weigh tally ≤ bound) (start : Place) :
    (denial settings start node).Within tally (bound + tally.unit) := by
  refine (requireScalar_within low _ _).bind fun operand low => ?_
  exact scalar_within (AnyNode.weigh_le_iff.mpr (List.forall_mem_singleton.mpr low))

theorem relation_within {left right : AnyNode} (first : left.weigh tally ≤ bound) (second : right.weigh tally ≤ bound)
    (sign : Lexeme) : (relation settings sign left right).Within tally (bound + tally.unit) := by
  have operation {left right : Node .scalar} (first : (AnyNode.scalar left).weigh tally ≤ bound)
      (second : (AnyNode.scalar right).weigh tally ≤ bound) (op : BinaryOperator) :
      (AnyNode.scalar (.operation op left right)).weigh tally ≤ bound + tally.unit := by
    have spans := (Node.spans_of_weigh_le first).operation second op
    exact spans.weigh_scalar_le
  have both {left right : Node .string} (first : (AnyNode.string left).weigh tally ≤ bound)
      (second : (AnyNode.string right).weigh tally ≤ bound) :
      ∀ child ∈ [AnyNode.string left, .string right], child.weigh tally ≤ bound :=
    List.forall_mem_cons.mpr ⟨first, List.forall_mem_singleton.mpr second⟩
  unfold relation
  split
  · unfold stringTest
    split
    · exact scalar_within (AnyNode.weigh_le_iff.mpr (both first second))
    · exact failed_within _ _
  · unfold comparison
    split
    · exact scalar_within (operation first second _)
    · exact scalar_within (AnyNode.weigh_le_iff.mpr (both first second))
    · exact failed_within _ _
  · exact .pure (weigh_placeholder.trans_le (Nat.le_add_left _ _))

/-! ## Runs -/

theorem arithmetic_makes {left right : AnyNode} (runs : left.Runs tally bound) (low : right.weigh tally ≤ bound)
    (op : BinaryOperator) (sign : Lexeme) :
    (arithmetic settings op sign left right).Makes (AnyNode.Runs tally bound) := by
  have least : tally.unit ≤ bound := right.unit_le_weigh.trans low
  have wider : right.weigh tally ≤ bound + tally.unit := low.trans (Nat.le_add_right _ _)
  have failure (problem : Problem) : (failed problem (.lexeme sign)).Makes (AnyNode.Runs tally bound) :=
    failed_makes (AnyNode.runs_of_weigh_le (weigh_placeholder.trans_le least)) _ _
  unfold arithmetic
  split
  · refine .view fun progress => ?_
    have spans := Node.Spans.operation runs low op
    split
    · exact spans.fold least _
    · exact spans
  · next left right =>
    have second : (Operand.vector right).node.weigh tally ≤ bound + tally.unit := wider
    exact .pure (Node.Spans.elementOperation runs second op)
  · next left right =>
    have second : (Operand.scalar right).node.weigh tally ≤ bound + tally.unit := wider
    exact .pure (Node.Spans.elementOperation runs second op)
  · next left right =>
    have first : (AnyNode.scalar left).weigh tally ≤ bound + tally.unit :=
      Node.Spans.weigh_scalar_le runs
    have second : (Operand.vector right).node.weigh tally ≤ bound + tally.unit := wider
    exact .pure (Node.Spans.broadcastOperation first second op)
  · split
    · refine .view fun progress => ?_
      have spans := Node.Spans.joined runs (Node.spans_of_weigh_le low)
      split
      · exact spans.foldString least _
      · exact spans
    · exact failure _
  · exact failure _

theorem logical_makes {left right : AnyNode} (runs : left.Runs tally bound) (low : right.weigh tally ≤ bound)
    (op : BinaryOperator) (leftStart rightStart : Place) :
    (logical settings op leftStart left rightStart right).Makes (AnyNode.Runs tally bound) := by
  have least : tally.unit ≤ bound := right.unit_le_weigh.trans low
  refine (requireScalar_makes (Node.Spans tally bound)
    (Node.spans_of_weigh_le ((weigh_missing _).trans_le least)) ?_ _ _).bind fun left spans => ?_
  · rintro scalar rfl
    exact runs
  refine (requireScalar_within low _ _).bind fun right low => ?_
  refine .view fun progress => ?_
  have spans := spans.operation low op
  split
  · exact spans.fold least _
  · exact spans

/-! ## Conditionals -/

theorem conditional_within {condition : Node .scalar} {consequent alternative : AnyNode}
    (first : (AnyNode.scalar condition).weigh tally ≤ bound) (second : consequent.weigh tally ≤ bound)
    (third : alternative.weigh tally ≤ bound) (branch : Place) :
    (conditional settings condition branch consequent alternative).Within tally (bound + tally.unit) := by
  have all : ∀ child ∈ [AnyNode.scalar condition, consequent, alternative], child.weigh tally ≤ bound := by
    simp only [List.forall_mem_cons]
    exact ⟨first, second, third, List.forall_mem_nil _⟩
  unfold conditional
  split
  · exact scalar_within (AnyNode.weigh_le_iff.mpr all)
  · exact string_within (AnyNode.weigh_le_iff.mpr all)
  · exact failed_within _ _
  · exact failed_within _ _
  · exact failed_within _ _

theorem conditionalOnly_within {condition : Node .scalar} {consequent : AnyNode}
    (first : (AnyNode.scalar condition).weigh tally ≤ bound) (second : consequent.weigh tally ≤ bound)
    (branch : Place) :
    (conditionalOnly settings condition branch consequent).Within tally (bound + tally.unit) := by
  have all (alternative : AnyNode) (least : alternative.weigh tally = tally.unit) :
      ∀ child ∈ [AnyNode.scalar condition, consequent, alternative], child.weigh tally ≤ bound := by
    simp only [List.forall_mem_cons]
    exact ⟨first, second, least.trans_le (consequent.unit_le_weigh.trans second), List.forall_mem_nil _⟩
  unfold conditionalOnly
  split
  · exact scalar_within (AnyNode.weigh_le_iff.mpr (all _ (Node.weigh_constant _)))
  · exact string_within (AnyNode.weigh_le_iff.mpr (all _ (Node.weigh_literal _)))
  · exact failed_within _ _

/-! ## Subscripts and calls -/

theorem size_within {base : AnyNode} (low : base.weigh tally ≤ bound) (bracket : Lexeme) :
    (size settings bracket base).Within tally (bound + 1) := by
  rcases base with ⟨_ | _ | _, base⟩
  · exact failed_within_of_le (tally.unit_le_succ bound) _ _
  · exact scalar_within (AnyNode.weigh_le_iff.mpr (List.forall_mem_singleton.mpr low))
  · exact scalar_within (AnyNode.weigh_le_iff.mpr (List.forall_mem_singleton.mpr low))

theorem element_within {base index : AnyNode} (first : base.weigh tally ≤ bound) (second : index.weigh tally ≤ bound)
    (bracket : Lexeme) (start : Place) : (element bracket base start index).Within tally (bound + 1) := by
  refine (requireScalar_within second _ _).bind fun index second => ?_
  rcases base with ⟨_ | _ | _, base⟩
  · exact failed_within_of_le (tally.unit_le_succ bound) _ _
  · exact failed_within_of_le (tally.unit_le_succ bound) _ _
  · exact .pure (AnyNode.weigh_le_iff.mpr
      (List.forall_mem_cons.mpr ⟨first, List.forall_mem_singleton.mpr second⟩))

theorem range_within {base first last : AnyNode} (lowBase : base.weigh tally ≤ bound)
    (lowFirst : first.weigh tally ≤ bound) (lowLast : last.weigh tally ≤ bound) (bracket : Lexeme)
    (firstStart lastStart : Place) :
    (range settings bracket base firstStart first lastStart last).Within tally (bound + 1) := by
  have missing : (AnyNode.string .missing).weigh tally ≤ bound + 1 :=
    (weigh_missing _).trans_le (tally.unit_le_succ bound)
  refine (requireScalar_within lowFirst _ _).bind fun first lowFirst => ?_
  refine (requireScalar_within lowLast _ _).bind fun last lowLast => ?_
  rcases base with ⟨_ | _ | _, base⟩
  · exact .later _ fun _ => .pure missing
  · refine string_within (AnyNode.weigh_le_iff.mpr ?_)
    simp only [AnyNode.string, Node.children, List.forall_mem_cons]
    exact ⟨lowBase, lowFirst, lowLast, List.forall_mem_nil _⟩
  · exact .later _ fun _ => .pure missing

theorem builtinCall_within {arguments : List (Place × AnyNode)} (low : ∀ one ∈ arguments, one.2.weigh tally ≤ bound)
    (word : Lexeme) (function : Builtin) :
    (builtinCall settings word function arguments).Within tally (bound + tally.unit) := by
  unfold builtinCall
  split
  · have vector := List.forall_mem_singleton.mp low
    split
    · exact .pure (AnyNode.weigh_le_iff.mpr (List.forall_mem_singleton.mpr vector))
    · exact .pure (AnyNode.weigh_le_iff.mpr (List.forall_mem_singleton.mpr vector))
    · exact failed_within _ _
    · exact failed_within _ _
  · refine (requireScalars_within low _).bind fun arguments low => ?_
    exact scalar_within (AnyNode.weigh_le_iff.mpr (List.forall_mem_map.mpr low))

theorem userCall_within {arguments : List (Place × AnyNode)} (low : ∀ one ∈ arguments, one.2.weigh tally ≤ bound)
    (function : FunctionHandle) : (userCall function arguments).Within tally (bound + tally.unit) := by
  refine (requireScalars_within low _).bind fun arguments low => ?_
  exact .pure (AnyNode.weigh_le_iff.mpr (List.forall_mem_map.mpr low))

theorem call_within {environment : Environment} {arguments : List (Place × AnyNode)}
    (low : ∀ one ∈ arguments, one.2.weigh tally ≤ bound) (word : Lexeme) (rest : List Lexeme) :
    (call environment word arguments rest).Within tally (bound + tally.unit) := by
  unfold call
  dsimp only
  split
  · split
    · exact builtinCall_within low _ _
    · exact .halt _ _ _
  · refine .later _ fun binding => ?_
    split
    · split
      · exact userCall_within low _
      · exact .halt _ _ _
    · exact failed_within _ _
    · have placed : (Pure.pure placeholder : Compile AnyNode).Within tally (bound + tally.unit) :=
        .pure (weigh_placeholder.trans_le (Nat.le_add_left _ _))
      refine .later _ fun reported => ?_
      split
      · exact placed
      · exact .later _ fun _ => placed

/-! ## Assignments and declarations -/

theorem reference_within (settings : Settings) (word : Lexeme) (rest : List Lexeme) (binding : Option Binding) :
    (reference settings word rest binding).Within tally tally.unit := by
  have leaf (node : AnyNode) (least : node.2.weight tally = tally.unit) (empty : node.2.children = []) :
      node.weigh tally ≤ tally.unit := by
    have low : node.weigh tally ≤ 0 + node.2.weight tally := AnyNode.weigh_le_iff.mpr (by simp [empty])
    omega
  unfold reference
  split
  · exact .pure weigh_placeholder.le
  · refine .view fun progress => ?_
    split <;> exact leaf _ rfl rfl
  · refine .view fun progress => ?_
    split <;> exact leaf _ rfl rfl
  · exact .pure (leaf _ rfl rfl)
  · exact .halt _ _ _

theorem assignment_within {value : AnyNode} (low : value.weigh tally ≤ bound) (word sign : Lexeme)
    (target : Option Binding) (start : Place) :
    (assignment word sign target start value).Within tally (bound + 2 * tally.unit) := by
  have least : tally.unit ≤ bound + 2 * tally.unit := by omega
  have wider : bound + tally.unit ≤ bound + 2 * tally.unit := by omega
  unfold assignment
  dsimp only
  split
  · exact .pure (weigh_placeholder.trans_le least)
  · exact failed_within_of_le least _ _
  · exact failed_within_of_le least _ _
  · refine (requireScalar_within low _ _).bind fun value low => .pure (le_trans ?_ wider)
    exact AnyNode.weigh_le_iff.mpr (List.forall_mem_singleton.mpr low)
  · split
    · exact failed_within_of_le least _ _
    · refine (requireString_within low _ _).bind fun value low => .pure (le_trans ?_ wider)
      exact AnyNode.weigh_le_iff.mpr (List.forall_mem_singleton.mpr low)
  · split
    · exact .pure (AnyNode.weigh_le_iff.mpr (List.forall_mem_singleton.mpr low))
    · exact .pure (AnyNode.weigh_le_iff.mpr (List.forall_mem_singleton.mpr low))
    · exact failed_within_of_le least _ _
  · exact failed_within_of_le least _ _

theorem elementAssignment_within {index value : AnyNode} (first : index.weigh tally ≤ bound)
    (second : value.weigh tally ≤ bound) (word sign : Lexeme) (target : Option Binding) (start : Place) :
    (elementAssignment word sign target start index value).Within tally (bound + tally.unit) := by
  unfold elementAssignment
  split
  · exact .pure (weigh_placeholder.trans_le (Nat.le_add_left _ _))
  · refine (requireScalar_within first _ _).bind fun index first => ?_
    refine (requireScalar_within second _ _).bind fun value second => .pure ?_
    exact AnyNode.weigh_le_iff.mpr (List.forall_mem_cons.mpr ⟨first, List.forall_mem_singleton.mpr second⟩)
  · exact failed_within _ _

theorem declaration_within {value : AnyNode} (low : value.weigh tally ≤ bound) (allowed : Bool) (word : Lexeme)
    (start : Place) : (declaration allowed word start value).Within tally (bound + tally.unit) := by
  rcases value with ⟨_ | _ | _, value⟩
  · exact .later _ fun cell => .later _ fun _ =>
      .pure (AnyNode.weigh_le_iff.mpr (List.forall_mem_singleton.mpr low))
  · exact .later _ fun cell => .later _ fun _ =>
      .pure (AnyNode.weigh_le_iff.mpr (List.forall_mem_singleton.mpr low))
  · exact failed_within _ _

theorem weigh_reset {values : List (Node .scalar)} (low : ∀ one ∈ values, (AnyNode.scalar one).weigh tally ≤ bound)
    (cell : VectorCell) (fill : Bool) : (AnyNode.vector (.reset cell values fill)).weigh tally ≤ bound + tally.unit :=
  AnyNode.weigh_le_iff.mpr (List.forall_mem_map.mpr low)

theorem listedVector_within {elements : List (Node .scalar)}
    (low : ∀ one ∈ elements, (AnyNode.scalar one).weigh tally ≤ bound) (allowed : Bool) (word : Lexeme) (size : Nat)
    (bracket : Lexeme) : (listedVector allowed word size bracket elements).Within tally (bound + tally.unit) := by
  have made : (do
      let cell ← allocate (·.newVector (List.replicate size 0.0))
      declare allowed word.text (.vector cell)
      pure (.vector (.reset cell elements false)) : Compile AnyNode).Within tally (bound + tally.unit) :=
    .later _ fun cell => .later _ fun _ => .pure (weigh_reset low cell false)
  unfold listedVector
  dsimp only
  split
  · exact .later _ fun _ => made
  · exact made

theorem filling_makes {value : AnyNode} (low : value.weigh tally ≤ bound) (word : Lexeme) (cell : VectorCell)
    (start : Place) :
    (filling word cell start value).Makes fun node => (AnyNode.vector node).weigh tally ≤ bound + 3 * tally.unit := by
  have empty : (AnyNode.vector (.reset cell [] false)).weigh tally ≤ 0 + tally.unit :=
    weigh_reset (List.forall_mem_nil _) cell false
  rcases value with ⟨_ | _ | _, value⟩
  · exact .pure ((weigh_reset (List.forall_mem_singleton.mpr low) cell true).trans (by omega))
  · exact .later _ fun _ => .pure (empty.trans (by omega))
  · have assigned : (AnyNode.vector (.vectorAssign cell none (.vector value))).weigh tally ≤ bound + 2 * tally.unit :=
      AnyNode.weigh_le_iff.mpr (List.forall_mem_singleton.mpr low)
    have wider : (AnyNode.vector (.reset cell [] false)).weigh tally ≤ bound + 2 * tally.unit := empty.trans (by omega)
    have whole : bound + 2 * tally.unit + tally.unit = bound + 3 * tally.unit := by omega
    refine .pure (le_of_le_of_eq ?_ whole)
    exact AnyNode.weigh_le_iff.mpr (List.forall_mem_cons.mpr ⟨assigned, List.forall_mem_singleton.mpr wider⟩)

theorem filledVector_within {value : AnyNode} (low : value.weigh tally ≤ bound) (allowed : Bool) (word : Lexeme)
    (size : Nat) (start : Place) :
    (filledVector allowed word size start value).Within tally (bound + 3 * tally.unit) := by
  refine .later _ fun cell => ?_
  refine (filling_makes low word cell start).bind fun node low => ?_
  exact .later _ fun _ => .pure low

theorem weigh_sequence {statements : List AnyNode} {result : AnyNode}
    (low : ∀ one ∈ statements, one.weigh tally ≤ bound) (last : result.weigh tally ≤ bound) :
    (AnyNode.sequence statements result).weigh tally ≤ bound + tally.unit := by
  unfold AnyNode.sequence
  split
  · exact last.trans (Nat.le_add_right _ _)
  · exact AnyNode.weigh_le_iff.mpr (List.forall_mem_cons.mpr ⟨last, low⟩)

end Compile

/-! ## Trees -/

def Tree.Within (tally : Tally) (bound : Nat) (tree : Tree) : Prop :=
  ∀ environment, (tree.compile environment).Within tally bound

namespace Tree.Within

open Compile

variable {tally : Tally} {bound : Nat}

theorem mono {tree : Tree} (low : tree.Within tally bound) {other : Nat} (le : bound ≤ other) :
    tree.Within tally other :=
  fun environment => (low environment).imp fun _ low => low.trans le

theorem number (least : tally.unit ≤ bound) (value : Float) : (Tree.number value).Within tally bound :=
  fun _ => .pure ((Node.weigh_constant value).trans_le least)

theorem text (least : tally.unit ≤ bound) (content : Bytes) : (Tree.text content).Within tally bound :=
  fun _ => .pure ((Node.weigh_literal content).trans_le least)

theorem name (least : tally.unit ≤ bound) (word : Lexeme) (rest : List Lexeme) :
    (Tree.name word rest).Within tally bound := by
  intro environment
  rw [Tree.compile]
  refine .later _ fun binding => ?_
  exact (reference_within _ word rest binding).imp fun _ low => low.trans least

/-! ### Operators -/

theorem negation (sign : Lexeme) {operand : Tree} (low : operand.Within tally bound) :
    (Tree.negation sign operand).Within tally (bound + tally.unit) := by
  intro environment
  rw [Tree.compile]
  exact (low environment).bind fun node low => negation_within low sign

theorem affirmation (sign : Lexeme) {operand : Tree} (low : operand.Within tally bound) :
    (Tree.affirmation sign operand).Within tally (bound + tally.unit) := by
  intro environment
  rw [Tree.compile]
  exact (low environment).bind fun node low => affirmation_within low sign

theorem denial (start : Place) {operand : Tree} (low : operand.Within tally bound) :
    (Tree.denial start operand).Within tally (bound + tally.unit) := by
  intro environment
  rw [Tree.compile]
  exact (low environment).bind fun node low => denial_within low start

theorem relation (sign : Lexeme) {left right : Tree} (first : left.Within tally bound)
    (second : right.Within tally bound) :
    (Tree.relation sign left right).Within tally (bound + tally.unit) := by
  intro environment
  rw [Tree.compile]
  refine (first environment).bind fun left first => ?_
  exact (second environment).bind fun right second => relation_within first second sign

/-- The run so far keeps within its operands, however many there have been. -/
theorem arithmetic {first : Tree} {rest : List ((BinaryOperator × Lexeme) × Tree)} (low : first.Within tally bound)
    (operands : ∀ step ∈ rest, step.2.Within tally bound) :
    (Tree.arithmetic first rest).Within tally (bound + 3 * tally.unit) := by
  intro environment
  have steps : ∀ node : AnyNode, node.Runs tally bound →
      (compileArithmetic environment node rest).Makes (AnyNode.Runs tally bound) := by
    induction rest with
    | nil => exact fun node runs => .pure runs
    | cons step rest induction =>
      intro node runs
      obtain ⟨right, others⟩ := List.forall_mem_cons.mp operands
      rw [compileArithmetic]
      refine (right environment).bind fun right low => ?_
      exact (arithmetic_makes runs low _ _).bind (induction others)
  rw [Tree.compile]
  refine (low environment).bind fun node low => ?_
  exact (steps node (AnyNode.runs_of_weigh_le low)).imp fun _ => AnyNode.Runs.weigh_le

theorem logical (start : Place) {first : Tree} {rest : List ((BinaryOperator × Place) × Tree)}
    (low : first.Within tally bound) (operands : ∀ step ∈ rest, step.2.Within tally bound) :
    (Tree.logical start first rest).Within tally (bound + 3 * tally.unit) := by
  intro environment
  have steps : ∀ node : AnyNode, node.Runs tally bound →
      (compileLogical environment start node rest).Makes (AnyNode.Runs tally bound) := by
    induction rest with
    | nil => exact fun node runs => .pure runs
    | cons step rest induction =>
      intro node runs
      obtain ⟨right, others⟩ := List.forall_mem_cons.mp operands
      rw [compileLogical]
      refine (right environment).bind fun right low => ?_
      exact (logical_makes runs low _ _ _).bind (induction others)
  rw [Tree.compile]
  refine (low environment).bind fun node low => ?_
  exact (steps node (AnyNode.runs_of_weigh_le low)).imp fun _ => AnyNode.Runs.weigh_le

/-! ### Conditionals, loops and choices -/

theorem conditional (start : Place) {condition : Tree} (branch : Place) {consequent alternative : Tree}
    (first : condition.Within tally bound) (second : consequent.Within tally bound)
    (third : alternative.Within tally bound) :
    (Tree.conditional start condition branch consequent alternative).Within tally (bound + tally.unit) := by
  intro environment
  rw [Tree.compile]
  refine (first environment).bind fun condition low => ?_
  refine (requireScalar_within low _ _).bind fun condition first => ?_
  refine (second environment).bind fun consequent second => ?_
  exact (third environment).bind fun alternative third => conditional_within first second third branch

theorem conditionalOnly (start : Place) {condition : Tree} (branch : Place) {consequent : Tree}
    (first : condition.Within tally bound) (second : consequent.Within tally bound) :
    (Tree.conditionalOnly start condition branch consequent).Within tally (bound + tally.unit) := by
  intro environment
  rw [Tree.compile]
  refine (first environment).bind fun condition low => ?_
  refine (requireScalar_within low _ _).bind fun condition first => ?_
  exact (second environment).bind fun consequent second => conditionalOnly_within first second branch

theorem loop {initializer : Tree} (start : Place) {condition step body : Tree} (first : initializer.Within tally bound)
    (second : condition.Within tally bound) (third : step.Within tally bound) (fourth : body.Within tally bound) :
    (Tree.loop initializer start condition step body).Within tally (bound + tally.unit) := by
  intro environment
  rw [Tree.compile]
  refine (first environment).bind fun initializer first => ?_
  refine (second environment).bind fun condition low => ?_
  refine (requireScalar_within low _ _).bind fun condition second => ?_
  refine (third environment).bind fun step third => ?_
  refine (fourth environment).bind fun body fourth => .pure (AnyNode.weigh_le_iff.mpr ?_)
  simp only [AnyNode.scalar, Node.children, List.forall_mem_cons]
  exact ⟨first, second, third, fourth, List.forall_mem_nil _⟩

theorem choice {cases : List ((Place × Tree) × (Place × Tree))} (start : Place) {otherwise : Tree}
    (conditions : ∀ one ∈ cases, one.1.2.Within tally bound) (results : ∀ one ∈ cases, one.2.2.Within tally bound)
    (last : otherwise.Within tally bound) : (Tree.choice cases start otherwise).Within tally (bound + tally.unit) := by
  intro environment
  have made : (compileCases environment cases).Makes fun nodes =>
      ∀ one ∈ nodes, (AnyNode.scalar one.1).weigh tally ≤ bound ∧ (AnyNode.scalar one.2).weigh tally ≤ bound := by
    induction cases with
    | nil => exact .pure (List.forall_mem_nil _)
    | cons leading others induction =>
      obtain ⟨condition, conditions⟩ := List.forall_mem_cons.mp conditions
      obtain ⟨result, results⟩ := List.forall_mem_cons.mp results
      rw [compileCases]
      refine (condition environment).bind fun condition low => ?_
      refine (requireScalar_within low _ _).bind fun condition first => ?_
      refine (result environment).bind fun result low => ?_
      refine (requireScalar_within low _ _).bind fun result second => ?_
      exact (induction conditions results).bind fun nodes all =>
        .pure (List.forall_mem_cons.mpr ⟨⟨first, second⟩, all⟩)
  rw [Tree.compile]
  refine made.bind fun nodes all => ?_
  refine (last environment).bind fun otherwise low => ?_
  refine (requireScalar_within low _ _).bind fun otherwise last => .pure (AnyNode.weigh_le_iff.mpr ?_)
  refine List.forall_mem_cons.mpr ⟨last, List.forall_mem_flatMap.mpr fun one listed => ?_⟩
  exact List.forall_mem_cons.mpr ⟨(all one listed).1, List.forall_mem_singleton.mpr (all one listed).2⟩

theorem block {statements : List Tree} {result : Tree} (low : ∀ one ∈ statements, one.Within tally bound)
    (last : result.Within tally bound) : (Tree.block statements result).Within tally (bound + tally.unit) := by
  intro environment
  have made : (compileStatements environment statements).Makes fun nodes =>
      ∀ one ∈ nodes, AnyNode.weigh tally one ≤ bound := by
    induction statements with
    | nil => exact .pure (List.forall_mem_nil _)
    | cons first rest induction =>
      obtain ⟨first, others⟩ := List.forall_mem_cons.mp low
      rw [compileStatements]
      refine (first environment).bind fun first low => ?_
      exact (induction others).bind fun nodes all => .pure (List.forall_mem_cons.mpr ⟨low, all⟩)
  rw [Tree.compile]
  refine made.bind fun nodes low => ?_
  exact (last environment).bind fun result last => .pure (weigh_sequence low last)

/-! ### Subscripts and calls -/

theorem size (bracket : Lexeme) {base : Tree} (low : base.Within tally bound) :
    (Tree.size bracket base).Within tally (bound + 1) := by
  intro environment
  rw [Tree.compile]
  exact (low environment).bind fun base low => size_within low bracket

theorem element (bracket : Lexeme) {base : Tree} (start : Place) {index : Tree} (first : base.Within tally bound)
    (second : index.Within tally bound) : (Tree.element bracket base start index).Within tally (bound + 1) := by
  intro environment
  rw [Tree.compile]
  refine (first environment).bind fun base first => ?_
  exact (second environment).bind fun index second => element_within first second bracket start

theorem range (bracket : Lexeme) {base : Tree} (firstStart : Place) {lower : Tree} (lastStart : Place) {upper : Tree}
    (first : base.Within tally bound) (second : lower.Within tally bound) (third : upper.Within tally bound) :
    (Tree.range bracket base firstStart lower lastStart upper).Within tally (bound + 1) := by
  intro environment
  rw [Tree.compile]
  refine (first environment).bind fun base first => ?_
  refine (second environment).bind fun lower second => ?_
  exact (third environment).bind fun upper third => range_within first second third bracket firstStart lastStart

theorem call (word : Lexeme) {arguments : List (Place × Tree)} (low : ∀ one ∈ arguments, one.2.Within tally bound)
    (rest : List Lexeme) : (Tree.call word arguments rest).Within tally (bound + tally.unit) := by
  intro environment
  have made : (compilePlaced environment arguments).Makes fun nodes =>
      ∀ one ∈ nodes, AnyNode.weigh tally one.2 ≤ bound := by
    induction arguments with
    | nil => exact .pure (List.forall_mem_nil _)
    | cons first others induction =>
      obtain ⟨first, rest⟩ := List.forall_mem_cons.mp low
      rw [compilePlaced]
      refine (first environment).bind fun first low => ?_
      exact (induction rest).bind fun nodes all => .pure (List.forall_mem_cons.mpr ⟨low, all⟩)
  rw [Tree.compile]
  exact made.bind fun nodes low => call_within low word rest

/-! ### Assignments and declarations -/

theorem assignment (word sign : Lexeme) (start : Place) {value : Tree} (low : value.Within tally bound) :
    (Tree.assignment word sign start value).Within tally (bound + 2 * tally.unit) := by
  intro environment
  rw [Tree.compile]
  refine .later _ fun target => ?_
  exact (low environment).bind fun value low => assignment_within low word sign target start

theorem elementAssignment (word : Lexeme) (start : Place) {index : Tree} (sign : Lexeme) {value : Tree}
    (first : index.Within tally bound) (second : value.Within tally bound) :
    (Tree.elementAssignment word start index sign value).Within tally (bound + tally.unit) := by
  intro environment
  rw [Tree.compile]
  refine .later _ fun target => ?_
  refine (first environment).bind fun index first => ?_
  exact (second environment).bind fun value second => elementAssignment_within first second word sign target start

theorem declaration (word : Lexeme) (start : Place) {value : Tree} (low : value.Within tally bound) :
    (Tree.declaration word start value).Within tally (bound + tally.unit) := by
  intro environment
  rw [Tree.compile]
  refine .later _ fun allowed => ?_
  exact (low environment).bind fun value low => declaration_within low allowed word start

theorem listedVector (word : Lexeme) (size : Nat) (bracket : Lexeme) {elements : List (Place × Tree)}
    (low : ∀ one ∈ elements, one.2.Within tally bound) :
    (Tree.listedVector word size bracket elements).Within tally (bound + tally.unit) := by
  intro environment
  have made : (compileElements environment elements).Makes fun nodes =>
      ∀ one ∈ nodes, (AnyNode.scalar one).weigh tally ≤ bound := by
    induction elements with
    | nil => exact .pure (List.forall_mem_nil _)
    | cons first others induction =>
      obtain ⟨first, rest⟩ := List.forall_mem_cons.mp low
      rw [compileElements]
      refine (first environment).bind fun first low => ?_
      refine (requireScalar_within low _ _).bind fun first low => ?_
      exact (induction rest).bind fun nodes all => .pure (List.forall_mem_cons.mpr ⟨low, all⟩)
  rw [Tree.compile]
  refine .later _ fun allowed => ?_
  exact made.bind fun elements low => listedVector_within low allowed word size bracket

theorem filledVector (word : Lexeme) (size : Nat) (start : Place) {value : Tree} (low : value.Within tally bound) :
    (Tree.filledVector word size start value).Within tally (bound + 3 * tally.unit) := by
  intro environment
  rw [Tree.compile]
  refine .later _ fun allowed => ?_
  exact (low environment).bind fun value low => filledVector_within low allowed word size start

end Tree.Within

end LiveExpr
