import LiveExpr.Proofs.Node.Folding

/-!
Graphs that differ in nothing but the cells that they hold and the limits of their loops. Relabeling keeps the shape of
every node, so it goes together with joining operands and with folding.
-/

namespace LiveExpr

/-- What stands in another graph for the cells and the limits of one. -/
structure Relabeling where
  number : NumberCell → NumberCell
  string : StringCell → StringCell
  vector : VectorCell → VectorCell
  limit : Option Nat → Option Nat

namespace Relabeling

/-- The relabeling that leaves everything as it is. -/
def none : Relabeling :=
  ⟨id, id, id, id⟩

@[simp] theorem none_number (cell : NumberCell) : none.number cell = cell := rfl
@[simp] theorem none_string (cell : StringCell) : none.string cell = cell := rfl
@[simp] theorem none_vector (cell : VectorCell) : none.vector cell = cell := rfl
@[simp] theorem none_limit (limit : Option Nat) : none.limit limit = limit := rfl

/-- The relabeling that leaves the cells as they are. -/
def onLimits (limit : Option Nat → Option Nat) : Relabeling :=
  { none with limit := limit }

end Relabeling

/-! ## Relabeled graphs -/

mutual

/-- The graph with other cells and limits. -/
def Node.relabel (relabeling : Relabeling) {k : Kind} : Node k → Node k
  | .constant value => .constant value
  | .variable cell => .variable (relabeling.number cell)
  | .unary op operand => .unary op (operand.relabel relabeling)
  | .binary op left right => .binary op (left.relabel relabeling) (right.relabel relabeling)
  | .chain first rest => .chain (first.relabel relabeling) (relabelChain relabeling rest)
  | .conditional condition consequent alternative =>
    .conditional (condition.relabel relabeling) (consequent.relabel relabeling) (alternative.relabel relabeling)
  | .choice cases otherwise => .choice (relabelCases relabeling cases) (otherwise.relabel relabeling)
  | .loop start condition step body limit =>
    .loop (AnyNode.relabel relabeling start) (condition.relabel relabeling) (AnyNode.relabel relabeling step)
      (AnyNode.relabel relabeling body) (relabeling.limit limit)
  | .assign target op value => .assign (relabeling.number target) op (value.relabel relabeling)
  | .element vector index => .element (vector.relabel relabeling) (index.relabel relabeling)
  | .assignElement target index op value =>
    .assignElement (relabeling.vector target) (index.relabel relabeling) op (value.relabel relabeling)
  | .vectorSize vector => .vectorSize (vector.relabel relabeling)
  | .stringLength string => .stringLength (string.relabel relabeling)
  | .stringCompare op left right => .stringCompare op (left.relabel relabeling) (right.relabel relabeling)
  | .stringMatch op left right => .stringMatch op (left.relabel relabeling) (right.relabel relabeling)
  | .builtin function arguments => .builtin function (relabelAll relabeling arguments)
  | .vectorAggregate op vector => .vectorAggregate op (vector.relabel relabeling)
  | .userCall function arguments => .userCall function (relabelAll relabeling arguments)
  | .literal content => .literal content
  | .stringVariable cell => .stringVariable (relabeling.string cell)
  | .concat parts => .concat (relabelParts relabeling parts)
  | .substring source first last =>
    .substring (source.relabel relabeling) (first.relabel relabeling) (last.relabel relabeling)
  | .stringConditional condition consequent alternative =>
    .stringConditional (condition.relabel relabeling) (consequent.relabel relabeling)
      (alternative.relabel relabeling)
  | .stringAssign target append value =>
    .stringAssign (relabeling.string target) append (value.relabel relabeling)
  | .vectorVariable cell => .vectorVariable (relabeling.vector cell)
  | .negate vector => .negate (vector.relabel relabeling)
  | .map apply vector => .map apply (vector.relabel relabeling)
  | .elementwise first rest => .elementwise (first.relabel relabeling) (relabelElementwise relabeling rest)
  | .vectorAssign target op value => .vectorAssign (relabeling.vector target) op (value.relabel relabeling)
  | .reset target values fill => .reset (relabeling.vector target) (relabelAll relabeling values) fill
  | .sequence statements result => .sequence (relabelStatements relabeling statements) (result.relabel relabeling)
  | .missing => .missing

def Operand.relabel (relabeling : Relabeling) : Operand → Operand
  | .vector vector => .vector (vector.relabel relabeling)
  | .scalar scalar => .scalar (scalar.relabel relabeling)

def AnyNode.relabel (relabeling : Relabeling) : AnyNode → AnyNode
  | ⟨k, node⟩ => ⟨k, node.relabel relabeling⟩

def relabelChain (relabeling : Relabeling) : List (BinaryOperator × Node .scalar) → List (BinaryOperator × Node .scalar)
  | [] => []
  | (op, right) :: rest => (op, right.relabel relabeling) :: relabelChain relabeling rest

def relabelCases (relabeling : Relabeling) : List (Node .scalar × Node .scalar) → List (Node .scalar × Node .scalar)
  | [] => []
  | (condition, value) :: rest =>
    (condition.relabel relabeling, value.relabel relabeling) :: relabelCases relabeling rest

def relabelAll (relabeling : Relabeling) : List (Node .scalar) → List (Node .scalar)
  | [] => []
  | first :: rest => first.relabel relabeling :: relabelAll relabeling rest

def relabelParts (relabeling : Relabeling) : List (Node .string) → List (Node .string)
  | [] => []
  | first :: rest => first.relabel relabeling :: relabelParts relabeling rest

def relabelElementwise (relabeling : Relabeling) : List (BinaryOperator × Operand) → List (BinaryOperator × Operand)
  | [] => []
  | (op, right) :: rest => (op, right.relabel relabeling) :: relabelElementwise relabeling rest

def relabelStatements (relabeling : Relabeling) : List ((k : Kind) × Node k) → List ((k : Kind) × Node k)
  | [] => []
  | first :: rest => AnyNode.relabel relabeling first :: relabelStatements relabeling rest

end

attribute [simp] Node.relabel Operand.relabel AnyNode.relabel relabelChain relabelCases relabelAll relabelParts
  relabelElementwise relabelStatements

/-! ## The same graph -/

mutual

theorem Node.relabel_none {k : Kind} : (node : Node k) → node.relabel .none = node
  | .constant _ | .variable _ | .literal _ | .stringVariable _ | .vectorVariable _ | .missing => rfl
  | .unary _ operand | .vectorSize operand | .stringLength operand | .vectorAggregate _ operand | .negate operand
  | .map _ operand => by simp [operand.relabel_none]
  | .assign _ _ value | .stringAssign _ _ value => by simp [value.relabel_none]
  | .binary _ left right | .stringCompare _ left right | .stringMatch _ left right => by
    simp [left.relabel_none, right.relabel_none]
  | .chain first rest => by simp [first.relabel_none, relabelChain_none rest]
  | .conditional condition consequent alternative | .stringConditional condition consequent alternative => by
    simp [condition.relabel_none, consequent.relabel_none, alternative.relabel_none]
  | .choice cases otherwise => by simp [relabelCases_none cases, otherwise.relabel_none]
  | .loop start condition step body _ => by
    simp [AnyNode.relabel_none start, condition.relabel_none, AnyNode.relabel_none step, AnyNode.relabel_none body]
  | .element vector index => by simp [vector.relabel_none, index.relabel_none]
  | .assignElement _ index _ value => by simp [index.relabel_none, value.relabel_none]
  | .builtin _ arguments | .userCall _ arguments => by simp [relabelAll_none arguments]
  | .concat parts => by simp [relabelParts_none parts]
  | .substring source first last => by simp [source.relabel_none, first.relabel_none, last.relabel_none]
  | .elementwise first rest => by simp [first.relabel_none, relabelElementwise_none rest]
  | .vectorAssign _ _ value => by simp [value.relabel_none]
  | .reset _ values _ => by simp [relabelAll_none values]
  | .sequence statements result => by simp [relabelStatements_none statements, result.relabel_none]

theorem Operand.relabel_none : (operand : Operand) → operand.relabel .none = operand
  | .vector vector => by simp [vector.relabel_none]
  | .scalar scalar => by simp [scalar.relabel_none]

theorem AnyNode.relabel_none : (node : AnyNode) → node.relabel .none = node
  | ⟨_, node⟩ => by simp [node.relabel_none]

theorem relabelChain_none : (rest : List (BinaryOperator × Node .scalar)) → relabelChain .none rest = rest
  | [] => rfl
  | (_, right) :: rest => by simp [right.relabel_none, relabelChain_none rest]

theorem relabelCases_none : (cases : List (Node .scalar × Node .scalar)) → relabelCases .none cases = cases
  | [] => rfl
  | (condition, value) :: rest => by simp [condition.relabel_none, value.relabel_none, relabelCases_none rest]

theorem relabelAll_none : (nodes : List (Node .scalar)) → relabelAll .none nodes = nodes
  | [] => rfl
  | first :: rest => by simp [first.relabel_none, relabelAll_none rest]

theorem relabelParts_none : (parts : List (Node .string)) → relabelParts .none parts = parts
  | [] => rfl
  | first :: rest => by simp [first.relabel_none, relabelParts_none rest]

theorem relabelElementwise_none : (rest : List (BinaryOperator × Operand)) → relabelElementwise .none rest = rest
  | [] => rfl
  | (_, right) :: rest => by simp [right.relabel_none, relabelElementwise_none rest]

theorem relabelStatements_none : (statements : List AnyNode) → relabelStatements .none statements = statements
  | [] => rfl
  | first :: rest => by rw [relabelStatements, AnyNode.relabel_none first, relabelStatements_none rest]

end

variable {relabeling : Relabeling}

/-! ## Lists of nodes -/

theorem relabelAll_eq_map (nodes : List (Node .scalar)) :
    relabelAll relabeling nodes = nodes.map (·.relabel relabeling) := by
  induction nodes with
  | nil => rfl
  | cons first rest induction => rw [relabelAll, induction, List.map_cons]

theorem relabelParts_eq_map (parts : List (Node .string)) :
    relabelParts relabeling parts = parts.map (·.relabel relabeling) := by
  induction parts with
  | nil => rfl
  | cons first rest induction => rw [relabelParts, induction, List.map_cons]

theorem relabelChain_eq_map (rest : List (BinaryOperator × Node .scalar)) :
    relabelChain relabeling rest = rest.map fun step => (step.1, step.2.relabel relabeling) := by
  induction rest with
  | nil => rfl
  | cons first rest induction => rw [relabelChain, induction, List.map_cons]

theorem relabelCases_eq_map (cases : List (Node .scalar × Node .scalar)) :
    relabelCases relabeling cases =
      cases.map fun one => (one.1.relabel relabeling, one.2.relabel relabeling) := by
  induction cases with
  | nil => rfl
  | cons first rest induction => rw [relabelCases, induction, List.map_cons]

theorem relabelElementwise_eq_map (rest : List (BinaryOperator × Operand)) :
    relabelElementwise relabeling rest = rest.map fun step => (step.1, step.2.relabel relabeling) := by
  induction rest with
  | nil => rfl
  | cons first rest induction => rw [relabelElementwise, induction, List.map_cons]

theorem relabelStatements_eq_map (statements : List AnyNode) :
    relabelStatements relabeling statements = statements.map (·.relabel relabeling) := by
  induction statements with
  | nil => rfl
  | cons first rest induction => rw [relabelStatements, induction, List.map_cons]

/-! ## Everywhere in a relabeled graph -/

theorem Operand.node_relabel (operand : Operand) :
    (operand.relabel relabeling).node = operand.node.relabel relabeling := by
  cases operand <;> rfl

theorem Node.children_relabel {k : Kind} (node : Node k) :
    (node.relabel relabeling).children = node.children.map (·.relabel relabeling) := by
  cases node with
  | chain | builtin | userCall | concat | reset | sequence =>
    simp [children, relabelChain_eq_map, relabelAll_eq_map, relabelParts_eq_map, relabelStatements_eq_map,
      AnyNode.scalar, AnyNode.string]
  | choice cases otherwise =>
    simp [children, relabelCases_eq_map, List.flatMap_map, List.map_flatMap, AnyNode.scalar]
  | elementwise first rest =>
    simp [children, relabelElementwise_eq_map, Operand.node_relabel]
  | vectorAssign _ _ value => simp [children, Operand.node_relabel]
  | _ => rfl

theorem AnyNode.everywhere_relabel {property : AnyNode → Prop} {node : AnyNode}
    (everywhere : Everywhere (fun node => property (node.relabel relabeling)) node) :
    Everywhere property (node.relabel relabeling) := by
  induction everywhere with
  | @intro node here _ induction =>
    refine .intro here ?_
    rw [relabel, Node.children_relabel]
    exact List.forall_mem_map.mpr induction

/-! ## Joined operands -/

namespace Node

theorem relabel_operation (op : BinaryOperator) (left right : Node .scalar) :
    (operation op left right).relabel relabeling =
      operation op (left.relabel relabeling) (right.relabel relabeling) := by
  cases left with
  | chain first rest => simp [operation, relabelChain_eq_map]
  | _ => rfl

theorem relabel_parts (string : Node .string) :
    (string.relabel relabeling).parts = string.parts.map (·.relabel relabeling) := by
  cases string with
  | concat parts => exact relabelParts_eq_map parts
  | _ => rfl

theorem relabel_joined (left right : Node .string) :
    (joined left right).relabel relabeling = joined (left.relabel relabeling) (right.relabel relabeling) := by
  rw [joined, joined, relabel_parts, relabel_parts, relabel, relabelParts_eq_map, List.map_append]

theorem relabel_elementOperation (op : BinaryOperator) (left right : Operand) :
    (elementOperation op left right).relabel relabeling =
      elementOperation op (left.relabel relabeling) (right.relabel relabeling) := by
  cases left with
  | scalar left => rfl
  | vector left =>
    cases left with
    | elementwise first rest => simp [elementOperation, relabelElementwise_eq_map]
    | _ => rfl

end Node

theorem AnyNode.relabel_sequence (statements : List AnyNode) (result : AnyNode) :
    (sequence statements result).relabel relabeling =
      sequence (relabelStatements relabeling statements) (result.relabel relabeling) := by
  cases statements with
  | nil => rfl
  | cons first rest =>
    obtain ⟨k, result⟩ := result
    rfl

/-! ## Folding -/

namespace Node

theorem isConstant_relabel (node : Node .scalar) : (node.relabel relabeling).isConstant = node.isConstant := by
  cases node <;> rfl

theorem isLiteral_relabel (node : Node .string) : (node.relabel relabeling).isLiteral = node.isLiteral := by
  cases node <;> rfl

theorem isFoldable_relabel (node : Node .scalar) : (node.relabel relabeling).isFoldable = node.isFoldable := by
  cases node with
  | unary op operand => exact isConstant_relabel operand
  | binary op left right => simp [isFoldable, isConstant_relabel]
  | chain first rest => simp [isFoldable, isConstant_relabel, relabelChain_eq_map, Function.comp_def]
  | builtin function arguments => simp [isFoldable, isConstant_relabel, relabelAll_eq_map, Function.comp_def]
  | stringCompare op left right | stringMatch op left right => simp [isFoldable, isLiteral_relabel]
  | stringLength string => exact isLiteral_relabel string
  | vectorSize vector => cases vector <;> rfl
  | _ => rfl

theorem isFoldableString_relabel (node : Node .string) :
    (node.relabel relabeling).isFoldableString = node.isFoldableString := by
  cases node with
  | concat parts => simp [isFoldableString, isLiteral_relabel, relabelParts_eq_map, Function.comp_def]
  | substring source first last => simp [isFoldableString, isLiteral_relabel, isConstant_relabel]
  | _ => rfl

/-- A foldable node that asks for no length holds no cell, and no loop. -/
theorem relabel_of_isFoldable {node : Node .scalar} (foldable : node.isFoldable = true)
    (unsized : node.sized? = none) : node.relabel relabeling = node := by
  have constant {node : Node .scalar} (constant : node.isConstant = true) : node.relabel relabeling = node := by
    obtain ⟨value, rfl⟩ := eq_constant constant
    rfl
  have literal {node : Node .string} (literal : node.isLiteral = true) : node.relabel relabeling = node := by
    obtain ⟨content, rfl⟩ := eq_literal literal
    rfl
  cases node with
  | unary op operand => rw [relabel, constant foldable]
  | binary op left right =>
    rw [isFoldable, Bool.and_eq_true] at foldable
    rw [relabel, constant foldable.1, constant foldable.2]
  | chain first rest =>
    rw [isFoldable, Bool.and_eq_true, List.all_eq_true] at foldable
    have steps : relabelChain relabeling rest = rest := by
      rw [relabelChain_eq_map, List.map_congr_left fun step inside => by rw [constant (foldable.2 step inside)]]
      exact List.map_id rest
    rw [relabel, constant foldable.1, steps]
  | builtin function arguments => 
    rw [isFoldable, List.all_eq_true] at foldable
    rw [relabel, relabelAll_eq_map, List.map_congr_left fun node inside => constant (foldable node inside),
      List.map_id']
  | stringCompare op left right | stringMatch op left right =>
    rw [isFoldable, Bool.and_eq_true] at foldable
    rw [relabel, literal foldable.1, literal foldable.2]
  | stringLength string => rw [relabel, literal foldable]
  | vectorSize vector =>
    cases vector with
    | vectorVariable cell => cases unsized
    | _ => cases foldable
  | _ => cases foldable

theorem relabel_of_isFoldableString {node : Node .string} (foldable : node.isFoldableString = true) :
    node.relabel relabeling = node := by
  cases node with
  | concat parts =>
    rw [isFoldableString, List.all_eq_true] at foldable
    have same (part : Node .string) (inside : part ∈ parts) : part.relabel relabeling = part := by
      obtain ⟨content, rfl⟩ := eq_literal (foldable part inside)
      rfl
    rw [relabel, relabelParts_eq_map, List.map_congr_left same, List.map_id']
  | substring source first last =>
    rw [isFoldableString, Bool.and_eq_true, Bool.and_eq_true] at foldable
    obtain ⟨content, rfl⟩ := eq_literal foldable.1.1
    obtain ⟨first, rfl⟩ := eq_constant foldable.1.2
    obtain ⟨last, rfl⟩ := eq_constant foldable.2
    rfl
  | _ => cases foldable

theorem fold_of_isFoldable {node : Node .scalar} (foldable : node.isFoldable = true) {store after : Store}
    {value : Float} (evaluated : node.eval 0 store = some (value, after)) : node.fold store = .constant value := by
  unfold fold
  split
  · cases foldable
  · rw [if_pos foldable, evaluated]

/-- What is neither foldable nor a conditional over a constant stays as it is. -/
theorem fold_eq_self {node : Node .scalar} (unfoldable : node.isFoldable = false)
    (undecided : ∀ value consequent alternative, node ≠ .conditional (.constant value) consequent alternative)
    (store : Store) : node.fold store = node := by
  unfold fold
  split
  · exact absurd rfl (undecided _ _ _)
  · rw [if_neg (Bool.eq_false_iff.mp unfoldable)]

theorem relabel_fold {node : Node .scalar} {store other : Store}
    (lengths : ∀ cell, node.sized? = some cell →
      (other.vector (relabeling.vector cell)).length = (store.vector cell).length) :
    (node.fold store).relabel relabeling = (node.relabel relabeling).fold other := by
  cases foldable : node.isFoldable with
  | true =>
    have alsoFoldable : (node.relabel relabeling).isFoldable = true := by rw [isFoldable_relabel, foldable]
    cases sized : node.sized? with
    | none =>
      obtain ⟨value, evaluated⟩ := eval_of_isFoldable foldable sized
      rw [relabel_of_isFoldable foldable sized] at alsoFoldable ⊢
      rw [fold_of_isFoldable foldable (congrFun (evaluated 0) store),
        fold_of_isFoldable foldable (congrFun (evaluated 0) other)]
      rfl
    | some cell =>
      obtain rfl := eq_of_sized? sized
      rw [fold_of_isFoldable foldable rfl, relabel, relabel, relabel, fold_of_isFoldable rfl rfl, lengths cell sized]
  | false =>
    have alsoUnfoldable : (node.relabel relabeling).isFoldable = false := by rw [isFoldable_relabel, foldable]
    cases node with
    | conditional condition consequent alternative =>
      cases condition with
      | constant value =>
        unfold fold
        exact apply_ite (relabel relabeling) _ _ _
      | _ => rw [fold_eq_self foldable (by simp), fold_eq_self alsoUnfoldable (by simp)]
    | _ => rw [fold_eq_self foldable (by simp), fold_eq_self alsoUnfoldable (by simp)]

theorem foldString_of_isFoldableString {node : Node .string} (foldable : node.isFoldableString = true)
    {store after : Store} {content : Bytes} (evaluated : node.eval 0 store = some (content, after)) :
    node.foldString store = .literal content := by
  unfold foldString
  split
  · cases foldable
  · rw [if_pos foldable, evaluated]

theorem foldString_eq_self {node : Node .string} (unfoldable : node.isFoldableString = false)
    (undecided : ∀ value consequent alternative,
      node ≠ .stringConditional (.constant value) consequent alternative) (store : Store) :
    node.foldString store = node := by
  unfold foldString
  split
  · exact absurd rfl (undecided _ _ _)
  · rw [if_neg (Bool.eq_false_iff.mp unfoldable)]

theorem relabel_foldString (node : Node .string) (store other : Store) :
    (node.foldString store).relabel relabeling = (node.relabel relabeling).foldString other := by
  cases foldable : node.isFoldableString with
  | true =>
    obtain ⟨content, evaluated⟩ := eval_of_isFoldableString foldable
    rw [relabel_of_isFoldableString foldable, foldString_of_isFoldableString foldable (congrFun (evaluated 0) store),
      foldString_of_isFoldableString foldable (congrFun (evaluated 0) other)]
    rfl
  | false =>
    have alsoUnfoldable : (node.relabel relabeling).isFoldableString = false := by
      rw [isFoldableString_relabel, foldable]
    cases node with
    | stringConditional condition consequent alternative =>
      cases condition with
      | constant value =>
        unfold foldString
        exact apply_ite (relabel relabeling) _ _ _
      | _ => rw [foldString_eq_self foldable (by simp), foldString_eq_self alsoUnfoldable (by simp)]
    | _ => rw [foldString_eq_self foldable (by simp), foldString_eq_self alsoUnfoldable (by simp)]

end Node

end LiveExpr
