import LiveExpr.Node.Folding
import LiveExpr.Proofs.Node.Everywhere
import LiveExpr.Proofs.Node.Joining

/-!
Folding keeps what a node evaluates to. A node is folded in the store at hand, and its value must be the same in
any store that it may be evaluated in; that is so unless the length of a vector has changed.
-/

namespace LiveExpr

/-! ## Constants -/

theorem Node.eq_constant {node : Node .scalar} (constant : node.isConstant = true) :
    ∃ value, node = .constant value := by
  cases node with
  | constant value => exact ⟨value, rfl⟩
  | _ => cases constant

theorem Node.eq_literal {node : Node .string} (literal : node.isLiteral = true) :
    ∃ content, node = .literal content := by
  cases node with
  | literal content => exact ⟨content, rfl⟩
  | _ => cases literal

theorem evalAll_of_constant {nodes : List (Node .scalar)} (constant : nodes.all Node.isConstant = true) :
    ∃ values, ∀ fuel, evalAll fuel nodes = pure values := by
  induction nodes with
  | nil => exact ⟨[], fun _ => by simp [evalAll]⟩
  | cons node rest induction =>
    rw [List.all_cons, Bool.and_eq_true] at constant
    obtain ⟨value, rfl⟩ := Node.eq_constant constant.1
    obtain ⟨values, evaluated⟩ := induction constant.2
    exact ⟨value :: values, fun fuel => by simp [evalAll, Node.eval, evaluated fuel]⟩

theorem BinaryOperator.continueWith_pure (op : BinaryOperator) (left right : Float) :
    ∃ value, op.continueWith left (pure right) = pure value := by
  unfold BinaryOperator.continueWith
  cases op.settled? left with
  | some value => exact ⟨value, rfl⟩
  | none => exact ⟨op.apply left right, by simp⟩

theorem evalChain_of_constant {rest : List (BinaryOperator × Node .scalar)}
    (constant : rest.all (·.2.isConstant) = true) (start : Float) :
    ∃ value, ∀ fuel, evalChain fuel start rest = pure value := by
  induction rest generalizing start with
  | nil => exact ⟨start, fun _ => by simp [evalChain]⟩
  | cons step rest induction =>
    obtain ⟨op, node⟩ := step
    rw [List.all_cons, Bool.and_eq_true] at constant
    obtain ⟨right, rfl⟩ := Node.eq_constant constant.1
    obtain ⟨next, continued⟩ := op.continueWith_pure start right
    obtain ⟨value, evaluated⟩ := induction constant.2 next
    exact ⟨value, fun fuel => by simp [evalChain, Node.eval, continued, evaluated fuel]⟩

theorem evalParts_of_literal {parts : List (Node .string)} (literal : parts.all Node.isLiteral = true) :
    ∃ content, ∀ fuel, evalParts fuel parts = pure content := by
  induction parts with
  | nil => exact ⟨[], fun _ => by simp [evalParts]⟩
  | cons part rest induction =>
    rw [List.all_cons, Bool.and_eq_true] at literal
    obtain ⟨bytes, rfl⟩ := Node.eq_literal literal.1
    obtain ⟨more, evaluated⟩ := induction literal.2
    exact ⟨bytes ++ more, fun fuel => by simp [evalParts, Node.eval, evaluated fuel]⟩

/-! ## Folding -/

/-- The vector whose length alone decides the value of a node that asks for it. -/
def Node.sized? {k : Kind} : Node k → Option VectorCell
  | .vectorSize (.vectorVariable cell) => some cell
  | _ => none

theorem Node.eq_of_sized? {node : Node .scalar} {cell : VectorCell} (sized : node.sized? = some cell) :
    node = .vectorSize (.vectorVariable cell) := by
  unfold sized? at sized
  split at sized
  · cases sized; rfl
  · cases sized

theorem Node.sized?_operation (op : BinaryOperator) (left right : Node .scalar) :
    (Node.operation op left right).sized? = none := by
  unfold operation
  split <;> rfl

/-- A foldable node that asks for no length has one value, in whatever store. -/
theorem Node.eval_of_isFoldable {node : Node .scalar} (foldable : node.isFoldable = true)
    (unsized : node.sized? = none) : ∃ value, ∀ fuel, node.eval fuel = pure value := by
  cases node with
  | unary op operand =>
    obtain ⟨value, rfl⟩ := Node.eq_constant foldable
    exact ⟨op.apply value, fun _ => by simp [Node.eval]⟩
  | binary op left right =>
    rw [Node.isFoldable, Bool.and_eq_true] at foldable
    obtain ⟨left, rfl⟩ := Node.eq_constant foldable.1
    obtain ⟨right, rfl⟩ := Node.eq_constant foldable.2
    obtain ⟨value, continued⟩ := op.continueWith_pure left right
    exact ⟨value, fun _ => by simp [Node.eval, continued]⟩
  | chain first rest =>
    rw [Node.isFoldable, Bool.and_eq_true] at foldable
    obtain ⟨first, rfl⟩ := Node.eq_constant foldable.1
    obtain ⟨value, evaluated⟩ := evalChain_of_constant foldable.2 first
    exact ⟨value, fun fuel => by simp [Node.eval, evaluated fuel]⟩
  | builtin function arguments =>
    obtain ⟨values, evaluated⟩ := evalAll_of_constant foldable
    simp only [Node.eval, evaluated, pure_bind]
    split
    · exact ⟨_, fun _ => rfl⟩
    · exact ⟨_, fun _ => rfl⟩
  | stringCompare op left right =>
    rw [Node.isFoldable, Bool.and_eq_true] at foldable
    obtain ⟨left, rfl⟩ := Node.eq_literal foldable.1
    obtain ⟨right, rfl⟩ := Node.eq_literal foldable.2
    exact ⟨Number.ofBool (op.holds (some (Bytes.order left right))), fun _ => by simp [Node.eval]⟩
  | stringMatch op left right =>
    rw [Node.isFoldable, Bool.and_eq_true] at foldable
    obtain ⟨left, rfl⟩ := Node.eq_literal foldable.1
    obtain ⟨right, rfl⟩ := Node.eq_literal foldable.2
    exact ⟨Number.ofBool (op.test left right), fun _ => by simp [Node.eval]⟩
  | stringLength string =>
    obtain ⟨content, rfl⟩ := Node.eq_literal foldable
    exact ⟨Float.ofNat content.length, fun _ => by simp [Node.eval]⟩
  | vectorSize vector =>
    cases vector with
    | vectorVariable cell => cases unsized
    | _ => cases foldable
  | _ => cases foldable

/-- Folding keeps what a node evaluates to, wherever the vector that it asks for its length is as long as where
it was folded. -/
theorem Node.eval_fold {node : Node .scalar} {folded store : Store}
    (lengths : ∀ cell, node.sized? = some cell → (store.vector cell).length = (folded.vector cell).length)
    (fuel : Nat) : (node.fold folded).eval fuel store = node.eval fuel store := by
  unfold Node.fold
  split
  next condition consequent alternative =>
    simp only [Node.eval, pure_bind]
    split <;> rfl
  next =>
    split
    next foldable =>
      cases sized : node.sized? with
      | none =>
        obtain ⟨value, evaluated⟩ := Node.eval_of_isFoldable foldable sized
        simp [evaluated, Eval.pure_apply, Node.eval]
      | some cell =>
        obtain rfl := Node.eq_of_sized? sized
        simp [Node.eval, Eval.bind_apply, Eval.read, Eval.pure_apply, lengths cell sized]
    next => rfl

theorem Node.eval_of_isFoldableString {node : Node .string} (foldable : node.isFoldableString = true) :
    ∃ content, ∀ fuel, node.eval fuel = pure content := by
  cases node with
  | concat parts =>
    obtain ⟨content, evaluated⟩ := evalParts_of_literal foldable
    exact ⟨content, fun fuel => by simp [Node.eval, evaluated fuel]⟩
  | substring source first last =>
    rw [Node.isFoldableString, Bool.and_eq_true, Bool.and_eq_true] at foldable
    obtain ⟨source, rfl⟩ := Node.eq_literal foldable.1.1
    obtain ⟨first, rfl⟩ := Node.eq_constant foldable.1.2
    obtain ⟨last, rfl⟩ := Node.eq_constant foldable.2
    exact ⟨Bytes.slice source (some first) (some last), fun _ => by simp [Node.eval]⟩
  | _ => cases foldable

theorem Node.eval_foldString (node : Node .string) (folded : Store) (fuel : Nat) :
    (node.foldString folded).eval fuel = node.eval fuel := by
  unfold Node.foldString
  split
  next condition consequent alternative =>
    simp only [Node.eval, pure_bind]
    split <;> rfl
  next =>
    split
    next foldable =>
      obtain ⟨content, evaluated⟩ := Node.eval_of_isFoldableString foldable
      simp [evaluated, Eval.pure_apply, Node.eval]
    next => rfl

/-! ## What folding keeps -/

theorem Node.fold_of (property : Node .scalar → Prop) {node : Node .scalar} (holds : property node)
    (constant : ∀ value, property (.constant value))
    (branches : ∀ condition consequent alternative, property (.conditional condition consequent alternative) →
      property consequent ∧ property alternative) (store : Store) : property (node.fold store) := by
  unfold Node.fold
  split
  next condition consequent alternative =>
    split
    · exact (branches _ _ _ holds).1
    · exact (branches _ _ _ holds).2
  next =>
    split
    · split
      · exact constant _
      · exact holds
    · exact holds

theorem Node.foldString_of (property : Node .string → Prop) {node : Node .string} (holds : property node)
    (literal : ∀ content, property (.literal content))
    (branches : ∀ condition consequent alternative, property (.stringConditional condition consequent alternative) →
      property consequent ∧ property alternative) (store : Store) : property (node.foldString store) := by
  unfold Node.foldString
  split
  next condition consequent alternative =>
    split
    · exact (branches _ _ _ holds).1
    · exact (branches _ _ _ holds).2
  next =>
    split
    · split
      · exact literal _
      · exact holds
    · exact holds

open AnyNode (Everywhere everywhere_iff)

theorem Node.everywhere_fold {property : AnyNode → Prop} (constant : ∀ value, property (.scalar (.constant value)))
    {node : Node .scalar} (everywhere : Everywhere property (.scalar node)) (store : Store) :
    Everywhere property (.scalar (node.fold store)) := by
  refine fold_of (fun node => Everywhere property (.scalar node)) everywhere
    (fun _ => .intro (constant _) (List.forall_mem_nil _)) ?_ store
  intro condition consequent alternative everywhere
  obtain ⟨-, below⟩ := everywhere_iff.mp everywhere
  simp only [AnyNode.scalar, children, List.forall_mem_cons] at below
  exact ⟨below.2.1, below.2.2.1⟩

theorem Node.everywhere_foldString {property : AnyNode → Prop}
    (literal : ∀ content, property (.string (.literal content))) {node : Node .string}
    (everywhere : Everywhere property (.string node)) (store : Store) :
    Everywhere property (.string (node.foldString store)) := by
  refine foldString_of (fun node => Everywhere property (.string node)) everywhere
    (fun _ => .intro (literal _) (List.forall_mem_nil _)) ?_ store
  intro condition consequent alternative everywhere
  obtain ⟨-, below⟩ := everywhere_iff.mp everywhere
  simp only [AnyNode.string, children, List.forall_mem_cons] at below
  exact ⟨below.2.1, below.2.2.1⟩

end LiveExpr
