import LiveExpr.Proofs.Node.Joining
import LiveExpr.Proofs.Node.Trace

/-!
Joined nodes do what nested ones do. A node that extends the run on its left gives the same value, leaves the same
store, and reads and writes in the same order as the node of two operands; so a run of any length that is joined from
left to right does what the tree does that nests to the left.
-/

namespace LiveExpr

namespace Traced

variable {α β γ : Type}

theorem bind_assoc (first : Traced α) (second : α → Traced β) (third : β → Traced γ) :
    first >>= second >>= third = first >>= fun value => second value >>= third := by
  funext store
  rcases ran : first store with ⟨log, _ | ⟨value, middle⟩⟩
  · rw [bind_of_none ran, bind_of_none (bind_of_none ran)]
  · rw [bind_of_some ran]
    rcases continued : second value middle with ⟨more, _ | ⟨next, after⟩⟩
    · rw [bind_of_none (by rw [bind_of_some ran, continued]), bind_of_none continued]
    · rw [bind_of_some (by rw [bind_of_some ran, continued]), bind_of_some continued, List.append_assoc]

theorem id_map (computation : Traced α) : id <$> computation = computation := by
  funext store
  change (computation >>= pure) store = computation store
  rcases ran : computation store with ⟨log, _ | ⟨value, after⟩⟩
  · exact bind_of_none ran
  · rw [bind_of_some ran, pure_apply, List.append_nil]

instance : LawfulMonad Traced :=
  LawfulMonad.mk' Traced id_map (fun _ _ => rfl) bind_assoc

end Traced

/-! ## Scalars -/

theorem traceChain_append (fuel : Nat) (value : Float) (first second : List (BinaryOperator × Node .scalar)) :
    traceChain fuel value (first ++ second) =
      traceChain fuel value first >>= fun value => traceChain fuel value second := by
  induction first generalizing value with
  | nil => simp
  | cons step rest induction => simp [induction]

theorem Node.trace_operation (fuel : Nat) (op : BinaryOperator) (left right : Node .scalar) :
    (operation op left right).trace fuel =
      left.trace fuel >>= fun value => Traced.continueWith op value (right.trace fuel) := by
  unfold operation
  split
  · simp [traceChain_append]
  · simp
  · simp

/-! ## Strings -/

theorem traceParts_append (fuel : Nat) (first second : List (Node .string)) :
    traceParts fuel (first ++ second) = (do
      let bytes ← traceParts fuel first
      let more ← traceParts fuel second
      pure (bytes ++ more)) := by
  induction first with
  | nil => simp
  | cons part rest induction =>
    simp only [List.cons_append, traceParts, induction, bind_assoc, pure_bind, List.append_assoc]

theorem Node.traceParts_parts (fuel : Nat) (string : Node .string) :
    traceParts fuel string.parts = string.trace fuel := by
  unfold parts
  split <;> simp

theorem Node.trace_joined (fuel : Nat) (left right : Node .string) :
    (joined left right).trace fuel = (do
      let bytes ← left.trace fuel
      let more ← right.trace fuel
      pure (bytes ++ more)) := by
  simp [joined, traceParts_append, traceParts_parts]

/-! ## Vectors -/

theorem traceElementwise_append (fuel : Nat) (value : Broadcast) (first second : List (BinaryOperator × Operand)) :
    traceElementwise fuel value (first ++ second) =
      traceElementwise fuel value first >>= fun value => traceElementwise fuel value second := by
  induction first generalizing value with
  | nil => simp
  | cons step rest induction => simp [induction]

theorem Broadcast.isEach_each (values : List Float) : (each values).isEach = true := rfl

theorem Broadcast.isEach_same (value : Float) : (same value).isEach = false := rfl

/-- A run in which there is a vector comes to a vector, whatever comes first. -/
theorem traceElementwise_each (fuel : Nat) (value : Broadcast) (rest : List (BinaryOperator × Operand))
    (spans : (value.isEach || rest.any (·.2.isVector)) = true) :
    (traceElementwise fuel value rest >>= fun value => pure (.each value.elements)) =
      traceElementwise fuel value rest := by
  induction rest generalizing value with
  | nil =>
    rw [List.any_nil, Bool.or_false] at spans
    simp [Broadcast.each_elements spans]
  | cons step rest induction =>
    obtain ⟨op, right⟩ := step
    cases right with
    | vector right =>
      have further (values : List Float) := induction (.apply op value (.each values)) <| by
        rw [Broadcast.isEach_apply, Broadcast.isEach_each, Bool.or_true, Bool.true_or]
      simp only [traceElementwise, Operand.trace, bind_assoc, pure_bind, further]
    | scalar right =>
      have further (other : Float) := induction (.apply op value (.same other)) <| by
        rw [Broadcast.isEach_apply, Broadcast.isEach_same, Bool.or_false]
        exact spans
      simp only [traceElementwise, Operand.trace, bind_assoc, pure_bind, further]

theorem Operand.trace_run (fuel : Nat) {first : Operand} {rest : List (BinaryOperator × Operand)}
    (spans : runsOverVector first rest = true) :
    (Operand.vector (.elementwise first rest)).trace fuel =
      first.trace fuel >>= fun value => traceElementwise fuel value rest := by
  cases first with
  | vector first =>
    have further (values : List Float) := traceElementwise_each fuel (.each values) rest rfl
    simp only [Operand.trace, Node.trace, bind_assoc, pure_bind, further]
  | scalar first =>
    have further (other : Float) := traceElementwise_each fuel (.same other) rest spans
    simp only [Operand.trace, Node.trace, bind_assoc, pure_bind, further]

theorem Node.trace_elementOperation (fuel : Nat) (op : BinaryOperator) {left : Operand}
    (pointwise : left.isPointwise = true) (right : Operand) :
    (elementOperation op left right).trace fuel = (Node.elementwise left [(op, right)]).trace fuel := by
  unfold elementOperation
  split
  next first rest =>
    have spans : runsOverVector first rest = true := pointwise
    have run := Operand.trace_run fuel spans
    simp only [Node.trace, traceElementwise, traceElementwise_append]
    rw [run]
    simp
  next => rfl

/-! ## Nodes that do the same -/

/-- Whether two nodes do the same in every store: they give the same value, leave the same cells and the same calls of
functions, and read and write in the same order, or their rounds run out at the same point. -/
structure Node.SameRuns {k : Kind} (one other : Node k) : Prop where
  trace (fuel : Nat) : one.trace fuel = other.trace fuel
  eval (fuel : Nat) : one.eval fuel = other.eval fuel

/-- Whether two operands are both vectors or both scalars that do the same. -/
inductive Operand.SameRuns : Operand → Operand → Prop
  | vector {one other : Node .vector} (same : one.SameRuns other) : SameRuns (.vector one) (.vector other)
  | scalar {one other : Node .scalar} (same : one.SameRuns other) : SameRuns (.scalar one) (.scalar other)

theorem Node.SameRuns.of_trace {k : Kind} {one other : Node k} (same : ∀ fuel, one.trace fuel = other.trace fuel) :
    one.SameRuns other where
  trace := same
  eval fuel := by rw [← one.erase_trace, ← other.erase_trace, same]

theorem Operand.SameRuns.trace {one other : Operand} (same : one.SameRuns other) (fuel : Nat) :
    one.trace fuel = other.trace fuel := by
  cases same with
  | vector same | scalar same => rw [Operand.trace, Operand.trace, same.trace]

namespace Node

theorem sameRuns_operation (op : BinaryOperator) {left nested : Node .scalar} (same : left.SameRuns nested)
    (right : Node .scalar) : (operation op left right).SameRuns (.binary op nested right) := by
  apply SameRuns.of_trace
  intro fuel
  rw [trace_operation, same.trace]
  rfl

theorem sameRuns_joined {left nested : Node .string} (same : left.SameRuns nested) (right : Node .string) :
    (joined left right).SameRuns (.concat [nested, right]) := by
  apply SameRuns.of_trace
  intro fuel
  rw [trace_joined, same.trace]
  simp only [Node.trace, traceParts, bind_assoc, pure_bind, List.append_nil]

theorem sameRuns_elementOperation (op : BinaryOperator) {left nested : Operand} (same : left.SameRuns nested)
    (pointwise : left.isPointwise = true) (right : Operand) :
    (elementOperation op left right).SameRuns (.elementwise nested [(op, right)]) := by
  apply SameRuns.of_trace
  intro fuel
  rw [trace_elementOperation fuel op pointwise, Node.trace, Node.trace, same.trace]

theorem isPointwise_elementOperation (op : BinaryOperator) {left right : Operand} (pointwise : left.isPointwise = true)
    (spans : (left.isVector || right.isVector) = true) : (elementOperation op left right).isPointwise = true := by
  unfold elementOperation
  split
  next first rest => exact runsOverVector_append pointwise [(op, right)]
  next => simpa [isPointwise, runsOverVector] using spans

end Node

/-! ## Runs -/

namespace Node

/-- A run of operators between scalars, joined from left to right. -/
def joinedRun (first : Node .scalar) (rest : List (BinaryOperator × Node .scalar)) : Node .scalar :=
  rest.foldl (fun left step => operation step.1 left step.2) first

/-- A run of operators between scalars, as a tree that nests to the left. -/
def nestedRun (first : Node .scalar) (rest : List (BinaryOperator × Node .scalar)) : Node .scalar :=
  rest.foldl (fun left step => .binary step.1 left step.2) first

/-- A run of strings, joined from left to right. -/
def joinedStrings (first : Node .string) (rest : List (Node .string)) : Node .string :=
  rest.foldl joined first

/-- A run of strings, as a tree that nests to the left. -/
def nestedStrings (first : Node .string) (rest : List (Node .string)) : Node .string :=
  rest.foldl (fun left right => .concat [left, right]) first

theorem SameRuns.refl {k : Kind} (node : Node k) : node.SameRuns node :=
  ⟨fun _ => rfl, fun _ => rfl⟩

theorem sameRuns_joinedRun (first : Node .scalar) (rest : List (BinaryOperator × Node .scalar)) :
    (joinedRun first rest).SameRuns (nestedRun first rest) := by
  apply List.foldl_rel (SameRuns.refl first)
  intro step _ left nested same
  exact sameRuns_operation step.1 same step.2

theorem sameRuns_joinedStrings (first : Node .string) (rest : List (Node .string)) :
    (joinedStrings first rest).SameRuns (nestedStrings first rest) := by
  apply List.foldl_rel (SameRuns.refl first)
  intro right _ left nested same
  exact sameRuns_joined same right

end Node

namespace Operand

/-- Joins an operand to what stands on its left: two scalars to a scalar, anything else element by element. -/
def joinedStep (left : Operand) (step : BinaryOperator × Operand) : Operand :=
  match left, step.2 with
  | .scalar left, .scalar right => .scalar (.operation step.1 left right)
  | left, right => .vector (.elementOperation step.1 left right)

/-- The operation of two operands alone that does what joining them does. -/
def nestedStep (left : Operand) (step : BinaryOperator × Operand) : Operand :=
  match left, step.2 with
  | .scalar left, .scalar right => .scalar (.binary step.1 left right)
  | left, right => .vector (.elementwise left [(step.1, right)])

/-- A run of operators between scalars and vectors, joined from left to right. Scalars combine with each other up to the
first vector. -/
def joinedRun (first : Operand) (rest : List (BinaryOperator × Operand)) : Operand :=
  rest.foldl joinedStep first

/-- A run of operators between scalars and vectors, as a tree that nests to the left. -/
def nestedRun (first : Operand) (rest : List (BinaryOperator × Operand)) : Operand :=
  rest.foldl nestedStep first

theorem SameRuns.refl (operand : Operand) : operand.SameRuns operand := by
  cases operand with
  | vector vector => exact .vector (.refl vector)
  | scalar scalar => exact .scalar (.refl scalar)

theorem sameRuns_step {left nested : Operand} (same : left.SameRuns nested) (pointwise : left.isPointwise = true)
    (step : BinaryOperator × Operand) :
    (joinedStep left step).SameRuns (nestedStep nested step) ∧ (joinedStep left step).isPointwise = true := by
  obtain ⟨op, right⟩ := step
  have overVector (spans : (left.isVector || right.isVector) = true) :
      SameRuns (.vector (.elementOperation op left right)) (.vector (.elementwise nested [(op, right)])) ∧
        (Operand.vector (.elementOperation op left right)).isPointwise = true :=
    ⟨.vector (Node.sameRuns_elementOperation op same pointwise right),
      Node.isPointwise_elementOperation op pointwise spans⟩
  cases same with
  | vector same => exact overVector rfl
  | scalar same =>
    cases right with
    | vector right => exact overVector rfl
    | scalar right => exact ⟨.scalar (Node.sameRuns_operation op same right), rfl⟩

theorem sameRuns_joinedRun {first : Operand} (pointwise : first.isPointwise = true)
    (rest : List (BinaryOperator × Operand)) : (joinedRun first rest).SameRuns (nestedRun first rest) := by
  let alike (left nested : Operand) : Prop := left.SameRuns nested ∧ left.isPointwise = true
  have whole : alike (joinedRun first rest) (nestedRun first rest) := by
    refine @List.foldl_rel _ _ _ rest joinedStep nestedStep first first alike ⟨.refl first, pointwise⟩ ?_
    intro step _ left nested so
    exact sameRuns_step so.1 so.2 step
  exact whole.1

end Operand

/-- Joining keeps the meaning. An operation does the same whether it extends the run on its left or stands as a node of
two operands: between scalars, where `and` and `or` may leave their right side out; between strings, where both are
evaluated in order and joined; and between vectors, unless the left operand is a run of scalars alone, which is a vector
of one element by itself and a scalar in a longer run. So do runs of any length, in which scalars may come before the
first vector. -/
theorem Node.flattened_sameRuns :
    (∀ op (left right : Node .scalar), (operation op left right).SameRuns (.binary op left right)) ∧
    (∀ (left right : Node .string) (fuel : Nat),
      (joined left right).trace fuel = (do
        let bytes ← left.trace fuel
        let more ← right.trace fuel
        pure (bytes ++ more)) ∧
      (joined left right).eval fuel = (do
        let bytes ← left.eval fuel
        let more ← right.eval fuel
        pure (bytes ++ more))) ∧
    (∀ op (left right : Operand), left.isPointwise = true →
      (elementOperation op left right).SameRuns (.elementwise left [(op, right)])) ∧
    (∀ first rest, (joinedRun first rest).SameRuns (nestedRun first rest)) ∧
    (∀ first rest, (joinedStrings first rest).SameRuns (nestedStrings first rest)) ∧
    ∀ (first : Operand) (rest : List (BinaryOperator × Operand)), first.isPointwise = true →
      (Operand.joinedRun first rest).SameRuns (Operand.nestedRun first rest) := by
  refine ⟨fun op left right => sameRuns_operation op (.refl left) right, fun left right fuel => ?_,
    fun op left right pointwise => sameRuns_elementOperation op (.refl left) pointwise right, sameRuns_joinedRun,
    sameRuns_joinedStrings, fun first rest pointwise => Operand.sameRuns_joinedRun pointwise rest⟩
  exact ⟨trace_joined fuel left right, eval_joined fuel left right⟩

/-- A run that starts with scalars, `2 + 3 * v`, is extended by a vector. -/
theorem Node.flattened_sameRuns_scalarsFirst :
    let run : Operand := .vector (.elementwise (.scalar (.constant 2.0))
      [(.add, .scalar (.constant 3.0)), (.mul, .vector (.vectorVariable ⟨0⟩))])
    let other : Operand := .vector (.vectorVariable ⟨1⟩)
    run.isPointwise = true ∧
      (elementOperation .sub run other).SameRuns (.elementwise run [(.sub, other)]) ∧
      (Operand.joinedRun run [(.sub, other)]).SameRuns (Operand.nestedRun run [(.sub, other)]) := by
  intro run other
  obtain ⟨-, -, elementwise, -, -, runs⟩ := flattened_sameRuns
  exact ⟨rfl, elementwise .sub run other rfl, runs run [(.sub, other)] rfl⟩

end LiveExpr
