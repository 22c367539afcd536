import LiveExpr.Proofs.Node.Everywhere
import LiveExpr.Proofs.Node.Joining

/-!
Well-formed nodes, and what that comes to when they are evaluated: a function gets as many arguments as it takes and
an operator is one that the node can carry, so the evaluator never has to put up with anything else.
-/

namespace LiveExpr

/-- The operators that an assignment can combine with. -/
def BinaryOperator.isCompound : BinaryOperator → Bool
  | add | sub | mul | div | mod => true
  | _ => false

/-- Whether the node itself is well formed. A node that could not be made is not. -/
def AnyNode.IsWellFormed : AnyNode → Prop
  | ⟨_, .builtin function arguments⟩ => function.arity.accepts arguments.length = true
  | ⟨_, .userCall function arguments⟩ => arguments.length = function.arity
  | ⟨_, .elementwise first rest⟩ =>
    (∀ step ∈ rest, step.1.isArithmetic = true) ∧ runsOverVector first rest = true
  | ⟨_, .stringCompare op _ _⟩ => op.isComparison = true
  | ⟨_, .assign _ op _⟩ => op.all BinaryOperator.isCompound = true
  | ⟨_, .assignElement _ _ op _⟩ => op.all BinaryOperator.isCompound = true
  | ⟨_, .vectorAssign _ op _⟩ => op.all BinaryOperator.isCompound = true
  | ⟨_, .missing⟩ => False
  | _ => True

/-! ## Proper cases -/

/-- The values of built-in functions, on as many arguments as they take. -/
inductive Computation.Gives : Computation → List Float → Float → Prop
  | unary (f : Float → Float) (x : Float) : Gives (.unary f) [x] (f x)
  | binary (f : Float → Float → Float) (x y : Float) : Gives (.binary f) [x, y] (f x y)
  | ternary (f : Float → Float → Float → Float) (x y z : Float) : Gives (.ternary f) [x, y, z] (f x y z)
  | aggregate (op : Aggregate) (first : Float) (rest : List Float) :
      Gives (.aggregate op) (first :: rest) (op.apply (first :: rest))

/-- The values of arithmetic operators. -/
inductive BinaryOperator.Computes : BinaryOperator → Float → Float → Float → Prop
  | add (x y : Float) : Computes .add x y (x + y)
  | sub (x y : Float) : Computes .sub x y (x - y)
  | mul (x y : Float) : Computes .mul x y (x * y)
  | div (x y : Float) : Computes .div x y (x / y)
  | mod (x y : Float) : Computes .mod x y (Number.remainder x y)
  | pow (x y : Float) : Computes .pow x y (Float.pow x y)

/-- What comparisons decide about two values in a given order. -/
inductive BinaryOperator.Decides : BinaryOperator → Ordering → Bool → Prop
  | less (order : Ordering) : Decides .less order order.isLT
  | lessEqual (order : Ordering) : Decides .lessEqual order order.isLE
  | greater (order : Ordering) : Decides .greater order order.isGT
  | greaterEqual (order : Ordering) : Decides .greaterEqual order order.isGE
  | equal (order : Ordering) : Decides .equal order order.isEq
  | notEqual (order : Ordering) : Decides .notEqual order order.isNe

theorem Computation.gives_of_accepts {computation : Computation} {values : List Float}
    (accepted : computation.arity.accepts values.length = true) :
    computation.Gives values (computation.apply values) := by
  cases computation with
  | unary f =>
    match values, accepted with
    | [x], _ => exact .unary f x
  | binary f =>
    match values, accepted with
    | [x, y], _ => exact .binary f x y
  | ternary f =>
    match values, accepted with
    | [x, y, z], _ => exact .ternary f x y z
  | aggregate op =>
    match values, accepted with
    | first :: rest, _ => exact .aggregate op first rest

theorem BinaryOperator.computes_of_isArithmetic {op : BinaryOperator} (arithmetic : op.isArithmetic = true)
    (x y : Float) : op.Computes x y (op.apply x y) := by
  cases op with
  | add => exact .add x y
  | sub => exact .sub x y
  | mul => exact .mul x y
  | div => exact .div x y
  | mod => exact .mod x y
  | pow => exact .pow x y
  | _ => cases arithmetic

theorem BinaryOperator.isArithmetic_of_isCompound {op : BinaryOperator} (compound : op.isCompound = true) :
    op.isArithmetic = true := by
  cases op <;> first | rfl | cases compound

theorem BinaryOperator.decides_of_isComparison {op : BinaryOperator} (comparison : op.isComparison = true)
    (order : Ordering) : op.Decides order (op.holds (some order)) := by
  cases op with
  | less => cases order <;> exact .less _
  | lessEqual => cases order <;> exact .lessEqual _
  | greater => cases order <;> exact .greater _
  | greaterEqual => cases order <;> exact .greaterEqual _
  | equal => cases order <;> exact .equal _
  | notEqual => cases order <;> exact .notEqual _
  | _ => cases comparison

/-! ## Evaluation -/

/-- Whether evaluations of the node itself keep to the proper cases: a call is made with as many values as the
function takes, and the operators of runs, comparisons and assignments have values. -/
def AnyNode.KeepsToCases : AnyNode → Prop
  | ⟨_, .builtin function arguments⟩ => ∀ fuel before value after,
      (Node.builtin function arguments).eval fuel before = some (value, after) →
      ∃ values, evalAll fuel arguments before = some (values, after) ∧
        function.computation.Gives values value
  | ⟨_, .userCall function arguments⟩ => ∀ fuel before value after,
      (Node.userCall function arguments).eval fuel before = some (value, after) →
      ∃ values middle, evalAll fuel arguments before = some (values, middle) ∧
        values.length = function.arity ∧ (value, after) = middle.call function values
  | ⟨_, .elementwise _ rest⟩ => ∀ step ∈ rest, ∀ x y, step.1.Computes x y (step.1.apply x y)
  | ⟨_, .stringCompare op _ _⟩ => ∀ order, op.Decides order (op.holds (some order))
  | ⟨_, .assign _ op _⟩ => ∀ combined ∈ op, ∀ x y, combined.Computes x y (combined.apply x y)
  | ⟨_, .assignElement _ _ op _⟩ => ∀ combined ∈ op, ∀ x y, combined.Computes x y (combined.apply x y)
  | ⟨_, .vectorAssign _ op _⟩ => ∀ combined ∈ op, ∀ x y, combined.Computes x y (combined.apply x y)
  | ⟨_, .missing⟩ => False
  | _ => True

theorem length_of_evalAll {fuel : Nat} {nodes : List (Node .scalar)} {before after : Store}
    {values : List Float} (done : evalAll fuel nodes before = some (values, after)) :
    values.length = nodes.length := by
  induction nodes generalizing before values with
  | nil =>
    cases done
    rfl
  | cons node rest induction =>
    obtain ⟨value, middle, -, continued⟩ := Eval.bind_eq_some.mp done
    obtain ⟨others, last, evaluated, finished⟩ := Eval.bind_eq_some.mp continued
    cases finished
    exact congrArg (· + 1) (induction evaluated)

theorem computes_of_compound {op : Option BinaryOperator}
    (compound : op.all BinaryOperator.isCompound = true) (combined : BinaryOperator) (member : combined ∈ op)
    (x y : Float) : combined.Computes x y (combined.apply x y) := by
  rw [Option.mem_def] at member
  rw [member] at compound
  exact BinaryOperator.computes_of_isArithmetic (BinaryOperator.isArithmetic_of_isCompound compound) x y

theorem AnyNode.IsWellFormed.keepsToCases {node : AnyNode} (wellFormed : node.IsWellFormed) :
    node.KeepsToCases := by
  obtain ⟨k, node⟩ := node
  cases node with
  | builtin function arguments =>
    have accepted : function.arity.accepts arguments.length = true := wellFormed
    intro fuel before value after done
    rw [Node.eval, if_pos accepted] at done
    obtain ⟨values, middle, evaluated, finished⟩ := Eval.bind_eq_some.mp done
    cases finished
    rw [← length_of_evalAll evaluated] at accepted
    exact ⟨values, evaluated, Computation.gives_of_accepts accepted⟩
  | userCall function arguments =>
    intro fuel before value after done
    obtain ⟨values, middle, evaluated, finished⟩ := Eval.bind_eq_some.mp done
    exact ⟨values, middle, evaluated, (length_of_evalAll evaluated).trans wellFormed,
      (Option.some.inj finished).symm⟩
  | elementwise first rest =>
    exact fun step member => BinaryOperator.computes_of_isArithmetic (wellFormed.1 step member)
  | stringCompare op left right => exact BinaryOperator.decides_of_isComparison wellFormed
  | assign target op value => exact computes_of_compound wellFormed
  | assignElement target index op value => exact computes_of_compound wellFormed
  | vectorAssign target op value => exact computes_of_compound wellFormed
  | missing => exact wellFormed
  | _ => trivial

end LiveExpr
