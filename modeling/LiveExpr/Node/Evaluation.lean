import LiveExpr.Node
import LiveExpr.Text.Slice

/-!
Evaluation of node graphs. A node is evaluated in a store and gives its value and the store after its
effects. Nothing fails: what has no value gives NaN. Only a loop without a limit may go on forever; how many
rounds an entry into such a loop may take is a parameter, and when they do not suffice there is no result.
-/

namespace LiveExpr

/-- A computation on the store that may run out of rounds. -/
def Eval (α : Type) : Type :=
  Store → Option (α × Store)

namespace Eval

@[always_inline, inline]
instance : Monad Eval where
  pure value := fun store => some (value, store)
  bind first next := fun store =>
    match first store with
    | some (value, store) => next value store
    | none => none

theorem pure_apply {α : Type} (value : α) (store : Store) :
    (pure value : Eval α) store = some (value, store) := rfl

theorem bind_apply {α β : Type} (first : Eval α) (next : α → Eval β) (store : Store) :
    (first >>= next) store =
      match first store with
      | some (value, store) => next value store
      | none => none := rfl

theorem bind_eq_some {α β : Type} {first : Eval α} {next : α → Eval β} {before after : Store} {result : β} :
    (first >>= next) before = some (result, after) ↔
      ∃ value middle, first before = some (value, middle) ∧ next value middle = some (result, after) := by
  rw [bind_apply]
  cases first before with
  | none => simp
  | some pair =>
    constructor
    · exact fun done => ⟨pair.1, pair.2, rfl, done⟩
    · rintro ⟨_, _, equal, done⟩
      cases equal
      exact done

@[inline]
def read {α : Type} (view : Store → α) : Eval α :=
  fun store => some (view store, store)

@[inline]
def change (effect : Store → Store) : Eval Unit :=
  fun store => some ((), effect store)

/-- Runs a computation for its effects. -/
@[inline]
def discard {α : Type} (computation : Eval α) : Eval Unit := do
  let _ ← computation
  pure ()

/-! ## Loops -/

/-- Repeats `body` and `step` while the condition is true, for at most `rounds` rounds, and gives the value
of the last body. When the rounds are used up, a `limited` loop is over; any other has no result. -/
def repeatWhile (condition body : Eval Float) (step : Eval Unit) (limited : Bool) :
    (rounds : Nat) → (last : Float) → Eval Float
  | 0, last => fun store => if limited then some (last, store) else none
  | rounds + 1, last => do
    if Number.isTrue (← condition) then
      let value ← body
      step
      repeatWhile condition body step limited rounds value
    else pure last

/-- A loop. Its rounds are bounded by its limit, if it has one, and else by the given fuel. -/
def loop (fuel : Nat) (condition body : Eval Float) (step : Eval Unit) (limit : Option Nat) : Eval Float :=
  repeatWhile condition body step limit.isSome (limit.getD fuel) Number.nan

end Eval

/-! ## Scalars -/

namespace BinaryOperator

/-- Goes on from the value of the left operand. The right one is left out if the left one settles the
result. -/
def continueWith (op : BinaryOperator) (left : Float) (right : Eval Float) : Eval Float :=
  match op.settled? left with
  | some value => pure value
  | none => do
    let right ← right
    pure (op.apply left right)

/-- The value that an assignment stores: the new one, or the old one combined with it. -/
def combine (op : Option BinaryOperator) (old new : Float) : Float :=
  match op with
  | some op => op.apply old new
  | none => new

end BinaryOperator

open BinaryOperator (combine)

/-! ## Vectors -/

/-- The value of an operand of an operation on vectors. -/
inductive Broadcast where
  | each (values : List Float)
  | same (value : Float)

namespace Broadcast

/-- Applies an operator element by element. The result is as long as the shorter vector. -/
def apply (op : BinaryOperator) : Broadcast → Broadcast → Broadcast
  | each left, each right => each (List.zipWith op.apply left right)
  | each left, same right => each (left.map (op.apply · right))
  | same left, each right => each (right.map (op.apply left ·))
  | same left, same right => same (op.apply left right)

/-- The elements; a value without a vector has one. -/
def elements : Broadcast → List Float
  | each values => values
  | same value => [value]

/-- The content of a vector after an assignment. Elements without a counterpart stay. -/
def assign (op : Option BinaryOperator) (old : List Float) : Broadcast → List Float
  | each values => Store.overwrite old (List.zipWith (combine op) old values)
  | same value => old.map (combine op · value)

end Broadcast

/-- The first content of a declared vector of the given length. -/
def resetContent (length : Nat) (values : List Float) (fill : Bool) : List Float :=
  match fill, values with
  | true, [value] => List.replicate length value
  | _, values => Store.overwrite (List.replicate length 0.0) values

/-! ## Nodes -/

mutual

/-- Evaluates a node. An entry into a loop without a limit may take `fuel` rounds. -/
def Node.eval (fuel : Nat) {k : Kind} : Node k → Eval k.Content
  | .constant value => pure value
  | .variable cell => Eval.read (·.number cell)
  | .unary op operand => do
    let value ← operand.eval fuel
    pure (op.apply value)
  | .binary op left right => do
    let left ← left.eval fuel
    op.continueWith left (right.eval fuel)
  | .chain first rest => do
    let first ← first.eval fuel
    evalChain fuel first rest
  | .conditional condition consequent alternative => do
    if Number.isTrue (← condition.eval fuel) then consequent.eval fuel else alternative.eval fuel
  | .choice cases otherwise => do
    match ← evalCases fuel cases with
    | some value => pure value
    | none => otherwise.eval fuel
  | .loop start condition step body limit => do
    execute fuel start
    Eval.loop fuel (condition.eval fuel) (evalScalar fuel body) (execute fuel step) limit
  | .assign target op value => do
    let value ← value.eval fuel
    let old ← Eval.read (·.number target)
    let value := combine op old value
    Eval.change (·.setNumber target value)
    pure value
  | .element vector index => do
    let index ← index.eval fuel
    match Number.toIndex? index with
    | none => pure Number.nan
    | some index => do
      let values ← vector.eval fuel
      pure (values[index]?.getD Number.nan)
  | .assignElement target index op value => do
    let index ← index.eval fuel
    let value ← value.eval fuel
    let values ← Eval.read (·.vector target)
    match (Number.toIndex? index).bind fun index => values[index]?.map (index, ·) with
    | none => pure Number.nan
    | some (index, old) => do
      let value := combine op old value
      Eval.change (·.setElement target index value)
      pure value
  | .vectorSize vector => do
    let values ← vector.eval fuel
    pure (Float.ofNat values.length)
  | .stringLength string => do
    let bytes ← string.eval fuel
    pure (Float.ofNat bytes.length)
  | .stringCompare op left right => do
    let left ← left.eval fuel
    let right ← right.eval fuel
    pure (Number.ofBool (op.holds (some (Bytes.order left right))))
  | .stringMatch op left right => do
    let left ← left.eval fuel
    let right ← right.eval fuel
    pure (Number.ofBool (op.test left right))
  | .builtin function arguments =>
    if function.arity.accepts arguments.length then do
      let values ← evalAll fuel arguments
      pure (function.computation.apply values)
    else pure Number.nan
  | .vectorAggregate op vector => do
    let values ← vector.eval fuel
    pure (op.apply values)
  | .userCall function arguments => do
    let values ← evalAll fuel arguments
    fun store => some (store.call function values)
  | .literal content => pure content
  | .stringVariable cell => Eval.read (·.string cell)
  | .concat parts => evalParts fuel parts
  | .substring source first last => do
    let source ← source.eval fuel
    let first ← first.eval fuel
    let last ← last.eval fuel
    pure (Bytes.slice source (some first) (some last))
  | .stringConditional condition consequent alternative => do
    if Number.isTrue (← condition.eval fuel) then consequent.eval fuel else alternative.eval fuel
  | .stringAssign target append value => do
    let value ← value.eval fuel
    let old ← Eval.read (·.string target)
    let value := if append then old ++ value else value
    Eval.change (·.setString target value)
    pure value
  | .vectorVariable cell => Eval.read (·.vector cell)
  | .negate vector => do
    let values ← vector.eval fuel
    pure (values.map (- ·))
  | .map apply vector => do
    let values ← vector.eval fuel
    pure (values.map apply)
  | .elementwise first rest => do
    let first ← first.eval fuel
    let value ← evalElementwise fuel first rest
    pure value.elements
  | .vectorAssign target op value => do
    let value ← value.eval fuel
    let old ← Eval.read (·.vector target)
    Eval.change (·.setVector target (value.assign op old))
    Eval.read (·.vector target)
  | .reset target values fill => do
    let values ← evalAll fuel values
    let old ← Eval.read (·.vector target)
    Eval.change (·.setVector target (resetContent old.length values fill))
    Eval.read (·.vector target)
  | .sequence statements result => do
    executeAll fuel statements
    result.eval fuel
  | @Node.missing kind => pure kind.blank

/-- Evaluates an operand of an operation on vectors. -/
def Operand.eval (fuel : Nat) : Operand → Eval Broadcast
  | .vector vector => do
    let values ← vector.eval fuel
    pure (.each values)
  | .scalar scalar => do
    let value ← scalar.eval fuel
    pure (.same value)

/-- Goes on with a run of operators from the value so far. -/
def evalChain (fuel : Nat) (value : Float) : List (BinaryOperator × Node .scalar) → Eval Float
  | [] => pure value
  | (op, right) :: rest => do
    let value ← op.continueWith value (right.eval fuel)
    evalChain fuel value rest

def evalCases (fuel : Nat) : List (Node .scalar × Node .scalar) → Eval (Option Float)
  | [] => pure none
  | (condition, value) :: rest => do
    if Number.isTrue (← condition.eval fuel) then
      let value ← value.eval fuel
      pure (some value)
    else evalCases fuel rest

/-- Evaluates scalars from left to right. -/
def evalAll (fuel : Nat) : List (Node .scalar) → Eval (List Float)
  | [] => pure []
  | first :: rest => do
    let value ← first.eval fuel
    let values ← evalAll fuel rest
    pure (value :: values)

/-- Evaluates strings from left to right and joins them. -/
def evalParts (fuel : Nat) : List (Node .string) → Eval Bytes
  | [] => pure []
  | first :: rest => do
    let bytes ← first.eval fuel
    let more ← evalParts fuel rest
    pure (bytes ++ more)

/-- Goes on with a run of operators on vectors from the value so far. -/
def evalElementwise (fuel : Nat) (value : Broadcast) :
    List (BinaryOperator × Operand) → Eval Broadcast
  | [] => pure value
  | (op, right) :: rest => do
    let right ← right.eval fuel
    evalElementwise fuel (Broadcast.apply op value right) rest

def execute (fuel : Nat) : (k : Kind) × Node k → Eval Unit
  | ⟨_, node⟩ => (node.eval fuel).discard

/-- Runs statements for their effects, in order. -/
def executeAll (fuel : Nat) : List ((k : Kind) × Node k) → Eval Unit
  | [] => pure ()
  | first :: rest => do
    execute fuel first
    executeAll fuel rest

/-- Runs a statement and gives its value, which is NaN unless the statement is a scalar. -/
def evalScalar (fuel : Nat) : (k : Kind) × Node k → Eval Float
  | ⟨.scalar, node⟩ => node.eval fuel
  | ⟨.string, node⟩ => do
    (node.eval fuel).discard
    pure Number.nan
  | ⟨.vector, node⟩ => do
    (node.eval fuel).discard
    pure Number.nan

end

attribute [simp] Node.eval Operand.eval evalChain evalCases evalAll evalParts evalElementwise execute
  executeAll evalScalar

end LiveExpr
