import LiveExpr.Expression

/-!
Evaluation with a log. The log tells in order which cells were read, which were given a new content and which were
changed in part, and how many rounds each entry into a loop took. It is kept also where the rounds run out. Without its
log, the evaluation is the evaluation of the graph.
-/

namespace LiveExpr

open BinaryOperator (combine)

/-- A cell of any kind. -/
inductive Cell where
  | number (cell : NumberCell)
  | string (cell : StringCell)
  | vector (cell : VectorCell)
deriving DecidableEq, Repr

/-- What an evaluation does, apart from computing and from calling functions. -/
inductive Event where
  | reads (cell : Cell)
  /-- The cell gets a content in which nothing is left of the old one. -/
  | writes (cell : Cell)
  /-- Some elements of the vector are replaced. -/
  | alters (cell : VectorCell)
  /-- An entry into a loop has come to its end after so many rounds. -/
  | rounds (count : Nat)
deriving DecidableEq, Repr

/-- A computation on the store that keeps a log and may run out of rounds. -/
def Traced (α : Type) : Type :=
  Store → List Event × Option (α × Store)

namespace Traced

variable {α β : Type}

@[always_inline, inline]
instance : Monad Traced where
  pure value := fun store => ([], some (value, store))
  bind first next := fun store =>
    match first store with
    | (log, some (value, middle)) => (log ++ (next value middle).1, (next value middle).2)
    | (log, none) => (log, none)

theorem pure_apply (value : α) (store : Store) : (pure value : Traced α) store = ([], some (value, store)) := rfl

theorem bind_of_some {first : Traced α} {next : α → Traced β} {store middle : Store} {log : List Event} {value : α}
    (done : first store = (log, some (value, middle))) :
    (first >>= next) store = (log ++ (next value middle).1, (next value middle).2) := by
  change (match first store with
    | (log, some (value, middle)) => (log ++ (next value middle).1, (next value middle).2)
    | (log, none) => (log, none)) = _
  rw [done]

theorem bind_of_none {first : Traced α} {next : α → Traced β} {store : Store} {log : List Event}
    (stopped : first store = (log, none)) : (first >>= next) store = (log, none) := by
  change (match first store with
    | (log, some (value, middle)) => (log ++ (next value middle).1, (next value middle).2)
    | (log, none) => (log, none)) = _
  rw [stopped]

theorem returned_of_bind {first : Traced α} {next : α → Traced β} {store : Store}
    (returned : ((first >>= next) store).2.isSome = true) :
    ∃ log value middle, first store = (log, some (value, middle)) ∧ (next value middle).2.isSome = true := by
  rcases done : first store with ⟨log, _ | ⟨value, middle⟩⟩
  · rw [bind_of_none done] at returned
    cases returned
  · rw [bind_of_some done] at returned
    exact ⟨log, value, middle, rfl, returned⟩

def erase (computation : Traced α) : Eval α :=
  fun store => (computation store).2

def noting (events : Store → List Event) (computation : Eval α) : Traced α :=
  fun store => (events store, computation store)

/-- Runs a computation for its effects. -/
def discard (computation : Traced α) : Traced Unit := do
  let _ ← computation
  pure ()

/-! ## Cells -/

def number (cell : NumberCell) : Traced Float :=
  noting (fun _ => [.reads (.number cell)]) (Eval.read (·.number cell))

def string (cell : StringCell) : Traced Bytes :=
  noting (fun _ => [.reads (.string cell)]) (Eval.read (·.string cell))

def vector (cell : VectorCell) : Traced (List Float) :=
  noting (fun _ => [.reads (.vector cell)]) (Eval.read (·.vector cell))

/-- The events of giving a cell a new content, which the old one may enter into. -/
def replaces (cell : Cell) (compound : Bool) : List Event :=
  if compound then [.reads cell, .writes cell] else [.writes cell]

def assign (target : NumberCell) (op : Option BinaryOperator) (value : Float) : Traced Float :=
  noting (fun _ => replaces (.number target) op.isSome) do
    let old ← Eval.read (·.number target)
    let value := combine op old value
    Eval.change (·.setNumber target value)
    pure value

def assignString (target : StringCell) (append : Bool) (value : Bytes) : Traced Bytes :=
  noting (fun _ => replaces (.string target) append) do
    let old ← Eval.read (·.string target)
    let value := if append then old ++ value else value
    Eval.change (·.setString target value)
    pure value

/-- A position beyond the end is found out from the length of the vector, which is not logged. -/
def assignElement (target : VectorCell) (index : Float) (op : Option BinaryOperator) (value : Float) :
    Traced Float := fun store =>
  match (Number.toIndex? index).bind fun index => (store.vector target)[index]?.map (index, ·) with
  | none => ([], some (Number.nan, store))
  | some (index, old) =>
    let value := combine op old value
    (if op.isSome then [.reads (.vector target), .alters target] else [.alters target],
      some (value, store.setElement target index value))

/-- The value of the assignment is the content of the vector afterwards. -/
def assignVector (target : VectorCell) (op : Option BinaryOperator) (value : Broadcast) : Traced (List Float) :=
  noting
    (fun _ =>
      match op, value with
      | none, .same _ => [.writes (.vector target), .reads (.vector target)]
      | none, .each _ => [.alters target, .reads (.vector target)]
      | some _, _ => [.reads (.vector target), .alters target, .reads (.vector target)])
    do
      let old ← Eval.read (·.vector target)
      Eval.change (·.setVector target (value.assign op old))
      Eval.read (·.vector target)

def reset (target : VectorCell) (values : List Float) (fill : Bool) : Traced (List Float) :=
  noting (fun _ => [.writes (.vector target), .reads (.vector target)]) do
    let old ← Eval.read (·.vector target)
    Eval.change (·.setVector target (resetContent old.length values fill))
    Eval.read (·.vector target)

def call (function : FunctionHandle) (arguments : List Float) : Traced Float :=
  noting (fun _ => []) fun store => some (store.call function arguments)

/-! ## Loops -/

def repeatWhile (condition body : Traced Float) (step : Traced Unit) (limited : Bool) :
    (rounds : Nat) → (done : Nat) → (last : Float) → Traced Float
  | 0, done, last => fun store => if limited then ([.rounds done], some (last, store)) else ([], none)
  | rounds + 1, done, last => do
    if Number.isTrue (← condition) then
      let value ← body
      step
      repeatWhile condition body step limited rounds (done + 1) value
    else noting (fun _ => [.rounds done]) (pure last)

def loop (fuel : Nat) (condition body : Traced Float) (step : Traced Unit) (limit : Option Nat) : Traced Float :=
  repeatWhile condition body step limit.isSome (limit.getD fuel) 0 Number.nan

/-- Goes on from the value of the left operand, as `BinaryOperator.continueWith` does. -/
def continueWith (op : BinaryOperator) (left : Float) (right : Traced Float) : Traced Float :=
  match op.settled? left with
  | some value => pure value
  | none => do
    let right ← right
    pure (op.apply left right)

end Traced

/-! ## Nodes -/

mutual

/-- Evaluates a node and logs what it does. -/
def Node.trace (fuel : Nat) {k : Kind} : Node k → Traced k.Content
  | .constant value => pure value
  | .variable cell => Traced.number cell
  | .unary op operand => do
    let value ← operand.trace fuel
    pure (op.apply value)
  | .binary op left right => do
    let left ← left.trace fuel
    Traced.continueWith op left (right.trace fuel)
  | .chain first rest => do
    let first ← first.trace fuel
    traceChain fuel first rest
  | .conditional condition consequent alternative => do
    if Number.isTrue (← condition.trace fuel) then consequent.trace fuel else alternative.trace fuel
  | .choice cases otherwise => do
    match ← traceCases fuel cases with
    | some value => pure value
    | none => otherwise.trace fuel
  | .loop start condition step body limit => do
    traceStatement fuel start
    Traced.loop fuel (condition.trace fuel) (traceScalar fuel body) (traceStatement fuel step) limit
  | .assign target op value => do
    let value ← value.trace fuel
    Traced.assign target op value
  | .element vector index => do
    let index ← index.trace fuel
    match Number.toIndex? index with
    | none => pure Number.nan
    | some index => do
      let values ← vector.trace fuel
      pure (values[index]?.getD Number.nan)
  | .assignElement target index op value => do
    let index ← index.trace fuel
    let value ← value.trace fuel
    Traced.assignElement target index op value
  | .vectorSize vector => do
    let values ← vector.trace fuel
    pure (Float.ofNat values.length)
  | .stringLength string => do
    let bytes ← string.trace fuel
    pure (Float.ofNat bytes.length)
  | .stringCompare op left right => do
    let left ← left.trace fuel
    let right ← right.trace fuel
    pure (Number.ofBool (op.holds (some (Bytes.order left right))))
  | .stringMatch op left right => do
    let left ← left.trace fuel
    let right ← right.trace fuel
    pure (Number.ofBool (op.test left right))
  | .builtin function arguments =>
    if function.arity.accepts arguments.length then do
      let values ← traceAll fuel arguments
      pure (function.computation.apply values)
    else pure Number.nan
  | .vectorAggregate op vector => do
    let values ← vector.trace fuel
    pure (op.apply values)
  | .userCall function arguments => do
    let values ← traceAll fuel arguments
    Traced.call function values
  | .literal content => pure content
  | .stringVariable cell => Traced.string cell
  | .concat parts => traceParts fuel parts
  | .substring source first last => do
    let source ← source.trace fuel
    let first ← first.trace fuel
    let last ← last.trace fuel
    pure (Bytes.slice source (some first) (some last))
  | .stringConditional condition consequent alternative => do
    if Number.isTrue (← condition.trace fuel) then consequent.trace fuel else alternative.trace fuel
  | .stringAssign target append value => do
    let value ← value.trace fuel
    Traced.assignString target append value
  | .vectorVariable cell => Traced.vector cell
  | .negate vector => do
    let values ← vector.trace fuel
    pure (values.map (- ·))
  | .map apply vector => do
    let values ← vector.trace fuel
    pure (values.map apply)
  | .elementwise first rest => do
    let first ← first.trace fuel
    let value ← traceElementwise fuel first rest
    pure value.elements
  | .vectorAssign target op value => do
    let value ← value.trace fuel
    Traced.assignVector target op value
  | .reset target values fill => do
    let values ← traceAll fuel values
    Traced.reset target values fill
  | .sequence statements result => do
    traceStatements fuel statements
    result.trace fuel
  | @Node.missing kind => pure kind.blank

def Operand.trace (fuel : Nat) : Operand → Traced Broadcast
  | .vector vector => do
    let values ← vector.trace fuel
    pure (.each values)
  | .scalar scalar => do
    let value ← scalar.trace fuel
    pure (.same value)

def traceChain (fuel : Nat) (value : Float) : List (BinaryOperator × Node .scalar) → Traced Float
  | [] => pure value
  | (op, right) :: rest => do
    let value ← Traced.continueWith op value (right.trace fuel)
    traceChain fuel value rest

def traceCases (fuel : Nat) : List (Node .scalar × Node .scalar) → Traced (Option Float)
  | [] => pure none
  | (condition, value) :: rest => do
    if Number.isTrue (← condition.trace fuel) then
      let value ← value.trace fuel
      pure (some value)
    else traceCases fuel rest

def traceAll (fuel : Nat) : List (Node .scalar) → Traced (List Float)
  | [] => pure []
  | first :: rest => do
    let value ← first.trace fuel
    let values ← traceAll fuel rest
    pure (value :: values)

def traceParts (fuel : Nat) : List (Node .string) → Traced Bytes
  | [] => pure []
  | first :: rest => do
    let bytes ← first.trace fuel
    let more ← traceParts fuel rest
    pure (bytes ++ more)

def traceElementwise (fuel : Nat) (value : Broadcast) : List (BinaryOperator × Operand) → Traced Broadcast
  | [] => pure value
  | (op, right) :: rest => do
    let right ← right.trace fuel
    traceElementwise fuel (Broadcast.apply op value right) rest

def traceStatement (fuel : Nat) : (k : Kind) × Node k → Traced Unit
  | ⟨_, node⟩ => (node.trace fuel).discard

def traceStatements (fuel : Nat) : List ((k : Kind) × Node k) → Traced Unit
  | [] => pure ()
  | first :: rest => do
    traceStatement fuel first
    traceStatements fuel rest

def traceScalar (fuel : Nat) : (k : Kind) × Node k → Traced Float
  | ⟨.scalar, node⟩ => node.trace fuel
  | ⟨.string, node⟩ => do
    (node.trace fuel).discard
    pure Number.nan
  | ⟨.vector, node⟩ => do
    (node.trace fuel).discard
    pure Number.nan

end

/-- Evaluates a node of any kind and logs what it does. -/
def AnyNode.trace (fuel : Nat) (node : AnyNode) : Traced Value := do
  let content ← node.2.trace fuel
  pure (Value.ofContent node.1 content)

attribute [simp] Node.trace Operand.trace traceChain traceCases traceAll traceParts traceElementwise traceStatement
  traceStatements traceScalar

/-! ## Without the log -/

namespace Traced

variable {α β : Type}

@[simp] theorem erase_pure (value : α) : (pure value : Traced α).erase = pure value := rfl

@[simp] theorem erase_noting (events : Store → List Event) (computation : Eval α) :
    (noting events computation).erase = computation := rfl

theorem erase_assignElement (target : VectorCell) (index : Float) (op : Option BinaryOperator) (value : Float) :
    (assignElement target index op value).erase = (do
      let values ← Eval.read (·.vector target)
      match (Number.toIndex? index).bind fun index => values[index]?.map (index, ·) with
      | none => pure Number.nan
      | some (index, old) => do
        let value := combine op old value
        Eval.change (·.setElement target index value)
        pure value) := by
  funext store
  unfold erase assignElement
  simp only [Eval.bind_apply, Eval.read]
  cases (Number.toIndex? index).bind fun index => (store.vector target)[index]?.map (index, ·) with
  | none => rfl
  | some found => rfl

@[simp] theorem erase_bind (first : Traced α) (next : α → Traced β) :
    (first >>= next).erase = first.erase >>= fun value => (next value).erase := by
  funext store
  rw [Eval.bind_apply]
  unfold erase
  rcases done : first store with ⟨log, _ | ⟨value, middle⟩⟩
  · rw [bind_of_none done]
  · rw [bind_of_some done]

theorem erase_ite (condition : Prop) [Decidable condition] (one other : Traced α) :
    (if condition then one else other).erase = if condition then one.erase else other.erase :=
  apply_ite erase condition one other

@[simp] theorem erase_discard (computation : Traced α) : computation.discard.erase = computation.erase.discard := by
  simp [discard, Eval.discard]

@[simp] theorem erase_repeatWhile (condition body : Traced Float) (step : Traced Unit) (limited : Bool)
    (rounds done : Nat) (last : Float) :
    (repeatWhile condition body step limited rounds done last).erase =
      Eval.repeatWhile condition.erase body.erase step.erase limited rounds last := by
  induction rounds generalizing done last with
  | zero =>
    funext store
    cases limited <;> rfl
  | succ rounds induction => simp [repeatWhile, Eval.repeatWhile, erase_ite, induction]

@[simp] theorem erase_loop (fuel : Nat) (condition body : Traced Float) (step : Traced Unit) (limit : Option Nat) :
    (loop fuel condition body step limit).erase = Eval.loop fuel condition.erase body.erase step.erase limit :=
  erase_repeatWhile ..

@[simp] theorem erase_continueWith (op : BinaryOperator) (left : Float) (right : Traced Float) :
    (continueWith op left right).erase = op.continueWith left right.erase := by
  unfold continueWith BinaryOperator.continueWith
  cases op.settled? left with
  | some value => rfl
  | none => simp

end Traced

mutual

/-- The log is all that sets the traced evaluation apart. -/
theorem Node.erase_trace (fuel : Nat) {k : Kind} : (node : Node k) → (node.trace fuel).erase = node.eval fuel
  | .constant _ | .variable _ | .literal _ | .stringVariable _ | .vectorVariable _ | .missing => rfl
  | .unary _ operand | .vectorSize operand | .stringLength operand | .vectorAggregate _ operand | .negate operand
  | .map _ operand | .assign _ _ operand | .stringAssign _ _ operand => by
    simp [operand.erase_trace fuel, Traced.assign, Traced.assignString]
  | .binary _ left right | .stringCompare _ left right | .stringMatch _ left right => by
    simp [left.erase_trace fuel, right.erase_trace fuel]
  | .chain first rest => by simp [first.erase_trace fuel, erase_traceChain fuel _ rest]
  | .conditional condition consequent alternative | .stringConditional condition consequent alternative => by
    simp [condition.erase_trace fuel, consequent.erase_trace fuel, alternative.erase_trace fuel, Traced.erase_ite]
  | .choice cases otherwise => by
    rw [Node.trace, Node.eval, Traced.erase_bind, erase_traceCases fuel cases]
    refine bind_congr fun value => ?_
    cases value with
    | some value => rfl
    | none => exact otherwise.erase_trace fuel
  | .loop start condition step body _ => by
    simp [erase_traceStatement fuel start, condition.erase_trace fuel, erase_traceStatement fuel step,
      erase_traceScalar fuel body]
  | .element vector index => by
    rw [Node.trace, Node.eval, Traced.erase_bind, index.erase_trace fuel]
    refine bind_congr fun value => ?_
    cases Number.toIndex? value with
    | none => rfl
    | some position => simp [vector.erase_trace fuel]
  | .assignElement _ index _ value => by
    rw [Node.trace, Node.eval, Traced.erase_bind, index.erase_trace fuel]
    refine bind_congr fun _ => ?_
    rw [Traced.erase_bind, value.erase_trace fuel]
    exact bind_congr fun _ => Traced.erase_assignElement _ _ _ _
  | .builtin _ arguments => by simp [erase_traceAll fuel arguments, Traced.erase_ite]
  | .userCall _ arguments => by
    rw [Node.trace, Node.eval, Traced.erase_bind, erase_traceAll fuel arguments]
    rfl
  | .concat parts => erase_traceParts fuel parts
  | .substring source first last => by
    simp [source.erase_trace fuel, first.erase_trace fuel, last.erase_trace fuel]
  | .elementwise first rest => by simp [first.erase_trace fuel, erase_traceElementwise fuel _ rest]
  | .vectorAssign _ _ value => by simp [value.erase_trace fuel, Traced.assignVector]
  | .reset _ values _ => by simp [erase_traceAll fuel values, Traced.reset]
  | .sequence statements result => by simp [erase_traceStatements fuel statements, result.erase_trace fuel]

theorem Operand.erase_trace (fuel : Nat) : (operand : Operand) → (operand.trace fuel).erase = operand.eval fuel
  | .vector vector => by simp [vector.erase_trace fuel]
  | .scalar scalar => by simp [scalar.erase_trace fuel]

theorem erase_traceChain (fuel : Nat) (value : Float) :
    (rest : List (BinaryOperator × Node .scalar)) → (traceChain fuel value rest).erase = evalChain fuel value rest
  | [] => rfl
  | (_, right) :: rest => by simp [right.erase_trace fuel, erase_traceChain fuel _ rest]

theorem erase_traceCases (fuel : Nat) :
    (cases : List (Node .scalar × Node .scalar)) → (traceCases fuel cases).erase = evalCases fuel cases
  | [] => rfl
  | (condition, value) :: rest => by
    simp [condition.erase_trace fuel, value.erase_trace fuel, erase_traceCases fuel rest, Traced.erase_ite]

theorem erase_traceAll (fuel : Nat) :
    (nodes : List (Node .scalar)) → (traceAll fuel nodes).erase = evalAll fuel nodes
  | [] => rfl
  | first :: rest => by simp [first.erase_trace fuel, erase_traceAll fuel rest]

theorem erase_traceParts (fuel : Nat) :
    (parts : List (Node .string)) → (traceParts fuel parts).erase = evalParts fuel parts
  | [] => rfl
  | first :: rest => by simp [first.erase_trace fuel, erase_traceParts fuel rest]

theorem erase_traceElementwise (fuel : Nat) (value : Broadcast) : (rest : List (BinaryOperator × Operand)) →
    (traceElementwise fuel value rest).erase = evalElementwise fuel value rest
  | [] => rfl
  | (_, right) :: rest => by simp [right.erase_trace fuel, erase_traceElementwise fuel _ rest]

theorem erase_traceStatement (fuel : Nat) :
    (node : (k : Kind) × Node k) → (traceStatement fuel node).erase = execute fuel node
  | ⟨_, node⟩ => by simp [node.erase_trace fuel]

theorem erase_traceStatements (fuel : Nat) :
    (nodes : List ((k : Kind) × Node k)) → (traceStatements fuel nodes).erase = executeAll fuel nodes
  | [] => rfl
  | first :: rest => by
    rw [traceStatements, executeAll, Traced.erase_bind, erase_traceStatement fuel first,
      erase_traceStatements fuel rest]

theorem erase_traceScalar (fuel : Nat) :
    (node : (k : Kind) × Node k) → (traceScalar fuel node).erase = evalScalar fuel node
  | ⟨.scalar, node⟩ => node.erase_trace fuel
  | ⟨.string, node⟩ => by simp [node.erase_trace fuel]
  | ⟨.vector, node⟩ => by simp [node.erase_trace fuel]

end

theorem AnyNode.erase_trace (fuel : Nat) (node : AnyNode) : (node.trace fuel).erase = node.evaluate fuel := by
  rw [trace, evaluate, Traced.erase_bind, node.2.erase_trace fuel]
  rfl

/-! ## Expressions -/

namespace Expression

/-- Evaluates an expression and logs what that does. -/
def trace (fuel : Nat) (expression : Expression) : Traced Value :=
  match expression.compiled with
  | some compiled => compiled.root.trace fuel
  | none => pure (.number Number.nan)

/-- What the evaluation of an expression does. -/
def log (fuel : Nat) (expression : Expression) (store : Store) : List Event :=
  (expression.trace fuel store).1

theorem erase_trace (fuel : Nat) (expression : Expression) :
    (expression.trace fuel).erase = expression.evaluate fuel := by
  unfold trace evaluate
  cases expression.compiled with
  | some compiled => exact compiled.root.erase_trace fuel
  | none => rfl

end Expression

end LiveExpr
