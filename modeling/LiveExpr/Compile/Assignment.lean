import LiveExpr.Compile.Operation
import LiveExpr.Compile.Symbol

/-!
Assignments, declarations and references: the nodes that hold cells.
-/

namespace LiveExpr.Compile

/-! ## References -/

/-- The node that reads a binding. With folding, a constant is replaced by its value. -/
def reference (settings : Settings) (word : Lexeme) (rest : List Lexeme) : Option Binding → Compile AnyNode
  | none => pure placeholder
  | some (.scalar cell constant) => view fun progress =>
    .scalar (if constant && settings.folding then .constant (progress.world.store.number cell)
      else .variable cell)
  | some (.string cell constant) => view fun progress =>
    .string (if constant && settings.folding then .literal (progress.world.store.string cell)
      else .stringVariable cell)
  | some (.vector cell) => pure (.vector (.vectorVariable cell))
  | some (.function _) => halt (.bareFunction word.text) (.ofNext rest) rest

/-! ## Assignments -/

/-- The operator that an assignment sign combines with. -/
def compound (sign : Lexeme) : Option BinaryOperator :=
  match sign.token with
  | .fixed terminal => terminal.assignment?.join
  | _ => none

/-- An assignment of a value, which starts at `start`, to what a name is bound to. -/
def assignment (word sign : Lexeme) (target : Option Binding) (start : Place) (value : AnyNode) :
    Compile AnyNode :=
  let op := compound sign
  match target with
  | none => pure placeholder
  | some (.scalar _ true) => failed (.constantTarget word.text) (.lexeme word)
  | some (.string _ true) => failed (.constantTarget word.text) (.lexeme word)
  | some (.scalar cell false) => do
    let value ← requireScalar .assignedValue start value
    pure (.scalar (.assign cell op value))
  | some (.string cell false) =>
    if op.any (· != .add) then failed (.stringAssignment sign.text) (.lexeme sign)
    else do
      let value ← requireString .assignedValue start value
      pure (.string (.stringAssign cell op.isSome value))
  | some (.vector cell) =>
    match value with
    | ⟨.vector, value⟩ => pure (.vector (.vectorAssign cell op (.vector value)))
    | ⟨.scalar, value⟩ => pure (.vector (.vectorAssign cell op (.scalar value)))
    | ⟨.string, _⟩ => failed (.stringIntoVector word.text) start
  | some (.function _) => failed (.functionTarget word.text) (.lexeme word)

/-- An assignment to an element of the vector that a name is bound to. -/
def elementAssignment (word sign : Lexeme) (target : Option Binding) (start : Place)
    (index value : AnyNode) : Compile AnyNode :=
  match target with
  | none => pure placeholder
  | some (.vector cell) => do
    let index ← requireScalar .index start index
    let value ← requireScalar .elementValue (.lexeme word) value
    pure (.scalar (.assignElement cell index (compound sign) value))
  | some _ => failed (.notVector word.text) (.lexeme word)

/-! ## Declarations

The cell of a declared variable is allocated once, and every evaluation gives it its first content anew.
-/

/-- A scalar or string, by the kind of its first value. -/
def declaration (allowed : Bool) (word : Lexeme) (start : Place) : AnyNode → Compile AnyNode
  | ⟨.scalar, value⟩ => do
    let cell ← allocate (·.newNumber 0.0)
    declare allowed word.text (.scalar cell false)
    pure (.scalar (.assign cell none value))
  | ⟨.string, value⟩ => do
    let cell ← allocate (·.newString [])
    declare allowed word.text (.string cell false)
    pure (.string (.stringAssign cell false value))
  | ⟨.vector, _⟩ => failed (.unsizedVector word.text) start

def listedVector (allowed : Bool) (word : Lexeme) (size : Nat) (bracket : Lexeme)
    (elements : List (Node .scalar)) : Compile AnyNode := do
  if size < elements.length then
    report (.tooManyElements elements.length word.text size) (.lexeme bracket)
  let cell ← allocate (·.newVector (List.replicate size 0.0))
  declare allowed word.text (.vector cell)
  pure (.vector (.reset cell elements false))

/-- The node that fills a vector with a scalar, or with the leading elements of a vector and zeros after
them. -/
def filling (word : Lexeme) (cell : VectorCell) (start : Place) : AnyNode → Compile (Node .vector)
  | ⟨.scalar, value⟩ => pure (.reset cell [value] true)
  | ⟨.vector, value⟩ =>
    pure (.sequence [AnyNode.vector (.reset cell [] false)] (.vectorAssign cell none (.vector value)))
  | ⟨.string, _⟩ => do
    report (.vectorFromString word.text) start
    pure (.reset cell [] false)

def filledVector (allowed : Bool) (word : Lexeme) (size : Nat) (start : Place) (value : AnyNode) :
    Compile AnyNode := do
  let cell ← allocate (·.newVector (List.replicate size 0.0))
  let node ← filling word cell start value
  declare allowed word.text (.vector cell)
  pure (.vector node)

end LiveExpr.Compile
