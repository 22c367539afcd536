import LiveExpr.Compile.Program
import LiveExpr.Proofs.Compile.Parallel
import LiveExpr.Proofs.Node.WellFormed

/-!
Relations between the graphs of two compilations. The compilations are made against one table and one resolver
with settings of their own. A relation that every way of making a node keeps relates all that they make.
-/

namespace LiveExpr

abbrev NodeRelation : Type :=
  (k : Kind) → Node k → Node k → Prop

inductive AnyNode.Related (relation : NodeRelation) : AnyNode → AnyNode → Prop
  | intro {k : Kind} {left right : Node k} (related : relation k left right) :
      Related relation ⟨k, left⟩ ⟨k, right⟩

inductive Operand.Related (relation : NodeRelation) : Operand → Operand → Prop
  | vector {left right : Node .vector} (related : relation .vector left right) :
      Related relation (.vector left) (.vector right)
  | scalar {left right : Node .scalar} (related : relation .scalar left right) :
      Related relation (.scalar left) (.scalar right)

/-- Nodes that are made in one way from related nodes, and in a way in which the compiler makes nodes: what they
assign to is assignable. Loops and joined operands are not among them. -/
inductive Node.Alike (assignable : Binding → Prop) (relation : NodeRelation) : NodeRelation
  | constant (value : Float) : Alike assignable relation .scalar (.constant value) (.constant value)
  | unary (op : UnaryOperator) {left right : Node .scalar} (operand : relation .scalar left right) :
      Alike assignable relation .scalar (.unary op left) (.unary op right)
  | conditional {left right left₁ right₁ left₂ right₂ : Node .scalar}
      (condition : relation .scalar left right) (consequent : relation .scalar left₁ right₁)
      (alternative : relation .scalar left₂ right₂) :
      Alike assignable relation .scalar (.conditional left left₁ left₂) (.conditional right right₁ right₂)
  | choice {leftCases rightCases : List (Node .scalar × Node .scalar)} {left right : Node .scalar}
      (cases : List.Forall₂
        (fun one other => relation .scalar one.1 other.1 ∧ relation .scalar one.2 other.2)
        leftCases rightCases)
      (otherwise : relation .scalar left right) :
      Alike assignable relation .scalar (.choice leftCases left) (.choice rightCases right)
  | assign {cell : NumberCell} {op : Option BinaryOperator} {left right : Node .scalar}
      (compound : op.all BinaryOperator.isCompound = true) (value : relation .scalar left right)
      (target : assignable (.scalar cell false)) :
      Alike assignable relation .scalar (.assign cell op left) (.assign cell op right)
  | element {left right : Node .vector} {leftIndex rightIndex : Node .scalar}
      (vector : relation .vector left right) (index : relation .scalar leftIndex rightIndex) :
      Alike assignable relation .scalar (.element left leftIndex) (.element right rightIndex)
  | assignElement {cell : VectorCell} {op : Option BinaryOperator}
      {left right leftIndex rightIndex : Node .scalar}
      (compound : op.all BinaryOperator.isCompound = true) (index : relation .scalar leftIndex rightIndex)
      (value : relation .scalar left right) (target : assignable (.vector cell)) :
      Alike assignable relation .scalar (.assignElement cell leftIndex op left)
        (.assignElement cell rightIndex op right)
  | vectorSize {left right : Node .vector} (vector : relation .vector left right) :
      Alike assignable relation .scalar (.vectorSize left) (.vectorSize right)
  | stringLength {left right : Node .string} (string : relation .string left right) :
      Alike assignable relation .scalar (.stringLength left) (.stringLength right)
  | stringCompare {op : BinaryOperator} {left right left₁ right₁ : Node .string}
      (comparison : op.isComparison = true) (first : relation .string left right)
      (second : relation .string left₁ right₁) :
      Alike assignable relation .scalar (.stringCompare op left left₁)
        (.stringCompare op right right₁)
  | stringMatch (op : StringOperator) {left right left₁ right₁ : Node .string}
      (first : relation .string left right) (second : relation .string left₁ right₁) :
      Alike assignable relation .scalar (.stringMatch op left left₁) (.stringMatch op right right₁)
  | builtin {function : Builtin} {left right : List (Node .scalar)}
      (accepted : function.arity.accepts left.length = true)
      (arguments : List.Forall₂ (relation .scalar) left right) :
      Alike assignable relation .scalar (.builtin function left) (.builtin function right)
  | vectorAggregate (op : Aggregate) {left right : Node .vector} (vector : relation .vector left right) :
      Alike assignable relation .scalar (.vectorAggregate op left) (.vectorAggregate op right)
  | userCall {function : FunctionHandle} {left right : List (Node .scalar)}
      (counted : left.length = function.arity) (arguments : List.Forall₂ (relation .scalar) left right) :
      Alike assignable relation .scalar (.userCall function left) (.userCall function right)
  | literal (content : Bytes) :
      Alike assignable relation .string (.literal content) (.literal content)
  | substring {left right : Node .string} {left₁ right₁ left₂ right₂ : Node .scalar}
      (source : relation .string left right) (first : relation .scalar left₁ right₁)
      (last : relation .scalar left₂ right₂) :
      Alike assignable relation .string (.substring left left₁ left₂)
        (.substring right right₁ right₂)
  | stringConditional {left right : Node .scalar} {left₁ right₁ left₂ right₂ : Node .string}
      (condition : relation .scalar left right) (consequent : relation .string left₁ right₁)
      (alternative : relation .string left₂ right₂) :
      Alike assignable relation .string (.stringConditional left left₁ left₂)
        (.stringConditional right right₁ right₂)
  | stringAssign {cell : StringCell} (append : Bool) {left right : Node .string}
      (value : relation .string left right) (target : assignable (.string cell false)) :
      Alike assignable relation .string (.stringAssign cell append left)
        (.stringAssign cell append right)
  | negate {left right : Node .vector} (vector : relation .vector left right) :
      Alike assignable relation .vector (.negate left) (.negate right)
  | map (apply : Float → Float) {left right : Node .vector} (vector : relation .vector left right) :
      Alike assignable relation .vector (.map apply left) (.map apply right)
  | vectorAssign {cell : VectorCell} {op : Option BinaryOperator} {left right : Operand}
      (compound : op.all BinaryOperator.isCompound = true) (value : Operand.Related relation left right)
      (target : assignable (.vector cell)) :
      Alike assignable relation .vector (.vectorAssign cell op left)
        (.vectorAssign cell op right)
  | reset {cell : VectorCell} (fill : Bool) {left right : List (Node .scalar)}
      (values : List.Forall₂ (relation .scalar) left right) (target : assignable (.vector cell)) :
      Alike assignable relation .vector (.reset cell left fill) (.reset cell right fill)
  | sequence {k : Kind} {left right : List AnyNode} {leftResult rightResult : Node k}
      (statements : List.Forall₂ (AnyNode.Related relation) left right)
      (result : relation k leftResult rightResult) :
      Alike assignable relation k (.sequence left leftResult) (.sequence right rightResult)

/-! ## What is kept -/

def Environment.under (environment : Environment) (settings : Settings) : Environment :=
  { environment with settings := settings }

namespace Settings

/-- What a scalar comes to under the settings: with folding, what is constant is worked out. -/
def settle (settings : Settings) (store : Store) (node : Node .scalar) : Node .scalar :=
  if settings.folding then node.fold store else node

def settleString (settings : Settings) (store : Store) (node : Node .string) : Node .string :=
  if settings.folding then node.foldString store else node

/-- The node that reads a scalar: with folding, a constant is replaced by its value. -/
def numberNode (settings : Settings) (store : Store) (cell : NumberCell) (constant : Bool) :
    Node .scalar :=
  if constant && settings.folding then .constant (store.number cell) else .variable cell

def textNode (settings : Settings) (store : Store) (cell : StringCell) (constant : Bool) :
    Node .string :=
  if constant && settings.folding then .literal (store.string cell) else .stringVariable cell

end Settings

/-- A relation, in every state of a compilation from a world, between the nodes that one compilation makes and
those that another with other settings makes. It is kept by everything that makes a node. A node that could not
be made needs to be related to itself only where something is reported. -/
structure Correspondence (environment : Environment) (left right : Settings) (world : World) where
  Holds : Progress → NodeRelation
  later {before after : Progress} (reached : before.Reaches environment after) {k : Kind}
    {node other : Node k} (holds : Holds before k node other) : Holds after k node other
  missing {progress : Progress} (reached : (Progress.start world).Reaches environment progress)
    (reported : progress.reports ≠ []) (k : Kind) : Holds progress k .missing .missing
  number {progress : Progress} (reached : (Progress.start world).Reaches environment progress)
    {cell : NumberCell} {constant : Bool} (binds : progress.Binds environment (.scalar cell constant)) :
    Holds progress .scalar (left.numberNode progress.world.store cell constant)
      (right.numberNode progress.world.store cell constant)
  text {progress : Progress} (reached : (Progress.start world).Reaches environment progress)
    {cell : StringCell} {constant : Bool} (binds : progress.Binds environment (.string cell constant)) :
    Holds progress .string (left.textNode progress.world.store cell constant)
      (right.textNode progress.world.store cell constant)
  vector {progress : Progress} (reached : (Progress.start world).Reaches environment progress)
    {cell : VectorCell} (binds : progress.Binds environment (.vector cell)) :
    Holds progress .vector (.vectorVariable cell) (.vectorVariable cell)
  settle {progress : Progress} (reached : (Progress.start world).Reaches environment progress)
    {node other : Node .scalar} (holds : Holds progress .scalar node other) :
    Holds progress .scalar (left.settle progress.world.store node)
      (right.settle progress.world.store other)
  settleString {progress : Progress} (reached : (Progress.start world).Reaches environment progress)
    {node other : Node .string} (holds : Holds progress .string node other) :
    Holds progress .string (left.settleString progress.world.store node)
      (right.settleString progress.world.store other)
  operation {progress : Progress} (op : BinaryOperator) {node other node₁ other₁ : Node .scalar}
    (first : Holds progress .scalar node other) (second : Holds progress .scalar node₁ other₁) :
    Holds progress .scalar (.operation op node node₁) (.operation op other other₁)
  joined {progress : Progress} {node other node₁ other₁ : Node .string}
    (first : Holds progress .string node other) (second : Holds progress .string node₁ other₁) :
    Holds progress .string (.joined node node₁) (.joined other other₁)
  elementOperation {progress : Progress} {op : BinaryOperator} (arithmetic : op.isArithmetic = true)
    {operand other operand₁ other₁ : Operand} (first : Operand.Related (Holds progress) operand other)
    (second : Operand.Related (Holds progress) operand₁ other₁)
    (spans : (operand.isVector || operand₁.isVector) = true) :
    Holds progress .vector (.elementOperation op operand operand₁) (.elementOperation op other other₁)
  loop {progress : Progress} {start otherStart step otherStep body otherBody : AnyNode}
    {condition otherCondition : Node .scalar} (first : AnyNode.Related (Holds progress) start otherStart)
    (second : Holds progress .scalar condition otherCondition)
    (third : AnyNode.Related (Holds progress) step otherStep)
    (fourth : AnyNode.Related (Holds progress) body otherBody) :
    Holds progress .scalar (.loop start condition step body left.loopLimit)
      (.loop otherStart otherCondition otherStep otherBody right.loopLimit)
  alike {progress : Progress} {k : Kind} {node other : Node k}
    (alike : Node.Alike (progress.Assignable environment world) (Holds progress) k node other) :
    Holds progress k node other

/-- Any two nodes correspond. What is left of a correspondence is the course of the compilations. -/
def Correspondence.any (environment : Environment) (left right : Settings) (world : World) :
    Correspondence environment left right world where
  Holds _ _ _ _ := True
  later _ _ _ _ _ := trivial
  missing _ _ _ := trivial
  number _ _ _ _ := trivial
  text _ _ _ _ := trivial
  vector _ _ _ := trivial
  settle _ _ _ _ := trivial
  settleString _ _ _ _ := trivial
  operation _ _ _ _ _ _ _ := trivial
  joined _ _ := trivial
  elementOperation _ _ _ _ _ _ _ _ := trivial
  loop _ _ _ _ := trivial
  alike _ := trivial

/-- The course of a single compilation. -/
abbrev Correspondence.course (environment : Environment) (world : World) :
    Correspondence environment environment.settings environment.settings world :=
  .any environment environment.settings environment.settings world

end LiveExpr
