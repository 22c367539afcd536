import LiveExpr.Proofs.Compile.Source
import LiveExpr.Proofs.Node.Congruence
import LiveExpr.Proofs.Node.Folding

/-!
Laws for the nodes of a graph. A property of single nodes that every way of making a node establishes holds all over the
graphs of compilations. Where something is reported nothing is claimed, since placeholders may stand in the graph.
-/

namespace LiveExpr

open AnyNode (Everywhere everywhere_iff)

/-- A property of the single nodes that a compilation from a world has made when it gets to a state. It says nothing of
constants, of loops and of what operands of scalars and strings are joined by. -/
structure GraphLaw (environment : Environment) (world : World) where
  Holds : Progress → AnyNode → Prop
  later {before after : Progress} (reached : before.Reaches environment after) {node : AnyNode}
    (holds : Holds before node) : Holds after node
  number {progress : Progress} (reached : (Progress.start world).Reaches environment progress) {cell : NumberCell}
    {constant : Bool} (binds : progress.Binds environment (.scalar cell constant)) :
    Holds progress (.scalar (.variable cell))
  text {progress : Progress} (reached : (Progress.start world).Reaches environment progress) {cell : StringCell}
    {constant : Bool} (binds : progress.Binds environment (.string cell constant)) :
    Holds progress (.string (.stringVariable cell))
  vector {progress : Progress} (reached : (Progress.start world).Reaches environment progress) {cell : VectorCell}
    (binds : progress.Binds environment (.vector cell)) : Holds progress (.vector (.vectorVariable cell))
  constant {progress : Progress} (value : Float) : Holds progress (.scalar (.constant value))
  literal {progress : Progress} (content : Bytes) : Holds progress (.string (.literal content))
  binary {progress : Progress} (op : BinaryOperator) (left right : Node .scalar) :
    Holds progress (.scalar (.binary op left right))
  chain {progress : Progress} (first : Node .scalar) (rest : List (BinaryOperator × Node .scalar)) :
    Holds progress (.scalar (.chain first rest))
  concat {progress : Progress} (parts : List (Node .string)) : Holds progress (.string (.concat parts))
  loop {progress : Progress} (start step body : AnyNode) (condition : Node .scalar) (limit : Option Nat) :
    Holds progress (.scalar (.loop start condition step body limit))
  elementOperation {progress : Progress} {op : BinaryOperator} (arithmetic : op.isArithmetic = true)
    {left right : Operand} (first : Holds progress left.node) (spans : (left.isVector || right.isVector) = true) :
    Holds progress (.vector (.elementOperation op left right))
  alike {progress : Progress} {relation : NodeRelation} {k : Kind} {node other : Node k}
    (alike : Node.Alike (progress.Assignable environment world) relation k node other) : Holds progress ⟨k, node⟩

namespace GraphLaw

variable {environment : Environment} {world : World} (law : GraphLaw environment world)

/-- Whether the law holds all over a node, unless something is reported. -/
def Obeys (progress : Progress) (k : Kind) (node _counterpart : Node k) : Prop :=
  progress.reports = [] → Everywhere (law.Holds progress) ⟨k, node⟩

variable {law} {progress : Progress}

theorem everywhere_operand {operand other : Operand}
    (related : Operand.Related (law.Obeys progress) operand other) (clean : progress.reports = []) :
    Everywhere (law.Holds progress) operand.node := by
  cases related with
  | vector obeys => exact obeys clean
  | scalar obeys => exact obeys clean

theorem obeys_elementOperation {op : BinaryOperator} (arithmetic : op.isArithmetic = true)
    {operand other operand₁ other₁ : Operand} (first : Operand.Related (law.Obeys progress) operand other)
    (second : Operand.Related (law.Obeys progress) operand₁ other₁)
    (spans : (operand.isVector || operand₁.isVector) = true) :
    law.Obeys progress .vector (.elementOperation op operand operand₁) (.elementOperation op other other₁) := by
  intro clean
  have inFirst := everywhere_operand first clean
  have here := law.elementOperation arithmetic (everywhere_iff.mp inFirst).1 spans
  exact Node.everywhere_elementOperation here inFirst (everywhere_operand second clean)

theorem obeys_loop {start otherStart step otherStep body otherBody : AnyNode} {condition otherCondition : Node .scalar}
    {limit otherLimit : Option Nat} (first : AnyNode.Related (law.Obeys progress) start otherStart)
    (second : law.Obeys progress .scalar condition otherCondition)
    (third : AnyNode.Related (law.Obeys progress) step otherStep)
    (fourth : AnyNode.Related (law.Obeys progress) body otherBody) :
    law.Obeys progress .scalar (.loop start condition step body limit)
      (.loop otherStart otherCondition otherStep otherBody otherLimit) := by
  intro clean
  rcases first with ⟨first⟩
  rcases third with ⟨third⟩
  rcases fourth with ⟨fourth⟩
  refine .intro (law.loop _ _ _ _ _) ?_
  simp only [Node.children, List.forall_mem_cons]
  exact ⟨first clean, second clean, third clean, fourth clean, List.forall_mem_nil _⟩

/-- The law is a correspondence of one graph with itself. -/
def correspondence (law : GraphLaw environment world) (settings : Settings) :
    Correspondence environment settings settings world where
  Holds := law.Obeys
  later reached _ _ _ obeys clean := by
    have earlier := Classical.byContradiction fun reported => reached.reports_ne_nil reported clean
    exact (obeys earlier).imp fun _ => law.later reached
  missing _ reported _ clean := absurd clean reported
  number reached _ constant binds _ := by
    unfold Settings.numberNode
    split
    · exact .intro (law.constant _) (List.forall_mem_nil _)
    · exact .intro (law.number reached binds) (List.forall_mem_nil _)
  text reached _ constant binds _ := by
    unfold Settings.textNode
    split
    · exact .intro (law.literal _) (List.forall_mem_nil _)
    · exact .intro (law.text reached binds) (List.forall_mem_nil _)
  vector reached _ binds _ := .intro (law.vector reached binds) (List.forall_mem_nil _)
  settle _ _ _ obeys clean := by
    unfold Settings.settle
    split
    · exact Node.everywhere_fold law.constant (obeys clean) _
    · exact obeys clean
  settleString _ _ _ obeys clean := by
    unfold Settings.settleString
    split
    · exact Node.everywhere_foldString law.literal (obeys clean) _
    · exact obeys clean
  operation _ _ _ _ _ first second clean :=
    (Node.everywhere_operation law.binary law.chain).mpr ⟨first clean, second clean⟩
  joined first second clean := (Node.everywhere_joined law.concat).mpr ⟨first clean, second clean⟩
  elementOperation arithmetic _ _ _ _ first second spans := obeys_elementOperation arithmetic first second spans
  loop := obeys_loop
  alike alike clean := alike.everywhere_left (fun obeys => obeys clean) (law.alike alike)

/-- The law holds all over what is made of a tree without a report. -/
theorem everywhere_tree (law : GraphLaw environment world) {lexemes : List Lexeme} {tree : Tree}
    (proper : tree.Proper lexemes) {before after : Progress} {node : AnyNode}
    (reached : (Progress.start world).Reaches environment before)
    (compiled : tree.compile environment before = (.ok node, after)) (clean : after.reports = []) :
    Everywhere (law.Holds after) node := by
  rcases (law.correspondence environment.settings).compile_eq_ok proper reached compiled with ⟨-, related⟩
  rcases related with ⟨obeys⟩
  exact obeys clean

/-- The law holds all over the graph of a source. -/
theorem everywhere_root (law : GraphLaw environment world) {source : String} {root : AnyNode}
    (compiled : (Compilation.ofSource environment source world).root = some root) :
    ∃ progress, (Progress.start world).Reaches environment progress ∧
      progress.world = (Compilation.ofSource environment source world).world ∧
      Everywhere (law.Holds progress) root := by
  have related := ((law.correspondence environment.settings).ofSource_agrees rfl source).root
  change Option.Rel _ (Compilation.ofSource environment source world).root
    (Compilation.ofSource environment source world).root at related
  rw [compiled] at related
  rcases related with ⟨⟨progress, reached, sameWorld, clean, obeys⟩⟩
  rcases obeys with ⟨obeys⟩
  exact ⟨progress, reached, sameWorld, obeys clean⟩

end GraphLaw

end LiveExpr
