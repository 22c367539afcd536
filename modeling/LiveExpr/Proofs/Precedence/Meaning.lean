import LiveExpr.Compile.Program
import LiveExpr.Proofs.Grammar.Taking
import LiveExpr.Proofs.Node.Folding
import LiveExpr.Proofs.Precedence.Formula

/-!
What trees mean. A tree means a formula if compiling it records nothing and comes to a node that evaluates as the
formula does, in any store, whether constants are folded or not.
-/

namespace LiveExpr

namespace Eval

/-- A computation on the store as an evaluation that always ends. -/
def ofState {α : Type} (computation : StateM Store α) : Eval α :=
  fun store => some (computation store)

theorem ofState_bind {α β : Type} (first : StateM Store α) (next : α → StateM Store β) :
    ofState (first >>= next) = ofState first >>= fun value => ofState (next value) :=
  rfl

end Eval

def Node.Computes (node : Node .scalar) (computation : StateM Store Float) : Prop :=
  ∀ fuel, node.eval fuel = Eval.ofState computation

namespace Compile

variable {world : World} {first second : StateM Store Float}

def ComesTo (world : World) (computation : StateM Store Float) (compile : Compile AnyNode) : Prop :=
  ∃ node : Node .scalar, compile (.start world) = (.ok (.scalar node), .start world) ∧ node.Computes computation

theorem ComesTo.bind {before : Compile AnyNode} {next : AnyNode → Compile AnyNode}
    (comes : before.ComesTo world first)
    (continued : ∀ node : Node .scalar, node.Computes first → (next (.scalar node)).ComesTo world second) :
    (before >>= next).ComesTo world second := by
  rcases comes with ⟨node, done, computes⟩
  unfold ComesTo
  rw [bind_of_ok done]
  exact continued node computes

theorem ComesTo.pure {node : Node .scalar} (computes : node.Computes first) :
    (Pure.pure (AnyNode.scalar node) : Compile AnyNode).ComesTo world first :=
  ⟨node, rfl, computes⟩

/-- Folding leaves what a node evaluates to. -/
theorem scalar_comesTo (settings : Settings) {node : Node .scalar} (unsized : node.sized? = none)
    (computes : node.Computes first) : (scalar settings node).ComesTo world first := by
  refine ⟨_, rfl, fun fuel => ?_⟩
  split
  · funext store
    rw [Node.eval_fold (fun cell sized => by rw [unsized] at sized; cases sized), computes]
  · exact computes fuel

/-! ## Operations -/

theorem negation_comesTo (settings : Settings) (sign : Lexeme) {node : Node .scalar} (computes : node.Computes first) :
    (negation settings sign (.scalar node)).ComesTo world (UnaryOperator.negate.apply <$> first) := by
  refine scalar_comesTo settings rfl fun fuel => ?_
  rw [Node.eval, computes]
  rfl

theorem denial_comesTo (settings : Settings) (start : Place) {node : Node .scalar} (computes : node.Computes first) :
    (denial settings start (.scalar node)).ComesTo world (UnaryOperator.not.apply <$> first) := by
  refine scalar_comesTo settings rfl fun fuel => ?_
  rw [Node.eval, computes]
  rfl

def continued (op : BinaryOperator) (first second : StateM Store Float) : Eval Float :=
  Eval.ofState first >>= fun value => op.continueWith value (Eval.ofState second)

theorem operation_comesTo (settings : Settings) {op : BinaryOperator} {left right : Node .scalar}
    {result : StateM Store Float} (computesLeft : left.Computes first) (computesRight : right.Computes second)
    (same : continued op first second = Eval.ofState result) :
    (scalar settings (.operation op left right)).ComesTo world result := by
  refine scalar_comesTo settings (Node.sized?_operation op left right) fun fuel => ?_
  rw [Node.eval_operation, computesLeft, computesRight]
  exact same

end Compile

/-! ## Formulas -/

theorem Token.stringOperator?_of_binaryOperator? {token : Token} {op : BinaryOperator}
    (spelled : token.binaryOperator? = some op) : token.stringOperator? = none := by
  cases token with
  | fixed terminal =>
    cases terminal with
    | inWord | likeWord | ilikeWord => cases spelled
    | _ => rfl
  | _ => rfl

theorem BinaryOperator.continueWith_and (value : Float) (right : Eval Float) :
    BinaryOperator.and.continueWith value right =
      if Number.isTrue value then right >>= fun second => pure (Number.ofBool (Number.isTrue second))
      else pure 0.0 := by
  unfold BinaryOperator.continueWith BinaryOperator.settled?
  cases isTrue : Number.isTrue value with
  | false => simp [isTrue]
  | true => simp [isTrue, BinaryOperator.apply, BinaryOperator.isArithmetic, BinaryOperator.isComparison,
      BinaryOperator.logic]

theorem BinaryOperator.continueWith_or (value : Float) (right : Eval Float) :
    BinaryOperator.or.continueWith value right =
      if Number.isTrue value then pure 1.0
      else right >>= fun second => pure (Number.ofBool (Number.isTrue second)) := by
  unfold BinaryOperator.continueWith BinaryOperator.settled?
  cases isTrue : Number.isTrue value with
  | false => simp [isTrue, BinaryOperator.apply, BinaryOperator.isArithmetic, BinaryOperator.isComparison,
      BinaryOperator.logic]
  | true => simp [isTrue]

/-- The left operand decides, or else the right one is evaluated behind it. -/
theorem Formula.eval_binary (cell : String → NumberCell) (op : BinaryOperator) (left right : Formula) :
    Compile.continued op (left.eval cell) (right.eval cell) =
      Eval.ofState ((Formula.binary op left right).eval cell) := by
  unfold Compile.continued
  cases op with
  | and =>
    rw [Formula.eval, Eval.ofState_bind]
    refine bind_congr fun value => ?_
    rw [BinaryOperator.continueWith_and]
    split <;> rfl
  | or =>
    rw [Formula.eval, Eval.ofState_bind]
    refine bind_congr fun value => ?_
    rw [BinaryOperator.continueWith_or]
    split <;> rfl
  | _ => rfl

/-- The surroundings of formulas: what they are compiled against, and the cells of their variables. -/
structure Scope where
  environment : Environment
  world : World
  cell : String → NumberCell

namespace Scope

variable (scope : Scope)

/-- Whether the name is bound to its cell, which is not constant. -/
def Binds (name : String) : Prop :=
  (scope.world.table scope.environment.table).lookup name = some (.scalar (scope.cell name) false)

def Means (formula : Formula) (tree : Tree) : Prop :=
  (tree.compile scope.environment).ComesTo scope.world (formula.eval scope.cell)

variable {scope}

theorem means_constant (value : Float) : scope.Means (.constant value) (.number value) :=
  .pure fun _ => rfl

theorem resolve_of_binds {word : Lexeme} (binds : scope.Binds word.text) :
    Compile.resolve scope.environment word (.start scope.world) =
      (.ok (some (.scalar (scope.cell word.text) false)), .start scope.world) := by
  have known : Compile.known? scope.environment word.text (.start scope.world) =
      (.ok (some (.scalar (scope.cell word.text) false)), .start scope.world) :=
    congrArg (fun found => (Except.ok found, Progress.start scope.world)) binds
  unfold Compile.resolve
  rw [Compile.bind_of_ok known]
  rfl

theorem means_variable {word : Lexeme} (binds : scope.Binds word.text) (rest : List Lexeme) :
    scope.Means (.variable word.text) (.name word rest) := by
  refine ⟨.variable (scope.cell word.text), ?_, fun _ => rfl⟩
  rw [Tree.compile, Compile.bind_of_ok (resolve_of_binds binds)]
  rfl

theorem means_assignment {word sign : Lexeme} (binds : scope.Binds word.text) (assigned : sign.is .assign = true)
    (start : Place) {value : Formula} {tree : Tree} (means : scope.Means value tree) :
    scope.Means (.assignment word.text value) (.assignment word sign start tree) := by
  have plain : Compile.compound sign = none := by
    unfold Compile.compound
    rw [Lexeme.token_of_is assigned]
    rfl
  rcases means with ⟨node, done, computes⟩
  refine ⟨.assign (scope.cell word.text) none node, ?_, fun fuel => ?_⟩
  · rw [Tree.compile, Compile.bind_of_ok (resolve_of_binds binds), Compile.bind_of_ok done, ← plain]
    rfl
  · rw [Node.eval, computes]
    rfl

theorem means_negation {sign : Lexeme} {operand : Formula} {tree : Tree} (means : scope.Means operand tree) :
    scope.Means (.unary .negate operand) (.negation sign tree) := by
  unfold Means
  rw [Tree.compile]
  exact means.bind fun _ computes => Compile.negation_comesTo _ sign computes

theorem means_denial {start : Place} {operand : Formula} {tree : Tree} (means : scope.Means operand tree) :
    scope.Means (.unary .not operand) (.denial start tree) := by
  unfold Means
  rw [Tree.compile]
  exact means.bind fun _ computes => Compile.denial_comesTo _ start computes

theorem means_relation {sign : Lexeme} {op : BinaryOperator} (spelled : sign.token.binaryOperator? = some op)
    {left right : Formula} {first second : Tree}
    (meansLeft : scope.Means left first) (meansRight : scope.Means right second) :
    scope.Means (.binary op left right) (.relation sign first second) := by
  have noTest : sign.token.stringOperator? = none := Token.stringOperator?_of_binaryOperator? spelled
  unfold Means
  rw [Tree.compile]
  refine meansLeft.bind fun leftNode computesLeft => ?_
  refine meansRight.bind fun rightNode computesRight => ?_
  unfold Compile.relation
  rw [noTest, spelled]
  exact Compile.operation_comesTo _ computesLeft computesRight (Formula.eval_binary scope.cell op left right)

theorem means_conditional {start branch : Place} {condition consequent alternative : Formula}
    {first second third : Tree}
    (meansCondition : scope.Means condition first) (meansConsequent : scope.Means consequent second)
    (meansAlternative : scope.Means alternative third) :
    scope.Means (.conditional condition consequent alternative) (.conditional start first branch second third) := by
  unfold Means
  rw [Tree.compile]
  refine meansCondition.bind fun conditionNode computesCondition => ?_
  refine Compile.ComesTo.bind meansConsequent fun consequentNode computesConsequent => ?_
  refine Compile.ComesTo.bind meansAlternative fun alternativeNode computesAlternative => ?_
  refine Compile.scalar_comesTo _ rfl fun fuel => ?_
  rw [Node.eval, computesCondition, computesConsequent, computesAlternative, Formula.eval, Eval.ofState_bind]
  refine bind_congr fun value => ?_
  split <;> rfl

/-! ## Runs of operators -/

variable (scope)

/-- Whether the steps of a run make the second formula of the first one, each joining its operand to what stands in
front of it. -/
inductive MeansRun {α : Type} : Formula → List ((BinaryOperator × α) × Tree) → Formula → Prop
  | nil (formula : Formula) : MeansRun formula [] formula
  | cons {left right result : Formula} {op : BinaryOperator} (detail : α) {tree : Tree}
      {rest : List ((BinaryOperator × α) × Tree)} (operand : scope.Means right tree)
      (more : MeansRun (.binary op left right) rest result) : MeansRun left (((op, detail), tree) :: rest) result

variable {scope} {α : Type}

theorem MeansRun.concat {left middle right : Formula} {steps : List ((BinaryOperator × α) × Tree)}
    (run : scope.MeansRun left steps middle) (op : BinaryOperator) (detail : α) {tree : Tree}
    (operand : scope.Means right tree) :
    scope.MeansRun left (steps ++ [((op, detail), tree)]) (.binary op middle right) := by
  induction run with
  | nil formula => exact .cons detail operand (.nil _)
  | cons earlier first _ induction => exact .cons earlier first induction

theorem compileArithmetic_comesTo {left result : Formula} {steps : List ((BinaryOperator × Lexeme) × Tree)}
    (run : scope.MeansRun left steps result) {node : Node .scalar} (computes : node.Computes (left.eval scope.cell)) :
    (compileArithmetic scope.environment (.scalar node) steps).ComesTo scope.world (result.eval scope.cell) := by
  induction run generalizing node with
  | nil formula => exact .pure computes
  | @cons left right result op detail tree rest operand more induction =>
    rw [compileArithmetic]
    refine operand.bind fun rightNode computesRight => ?_
    exact Compile.ComesTo.bind
      (Compile.operation_comesTo scope.environment.settings computes computesRight
        (Formula.eval_binary scope.cell op left right))
      fun _ computesJoined => induction computesJoined

theorem compileLogical_comesTo (start : Place) {left result : Formula} {steps : List ((BinaryOperator × Place) × Tree)}
    (run : scope.MeansRun left steps result) {node : Node .scalar} (computes : node.Computes (left.eval scope.cell)) :
    (compileLogical scope.environment start (.scalar node) steps).ComesTo scope.world (result.eval scope.cell) := by
  induction run generalizing node with
  | nil formula => exact .pure computes
  | @cons left right result op detail tree rest operand more induction =>
    rw [compileLogical]
    refine operand.bind fun rightNode computesRight => ?_
    exact Compile.ComesTo.bind
      (Compile.operation_comesTo scope.environment.settings computes computesRight
        (Formula.eval_binary scope.cell op left right))
      fun _ computesJoined => induction computesJoined

theorem means_arithmetic {left result : Formula} {tree : Tree} {steps : List ((BinaryOperator × Lexeme) × Tree)}
    (means : scope.Means left tree) (run : scope.MeansRun left steps result) :
    scope.Means result (.arithmetic tree steps) := by
  unfold Means
  rw [Tree.compile]
  exact means.bind fun _ computes => compileArithmetic_comesTo run computes

theorem means_logical (start : Place) {left result : Formula} {tree : Tree}
    {steps : List ((BinaryOperator × Place) × Tree)} (means : scope.Means left tree)
    (run : scope.MeansRun left steps result) : scope.Means result (.logical start tree steps) := by
  unfold Means
  rw [Tree.compile]
  exact means.bind fun _ computes => compileLogical_comesTo start run computes

end Scope

end LiveExpr
