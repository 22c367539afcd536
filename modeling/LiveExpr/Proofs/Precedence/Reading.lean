import LiveExpr.Proofs.Compile.Grammar
import LiveExpr.Proofs.Precedence.Meaning
import LiveExpr.Proofs.Precedence.Writing

/-!
Written formulas are read to trees that mean them: by induction on how they are written. A run of operators is read
step by step, and what has been read so far means the formula of its steps, which group to the left.
-/

namespace LiveExpr

open Grammar (Bounds Derives Dialect Level Phrase Stops operatorOf? signedBy)

namespace Formula

variable (bounds : Bounds) (scope : Scope)

/-- Whether the lexemes are taken as steps of a run behind the first formula, and come to the second one. -/
inductive Follows (level : Level) : Formula → Formula → List Lexeme → Prop
  | none (formula : Formula) : Follows level formula formula []
  | step {left right result : Formula} {op : BinaryOperator} {sign : Lexeme} {part rest : List Lexeme}
      (spelled : operatorOf? level.operators sign = some op)
      (operand : bounds.Takes .documented (scope.Means right) level.operand part)
      (more : Follows level (.binary op left right) result rest) : Follows level left result (sign :: (part ++ rest))

/-- Whether the lexemes are taken as a phrase, to a tree that means the formula. A run is taken as its first operand
with steps behind it. -/
def TakenAs : Phrase → Formula → List Lexeme → Prop
  | .run level, formula, lexemes => ∃ first part rest,
    bounds.Takes .documented (scope.Means first) level.operand part ∧ Follows bounds scope level first formula rest ∧
      lexemes = part ++ rest
  | phrase, formula, lexemes => bounds.Takes .documented (scope.Means formula) phrase lexemes

variable {bounds scope} {level : Level} {lexemes : List Lexeme}

/-! ## Runs -/

theorem Follows.concat {left middle right : Formula} {op : BinaryOperator} {sign : Lexeme} {part : List Lexeme}
    (follows : Follows bounds scope level left middle lexemes) (spelled : operatorOf? level.operators sign = some op)
    (operand : bounds.Takes .documented (scope.Means right) level.operand part) :
    Follows bounds scope level left (.binary op middle right) (lexemes ++ sign :: part) := by
  induction follows with
  | none formula =>
    have last := Follows.step spelled operand (.none (.binary op formula right))
    rw [List.append_nil] at last
    exact last
  | step earlier first _ induction =>
    have longer := Follows.step earlier first induction
    rw [← List.append_assoc] at longer
    exact longer

theorem Follows.derives {left result : Formula} (follows : Follows bounds scope level left result lexemes) :
    Derives .documented (.steps level) lexemes := by
  induction follows with
  | none => exact .noStep
  | step spelled operand _ induction => exact .step spelled operand.derived induction

/-- The steps are read behind those that have been found, and all of them together mean what the run comes to. -/
theorem Follows.gives {α : Type} {sign : Reader (Option (BinaryOperator × α))} (isSign : level.IsSign sign)
    {first left result : Formula} (follows : Follows bounds scope level left result lexemes) (depth count : Nat)
    (found : List ((BinaryOperator × α) × Tree)) (soFar : List ((BinaryOperator × α) × Tree) → Tree)
    (rest : List Lexeme) (deep : lexemes.length ≤ depth) (short : lexemes.length ≤ bounds.bound)
    (rounds : lexemes.length ≤ count) (means : scope.MeansRun first found.reverse left)
    (stops : Stops level.rank rest) :
    (Grammar.operators sign (level.operand.reader (bounds.inner depth)) soFar count found).Gives
      (fun run => scope.MeansRun first run result) (lexemes ++ rest) rest := by
  induction follows generalizing count found with
  | none formula => exact Grammar.gives_noStep isSign stops _ soFar count means
  | @step left right result op spelling part others spelled operand more induction =>
    simp only [List.length_cons, List.length_append] at deep short rounds
    cases count with
    | zero => omega
    | succ count =>
      have next : Stops (level.rank - 1) (others ++ rest) := Grammar.stops_steps more.derives stops level.rank_pred_lt
      have taken : (level.operand.reader (bounds.inner depth)).Gives (scope.Means right)
          (part ++ (others ++ rest)) (others ++ rest) := operand.operandOf (by omega) (by omega) next
      rw [List.cons_append, List.append_assoc]
      refine Grammar.gives_step isSign spelled taken fun detail tree meansOperand => ?_
      refine induction count _ (by omega) (by omega) (by omega) ?_
      rw [List.reverse_cons]
      exact means.concat op detail meansOperand

theorem gives_run {α : Type} {sign : Reader (Option (BinaryOperator × α))} (isSign : level.IsSign sign)
    {make : Tree → List ((BinaryOperator × α) × Tree) → Tree} {first result : Formula}
    (made : ∀ {tree run}, scope.Means first tree → scope.MeansRun first run result → scope.Means result (make tree run))
    {part steps : List Lexeme} (operand : bounds.Takes .documented (scope.Means first) level.operand part)
    (follows : Follows bounds scope level first result steps) {depth : Nat}
    (deep : (part ++ steps).length ≤ depth + 1) (short : (part ++ steps).length ≤ bounds.bound) {rest : List Lexeme}
    (stops : Stops level.rank rest) :
    (Grammar.run bounds.bound sign (level.operand.reader (bounds.inner depth)) make).Gives (scope.Means result)
      (part ++ steps ++ rest) rest := by
  have some := operand.length_pos_operand
  have next : Stops (level.rank - 1) (steps ++ rest) := Grammar.stops_steps follows.derives stops level.rank_pred_lt
  rw [List.length_append] at deep short
  rw [List.append_assoc]
  refine Grammar.gives_run (operand.operandOf (by omega) (by omega) next) fun leftmost means => ?_
  refine (follows.gives isSign depth bounds.bound [] (make leftmost) rest (by omega) (by omega) (by omega) (.nil first)
    stops).imp fun run meansRun => ?_
  cases meansRun with
  | nil => exact means
  | cons detail other more => exact made means (.cons detail other more)

theorem takes_run {first result : Formula} {part steps : List Lexeme}
    (operand : bounds.Takes .documented (scope.Means first) level.operand part)
    (follows : Follows bounds scope level first result steps) :
    bounds.Takes .documented (scope.Means result) (.run level) (part ++ steps) where
  derived := .run operand.derived follows.derives
  gives depth rest deep short stops := by
    have arithmetic := gives_run (Grammar.isSign_arithmeticSign level) Scope.means_arithmetic operand follows deep short
      stops
    have logical (start : Place) := gives_run (Grammar.isSign_logicalSign level) (Scope.means_logical start) operand
      follows deep short stops
    cases level with
    | product => exact arithmetic
    | sum => exact arithmetic
    | conjunction => exact Reader.Gives.place.bind fun start _ => logical start
    | exclusion => exact Reader.Gives.place.bind fun start _ => logical start
    | disjunction => exact Reader.Gives.place.bind fun start _ => logical start

theorem TakenAs.takes {phrase : Phrase} {formula : Formula} (taken : TakenAs bounds scope phrase formula lexemes) :
    bounds.Takes .documented (scope.Means formula) phrase lexemes := by
  cases phrase with
  | run level =>
    rcases taken with ⟨first, part, rest, operand, follows, rfl⟩
    exact takes_run operand follows
  | _ => exact taken

/-! ## Other phrases -/

theorem takes_constant {word : Lexeme} {value : Float} (spelled : word.token.constant? = some value) :
    bounds.Takes .documented (scope.Means (.constant value)) .primary [word] := by
  rcases word with ⟨token, text, position⟩
  cases token with
  | number found =>
    cases spelled
    exact ⟨.literal rfl, fun _ _ _ _ _ => ⟨.number value, rfl, Scope.means_constant value⟩⟩
  | fixed terminal =>
    cases terminal with
    | trueWord =>
      cases spelled
      exact ⟨.literal rfl, fun _ _ _ _ _ => ⟨.number 1.0, rfl, Scope.means_constant 1.0⟩⟩
    | falseWord =>
      cases spelled
      exact ⟨.literal rfl, fun _ _ _ _ _ => ⟨.number 0.0, rfl, Scope.means_constant 0.0⟩⟩
    | _ => cases spelled
  | _ => cases spelled

theorem isSign_of_unaryOperator? {token : Token} {op : UnaryOperator} (spelled : token.unaryOperator? = some op) :
    token.isSign = true := by
  cases token with
  | fixed terminal => cases terminal <;> first | rfl | cases spelled
  | _ => cases spelled

theorem means_signedBy {sign : Lexeme} {op : UnaryOperator} (spelled : sign.token.unaryOperator? = some op)
    (start : Place) {operand : Formula} {tree : Tree} (means : scope.Means operand tree) :
    scope.Means (.unary op operand) (signedBy sign start tree) := by
  rcases sign with ⟨token, text, position⟩
  cases token with
  | fixed terminal =>
    cases terminal with
    | minus =>
      cases spelled
      exact Scope.means_negation means
    | bang | notWord =>
      cases spelled
      exact Scope.means_denial means
    | _ => cases spelled
  | _ => cases spelled

theorem isRelation_of_isComparison {sign : Lexeme} {op : BinaryOperator}
    (spelled : sign.token.binaryOperator? = some op) (compares : op.isComparison = true) : sign.isRelation = true := by
  rcases sign with ⟨token, text, position⟩
  cases token with
  | fixed terminal =>
    have isComparison : terminal.binaryOperator?.any BinaryOperator.isComparison = true := by
      rw [show terminal.binaryOperator? = some op from spelled]
      exact compares
    change (terminal.stringOperator?.isSome || terminal.binaryOperator?.any BinaryOperator.isComparison) = true
    rw [isComparison, Bool.or_true]
  | _ => cases spelled

theorem isName_of_name {token : Token} {name : String} (spelled : token = .name name) : token.isName = true := by
  rw [spelled]
  rfl

/-! ## Formulas -/

/-- Whether formulas may use the name: it is bound to its cell, and it is no function that is built in. -/
def Usable (scope : Scope) (name : String) : Prop :=
  scope.Binds name ∧ Builtin.find? name = none

theorem takenAs_of_writes {phrase : Phrase} {formula : Formula} (written : Writes phrase formula lexemes)
    (usable : ∀ name ∈ formula.names, Usable scope name) : TakenAs bounds scope phrase formula lexemes := by
  induction written with
  | constant spelled => exact takes_constant spelled
  | @«variable» word spelled =>
    have binds := usable word.text (List.mem_singleton.mpr rfl)
    refine .name (isName_of_name spelled) trivial (fun name same => ?_) (Scope.means_variable binds.1)
    rw [spelled] at same
    cases same
    exact binds.2
  | parentheses opened _ closed inside => exact .parenthesized opened (inside usable).takes closed
  | base _ primary =>
    have taken := Grammar.Bounds.Takes.base (primary usable).takes .none
    rw [List.append_nil] at taken
    exact taken
  | raised _ spelled _ primary operand =>
    rw [names, List.forall_mem_append] at usable
    exact .raised (primary usable.1).takes .none spelled (operand usable.2).takes fun base exponent =>
      Scope.means_arithmetic base (.cons _ exponent (.nil _))
  | signed spelled _ behind =>
    exact .signed (isSign_of_unaryOperator? spelled) (behind usable).takes fun start => means_signedBy spelled start
  | unsigned _ power => exact .unsigned (power usable).takes
  | @single level formula lexemes _ operand =>
    exact ⟨formula, lexemes, [], (operand usable).takes, .none formula, (List.append_nil _).symm⟩
  | step _ spelled _ run operand =>
    rw [names, List.forall_mem_append] at usable
    rcases run usable.1 with ⟨first, part, rest, taken, follows, rfl⟩
    exact ⟨first, part, _, taken, follows.concat spelled (operand usable.2).takes, List.append_assoc ..⟩
  | unrelated _ sum => exact .unrelated (sum usable).takes
  | related _ spelled compares _ sum other =>
    rw [names, List.forall_mem_append] at usable
    exact .related (sum usable.1).takes (isRelation_of_isComparison spelled compares) (other usable.2).takes
      (Scope.means_relation spelled)
  | unconditional _ disjunction => exact .unconditional (disjunction usable).takes
  | chosen _ asked _ separated _ disjunction branch other =>
    rw [names, List.forall_mem_append, List.forall_mem_append] at usable
    exact .chosen (disjunction usable.1).takes asked (branch usable.2.1).takes separated (other usable.2.2).takes
      fun _ _ => Scope.means_conditional
  | unassigned _ conditional => exact .unassigned (conditional usable).takes
  | assigned spelled assigned _ behind =>
    rw [names, List.forall_mem_cons] at usable
    exact .assigned (isName_of_name spelled) (Lexeme.of_is assigned rfl) (behind usable.2).takes fun start =>
      Scope.means_assignment usable.1.1 assigned start

end Formula

/-! ## Programs -/

theorem Compilation.ofSource_of_program {environment : Environment} {world : World} {source : String}
    {lexemes : List Lexeme} {root : AnyNode} (tokenized : tokenize source = .ok lexemes)
    (comes : Compile.program environment lexemes (.start world) = (some root, .start world)) :
    ofSource environment source world = ⟨some root, [], [], world⟩ := by
  unfold ofSource
  rw [tokenized]
  dsimp only
  rw [comes]
  rfl

namespace Compile

variable {environment : Environment} {world : World} {cell : String → NumberCell} {formula : Formula}

theorem program_of_gives {good : Tree → Prop} {lexemes : List Lexeme}
    (begins : Grammar.Begins Token.startsStatement lexemes)
    (gives : (Grammar.statement (Grammar.outermost environment.settings.maxDepth lexemes.length)).Gives good
      lexemes []) :
    ∃ tree, good tree ∧ ∀ root, tree.compile environment (.start world) = (.ok root, .start world) →
      program environment lexemes (.start world) = (some root, .start world) := by
  rcases gives with ⟨tree, read, holds⟩
  refine ⟨tree, holds, fun root compiled => ?_⟩
  have ended : Grammar.endedStatement (Grammar.outermost environment.settings.maxDepth lexemes.length) lexemes =
      .ok (tree, []) :=
    Reader.bind_of_ok read _
  have done : statement environment lexemes.length lexemes (.start world) = (.ok (root, []), .start world) := by
    rw [statement_of_ok ended, bind_of_ok compiled]
    rfl
  obtain ⟨count, length⟩ := Nat.exists_eq_succ_of_ne_zero (Nat.ne_of_gt begins.length_pos)
  have starts : startsWith .semicolon lexemes = false := by
    have apart : startsWith .semicolon (lexemes ++ []) = false := begins.startsWith_eq_false rfl []
    rw [List.append_nil] at apart
    exact apart
  unfold program
  rw [length] at done ⊢
  rw [statements_of_done starts begins.length_pos done, statements_of_semicolons _ _ _ (List.forall_mem_nil _)]
  rfl

theorem program_of_compile {dialect : Dialect} {good : Tree → Prop} {lexemes : List Lexeme}
    (takes : Bounds.Takes ⟨environment.settings.maxDepth, lexemes.length⟩ dialect good .assignment lexemes)
    (deep : lexemes.length ≤ environment.settings.maxDepth) :
    ∃ tree, good tree ∧ ∀ root, tree.compile environment (.start world) = (.ok root, .start world) →
      program environment lexemes (.start world) = (some root, .start world) := by
  have gives := takes.formula.gives _ [] deep (Nat.le_refl _) trivial
  rw [List.append_nil] at gives
  exact program_of_gives takes.formula.derived.begins gives

/-- A program of one written formula comes to a node that evaluates as the formula does, and nothing else happens. -/
theorem program_of_takes (scope : Scope) {lexemes : List Lexeme}
    (takes : Bounds.Takes ⟨scope.environment.settings.maxDepth, lexemes.length⟩ .documented (scope.Means formula)
      .assignment lexemes) (deep : lexemes.length ≤ scope.environment.settings.maxDepth) :
    ∃ node : Node .scalar, program scope.environment lexemes (.start scope.world) =
      (some (.scalar node), .start scope.world) ∧ node.Computes (formula.eval scope.cell) := by
  obtain ⟨tree, ⟨node, compiled, computes⟩, comes⟩ := program_of_compile takes deep
  exact ⟨node, comes _ compiled, computes⟩

/-- Precedence and associativity. A formula over variables that are bound can be written with the fewest parentheses,
and however it is written, the program is compiled without a report to a node that evaluates as the formula does, to the
same value and the same store. -/
theorem program_computes
    (bound : ∀ name ∈ formula.names,
      (world.table environment.table).lookup name = some (.scalar (cell name) false) ∧ Builtin.find? name = none) :
    formula.Writes .assignment (formula.lexemes 10) ∧
      ∀ lexemes, formula.Writes .assignment lexemes → lexemes.length < environment.settings.maxDepth →
        ∃ node : Node .scalar,
          program environment lexemes (.start world) = (some (.scalar node), .start world) ∧
            ∀ fuel store, node.eval fuel store = some (formula.eval cell store) := by
  refine ⟨formula.writes_lexemes 10, fun lexemes written deep => ?_⟩
  let scope : Scope := ⟨environment, world, cell⟩
  have taken : Formula.TakenAs ⟨environment.settings.maxDepth, lexemes.length⟩ scope .assignment formula lexemes :=
    Formula.takenAs_of_writes written bound
  obtain ⟨node, compiled, computes⟩ := program_of_takes scope taken.takes (Nat.le_of_lt deep)
  exact ⟨node, compiled, fun fuel store => congrFun (computes fuel) store⟩

def oneVariable : World :=
  ⟨.empty, ⟨#[SymbolTable.empty.insert "x" (.scalar ⟨0⟩ false)]⟩⟩

def leftDifference : Formula :=
  .assignment "x" (.binary .sub (.binary .sub (.constant 8.0) (.variable "x"))
    (.binary .pow (.constant 2.0) (.variable "x")))

/-- Differences are taken from left to right, behind the power. -/
theorem program_computes_leftDifference :
    (∀ name ∈ leftDifference.names, (oneVariable.table ⟨0⟩).lookup name = some (.scalar ⟨0⟩ false) ∧
      Builtin.find? name = none) ∧
    (leftDifference.lexemes 10).length < plainEnvironment.settings.maxDepth ∧
    ∃ node : Node .scalar,
      program plainEnvironment (leftDifference.lexemes 10) (.start oneVariable) =
        (some (.scalar node), .start oneVariable) ∧
        ∀ fuel store, node.eval fuel store = some (leftDifference.eval (fun _ => ⟨0⟩) store) := by
  have usable : ∀ name ∈ leftDifference.names,
      (oneVariable.table ⟨0⟩).lookup name = some (.scalar ⟨0⟩ false) ∧ Builtin.find? name = none := by
    have names : leftDifference.names = ["x", "x", "x"] := rfl
    rw [names]
    simp only [List.forall_mem_cons, List.not_mem_nil, false_implies, implies_true, and_true]
    exact ⟨⟨rfl, by decide⟩, ⟨rfl, by decide⟩, ⟨rfl, by decide⟩⟩
  have short : (leftDifference.lexemes 10).length < plainEnvironment.settings.maxDepth := by decide
  have computed := @program_computes plainEnvironment oneVariable (fun _ => ⟨0⟩) leftDifference usable
  exact ⟨usable, short, computed.2 _ computed.1 short⟩

end Compile

end LiveExpr
