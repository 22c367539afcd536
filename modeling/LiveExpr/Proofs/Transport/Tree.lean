import LiveExpr.Proofs.Transport.Compile

/-!
Trees in other sources. Two trees that are built in one way over lexemes and the moved lexemes compile to the same.
-/

namespace LiveExpr

open Compile (Carries)

def Tree.Carried (transport : Transport) (tree other : Tree) : Prop :=
  ∀ environment, Carries transport Eq (tree.compile environment) (other.compile environment)

namespace Tree.Carried

variable {transport : Transport}

abbrev Placed (transport : Transport) (one other : Place × Tree) : Prop :=
  other.1 = one.1.moved transport ∧ one.2.Carried transport other.2

/-! ## Operands -/

theorem number (value : Float) : (Tree.number value).Carried transport (.number value) :=
  fun _ => .pure rfl

theorem text (content : Bytes) : (Tree.text content).Carried transport (.text content) :=
  fun _ => .pure rfl

theorem name (word : Lexeme) {rest : List Lexeme} {brackets : List Terminal}
    (admitted : transport.Admits brackets rest) :
    (Tree.name word rest).Carried transport (.name (transport.move word) (transport.carry rest)) := by
  intro environment
  rw [Tree.compile, Tree.compile]
  exact (Compile.resolve_carries word).bind_same fun _ => Compile.reference_carries _ word admitted _

theorem compilePlaced {arguments others : List (Place × Tree)}
    (carried : List.Forall₂ (Placed transport) arguments others) (environment : Environment) :
    Carries transport (fun nodes others => others = Compile.placedElsewhere transport nodes)
      (LiveExpr.compilePlaced environment arguments) (LiveExpr.compilePlaced environment others) := by
  induction carried with
  | nil => exact .pure rfl
  | cons first _ induction =>
    rw [LiveExpr.compilePlaced, LiveExpr.compilePlaced, first.1]
    refine (first.2 environment).bind_same fun node => induction.bind ?_
    rintro nodes _ rfl
    exact .pure rfl

theorem call (word : Lexeme) {arguments others : List (Place × Tree)}
    (carried : List.Forall₂ (Placed transport) arguments others) {rest : List Lexeme}
    {brackets : List Terminal} (admitted : transport.Admits brackets rest) :
    (Tree.call word arguments rest).Carried transport
      (.call (transport.move word) others (transport.carry rest)) := by
  intro environment
  rw [Tree.compile, Tree.compile]
  refine (compilePlaced carried environment).bind ?_
  rintro nodes _ rfl
  exact Compile.call_carries word nodes admitted

theorem call_of_halts (word : Lexeme) {arguments others : List (Place × Tree)}
    (carried : List.Forall₂ (Placed transport) arguments others) (halts : ∃ one ∈ arguments, one.2.Halts)
    (rest otherRest : List Lexeme) :
    (Tree.call word arguments rest).Carried transport (.call (transport.move word) others otherRest) := by
  intro environment
  rw [Tree.compile, Tree.compile]
  exact (compilePlaced carried environment).bind_of_halts (Halts.compilePlaced halts environment) _ _

theorem size (bracket : Lexeme) {base other : Tree} (carried : base.Carried transport other) :
    (Tree.size bracket base).Carried transport (.size (transport.move bracket) other) := by
  intro environment
  rw [Tree.compile, Tree.compile]
  exact (carried environment).bind_same fun _ => Compile.size_carries _ bracket _

theorem element (bracket : Lexeme) {base other index otherIndex : Tree} (start : Place)
    (carried : base.Carried transport other) (indexed : index.Carried transport otherIndex) :
    (Tree.element bracket base start index).Carried transport
      (.element (transport.move bracket) other (start.moved transport) otherIndex) := by
  intro environment
  rw [Tree.compile, Tree.compile]
  refine (carried environment).bind_same fun _ => (indexed environment).bind_same fun _ => ?_
  exact Compile.element_carries bracket _ start _

theorem range (bracket : Lexeme) {base other first otherFirst last otherLast : Tree} (firstStart lastStart : Place)
    (carried : base.Carried transport other) (lower : first.Carried transport otherFirst)
    (upper : last.Carried transport otherLast) :
    (Tree.range bracket base firstStart first lastStart last).Carried transport
      (.range (transport.move bracket) other (firstStart.moved transport) otherFirst (lastStart.moved transport)
        otherLast) := by
  intro environment
  rw [Tree.compile, Tree.compile]
  refine (carried environment).bind_same fun _ => (lower environment).bind_same fun _ => ?_
  exact (upper environment).bind_same fun _ => Compile.range_carries _ bracket _ firstStart _ lastStart _

/-! ## Operators -/

theorem negation (sign : Lexeme) {operand other : Tree} (carried : operand.Carried transport other) :
    (Tree.negation sign operand).Carried transport (.negation (transport.move sign) other) := by
  intro environment
  rw [Tree.compile, Tree.compile]
  exact (carried environment).bind_same fun _ => Compile.negation_carries _ sign _

theorem affirmation (sign : Lexeme) {operand other : Tree} (carried : operand.Carried transport other) :
    (Tree.affirmation sign operand).Carried transport (.affirmation (transport.move sign) other) := by
  intro environment
  rw [Tree.compile, Tree.compile]
  exact (carried environment).bind_same fun _ => Compile.affirmation_carries sign _

theorem denial (start : Place) {operand other : Tree} (carried : operand.Carried transport other) :
    (Tree.denial start operand).Carried transport (.denial (start.moved transport) other) := by
  intro environment
  rw [Tree.compile, Tree.compile]
  exact (carried environment).bind_same fun _ => Compile.denial_carries _ start _

abbrev ArithmeticStep (transport : Transport) (one other : (BinaryOperator × Lexeme) × Tree) : Prop :=
  other.1 = (one.1.1, transport.move one.1.2) ∧ one.2.Carried transport other.2

theorem arithmetic {first other : Tree} {rest others : List ((BinaryOperator × Lexeme) × Tree)}
    (carried : first.Carried transport other) (steps : List.Forall₂ (ArithmeticStep transport) rest others) :
    (Tree.arithmetic first rest).Carried transport (.arithmetic other others) := by
  intro environment
  have run (node : AnyNode) : Carries transport Eq (compileArithmetic environment node rest)
      (compileArithmetic environment node others) := by
    induction steps generalizing node with
    | nil => exact .pure rfl
    | @cons step otherStep _ _ related _ induction =>
      obtain ⟨⟨op, sign⟩, tree⟩ := step
      obtain ⟨⟨_, _⟩, otherTree⟩ := otherStep
      obtain ⟨⟨⟩, right⟩ := related
      rw [compileArithmetic, compileArithmetic]
      refine (right environment).bind_same fun _ => ?_
      exact (Compile.arithmetic_carries _ op sign node _).bind_same fun _ => induction _
  rw [Tree.compile, Tree.compile]
  exact (carried environment).bind_same fun _ => run _

abbrev LogicalStep (transport : Transport) (one other : (BinaryOperator × Place) × Tree) : Prop :=
  other.1 = (one.1.1, one.1.2.moved transport) ∧ one.2.Carried transport other.2

theorem logical (start : Place) {first other : Tree} {rest others : List ((BinaryOperator × Place) × Tree)}
    (carried : first.Carried transport other) (steps : List.Forall₂ (LogicalStep transport) rest others) :
    (Tree.logical start first rest).Carried transport (.logical (start.moved transport) other others) := by
  intro environment
  have run (node : AnyNode) : Carries transport Eq (compileLogical environment start node rest)
      (compileLogical environment (start.moved transport) node others) := by
    induction steps generalizing node with
    | nil => exact .pure rfl
    | @cons step otherStep _ _ related _ induction =>
      obtain ⟨⟨op, place⟩, tree⟩ := step
      obtain ⟨⟨_, _⟩, otherTree⟩ := otherStep
      obtain ⟨⟨⟩, right⟩ := related
      rw [compileLogical, compileLogical]
      refine (right environment).bind_same fun _ => ?_
      exact (Compile.logical_carries _ op start node place _).bind_same fun _ => induction _
  rw [Tree.compile, Tree.compile]
  exact (carried environment).bind_same fun _ => run _

theorem relation (sign : Lexeme) {left otherLeft right otherRight : Tree} (first : left.Carried transport otherLeft)
    (second : right.Carried transport otherRight) :
    (Tree.relation sign left right).Carried transport (.relation (transport.move sign) otherLeft otherRight) := by
  intro environment
  rw [Tree.compile, Tree.compile]
  refine (first environment).bind_same fun _ => (second environment).bind_same fun _ => ?_
  exact Compile.relation_carries _ sign _ _

theorem conditional (start branch : Place) {condition otherCondition consequent otherConsequent alternative
      otherAlternative : Tree} (first : condition.Carried transport otherCondition)
    (second : consequent.Carried transport otherConsequent) (third : alternative.Carried transport otherAlternative) :
    (Tree.conditional start condition branch consequent alternative).Carried transport
      (.conditional (start.moved transport) otherCondition (branch.moved transport) otherConsequent
        otherAlternative) := by
  intro environment
  rw [Tree.compile, Tree.compile]
  refine (first environment).bind_same fun _ => (Compile.requireScalar_carries _ start _).bind_same fun _ => ?_
  refine (second environment).bind_same fun _ => (third environment).bind_same fun _ => ?_
  exact Compile.conditional_carries _ _ branch _ _

theorem conditionalOnly (start branch : Place) {condition otherCondition consequent otherConsequent : Tree}
    (first : condition.Carried transport otherCondition) (second : consequent.Carried transport otherConsequent) :
    (Tree.conditionalOnly start condition branch consequent).Carried transport
      (.conditionalOnly (start.moved transport) otherCondition (branch.moved transport) otherConsequent) := by
  intro environment
  rw [Tree.compile, Tree.compile]
  refine (first environment).bind_same fun _ => (Compile.requireScalar_carries _ start _).bind_same fun _ => ?_
  exact (second environment).bind_same fun _ => Compile.conditionalOnly_carries _ _ branch _

/-! ## Statements and forms -/

theorem block {statements others : List Tree} {result other : Tree}
    (carried : List.Forall₂ (Tree.Carried transport) statements others) (last : result.Carried transport other) :
    (Tree.block statements result).Carried transport (.block others other) := by
  intro environment
  have nodes : Carries transport Eq (compileStatements environment statements)
      (compileStatements environment others) := by
    induction carried with
    | nil => exact .pure rfl
    | cons first _ induction =>
      rw [compileStatements, compileStatements]
      exact (first environment).bind_same fun _ => induction.bind_same fun _ => .pure rfl
  rw [Tree.compile, Tree.compile]
  exact nodes.bind_same fun _ => (last environment).bind_same fun _ => .pure rfl

theorem loop {initializer otherInitializer condition otherCondition step otherStep body otherBody : Tree}
    (start : Place) (first : initializer.Carried transport otherInitializer)
    (second : condition.Carried transport otherCondition) (third : step.Carried transport otherStep)
    (fourth : body.Carried transport otherBody) :
    (Tree.loop initializer start condition step body).Carried transport
      (.loop otherInitializer (start.moved transport) otherCondition otherStep otherBody) := by
  intro environment
  rw [Tree.compile, Tree.compile]
  refine (first environment).bind_same fun _ => (second environment).bind_same fun _ => ?_
  refine (Compile.requireScalar_carries _ start _).bind_same fun _ => (third environment).bind_same fun _ => ?_
  exact (fourth environment).bind_same fun _ => .pure rfl

abbrev Case (transport : Transport) (one other : (Place × Tree) × (Place × Tree)) : Prop :=
  Placed transport one.1 other.1 ∧ Placed transport one.2 other.2

theorem choice {cases others : List ((Place × Tree) × (Place × Tree))} {otherwise other : Tree} (start : Place)
    (carried : List.Forall₂ (Case transport) cases others) (last : otherwise.Carried transport other) :
    (Tree.choice cases start otherwise).Carried transport (.choice others (start.moved transport) other) := by
  intro environment
  have nodes : Carries transport Eq (compileCases environment cases) (compileCases environment others) := by
    induction carried with
    | nil => exact .pure rfl
    | cons first _ induction =>
      obtain ⟨⟨start, condition⟩, resultStart, result⟩ := first
      rw [compileCases, compileCases, start, resultStart]
      refine (condition environment).bind_same fun _ => ?_
      refine (Compile.requireScalar_carries _ _ _).bind_same fun _ => (result environment).bind_same fun _ => ?_
      refine (Compile.requireScalar_carries _ _ _).bind_same fun _ => ?_
      exact induction.bind_same fun _ => .pure rfl
  rw [Tree.compile, Tree.compile]
  refine nodes.bind_same fun _ => (last environment).bind_same fun _ => ?_
  exact (Compile.requireScalar_carries _ start _).bind_same fun _ => .pure rfl

theorem assignment (word sign : Lexeme) (start : Place) {value other : Tree}
    (carried : value.Carried transport other) :
    (Tree.assignment word sign start value).Carried transport
      (.assignment (transport.move word) (transport.move sign) (start.moved transport) other) := by
  intro environment
  rw [Tree.compile, Tree.compile]
  refine (Compile.resolve_carries word).bind_same fun _ => (carried environment).bind_same fun _ => ?_
  exact Compile.assignment_carries word sign _ start _

theorem elementAssignment (word sign : Lexeme) (start : Place) {index otherIndex value other : Tree}
    (first : index.Carried transport otherIndex) (second : value.Carried transport other) :
    (Tree.elementAssignment word start index sign value).Carried transport
      (.elementAssignment (transport.move word) (start.moved transport) otherIndex (transport.move sign) other) := by
  intro environment
  rw [Tree.compile, Tree.compile]
  refine (Compile.resolve_carries word).bind_same fun _ => (first environment).bind_same fun _ => ?_
  exact (second environment).bind_same fun _ => Compile.elementAssignment_carries word sign _ start _ _

theorem declaration (word : Lexeme) (start : Place) {value other : Tree} (carried : value.Carried transport other) :
    (Tree.declaration word start value).Carried transport
      (.declaration (transport.move word) (start.moved transport) other) := by
  intro environment
  rw [Tree.compile, Tree.compile]
  refine (Compile.mayDeclare_carries word).bind_same fun _ => (carried environment).bind_same fun _ => ?_
  exact Compile.declaration_carries _ word start _

theorem listedVector (word : Lexeme) (size : Nat) (bracket : Lexeme) {elements others : List (Place × Tree)}
    (carried : List.Forall₂ (Placed transport) elements others) :
    (Tree.listedVector word size bracket elements).Carried transport
      (.listedVector (transport.move word) size (transport.move bracket) others) := by
  intro environment
  have nodes : Carries transport Eq (compileElements environment elements) (compileElements environment others) := by
    induction carried with
    | nil => exact .pure rfl
    | cons first _ induction =>
      rw [compileElements, compileElements, first.1]
      refine (first.2 environment).bind_same fun _ => ?_
      exact (Compile.requireScalar_carries _ _ _).bind_same fun _ => induction.bind_same fun _ => .pure rfl
  rw [Tree.compile, Tree.compile]
  refine (Compile.mayDeclare_carries word).bind_same fun _ => nodes.bind_same fun _ => ?_
  exact Compile.listedVector_carries _ word size bracket _

theorem filledVector (word : Lexeme) (size : Nat) (start : Place) {value other : Tree}
    (carried : value.Carried transport other) :
    (Tree.filledVector word size start value).Carried transport
      (.filledVector (transport.move word) size (start.moved transport) other) := by
  intro environment
  rw [Tree.compile, Tree.compile]
  refine (Compile.mayDeclare_carries word).bind_same fun _ => (carried environment).bind_same fun _ => ?_
  exact Compile.filledVector_carries _ word size start _

/-! ## Where reading stops -/

theorem stop (problem : Problem) {place other : Place} (same : other = place.moved transport) {rest : List Lexeme}
    {brackets : List Terminal} (admitted : transport.Admits brackets rest) :
    (Tree.stop ⟨problem, place⟩ rest).Carried transport (.stop ⟨problem, other⟩ (transport.carry rest)) := by
  subst same
  exact fun _ => .halt problem admitted

theorem andThen {done otherDone stopped otherStopped : Tree} (first : done.Carried transport otherDone)
    (second : stopped.Carried transport otherStopped) :
    (Tree.andThen done stopped).Carried transport (.andThen otherDone otherStopped) := by
  intro environment
  rw [Tree.compile, Tree.compile]
  exact (first environment).bind_same fun _ => second environment

end Tree.Carried

end LiveExpr
