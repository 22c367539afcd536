import LiveExpr.Proofs.Compile.Assignment

/-!
Compiling one source with two settings, from one state, comes to the same state and to related graphs, whichever
the correspondence: by induction on the trees, then on the statements of the program.
-/

namespace LiveExpr.Correspondence

open Compile

variable {environment : Environment} {left right : Settings} {world : World}
  (kept : Correspondence environment left right world)

def Compiles (tree : Tree) : Prop :=
  ∀ {before : Progress}, (Progress.start world).Reaches environment before →
    Parallel environment kept.Nodes before (tree.compile (environment.under left))
      (tree.compile (environment.under right))

variable {kept} {before : Progress}

/-! ## Lists of trees -/

section Lists

variable (reached : (Progress.start world).Reaches environment before)

include reached

theorem compilePlaced_parallel {trees : List (Place × Tree)} (compiles : ∀ one ∈ trees, kept.Compiles one.2) :
    Parallel environment (fun progress => List.Forall₂ (kept.Placed progress)) before
      (compilePlaced (environment.under left) trees) (compilePlaced (environment.under right) trees) := by
  induction trees generalizing before with
  | nil => exact .pure .nil
  | cons one trees induction =>
    have each := List.forall_mem_cons.mp compiles
    rw [compilePlaced, compilePlaced]
    refine (each.1 reached).bind fun middle first => ?_
    refine (induction (reached.trans middle) each.2).bind fun last others => ?_
    exact .pure (.cons ⟨rfl, nodes_later last first⟩ others)

theorem compileElements_parallel {trees : List (Place × Tree)}
    (compiles : ∀ one ∈ trees, kept.Compiles one.2) :
    Parallel environment (fun progress => List.Forall₂ (kept.Scalars progress)) before
      (compileElements (environment.under left) trees) (compileElements (environment.under right) trees) := by
  induction trees generalizing before with
  | nil => exact .pure .nil
  | cons one trees induction =>
    have each := List.forall_mem_cons.mp compiles
    rw [compileElements, compileElements]
    refine (each.1 reached).bind fun middle node => ?_
    have atMiddle := reached.trans middle
    refine (requireScalar_parallel atMiddle .vectorElement one.1 node).bind fun next first => ?_
    refine (induction (atMiddle.trans next) each.2).bind fun last others => ?_
    exact .pure (.cons (kept.later last first) others)

theorem compileArithmetic_parallel {rest : List ((BinaryOperator × Lexeme) × Tree)}
    (signs : ∀ step ∈ rest, step.1.1.isArithmetic = true) (compiles : ∀ step ∈ rest, kept.Compiles step.2)
    {node other : AnyNode} (related : kept.Nodes before node other) :
    Parallel environment kept.Nodes before (compileArithmetic (environment.under left) node rest)
      (compileArithmetic (environment.under right) other rest) := by
  induction rest generalizing before node other with
  | nil => exact .pure related
  | cons step rest induction =>
    have each := List.forall_mem_cons.mp compiles
    have sign := List.forall_mem_cons.mp signs
    rw [compileArithmetic, compileArithmetic]
    refine (each.1 reached).bind fun middle second => ?_
    have atMiddle := reached.trans middle
    refine (arithmetic_parallel atMiddle sign.1 step.1.2 (nodes_later middle related) second).bind
      fun last joined => ?_
    exact induction (atMiddle.trans last) sign.2 each.2 joined

theorem compileLogical_parallel (start : Place) {rest : List ((BinaryOperator × Place) × Tree)}
    (compiles : ∀ step ∈ rest, kept.Compiles step.2) {node other : AnyNode}
    (related : kept.Nodes before node other) :
    Parallel environment kept.Nodes before (compileLogical (environment.under left) start node rest)
      (compileLogical (environment.under right) start other rest) := by
  induction rest generalizing before node other with
  | nil => exact .pure related
  | cons step rest induction =>
    have each := List.forall_mem_cons.mp compiles
    rw [compileLogical, compileLogical]
    refine (each.1 reached).bind fun middle second => ?_
    have atMiddle := reached.trans middle
    refine (logical_parallel atMiddle step.1.1 start step.1.2 (nodes_later middle related) second).bind
      fun last joined => ?_
    exact induction (atMiddle.trans last) each.2 joined

theorem compileStatements_parallel {trees : List Tree} (compiles : ∀ one ∈ trees, kept.Compiles one) :
    Parallel environment (fun progress => List.Forall₂ (kept.Nodes progress)) before
      (compileStatements (environment.under left) trees)
      (compileStatements (environment.under right) trees) := by
  induction trees generalizing before with
  | nil => exact .pure .nil
  | cons one trees induction =>
    have each := List.forall_mem_cons.mp compiles
    rw [compileStatements, compileStatements]
    refine (each.1 reached).bind fun middle first => ?_
    refine (induction (reached.trans middle) each.2).bind fun last others => ?_
    exact .pure (.cons (nodes_later last first) others)

theorem compileCases_parallel {cases : List ((Place × Tree) × (Place × Tree))}
    (conditions : ∀ one ∈ cases, kept.Compiles one.1.2) (results : ∀ one ∈ cases, kept.Compiles one.2.2) :
    Parallel environment
      (fun progress => List.Forall₂ fun one other =>
        kept.Scalars progress one.1 other.1 ∧ kept.Scalars progress one.2 other.2) before
      (compileCases (environment.under left) cases) (compileCases (environment.under right) cases) := by
  induction cases generalizing before with
  | nil => exact .pure .nil
  | cons one cases induction =>
    have condition := List.forall_mem_cons.mp conditions
    have result := List.forall_mem_cons.mp results
    rw [compileCases, compileCases]
    refine (condition.1 reached).bind fun first node => ?_
    have atFirst := reached.trans first
    refine (requireScalar_parallel atFirst .caseCondition one.1.1 node).bind fun second tested => ?_
    have atSecond := atFirst.trans second
    refine (result.1 atSecond).bind fun third node => ?_
    have atThird := atSecond.trans third
    refine (requireScalar_parallel atThird .caseResult one.2.1 node).bind fun fourth given => ?_
    refine (induction (atThird.trans fourth) condition.2 result.2).bind fun last others => ?_
    have testedLater := kept.later (third.trans (fourth.trans last)) tested
    exact .pure (.cons ⟨testedLater, kept.later last given⟩ others)

end Lists

/-! ## Calls -/

theorem known?_parallel (name : String) :
    Parallel environment (fun _ one other => one = other) before (known? (environment.under left) name)
      (known? (environment.under right) name) :=
  .view rfl

/-- A function that no name stands for is reported once. -/
theorem undefinedFunction_parallel (reached : (Progress.start world).Reaches environment before)
    (word : Lexeme) :
    Parallel environment kept.Nodes before
      (do
        unless (← view (·.reported)).contains word.text do
          reportName word.text (.undefinedFunction word.text) (.lexeme word)
        pure placeholder)
      (do
        unless (← view (·.reported)).contains word.text do
          reportName word.text (.undefinedFunction word.text) (.lexeme word)
        pure placeholder) := by
  have looked : Parallel environment
      (fun progress one other => one = other ∧ one = progress.reported) before
      (view (·.reported)) (view (·.reported)) := .view ⟨rfl, rfl⟩
  refine looked.bind fun middle names => ?_
  obtain ⟨rfl, rfl⟩ := names
  have reached := reached.trans middle
  split
  · next contained =>
    apply placeholder_parallel reached
    apply Progress.reports_ne_nil_of_reported reached
    intro empty
    rw [empty] at contained
    cases contained
  · exact Parallel.reportName fun last reported => placeholder_parallel (reached.trans last) reported

theorem call_parallel (reached : (Progress.start world).Reaches environment before) (word : Lexeme)
    {arguments others : List (Place × AnyNode)} (rest : List Lexeme)
    (related : List.Forall₂ (kept.Placed before) arguments others) :
    Parallel environment kept.Nodes before (Compile.call (environment.under left) word arguments rest)
      (Compile.call (environment.under right) word others rest) := by
  have sameLength := related.length_eq
  unfold Compile.call
  dsimp only
  cases Builtin.find? word.text with
  | some function =>
    dsimp only
    rw [← sameLength]
    by_cases accepted : function.arity.accepts arguments.length = true
    · rw [if_pos accepted, if_pos accepted]
      exact builtinCall_parallel reached word accepted related
    · rw [if_neg accepted, if_neg accepted]
      exact .halt rfl _ _
  | none =>
    dsimp only
    refine (known?_parallel word.text).bind fun middle known => ?_
    obtain rfl := known
    have reached := reached.trans middle
    have later := placed_later middle related
    split
    · rw [← sameLength]
      split
      · next counted => exact userCall_parallel reached counted later
      · exact .halt rfl _ _
    · exact failed_parallel reached _ _
    · exact undefinedFunction_parallel reached word

/-! ## Trees -/

theorem sequence_related {statements others : List AnyNode} {result other : AnyNode}
    (related : List.Forall₂ (kept.Nodes before) statements others) (last : kept.Nodes before result other) :
    kept.Nodes before (AnyNode.sequence statements result) (AnyNode.sequence others other) := by
  rcases last with @⟨k, result, other, last⟩
  cases related with
  | nil => exact .intro last
  | cons first rest => exact .intro (kept.alike (.sequence (.cons first rest) last))

theorem compile_parallel {source : List Lexeme} {tree : Tree} (proper : tree.Proper source) :
    kept.Compiles tree := by
  induction proper with
  | number value => exact fun _ => .pure (.intro (kept.alike (.constant value)))
  | text content => exact fun _ => .pure (.intro (kept.alike (.literal content)))
  | name word rest =>
    intro before reached
    rw [Tree.compile, Tree.compile]
    refine (resolve_parallel reached word).bind fun middle resolved => ?_
    obtain ⟨rfl, binds, unbound⟩ := resolved
    exact reference_parallel (reached.trans middle) word rest binds unbound
  | call word rest _ arguments =>
    intro before reached
    rw [Tree.compile, Tree.compile]
    refine (compilePlaced_parallel reached arguments).bind fun middle placed => ?_
    exact call_parallel (reached.trans middle) word rest placed
  | negation sign _ operand =>
    intro before reached
    rw [Tree.compile, Tree.compile]
    exact (operand reached).bind fun middle node => negation_parallel (reached.trans middle) sign node
  | affirmation sign _ operand =>
    intro before reached
    rw [Tree.compile, Tree.compile]
    exact (operand reached).bind fun middle node => affirmation_parallel (reached.trans middle) sign node
  | denial start _ operand =>
    intro before reached
    rw [Tree.compile, Tree.compile]
    exact (operand reached).bind fun middle node => denial_parallel (reached.trans middle) start node
  | arithmetic _ signs _ first operands =>
    intro before reached
    rw [Tree.compile, Tree.compile]
    exact (first reached).bind fun middle node =>
      compileArithmetic_parallel (reached.trans middle) signs operands node
  | logical start _ _ first operands =>
    intro before reached
    rw [Tree.compile, Tree.compile]
    exact (first reached).bind fun middle node =>
      compileLogical_parallel (reached.trans middle) start operands node
  | relation isRelation _ _ first second =>
    intro before reached
    rw [Tree.compile, Tree.compile]
    refine (first reached).bind fun middle node => ?_
    refine (second (reached.trans middle)).bind fun last other => ?_
    exact relation_parallel ((reached.trans middle).trans last) isRelation (nodes_later last node) other
  | conditional start branch _ _ _ first second third =>
    intro before reached
    rw [Tree.compile, Tree.compile]
    refine (first reached).bind fun middle node => ?_
    have reached := reached.trans middle
    refine (requireScalar_parallel reached .condition start node).bind fun middle condition => ?_
    have reached := reached.trans middle
    refine (second reached).bind fun middle consequent => ?_
    have reached := reached.trans middle
    refine (third reached).bind fun last alternative => ?_
    exact conditional_parallel (reached.trans last) (kept.later (middle.trans last) condition) branch
      (nodes_later last consequent) alternative
  | conditionalOnly start branch _ _ first second =>
    intro before reached
    rw [Tree.compile, Tree.compile]
    refine (first reached).bind fun middle node => ?_
    have reached := reached.trans middle
    refine (requireScalar_parallel reached .condition start node).bind fun middle condition => ?_
    have reached := reached.trans middle
    refine (second reached).bind fun last consequent => ?_
    exact conditionalOnly_parallel (reached.trans last) (kept.later last condition) branch consequent
  | size bracket _ base =>
    intro before reached
    rw [Tree.compile, Tree.compile]
    exact (base reached).bind fun middle node => size_parallel (reached.trans middle) bracket node
  | element bracket start _ _ base index =>
    intro before reached
    rw [Tree.compile, Tree.compile]
    refine (base reached).bind fun middle node => ?_
    refine (index (reached.trans middle)).bind fun last position => ?_
    exact element_parallel ((reached.trans middle).trans last) bracket start (nodes_later last node) position
  | range bracket firstStart lastStart _ _ _ base lower upper =>
    intro before reached
    rw [Tree.compile, Tree.compile]
    refine (base reached).bind fun first node => ?_
    have reached := reached.trans first
    refine (lower reached).bind fun second lowest => ?_
    have reached := reached.trans second
    refine (upper reached).bind fun third highest => ?_
    exact range_parallel (reached.trans third) bracket firstStart lastStart
      (nodes_later (second.trans third) node) (nodes_later third lowest) highest
  | block _ _ statements result =>
    intro before reached
    rw [Tree.compile, Tree.compile]
    refine (compileStatements_parallel reached statements).bind fun middle nodes => ?_
    refine (result (reached.trans middle)).bind fun last node => ?_
    exact .pure (sequence_related (nodes.imp fun _ _ => nodes_later last) node)
  | loop start _ _ _ _ initializer condition step body =>
    intro before reached
    rw [Tree.compile, Tree.compile]
    refine (initializer reached).bind fun first begun => ?_
    have reached := reached.trans first
    refine (condition reached).bind fun second node => ?_
    have reached := reached.trans second
    refine (requireScalar_parallel reached .loopCondition start node).bind fun third tested => ?_
    have reached := reached.trans third
    refine (step reached).bind fun fourth stepped => ?_
    have reached := reached.trans fourth
    refine (body reached).bind fun last repeated => ?_
    have begunLater := nodes_later (second.trans (third.trans (fourth.trans last))) begun
    exact .pure (.intro (kept.loop begunLater (kept.later (fourth.trans last) tested)
      (nodes_later last stepped) repeated))
  | choice start _ _ _ conditions results otherwise =>
    intro before reached
    rw [Tree.compile, Tree.compile]
    refine (compileCases_parallel reached conditions results).bind fun first cases => ?_
    have reached := reached.trans first
    refine (otherwise reached).bind fun second node => ?_
    refine (requireScalar_parallel (reached.trans second) .defaultResult start node).bind
      fun third given => ?_
    have last := second.trans third
    exact .pure (.intro (kept.alike (.choice (cases.imp fun _ _ one =>
      ⟨kept.later last one.1, kept.later last one.2⟩) given)))
  | assignment word sign start _ _ value =>
    intro before reached
    rw [Tree.compile, Tree.compile]
    refine (resolve_parallel reached word).bind fun first resolved => ?_
    obtain ⟨rfl, binds, unbound⟩ := resolved
    have reached := reached.trans first
    refine (value reached).bind fun second node => ?_
    exact assignment_parallel (reached.trans second) word sign start
      (fun binding bound => .bound reached (binds binding bound) second)
      (fun unresolved => second.reports_ne_nil (unbound unresolved)) node
  | elementAssignment word start sign _ _ _ index value =>
    intro before reached
    rw [Tree.compile, Tree.compile]
    refine (resolve_parallel reached word).bind fun first resolved => ?_
    obtain ⟨rfl, binds, unbound⟩ := resolved
    have reached := reached.trans first
    refine (index reached).bind fun second position => ?_
    refine (value (reached.trans second)).bind fun third node => ?_
    exact elementAssignment_parallel ((reached.trans second).trans third) word sign start
      (fun binding bound => .bound reached (binds binding bound) (second.trans third))
      (fun unresolved => Progress.Reaches.reports_ne_nil (second.trans third) (unbound unresolved))
      (nodes_later third position) node
  | declaration word start _ value =>
    intro before reached
    rw [Tree.compile, Tree.compile]
    refine (mayDeclare_parallel word).bind fun first allowed => ?_
    obtain ⟨rfl, -⟩ := allowed
    refine (value (reached.trans first)).bind fun second node => ?_
    exact declaration_parallel ((reached.trans first).trans second) _ word start node
  | listedVector word size bracket _ elements =>
    intro before reached
    rw [Tree.compile, Tree.compile]
    refine (mayDeclare_parallel word).bind fun first allowed => ?_
    obtain ⟨rfl, -⟩ := allowed
    refine (compileElements_parallel (reached.trans first) elements).bind fun second nodes => ?_
    exact listedVector_parallel ((reached.trans first).trans second) _ word size bracket nodes
  | filledVector word size start _ value =>
    intro before reached
    rw [Tree.compile, Tree.compile]
    refine (mayDeclare_parallel word).bind fun first allowed => ?_
    obtain ⟨rfl, -⟩ := allowed
    refine (value (reached.trans first)).bind fun second node => ?_
    exact filledVector_parallel ((reached.trans first).trans second) _ word size start node
  | stop grammatical rest =>
    intro before reached
    exact .halt grammatical _ _
  | andThen _ _ done stopped =>
    intro before reached
    rw [Tree.compile, Tree.compile]
    exact (done reached).bind fun middle _ => stopped (reached.trans middle)

/-- What a single compilation makes of a tree corresponds to itself. -/
theorem compile_eq_ok (kept : Correspondence environment environment.settings environment.settings world)
    {source : List Lexeme} {tree : Tree} (proper : tree.Proper source)
    (reached : (Progress.start world).Reaches environment before) {node : AnyNode} {after : Progress}
    (compiled : tree.compile environment before = (.ok node, after)) :
    before.Reaches environment after ∧ kept.Nodes after node node := by
  have compiles : kept.Compiles tree := compile_parallel proper
  have parallel := compiles reached
  change Parallel environment _ before (tree.compile environment) (tree.compile environment) at parallel
  obtain ⟨-, reaches, outcomes⟩ := parallel
  rw [compiled] at reaches outcomes
  cases outcomes with
  | done related => exact ⟨reaches, related⟩

end LiveExpr.Correspondence
