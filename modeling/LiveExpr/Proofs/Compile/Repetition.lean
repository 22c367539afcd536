import LiveExpr.Proofs.Compile.Copy
import LiveExpr.Proofs.Compile.Success

/-!
Trees that are compiled once more, by induction on how trees are built, and from them sources.
-/

namespace LiveExpr

namespace Compile

variable {environment : Environment} {later : World}

def CopiesTree (environment : Environment) (later : World) (tree : Tree) : Prop :=
  Copies environment later tree.usage AnyNode.relabel (tree.compile environment) fun _ =>
    tree.compile environment.withoutResolver

/-! ## Lists of trees -/

theorem compilePlaced_copies {trees : List (Place × Tree)}
    (copies : ∀ one ∈ trees, CopiesTree environment later one.2) :
    Copies environment later (usageOfPlaced trees) relabelPlaced (compilePlaced environment trees) fun _ =>
      compilePlaced environment.withoutResolver trees := by
  induction trees with
  | nil => exact .pure fun _ _ => rfl
  | cons first rest induction =>
    obtain ⟨here, behind⟩ := List.forall_mem_cons.mp copies
    exact here.bind fun _ => (induction behind).last fun _ => .pure fun _ _ => rfl

theorem requireScalar_copies (role : Role) (place : Place) (node : AnyNode) :
    Copies environment later .nothing (fun relabeling => Node.relabel relabeling) (requireScalar role place node)
      fun relabeling => requireScalar role place (node.relabel relabeling) :=
  .of_commutes fun relabeling => requireScalar_commutes relabeling role place node

theorem compileElements_copies {trees : List (Place × Tree)}
    (copies : ∀ one ∈ trees, CopiesTree environment later one.2) :
    Copies environment later (usageOfPlaced trees) relabelAll (compileElements environment trees) fun _ =>
      compileElements environment.withoutResolver trees := by
  induction trees with
  | nil => exact .pure fun _ _ => rfl
  | cons first rest induction =>
    obtain ⟨here, behind⟩ := List.forall_mem_cons.mp copies
    refine here.bind fun node => ?_
    exact (requireScalar_copies _ _ node).bind fun _ => (induction behind).last fun _ => .pure fun _ _ => rfl

theorem compileArithmetic_copies (left : AnyNode) {rest : List ((BinaryOperator × Lexeme) × Tree)}
    (copies : ∀ step ∈ rest, CopiesTree environment later step.2) :
    Copies environment later (usageOfArithmetic rest) AnyNode.relabel (compileArithmetic environment left rest)
      fun relabeling => compileArithmetic environment.withoutResolver (left.relabel relabeling) rest := by
  induction rest generalizing left with
  | nil => exact .pure fun _ _ => rfl
  | cons first rest induction =>
    obtain ⟨here, behind⟩ := List.forall_mem_cons.mp copies
    refine here.bind fun right => ?_
    refine (Copies.of_commutes fun relabeling => arithmetic_commutes relabeling _ _ _ left right).bind fun node => ?_
    exact induction node behind

theorem compileLogical_copies (start : Place) (left : AnyNode) {rest : List ((BinaryOperator × Place) × Tree)}
    (copies : ∀ step ∈ rest, CopiesTree environment later step.2) :
    Copies environment later (usageOfLogical rest) AnyNode.relabel (compileLogical environment start left rest)
      fun relabeling => compileLogical environment.withoutResolver start (left.relabel relabeling) rest := by
  induction rest generalizing left with
  | nil => exact .pure fun _ _ => rfl
  | cons first rest induction =>
    obtain ⟨here, behind⟩ := List.forall_mem_cons.mp copies
    refine here.bind fun right => ?_
    refine (Copies.of_commutes fun relabeling => logical_commutes relabeling _ _ start left _ right).bind
      fun node => ?_
    exact induction node behind

theorem compileStatements_copies {trees : List Tree} (copies : ∀ tree ∈ trees, CopiesTree environment later tree) :
    Copies environment later (usageOfStatements trees) relabelStatements (compileStatements environment trees) fun _ =>
      compileStatements environment.withoutResolver trees := by
  induction trees with
  | nil => exact .pure fun _ _ => rfl
  | cons first rest induction =>
    obtain ⟨here, behind⟩ := List.forall_mem_cons.mp copies
    exact here.bind fun _ => (induction behind).last fun _ => .pure fun _ _ => rfl

theorem compileCases_copies {cases : List ((Place × Tree) × (Place × Tree))}
    (conditions : ∀ one ∈ cases, CopiesTree environment later one.1.2)
    (results : ∀ one ∈ cases, CopiesTree environment later one.2.2) :
    Copies environment later (usageOfCases cases) relabelCases (compileCases environment cases) fun _ =>
      compileCases environment.withoutResolver cases := by
  induction cases with
  | nil => exact .pure fun _ _ => rfl
  | cons first rest induction =>
    obtain ⟨condition, otherConditions⟩ := List.forall_mem_cons.mp conditions
    obtain ⟨result, otherResults⟩ := List.forall_mem_cons.mp results
    refine condition.bind fun node => (requireScalar_copies _ _ node).bind fun _ => ?_
    refine result.bind fun node => (requireScalar_copies _ _ node).bind fun _ => ?_
    exact (induction otherConditions otherResults).last fun _ => .pure fun _ _ => rfl

/-! ## Trees -/

theorem assignment_copies (word sign : Lexeme) (target : Option Binding) (start : Place) (value : AnyNode) :
    Copies environment later .nothing AnyNode.relabel (assignment word sign target start value) fun relabeling =>
      assignment word sign (target.map (·.relabel relabeling)) start (value.relabel relabeling) := by
  cases target with
  | none => exact .pure fun _ _ => rfl
  | some target => exact .of_commutes fun relabeling => assignment_commutes relabeling word sign target start value

theorem elementAssignment_copies (word sign : Lexeme) (target : Option Binding) (start : Place)
    (index value : AnyNode) :
    Copies environment later .nothing AnyNode.relabel (elementAssignment word sign target start index value)
      fun relabeling => elementAssignment word sign (target.map (·.relabel relabeling)) start
        (index.relabel relabeling) (value.relabel relabeling) := by
  cases target with
  | none => exact .pure fun _ _ => rfl
  | some target =>
    exact .of_commutes fun relabeling => elementAssignment_commutes relabeling word sign target start index value

/-- A tree does with names what it says, and compiling it is repeated. -/
theorem compile_copies {source : List Lexeme} {tree : Tree} (proper : tree.Proper source) :
    CopiesTree environment later tree := by
  induction proper with
  | number | text => exact .pure fun _ _ => rfl
  | name word rest => exact name_copies word rest
  | call word rest _ arguments =>
    exact (compilePlaced_copies arguments).last fun nodes => call_copies word nodes rest
  | negation sign _ operand =>
    exact operand.last fun node => .of_commutes fun relabeling => negation_commutes relabeling _ sign node
  | affirmation sign _ operand =>
    exact operand.last fun node => .of_commutes fun relabeling => affirmation_commutes relabeling sign node
  | denial start _ operand =>
    exact operand.last fun node => .of_commutes fun relabeling => denial_commutes relabeling _ start node
  | arithmetic _ _ _ first rest => exact first.bind fun node => compileArithmetic_copies node rest
  | logical start _ _ first rest => exact first.bind fun node => compileLogical_copies start node rest
  | relation isRelation _ _ left right =>
    exact left.bind fun one => right.last fun other =>
      .of_commutes fun relabeling => relation_commutes relabeling _ _ one other
  | conditional start branch _ _ _ condition consequent alternative =>
    refine condition.bind fun node => (requireScalar_copies _ start node).bind fun node => ?_
    exact consequent.bind fun one => alternative.last fun other =>
      .of_commutes fun relabeling => conditional_commutes relabeling _ node branch one other
  | conditionalOnly start branch _ _ condition consequent =>
    refine condition.bind fun node => (requireScalar_copies _ start node).bind fun node => ?_
    exact consequent.last fun one =>
      .of_commutes fun relabeling => conditionalOnly_commutes relabeling _ node branch one
  | size bracket proper base => exact size_copies bracket base (compile_names proper)
  | element bracket start _ _ base index =>
    exact base.bind fun one => index.last fun other =>
      .of_commutes fun relabeling => element_commutes relabeling bracket one start other
  | range bracket firstStart lastStart _ _ _ base first last =>
    exact base.bind fun node => first.bind fun one => last.last fun other =>
      .of_commutes fun relabeling => range_commutes relabeling _ bracket node firstStart one lastStart other
  | block _ _ statements result =>
    exact (compileStatements_copies statements).bind fun nodes => result.last fun node =>
      .pure fun _ _ => AnyNode.relabel_sequence nodes node
  | loop start _ _ _ _ initializer condition step body =>
    refine initializer.bind fun _ => condition.bind fun node => (requireScalar_copies _ start node).bind fun _ => ?_
    refine step.bind fun _ => body.last fun _ => .pure fun relabeling limit => ?_
    change AnyNode.scalar (.loop _ _ _ _ (relabeling.limit environment.settings.loopLimit)) = _
    rw [limit]
    rfl
  | choice start _ _ _ conditions results otherwise =>
    refine (compileCases_copies conditions results).bind fun _ => ?_
    exact otherwise.last fun node => (requireScalar_copies _ start node).last fun _ => .pure fun _ _ => rfl
  | assignment word sign start _ _ value =>
    exact (resolve_copies word).bind fun target => value.last fun node =>
      assignment_copies word sign target start node
  | elementAssignment word start sign _ _ _ index value =>
    exact (resolve_copies word).bind fun target => index.bind fun one => value.last fun other =>
      elementAssignment_copies word sign target start one other
  | declaration word start _ value => exact value.declare fun node => declaration_finishes word start node
  | listedVector word size bracket _ elements =>
    exact (compileElements_copies elements).declare fun nodes => listedVector_finishes word size bracket nodes
  | filledVector word size start _ value => exact value.declare fun node => filledVector_finishes word size start node
  | stop =>
    intro before value after done
    cases done
  | andThen _ _ done stopped => exact done.bind fun _ => stopped

end Compile

/-! ## Sources -/

namespace Compilation.Success

variable {environment : Environment} {source : String} {world : World}

theorem isClear (success : Success environment source world) : success.final.IsClear := by
  have reached : (Progress.start world).Reaches environment success.final := by
    have reaches : (Progress.start world).Reaches environment
        (Compile.statements environment success.lexemes.length success.lexemes.length success.lexemes
          (.start world)).2 := Compile.statements_reaches .refl _ _ _
    rwa [Compile.statements_of_trees success.read success.compiled] at reaches
  refine ⟨success.clear, Classical.byContradiction fun reported => ?_⟩
  exact Progress.reports_ne_nil_of_reported reached reported success.clear

theorem copies (success : Success environment source world) (later : World) :
    ∃ cells, Progress.Runs environment (.start world) (usageOfStatements success.trees) cells success.final ∧
      Compile.Repeats environment later (usageOfStatements success.trees) cells (.start world) success.final
        (fun _ => compileStatements environment.withoutResolver success.trees)
        fun relabeling => relabelStatements relabeling success.nodes := by
  have proper := Grammar.trees?_proper success.read
  have copies := Compile.compileStatements_copies fun tree listed =>
    (Compile.compile_copies (proper tree listed) : Compile.CopiesTree environment later tree)
  exact (copies success.compiled success.isClear).2

end Compilation.Success

end LiveExpr
