import LiveExpr.Compile.Formula

/-!
Trees that reading has stopped in. Whatever the names in such a tree stand for, compiling it halts: at the place where
reading stopped, or at a call or reference before it.
-/

namespace LiveExpr

def Compile.Halts {α : Type} (computation : Compile α) : Prop :=
  ∀ before, ∃ halt after, computation before = (.error halt, after)

namespace Compile.Halts

variable {α β : Type}

theorem halt (problem : Problem) (place : Place) (rest : List Lexeme) :
    (Compile.halt problem place rest : Compile α).Halts :=
  fun before => ⟨⟨⟨problem, place⟩, rest⟩, before, rfl⟩

theorem first {computation : Compile α} (halts : computation.Halts) (next : α → Compile β) :
    (computation >>= next).Halts := by
  intro before
  rcases halts before with ⟨halt, after, halted⟩
  exact ⟨halt, after, bind_of_error halted⟩

theorem later (computation : Compile α) {next : α → Compile β} (halts : ∀ value, (next value).Halts) :
    (computation >>= next).Halts := by
  intro before
  cases done : computation before with
  | mk outcome middle =>
    cases outcome with
    | error halt => exact ⟨halt, middle, bind_of_error done⟩
    | ok value =>
      rcases halts value middle with ⟨halt, after, halted⟩
      refine ⟨halt, after, ?_⟩
      rw [bind_of_ok done, halted]

end Compile.Halts

def Tree.Halts (tree : Tree) : Prop :=
  ∀ environment, (tree.compile environment).Halts

namespace Tree.Halts

open Compile.Halts (first later)

theorem stop (report : Report) (rest : List Lexeme) : (Tree.stop report rest).Halts :=
  fun _ => Compile.Halts.halt _ _ _

theorem andThen (done : Tree) {stopped : Tree} (halts : stopped.Halts) : (Tree.andThen done stopped).Halts := by
  intro environment
  rw [Tree.compile]
  exact later _ fun _ => halts environment

/-! ## Operators -/

theorem negation (sign : Lexeme) {operand : Tree} (halts : operand.Halts) : (Tree.negation sign operand).Halts := by
  intro environment
  rw [Tree.compile]
  exact first (halts environment) _

theorem affirmation (sign : Lexeme) {operand : Tree} (halts : operand.Halts) :
    (Tree.affirmation sign operand).Halts := by
  intro environment
  rw [Tree.compile]
  exact first (halts environment) _

theorem denial (start : Place) {operand : Tree} (halts : operand.Halts) : (Tree.denial start operand).Halts := by
  intro environment
  rw [Tree.compile]
  exact first (halts environment) _

theorem arithmetic (leftmost : Tree) {run : List ((BinaryOperator × Lexeme) × Tree)}
    (halts : ∃ step ∈ run, step.2.Halts) : (Tree.arithmetic leftmost run).Halts := by
  intro environment
  have steps : ∀ left, (compileArithmetic environment left run).Halts := by
    induction run with
    | nil =>
      rcases halts with ⟨_, member, _⟩
      cases member
    | cons step rest induction =>
      intro left
      rw [compileArithmetic]
      rcases halts with ⟨one, _ | ⟨_, member⟩, halts⟩
      · exact first (halts environment) _
      · exact later _ fun _ => later _ (induction ⟨one, member, halts⟩)
  rw [Tree.compile]
  exact later _ steps

theorem logical (start : Place) (leftmost : Tree) {run : List ((BinaryOperator × Place) × Tree)}
    (halts : ∃ step ∈ run, step.2.Halts) : (Tree.logical start leftmost run).Halts := by
  intro environment
  have steps : ∀ left, (compileLogical environment start left run).Halts := by
    induction run with
    | nil =>
      rcases halts with ⟨_, member, _⟩
      cases member
    | cons step rest induction =>
      intro left
      rw [compileLogical]
      rcases halts with ⟨one, _ | ⟨_, member⟩, halts⟩
      · exact first (halts environment) _
      · exact later _ fun _ => later _ (induction ⟨one, member, halts⟩)
  rw [Tree.compile]
  exact later _ steps

theorem relation (sign : Lexeme) (left : Tree) {right : Tree} (halts : right.Halts) :
    (Tree.relation sign left right).Halts := by
  intro environment
  rw [Tree.compile]
  exact later _ fun _ => first (halts environment) _

/-! ## Conditionals, loops and choices -/

theorem consequent (start : Place) (condition : Tree) (branch : Place) {consequent : Tree}
    (halts : consequent.Halts) (alternative : Tree) :
    (Tree.conditional start condition branch consequent alternative).Halts := by
  intro environment
  rw [Tree.compile]
  exact later _ fun _ => later _ fun _ => first (halts environment) _

theorem alternative (start : Place) (condition : Tree) (branch : Place) (consequent : Tree)
    {alternative : Tree} (halts : alternative.Halts) :
    (Tree.conditional start condition branch consequent alternative).Halts := by
  intro environment
  rw [Tree.compile]
  exact later _ fun _ => later _ fun _ => later _ fun _ => first (halts environment) _

theorem loopStep (initializer : Tree) (start : Place) (condition : Tree) {step : Tree} (halts : step.Halts)
    (body : Tree) : (Tree.loop initializer start condition step body).Halts := by
  intro environment
  rw [Tree.compile]
  exact later _ fun _ => later _ fun _ => later _ fun _ => first (halts environment) _

theorem loopBody (initializer : Tree) (start : Place) (condition step : Tree) {body : Tree}
    (halts : body.Halts) : (Tree.loop initializer start condition step body).Halts := by
  intro environment
  rw [Tree.compile]
  exact later _ fun _ => later _ fun _ => later _ fun _ => later _ fun _ => first (halts environment) _

theorem choice (cases : List ((Place × Tree) × (Place × Tree))) (start : Place) {otherwise : Tree}
    (halts : otherwise.Halts) : (Tree.choice cases start otherwise).Halts := by
  intro environment
  rw [Tree.compile]
  exact later _ fun _ => first (halts environment) _

theorem block (statements : List Tree) {result : Tree} (halts : result.Halts) :
    (Tree.block statements result).Halts := by
  intro environment
  rw [Tree.compile]
  exact later _ fun _ => first (halts environment) _

/-! ## Subscripts -/

theorem element (bracket : Lexeme) (base : Tree) (start : Place) {index : Tree} (halts : index.Halts) :
    (Tree.element bracket base start index).Halts := by
  intro environment
  rw [Tree.compile]
  exact later _ fun _ => first (halts environment) _

theorem range (bracket : Lexeme) (base : Tree) (firstStart : Place) (lower : Tree) (lastStart : Place)
    {upper : Tree} (halts : upper.Halts) :
    (Tree.range bracket base firstStart lower lastStart upper).Halts := by
  intro environment
  rw [Tree.compile]
  exact later _ fun _ => later _ fun _ => first (halts environment) _

/-! ## Calls, assignments and declarations -/

theorem compilePlaced {arguments : List (Place × Tree)} (halts : ∃ one ∈ arguments, one.2.Halts)
    (environment : Environment) : (LiveExpr.compilePlaced environment arguments).Halts := by
  induction arguments with
  | nil =>
    rcases halts with ⟨_, member, _⟩
    cases member
  | cons leading others induction =>
    rw [LiveExpr.compilePlaced]
    rcases halts with ⟨one, _ | ⟨_, member⟩, halts⟩
    · exact first (halts environment) _
    · exact later _ fun _ => first (induction ⟨one, member, halts⟩) _

theorem call (word : Lexeme) {arguments : List (Place × Tree)} (halts : ∃ one ∈ arguments, one.2.Halts)
    (rest : List Lexeme) : (Tree.call word arguments rest).Halts := by
  intro environment
  rw [Tree.compile]
  exact first (compilePlaced halts environment) _

theorem listedVector (word : Lexeme) (size : Nat) (bracket : Lexeme) {elements : List (Place × Tree)}
    (halts : ∃ one ∈ elements, one.2.Halts) : (Tree.listedVector word size bracket elements).Halts := by
  intro environment
  have scalars : (compileElements environment elements).Halts := by
    induction elements with
    | nil =>
      rcases halts with ⟨_, member, _⟩
      cases member
    | cons leading others induction =>
      rw [compileElements]
      rcases halts with ⟨one, _ | ⟨_, member⟩, halts⟩
      · exact first (halts environment) _
      · exact later _ fun _ => later _ fun _ => first (induction ⟨one, member, halts⟩) _
  rw [Tree.compile]
  exact later _ fun _ => first scalars _

theorem filledVector (word : Lexeme) (size : Nat) (start : Place) {value : Tree} (halts : value.Halts) :
    (Tree.filledVector word size start value).Halts := by
  intro environment
  rw [Tree.compile]
  exact later _ fun _ => first (halts environment) _

theorem declaration (word : Lexeme) (start : Place) {value : Tree} (halts : value.Halts) :
    (Tree.declaration word start value).Halts := by
  intro environment
  rw [Tree.compile]
  exact later _ fun _ => first (halts environment) _

theorem assignment (word sign : Lexeme) (start : Place) {value : Tree} (halts : value.Halts) :
    (Tree.assignment word sign start value).Halts := by
  intro environment
  rw [Tree.compile]
  exact later _ fun _ => first (halts environment) _

theorem assignedIndex (word : Lexeme) (start : Place) {index : Tree} (halts : index.Halts) (sign : Lexeme)
    (value : Tree) : (Tree.elementAssignment word start index sign value).Halts := by
  intro environment
  rw [Tree.compile]
  exact later _ fun _ => first (halts environment) _

theorem assignedElement (word : Lexeme) (start : Place) (index : Tree) (sign : Lexeme) {value : Tree}
    (halts : value.Halts) : (Tree.elementAssignment word start index sign value).Halts := by
  intro environment
  rw [Tree.compile]
  exact later _ fun _ => later _ fun _ => first (halts environment) _

end Tree.Halts

end LiveExpr
