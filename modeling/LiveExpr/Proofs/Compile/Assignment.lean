import LiveExpr.Proofs.Compile.Operation

/-!
References, assignments and declarations keep every correspondence.
-/

namespace LiveExpr

/-- An assignment sign combines with nothing or with one of the operators that assignments may combine with. -/
theorem Compile.isCompound_compound (sign : Lexeme) :
    (Compile.compound sign).all BinaryOperator.isCompound = true := by
  unfold Compile.compound
  split
  next terminal _ => cases terminal <;> rfl
  next => rfl

namespace Correspondence

open Compile

variable {environment : Environment} {left right : Settings} {world : World}
  {kept : Correspondence environment left right world} {before after : Progress}

variable (reached : (Progress.start world).Reaches environment before)

include reached

/-! ## References -/

theorem reference_parallel (word : Lexeme) (rest : List Lexeme) {binding : Option Binding}
    (binds : ∀ found, binding = some found → before.Binds environment found)
    (unbound : binding = none → before.reports ≠ []) :
    Parallel environment kept.Nodes before (reference left word rest binding)
      (reference right word rest binding) := by
  match binding with
  | none => exact placeholder_parallel reached (unbound rfl)
  | some (.scalar cell constant) =>
    exact .view (.intro (kept.number reached (binds _ rfl)))
  | some (.string cell constant) =>
    exact .view (.intro (kept.text reached (binds _ rfl)))
  | some (.vector cell) => exact .pure (.intro (kept.vector reached (binds _ rfl)))
  | some (.function _) => exact .halt rfl _ _

/-! ## Assignments -/

theorem assignment_parallel (word sign : Lexeme) {target : Option Binding} (start : Place)
    (assignable : ∀ binding, target = some binding → before.Assignable environment world binding)
    (unbound : target = none → before.reports ≠ []) {value other : AnyNode}
    (related : kept.Nodes before value other) :
    Parallel environment kept.Nodes before (Compile.assignment word sign target start value)
      (Compile.assignment word sign target start other) := by
  have compound := isCompound_compound sign
  unfold Compile.assignment
  match target with
  | none => exact placeholder_parallel reached (unbound rfl)
  | some (.scalar _ true) | some (.string _ true) | some (.function _) =>
    exact failed_parallel reached _ _
  | some (.scalar cell false) =>
    refine (requireScalar_parallel reached .assignedValue start related).bind fun last value => ?_
    exact .pure (.intro (kept.alike (.assign compound value ((assignable _ rfl).later last))))
  | some (.string cell false) =>
    dsimp only
    split
    · exact failed_parallel reached _ _
    · refine (requireString_parallel reached .assignedValue start related).bind fun last value => ?_
      exact .pure (.intro (kept.alike (.stringAssign _ value ((assignable _ rfl).later last))))
  | some (.vector cell) =>
    have target := assignable _ rfl
    rcases related with @⟨k, value, other, related⟩
    cases k
    case vector => exact .pure (.intro (kept.alike (.vectorAssign compound (.vector related) target)))
    case scalar => exact .pure (.intro (kept.alike (.vectorAssign compound (.scalar related) target)))
    case string => exact failed_parallel reached _ _

theorem elementAssignment_parallel (word sign : Lexeme) {target : Option Binding} (start : Place)
    (assignable : ∀ binding, target = some binding → before.Assignable environment world binding)
    (unbound : target = none → before.reports ≠ []) {index otherIndex value other : AnyNode}
    (indices : kept.Nodes before index otherIndex) (related : kept.Nodes before value other) :
    Parallel environment kept.Nodes before
      (Compile.elementAssignment word sign target start index value)
      (Compile.elementAssignment word sign target start otherIndex other) := by
  have compound := isCompound_compound sign
  unfold Compile.elementAssignment
  match target with
  | none => exact placeholder_parallel reached (unbound rfl)
  | some (.vector cell) =>
    refine (requireScalar_parallel reached .index start indices).bind fun middle indices => ?_
    refine (requireScalar_parallel (reached.trans middle) .elementValue _
      (nodes_later middle related)).bind fun last value => ?_
    have target := (assignable _ rfl).later (middle.trans last)
    exact .pure (.intro (kept.alike (.assignElement compound (kept.later last indices) value target)))
  | some (.scalar _ _) | some (.string _ _) | some (.function _) => exact failed_parallel reached _ _

/-! ## Declarations -/

theorem declaration_parallel (allowed : Bool) (word : Lexeme) (start : Place) {value other : AnyNode}
    (related : kept.Nodes before value other) :
    Parallel environment kept.Nodes before (Compile.declaration allowed word start value)
      (Compile.declaration allowed word start other) := by
  rcases related with @⟨k, value, other, related⟩
  cases k
  case scalar =>
    have allocates := World.Allocates.number before.world 0.0
    have target := Progress.assignable_declared reached allowed word.text [] allocates
    have later := kept.later (Progress.reaches_declared allowed word.text [] allocates) related
    apply Parallel.declared allowed word.text [] allocates
    · cases allowed <;> rfl
    · cases allowed <;> rfl
    · exact .intro (kept.alike (.assign rfl later target))
  case string =>
    have allocates := World.Allocates.string before.world []
    have target := Progress.assignable_declared reached allowed word.text [] allocates
    have later := kept.later (Progress.reaches_declared allowed word.text [] allocates) related
    apply Parallel.declared allowed word.text [] allocates
    · cases allowed <;> rfl
    · cases allowed <;> rfl
    · exact .intro (kept.alike (.stringAssign false later target))
  case vector => exact failed_parallel reached _ _

theorem listedVector_parallel (allowed : Bool) (word : Lexeme) (size : Nat) (bracket : Lexeme)
    {elements others : List (Node .scalar)} (related : List.Forall₂ (kept.Scalars before) elements others) :
    Parallel environment kept.Nodes before (Compile.listedVector allowed word size bracket elements)
      (Compile.listedVector allowed word size bracket others) := by
  have allocated : ∀ {middle : Progress}, before.Reaches environment middle →
      Parallel environment kept.Nodes middle
        (do
          let cell ← allocate (·.newVector (List.replicate size 0.0))
          declare allowed word.text (.vector cell)
          pure (.vector (.reset cell elements false)))
        (do
          let cell ← allocate (·.newVector (List.replicate size 0.0))
          declare allowed word.text (.vector cell)
          pure (.vector (.reset cell others false))) := by
    intro middle first
    have allocates := World.Allocates.vector middle.world (List.replicate size 0.0)
    have target := Progress.assignable_declared (reached.trans first) allowed word.text [] allocates
    apply Parallel.declared allowed word.text [] allocates
    · cases allowed <;> rfl
    · cases allowed <;> rfl
    · have later := related.imp fun _ _ => kept.later (first.trans
        (Progress.reaches_declared allowed word.text [] allocates))
      exact .intro (kept.alike (.reset false later target))
  unfold Compile.listedVector
  rw [related.length_eq]
  dsimp only
  split
  · exact Parallel.report fun middle _ _ => allocated middle
  · exact allocated .refl

theorem filledVector_parallel (allowed : Bool) (word : Lexeme) (size : Nat) (start : Place)
    {value other : AnyNode} (related : kept.Nodes before value other) :
    Parallel environment kept.Nodes before (Compile.filledVector allowed word size start value)
      (Compile.filledVector allowed word size start other) := by
  have allocates := World.Allocates.vector before.world (List.replicate size 0.0)
  have target (found : List Report) :=
    Progress.assignable_declared reached allowed word.text found allocates
  have blank (found : List Report) := kept.alike (.reset false .nil (target found))
  have unset : (none : Option BinaryOperator).all BinaryOperator.isCompound = true := rfl
  rcases related with @⟨k, value, other, related⟩
  have later := kept.later (Progress.reaches_declared allowed word.text [] allocates) related
  cases k
  case scalar =>
    apply Parallel.declared allowed word.text [] allocates
    · cases allowed <;> rfl
    · cases allowed <;> rfl
    · exact .intro (kept.alike (.reset true (.cons later .nil) (target [])))
  case vector =>
    apply Parallel.declared allowed word.text [] allocates
    · cases allowed <;> rfl
    · cases allowed <;> rfl
    · have assigned := kept.alike (.vectorAssign unset (.vector later) (target []))
      exact .intro (kept.alike (.sequence (.cons (.intro (blank [])) .nil) assigned))
  case string =>
    -- the problem is found after the allocation and before the declaration
    apply Parallel.declared allowed word.text [⟨.vectorFromString word.text, start⟩] allocates
    · cases allowed <;> rfl
    · cases allowed <;> rfl
    · exact .intro (blank _)

end Correspondence

end LiveExpr
