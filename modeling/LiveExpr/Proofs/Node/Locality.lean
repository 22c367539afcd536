import LiveExpr.Proofs.Node.Initialization
import LiveExpr.Proofs.Node.Preservation

/-!
Evaluation is local. What a graph gives, and what it leaves in the cells that occur in it, depends on nothing but what
these cells hold, and all cells that it does not write stay as they are. So two graphs of which neither writes a cell
that occurs in the other may be evaluated in either order.
-/

namespace LiveExpr

open AnyNode (Everywhere)
open BinaryOperator (combine)

/-! ## Contents -/

/-- What a cell holds. -/
def Store.content (store : Store) : Cell → Value
  | .number cell => .number (store.number cell)
  | .string cell => .text (store.string cell)
  | .vector cell => .vector (store.vector cell)

/-- Whether two stores hold the same in some of the cells. -/
def Store.AgreesOn (cells : Cell → Prop) (one other : Store) : Prop :=
  ∀ cell, cells cell → one.content cell = other.content cell

/-- Whether two stores differ in nothing but the contents of some of the cells. -/
structure Store.SameBut (cells : Cell → Prop) (one other : Store) : Prop where
  contents (cell : Cell) (outside : ¬cells cell) : other.content cell = one.content cell
  functions : other.functions = one.functions
  calls : other.calls = one.calls

namespace Store

variable {store one other : Store} {cells : Cell → Prop}

theorem content_setNumber (store : Store) (target : NumberCell) (value : Float) (cell : Cell) :
    (store.setNumber target value).content cell =
      if cell = .number target then .number value else store.content cell := by
  cases cell with
  | number cell =>
    simp only [content, number_setNumber, Cell.number.injEq]
    exact apply_ite Value.number ..
  | string | vector => rw [if_neg nofun]; rfl

theorem content_setString (store : Store) (target : StringCell) (value : Bytes) (cell : Cell) :
    (store.setString target value).content cell =
      if cell = .string target then .text value else store.content cell := by
  cases cell with
  | string cell =>
    simp only [content, string_setString, Cell.string.injEq]
    exact apply_ite Value.text ..
  | number | vector => rw [if_neg nofun]; rfl

theorem content_replaceVector (store : Store) (target : VectorCell) (values : List Float) (cell : Cell) :
    (store.replaceVector target values).content cell =
      if cell = .vector target then .vector values else store.content cell := by
  cases cell with
  | vector cell =>
    simp only [content, vector_replaceVector, Cell.vector.injEq]
    exact apply_ite Value.vector ..
  | number | string => rw [if_neg nofun]; rfl

namespace AgreesOn

variable (same : one.AgreesOn cells other)

include same

theorem number {cell : NumberCell} (inside : cells (.number cell)) : one.number cell = other.number cell :=
  Value.number.inj (same _ inside)

theorem string {cell : StringCell} (inside : cells (.string cell)) : one.string cell = other.string cell :=
  Value.text.inj (same _ inside)

theorem vector {cell : VectorCell} (inside : cells (.vector cell)) : one.vector cell = other.vector cell :=
  Value.vector.inj (same _ inside)

/-- A cell may be given a content that comes from its old one. -/
theorem setNumber {target : NumberCell} (inside : cells (.number target)) (change : Float → Float) :
    (one.setNumber target (change (one.number target))).AgreesOn cells
      (other.setNumber target (change (other.number target))) := by
  intro cell found
  rw [content_setNumber, content_setNumber, same cell found, same.number inside]

theorem setString {target : StringCell} (inside : cells (.string target)) (change : Bytes → Bytes) :
    (one.setString target (change (one.string target))).AgreesOn cells
      (other.setString target (change (other.string target))) := by
  intro cell found
  rw [content_setString, content_setString, same cell found, same.string inside]

theorem replaceVector {target : VectorCell} (inside : cells (.vector target)) (change : List Float → List Float) :
    (one.replaceVector target (change (one.vector target))).AgreesOn cells
      (other.replaceVector target (change (other.vector target))) := by
  intro cell found
  rw [content_replaceVector, content_replaceVector, same cell found, same.vector inside]

end AgreesOn

namespace SameBut

theorem refl (store : Store) : store.SameBut cells store :=
  ⟨fun _ _ => rfl, rfl, rfl⟩

theorem agreesOn {others : Cell → Prop} (same : one.SameBut cells other) (apart : ∀ cell, others cell → ¬cells cell) :
    one.AgreesOn others other :=
  fun cell inside => (same.contents cell (apart cell inside)).symm

variable (same : store.SameBut cells one)

include same

theorem setNumber {target : NumberCell} (inside : cells (.number target)) (value : Float) :
    store.SameBut cells (one.setNumber target value) := by
  refine ⟨fun cell outside => ?_, same.functions, same.calls⟩
  rw [content_setNumber, if_neg ?_, same.contents cell outside]
  rintro rfl
  exact outside inside

theorem setString {target : StringCell} (inside : cells (.string target)) (value : Bytes) :
    store.SameBut cells (one.setString target value) := by
  refine ⟨fun cell outside => ?_, same.functions, same.calls⟩
  rw [content_setString, if_neg ?_, same.contents cell outside]
  rintro rfl
  exact outside inside

theorem replaceVector {target : VectorCell} (inside : cells (.vector target)) (values : List Float) :
    store.SameBut cells (one.replaceVector target values) := by
  refine ⟨fun cell outside => ?_, same.functions, same.calls⟩
  rw [content_replaceVector, if_neg ?_, same.contents cell outside]
  rintro rfl
  exact outside inside

end SameBut

end Store

/-! ## Local computations -/

namespace Eval

variable {α β : Type} {cells : Cell → Prop}

/-- Whether two computations give the same value, and leave the same in some cells, from any two stores that hold the
same in these cells. -/
def Corresponds (cells : Cell → Prop) (one other : Eval α) : Prop :=
  ∀ store counterpart : Store, store.AgreesOn cells counterpart →
    Option.Rel (fun result another => result.1 = another.1 ∧ result.2.AgreesOn cells another.2)
      (one store) (other counterpart)

namespace Corresponds

theorem pure (value : α) : Corresponds cells (Pure.pure value) (Pure.pure value) :=
  fun _ _ same => .some ⟨rfl, same⟩

theorem bind {one other : Eval α} {next otherNext : α → Eval β} (first : Corresponds cells one other)
    (second : ∀ value, Corresponds cells (next value) (otherNext value)) :
    Corresponds cells (one >>= next) (other >>= otherNext) := by
  intro store counterpart same
  have related := first store counterpart same
  rw [bind_apply, bind_apply]
  revert related
  generalize one store = result
  generalize other counterpart = another
  rintro (@⟨⟨value, middle⟩, ⟨_, otherMiddle⟩, rfl, sameMiddle⟩ | _)
  · exact second value middle otherMiddle sameMiddle
  · exact .none

theorem repeatWhile {condition otherCondition body otherBody : Eval Float} {step otherStep : Eval Unit}
    (first : Corresponds cells condition otherCondition) (second : Corresponds cells body otherBody)
    (third : Corresponds cells step otherStep) (limited : Bool) (rounds : Nat) (last : Float) :
    Corresponds cells (repeatWhile condition body step limited rounds last)
      (repeatWhile otherCondition otherBody otherStep limited rounds last) := by
  induction rounds generalizing last with
  | zero =>
    intro store counterpart same
    cases limited with
    | true => exact .some ⟨rfl, same⟩
    | false => exact .none
  | succ rounds induction =>
    refine first.bind fun value => ?_
    split
    · exact second.bind fun value => third.bind fun _ => induction value
    · exact .pure last

variable {one other : Eval α} (corresponds : Corresponds cells one other) {store counterpart : Store}
  (same : store.AgreesOn cells counterpart)

include corresponds same

theorem eq_none (stopped : one store = none) : other counterpart = none := by
  have related := corresponds store counterpart same
  rw [stopped] at related
  generalize other counterpart = another at related ⊢
  cases related
  rfl

theorem eq_some {value : α} {after : Store} (done : one store = some (value, after)) :
    ∃ otherAfter, other counterpart = some (value, otherAfter) ∧ after.AgreesOn cells otherAfter := by
  have related := corresponds store counterpart same
  rw [done] at related
  generalize other counterpart = another at related ⊢
  obtain @⟨_, ⟨_, otherAfter⟩, rfl, sameAfter⟩ | _ := related
  exact ⟨otherAfter, rfl, sameAfter⟩

end Corresponds

/-- Whether what a computation gives and leaves in the cells that occur in it depends on nothing else, and it changes no
cell but those that it writes. -/
structure IsLocal (occurs writes : Cell → Prop) (computation : Eval α) : Prop where
  depends : Corresponds occurs computation computation
  spares {before after : Store} {value : α} (done : computation before = some (value, after)) :
    before.SameBut writes after
  occurs_of_writes (cell : Cell) (written : writes cell) : occurs cell

theorem IsLocal.swap {occurs writes otherOccurs otherWrites : Cell → Prop} {one : Eval α} {other : Eval β}
    (first : one.IsLocal occurs writes) (second : other.IsLocal otherOccurs otherWrites)
    (apart : ∀ cell, otherOccurs cell → ¬writes cell) (otherApart : ∀ cell, occurs cell → ¬otherWrites cell)
    (store : Store) :
    Option.Rel (fun result another => result.1 = another.1 ∧ result.2.SameBut (fun _ => False) another.2)
      ((do
        let value ← one
        let otherValue ← other
        Pure.pure (value, otherValue)) store)
      ((do
        let otherValue ← other
        let value ← one
        Pure.pure (value, otherValue)) store) := by
  simp only [bind_apply, pure_apply]
  rcases ran : one store with _ | ⟨value, middle⟩ <;> rcases otherRan : other store with _ | ⟨otherValue, otherMiddle⟩
  · exact .none
  · have kept := (second.spares otherRan).agreesOn otherApart
    simp only [first.depends.eq_none kept ran]
    exact .none
  · have kept := (first.spares ran).agreesOn apart
    simp only [second.depends.eq_none kept otherRan]
    exact .none
  have spared := first.spares ran
  have otherSpared := second.spares otherRan
  obtain ⟨last, later, sameCells⟩ := first.depends.eq_some (otherSpared.agreesOn otherApart) ran
  obtain ⟨otherLast, otherLater, sameOtherCells⟩ := second.depends.eq_some (spared.agreesOn apart) otherRan
  have laterSpared := first.spares later
  have otherLaterSpared := second.spares otherLater
  simp only [later, otherLater]
  refine .some ⟨rfl, fun cell _ => ?_, ?_, ?_⟩
  · -- What occurs in one of them was left by it in both orders, and is not written by the other.
    change last.content cell = otherLast.content cell
    by_cases inside : occurs cell
    · rw [otherLaterSpared.contents cell (otherApart cell inside), sameCells cell inside]
    by_cases otherInside : otherOccurs cell
    · rw [laterSpared.contents cell (apart cell otherInside), sameOtherCells cell otherInside]
    have unwritten := mt (first.occurs_of_writes cell) inside
    have otherUnwritten := mt (second.occurs_of_writes cell) otherInside
    rw [laterSpared.contents cell unwritten, otherSpared.contents cell otherUnwritten,
      otherLaterSpared.contents cell otherUnwritten, spared.contents cell unwritten]
  · rw [laterSpared.functions, otherSpared.functions, otherLaterSpared.functions, spared.functions]
  · rw [laterSpared.calls, otherSpared.calls, otherLaterSpared.calls, spared.calls]

end Eval

/-! ## Accesses -/

namespace Traced

variable {α : Type} {cells : Cell → Prop}

/-- An access depends on the cell that it goes to, and on no other. -/
theorem IsAccess.corresponds {cell : Cell} {computation : Traced α} (isAccess : computation.IsAccess cell)
    (inside : cells cell) : Eval.Corresponds cells computation.erase computation.erase := by
  intro store counterpart same
  cases isAccess with
  | number => exact .some ⟨same.number inside, same⟩
  | string => exact .some ⟨same.string inside, same⟩
  | vector => exact .some ⟨same.vector inside, same⟩
  | assign target op value =>
    exact .some ⟨congrArg (combine op · value) (same.number inside), same.setNumber inside (combine op · value)⟩
  | assignString target append value =>
    let change (old : Bytes) : Bytes := if append then old ++ value else value
    exact .some ⟨congrArg change (same.string inside), same.setString inside change⟩
  | assignElement target index op value =>
    change Option.Rel _ (Traced.assignElement target index op value store).2
      (Traced.assignElement target index op value counterpart).2
    unfold Traced.assignElement
    rw [same.vector inside]
    cases (Number.toIndex? index).bind fun index => (counterpart.vector target)[index]?.map (index, ·) with
    | none => exact .some ⟨rfl, same⟩
    | some found => exact .some ⟨rfl, same.replaceVector inside (·.set found.1 (combine op found.2 value))⟩
  | assignVector target op value =>
    have kept := same.replaceVector inside fun old => Store.overwrite old (value.assign op old)
    exact .some ⟨kept.vector inside, kept⟩
  | reset target values fill =>
    have kept := same.replaceVector inside fun old => Store.overwrite old (resetContent old.length values fill)
    exact .some ⟨kept.vector inside, kept⟩

/-- Two evaluations of one graph that calls no function of the host, and in which only some cells occur. -/
def locating (cells : Cell → Prop) (fuel : Nat) : Relation fuel fuel id where
  Holds one other := Eval.Corresponds cells one.erase other.erase
  accessible := cells
  callable _ := False
  bounded _ := True
  pure value := .pure value
  bind first second := by
    rw [erase_bind, erase_bind]
    exact first.bind second
  access := IsAccess.corresponds
  call := False.elim
  loop _ _ _ _ _ _ _ first second third := by
    rw [erase_loop, erase_loop]
    exact first.repeatWhile second third _ _ _

end Traced

/-! ## Graphs -/

namespace AnyNode

/-- Whether a node is one of those that a graph is made from, or the graph itself. -/
inductive IsPartOf (inner : AnyNode) : AnyNode → Prop
  | whole : IsPartOf inner inner
  | within {outer child : AnyNode} (listed : child ∈ outer.2.children) (part : IsPartOf inner child) :
      IsPartOf inner outer

theorem everywhere_isPartOf (node : AnyNode) : node.Everywhere (·.IsPartOf node) :=
  .intro .whole fun child listed => (everywhere_isPartOf child).imp fun _ part => .within listed part
termination_by sizeOf node.2
decreasing_by exact Node.sizeOf_child listed

theorem isPartOf_iff {inner outer : AnyNode} :
    inner.IsPartOf outer ↔ inner = outer ∨ ∃ child ∈ outer.2.children, inner.IsPartOf child := by
  constructor
  · rintro (_ | ⟨listed, part⟩)
    · exact .inl rfl
    · exact .inr ⟨_, listed, part⟩
  · rintro (rfl | ⟨child, listed, part⟩)
    · exact .whole
    · exact .within listed part

def target? : AnyNode → Option Cell
  | ⟨_, .assign target _ _⟩ => some (.number target)
  | ⟨_, .stringAssign target _ _⟩ => some (.string target)
  | ⟨_, .assignElement target _ _ _⟩ | ⟨_, .vectorAssign target _ _⟩ | ⟨_, .reset target _ _⟩ =>
    some (.vector target)
  | _ => none

/-- Whether a cell is read or written somewhere in a graph. -/
def Occurs (node : AnyNode) (cell : Cell) : Prop :=
  ∃ inner : AnyNode, inner.IsPartOf node ∧ inner.cell? = some cell

/-- Whether a cell is the target of an assignment, or of the declaration of a vector, somewhere in a graph. -/
def Writes (node : AnyNode) (cell : Cell) : Prop :=
  ∃ inner : AnyNode, inner.IsPartOf node ∧ inner.target? = some cell

theorem cell?_of_target? {node : AnyNode} {cell : Cell} (target : node.target? = some cell) :
    node.cell? = some cell := by
  obtain ⟨k, node⟩ := node
  cases node <;> first | exact target | cases target

theorem preserves_sameBut {node : AnyNode} {cells : Cell → Prop} (free : node.IsCallFree)
    (inside : ∀ cell, node.target? = some cell → cells cell) (before : Store) :
    node.Preserves (before.SameBut cells) := by
  obtain ⟨k, node⟩ := node
  cases node with
  | assign => exact fun _ value same => same.setNumber (inside _ rfl) value
  | stringAssign => exact fun _ value same => same.setString (inside _ rfl) value
  | assignElement => exact fun _ index value same => same.replaceVector (inside _ rfl) _
  | vectorAssign | reset => exact fun _ values same => same.replaceVector (inside _ rfl) _
  | userCall => exact free.elim
  | _ => trivial

variable {node : AnyNode} (free : node.Everywhere IsCallFree)

include free

theorem corresponds_evaluate (fuel : Nat) :
    Eval.Corresponds node.Occurs (node.evaluate fuel) (node.evaluate fuel) := by
  have admitted : node.Everywhere (Traced.locating node.Occurs fuel).Admits := by
    refine (free.and (everywhere_isPartOf node)).imp ?_
    rintro ⟨k, inner⟩ ⟨free, part⟩
    cases inner <;> first | exact free | trivial | exact fun cell named => ⟨_, part, named⟩
  have related : Eval.Corresponds node.Occurs (node.2.trace fuel).erase ((node.2.relabel .none).trace fuel).erase :=
    Traced.Relation.of_everywhere admitted
  rw [node.2.relabel_none, node.2.erase_trace] at related
  exact related.bind fun _ => .pure _

theorem sameBut_of_evaluate {fuel : Nat} {before after : Store} {value : Value}
    (evaluated : node.evaluate fuel before = some (value, after)) : before.SameBut node.Writes after := by
  have preserve : node.Everywhere (Preserves (before.SameBut node.Writes)) := by
    refine (free.and (everywhere_isPartOf node)).imp ?_
    rintro inner ⟨free, part⟩
    exact preserves_sameBut free (fun cell target => ⟨inner, part, target⟩) before
  obtain ⟨content, _, ran, done⟩ := Eval.bind_eq_some.mp evaluated
  cases done
  exact preserve.preserved ran (.refl before)

theorem isLocal_evaluate (fuel : Nat) : (node.evaluate fuel).IsLocal node.Occurs node.Writes where
  depends := corresponds_evaluate free fuel
  spares := sameBut_of_evaluate free
  occurs_of_writes := fun _ ⟨inner, part, target⟩ => ⟨inner, part, cell?_of_target? target⟩

/-- Evaluation is local. From two stores that hold the same in the cells that occur in a graph, the graph gives the same
value and leaves the same in these cells, or its rounds run out in both. Nothing changes but the cells that it writes.
And two graphs of which neither writes a cell that occurs in the other give the same two values and leave the same store
in whichever order they are evaluated. -/
theorem evaluate_local (fuel : Nat) :
    (∀ one other : Store, one.AgreesOn node.Occurs other →
      Option.Rel (fun result another => result.1 = another.1 ∧ result.2.AgreesOn node.Occurs another.2)
        (node.evaluate fuel one) (node.evaluate fuel other)) ∧
    (∀ before value after, node.evaluate fuel before = some (value, after) → before.SameBut node.Writes after) ∧
    ∀ other : AnyNode, other.Everywhere IsCallFree →
      (∀ cell, other.Occurs cell → ¬node.Writes cell) → (∀ cell, node.Occurs cell → ¬other.Writes cell) →
      ∀ (otherFuel : Nat) (store : Store),
        Option.Rel (fun result another => result.1 = another.1 ∧ result.2.SameBut (fun _ => False) another.2)
          ((do
            let value ← node.evaluate fuel
            let otherValue ← other.evaluate otherFuel
            pure (value, otherValue)) store)
          ((do
            let otherValue ← other.evaluate otherFuel
            let value ← node.evaluate fuel
            pure (value, otherValue)) store) := by
  refine ⟨corresponds_evaluate free fuel, fun _ _ _ => sameBut_of_evaluate free, ?_⟩
  intro other otherFree apart otherApart otherFuel store
  exact (isLocal_evaluate free fuel).swap (isLocal_evaluate otherFree otherFuel) apart otherApart store

omit free

/-- Gives one number cell the content of another. -/
def copying (target source : Nat) : AnyNode :=
  .scalar (.assign ⟨target⟩ none (.variable ⟨source⟩))

theorem isCallFree_copying (target source : Nat) : (copying target source).Everywhere IsCallFree := by
  refine .intro trivial fun child listed => ?_
  obtain rfl := List.mem_singleton.mp listed
  exact .intro trivial (List.forall_mem_nil _)

theorem isPartOf_copying {target source : Nat} {inner : AnyNode} :
    inner.IsPartOf (copying target source) ↔ inner = copying target source ∨ inner = .scalar (.variable ⟨source⟩) := by
  rw [isPartOf_iff]
  simp only [copying, AnyNode.scalar, Node.children, List.mem_singleton, exists_eq_left]
  rw [isPartOf_iff]
  simp [Node.children]

theorem occurs_copying {target source : Nat} {cell : Cell} :
    (copying target source).Occurs cell ↔ cell = .number ⟨target⟩ ∨ cell = .number ⟨source⟩ := by
  simp only [Occurs, isPartOf_copying, or_and_right, exists_or, exists_eq_left]
  simp [copying, AnyNode.scalar, cell?, eq_comm]

theorem writes_copying {target source : Nat} {cell : Cell} :
    (copying target source).Writes cell ↔ cell = .number ⟨target⟩ := by
  simp only [Writes, isPartOf_copying, or_and_right, exists_or, exists_eq_left]
  simp [copying, AnyNode.scalar, target?, eq_comm]

/-- Two cells may be given the content of a third in either order. -/
theorem evaluate_local_copying :
    let node := copying 0 2
    let other := copying 1 2
    (∀ before value after, node.evaluate 0 before = some (value, after) → before.SameBut node.Writes after) ∧
      ∀ store : Store,
        Option.Rel (fun result another => result.1 = another.1 ∧ result.2.SameBut (fun _ => False) another.2)
          ((do
            let value ← node.evaluate 0
            let otherValue ← other.evaluate 0
            pure (value, otherValue)) store)
          ((do
            let otherValue ← other.evaluate 0
            let value ← node.evaluate 0
            pure (value, otherValue)) store) := by
  intro node other
  have isLocal := evaluate_local (isCallFree_copying 0 2) 0
  refine ⟨isLocal.2.1, fun store => isLocal.2.2 other (isCallFree_copying 1 2) ?_ ?_ 0 store⟩
  · simp [other, occurs_copying, writes_copying]
  · simp [other, occurs_copying, writes_copying]

end AnyNode

end LiveExpr
