import LiveExpr.Proofs.Compile.Assignment
import LiveExpr.Proofs.Compile.Naming
import LiveExpr.Proofs.Compile.Plain
import LiveExpr.Proofs.Compile.Work
import LiveExpr.Proofs.Node.Locality
import LiveExpr.Proofs.Node.Relabeling
import LiveExpr.Proofs.Node.Sequencing
import LiveExpr.Proofs.Store.Allocation

/-!
Compound assignments are abbreviations. What is compiled from `target op= value` gives the same value and leaves the
same store as what is compiled from `target := target op value`, if the value leaves the target alone and an index
leaves everything alone: what comes twice in the longer form finds the same the second time. The nodes come first, then
the assignments of compiled operands, and then the trees of both forms in a formula.
-/

namespace LiveExpr

open BinaryOperator (combine)

/-! ## What an operand leaves alone -/

namespace AnyNode

/-- Whether evaluating the node in the store, if that comes to an end, leaves the content of the cell as it is. -/
def Spares (node : AnyNode) (fuel : Nat) (store : Store) (cell : Cell) : Prop :=
  ∀ content after, node.2.eval fuel store = some (content, after) → after.content cell = store.content cell

/-- Whether evaluating the node in the store, if that comes to an end, has no effect. -/
def IsIdle (node : AnyNode) (fuel : Nat) (store : Store) : Prop :=
  ∀ content after, node.2.eval fuel store = some (content, after) → after = store

theorem preserves_content {node : AnyNode} {cell : Cell} (other : node.target? ≠ some cell) (content : Value) :
    node.Preserves (·.content cell = content) := by
  obtain ⟨k, node⟩ := node
  have apart {target : Cell} (written : target? ⟨k, node⟩ = some target) : cell ≠ target := by
    rintro rfl
    exact other written
  cases node with
  | assign target =>
    intro store value holds
    rw [Store.content_setNumber, if_neg (apart rfl), holds]
  | stringAssign target =>
    intro store value holds
    rw [Store.content_setString, if_neg (apart rfl), holds]
  | assignElement target =>
    intro store index value holds
    exact (store.content_replaceVector target _ cell).trans ((if_neg (apart rfl)).trans holds)
  | vectorAssign target | reset target =>
    intro store values holds
    exact (store.content_replaceVector target _ cell).trans ((if_neg (apart rfl)).trans holds)
  | userCall =>
    intro store arguments holds
    cases cell <;> exact holds
  | _ => trivial

/-- A cell that no assignment and no declaration in the graph goes to is left alone. -/
theorem spares_of_untargeted {node : AnyNode} {cell : Cell} (untargeted : node.Everywhere (·.target? ≠ some cell))
    (fuel : Nat) (store : Store) : node.Spares fuel store cell := by
  intro content after done
  have preserve : node.Everywhere (Preserves (·.content cell = store.content cell)) :=
    untargeted.imp fun inner other => preserves_content other _
  exact preserve.preserved done rfl

/-- A graph that goes to no cell and calls no function of the host has no effect. -/
theorem isIdle_of_untargeted {node : AnyNode}
    (free : node.Everywhere fun inner => inner.IsCallFree ∧ inner.target? = none) (fuel : Nat) (store : Store) :
    node.IsIdle fuel store := by
  intro content after done
  have preserve : node.Everywhere (Preserves (· = store)) := by
    refine free.imp fun inner ⟨callFree, untargeted⟩ => ?_
    obtain ⟨k, inner⟩ := inner
    cases inner with
    | assign | stringAssign | assignElement | vectorAssign | reset => cases untargeted
    | userCall => exact callFree.elim
    | _ => trivial
  exact preserve.preserved done rfl

end AnyNode

theorem BinaryOperator.continueWith_of_isCompound {op : BinaryOperator} (compound : op.isCompound = true) (left : Float)
    (right : Eval Float) : op.continueWith left right = (do
      let right ← right
      pure (op.apply left right)) := by
  cases op <;> first | rfl | cases compound

theorem Eval.bind_of_some {α β : Type} {first : Eval α} {before after : Store} {value : α}
    (done : first before = some (value, after)) (next : α → Eval β) : (first >>= next) before = next value after := by
  rw [bind_apply, done]

/-- What a computation leaves alone may be read before it as well as after it. -/
theorem Eval.read_bind {α β γ : Type} {view : Store → α} {computation : Eval β} {store : Store}
    (kept : ∀ value after, computation store = some (value, after) → view after = view store)
    (next : α → β → Eval γ) :
    (do
      let seen ← Eval.read view
      let value ← computation
      next seen value) store = (do
      let value ← computation
      let seen ← Eval.read view
      next seen value) store := by
  change (computation >>= next (view store)) store = _
  rw [bind_apply, bind_apply]
  cases done : computation store with
  | none => rfl
  | some result => exact congrArg (next · result.1 result.2) (kept _ _ done).symm

/-! ## Nodes -/

namespace Node

variable {op : BinaryOperator} {fuel : Nat} {store : Store}

theorem eval_compound (compound : op.isCompound = true) {cell : NumberCell} {value : Node .scalar}
    (spared : (AnyNode.scalar value).Spares fuel store (.number cell)) :
    (Node.assign cell (some op) value).eval fuel store =
      (Node.assign cell none (.operation op (.variable cell) value)).eval fuel store := by
  have kept (content : Float) (after : Store) (done : value.eval fuel store = some (content, after)) :
      after.number cell = store.number cell := Value.number.inj (spared _ _ done)
  simp only [eval, eval_operation, BinaryOperator.continueWith_of_isCompound compound, bind_assoc, pure_bind]
  rw [Eval.read_bind kept]
  rfl

theorem eval_appending {cell : StringCell} {value : Node .string}
    (spared : (AnyNode.string value).Spares fuel store (.string cell)) :
    (Node.stringAssign cell true value).eval fuel store =
      (Node.stringAssign cell false (.joined (.stringVariable cell) value)).eval fuel store := by
  have kept (content : Bytes) (after : Store) (done : value.eval fuel store = some (content, after)) :
      after.string cell = store.string cell := Value.text.inj (spared _ _ done)
  simp only [eval, eval_joined, bind_assoc, pure_bind]
  rw [Eval.read_bind kept]
  rfl

/-- New elements are written as they are, as many of them as there are old ones. -/
theorem zipWith_combine_none (old values : List Float) :
    List.zipWith (combine none) old values = values.take old.length := by
  induction old generalizing values with
  | nil => simp
  | cons first rest induction => cases values <;> simp [combine, induction]

theorem overwrite_of_length {old values : List Float} (length : values.length = old.length) :
    Store.overwrite old values = values := by
  induction old generalizing values with
  | nil => cases values <;> first | rfl | cases length
  | cons first rest induction =>
    cases values with
    | nil => cases length
    | cons value values => rw [Store.overwrite, induction (Nat.succ.inj length)]

/-- The old content of a vector, combined with a value as far as that goes, is what a compound assignment stores. -/
theorem assign_apply (op : BinaryOperator) (old : List Float) (value : Broadcast) :
    (Broadcast.each (Broadcast.apply op (.each old) value).elements).assign none old = value.assign (some op) old := by
  cases value with
  | each values =>
    simp only [Broadcast.apply, Broadcast.elements, Broadcast.assign, zipWith_combine_none]
    rw [List.take_of_length_le (by simp only [List.length_zipWith, Nat.min_le_left])]
    rfl
  | same value =>
    simp only [Broadcast.apply, Broadcast.elements, Broadcast.assign, zipWith_combine_none]
    rw [List.take_of_length_le (by simp), overwrite_of_length (by simp)]
    rfl

theorem eval_vectorCompound {cell : VectorCell} {value : Operand}
    (spared : value.node.Spares fuel store (.vector cell)) :
    (Node.vectorAssign cell (some op) value).eval fuel store =
      (Node.vectorAssign cell none
        (.vector (.elementOperation op (.vector (.vectorVariable cell)) value))).eval fuel store := by
  have kept (result : Broadcast) (after : Store) (done : value.eval fuel store = some (result, after)) :
      after.vector cell = store.vector cell := by
    cases value with
    | vector value | scalar value =>
      obtain ⟨_, _, ran, done⟩ := Eval.bind_eq_some.mp done
      cases done
      exact Value.vector.inj (spared _ _ ran)
  simp only [eval, elementOperation, Operand.eval, evalElementwise, bind_assoc, pure_bind]
  rw [Eval.read_bind kept]
  simp only [Eval.bind_apply, Eval.read, assign_apply]

theorem eval_elementCompound (compound : op.isCompound = true) {cell : VectorCell} {index value : Node .scalar}
    (idle : (AnyNode.scalar index).IsIdle fuel store)
    (spared : (AnyNode.scalar value).Spares fuel store (.vector cell)) :
    (Node.assignElement cell index (some op) value).eval fuel store =
      (Node.assignElement cell index none
        (.operation op (.element (.vectorVariable cell) index) value)).eval fuel store := by
  have kept (content : Float) (after : Store) (done : value.eval fuel store = some (content, after)) :
      after.vector cell = store.vector cell := Value.vector.inj (spared _ _ done)
  simp only [eval, eval_operation, BinaryOperator.continueWith_of_isCompound compound, bind_assoc, pure_bind]
  cases found : index.eval fuel store with
  | none => rw [Eval.bind_apply, Eval.bind_apply, found]
  | some result =>
    obtain ⟨position, after⟩ := result
    obtain rfl := idle _ _ found
    -- The index comes twice in the longer form, and to the same position both times.
    rw [Eval.bind_of_some found, Eval.bind_of_some found, Eval.bind_of_some found]
    cases Number.toIndex? position with
    | none => simp only [pure_bind, Option.bind_none]
    | some position =>
      simp only [pure_bind, bind_assoc, Option.bind_some]
      rw [Eval.read_bind kept]
      refine congrArg (fun next => (value.eval fuel >>= next) after) (funext fun new => funext fun last => ?_)
      simp only [Eval.bind_apply, Eval.read]
      cases (last.vector cell)[position]? <;> rfl

end Node

/-! ## Assignments in full -/

namespace Compile

/-- What is made of `target := target op value`, where the name stands for the target and `value` is compiled already.
The signs of both operators and what follows the name come with it, as they stand in the formula. -/
def expanded (settings : Settings) (word sign : Lexeme) (op : BinaryOperator) (opSign : Lexeme) (rest : List Lexeme)
    (target : Binding) (start : Place) (value : AnyNode) : Compile AnyNode := do
  let old ← reference settings word rest (some target)
  let combined ← arithmetic settings op opSign old value
  assignment word sign (some target) start combined

/-- What is made of `target[index] := target[index] op value`. -/
def expandedElement (settings : Settings) (word sign : Lexeme) (op : BinaryOperator) (opSign bracket : Lexeme)
    (rest : List Lexeme) (target : Binding) (start : Place) (index value : AnyNode) : Compile AnyNode := do
  let vector ← reference settings word rest (some target)
  let old ← element bracket vector start index
  let combined ← arithmetic settings op opSign old value
  elementAssignment word sign (some target) start index combined

/-- Whether one computation stands for another: from the state, both come to a node without a report or neither does,
and such nodes, evaluated in the store, give the same value and leave the same store. -/
def Abbreviates (before : Progress) (fuel : Nat) (store : Store) (short long : Compile AnyNode) : Prop :=
  ((∃ whole, short before = (.ok whole, before)) ↔ ∃ longer, long before = (.ok longer, before)) ∧
    ∀ whole longer, short before = (.ok whole, before) → long before = (.ok longer, before) →
      whole.evaluate fuel store = longer.evaluate fuel store

theorem Abbreviates.intro {before : Progress} {fuel : Nat} {store : Store} {short long : Compile AnyNode}
    (matched : ∀ whole, short before = (.ok whole, before) →
      ∃ longer, long before = (.ok longer, before) ∧ whole.evaluate fuel store = longer.evaluate fuel store)
    (shortened : ∀ longer, long before = (.ok longer, before) → ∃ whole, short before = (.ok whole, before)) :
    Abbreviates before fuel store short long := by
  constructor
  · constructor
    · intro ⟨whole, made⟩
      obtain ⟨longer, longerMade, -⟩ := matched whole made
      exact ⟨longer, longerMade⟩
    · intro ⟨longer, longerMade⟩
      exact shortened longer longerMade
  · intro whole longer made longerMade
    obtain ⟨other, otherMade, same⟩ := matched whole made
    rw [longerMade] at otherMade
    cases otherMade
    exact same

variable {op : BinaryOperator} {word sign plainSign opSign bracket : Lexeme} {before : Progress}

theorem isCompound_of_compound (combines : compound sign = some op) : op.isCompound = true := by
  have all := isCompound_compound sign
  rw [combines] at all
  exact all

/-- What has recorded problems does not end in the state that it started from. -/
theorem not_reported {α : Type} {outcome : Except Halt α × Progress} {value : α}
    (made : outcome = (.ok value, before)) (longer : before.reports.length < outcome.2.reports.length) : False := by
  rw [made] at longer
  exact Nat.lt_irrefl _ longer

/-- Whether a computation that comes to a value has recorded a problem. -/
def Reported {α : Type} (computation : Compile α) : Prop :=
  ∀ {before after : Progress} {value : α}, computation before = (.ok value, after) →
    before.reports.length < after.reports.length

theorem failed_reported (problem : Problem) (place : Place) : (failed problem place).Reported := by
  intro before after value done
  cases done
  exact Nat.lt_succ_self _

theorem Plain.bind_reported {α β : Type} {first : Compile α} {next : α → Compile β} (plain : first.Plain)
    (reported : ∀ value, (next value).Reported) : (first >>= next).Reported := by
  intro before after result done
  obtain ⟨value, middle, ran, quiet⟩ := plain before
  obtain ⟨found, reports, -⟩ := quiet.reports
  rw [bind_of_ok ran] at done
  have later := reported value done
  rw [reports, List.length_append] at later
  omega

theorem evaluate_congr {k : Kind} {one other : Node k} {fuel : Nat} {store : Store}
    (same : one.eval fuel store = other.eval fuel store) :
    AnyNode.evaluate fuel ⟨k, one⟩ store = AnyNode.evaluate fuel ⟨k, other⟩ store := by
  simp only [AnyNode.evaluate, Eval.bind_apply, same]

/-- Where there is nothing to work out, a scalar stays what it is. -/
theorem scalar_eq_self (settings : Settings) {node : Node .scalar} (unfoldable : node.isFoldable = false)
    (undecided : ∀ value consequent alternative, node ≠ .conditional (.constant value) consequent alternative) :
    scalar settings node before = (.ok (.scalar node), before) := by
  simp only [scalar, view]
  rw [Node.fold_eq_self unfoldable undecided, ite_self]

theorem string_eq_self (settings : Settings) {node : Node .string} (unfoldable : node.isFoldableString = false)
    (undecided : ∀ value consequent alternative, node ≠ .stringConditional (.constant value) consequent alternative) :
    string settings node before = (.ok (.string node), before) := by
  simp only [string, view]
  rw [Node.foldString_eq_self unfoldable undecided, ite_self]

/-- The node that reads what a compound assignment can go to. -/
def current? : Binding → Option AnyNode
  | .scalar cell false => some (.scalar (.variable cell))
  | .string cell false => some (.string (.stringVariable cell))
  | .vector cell => some (.vector (.vectorVariable cell))
  | _ => none

theorem reference_current (settings : Settings) (rest : List Lexeme) {target : Binding} {old : AnyNode}
    (current : current? target = some old) : reference settings word rest (some target) before = (.ok old, before) := by
  match target with
  | .scalar _ true | .string _ true | .function _ => cases current
  | .scalar _ false | .string _ false =>
    cases current
    simp [reference, view]
  | .vector _ =>
    cases current
    rfl

section Expanded

variable (settings : Settings) (plain : compound plainSign = none) {start : Place} {fuel : Nat} {store : Store}
  (rest : List Lexeme)

include plain

theorem expanded_number (isCompound : op.isCompound = true) {cell : NumberCell} {value : Node .scalar}
    (spared : (AnyNode.scalar value).Spares fuel store (.number cell)) :
    ∃ longer, expanded settings word plainSign op opSign rest (.scalar cell false) start (.scalar value) before =
        (.ok longer, before) ∧
      AnyNode.evaluate fuel (.scalar (.assign cell (some op) value)) store = longer.evaluate fuel store := by
  let combined : Node .scalar := .operation op (.variable cell) value
  have joined : arithmetic settings op opSign (.scalar (.variable cell)) (.scalar value) before =
      (.ok (.scalar combined), before) := scalar_eq_self settings rfl (by simp [Node.operation])
  refine ⟨.scalar (.assign cell none combined), ?_, evaluate_congr (Node.eval_compound isCompound spared)⟩
  rw [expanded, bind_of_ok (reference_current settings rest rfl), bind_of_ok joined, assignment, plain]
  rfl

theorem expanded_string {cell : StringCell} {value : Node .string}
    (spared : (AnyNode.string value).Spares fuel store (.string cell)) :
    ∃ longer, expanded settings word plainSign .add opSign rest (.string cell false) start (.string value) before =
        (.ok longer, before) ∧
      AnyNode.evaluate fuel (.string (.stringAssign cell true value)) store = longer.evaluate fuel store := by
  let combined : Node .string := .joined (.stringVariable cell) value
  have joined : arithmetic settings .add opSign (.string (.stringVariable cell)) (.string value) before =
      (.ok (.string combined), before) := string_eq_self settings rfl (by simp [Node.joined])
  refine ⟨.string (.stringAssign cell false combined), ?_, evaluate_congr (Node.eval_appending spared)⟩
  rw [expanded, bind_of_ok (reference_current settings rest rfl), bind_of_ok joined, assignment, plain]
  rfl

theorem expanded_vector {cell : VectorCell} {value : Operand}
    (spared : value.node.Spares fuel store (.vector cell)) :
    ∃ longer, expanded settings word plainSign op opSign rest (.vector cell) start value.node before =
        (.ok longer, before) ∧
      AnyNode.evaluate fuel (.vector (.vectorAssign cell (some op) value)) store = longer.evaluate fuel store := by
  let combined : Node .vector := .elementOperation op (.vector (.vectorVariable cell)) value
  have joined : arithmetic settings op opSign (.vector (.vectorVariable cell)) value.node before =
      (.ok (.vector combined), before) := by cases value <;> rfl
  refine ⟨.vector (.vectorAssign cell none (.vector combined)), ?_, evaluate_congr (Node.eval_vectorCompound spared)⟩
  rw [expanded, bind_of_ok (reference_current settings rest rfl), bind_of_ok joined]
  unfold assignment
  rw [plain]
  rfl

theorem expandedElement_vector (isCompound : op.isCompound = true) {cell : VectorCell} {index value : Node .scalar}
    (idle : (AnyNode.scalar index).IsIdle fuel store)
    (spared : (AnyNode.scalar value).Spares fuel store (.vector cell)) :
    ∃ longer, expandedElement settings word plainSign op opSign bracket rest (.vector cell) start (.scalar index)
          (.scalar value) before = (.ok longer, before) ∧
      AnyNode.evaluate fuel (.scalar (.assignElement cell index (some op) value)) store =
        longer.evaluate fuel store := by
  let combined : Node .scalar := .operation op (.element (.vectorVariable cell) index) value
  have joined : arithmetic settings op opSign (.scalar (.element (.vectorVariable cell) index)) (.scalar value) before =
      (.ok (.scalar combined), before) := scalar_eq_self settings rfl (by simp [Node.operation])
  refine ⟨.scalar (.assignElement cell index none combined), ?_,
    evaluate_congr (Node.eval_elementCompound isCompound idle spared)⟩
  change (arithmetic settings op opSign (.scalar (.element (.vectorVariable cell) index)) (.scalar value) >>=
    fun combined => elementAssignment word plainSign (some (.vector cell)) start (.scalar index) combined) before = _
  rw [bind_of_ok joined, elementAssignment, plain]
  rfl

end Expanded

variable {value whole : AnyNode} {target : Binding} {start : Place}

theorem assignment_cases (combines : compound sign = some op)
    (made : assignment word sign (some target) start value before = (.ok whole, before)) :
    (∃ cell scalar, target = .scalar cell false ∧ value = .scalar scalar ∧
      whole = .scalar (.assign cell (some op) scalar)) ∨
    (∃ cell string, op = .add ∧ target = .string cell false ∧ value = .string string ∧
      whole = .string (.stringAssign cell true string)) ∨
    ∃ cell operand, target = .vector cell ∧ value = Operand.node operand ∧
      whole = .vector (.vectorAssign cell (some op) operand) := by
  unfold assignment at made
  rw [combines] at made
  obtain ⟨k, value⟩ := value
  match target with
  | .scalar _ true | .string _ true | .function _ => exact (not_reported made (Nat.lt_succ_self _)).elim
  | .scalar cell false =>
    cases k with
    | string | vector => exact (not_reported made (Nat.lt_succ_self _)).elim
    | scalar =>
      cases made
      exact .inl ⟨cell, value, rfl, rfl, rfl⟩
  | .string cell false =>
    dsimp only at made
    split at made
    · exact (not_reported made (Nat.lt_succ_self _)).elim
    next appends =>
    cases k with
    | scalar | vector => exact (not_reported made (Nat.lt_succ_self _)).elim
    | string =>
      cases made
      exact .inr (.inl ⟨cell, value, by simpa using appends, rfl, rfl, rfl⟩)
  | .vector cell =>
    cases k with
    | string => exact (not_reported made (Nat.lt_succ_self _)).elim
    | vector =>
      cases made
      exact .inr (.inr ⟨cell, .vector value, rfl, rfl, rfl⟩)
    | scalar =>
      cases made
      exact .inr (.inr ⟨cell, .scalar value, rfl, rfl, rfl⟩)

theorem elementAssignment_cases {index : AnyNode}
    (made : elementAssignment word sign (some target) start index value before = (.ok whole, before)) :
    ∃ cell position scalar, target = .vector cell ∧ index = .scalar position ∧ value = .scalar scalar ∧
      whole = .scalar (.assignElement cell position (compound sign) scalar) := by
  unfold elementAssignment at made
  obtain ⟨indexKind, index⟩ := index
  obtain ⟨k, value⟩ := value
  match target with
  | .scalar _ true | .scalar _ false | .string _ true | .string _ false | .function _ =>
    exact (not_reported made (Nat.lt_succ_self _)).elim
  | .vector cell =>
    cases indexKind with
    | string | vector =>
      cases k with
      | scalar => exact (not_reported made (Nat.lt_succ_self _)).elim
      | string | vector =>
        -- Both the index and the value are reported.
        exact (not_reported made (Nat.lt_add_of_pos_right Nat.two_pos)).elim
    | scalar =>
      cases k with
      | string | vector => exact (not_reported made (Nat.lt_succ_self _)).elim
      | scalar =>
        cases made
        exact ⟨cell, index, value, rfl, rfl, rfl, rfl⟩

/-- Where nothing can be assigned to the target, the problem of the last step is recorded at least. -/
theorem expanded_reported (settings : Settings) (rest : List Lexeme)
    (readable : ∀ function, some target ≠ some (.function function))
    (reported : ∀ combined, (assignment word plainSign (some target) start combined).Reported) :
    (expanded settings word plainSign op opSign rest target start value).Reported := by
  apply (reference_plain settings word rest readable).bind_reported
  intro old
  exact (arithmetic_plain settings op opSign old value).bind_reported reported

theorem expandedElement_reported (settings : Settings) (rest : List Lexeme) (index : AnyNode)
    (readable : ∀ function, some target ≠ some (.function function))
    (reported : ∀ combined, (elementAssignment word plainSign (some target) start index combined).Reported) :
    (expandedElement settings word plainSign op opSign bracket rest target start index value).Reported := by
  apply (reference_plain settings word rest readable).bind_reported
  intro vector
  apply (element_plain bracket vector start index).bind_reported
  intro old
  exact (arithmetic_plain settings op opSign old value).bind_reported reported

/-- Where nothing is reported about the assignment in full, nothing is about the compound one. -/
theorem assignment_of_expanded (settings : Settings) (combines : compound sign = some op)
    (plain : compound plainSign = none) (rest : List Lexeme)
    (made : expanded settings word plainSign op opSign rest target start value before = (.ok whole, before)) :
    ∃ short, assignment word sign (some target) start value before = (.ok short, before) := by
  match target with
  | .function _ => cases made
  | .scalar _ true | .string _ true =>
    apply (Nat.lt_irrefl _ (expanded_reported settings rest (by simp) ?_ made)).elim
    intro combined
    exact failed_reported _ _
  | .scalar cell false =>
    unfold expanded assignment at made
    obtain ⟨k, value⟩ := value
    cases k with
    | string | vector => exact (not_reported made (Nat.lt_succ_self _)).elim
    | scalar => exact ⟨_, rfl⟩
  | .string cell false =>
    unfold expanded assignment at made
    unfold assignment
    rw [plain] at made
    rw [combines]
    obtain ⟨k, value⟩ := value
    cases k with
    | scalar | vector => exact (not_reported made (Nat.lt_add_of_pos_right Nat.two_pos)).elim
    | string =>
      by_cases appends : op = .add
      · subst appends
        exact ⟨_, rfl⟩
      · simp only [arithmetic, if_neg appends] at made
        exact (not_reported made (Nat.lt_add_of_pos_right Nat.two_pos)).elim
  | .vector cell =>
    unfold expanded assignment at made
    obtain ⟨k, value⟩ := value
    cases k with
    | string => exact (not_reported made (Nat.lt_succ_self _)).elim
    | vector | scalar => exact ⟨_, rfl⟩

theorem elementAssignment_of_expanded (settings : Settings) (rest : List Lexeme) {index : AnyNode}
    (made : expandedElement settings word plainSign op opSign bracket rest target start index value before =
      (.ok whole, before)) :
    ∃ short, elementAssignment word sign (some target) start index value before = (.ok short, before) := by
  match target with
  | .function _ => cases made
  | .scalar .. | .string .. =>
    apply (Nat.lt_irrefl _ (expandedElement_reported settings rest index (by simp) ?_ made)).elim
    intro combined
    exact failed_reported _ _
  | .vector cell =>
    unfold expandedElement at made
    obtain ⟨indexKind, index⟩ := index
    obtain ⟨k, value⟩ := value
    cases indexKind with
    | string | vector =>
      cases k with
      | scalar => exact (not_reported made (Nat.lt_add_of_pos_right Nat.two_pos)).elim
      | string | vector => exact (not_reported made (Nat.lt_add_of_pos_right (Nat.succ_pos 2))).elim
    | scalar =>
      cases k with
      | string | vector => exact (not_reported made (Nat.lt_succ_self _)).elim
      | scalar => exact ⟨_, rfl⟩

section Abbreviation

variable (settings : Settings) (combines : compound sign = some op) (plain : compound plainSign = none)
  (rest : List Lexeme) {fuel : Nat} {store : Store}
  (spared : ∀ cell, target.cell? = some cell → value.Spares fuel store cell)

include combines plain spared

theorem assignment_abbreviates :
    Abbreviates before fuel store (assignment word sign (some target) start value)
      (expanded settings word plainSign op opSign rest target start value) := by
  apply Abbreviates.intro
  · intro whole made
    obtain ⟨cell, scalar, rfl, rfl, rfl⟩ | ⟨cell, string, rfl, rfl, rfl, rfl⟩ | ⟨cell, operand, rfl, rfl, rfl⟩ :=
      assignment_cases combines made
    · exact expanded_number settings plain rest (isCompound_of_compound combines) (spared _ rfl)
    · exact expanded_string settings plain rest (spared _ rfl)
    · exact expanded_vector settings plain rest (spared _ rfl)
  · intro longer made
    exact assignment_of_expanded settings combines plain rest made

theorem elementAssignment_abbreviates {index : AnyNode} (idle : index.IsIdle fuel store) :
    Abbreviates before fuel store (elementAssignment word sign (some target) start index value)
      (expandedElement settings word plainSign op opSign bracket rest target start index value) := by
  apply Abbreviates.intro
  · intro whole made
    obtain ⟨cell, position, scalar, rfl, rfl, rfl, rfl⟩ := elementAssignment_cases made
    rw [combines]
    exact expandedElement_vector settings plain rest (isCompound_of_compound combines) idle (spared _ rfl)
  · intro longer made
    exact elementAssignment_of_expanded settings rest made

end Abbreviation

/-- A compound assignment is an abbreviation of the assignment in full, whether to a scalar, a string or a vector as a
whole or to an element of a vector: both can be compiled without a report or neither can, and from every store in which
the value leaves the target alone, and the index has no effect, both give the same value and leave the same store, or
both go on forever. -/
theorem compound_abbreviates (settings : Settings) (combines : compound sign = some op)
    (plain : compound plainSign = none) (rest : List Lexeme) (fuel : Nat) (store : Store)
    (spared : ∀ cell, target.cell? = some cell → value.Spares fuel store cell) :
    Abbreviates before fuel store (assignment word sign (some target) start value)
        (expanded settings word plainSign op opSign rest target start value) ∧
      ∀ index : AnyNode, index.IsIdle fuel store →
        Abbreviates before fuel store (elementAssignment word sign (some target) start index value)
          (expandedElement settings word plainSign op opSign bracket rest target start index value) := by
  constructor
  · exact assignment_abbreviates settings combines plain rest spared
  · intro index idle
    exact elementAssignment_abbreviates settings combines plain rest spared idle

/-- The vector that is changed may be read in the value and in the index: in `v[v[]] *= v[0]`, the size of `v` is the
index, and out of range. -/
theorem compound_abbreviates_outOfRange :
    let word : Lexeme := ⟨.name "v", "v", ⟨1, 1⟩⟩
    let sign : Lexeme := ⟨.fixed .timesAssign, "*=", ⟨1, 8⟩⟩
    let plainSign : Lexeme := ⟨.fixed .assign, ":=", ⟨1, 8⟩⟩
    let opSign : Lexeme := ⟨.fixed .star, "*", ⟨1, 18⟩⟩
    let bracket : Lexeme := ⟨.fixed .leftBracket, "[", ⟨1, 2⟩⟩
    let cell : VectorCell := ⟨0⟩
    let index : AnyNode := .scalar (.vectorSize (.vectorVariable cell))
    let value : AnyNode := .scalar (.element (.vectorVariable cell) (.constant 0.0))
    let store : Store := (Store.empty.newVector [2.0, 3.0]).2
    compound sign = some .mul ∧ compound plainSign = none ∧ value.Spares 0 store (.vector cell) ∧
      index.IsIdle 0 store ∧
      Abbreviates (.start .empty) 0 store
        (elementAssignment word sign (some (.vector cell)) (.lexeme word) index value)
        (expandedElement .standard word plainSign .mul opSign bracket [bracket] (.vector cell) (.lexeme word) index
          value) := by
  intro word sign plainSign opSign bracket cell index value store
  have spared : value.Spares 0 store (.vector cell) := by
    apply AnyNode.spares_of_untargeted
    refine .intro nofun (List.forall_mem_cons.mpr ⟨?_, List.forall_mem_singleton.mpr ?_⟩)
    · exact .intro nofun (List.forall_mem_nil _)
    · exact .intro nofun (List.forall_mem_nil _)
  have idle : index.IsIdle 0 store := by
    apply AnyNode.isIdle_of_untargeted
    refine .intro ⟨trivial, rfl⟩ (List.forall_mem_singleton.mpr ?_)
    exact .intro ⟨trivial, rfl⟩ (List.forall_mem_nil _)
  have combines : compound sign = some .mul := rfl
  have plain : compound plainSign = none := rfl
  have abbreviates := @compound_abbreviates _ word _ _ opSign bracket (.start .empty) value (.vector cell)
    (.lexeme word) .standard combines plain [bracket] 0 store fun _ same => Option.some.inj same ▸ spared
  exact ⟨combines, plain, spared, idle, abbreviates.2 index idle⟩

/-! ## Assignments in a formula -/

section Trees

variable {environment : Environment} {begun middle : Progress} {tree : Tree} {rest : List Lexeme} {fuel : Nat}
  {store : Store}

theorem compile_name (rest : List Lexeme) {old : AnyNode}
    (known : begun.binding? environment word.text = some target) (current : current? target = some old) :
    (Tree.name word rest).compile environment begun = (.ok old, begun) := by
  rw [Tree.compile, bind_of_ok (resolve_of_known known)]
  exact reference_current environment.settings rest current

theorem compile_arithmetic (op : BinaryOperator) (opSign : Lexeme) {first : Tree} {left : AnyNode}
    (done : first.compile environment begun = (.ok left, begun))
    (compiled : tree.compile environment begun = (.ok value, middle)) :
    (Tree.arithmetic first [((op, opSign), tree)]).compile environment begun =
      arithmetic environment.settings op opSign left value middle := by
  rw [Tree.compile, bind_of_ok done, compileArithmetic, bind_of_ok compiled]
  exact congrFun (bind_pure _) middle

/-- The tree of `target := target op value` is compiled to the assignment in full. -/
theorem compile_expanded {old : AnyNode} (current : current? target = some old)
    (resolved : resolve environment word before = (.ok (some target), begun))
    (known : begun.binding? environment word.text = some target)
    (compiled : tree.compile environment begun = (.ok value, middle)) :
    (Tree.assignment word plainSign start (.arithmetic (.name word rest) [((op, opSign), tree)])).compile environment
        before =
      expanded environment.settings word plainSign op opSign rest target start value middle := by
  have combined := compile_arithmetic op opSign (compile_name rest known current) compiled
  rw [Tree.compile, bind_of_ok resolved, bind_apply, combined]
  rw [expanded, bind_of_ok (reference_current environment.settings rest current), bind_apply]

/-- The tree of `target[index] := target[index] op value` is compiled to the assignment in full, if the index comes to
the same twice. -/
theorem compile_expandedElement {cell : VectorCell} {position : Node .scalar} {index : Tree} {indexed : Progress}
    (resolved : resolve environment word before = (.ok (some (.vector cell)), begun))
    (first : index.compile environment begun = (.ok (.scalar position), indexed))
    (known : indexed.binding? environment word.text = some (.vector cell))
    (again : index.compile environment indexed = (.ok (.scalar position), indexed))
    (compiled : tree.compile environment indexed = (.ok value, middle)) :
    (Tree.elementAssignment word start index plainSign
        (.arithmetic (.element bracket (.name word rest) start index) [((op, opSign), tree)])).compile environment
        before =
      expandedElement environment.settings word plainSign op opSign bracket rest (.vector cell) start
        (.scalar position) value middle := by
  have element : (Tree.element bracket (.name word rest) start index).compile environment indexed =
      (.ok (.scalar (.element (.vectorVariable cell) position)), indexed) := by
    rw [Tree.compile, bind_of_ok (compile_name rest known rfl), bind_of_ok again]
    rfl
  have combined := compile_arithmetic op opSign element compiled
  rw [Tree.compile, bind_of_ok resolved, bind_of_ok first, bind_apply, combined]
  rfl

/-- Whether one tree stands for another: in going from the one state to the other, both come to a node or neither does,
and such nodes, evaluated in the store, give the same value and leave the same store. -/
def StandsFor (environment : Environment) (before after : Progress) (fuel : Nat) (store : Store) (short long : Tree) :
    Prop :=
  ((∃ whole, short.compile environment before = (.ok whole, after)) ↔
    ∃ longer, long.compile environment before = (.ok longer, after)) ∧
  ∀ whole longer, short.compile environment before = (.ok whole, after) →
    long.compile environment before = (.ok longer, after) → whole.evaluate fuel store = longer.evaluate fuel store

variable (combines : compound sign = some op) (plain : compound plainSign = none)

include combines plain

/-- A formula may have `target op= value` where it has `target := target op value`. -/
theorem standsFor_expanded {old : AnyNode} (current : current? target = some old)
    (resolved : resolve environment word before = (.ok (some target), begun))
    (known : begun.binding? environment word.text = some target)
    (compiled : tree.compile environment begun = (.ok value, middle))
    (spared : ∀ cell, target.cell? = some cell → value.Spares fuel store cell) :
    StandsFor environment before middle fuel store (.assignment word sign start tree)
      (.assignment word plainSign start (.arithmetic (.name word rest) [((op, opSign), tree)])) := by
  unfold StandsFor
  rw [compile_expanded current resolved known compiled, Tree.compile, bind_of_ok resolved, bind_of_ok compiled]
  exact assignment_abbreviates environment.settings combines plain rest spared

/-- A formula may have `target[index] op= value` where it has `target[index] := target[index] op value`. -/
theorem standsFor_expandedElement {cell : VectorCell} {position : Node .scalar} {index : Tree} {indexed : Progress}
    (resolved : resolve environment word before = (.ok (some (.vector cell)), begun))
    (first : index.compile environment begun = (.ok (.scalar position), indexed))
    (known : indexed.binding? environment word.text = some (.vector cell))
    (again : index.compile environment indexed = (.ok (.scalar position), indexed))
    (compiled : tree.compile environment indexed = (.ok value, middle))
    (spared : value.Spares fuel store (.vector cell)) (idle : (AnyNode.scalar position).IsIdle fuel store) :
    StandsFor environment before middle fuel store (.elementAssignment word start index sign tree)
      (.elementAssignment word start index plainSign
        (.arithmetic (.element bracket (.name word rest) start index) [((op, opSign), tree)])) := by
  unfold StandsFor
  rw [compile_expandedElement resolved first known again compiled, Tree.compile, bind_of_ok resolved,
    bind_of_ok first, bind_of_ok compiled]
  apply elementAssignment_abbreviates environment.settings combines plain rest _ idle
  intro other same
  cases same
  exact spared

end Trees

end Compile

end LiveExpr
