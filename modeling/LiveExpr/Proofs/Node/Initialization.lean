import LiveExpr.Proofs.Node.TraceRelation

/-!
What an evaluation depends on. If it reads no cell before the content of the cell is known, because it was known from
the beginning or because the evaluation itself has written the cell, then what the other cells hold has no influence.
-/

namespace LiveExpr

open AnyNode (Everywhere)
open BinaryOperator (combine)

/-! ## Known cells -/

namespace Event

/-- The cells whose contents are known after a log: those known before, and those that were given new contents. -/
def learned (known : Cell → Prop) : List Event → Cell → Prop
  | [] => known
  | .writes cell :: log => learned (fun other => known other ∨ other = cell) log
  | _ :: log => learned known log

/-- Whether no cell is read before its content is known. -/
def IsSettled (known : Cell → Prop) : List Event → Prop
  | [] => True
  | .reads cell :: log => known cell ∧ IsSettled known log
  | .writes cell :: log => IsSettled (fun other => known other ∨ other = cell) log
  | _ :: log => IsSettled known log

variable {known : Cell → Prop}

theorem learned_append (first second : List Event) :
    learned known (first ++ second) = learned (learned known first) second := by
  induction first generalizing known with
  | nil => rfl
  | cons event first induction => cases event <;> exact induction

theorem isSettled_append {first second : List Event} :
    IsSettled known (first ++ second) ↔ IsSettled known first ∧ IsSettled (learned known first) second := by
  induction first generalizing known with
  | nil => simp [IsSettled, learned]
  | cons event first induction =>
    cases event with
    | reads cell =>
      change known cell ∧ IsSettled known (first ++ second) ↔ (known cell ∧ IsSettled known first) ∧ _
      rw [induction, and_assoc]
      rfl
    | writes | alters | rounds => exact induction

theorem learned_of_known {cell : Cell} (isKnown : known cell) (log : List Event) : learned known log cell := by
  induction log generalizing known with
  | nil => exact isKnown
  | cons event log induction =>
    cases event with
    | writes => exact induction (.inl isKnown)
    | reads | alters | rounds => exact induction isKnown

end Event

/-- Whether two stores have the same contents in the known cells, and vectors of the same lengths. -/
structure Store.Matches (known : Cell → Prop) (one other : Store) : Prop where
  numbers (cell : NumberCell) (isKnown : known (.number cell)) : one.number cell = other.number cell
  strings (cell : StringCell) (isKnown : known (.string cell)) : one.string cell = other.string cell
  vectors (cell : VectorCell) (isKnown : known (.vector cell)) : one.vector cell = other.vector cell
  lengths (cell : VectorCell) : (one.vector cell).length = (other.vector cell).length

namespace Store

theorem number_setNumber (store : Store) (cell other : NumberCell) (value : Float) :
    (store.setNumber cell value).number other = if other = cell then value else store.number other := by
  split
  · next same =>
    rw [same]
    exact Cells.get_set_same store.numbers cell.index value
  · next different =>
    exact Cells.get_set_other store.numbers (fun same => different (congrArg NumberCell.mk same)) value

theorem string_setString (store : Store) (cell other : StringCell) (content : Bytes) :
    (store.setString cell content).string other = if other = cell then content else store.string other := by
  split
  · next same =>
    rw [same]
    exact Cells.get_set_same store.strings cell.index content
  · next different =>
    exact Cells.get_set_other store.strings (fun same => different (congrArg StringCell.mk same)) content

def replaceVector (store : Store) (cell : VectorCell) (values : List Float) : Store :=
  { store with vectors := store.vectors.set cell.index values }

theorem vector_replaceVector (store : Store) (cell other : VectorCell) (values : List Float) :
    (store.replaceVector cell values).vector other = if other = cell then values else store.vector other := by
  split
  · next same =>
    rw [same]
    exact Cells.get_set_same store.vectors cell.index values
  · next different =>
    exact Cells.get_set_other store.vectors (fun same => different (congrArg VectorCell.mk same)) values

theorem vector_setVector (store : Store) (cell : VectorCell) (values : List Float) :
    (store.setVector cell values).vector cell = overwrite (store.vector cell) values :=
  Cells.get_set_same store.vectors cell.index _

/-- What is as long as the old elements takes the place of all of them. -/
theorem overwrite_of_length_eq {old values : List Float} (sameLength : values.length = old.length) :
    overwrite old values = values := by
  induction old generalizing values with
  | nil =>
    obtain rfl := List.eq_nil_of_length_eq_zero sameLength
    rfl
  | cons first old induction =>
    cases values with
    | nil => cases sameLength
    | cons value values => rw [overwrite, induction (Nat.succ.inj sameLength)]

namespace Matches

variable {known : Cell → Prop} {one other : Store}

theorem setNumber (same : one.Matches known other) (cell : NumberCell) (value : Float) :
    (one.setNumber cell value).Matches (fun found => known found ∨ found = .number cell)
      (other.setNumber cell value) where
  numbers found isKnown := by
    rw [number_setNumber, number_setNumber]
    split
    · rfl
    · next different =>
      exact same.numbers found (isKnown.resolve_right fun equal => different (Cell.number.inj equal))
  strings found isKnown := same.strings found (isKnown.resolve_right nofun)
  vectors found isKnown := same.vectors found (isKnown.resolve_right nofun)
  lengths := same.lengths

theorem setString (same : one.Matches known other) (cell : StringCell) (content : Bytes) :
    (one.setString cell content).Matches (fun found => known found ∨ found = .string cell)
      (other.setString cell content) where
  numbers found isKnown := same.numbers found (isKnown.resolve_right nofun)
  strings found isKnown := by
    rw [string_setString, string_setString]
    split
    · rfl
    · next different =>
      exact same.strings found (isKnown.resolve_right fun equal => different (Cell.string.inj equal))
  vectors found isKnown := same.vectors found (isKnown.resolve_right nofun)
  lengths := same.lengths

theorem replaceVector (same : one.Matches known other) (cell : VectorCell) (values : List Float) :
    (one.replaceVector cell values).Matches (fun found => known found ∨ found = .vector cell)
      (other.replaceVector cell values) where
  numbers found isKnown := same.numbers found (isKnown.resolve_right nofun)
  strings found isKnown := same.strings found (isKnown.resolve_right nofun)
  vectors found isKnown := by
    rw [vector_replaceVector, vector_replaceVector]
    split
    · rfl
    · next different =>
      exact same.vectors found (isKnown.resolve_right fun equal => different (Cell.vector.inj equal))
  lengths found := by
    rw [vector_replaceVector, vector_replaceVector]
    split
    · rfl
    · exact same.lengths found

theorem mono {fewer : Cell → Prop} (same : one.Matches known other) (implies : ∀ cell, fewer cell → known cell) :
    one.Matches fewer other :=
  ⟨fun cell isKnown => same.numbers cell (implies _ isKnown), fun cell isKnown => same.strings cell (implies _ isKnown),
    fun cell isKnown => same.vectors cell (implies _ isKnown), same.lengths⟩

/-- A vector may be changed in each store in its own way if its content is not known. -/
theorem alterVector (same : one.Matches known other) (cell : VectorCell) {values others : List Float}
    (sameValues : known (.vector cell) → values = others) (sameLength : values.length = others.length) :
    (one.replaceVector cell values).Matches known (other.replaceVector cell others) where
  numbers := same.numbers
  strings := same.strings
  vectors found isKnown := by
    rw [vector_replaceVector, vector_replaceVector]
    split
    · next equal => exact sameValues (equal ▸ isKnown)
    · exact same.vectors found isKnown
  lengths found := by
    rw [vector_replaceVector, vector_replaceVector]
    split
    · exact sameLength
    · exact same.lengths found

end Matches

end Store

/-! ## Settled computations -/

namespace Traced

variable {α β : Type}

/-- Whether two computations have the same log, the same value and the same effects on what is known, from any two
stores that match on it, if the first one reads nothing else. -/
def Settles (one other : Traced α) : Prop :=
  ∀ known (store counterpart : Store), store.Matches known counterpart → Event.IsSettled known (one store).1 →
    (other counterpart).1 = (one store).1 ∧
      Option.Rel (fun result another => result.1 = another.1 ∧
        result.2.Matches (Event.learned known (one store).1) another.2) (one store).2 (other counterpart).2

namespace Settles

theorem pure (value : α) : Settles (Pure.pure value) (Pure.pure value) :=
  fun _ _ _ same _ => ⟨rfl, .some ⟨rfl, same⟩⟩

theorem bind {one other : Traced α} {next otherNext : α → Traced β} (first : Settles one other)
    (second : ∀ value, Settles (next value) (otherNext value)) : Settles (one >>= next) (other >>= otherNext) := by
  intro known store counterpart same settled
  have firstSettled : Event.IsSettled known (one store).1 := by
    rcases done : one store with ⟨log, _ | ⟨value, middle⟩⟩
    · rw [bind_of_none done] at settled
      exact settled
    · rw [bind_of_some done, Event.isSettled_append] at settled
      exact settled.1
  obtain ⟨sameLog, related⟩ := first known store counterpart same firstSettled
  rcases done : one store with ⟨log, result⟩
  rcases otherDone : other counterpart with ⟨otherLog, otherResult⟩
  rw [done, otherDone] at sameLog related
  dsimp only at sameLog related
  subst sameLog
  cases related with
  | none =>
    rw [bind_of_none done, bind_of_none otherDone]
    exact ⟨rfl, .none⟩
  | @some result another related =>
    obtain ⟨value, middle⟩ := result
    obtain ⟨_, otherMiddle⟩ := another
    obtain ⟨rfl, sameMiddle⟩ := related
    rw [bind_of_some done, Event.isSettled_append] at settled
    obtain ⟨sameLog, related⟩ := second value _ middle otherMiddle sameMiddle settled.2
    rw [bind_of_some done, bind_of_some otherDone]
    refine ⟨by rw [sameLog], ?_⟩
    rw [Event.learned_append]
    exact related

theorem repeatWhile {condition otherCondition body otherBody : Traced Float} {step otherStep : Traced Unit}
    (first : Settles condition otherCondition) (second : Settles body otherBody) (third : Settles step otherStep)
    (limited : Bool) (rounds done : Nat) (last : Float) :
    Settles (repeatWhile condition body step limited rounds done last)
      (repeatWhile otherCondition otherBody otherStep limited rounds done last) := by
  induction rounds generalizing done last with
  | zero =>
    intro known store counterpart same _
    cases limited with
    | true => exact ⟨rfl, .some ⟨rfl, same⟩⟩
    | false => exact ⟨rfl, .none⟩
  | succ rounds induction =>
    refine first.bind fun value => ?_
    split
    · exact second.bind fun value => third.bind fun _ => induction (done + 1) value
    · exact fun known store counterpart same _ => ⟨rfl, .some ⟨rfl, same⟩⟩

end Settles

/-! ## Accesses -/

theorem settles_assign (target : NumberCell) (op : Option BinaryOperator) (value : Float) :
    Settles (assign target op value) (assign target op value) := by
  intro known store counterpart same settled
  cases op with
  | none => exact ⟨rfl, .some ⟨rfl, same.setNumber target value⟩⟩
  | some op =>
    have sameOld := same.numbers target settled.1
    refine ⟨rfl, .some ⟨congrArg (op.apply · value) sameOld, ?_⟩⟩
    change (store.setNumber target (op.apply (store.number target) value)).Matches _
      (counterpart.setNumber target (op.apply (counterpart.number target) value))
    rw [sameOld]
    exact same.setNumber target _

theorem settles_assignString (target : StringCell) (append : Bool) (value : Bytes) :
    Settles (assignString target append value) (assignString target append value) := by
  intro known store counterpart same settled
  cases append with
  | false => exact ⟨rfl, .some ⟨rfl, same.setString target value⟩⟩
  | true =>
    have sameOld := same.strings target settled.1
    refine ⟨rfl, .some ⟨congrArg (· ++ value) sameOld, ?_⟩⟩
    change (store.setString target (store.string target ++ value)).Matches _
      (counterpart.setString target (counterpart.string target ++ value))
    rw [sameOld]
    exact same.setString target _

theorem settles_assignElement (target : VectorCell) (index : Float) (op : Option BinaryOperator) (value : Float) :
    Settles (assignElement target index op value) (assignElement target index op value) := by
  intro known store counterpart same settled
  have found : Option.Rel (fun one other => one.1 = other.1 ∧ (known (.vector target) → one.2 = other.2))
      ((Number.toIndex? index).bind fun index => (store.vector target)[index]?.map (index, ·))
      ((Number.toIndex? index).bind fun index => (counterpart.vector target)[index]?.map (index, ·)) := by
    cases Number.toIndex? index with
    | none => exact .none
    | some position =>
      have sameLength := same.lengths target
      by_cases inside : position < (store.vector target).length
      · have alsoInside : position < (counterpart.vector target).length := sameLength ▸ inside
        rw [Option.bind_some, Option.bind_some, List.getElem?_eq_getElem inside, List.getElem?_eq_getElem alsoInside]
        exact .some ⟨rfl, fun isKnown => by simp only [same.vectors target isKnown]⟩
      · have alsoOutside : ¬position < (counterpart.vector target).length := sameLength ▸ inside
        rw [Option.bind_some, Option.bind_some, List.getElem?_eq_none (Nat.le_of_not_lt inside),
          List.getElem?_eq_none (Nat.le_of_not_lt alsoOutside)]
        exact .none
  unfold assignElement at settled ⊢
  revert found settled
  generalize ((Number.toIndex? index).bind fun index => (store.vector target)[index]?.map (index, ·)) = one
  generalize ((Number.toIndex? index).bind fun index => (counterpart.vector target)[index]?.map (index, ·)) = other
  rintro settled (@⟨⟨position, old⟩, ⟨_, otherOld⟩, rfl, sameOld⟩ | _)
  · have sameLength (value other : Float) :
        ((store.vector target).set position value).length =
          ((counterpart.vector target).set position other).length := by
      rw [List.length_set, List.length_set, same.lengths target]
    cases op with
    | none =>
      refine ⟨rfl, .some ⟨rfl, same.alterVector target (fun isKnown => ?_) (sameLength _ _)⟩⟩
      rw [same.vectors target isKnown]
      rfl
    | some op =>
      obtain rfl : old = otherOld := sameOld settled.1
      refine ⟨rfl, .some ⟨rfl, same.alterVector target (fun isKnown => ?_) (sameLength _ _)⟩⟩
      rw [same.vectors target isKnown]
  · exact ⟨rfl, .some ⟨rfl, same⟩⟩

/-- A vector that is filled with one value is known afterwards; otherwise it must be known before. -/
theorem settles_assignVector (target : VectorCell) (op : Option BinaryOperator) (value : Broadcast) :
    Settles (assignVector target op value) (assignVector target op value) := by
  intro known store counterpart same settled
  have sameLength := same.lengths target
  have ofKnown (isKnown : known (.vector target)) :
      (store.setVector target (value.assign op (store.vector target))).vector target =
          (counterpart.setVector target (value.assign op (counterpart.vector target))).vector target ∧
        (store.setVector target (value.assign op (store.vector target))).Matches known
          (counterpart.setVector target (value.assign op (counterpart.vector target))) := by
    have sameContent := same.vectors target isKnown
    rw [Store.vector_setVector, Store.vector_setVector, sameContent]
    refine ⟨rfl, same.alterVector target (fun _ => by rw [sameContent]) ?_⟩
    rw [Store.length_overwrite, Store.length_overwrite, sameLength]
  cases op with
  | some op => exact ⟨rfl, .some (ofKnown settled.1)⟩
  | none =>
    cases value with
    | each values => exact ⟨rfl, .some (ofKnown settled.1)⟩
    | same value =>
      have filled (old : List Float) :
          Store.overwrite old (Broadcast.assign none old (.same value)) = List.replicate old.length value := by
        have constant : Broadcast.assign none old (.same value) = List.replicate old.length value :=
          List.map_const'
        rw [constant, Store.overwrite_of_length_eq List.length_replicate]
      refine ⟨rfl, .some ⟨?_, ?_⟩⟩
      · change (store.setVector target _).vector target = (counterpart.setVector target _).vector target
        rw [Store.vector_setVector, Store.vector_setVector, filled, filled, sameLength]
      · change (store.replaceVector target _).Matches _ (counterpart.replaceVector target _)
        rw [filled, filled, sameLength]
        exact same.replaceVector target _

theorem length_resetContent (length : Nat) (values : List Float) (fill : Bool) :
    (resetContent length values fill).length = length := by
  unfold resetContent
  split
  · exact List.length_replicate
  · rw [Store.length_overwrite, List.length_replicate]

theorem settles_reset (target : VectorCell) (values : List Float) (fill : Bool) :
    Settles (reset target values fill) (reset target values fill) := by
  intro known store counterpart same settled
  have sameLength := same.lengths target
  have content (old : List Float) :
      Store.overwrite old (resetContent old.length values fill) = resetContent old.length values fill :=
    Store.overwrite_of_length_eq (length_resetContent _ _ _)
  refine ⟨rfl, .some ⟨?_, ?_⟩⟩
  · change (store.setVector target _).vector target = (counterpart.setVector target _).vector target
    rw [Store.vector_setVector, Store.vector_setVector, content, content, sameLength]
  · change (store.replaceVector target _).Matches _ (counterpart.replaceVector target _)
    rw [content, content, sameLength]
    exact same.replaceVector target _

theorem IsAccess.settles {cell : Cell} {computation : Traced α} (isAccess : computation.IsAccess cell) :
    Settles computation computation := by
  cases isAccess with
  | number cell =>
    exact fun known store counterpart same settled => ⟨rfl, .some ⟨same.numbers cell settled.1, same⟩⟩
  | string cell =>
    exact fun known store counterpart same settled => ⟨rfl, .some ⟨same.strings cell settled.1, same⟩⟩
  | vector cell =>
    exact fun known store counterpart same settled => ⟨rfl, .some ⟨same.vectors cell settled.1, same⟩⟩
  | assign => exact settles_assign _ _ _
  | assignString => exact settles_assignString _ _ _
  | assignElement => exact settles_assignElement _ _ _ _
  | assignVector => exact settles_assignVector _ _ _
  | reset => exact settles_reset _ _ _

/-- Two evaluations of one graph that calls no function of the host. -/
def settling (fuel : Nat) : Relation fuel fuel id where
  Holds := Settles
  accessible _ := True
  callable _ := False
  bounded _ := True
  pure := .pure
  bind := .bind
  access isAccess _ := isAccess.settles
  call := False.elim
  loop _ _ _ _ _ _ _ first second third := first.repeatWhile second third _ _ _ _

end Traced

/-! ## Graphs -/

namespace AnyNode

/-- Whether the node itself calls no function of the host. -/
def IsCallFree : AnyNode → Prop
  | ⟨_, .userCall _ _⟩ => False
  | _ => True

/-- What an evaluation does not read before it has written it has no influence on the evaluation. -/
theorem settles_trace {node : AnyNode} (free : node.Everywhere IsCallFree) (fuel : Nat) :
    Traced.Settles (node.trace fuel) (node.trace fuel) := by
  have admitted : node.Everywhere (Traced.settling fuel).Admits := by
    refine free.imp ?_
    rintro ⟨k, node⟩ free
    cases node <;> first | exact free | exact fun _ _ => trivial
  have related : Traced.Settles (node.2.trace fuel) ((node.2.relabel .none).trace fuel) :=
    Traced.Relation.of_everywhere admitted
  rw [node.2.relabel_none] at related
  exact related.bind fun _ => .pure _

end AnyNode

/-! ## Expressions -/

theorem related_imp {α β : Type} {relation weaker : α → β → Prop}
    (implies : ∀ one other, relation one other → weaker one other) {one : Option α} {other : Option β}
    (related : Option.Rel relation one other) : Option.Rel weaker one other := by
  cases related with
  | none => exact .none
  | some related => exact .some (implies _ _ related)

/-- What runs without reading anything unknown gives the same value and leaves the same contents of what is known. -/
theorem Traced.Settles.erased {α : Type} {one other : Traced α} (settles : Settles one other) {known : Cell → Prop}
    {store counterpart : Store} (same : store.Matches known counterpart)
    (settled : Event.IsSettled known (one store).1) :
    Option.Rel (fun result another => result.1 = another.1 ∧ result.2.Matches known another.2)
      (one.erase store) (other.erase counterpart) := by
  obtain ⟨-, related⟩ := settles known store counterpart same settled
  exact related_imp (fun _ _ related => ⟨related.1, related.2.mono fun _ isKnown => Event.learned_of_known isKnown _⟩)
    related

theorem Expression.settles_trace (expression : Expression)
    (callFree : ∀ compiled, expression.compiled = some compiled → compiled.root.Everywhere AnyNode.IsCallFree)
    (fuel : Nat) : Traced.Settles (expression.trace fuel) (expression.trace fuel) := by
  unfold trace
  cases stored : expression.compiled with
  | some compiled => exact AnyNode.settles_trace (callFree compiled stored) fuel
  | none => exact .pure _

/-- Evaluation carries no state from one time to the next, as long as it reads no variable of the expression before it
has declared it. If an expression calls no function of the host, and two evaluations start from the same contents of
what the host has bound, and one of them reads nothing else before writing it, then both give the same value and leave
the same contents of what the host has bound, or neither comes to an end in its rounds, whatever the other cells
hold. -/
theorem Expression.evaluate_of_settled (expression : Expression)
    (callFree : ∀ compiled, expression.compiled = some compiled → compiled.root.Everywhere AnyNode.IsCallFree)
    (bound : Cell → Prop) {store other : Store} (same : store.Matches bound other) {fuel : Nat}
    (settled : Event.IsSettled bound (expression.log fuel store)) :
    Option.Rel (fun result another => result.1 = another.1 ∧ result.2.Matches bound another.2)
      (expression.evaluate fuel store) (expression.evaluate fuel other) := by
  rw [← erase_trace]
  exact (expression.settles_trace callFree fuel).erased same settled

def conditionWorld : World where
  store := { Store.empty with numbers := ⟨#[0.0]⟩ }
  tables := ⟨#[SymbolTable.empty.insert "c" (.scalar ⟨0⟩ false)]⟩

theorem tokenize_declared :
    tokenize "var x:=c;x" = .ok [⟨.fixed .varWord, "var", ⟨1, 1⟩⟩, ⟨.name "x", "x", ⟨1, 5⟩⟩,
      ⟨.fixed .assign, ":=", ⟨1, 6⟩⟩, ⟨.name "c", "c", ⟨1, 8⟩⟩, ⟨.fixed .semicolon, ";", ⟨1, 9⟩⟩,
      ⟨.name "x", "x", ⟨1, 10⟩⟩] := by
  with_unfolding_all rfl

/-- A variable that is always declared before it is read is forgotten. -/
theorem Expression.evaluate_of_settled_declared :
    let compiled := (Expression.mk ⟨0⟩ none).compile .standard none "var x:=c;x" conditionWorld
    let store := compiled.2.world.store
    compiled.1.isCompiled = true ∧
      Option.Rel
        (fun result another => result.1 = another.1 ∧ result.2.Matches (· = .number ⟨0⟩) another.2)
        (compiled.1.evaluate 0 store) (compiled.1.evaluate 0 (store.setNumber ⟨1⟩ 1.0)) := by
  intro compiled store
  have stored : compiled.1.compiled = some ⟨"var x:=c;x", .standard,
      AnyNode.scalar (.sequence [AnyNode.scalar (.assign ⟨1⟩ none (.variable ⟨0⟩))] (.variable ⟨1⟩))⟩ := by
    change (Compilation.ofSource _ "var x:=c;x" conditionWorld).root.map _ = _
    unfold Compilation.ofSource
    rw [tokenize_declared]
    rfl
  have same : store.Matches (· = .number ⟨0⟩) (store.setNumber ⟨1⟩ 1.0) := by
    refine ⟨?_, fun _ _ => rfl, fun _ _ => rfl, fun _ => rfl⟩
    rintro cell isBound
    rw [Store.number_setNumber, if_neg]
    rw [Cell.number.inj isBound]
    decide
  refine ⟨by rw [isCompiled, stored]; rfl, evaluate_of_settled compiled.1 ?_ _ same ?_⟩
  · intro found equal
    rw [stored] at equal
    cases equal
    have variableFree (cell : NumberCell) : (AnyNode.scalar (.variable cell)).Everywhere AnyNode.IsCallFree :=
      .intro trivial (List.forall_mem_nil _)
    have declared := List.forall_mem_singleton.mpr (variableFree ⟨0⟩)
    exact .intro trivial (List.forall_mem_cons.mpr
      ⟨variableFree ⟨1⟩, List.forall_mem_singleton.mpr (.intro trivial declared)⟩)
  · have logged : compiled.1.log 0 store =
        [.reads (.number ⟨0⟩), .writes (.number ⟨1⟩), .reads (.number ⟨1⟩)] := by
      unfold log trace
      rw [stored]
      rfl
    rw [logged]
    exact ⟨rfl, .inr rfl, trivial⟩

theorem tokenize_branch :
    tokenize "if(c)var x:=c;x" = .ok [⟨.fixed .ifWord, "if", ⟨1, 1⟩⟩, ⟨.fixed .leftParen, "(", ⟨1, 3⟩⟩,
      ⟨.name "c", "c", ⟨1, 4⟩⟩, ⟨.fixed .rightParen, ")", ⟨1, 5⟩⟩, ⟨.fixed .varWord, "var", ⟨1, 6⟩⟩,
      ⟨.name "x", "x", ⟨1, 10⟩⟩, ⟨.fixed .assign, ":=", ⟨1, 11⟩⟩, ⟨.name "c", "c", ⟨1, 13⟩⟩,
      ⟨.fixed .semicolon, ";", ⟨1, 14⟩⟩, ⟨.name "x", "x", ⟨1, 15⟩⟩] := by
  with_unfolding_all rfl

/-- A variable that is declared in a branch keeps what an earlier evaluation left in it: with `c` zero both times, the
source gives zero at first, and one after it has been evaluated with `c` being one. -/
theorem Expression.evaluate_remembers_branch :
    let compiled := (Expression.mk ⟨0⟩ none).compile .standard none "if(c)var x:=c;x" conditionWorld
    let store := compiled.2.world.store
    compiled.1.isCompiled = true ∧ compiled.1.evaluate 0 store = some (.number 0.0, store) ∧
      ∃ later, compiled.1.evaluate 0 (store.setNumber ⟨0⟩ 1.0) = some (.number 1.0, later) ∧
        store.Matches (· = .number ⟨0⟩) (later.setNumber ⟨0⟩ 0.0) ∧
        compiled.1.evaluate 0 (later.setNumber ⟨0⟩ 0.0) = some (.number 1.0, later.setNumber ⟨0⟩ 0.0) := by
  intro compiled store
  have stored : compiled.1.compiled = some ⟨"if(c)var x:=c;x", .standard,
      AnyNode.scalar (.sequence
        [AnyNode.scalar (.conditional (.variable ⟨0⟩) (.assign ⟨1⟩ none (.variable ⟨0⟩)) (.constant Number.nan))]
        (.variable ⟨1⟩))⟩ := by
    change (Compilation.ofSource _ "if(c)var x:=c;x" conditionWorld).root.map _ = _
    unfold Compilation.ofSource
    rw [tokenize_branch]
    rfl
  have storeIs : store = { Store.empty with numbers := ⟨#[0.0, 0.0]⟩ } := by
    change (Compilation.ofSource _ "if(c)var x:=c;x" conditionWorld).world.store = _
    unfold Compilation.ofSource
    rw [tokenize_branch]
    rfl
  unfold evaluate
  rw [isCompiled, stored]
  refine ⟨rfl, ?_, (store.setNumber ⟨0⟩ 1.0).setNumber ⟨1⟩ 1.0, ?_, ?_, ?_⟩
  · rw [storeIs]
    rfl
  · rw [storeIs]
    rfl
  · rw [storeIs]
    refine ⟨fun cell isBound => ?_, fun _ _ => rfl, fun _ _ => rfl, fun _ => rfl⟩
    rw [Cell.number.inj isBound]
    rfl
  · rw [storeIs]
    rfl

end LiveExpr
