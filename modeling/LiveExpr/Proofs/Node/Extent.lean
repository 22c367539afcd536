import LiveExpr.Node.Extent
import LiveExpr.Proofs.Node.Flattening
import LiveExpr.Proofs.Node.TraceRelation
import LiveExpr.Proofs.Store.Allocation
import LiveExpr.Proofs.World.Session

/-!
The length of a vector is known before it is evaluated. Every evaluation gives as many elements as the node says, which
says the same ever after; and a run of operators gives at each position what the operators make of the elements at this
position.
-/

namespace LiveExpr

open AnyNode (Everywhere)

/-! ## Lengths -/

def Store.SameLengths (one other : Store) : Prop :=
  ∀ cell, (one.vector cell).length = (other.vector cell).length

namespace Broadcast

/-- The number of elements, if it is a vector. -/
def extent : Broadcast → Option Nat
  | each values => some values.length
  | same _ => none

theorem length_elements (value : Broadcast) : value.elements.length = value.extent.getD 1 := by
  cases value <;> rfl

theorem extent_apply (op : BinaryOperator) (left right : Broadcast) :
    (apply op left right).extent = shorterExtent left.extent right.extent := by
  cases left <;> cases right <;> simp [apply, extent, shorterExtent]

end Broadcast

theorem shorterExtent_assoc (first second third : Option Nat) :
    shorterExtent (shorterExtent first second) third = shorterExtent first (shorterExtent second third) := by
  cases first <;> cases second <;> cases third <;> simp [shorterExtent, Nat.min_assoc]

theorem Store.SameLengths.trans {first second third : Store} (one : first.SameLengths second)
    (other : second.SameLengths third) : first.SameLengths third :=
  fun cell => (one cell).trans (other cell)

theorem Node.sameLengths_of_eval {k : Kind} {node : Node k} {fuel : Nat} {before after : Store} {content : k.Content}
    (evaluated : node.eval fuel before = some (content, after)) : before.SameLengths after :=
  fun cell => (@AnyNode.lengths_of_eval fuel ⟨k, node⟩ before after content evaluated cell).symm

theorem Operand.sameLengths_of_eval {fuel : Nat} {operand : Operand} {before after : Store} {value : Broadcast}
    (done : operand.eval fuel before = some (value, after)) : before.SameLengths after := by
  cases operand with
  | vector | scalar =>
    obtain ⟨_, _, evaluated, finished⟩ := Eval.bind_eq_some.mp done
    cases finished
    exact Node.sameLengths_of_eval evaluated

namespace AnyNode

variable {fuel : Nat} {reference : Store}

/-- Whether the node, if it is a vector, evaluates to as many elements as it has in a store with vectors of the same
lengths. -/
def IsSized (fuel : Nat) (reference : Store) : AnyNode → Prop
  | ⟨.vector, vector⟩ => ∀ before values after, reference.SameLengths before →
      vector.eval fuel before = some (values, after) → vector.extent reference = some values.length
  | _ => True

theorem extent_of_evalOperand {operand : Operand} (sized : IsSized fuel reference operand.node) {before after : Store}
    {value : Broadcast} (known : reference.SameLengths before)
    (done : operand.eval fuel before = some (value, after)) : operand.extent reference = value.extent := by
  cases operand with
  | vector vector =>
    obtain ⟨values, _, evaluated, finished⟩ := Eval.bind_eq_some.mp done
    cases finished
    exact sized _ _ _ known evaluated
  | scalar scalar =>
    obtain ⟨_, _, _, finished⟩ := Eval.bind_eq_some.mp done
    cases finished
    rfl

theorem extent_of_evalElementwise {rest : List (BinaryOperator × Operand)}
    (sized : ∀ step ∈ rest, IsSized fuel reference step.2.node) {before after : Store} {start value : Broadcast}
    (known : reference.SameLengths before) (done : evalElementwise fuel start rest before = some (value, after)) :
    value.extent = shorterExtent start.extent (elementwiseExtent reference rest) := by
  induction rest generalizing start before with
  | nil =>
    cases done
    cases value <;> rfl
  | cons step rest induction =>
    have each := List.forall_mem_cons.mp sized
    obtain ⟨other, middle, evaluated, combined⟩ := Eval.bind_eq_some.mp done
    have later := known.trans (Operand.sameLengths_of_eval evaluated)
    rw [induction each.2 later combined, Broadcast.extent_apply, elementwiseExtent,
      extent_of_evalOperand each.1 known evaluated, shorterExtent_assoc]

theorem isSized_of_children {node : AnyNode} (sized : ∀ child ∈ node.2.children, IsSized fuel reference child) :
    node.IsSized fuel reference := by
  obtain ⟨_ | _ | _, node⟩ := node
  · trivial
  · trivial
  intro before values after known done
  have later := known.trans (Node.sameLengths_of_eval done)
  cases node with
  | vectorVariable cell =>
    cases done
    exact congrArg some (known cell)
  | negate | map =>
    obtain ⟨_, _, evaluated, finished⟩ := Eval.bind_eq_some.mp done
    cases finished
    rw [List.length_map]
    exact (List.forall_mem_cons.mp sized).1 _ _ _ known evaluated
  | elementwise first rest =>
    simp only [Node.children, List.forall_mem_cons, List.forall_mem_map] at sized
    obtain ⟨start, middle, evaluated, done⟩ := Eval.bind_eq_some.mp done
    obtain ⟨value, _, combined, finished⟩ := Eval.bind_eq_some.mp done
    cases finished
    have later := known.trans (Operand.sameLengths_of_eval evaluated)
    rw [Node.extent, extent_of_evalOperand sized.1 known evaluated,
      ← extent_of_evalElementwise sized.2 later combined, Broadcast.length_elements]
  | vectorAssign target | reset target =>
    obtain ⟨_, _, _, done⟩ := Eval.bind_eq_some.mp done
    obtain ⟨_, _, _, done⟩ := Eval.bind_eq_some.mp done
    obtain ⟨_, _, _, finished⟩ := Eval.bind_eq_some.mp done
    cases finished
    exact congrArg some (later target)
  | sequence =>
    -- The result is evaluated behind the statements, in a store that has the lengths of the one that it leaves.
    obtain ⟨_, middle, _, evaluated⟩ := Eval.bind_eq_some.mp done
    have kept := Node.sameLengths_of_eval evaluated
    exact (List.forall_mem_cons.mp sized).1 _ _ _ (later.trans fun cell => (kept cell).symm) evaluated
  | missing =>
    cases done
    rfl

theorem isSized (fuel : Nat) (reference : Store) (node : AnyNode) : node.IsSized fuel reference := by
  have all : node.Everywhere fun _ => True := everywhere_of_forall (fun _ => trivial) node
  induction all with
  | intro _ _ induction => exact isSized_of_children induction

end AnyNode

/-- A vector evaluates to as many elements as the node has, before and afterwards. -/
theorem Node.length_of_eval {vector : Node .vector} {fuel : Nat} {before after : Store} {values : List Float}
    (done : vector.eval fuel before = some (values, after)) :
    values.length = vector.length before ∧ vector.length after = vector.length before := by
  have sized (reference : Store) (known : reference.SameLengths before) :
      vector.extent reference = some values.length :=
    AnyNode.isSized fuel reference (.vector vector) _ _ _ known done
  have kept := Node.sameLengths_of_eval done
  rw [length, length, sized before fun _ => rfl, sized after fun cell => (kept cell).symm]
  exact ⟨rfl, rfl⟩

/-! ## Later stores -/

/-- Whether a store may have become another: by operations of the host, by evaluations of graphs, compiled or not, and
by compilations, whose resolver may do all this in its turn. -/
inductive Store.Becomes : Store → Store → Prop
  | refl (store : Store) : Becomes store store
  | trans {first second third : Store} (one : Becomes first second) (other : Becomes second third) :
      Becomes first third
  | perform (world : World) (operation : Operation) : Becomes world.store (world.perform operation).store
  | evaluate {node : AnyNode} {fuel : Nat} {before after : Store} {content : node.1.Content}
      (evaluated : node.2.eval fuel before = some (content, after)) : Becomes before after
  | compile {environment : Environment} (source : String) (world : World)
      (answers : ∀ resolver, environment.resolver = some resolver →
        ∀ (name : String) (world : World), Becomes world.store (resolver name environment.table world).2.store) :
      Becomes world.store (Compilation.ofSource environment source world).world.store

theorem Store.Becomes.extends {before after : Store} (becomes : before.Becomes after) : before.Extends after := by
  induction becomes with
  | refl store => exact .refl store
  | trans _ _ first second => exact first.trans second
  | perform world operation =>
    have follows : world.Follows (fun _ => True) (world.perform operation) :=
      World.follows_perform fun _ _ => trivial
    exact follows.store
  | evaluate evaluated => exact AnyNode.extends_of_eval evaluated
  | compile source world _ answers =>
    exact (Compilation.ofSource_passes _ source world).store_extends_of_preserves answers

/-- Whether the cell that the node itself reads or writes is in use. -/
def AnyNode.IsInUse (store : Store) (node : AnyNode) : Prop :=
  ∀ cell, node.cell? = some cell → cell.IsInUse store

theorem elementwiseExtent_congr {one other : Store} {rest : List (BinaryOperator × Operand)}
    (same : ∀ step ∈ rest, step.2.extent one = step.2.extent other) :
    elementwiseExtent one rest = elementwiseExtent other rest := by
  induction rest with
  | nil => rfl
  | cons step rest induction =>
    have each := List.forall_mem_cons.mp same
    rw [elementwiseExtent, elementwiseExtent, each.1, induction each.2]

theorem Operand.extent_congr {one other : Store} {operand : Operand}
    (same : operand.node.2.extent one = operand.node.2.extent other) : operand.extent one = operand.extent other := by
  cases operand with
  | vector vector => exact same
  | scalar scalar => rfl

/-- The length of a vector in use never changes. -/
theorem AnyNode.extent_of_extends {before later : Store} (extended : before.Extends later) {node : AnyNode}
    (inUse : node.Everywhere (IsInUse before)) : node.2.extent later = node.2.extent before := by
  induction inUse with
  | @intro node here _ induction =>
    have kept {cell : VectorCell} (own : AnyNode.cell? node = some (.vector cell)) :
        some (later.vector cell).length = some (before.vector cell).length :=
      congrArg some (extended.lengths cell (here _ own))
    obtain ⟨k, node⟩ := node
    cases node with
    | vectorVariable | vectorAssign | reset => exact kept rfl
    | negate | map | sequence => exact (List.forall_mem_cons.mp induction).1
    | elementwise first rest =>
      simp only [Node.children, List.forall_mem_cons, List.forall_mem_map] at induction
      have sameRest := elementwiseExtent_congr fun step inside => Operand.extent_congr (induction.2 step inside)
      rw [Node.extent, Node.extent, Operand.extent_congr induction.1, sameRest]
    | @missing k => cases k <;> rfl
    | _ => rfl

/-! ## Elements -/

def BinaryOperator.applyAll (ops : List BinaryOperator) (start : Float) (others : List Float) : Float :=
  (ops.zip others).foldl (fun value step => step.1.apply value step.2) start

namespace Broadcast

def applyAll (ops : List BinaryOperator) (start : Broadcast) (others : List Broadcast) : Broadcast :=
  (ops.zip others).foldl (fun value step => apply step.1 value step.2) start

/-- What it has at a position. What is no vector has the same value everywhere. -/
def element? (index : Nat) : Broadcast → Option Float
  | each values => values[index]?
  | same value => some value

theorem element?_apply (op : BinaryOperator) (left right : Broadcast) (index : Nat) :
    (apply op left right).element? index = (do
      let left ← left.element? index
      let right ← right.element? index
      pure (op.apply left right)) := by
  cases left with
  | each left =>
    cases right with
    | each right =>
      simp only [apply, element?, List.getElem?_zipWith]
      cases left[index]? <;> cases right[index]? <;> rfl
    | same right =>
      simp only [apply, element?, List.getElem?_map]
      cases left[index]? <;> rfl
  | same left =>
    cases right with
    | each right =>
      simp only [apply, element?, List.getElem?_map]
      cases right[index]? <;> rfl
    | same right => rfl

theorem element?_applyAll {ops : List BinaryOperator} {others : List Broadcast} (equal : ops.length = others.length)
    (start : Broadcast) (index : Nat) :
    (applyAll ops start others).element? index = (do
      let start ← start.element? index
      let others ← others.mapM (element? index)
      pure (BinaryOperator.applyAll ops start others)) := by
  induction ops generalizing start others with
  | nil =>
    obtain rfl := List.length_eq_zero_iff.mp equal.symm
    simp [applyAll, BinaryOperator.applyAll]
  | cons op ops induction =>
    cases others with
    | nil => cases equal
    | cons other others =>
      have further := induction (Nat.succ.inj equal) (apply op start other)
      simp only [applyAll, List.zip_cons_cons, List.foldl_cons] at further ⊢
      rw [further, element?_apply]
      simp only [List.mapM_cons, bind_assoc, pure_bind]
      rfl

theorem min?_extents (first : Broadcast) (rest : List Broadcast) :
    ((first :: rest).filterMap extent).min? = shorterExtent first.extent (rest.filterMap extent).min? := by
  cases first with
  | each values =>
    simp only [List.filterMap_cons, extent, List.min?_cons]
    cases (rest.filterMap extent).min? <;> rfl
  | same value => rfl

theorem extent_applyAll {ops : List BinaryOperator} {others : List Broadcast} (equal : ops.length = others.length)
    (start : Broadcast) : (applyAll ops start others).extent = ((start :: others).filterMap extent).min? := by
  induction ops generalizing start others with
  | nil =>
    obtain rfl := List.length_eq_zero_iff.mp equal.symm
    cases start <;> rfl
  | cons op ops induction =>
    cases others with
    | nil => cases equal
    | cons other others =>
      rw [min?_extents, min?_extents, ← shorterExtent_assoc, ← extent_apply, ← min?_extents]
      exact induction (Nat.succ.inj equal) (apply op start other)

/-- Whether the values are those of a run of operators between operands of which one at least is a vector: as many as
the shortest vector has, each made from left to right out of the elements at its position. -/
structure Combines (ops : List BinaryOperator) (operands : List Broadcast) (values : List Float) : Prop where
  length : (operands.filterMap extent).min? = some values.length
  element (index : Nat) (inside : index < values.length) : ∃ start others,
    operands.mapM (element? index) = some (start :: others) ∧
      values[index]? = some (BinaryOperator.applyAll ops start others)

theorem combines_applyAll {ops : List BinaryOperator} {start : Broadcast} {others : List Broadcast}
    (equal : ops.length = others.length) (isEach : (applyAll ops start others).isEach = true) :
    Combines ops (start :: others) (applyAll ops start others).elements := by
  have extent := extent_applyAll equal start
  have element := element?_applyAll equal start
  cases applied : applyAll ops start others with
  | same value =>
    rw [applied] at isEach
    cases isEach
  | each values =>
    rw [applied] at extent element
    refine ⟨extent.symm, fun index inside => ?_⟩
    have made := (element index).symm.trans (List.getElem?_eq_getElem inside)
    obtain ⟨first, found, made⟩ := Option.bind_eq_some_iff.mp made
    obtain ⟨more, foundMore, made⟩ := Option.bind_eq_some_iff.mp made
    refine ⟨first, more, ?_, (List.getElem?_eq_getElem inside).trans made.symm⟩
    simp [List.mapM_cons, found, foundMore]

end Broadcast

/-! ## Runs -/

namespace Traced

variable {α β γ : Type}

theorem erase_mapM (computation : α → Traced β) (list : List α) :
    (list.mapM computation).erase = list.mapM fun item => (computation item).erase := by
  induction list with
  | nil => rfl
  | cons item rest induction => simp only [List.mapM_cons, erase_bind, erase_pure, induction]

/-- The logs of two computations are equal if they differ in nothing but what they compute at the end. -/
theorem log_bind_congr {first : Traced α} {next : α → Traced β} {other : α → Traced γ}
    (same : ∀ value store, (next value store).1 = (other value store).1) (store : Store) :
    ((first >>= next) store).1 = ((first >>= other) store).1 := by
  rcases ran : first store with ⟨log, _ | ⟨value, middle⟩⟩
  · rw [bind_of_none ran, bind_of_none ran]
  · rw [bind_of_some ran, bind_of_some ran, same]

end Traced

theorem Eval.length_of_mapM {α β : Type} {computation : α → Eval β} {list : List α} {before after : Store}
    {results : List β} (done : list.mapM computation before = some (results, after)) :
    results.length = list.length := by
  induction list generalizing before results with
  | nil =>
    cases done
    rfl
  | cons item rest induction =>
    rw [List.mapM_cons] at done
    obtain ⟨result, middle, _, done⟩ := bind_eq_some.mp done
    obtain ⟨more, _, ran, finished⟩ := bind_eq_some.mp done
    cases finished
    exact congrArg Nat.succ (induction ran)

/-- The operands of a run are evaluated once each, from left to right. -/
theorem traceElementwise_eq (fuel : Nat) (start : Broadcast) (rest : List (BinaryOperator × Operand)) :
    traceElementwise fuel start rest = (do
      let others ← (rest.map Prod.snd).mapM (Operand.trace fuel)
      pure (Broadcast.applyAll (rest.map Prod.fst) start others)) := by
  induction rest generalizing start with
  | nil => simp [Broadcast.applyAll]
  | cons step rest induction => simp [List.mapM_cons, induction, Broadcast.applyAll]

theorem evalElementwise_eq (fuel : Nat) (start : Broadcast) (rest : List (BinaryOperator × Operand)) :
    evalElementwise fuel start rest = (do
      let others ← (rest.map Prod.snd).mapM (Operand.eval fuel)
      pure (Broadcast.applyAll (rest.map Prod.fst) start others)) := by
  have traced := congrArg Traced.erase (traceElementwise_eq fuel start rest)
  simpa only [erase_traceElementwise, Traced.erase_bind, Traced.erase_mapM, Operand.erase_trace,
    Traced.erase_pure] using traced

theorem Node.log_elementwise (fuel : Nat) (first : Operand) (rest : List (BinaryOperator × Operand)) (store : Store) :
    ((Node.elementwise first rest).trace fuel store).1 =
      ((first :: rest.map Prod.snd).mapM (Operand.trace fuel) store).1 := by
  simp only [Node.trace, traceElementwise_eq, List.mapM_cons, bind_assoc, pure_bind]
  apply Traced.log_bind_congr
  intro start
  apply Traced.log_bind_congr
  exact fun _ _ => rfl

theorem Node.combines_of_eval {first : Operand} {rest : List (BinaryOperator × Operand)}
    (spans : runsOverVector first rest = true) (fuel : Nat) (before : Store) :
    Option.Rel
      (fun result operands =>
        result.2 = operands.2 ∧ Broadcast.Combines (rest.map Prod.fst) operands.1 result.1)
      ((Node.elementwise first rest).eval fuel before)
      ((first :: rest.map Prod.snd).mapM (Operand.eval fuel) before) := by
  simp only [Node.eval, List.mapM_cons, Eval.bind_apply]
  cases started : first.eval fuel before with
  | none => exact .none
  | some pair =>
    obtain ⟨start, middle⟩ := pair
    have isEach {value : Broadcast} {after : Store}
        (combined : evalElementwise fuel start rest middle = some (value, after)) : value.isEach = true := by
      rw [isEach_of_evalElementwise combined, Operand.isEach_of_eval started]
      exact spans
    simp only [evalElementwise_eq, Eval.bind_apply] at isEach ⊢
    cases ran : (rest.map Prod.snd).mapM (Operand.eval fuel) middle with
    | none => exact .none
    | some pair =>
      obtain ⟨others, after⟩ := pair
      have equal : (rest.map Prod.fst).length = others.length := by
        rw [Eval.length_of_mapM ran, List.length_map, List.length_map]
      rw [ran] at isEach
      exact .some ⟨rfl, Broadcast.combines_applyAll equal (isEach rfl)⟩

/-- Vectors have the lengths that are known of them. Every evaluation of a vector gives as many elements as the node
says, which says the same afterwards, and in any later store. The operands of a run over a vector are evaluated once
each, from left to right, and each element of the result is made from left to right out of the elements at its position
and the scalars, up to the end of the shortest vector. -/
theorem Node.eval_sized :
    (∀ (vector : Node .vector) fuel before values after, vector.eval fuel before = some (values, after) →
      values.length = vector.length before ∧ vector.length after = vector.length before) ∧
    (∀ (vector : Node .vector) before, (AnyNode.vector vector).Everywhere (AnyNode.IsInUse before) →
      ∀ later, before.Becomes later → vector.length later = vector.length before) ∧
    ∀ first rest, runsOverVector first rest = true → ∀ fuel before,
      ((Node.elementwise first rest).trace fuel before).1 =
        ((first :: rest.map Prod.snd).mapM (Operand.trace fuel) before).1 ∧
      Option.Rel
        (fun result operands =>
          result.2 = operands.2 ∧ Broadcast.Combines (rest.map Prod.fst) operands.1 result.1)
        ((Node.elementwise first rest).eval fuel before)
        ((first :: rest.map Prod.snd).mapM (Operand.eval fuel) before) := by
  refine ⟨fun vector fuel before values after => length_of_eval, fun vector before inUse later becomes => ?_,
    fun first rest spans fuel before => ⟨log_elementwise fuel first rest before, combines_of_eval spans fuel before⟩⟩
  have same := AnyNode.extent_of_extends becomes.extends inUse
  exact congrArg (·.getD 0) same

/-- One is added to each of three elements, before and after anything the host does. -/
theorem Node.eval_sized_sum :
    let world : World := { World.empty with store := (Store.empty.newVector [1.0, 2.0, 3.0]).2 }
    let vector : Operand := .vector (.vectorVariable ⟨0⟩)
    let one : Operand := .scalar (.constant 1.0)
    let sum : Node .vector := .elementwise vector [(.add, one)]
    (∃ values after, sum.eval 0 world.store = some (values, after) ∧ values.length = sum.length world.store ∧
      sum.length after = 3) ∧
    (∀ operation, sum.length (world.perform operation).store = 3) ∧
    Option.Rel (fun result operands => result.2 = operands.2 ∧ Broadcast.Combines [.add] operands.1 result.1)
      (sum.eval 0 world.store) ([vector, one].mapM (Operand.eval 0) world.store) := by
  intro world vector one sum
  obtain ⟨sized, kept, combines⟩ := Node.eval_sized
  have inUse : (AnyNode.vector sum).Everywhere (AnyNode.IsInUse world.store) := by
    refine .intro nofun fun child listed => ?_
    rcases List.mem_cons.mp listed with rfl | listed
    · refine .intro ?_ (List.forall_mem_nil _)
      rintro _ ⟨⟩
      exact Nat.zero_lt_one
    · obtain rfl := List.mem_singleton.mp listed
      exact .intro nofun (List.forall_mem_nil _)
  have evaluated : sum.eval 0 world.store = some (_, world.store) := rfl
  refine ⟨⟨_, _, evaluated, sized sum 0 _ _ _ evaluated⟩, fun operation => ?_, ?_⟩
  · exact kept sum world.store inUse _ (.perform world operation)
  · exact (combines vector [(.add, one)] rfl 0 world.store).2

end LiveExpr
