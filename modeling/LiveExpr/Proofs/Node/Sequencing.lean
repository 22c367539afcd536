import LiveExpr.Proofs.Node.Flattening
import LiveExpr.Proofs.Node.Locality

/-!
Operands come first, each of them once and in order. A node whose operands are all needed evaluates them in the order in
which a formula writes them, whatever their values are, and only then reads or writes its cell, or calls its function.
The element of a vector is the exception: its position comes before the vector, which is left out where the position is
none.
-/

namespace LiveExpr

/-- The cell that has been read or written. -/
def Event.cell? : Event → Option Cell
  | reads cell | writes cell => some cell
  | alters cell => some (.vector cell)
  | rounds _ => none

theorem Event.cell?_of_mem_replaces {cell : Cell} {compound : Bool} {event : Event}
    (logged : event ∈ Traced.replaces cell compound) : event.cell? = some cell := by
  cases compound with
  | true =>
    rcases List.mem_cons.mp logged with rfl | logged
    · rfl
    · obtain rfl := List.mem_singleton.mp logged
      rfl
  | false =>
    obtain rfl := List.mem_singleton.mp logged
    rfl

namespace BinaryOperator

/-- Whether both sides are needed, whatever the left one is. -/
def isStrict : BinaryOperator → Bool
  | and | or => false
  | _ => true

theorem settled?_of_isStrict {op : BinaryOperator} (strict : op.isStrict = true) (left : Float) :
    op.settled? left = none := by
  cases op <;> first | rfl | cases strict

end BinaryOperator

/-! ## Courses -/

namespace Traced

variable {α β : Type} {own : Store → List Event → Store → Prop}

/-- Whether a computation follows a course to its end and then does something on its own. Where the course does not end,
neither does the computation, and it has done nothing else. -/
structure Performs (computation : Traced α) (course : Traced Unit) (own : Store → List Event → Store → Prop) :
    Prop where
  stops {store : Store} {log : List Event} (stopped : course store = (log, none)) : computation store = (log, none)
  ends {store middle : Store} {log : List Event} (ended : course store = (log, some ((), middle))) :
    ∃ more value after, computation store = (log ++ more, some (value, after)) ∧ own middle more after

theorem continueWith_of_isStrict {op : BinaryOperator} (strict : op.isStrict = true) (left : Float)
    (right : Traced Float) : continueWith op left right = (do
      let right ← right
      pure (op.apply left right)) := by
  rw [continueWith, BinaryOperator.settled?_of_isStrict strict]

namespace Performs

/-- Nothing has to come before what a computation does on its own. -/
theorem of_own {computation : Traced α}
    (acts : ∀ store, ∃ more value after, computation store = (more, some (value, after)) ∧ own store more after) :
    computation.Performs (Pure.pure ()) own where
  stops stopped := by cases stopped
  ends {store _ _} ended := by
    cases ended
    exact acts store

theorem bind {first : Traced α} {next : α → Traced β} {course : α → Traced Unit}
    (further : ∀ value, (next value).Performs (course value) own) :
    (first >>= next).Performs (first >>= course) own := by
  constructor
  · intro store log stopped
    rcases ran : first store with ⟨begun, _ | ⟨value, middle⟩⟩
    · rw [bind_of_none ran] at stopped ⊢
      cases stopped
      rfl
    · rw [bind_of_some ran] at stopped ⊢
      rcases continued : course value middle with ⟨more, _ | finish⟩
      · rw [continued] at stopped
        cases stopped
        rw [(further value).stops continued]
      · rw [continued] at stopped
        cases stopped
  · intro store finish log ended
    rcases ran : first store with ⟨begun, _ | ⟨value, middle⟩⟩
    · rw [bind_of_none ran] at ended
      cases ended
    · rw [bind_of_some ran] at ended ⊢
      rcases continued : course value middle with ⟨more, _ | _⟩
      · rw [continued] at ended
        cases ended
      · rw [continued] at ended
        cases ended
        obtain ⟨last, result, after, finished, acted⟩ := (further value).ends continued
        refine ⟨last, result, after, ?_, acted⟩
        rw [finished, List.append_assoc]

end Performs

end Traced

theorem Traced.IsAccess.effect {α : Type} {cell : Cell} {computation : Traced α} (isAccess : computation.IsAccess cell)
    (store : Store) : ∃ more value after, computation store = (more, some (value, after)) ∧
      (∀ event ∈ more, event.cell? = some cell) ∧ store.SameBut (· = cell) after := by
  have same : store.SameBut (· = cell) store := .refl store
  cases isAccess with
  | number | string | vector => exact ⟨_, _, _, rfl, List.forall_mem_singleton.mpr rfl, same⟩
  | assign => exact ⟨_, _, _, rfl, fun _ => Event.cell?_of_mem_replaces, same.setNumber rfl _⟩
  | assignString => exact ⟨_, _, _, rfl, fun _ => Event.cell?_of_mem_replaces, same.setString rfl _⟩
  | assignElement target index op value =>
    unfold Traced.assignElement
    cases (Number.toIndex? index).bind fun index => (store.vector target)[index]?.map (index, ·) with
    | none => exact ⟨_, _, _, rfl, List.forall_mem_nil _, same⟩
    | some found =>
      refine ⟨_, _, _, rfl, ?_, same.replaceVector rfl _⟩
      cases op <;> simp [Event.cell?]
  | assignVector target op value =>
    refine ⟨_, _, _, rfl, ?_, same.replaceVector rfl _⟩
    cases op <;> cases value <;> simp [Event.cell?]
  | reset =>
    refine ⟨_, _, _, rfl, ?_, same.replaceVector rfl _⟩
    simp [Event.cell?]

/-! ## Lists of operands -/

section Lists

variable {fuel : Nat} {α : Type} {own : Store → List Event → Store → Prop}

theorem Node.performs_bind {k : Kind} (node : Node k) {next : k.Content → Traced α} {others : List AnyNode}
    (further : ∀ value, (next value).Performs (traceStatements fuel others) own) :
    (node.trace fuel >>= next).Performs (traceStatements fuel (⟨k, node⟩ :: others)) own := by
  have course : traceStatements fuel (⟨k, node⟩ :: others) =
      node.trace fuel >>= fun _ => traceStatements fuel others := by
    rw [traceStatements, traceStatement, Traced.discard, bind_assoc]
    rfl
  rw [course]
  exact .bind further

theorem Operand.performs_bind (operand : Operand) {next : Broadcast → Traced α} {others : List AnyNode}
    (further : ∀ value, (next value).Performs (traceStatements fuel others) own) :
    (operand.trace fuel >>= next).Performs (traceStatements fuel (operand.node :: others)) own := by
  cases operand with
  | vector vector =>
    rw [Operand.trace, bind_assoc]
    exact vector.performs_bind fun _ => further _
  | scalar scalar =>
    rw [Operand.trace, bind_assoc]
    exact scalar.performs_bind fun _ => further _

theorem performs_traceAll (nodes : List (Node .scalar)) {next : List Float → Traced α}
    (further : ∀ values, (next values).Performs (pure ()) own) :
    (traceAll fuel nodes >>= next).Performs (traceStatements fuel (nodes.map AnyNode.scalar)) own := by
  induction nodes generalizing next with
  | nil => exact further []
  | cons first rest induction =>
    simp only [traceAll, bind_assoc, pure_bind]
    exact first.performs_bind fun _ => induction fun _ => further _

theorem performs_traceParts (parts : List (Node .string)) {next : Bytes → Traced α}
    (further : ∀ bytes, (next bytes).Performs (pure ()) own) :
    (traceParts fuel parts >>= next).Performs (traceStatements fuel (parts.map AnyNode.string)) own := by
  induction parts generalizing next with
  | nil => exact further []
  | cons first rest induction =>
    simp only [traceParts, bind_assoc, pure_bind]
    exact first.performs_bind fun _ => induction fun _ => further _

theorem performs_traceChain {rest : List (BinaryOperator × Node .scalar)}
    (strict : ∀ step ∈ rest, step.1.isStrict = true) (value : Float) {next : Float → Traced α}
    (further : ∀ value, (next value).Performs (pure ()) own) :
    (traceChain fuel value rest >>= next).Performs
      (traceStatements fuel (rest.map fun step => AnyNode.scalar step.2)) own := by
  induction rest generalizing value with
  | nil => exact further value
  | cons step rest induction =>
    have each := List.forall_mem_cons.mp strict
    simp only [traceChain, Traced.continueWith_of_isStrict each.1, bind_assoc, pure_bind]
    exact step.2.performs_bind fun _ => induction each.2 _

theorem performs_traceElementwise (rest : List (BinaryOperator × Operand)) (value : Broadcast)
    {next : Broadcast → Traced α} (further : ∀ value, (next value).Performs (pure ()) own) :
    (traceElementwise fuel value rest >>= next).Performs
      (traceStatements fuel (rest.map fun step => step.2.node)) own := by
  induction rest generalizing value with
  | nil => exact further value
  | cons step rest induction =>
    simp only [traceElementwise, bind_assoc]
    exact step.2.performs_bind fun _ => induction _

theorem performs_traceStatements (statements : List AnyNode) {next : Traced α} {others : List AnyNode}
    (further : next.Performs (traceStatements fuel others) own) :
    (traceStatements fuel statements >>= fun _ => next).Performs (traceStatements fuel (statements ++ others)) own := by
  induction statements with
  | nil => exact further
  | cons first rest induction =>
    obtain ⟨k, first⟩ := first
    simp only [traceStatements, traceStatement, Traced.discard, bind_assoc]
    exact first.performs_bind fun _ => induction

end Lists

/-! ## Nodes -/

namespace Node

/-- The operands of a node, in the order in which a formula writes them. -/
def written {k : Kind} : Node k → List AnyNode
  | .choice cases otherwise => (cases.flatMap fun one => [.scalar one.1, .scalar one.2]) ++ [.scalar otherwise]
  | .sequence statements result => statements ++ [⟨k, result⟩]
  | node => node.children

theorem mem_written {k : Kind} {node : Node k} {child : AnyNode} :
    child ∈ node.written ↔ child ∈ node.children := by
  cases node with
  | choice | sequence => simp [written, children, or_comm]
  | _ => rfl

/-- Whether all operands are needed, once each. This is not so for `and` and `or`, for conditionals and choices, and for
loops. -/
def isStrict {k : Kind} : Node k → Bool
  | .binary op _ _ => op.isStrict
  | .chain _ rest => rest.all (·.1.isStrict)
  | .conditional .. | .stringConditional .. | .choice .. | .loop .. => false
  | _ => true

/-- Whether the node uses its operands as they are written. The element of a vector does not; nor does a call with a
wrong number of arguments, which no formula contains. -/
def keepsOrder {k : Kind} : Node k → Bool
  | .element .. => false
  | .builtin function arguments => function.arity.accepts arguments.length
  | _ => true

end Node

namespace AnyNode

/-- What the node itself does to the store: it calls its function, or it changes no cell but its target. -/
def Acts (before after : Store) : AnyNode → Prop
  | ⟨_, .userCall function _⟩ => ∃ arguments, after = (before.call function arguments).2
  | node => before.SameBut (fun cell => target? node = some cell) after

/-- What the node itself does, apart from its operands. It accesses no cell but its own. -/
structure OwnEffect (node : AnyNode) (before : Store) (events : List Event) (after : Store) : Prop where
  events : ∀ event ∈ events, ∃ cell, cell? node = some cell ∧ event.cell? = some cell
  store : Acts before after node

theorem ownEffect_idle {node : AnyNode} (free : node.IsCallFree) (store : Store) : node.OwnEffect store [] store := by
  refine ⟨List.forall_mem_nil _, ?_⟩
  obtain ⟨k, node⟩ := node
  cases node with
  | userCall => exact free.elim
  | _ => exact .refl store

theorem ownEffect_of_target {node : AnyNode} {cell : Cell} (target : target? node = some cell) {before after : Store}
    {events : List Event} (about : ∀ event ∈ events, event.cell? = some cell)
    (changed : before.SameBut (· = cell) after) : node.OwnEffect before events after := by
  have kept : before.SameBut (fun found => target? node = some found) after := by
    refine ⟨fun found outside => changed.contents found ?_, changed.functions, changed.calls⟩
    rintro rfl
    exact outside target
  refine ⟨fun event logged => ⟨cell, cell?_of_target? target, about event logged⟩, ?_⟩
  obtain ⟨k, node⟩ := node
  cases node with
  | userCall => cases target
  | _ => exact kept

end AnyNode

namespace Node

theorem performs_access {k : Kind} {node : Node k} {cell : Cell} {computation : Traced k.Content}
    (target : AnyNode.target? ⟨k, node⟩ = some cell) (isAccess : computation.IsAccess cell) :
    computation.Performs (pure ()) (AnyNode.OwnEffect ⟨k, node⟩) := by
  apply Traced.Performs.of_own
  intro store
  obtain ⟨more, value, after, accessed, about, changed⟩ := isAccess.effect store
  exact ⟨more, value, after, accessed, AnyNode.ownEffect_of_target target about changed⟩

theorem performs_pure {k : Kind} {node : Node k} (free : AnyNode.IsCallFree ⟨k, node⟩) (value : k.Content) :
    (pure value : Traced k.Content).Performs (pure ()) (AnyNode.OwnEffect ⟨k, node⟩) :=
  .of_own fun store => ⟨[], value, store, rfl, AnyNode.ownEffect_idle free store⟩

theorem performs_written {k : Kind} {node : Node k} (strict : node.isStrict = true)
    (keepsOrder : node.keepsOrder = true) (fuel : Nat) :
    (node.trace fuel).Performs (traceStatements fuel node.written) (AnyNode.OwnEffect ⟨k, node⟩) := by
  have idle := @performs_pure k node
  have access := @performs_access k node
  cases node with
  | constant | literal | missing => exact idle trivial _
  | unary | vectorSize | stringLength | vectorAggregate | negate | map =>
    exact performs_bind _ fun _ => idle trivial _
  | stringCompare | stringMatch =>
    exact performs_bind _ fun _ => performs_bind _ fun _ => idle trivial _
  | substring =>
    exact performs_bind _ fun _ => performs_bind _ fun _ => performs_bind _ fun _ => idle trivial _
  | binary op =>
    apply performs_bind
    intro left
    rw [Traced.continueWith_of_isStrict strict]
    exact performs_bind _ fun _ => idle trivial _
  | chain first rest =>
    apply performs_bind
    intro value
    rw [← bind_pure (traceChain fuel value rest)]
    exact performs_traceChain (List.all_eq_true.mp strict) value fun _ => idle trivial _
  | conditional | stringConditional | choice | loop => cases strict
  | element => cases keepsOrder
  | builtin function arguments =>
    have accepted : function.arity.accepts arguments.length = true := keepsOrder
    rw [trace, if_pos accepted]
    exact performs_traceAll arguments fun _ => idle trivial _
  | concat parts =>
    rw [trace, ← bind_pure (traceParts fuel parts)]
    exact performs_traceParts parts fun _ => idle trivial _
  | elementwise first rest =>
    apply Operand.performs_bind
    intro value
    exact performs_traceElementwise rest value fun _ => idle trivial _
  | sequence statements result =>
    apply performs_traceStatements statements
    rw [← bind_pure (result.trace fuel)]
    exact result.performs_bind fun _ => idle trivial _
  | «variable» | stringVariable | vectorVariable =>
    exact .of_own fun store => ⟨_, _, _, rfl, List.forall_mem_singleton.mpr ⟨_, rfl, rfl⟩, .refl store⟩
  | assign => exact performs_bind _ fun _ => access rfl (.assign ..)
  | stringAssign => exact performs_bind _ fun _ => access rfl (.assignString ..)
  | assignElement =>
    exact performs_bind _ fun _ => performs_bind _ fun _ => access rfl (.assignElement ..)
  | vectorAssign => exact Operand.performs_bind _ fun _ => access rfl (.assignVector ..)
  | reset => exact performs_traceAll _ fun _ => access rfl (.reset ..)
  | userCall function arguments =>
    exact performs_traceAll arguments fun values => .of_own fun store =>
      ⟨_, _, _, rfl, List.forall_mem_nil _, values, rfl⟩

theorem performs_run (first : Node .scalar) (before : List (BinaryOperator × Node .scalar))
    {after : List (BinaryOperator × Node .scalar)} (strict : after.all (·.1.isStrict) = true) (fuel : Nat) :
    ((Node.chain first (before ++ after)).trace fuel).Performs
      (traceStatements fuel (AnyNode.scalar (.chain first before) :: after.map fun step => AnyNode.scalar step.2))
      (AnyNode.OwnEffect (.scalar (.chain first (before ++ after)))) := by
  have idle := @performs_pure .scalar (.chain first (before ++ after)) trivial
  have split : (Node.chain first (before ++ after)).trace fuel =
      (Node.chain first before).trace fuel >>= fun value => traceChain fuel value after := by
    simp only [trace, traceChain_append, bind_assoc]
  rw [split]
  apply performs_bind
  intro value
  rw [← bind_pure (traceChain fuel value after)]
  exact performs_traceChain (List.all_eq_true.mp strict) value fun _ => idle _

/-- The position comes before the vector, which is left out if the position is none. -/
theorem performs_element (vector : Node .vector) (index : Node .scalar) (fuel : Nat) :
    ((Node.element vector index).trace fuel).Performs
      (do
        let index ← index.trace fuel
        if (Number.toIndex? index).isSome then traceStatements fuel [AnyNode.vector vector] else pure ())
      (AnyNode.OwnEffect (.scalar (.element vector index))) := by
  have idle := @performs_pure .scalar (.element vector index) trivial
  apply Traced.Performs.bind
  intro value
  cases Number.toIndex? value with
  | none => exact idle _
  | some position => exact vector.performs_bind fun _ => idle _

end Node

/-! ## Graphs -/

namespace AnyNode

/-- The nodes of a graph, each of them behind its operands. -/
def postorder (node : AnyNode) : List AnyNode :=
  (node.2.written.attach.flatMap fun operand => operand.1.postorder) ++ [node]
termination_by sizeOf node.2
decreasing_by exact Node.sizeOf_child (Node.mem_written.mp operand.2)

theorem postorder_eq (node : AnyNode) : node.postorder = node.2.written.flatMap postorder ++ [node] := by
  rw [postorder, List.flatMap_def, List.attach_map_val, ← List.flatMap_def]

/-- Whether nodes have had their own effects, one node after another. -/
inductive Effects : List AnyNode → Store → List Event → Store → Prop
  | nil (store : Store) : Effects [] store [] store
  | cons {node : AnyNode} {others : List AnyNode} {before middle after : Store} {log more : List Event}
      (own : node.OwnEffect before log middle) (rest : Effects others middle more after) :
      Effects (node :: others) before (log ++ more) after

theorem Effects.append {one other : List AnyNode} {before middle after : Store} {log more : List Event}
    (first : Effects one before log middle) (second : Effects other middle more after) :
    Effects (one ++ other) before (log ++ more) after := by
  induction first with
  | nil => exact second
  | cons own _ induction =>
    rw [List.append_assoc]
    exact .cons own (induction second)

/-- Whether the evaluation of a node ends, and is nothing but the own effects of the nodes that it is made from. -/
def IsOrderly (fuel : Nat) (node : AnyNode) : Prop :=
  ∀ before, ∃ log value after, node.2.trace fuel before = (log, some (value, after)) ∧
    Effects node.postorder before log after

theorem effects_of_traceStatements {fuel : Nat} {nodes : List AnyNode} (orderly : ∀ node ∈ nodes, node.IsOrderly fuel)
    (before : Store) : ∃ log after, traceStatements fuel nodes before = (log, some ((), after)) ∧
      Effects (nodes.flatMap postorder) before log after := by
  induction nodes generalizing before with
  | nil => exact ⟨[], before, rfl, .nil before⟩
  | cons first rest induction =>
    have each := List.forall_mem_cons.mp orderly
    obtain ⟨log, value, middle, evaluated, effects⟩ := each.1 before
    obtain ⟨more, after, finished, others⟩ := induction each.2 middle
    refine ⟨log ++ more, after, ?_, effects.append others⟩
    obtain ⟨k, first⟩ := first
    have done : traceStatement fuel ⟨k, first⟩ before = (log ++ [], some ((), middle)) := Traced.bind_of_some evaluated
    rw [traceStatements, Traced.bind_of_some done, finished, List.append_nil]

theorem isOrderly_of_everywhere {fuel : Nat} {node : AnyNode}
    (regular : node.Everywhere fun node => node.2.isStrict = true ∧ node.2.keepsOrder = true) :
    node.IsOrderly fuel := by
  induction regular with
  | @intro node here _ induction =>
    intro before
    have performs := Node.performs_written here.1 here.2 fuel
    obtain ⟨log, middle, ended, effects⟩ :=
      effects_of_traceStatements (fun operand inside => induction operand (Node.mem_written.mp inside)) before
    obtain ⟨more, value, after, evaluated, own⟩ := performs.ends ended
    refine ⟨log ++ more, value, after, evaluated, ?_⟩
    rw [postorder_eq, ← List.append_nil more]
    exact effects.append (.cons own (.nil after))

end AnyNode

namespace Node

/-- Operands are evaluated once each, in the order in which a formula writes them, and before the node does anything on
its own, whatever their values are: in arithmetic, comparisons, concatenations, slices, assignments, calls, aggregates,
and runs over vectors. It is the same in a run of operators with `and` or `or` in it, for what stands behind them, with
the run up to there as the first operand. So the evaluation of a graph of such nodes alone ends, and is the own effects
of its nodes in a row, each behind its operands. Only where a vector is subscripted, the position is evaluated first,
and the vector not at all if the position is negative, too large, or no number. -/
theorem operands_inOrder (fuel : Nat) :
    (∀ {k : Kind} (node : Node k), node.isStrict = true → node.keepsOrder = true →
      (node.trace fuel).Performs (traceStatements fuel node.written) (AnyNode.OwnEffect ⟨k, node⟩)) ∧
    (∀ first before after, after.all (·.1.isStrict) = true →
      ((Node.chain first (before ++ after)).trace fuel).Performs
        (traceStatements fuel (AnyNode.scalar (.chain first before) :: after.map fun step => AnyNode.scalar step.2))
        (AnyNode.OwnEffect (.scalar (.chain first (before ++ after))))) ∧
    (∀ node : AnyNode, (node.Everywhere fun node => node.2.isStrict = true ∧ node.2.keepsOrder = true) → ∀ before,
      ∃ value after, node.2.eval fuel before = some (value, after) ∧
        AnyNode.Effects node.postorder before (node.2.trace fuel before).1 after) ∧
    (∀ vector index, ((Node.element vector index).trace fuel).Performs
      (do
        let index ← index.trace fuel
        if (Number.toIndex? index).isSome then traceStatements fuel [AnyNode.vector vector] else pure ())
      (AnyNode.OwnEffect (.scalar (.element vector index)))) ∧
    ∀ function arguments, function.arity.accepts arguments.length = false →
      (Node.builtin function arguments).trace fuel = pure Number.nan := by
  refine ⟨fun node strict keepsOrder => performs_written strict keepsOrder fuel,
    fun first before after strict => performs_run first before strict fuel, fun node regular before => ?_,
    fun vector index => performs_element vector index fuel, fun function arguments refused => ?_⟩
  · obtain ⟨log, value, after, traced, effects⟩ := AnyNode.isOrderly_of_everywhere regular before
    rw [← node.2.erase_trace, Traced.erase, traced]
    exact ⟨value, after, rfl, effects⟩
  · rw [trace, refused]
    rfl

/-- The sum of two assignments assigns the first number first, also behind an `or` that may leave out the second one. An
assignment follows its value. A call without its argument is no number. -/
theorem operands_inOrder_assignments :
    let first : Node .scalar := .assign ⟨0⟩ none (.constant 1.0)
    let second : Node .scalar := .assign ⟨1⟩ none (.variable ⟨0⟩)
    let sum : Node .scalar := .binary .add first second
    (sum.trace 0).Performs (traceStatements 0 [AnyNode.scalar first, AnyNode.scalar second])
        (AnyNode.OwnEffect (.scalar sum)) ∧
      ((Node.chain first [(.or, second), (.add, second)]).trace 0).Performs
        (traceStatements 0 [AnyNode.scalar (.chain first [(.or, second)]), AnyNode.scalar second])
        (AnyNode.OwnEffect (.scalar (.chain first [(.or, second), (.add, second)]))) ∧
      (∀ before, ∃ value after, (first.eval 0 before) = some (value, after) ∧
        AnyNode.Effects [.scalar (.constant 1.0), .scalar first] before (first.trace 0 before).1 after) ∧
      (Node.builtin ⟨"abs", .unary Float.abs⟩ []).trace 0 = pure Number.nan := by
  intro first second sum
  obtain ⟨inOrder, run, ends, -, refused⟩ := operands_inOrder 0
  have regular : (AnyNode.scalar first).Everywhere fun node => node.2.isStrict = true ∧ node.2.keepsOrder = true := by
    refine .intro ⟨rfl, rfl⟩ fun child listed => ?_
    obtain rfl := List.mem_singleton.mp listed
    exact .intro ⟨rfl, rfl⟩ (List.forall_mem_nil _)
  have order : (AnyNode.scalar first).postorder = [.scalar (.constant 1.0), .scalar first] := by
    simp [first, AnyNode.postorder_eq, AnyNode.scalar, written, children]
  have effects := ends (.scalar first) regular
  rw [order] at effects
  exact ⟨inOrder sum rfl rfl, run first [(.or, second)] [(.add, second)] rfl, effects, refused _ [] rfl⟩

/-- A negative position keeps a vector from being assigned: in `(v := 2)[-1]`, `v` stays as it is. -/
theorem element_outOfOrder :
    let assignment : Node .vector := .vectorAssign ⟨0⟩ none (.scalar (.constant 2.0))
    let node : Node .scalar := .element assignment (.constant (-1.0))
    let store : Store := (Store.empty.newVector [1.0, 1.0]).2
    node.isStrict = true ∧ node.trace 0 store = ([], some (Number.nan, store)) ∧
      ¬(node.trace 0).Performs (traceStatements 0 node.written) (AnyNode.OwnEffect (.scalar node)) := by
  intro assignment node store
  have skipped : node.trace 0 store = ([], some (Number.nan, store)) := rfl
  refine ⟨rfl, skipped, fun performs => ?_⟩
  have assigned : traceStatements 0 node.written store =
      ([.writes (.vector ⟨0⟩), .reads (.vector ⟨0⟩)], some ((), store.setVector ⟨0⟩ [2.0, 2.0])) := rfl
  obtain ⟨more, value, after, done, -⟩ := performs.ends assigned
  rw [skipped] at done
  cases done

end Node

end LiveExpr
