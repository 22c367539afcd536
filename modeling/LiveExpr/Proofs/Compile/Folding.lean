import LiveExpr.Expression
import LiveExpr.Proofs.Compile.Soundness
import LiveExpr.Proofs.Compile.Source
import LiveExpr.Proofs.Node.Congruence
import LiveExpr.Proofs.Node.Folding

/-!
Constant folding never changes meaning. The compilations with and without it differ in their graphs alone, and the
graphs do the same to every store in which the constants still have the values that were folded in.
-/

namespace LiveExpr

open AnyNode (Everywhere everywhere_iff)

/-! ## Sound nodes -/

/-- Whether the vector that the node itself reads is in use, and a run is no run of scalars alone. -/
def AnyNode.IsSound (store : Store) : AnyNode → Prop
  | ⟨_, .vectorVariable cell⟩ => cell.index < store.vectors.size
  | ⟨_, .elementwise first rest⟩ => runsOverVector first rest = true
  | _ => True

theorem AnyNode.IsSound.extend {before after : Store} (grown : before.Extends after) (node : AnyNode)
    (sound : node.IsSound before) : node.IsSound after := by
  obtain ⟨k, node⟩ := node
  cases node with
  | vectorVariable cell => exact Nat.lt_of_lt_of_le sound grown.vectors
  | elementwise first rest => exact sound
  | _ => trivial

theorem Node.isPointwise_of_isSound {k : Kind} {node : Node k} {store : Store}
    (sound : AnyNode.IsSound store ⟨k, node⟩) : node.isPointwise = true := by
  cases node with
  | elementwise first rest => exact sound
  | _ => rfl

theorem Node.isSound_elementOperation {store : Store} {op : BinaryOperator} {left right : Operand}
    (spans : (left.isVector || right.isVector) = true) (pointwise : left.isPointwise = true) :
    AnyNode.IsSound store (.vector (.elementOperation op left right)) := by
  unfold Node.elementOperation
  split
  next first rest =>
    have spans : runsOverVector first rest = true := pointwise
    change runsOverVector first (rest ++ [(op, right)]) = true
    exact runsOverVector_append spans _
  next =>
    change runsOverVector left [(op, right)] = true
    simpa [runsOverVector] using spans

/-! ## Same meaning -/

/-- Whether a store still has the contents that constants have in a world, in frozen cells, and the lengths that
vectors have in it. -/
structure World.PersistsIn (table : TableHandle) (frozen : Target → Prop) (reference : Store) (passed : World) :
    Prop where
  numbers (name : String) (cell : NumberCell)
    (bound : (passed.table table).lookup name = some (.scalar cell true)) :
    frozen (.number cell) ∧ reference.number cell = passed.store.number cell
  strings (name : String) (cell : StringCell)
    (bound : (passed.table table).lookup name = some (.string cell true)) :
    frozen (.string cell) ∧ reference.string cell = passed.store.string cell
  lengths (cell : VectorCell) (inUse : cell.index < passed.store.vectors.size) :
    (reference.vector cell).length = (passed.store.vector cell).length

def PersistsUpTo (environment : Environment) (world : World) (frozen : Target → Prop) (reference : Store)
    (last : World) : Prop :=
  ∀ passed, world.Passes environment passed → passed.Passes environment last →
    passed.PersistsIn environment.table frozen reference

/-- Whether a folded node has the meaning of an unfolded one: both are sound, and they agree on what persists. -/
structure SameMeaning (environment : Environment) (world : World) (frozen : Target → Prop) (reference : Store)
    (progress : Progress) (k : Kind) (folded plain : Node k) : Prop where
  foldedSound : Everywhere (AnyNode.IsSound progress.world.store) ⟨k, folded⟩
  plainSound : Everywhere (AnyNode.IsSound progress.world.store) ⟨k, plain⟩
  agree (persists : PersistsUpTo environment world frozen reference progress.world) (fuel : Nat) :
    Node.Agree frozen reference fuel k folded plain

namespace SameMeaning

variable {environment : Environment} {world : World} {frozen : Target → Prop} {reference : Store}
  {progress : Progress}

theorem later (lawful : environment.IsLawful) {after : Progress}
    (reached : progress.Reaches environment after) {k : Kind} {folded plain : Node k}
    (same : SameMeaning environment world frozen reference progress k folded plain) :
    SameMeaning environment world frozen reference after k folded plain := by
  have passes := reached.world_passes
  have extend := AnyNode.IsSound.extend (passes.store_extends lawful)
  refine ⟨same.foldedSound.imp extend, same.plainSound.imp extend, fun persists => same.agree ?_⟩
  exact fun passed before up => persists passed before (up.trans passes)

/-- A node without parts that does the same as another on what persists. -/
theorem leaf {k : Kind} {folded plain : Node k}
    (foldedSound : AnyNode.IsSound progress.world.store ⟨k, folded⟩) (foldedLeaf : folded.children = [])
    (plainSound : AnyNode.IsSound progress.world.store ⟨k, plain⟩) (plainLeaf : plain.children = [])
    (agree : PersistsUpTo environment world frozen reference progress.world →
      ∀ fuel, Node.Agree frozen reference fuel k folded plain) :
    SameMeaning environment world frozen reference progress k folded plain := by
  refine ⟨.intro foldedSound ?_, .intro plainSound ?_, agree⟩
  · rw [foldedLeaf]
    exact List.forall_mem_nil _
  · rw [plainLeaf]
    exact List.forall_mem_nil _

theorem missing (k : Kind) : SameMeaning environment world frozen reference progress k .missing .missing :=
  leaf trivial rfl trivial rfl fun _ _ => .pure _

/-- The store in which something was folded is among what persists. -/
theorem persists_now (reached : (Progress.start world).Reaches environment progress)
    (persists : PersistsUpTo environment world frozen reference progress.world) :
    progress.world.PersistsIn environment.table frozen reference :=
  persists _ reached.world_passes .refl

/-! ### References -/

section References

variable (sound : progress.IsSound environment) (reached : (Progress.start world).Reaches environment progress)

include sound reached

theorem number {cell : NumberCell} {constant : Bool}
    (binds : progress.Binds environment (.scalar cell constant)) :
    SameMeaning environment world frozen reference progress .scalar
      (if constant then .constant (progress.world.store.number cell) else .variable cell)
      (.variable cell) := by
  cases constant with
  | false => exact leaf trivial rfl trivial rfl fun _ _ => .read _
  | true =>
    obtain ⟨name, bound⟩ := sound.bound_of_binds binds fun isLocal => nomatch isLocal.1
    refine leaf trivial rfl trivial rfl fun persists fuel store resembles _ => ?_
    obtain ⟨isFrozen, unchanged⟩ := (persists_now reached persists).numbers name cell bound
    have current := (resembles.numbers cell isFrozen).trans unchanged
    refine ⟨?_, fun value after done => ?_⟩
    · change some _ = some (store.number cell, store)
      rw [current]
    · cases done
      exact resembles

theorem text {cell : StringCell} {constant : Bool}
    (binds : progress.Binds environment (.string cell constant)) :
    SameMeaning environment world frozen reference progress .string
      (if constant then .literal (progress.world.store.string cell) else .stringVariable cell)
      (.stringVariable cell) := by
  cases constant with
  | false => exact leaf trivial rfl trivial rfl fun _ _ => .read _
  | true =>
    obtain ⟨name, bound⟩ := sound.bound_of_binds binds fun isLocal => nomatch isLocal.1
    refine leaf trivial rfl trivial rfl fun persists fuel store resembles _ => ?_
    obtain ⟨isFrozen, unchanged⟩ := (persists_now reached persists).strings name cell bound
    have current := (resembles.strings cell isFrozen).trans unchanged
    refine ⟨?_, fun value after done => ?_⟩
    · change some _ = some (store.string cell, store)
      rw [current]
    · cases done
      exact resembles

omit reached in
theorem vector {cell : VectorCell} (binds : progress.Binds environment (.vector cell)) :
    SameMeaning environment world frozen reference progress .vector (.vectorVariable cell)
      (.vectorVariable cell) :=
  have inUse := sound.vector_inUse binds
  leaf inUse rfl inUse rfl fun _ _ => .read _

end References

/-! ### Folding -/

theorem fold (reached : (Progress.start world).Reaches environment progress) {folded plain : Node .scalar}
    (same : SameMeaning environment world frozen reference progress .scalar folded plain) :
    SameMeaning environment world frozen reference progress .scalar (folded.fold progress.world.store)
      plain := by
  refine ⟨Node.everywhere_fold (fun _ => trivial) same.foldedSound _, same.plainSound, ?_⟩
  intro persists fuel store resembles spared
  rw [Node.eval_fold]
  · exact same.agree persists fuel store resembles spared
  · intro cell sized
    have inUse : cell.index < progress.world.store.vectors.size := by
      have below := (everywhere_iff.mp same.foldedSound).2
      unfold Node.sized? at sized
      split at sized
      · cases sized
        exact (everywhere_iff.mp ((List.forall_mem_cons.mp below).1)).1
      · cases sized
    rw [resembles.lengths cell]
    exact (persists_now reached persists).lengths cell inUse

theorem foldString {folded plain : Node .string}
    (same : SameMeaning environment world frozen reference progress .string folded plain) :
    SameMeaning environment world frozen reference progress .string
      (folded.foldString progress.world.store) plain := by
  refine ⟨Node.everywhere_foldString (fun _ => trivial) same.foldedSound _, same.plainSound, ?_⟩
  intro persists fuel
  unfold Node.Agree Node.AgreeOn
  rw [Node.eval_foldString]
  exact same.agree persists fuel

/-! ### Larger nodes -/

theorem operation (op : BinaryOperator) {folded plain folded₁ plain₁ : Node .scalar}
    (first : SameMeaning environment world frozen reference progress .scalar folded plain)
    (second : SameMeaning environment world frozen reference progress .scalar folded₁ plain₁) :
    SameMeaning environment world frozen reference progress .scalar (.operation op folded folded₁)
      (.operation op plain plain₁) where
  foldedSound := (Node.everywhere_operation (fun _ _ _ => trivial) (fun _ _ => trivial)).mpr
    ⟨first.foldedSound, second.foldedSound⟩
  plainSound := (Node.everywhere_operation (fun _ _ _ => trivial) (fun _ _ => trivial)).mpr
    ⟨first.plainSound, second.plainSound⟩
  agree persists fuel := Node.operation_agree op (first.agree persists fuel) (second.agree persists fuel)

theorem joined {folded plain folded₁ plain₁ : Node .string}
    (first : SameMeaning environment world frozen reference progress .string folded plain)
    (second : SameMeaning environment world frozen reference progress .string folded₁ plain₁) :
    SameMeaning environment world frozen reference progress .string (.joined folded folded₁)
      (.joined plain plain₁) where
  foldedSound := (Node.everywhere_joined fun _ => trivial).mpr ⟨first.foldedSound, second.foldedSound⟩
  plainSound := (Node.everywhere_joined fun _ => trivial).mpr ⟨first.plainSound, second.plainSound⟩
  agree persists fuel := Node.joined_agree (first.agree persists fuel) (second.agree persists fuel)

theorem operandSound {folded plain : Operand}
    (same : Operand.Related (SameMeaning environment world frozen reference progress) folded plain) :
    (Everywhere (AnyNode.IsSound progress.world.store) folded.node ∧
      Everywhere (AnyNode.IsSound progress.world.store) plain.node) ∧
      (folded.isPointwise = true ∧ plain.isPointwise = true) ∧ folded.isVector = plain.isVector := by
  cases same with
  | scalar same => exact ⟨⟨same.foldedSound, same.plainSound⟩, ⟨rfl, rfl⟩, rfl⟩
  | vector same =>
    have foldedPointwise := Node.isPointwise_of_isSound (everywhere_iff.mp same.foldedSound).1
    have plainPointwise := Node.isPointwise_of_isSound (everywhere_iff.mp same.plainSound).1
    exact ⟨⟨same.foldedSound, same.plainSound⟩, ⟨foldedPointwise, plainPointwise⟩, rfl⟩

theorem elementOperation {op : BinaryOperator} {folded plain folded₁ plain₁ : Operand}
    (first : Operand.Related (SameMeaning environment world frozen reference progress) folded plain)
    (second : Operand.Related (SameMeaning environment world frozen reference progress) folded₁ plain₁)
    (spans : (folded.isVector || folded₁.isVector) = true) :
    SameMeaning environment world frozen reference progress .vector
      (.elementOperation op folded folded₁) (.elementOperation op plain plain₁) := by
  obtain ⟨⟨foldedSound, plainSound⟩, ⟨foldedPointwise, plainPointwise⟩, sameForm⟩ := operandSound first
  obtain ⟨⟨foldedSound₁, plainSound₁⟩, -, sameForm₁⟩ := operandSound second
  have plainOver := spans
  rw [sameForm, sameForm₁] at plainOver
  refine ⟨?_, ?_, fun persists fuel => ?_⟩
  · exact Node.everywhere_elementOperation (Node.isSound_elementOperation spans foldedPointwise) foldedSound
      foldedSound₁
  · exact Node.everywhere_elementOperation (Node.isSound_elementOperation plainOver plainPointwise)
      plainSound plainSound₁
  · exact Node.elementOperation_agree (fun same => same.agree persists fuel) op first second
      foldedPointwise plainPointwise

theorem nodeSound {folded plain : AnyNode}
    (same : AnyNode.Related (SameMeaning environment world frozen reference progress) folded plain) :
    Everywhere (AnyNode.IsSound progress.world.store) folded ∧
      Everywhere (AnyNode.IsSound progress.world.store) plain := by
  rcases same with ⟨same⟩
  exact ⟨same.foldedSound, same.plainSound⟩

theorem loop {start plainStart step plainStep body plainBody : AnyNode} {condition plainCondition : Node .scalar}
    (first : AnyNode.Related (SameMeaning environment world frozen reference progress) start plainStart)
    (second : SameMeaning environment world frozen reference progress .scalar condition plainCondition)
    (third : AnyNode.Related (SameMeaning environment world frozen reference progress) step plainStep)
    (fourth : AnyNode.Related (SameMeaning environment world frozen reference progress) body plainBody)
    (limit : Option Nat) :
    SameMeaning environment world frozen reference progress .scalar (.loop start condition step body limit)
      (.loop plainStart plainCondition plainStep plainBody limit) := by
  refine ⟨.intro trivial ?_, .intro trivial ?_, fun persists fuel => ?_⟩
  · simp only [Node.children, List.forall_mem_cons]
    exact ⟨(nodeSound first).1, second.foldedSound, (nodeSound third).1, (nodeSound fourth).1,
      List.forall_mem_nil _⟩
  · simp only [Node.children, List.forall_mem_cons]
    exact ⟨(nodeSound first).2, second.plainSound, (nodeSound third).2, (nodeSound fourth).2,
      List.forall_mem_nil _⟩
  · exact Node.loop_agree (fun same => same.agree persists fuel) first second third fourth limit

theorem alike {assignable : Binding → Prop} {k : Kind} {folded plain : Node k}
    (alike : Node.Alike assignable (SameMeaning environment world frozen reference progress) k folded plain) :
    SameMeaning environment world frozen reference progress k folded plain := by
  have here : AnyNode.IsSound progress.world.store ⟨k, folded⟩ ∧
      AnyNode.IsSound progress.world.store ⟨k, plain⟩ := by
    cases alike <;> exact ⟨trivial, trivial⟩
  refine ⟨?_, ?_, fun persists fuel => alike.agree fun same => same.agree persists fuel⟩
  · exact alike.everywhere_left (fun same => same.foldedSound) here.1
  · exact alike.everywhere_right (fun same => same.plainSound) here.2

theorem evaluate_eq {folded plain : AnyNode}
    (same : AnyNode.Related (SameMeaning environment world frozen reference progress) folded plain)
    (persists : PersistsUpTo environment world frozen reference progress.world) {fuel : Nat}
    (spared : Event.Spare frozen (plain.trace fuel reference).1) :
    folded.evaluate fuel reference = plain.evaluate fuel reference := by
  rcases same with @⟨k, folded, plain, same⟩
  have agree : Eval.Agree (·.Resembles frozen reference) frozen (folded.eval fuel) (plain.trace fuel) :=
    same.agree persists fuel
  have evaluated : Eval.Agree (·.Resembles frozen reference) frozen (AnyNode.evaluate fuel ⟨k, folded⟩)
      (AnyNode.trace fuel ⟨k, plain⟩) :=
    agree.bind fun content => .pure (Value.ofContent k content)
  rw [(evaluated reference Store.resembles_refl spared).1, ← AnyNode.erase_trace]
  rfl

end SameMeaning

/-! ## The compilations with and without folding -/

/-- The settings with folding turned on or off. -/
def Settings.withFolding (settings : Settings) (folding : Bool) : Settings :=
  { settings with folding := folding }

/-- Folding keeps the meaning of everything that is made. -/
def foldingCorrespondence {environment : Environment} {world : World} (lawful : environment.IsLawful)
    (sound : world.IsSound environment.table) (settings : Settings) (frozen : Target → Prop)
    (reference : Store) :
    Correspondence environment (settings.withFolding true) (settings.withFolding false) world where
  Holds := SameMeaning environment world frozen reference
  later reached _ _ _ same := same.later lawful reached
  missing _ _ k := .missing k
  number reached _ constant binds := by
    have same : SameMeaning environment world frozen reference _ .scalar _ _ :=
      .number (Progress.Reaches.isSound lawful sound reached) reached binds
    simpa [Settings.numberNode, Settings.withFolding] using same
  text reached _ constant binds := by
    have same : SameMeaning environment world frozen reference _ .string _ _ :=
      .text (Progress.Reaches.isSound lawful sound reached) reached binds
    simpa [Settings.textNode, Settings.withFolding] using same
  vector reached _ binds := .vector (Progress.Reaches.isSound lawful sound reached) binds
  settle reached _ _ same := same.fold reached
  settleString _ _ _ same := same.foldString
  operation op _ _ _ _ first second := first.operation op second
  joined first second := first.joined second
  elementOperation _ _ _ _ _ first second spans := .elementOperation first second spans
  loop first second third fourth := .loop first second third fourth settings.loopLimit
  alike := .alike

/-- Whether the cell is that of a binding flagged constant, in a world that the compilation can have seen. These are all
worlds on any way from the first to the last, not only those on the way that the compilation has taken. -/
def IsConstantCell (environment : Environment) (before after : World) : Target → Prop
  | .number cell => ∃ passed name, before.Passes environment passed ∧ passed.Passes environment after ∧
      (passed.table environment.table).lookup name = some (.scalar cell true)
  | .string cell => ∃ passed name, before.Passes environment passed ∧ passed.Passes environment after ∧
      (passed.table environment.table).lookup name = some (.string cell true)

/-- Whether no cell of a binding flagged constant has been written since the compilation can have seen it, on any way
from the first world to the last. Other cells can have any contents; a vector has the length that it was allocated
with. -/
structure Store.IsUndisturbed (environment : Environment) (before after : World) (store : Store) : Prop where
  numbers {passed : World} (seen : before.Passes environment passed) (up : passed.Passes environment after)
    {name : String} {cell : NumberCell}
    (bound : (passed.table environment.table).lookup name = some (.scalar cell true)) :
    store.number cell = passed.store.number cell
  strings {passed : World} (seen : before.Passes environment passed) (up : passed.Passes environment after)
    {name : String} {cell : StringCell}
    (bound : (passed.table environment.table).lookup name = some (.string cell true)) :
    store.string cell = passed.store.string cell
  lengths {cell : VectorCell} (inUse : cell.index < after.store.vectors.size) :
    (store.vector cell).length = (after.store.vector cell).length

theorem Store.IsUndisturbed.persistsUpTo {environment : Environment} (lawful : environment.IsLawful)
    {before after : World} {store : Store} (undisturbed : store.IsUndisturbed environment before after) :
    PersistsUpTo environment before (IsConstantCell environment before after) store after := by
  intro passed seen up
  refine ⟨fun name cell bound => ?_, fun name cell bound => ?_, fun cell inUse => ?_⟩
  · exact ⟨⟨passed, name, seen, up, bound⟩, undisturbed.numbers seen up bound⟩
  · exact ⟨⟨passed, name, seen, up, bound⟩, undisturbed.strings seen up bound⟩
  · have grown := up.store_extends lawful
    rw [undisturbed.lengths (Nat.lt_of_lt_of_le inUse grown.vectors)]
    exact grown.lengths cell inUse

/-- Right after a compilation without a resolver, nothing has been written. -/
theorem Store.isUndisturbed_of_none {environment : Environment} (none : environment.resolver = none)
    {before after : World} (sound : before.IsSound environment.table) :
    after.store.IsUndisturbed environment before after := by
  have inUse {passed : World} (seen : before.Passes environment passed) {name : String} {binding : Binding}
      (bound : (passed.table environment.table).lookup name = some binding) :
      binding.IsInUse passed.store :=
    World.Passes.isSound (Environment.isLawful_of_none none) seen sound name binding bound
  refine ⟨fun seen up _ _ bound => ?_, fun seen up _ _ bound => ?_, fun _ => rfl⟩
  · exact (World.Passes.retains none up).numbers _ (inUse seen bound)
  · exact (World.Passes.retains none up).strings _ (inUse seen bound)

/-- Folding never changes meaning. With and without it, a compilation succeeds or fails alike, with the same
diagnostics, resolved names and tables. If no constant has been written since the compilation saw it, and evaluating the
graph writes none, the two graphs give the same value, leave the same contents in all cells and make the same calls,
whatever the store holds besides, or neither of them comes to an end in the rounds that it has. -/
theorem evaluate_withFolding (expression : Expression) (settings : Settings) (resolver : Option Resolver)
    (source : String) (world : World) :
    let environment : Environment := ⟨expression.table, resolver, settings⟩
    let folded := expression.compile (settings.withFolding true) resolver source world
    let plain := expression.compile (settings.withFolding false) resolver source world
    folded.1.isCompiled = plain.1.isCompiled ∧
      folded.2.diagnostics source = plain.2.diagnostics source ∧
      folded.2.accepted = plain.2.accepted ∧ folded.2.world = plain.2.world ∧
      (environment.IsLawful → world.IsSound expression.table →
        ∀ store : Store, store.IsUndisturbed environment world plain.2.world → ∀ fuel,
          (∀ target, IsConstantCell environment world plain.2.world target →
            .writes target.cell ∉ plain.1.log fuel store) →
          folded.1.evaluate fuel store = plain.1.evaluate fuel store) := by
  intro environment folded plain
  have alike := (Correspondence.any environment (settings.withFolding true) (settings.withFolding false)
    world).ofSource_agrees rfl source
  have foldedCompiled : folded.1.compiled = folded.2.root.map (⟨source, settings.withFolding true, ·⟩) := rfl
  have plainCompiled : plain.1.compiled = plain.2.root.map (⟨source, settings.withFolding false, ·⟩) := rfl
  refine ⟨?_, ?_, alike.accepted, alike.sameWorld, ?_⟩
  · unfold Expression.isCompiled
    rw [foldedCompiled, plainCompiled, Option.isSome_map, Option.isSome_map]
    exact isSome_eq_of_related alike.root
  · exact congrArg (List.map (Diagnostic.ofReport source)) alike.reports
  · intro lawful sound store undisturbed fuel spared
    have kept := (foldingCorrespondence lawful sound settings
      (IsConstantCell environment world plain.2.world) store).ofSource_agrees rfl source
    have related : Option.Rel _ folded.2.root plain.2.root := kept.root
    unfold Expression.log Expression.trace at spared
    unfold Expression.evaluate
    rw [foldedCompiled, plainCompiled]
    rw [plainCompiled] at spared
    cases foldedRoot : folded.2.root with
    | none =>
      rw [foldedRoot] at related
      cases plainRoot : plain.2.root with
      | none => rfl
      | some root =>
        rw [plainRoot] at related
        cases related
    | some root =>
      rw [foldedRoot] at related
      cases plainRoot : plain.2.root with
      | none =>
        rw [plainRoot] at related
        cases related
      | some counterpart =>
        rw [plainRoot] at related spared
        obtain ⟨⟨progress, -, sameWorld, -, same⟩⟩ := related
        have lastWorld : progress.world = plain.2.world := sameWorld.trans kept.sameWorld
        have persists := undisturbed.persistsUpTo lawful
        exact SameMeaning.evaluate_eq same (lastWorld ▸ persists) spared

def piWorld : World :=
  (World.empty.newTable.2.addPi ⟨0⟩).2

theorem isSound_piWorld : piWorld.IsSound ⟨0⟩ := by
  intro name binding bound
  have table : piWorld.table ⟨0⟩ = SymbolTable.empty.insert "pi" (.scalar ⟨0⟩ true) := rfl
  rw [table] at bound
  rcases SymbolTable.lookup_insert_cases rfl bound with ⟨-, rfl⟩ | bound
  · exact Nat.zero_lt_one
  · cases bound

theorem tokenize_minusPi :
    tokenize "-pi" = .ok [⟨.fixed .minus, "-", ⟨1, 1⟩⟩, ⟨.name "pi", "pi", ⟨1, 2⟩⟩] := by
  with_unfolding_all rfl

/-- With folding, the source is compiled to a constant, and without, to an operation on a variable; right after the
compilation both come to the same. -/
theorem evaluate_withFolding_minusPi :
    let folded := (Expression.mk ⟨0⟩ none).compile (Settings.standard.withFolding true) none "-pi" piWorld
    let plain := (Expression.mk ⟨0⟩ none).compile (Settings.standard.withFolding false) none "-pi" piWorld
    plain.1.isCompiled = true ∧ ∀ fuel,
      folded.1.evaluate fuel plain.2.world.store = plain.1.evaluate fuel plain.2.world.store := by
  intro folded plain
  have compiled : plain.1.compiled = some ⟨"-pi", Settings.standard.withFolding false,
      .scalar (.unary .negate (.variable ⟨0⟩))⟩ := by
    change (Compilation.ofSource _ "-pi" piWorld).root.map _ = _
    unfold Compilation.ofSource
    rw [tokenize_minusPi]
    rfl
  obtain ⟨-, -, -, -, same⟩ :=
    evaluate_withFolding (Expression.mk ⟨0⟩ none) Settings.standard none "-pi" piWorld
  refine ⟨by rw [Expression.isCompiled, compiled]; rfl, fun fuel => ?_⟩
  refine same (Environment.isLawful_of_none rfl) isSound_piWorld _
    (Store.isUndisturbed_of_none rfl isSound_piWorld) fuel fun target _ written => ?_
  have logged : plain.1.log fuel plain.2.world.store = [.reads (.number ⟨0⟩)] := by
    unfold Expression.log Expression.trace
    rw [compiled]
    rfl
  rw [logged] at written
  cases List.mem_singleton.mp written

end LiveExpr
