import LiveExpr.Expression
import LiveExpr.Proofs.Compile.Source
import LiveExpr.Proofs.Node.Congruence
import LiveExpr.Proofs.Node.Rounds

/-!
A limit makes evaluation come to an end and otherwise changes nothing. The compilations with and without it differ in
the limits of their loops alone.
-/

namespace LiveExpr

open AnyNode (Everywhere everywhere_iff HasLimit)

/-- The settings with another limit. -/
def Settings.withLimit (settings : Settings) (limit : Option Nat) : Settings :=
  { settings with loopLimit := limit }

/-- Whether a node is one without limits, in which every loop has got the limit. -/
structure Limited (limit : Nat) (k : Kind) (plain limited : Node k) : Prop where
  same : limited = plain.relabel (.onLimits fun _ => some limit)
  unlimited : Everywhere (HasLimit none) ⟨k, plain⟩

namespace Limited

variable {limit : Nat}

theorem leaf {k : Kind} {node : Node k} (same : node.relabel (.onLimits fun _ => some limit) = node)
    (leaf : node.children = []) (unlimited : HasLimit none ⟨k, node⟩) : Limited limit k node node := by
  refine ⟨same.symm, .intro unlimited ?_⟩
  rw [leaf]
  exact List.forall_mem_nil _

theorem of_operand {operand other : Operand} (related : Operand.Related (Limited limit) operand other) :
    other = operand.relabel (.onLimits fun _ => some limit) ∧ operand.node.Everywhere (HasLimit none) := by
  cases related with
  | vector limited => exact ⟨by rw [limited.same]; rfl, limited.unlimited⟩
  | scalar limited => exact ⟨by rw [limited.same]; rfl, limited.unlimited⟩

theorem of_node {node other : AnyNode} (related : AnyNode.Related (Limited limit) node other) :
    other = node.limited limit ∧ node.Everywhere (HasLimit none) := by
  obtain ⟨limited⟩ := related
  exact ⟨by rw [limited.same]; rfl, limited.unlimited⟩

theorem of_scalars {nodes others : List (Node .scalar)} (related : List.Forall₂ (Limited limit .scalar) nodes others) :
    others = relabelAll (.onLimits fun _ => some limit) nodes := by
  induction related with
  | nil => rfl
  | cons first _ induction => rw [relabelAll, first.same, induction]

theorem of_cases {ones others : List (Node .scalar × Node .scalar)}
    (related : List.Forall₂ (fun one other => Limited limit .scalar one.1 other.1 ∧ Limited limit .scalar one.2 other.2)
      ones others) :
    others = relabelCases (.onLimits fun _ => some limit) ones := by
  induction related with
  | nil => rfl
  | cons first _ induction => rw [relabelCases, ← first.1.same, ← first.2.same, induction]

theorem of_statements {nodes others : List AnyNode}
    (related : List.Forall₂ (AnyNode.Related (Limited limit)) nodes others) :
    others = relabelStatements (.onLimits fun _ => some limit) nodes := by
  induction related with
  | nil => rfl
  | cons first _ induction => rw [relabelStatements, (of_node first).1, induction]; rfl

theorem fold {node other : Node .scalar} (limited : Limited limit .scalar node other) (store : Store) :
    Limited limit .scalar (node.fold store) (other.fold store) := by
  refine ⟨?_, Node.everywhere_fold (fun _ => trivial) limited.unlimited store⟩
  rw [limited.same]
  exact (Node.relabel_fold fun _ _ => rfl).symm

theorem foldString {node other : Node .string} (limited : Limited limit .string node other) (store : Store) :
    Limited limit .string (node.foldString store) (other.foldString store) := by
  refine ⟨?_, Node.everywhere_foldString (fun _ => trivial) limited.unlimited store⟩
  rw [limited.same]
  exact (Node.relabel_foldString node store store).symm

theorem operation (op : BinaryOperator) {node other node₁ other₁ : Node .scalar}
    (first : Limited limit .scalar node other) (second : Limited limit .scalar node₁ other₁) :
    Limited limit .scalar (.operation op node node₁) (.operation op other other₁) := by
  refine ⟨?_, (Node.everywhere_operation (fun _ _ _ => trivial) (fun _ _ => trivial)).mpr
    ⟨first.unlimited, second.unlimited⟩⟩
  rw [first.same, second.same]
  exact (Node.relabel_operation op node node₁).symm

theorem joined {node other node₁ other₁ : Node .string} (first : Limited limit .string node other)
    (second : Limited limit .string node₁ other₁) :
    Limited limit .string (.joined node node₁) (.joined other other₁) := by
  refine ⟨?_, (Node.everywhere_joined fun _ => trivial).mpr ⟨first.unlimited, second.unlimited⟩⟩
  rw [first.same, second.same]
  exact (Node.relabel_joined node node₁).symm

theorem elementOperation (op : BinaryOperator) {operand other operand₁ other₁ : Operand}
    (first : Operand.Related (Limited limit) operand other) (second : Operand.Related (Limited limit) operand₁ other₁) :
    Limited limit .vector (.elementOperation op operand operand₁) (.elementOperation op other other₁) := by
  obtain ⟨rfl, unlimited⟩ := of_operand first
  obtain ⟨rfl, unlimited₁⟩ := of_operand second
  refine ⟨(Node.relabel_elementOperation op operand operand₁).symm, ?_⟩
  refine Node.everywhere_elementOperation ?_ unlimited unlimited₁
  unfold Node.elementOperation
  split <;> trivial

theorem loop {start otherStart step otherStep body otherBody : AnyNode} {condition otherCondition : Node .scalar}
    (first : AnyNode.Related (Limited limit) start otherStart) (second : Limited limit .scalar condition otherCondition)
    (third : AnyNode.Related (Limited limit) step otherStep) (fourth : AnyNode.Related (Limited limit) body otherBody) :
    Limited limit .scalar (.loop start condition step body none)
      (.loop otherStart otherCondition otherStep otherBody (some limit)) := by
  obtain ⟨rfl, unlimitedStart⟩ := of_node first
  obtain ⟨rfl, unlimitedStep⟩ := of_node third
  obtain ⟨rfl, unlimitedBody⟩ := of_node fourth
  refine ⟨by rw [second.same]; rfl, .intro rfl ?_⟩
  simp only [Node.children, List.forall_mem_cons]
  exact ⟨unlimitedStart, second.unlimited, unlimitedStep, unlimitedBody, List.forall_mem_nil _⟩

theorem alike {assignable : Binding → Prop} {k : Kind} {node other : Node k}
    (alike : Node.Alike assignable (Limited limit) k node other) : Limited limit k node other := by
  have here : HasLimit none ⟨k, node⟩ := by cases alike <;> trivial
  refine ⟨?_, alike.everywhere_left (fun limited => limited.unlimited) here⟩
  cases alike with
  | constant | literal => rfl
  | unary _ operand | vectorSize operand | stringLength operand | vectorAggregate _ operand | negate operand
  | map _ operand | assign _ operand | stringAssign _ operand => rw [operand.same]; rfl
  | element first second | assignElement _ first second | stringCompare _ first second
  | stringMatch _ first second => rw [first.same, second.same]; rfl
  | conditional first second third | substring first second third | stringConditional first second third =>
    rw [first.same, second.same, third.same]; rfl
  | choice related otherwise => rw [of_cases related, otherwise.same]; rfl
  | builtin _ arguments | userCall _ arguments => rw [of_scalars arguments]; rfl
  | reset _ values => rw [of_scalars values]; rfl
  | vectorAssign _ value => rw [(of_operand value).1]; rfl
  | sequence related result => rw [of_statements related, result.same]; rfl

end Limited

/-- Everything that is made with the limit is what is made without, with the limit in every loop. -/
def limitCorrespondence (environment : Environment) (settings : Settings) (limit : Nat) (world : World) :
    Correspondence environment (settings.withLimit none) (settings.withLimit (some limit)) world where
  Holds _ := Limited limit
  later _ _ _ _ limited := limited
  missing _ _ _ := .leaf rfl rfl trivial
  number _ _ constant _ := by
    change Limited limit .scalar (settings.numberNode _ _ constant) (settings.numberNode _ _ constant)
    unfold Settings.numberNode
    split <;> exact .leaf rfl rfl trivial
  text _ _ constant _ := by
    change Limited limit .string (settings.textNode _ _ constant) (settings.textNode _ _ constant)
    unfold Settings.textNode
    split <;> exact .leaf rfl rfl trivial
  vector _ _ _ := .leaf rfl rfl trivial
  settle _ _ _ limited := by
    change Limited limit .scalar (settings.settle _ _) (settings.settle _ _)
    unfold Settings.settle
    split
    · exact limited.fold _
    · exact limited
  settleString _ _ _ limited := by
    change Limited limit .string (settings.settleString _ _) (settings.settleString _ _)
    unfold Settings.settleString
    split
    · exact limited.foldString _
    · exact limited
  operation op _ _ _ _ first second := first.operation op second
  joined first second := first.joined second
  elementOperation _ _ _ _ _ first second _ := .elementOperation _ first second
  loop := .loop
  alike := .alike

theorem limits_trace (expression : Expression) (settings : Settings) (resolver : Option Resolver) (source : String)
    (world : World) (limit fuel otherFuel : Nat) :
    let limited := (expression.compile (settings.withLimit (some limit)) resolver source world).1
    let plain := (expression.compile (settings.withLimit none) resolver source world).1
    Traced.Limits limit (plain.trace fuel) (limited.trace otherFuel) ∧
      limited.trace fuel = limited.trace otherFuel := by
  intro limited plain
  have related := ((limitCorrespondence ⟨expression.table, resolver, settings⟩ settings limit world).ofSource_agrees rfl
    source).root
  have limitedCompiled : limited.compiled = (Compilation.ofSource ⟨expression.table, resolver, _⟩ source world).root.map
    (⟨source, settings.withLimit (some limit), ·⟩) := rfl
  have plainCompiled : plain.compiled = (Compilation.ofSource ⟨expression.table, resolver, _⟩ source world).root.map
    (⟨source, settings.withLimit none, ·⟩) := rfl
  unfold Expression.trace
  rw [limitedCompiled, plainCompiled]
  change Option.Rel _ (Compilation.ofSource ⟨expression.table, resolver, settings.withLimit none⟩ source world).root
    (Compilation.ofSource ⟨expression.table, resolver, settings.withLimit (some limit)⟩ source world).root at related
  revert related
  generalize (Compilation.ofSource ⟨expression.table, resolver, settings.withLimit none⟩ source world).root = root
  generalize
    (Compilation.ofSource ⟨expression.table, resolver, settings.withLimit (some limit)⟩ source world).root = other
  rintro (⟨_, -, -, -, same⟩ | _)
  · obtain ⟨rfl, unlimited⟩ := Limited.of_node same
    exact ⟨AnyNode.limits_trace unlimited limit fuel otherFuel,
      AnyNode.trace_eq_of_hasLimit (AnyNode.everywhere_limited limit _) fuel otherFuel⟩
  · exact ⟨.pure _, rfl⟩

/-- An iteration limit makes evaluation come to an end and otherwise changes nothing. With and without it, a
compilation succeeds or fails alike, with the same diagnostics, resolved names and tables. With it, evaluation gives a
value in every store, whatever rounds other loops might take, and no entry into a loop takes more rounds than the
limit. Where evaluation without it gives a value, and every entry into a loop takes fewer rounds, both give the same
value and leave the same store. -/
theorem evaluate_withLimit (expression : Expression) (settings : Settings) (resolver : Option Resolver)
    (source : String) (world : World) (limit : Nat) :
    let limited := expression.compile (settings.withLimit (some limit)) resolver source world
    let plain := expression.compile (settings.withLimit none) resolver source world
    limited.1.isCompiled = plain.1.isCompiled ∧
      limited.2.diagnostics source = plain.2.diagnostics source ∧
      limited.2.accepted = plain.2.accepted ∧ limited.2.world = plain.2.world ∧
      ∀ store,
        (∃ value after, ∀ fuel, limited.1.evaluate fuel store = some (value, after)) ∧
        (∀ fuel count, .rounds count ∈ limited.1.log fuel store → count ≤ limit) ∧
        ∀ fuel value after, plain.1.evaluate fuel store = some (value, after) →
          (∀ count, .rounds count ∈ plain.1.log fuel store → count < limit) →
          ∀ otherFuel, limited.1.evaluate otherFuel store = some (value, after) := by
  intro limited plain
  have agrees := (limitCorrespondence ⟨expression.table, resolver, settings⟩ settings limit world).ofSource_agrees rfl
    source
  have limits (fuel otherFuel : Nat) := limits_trace expression settings resolver source world limit fuel otherFuel
  refine ⟨?_, ?_, agrees.accepted.symm, agrees.sameWorld.symm, fun store => ⟨?_, ?_, ?_⟩⟩
  · change (limited.2.root.map _).isSome = (plain.2.root.map _).isSome
    rw [Option.isSome_map, Option.isSome_map]
    exact (isSome_eq_of_related agrees.root).symm
  · exact congrArg (List.map (Diagnostic.ofReport source)) agrees.reports.symm
  · obtain ⟨⟨value, after⟩, returned⟩ := Option.isSome_iff_exists.mp ((limits 0 0).1.returns store)
    refine ⟨value, after, fun fuel => ?_⟩
    rw [← Expression.erase_trace, (limits fuel 0).2]
    exact returned
  · exact fun fuel count taken => (limits 0 fuel).1.rounds store taken
  · intro fuel value after returned fewer otherFuel
    rw [← Expression.erase_trace] at returned ⊢
    have same := (limits fuel otherFuel).1.same (Option.isSome_of_eq_some returned) fewer
    exact (congrArg Prod.snd same).trans returned

theorem tokenize_switchOff : tokenize "while(x)x:=false" = .ok [⟨.fixed .whileWord, "while", ⟨1, 1⟩⟩,
    ⟨.fixed .leftParen, "(", ⟨1, 6⟩⟩, ⟨.name "x", "x", ⟨1, 7⟩⟩, ⟨.fixed .rightParen, ")", ⟨1, 8⟩⟩,
    ⟨.name "x", "x", ⟨1, 9⟩⟩, ⟨.fixed .assign, ":=", ⟨1, 10⟩⟩, ⟨.fixed .falseWord, "false", ⟨1, 12⟩⟩] := by
  with_unfolding_all rfl

def switchWorld : World where
  store := { Store.empty with numbers := ⟨#[1.0]⟩ }
  tables := ⟨#[SymbolTable.empty.insert "x" (.scalar ⟨0⟩ false)]⟩

theorem compiled_switchOff (limit : Option Nat) :
    ((Expression.mk ⟨0⟩ none).compile (Settings.standard.withLimit limit) none "while(x)x:=false"
        switchWorld).1.compiled =
      some ⟨"while(x)x:=false", Settings.standard.withLimit limit,
        AnyNode.scalar (.loop AnyNode.skip (.variable ⟨0⟩) AnyNode.skip
          (AnyNode.scalar (.assign ⟨0⟩ none (.constant 0.0))) limit)⟩ := by
  change (Compilation.ofSource _ "while(x)x:=false" switchWorld).root.map _ = _
  unfold Compilation.ofSource
  rw [tokenize_switchOff]
  rfl

/-- A loop that switches its own condition off takes one round, with a limit of two as without. -/
theorem evaluate_withLimit_switchOff :
    let limited := (Expression.mk ⟨0⟩ none).compile (Settings.standard.withLimit (some 2)) none "while(x)x:=false"
      switchWorld
    let plain := (Expression.mk ⟨0⟩ none).compile (Settings.standard.withLimit none) none "while(x)x:=false" switchWorld
    let after := switchWorld.store.setNumber ⟨0⟩ 0.0
    plain.1.evaluate 2 switchWorld.store = some (.number 0.0, after) ∧
      (∀ count, .rounds count ∈ plain.1.log 2 switchWorld.store → count < 2) ∧
      ∀ fuel, limited.1.evaluate fuel switchWorld.store = some (.number 0.0, after) := by
  intro limited plain after
  have evaluated : plain.1.evaluate 2 switchWorld.store = some (.number 0.0, after) := by
    unfold Expression.evaluate
    rw [compiled_switchOff]
    rfl
  have logged : plain.1.log 2 switchWorld.store =
      [.reads (.number ⟨0⟩), .writes (.number ⟨0⟩), .reads (.number ⟨0⟩), .rounds 1] := by
    unfold Expression.log Expression.trace
    rw [compiled_switchOff]
    rfl
  have fewer (count : Nat) (taken : .rounds count ∈ plain.1.log 2 switchWorld.store) : count < 2 := by
    rw [logged] at taken
    have once : count = 1 := by simpa using taken
    omega
  obtain ⟨-, -, -, -, same⟩ :=
    evaluate_withLimit (Expression.mk ⟨0⟩ none) Settings.standard none "while(x)x:=false" switchWorld 2
  exact ⟨evaluated, fewer, (same switchWorld.store).2.2 2 _ _ evaluated fewer⟩
end LiveExpr
