import LiveExpr.Proofs.Compile.Height
import LiveExpr.Proofs.Grammar.Contracts
import LiveExpr.Proofs.Grammar.Proper
import Mathlib.Data.Nat.Choose.Basic
import Mathlib.Tactic.Ring

/-!
How high the graphs of the trees are that readers give. Every reader adds a few levels to what the readers of the next
deeper level give, whatever it repeats. Only subscripts go further: each of them adds a level and gives it back, but no
more of them follow one another than there are levels.
-/

namespace LiveExpr.Grammar

/-- Whether the trees that the readers of the next deeper level give are compiled to nodes within the bound, and
subscripts add no more levels to their base than are said. -/
structure Inner.Within (tally : Tally) (inner : Inner) (bound extra : Nat) : Prop where
  assignment : inner.assignment.Makes (Tree.Within tally bound)
  operand : inner.operand.Makes (Tree.Within tally bound)
  subscripts {base : Tree} {higher : Nat} (above : bound + tally.unit ≤ higher) (low : base.Within tally higher) :
    (inner.subscripts base).Makes (Tree.Within tally (higher + extra))

variable {tally : Tally} {inner : Inner} {bound extra : Nat}

theorem makes_mono {reader : Reader Tree} (makes : reader.Makes (Tree.Within tally bound)) {other : Nat}
    (le : bound ≤ other) : reader.Makes (Tree.Within tally other) :=
  makes.imp fun _ low => low.mono le

/-! ## Repetitions -/

theorem operators_makes {α : Type} {sign : Reader (Option α)} {operand : Reader Tree} {property : Tree → Prop}
    (operands : operand.Makes property) (make : List (α × Tree) → Tree) (count : Nat) {found : List (α × Tree)}
    (all : ∀ step ∈ found, property step.2) :
    (operators sign operand make count found).Makes fun run => ∀ step ∈ run, property step.2 := by
  induction count generalizing found with
  | zero => exact .pure (forall_mem_reverse all)
  | succ count induction =>
    refine .later _ fun accepted => ?_
    cases accepted with
    | none => exact .pure (forall_mem_reverse all)
    | some spelled =>
      exact (operands.within _).bind fun right holds => induction (List.forall_mem_cons.mpr ⟨holds, all⟩)

theorem run_makes {α : Type} {sign : Reader (Option α)} {operand : Reader Tree}
    {make : Tree → List (α × Tree) → Tree} (operands : operand.Makes (Tree.Within tally bound))
    (made : ∀ first : Tree, first.Within tally bound → ∀ run : List (α × Tree),
      (∀ step ∈ run, step.2.Within tally bound) → (make first run).Within tally (bound + 3 * tally.unit))
    (count : Nat) : (run count sign operand make).Makes (Tree.Within tally (bound + 3 * tally.unit)) := by
  refine operands.bind fun first low => ?_
  refine (operators_makes operands _ count (List.forall_mem_nil _)).bind fun rest all => .pure ?_
  split
  · exact low.mono (Nat.le_add_right _ _)
  · exact made first low rest all

theorem items_makes (within : inner.Within tally bound extra) (closing : Terminal) (make : List (Place × Tree) → Tree)
    (count : Nat) {found : List (Place × Tree)} (all : ∀ one ∈ found, one.2.Within tally bound) :
    (items inner closing make count found).Makes fun items => ∀ one ∈ items, one.2.Within tally bound := by
  induction count generalizing found with
  | zero => exact .stopUnexpected
  | succ count induction =>
    refine .later _ fun start => ?_
    refine (within.assignment.within _).bind fun item low => ?_
    have longer : ∀ one ∈ (start, item) :: found, one.2.Within tally bound := List.forall_mem_cons.mpr ⟨low, all⟩
    refine .later _ fun comma => ?_
    cases comma with
    | true => exact induction longer
    | false => exact .later _ fun _ => .pure (forall_mem_reverse longer)

theorem list_makes (within : inner.Within tally bound extra) (closing : Terminal) (make : List (Place × Tree) → Tree) :
    (list inner closing make).Makes fun items => ∀ one ∈ items, one.2.Within tally bound := by
  refine .later _ fun empty => ?_
  cases empty with
  | true => exact .pure (List.forall_mem_nil _)
  | false => exact items_makes within closing make inner.bound (List.forall_mem_nil _)

/-! ## Declarations and blocks -/

theorem vectorContent_makes (within : inner.Within tally bound extra) (word : Lexeme) (size : Nat) :
    (vectorContent inner word size).Makes (Tree.Within tally (bound + 3 * tally.unit)) := by
  have listed (bracket : Lexeme) {elements : List (Place × Tree)} (all : ∀ one ∈ elements, one.2.Within tally bound) :
      (Tree.listedVector word size bracket elements).Within tally (bound + 3 * tally.unit) :=
    (Tree.Within.listedVector word size bracket all).mono (by omega)
  refine .later _ fun assigned => ?_
  cases assigned with
  | false => exact .pure (listed word (List.forall_mem_nil _))
  | true =>
    refine .later _ fun bracket => ?_
    cases bracket with
    | some bracket => exact (list_makes within _ _).bind fun elements all => .pure (listed bracket all)
    | none =>
      refine .later _ fun start => ?_
      exact (within.assignment.within _).bind fun value low => .pure (.filledVector word size start low)

theorem declaration_makes (within : inner.Within tally bound extra) :
    (declaration inner).Makes (Tree.Within tally (bound + 3 * tally.unit)) := by
  have behind (word : Lexeme) : (declarationOf inner word).Makes (Tree.Within tally (bound + 3 * tally.unit)) := by
    refine .later _ fun bracket => ?_
    cases bracket with
    | true => exact .later _ fun size => vectorContent_makes within word size
    | false =>
      refine .later _ fun assigned => ?_
      cases assigned with
      | false =>
        have zero : (Tree.number 0.0).Within tally tally.unit := .number (Nat.le_refl _) 0.0
        exact .pure ((zero.declaration word .ending).mono (by omega))
      | true =>
        refine .later _ fun start => (within.assignment.within _).bind fun value low => .pure ?_
        exact (low.declaration word start).mono (by omega)
  intro lexemes tree rest read
  unfold declaration at read
  split at read
  · cases read
  · split at read
    · exact behind _ _ _ _ read
    · cases read

theorem statement_makes (within : inner.Within tally bound extra) :
    (statement inner).Makes (Tree.Within tally (bound + 3 * tally.unit)) := by
  refine .later _ fun declares => ?_
  cases declares with
  | true => exact declaration_makes within
  | false => exact makes_mono within.assignment (Nat.le_add_right _ _)

theorem blockOf_makes (closing : Lexeme) {found : List Tree} (all : ∀ one ∈ found, one.Within tally bound) :
    (blockOf closing found).Makes (Tree.Within tally (bound + tally.unit)) := by
  match found with
  | [] => exact nofun
  | [only] => exact .pure ((List.forall_mem_singleton.mp all).mono (Nat.le_add_right _ _))
  | result :: next :: earlier =>
    obtain ⟨last, others⟩ := List.forall_mem_cons.mp all
    exact .pure (.block (forall_mem_reverse others) last)

theorem statements_makes (within : inner.Within tally bound extra) (closing : Terminal) (count : Nat)
    {found : List Tree} (all : ∀ one ∈ found, one.Within tally (bound + 3 * tally.unit)) :
    (statements inner closing count found).Makes (Tree.Within tally (bound + 3 * tally.unit + tally.unit)) := by
  induction count generalizing found with
  | zero =>
    rw [statements]
    exact .stopUnexpected
  | succ count induction =>
    have next :
        (statements.next inner closing count found).Makes
          (Tree.Within tally (bound + 3 * tally.unit + tally.unit)) := by
      unfold statements.next
      refine Reader.Makes.bind ((statement_makes within).within _) fun tree low => ?_
      have longer : ∀ one ∈ tree :: found, one.Within tally (bound + 3 * tally.unit) :=
        List.forall_mem_cons.mpr ⟨low, all⟩
      refine .later _ fun semicolon => ?_
      cases semicolon with
      | true => exact induction longer
      | false => exact .later _ fun last => blockOf_makes last longer
    intro lexemes tree rest read
    unfold statements at read
    split at read
    · split at read
      · exact blockOf_makes _ all _ _ _ read
      · exact next _ _ _ read
    · exact next _ _ _ read

theorem block_makes (within : inner.Within tally bound extra) (closing : Terminal) :
    (block inner closing).Makes (Tree.Within tally (bound + 4 * tally.unit)) :=
  makes_mono (statements_makes within closing inner.bound (List.forall_mem_nil _)) (by omega)

theorem body_makes (within : inner.Within tally bound extra) :
    (body inner).Makes (Tree.Within tally (bound + 4 * tally.unit)) := by
  refine .later _ fun braced => ?_
  cases braced with
  | true => exact block_makes within .rightBrace
  | false => exact makes_mono (statement_makes within) (by omega)

/-! ## Forms -/

theorem nothing_within : nothing.Within tally (bound + 4 * tally.unit) :=
  .number (by omega) 0.0

theorem ifForm_makes (within : inner.Within tally bound extra) :
    (ifForm inner).Makes (Tree.Within tally (bound + 4 * tally.unit + tally.unit)) := by
  have inside {tree : Tree} (low : tree.Within tally bound) : tree.Within tally (bound + 4 * tally.unit) :=
    low.mono (by omega)
  refine .later _ fun _ => .later _ fun start => ?_
  refine within.assignment.bind fun condition first => .later _ fun comma => ?_
  cases comma with
  | true =>
    refine .later _ fun branch => (within.assignment.within _).bind fun consequent second => ?_
    refine Reader.Makes.within (.later _ fun _ => ?_) _
    refine within.assignment.bind fun alternative third => .later _ fun _ => .pure ?_
    exact .conditional start branch (inside first) (inside second) (inside third)
  | false =>
    have bodies : Reader.Makes (fun pair : Place × Tree => pair.2.Within tally (bound + 4 * tally.unit))
        (do
          let _ ← Reader.require .rightParen .conditionEnd
          let branch ← Reader.place
          let consequent ← body inner
          pure (branch, consequent)) :=
      .later _ fun _ => .later _ fun branch => (body_makes within).bind fun consequent low => .pure low
    refine (bodies.within _).bind ?_
    rintro ⟨branch, consequent⟩ second
    refine .later _ fun otherwise => ?_
    cases otherwise with
    | false => exact .pure (.conditionalOnly start branch (inside first) second)
    | true =>
      exact ((body_makes within).within _).bind fun alternative third =>
        .pure (.conditional start branch (inside first) second third)

theorem whileForm_makes (within : inner.Within tally bound extra) :
    (whileForm inner).Makes (Tree.Within tally (bound + 4 * tally.unit + tally.unit)) := by
  refine .later _ fun _ => .later _ fun start => within.assignment.bind fun condition low => ?_
  refine Reader.Makes.within (.later _ fun _ => (body_makes within).bind fun body last => .pure ?_) _
  exact .loop start nothing_within (low.mono (by omega)) nothing_within last

theorem clause_makes (ending : Terminal) {absent : Tree} {present : Reader Tree} (low : absent.Within tally bound)
    (makes : present.Makes (Tree.Within tally bound)) :
    (clause ending absent present).Makes (Tree.Within tally bound) := by
  refine .later _ fun ends => ?_
  cases ends with
  | true => exact .pure low
  | false => exact makes

theorem forForm_makes (within : inner.Within tally bound extra) :
    (forForm inner).Makes (Tree.Within tally (bound + 4 * tally.unit + tally.unit)) := by
  have statements : (statement inner).Makes (Tree.Within tally (bound + 4 * tally.unit)) :=
    makes_mono (statement_makes within) (by omega)
  have formulas : inner.assignment.Makes (Tree.Within tally (bound + 4 * tally.unit)) :=
    makes_mono within.assignment (by omega)
  refine .later _ fun _ => (clause_makes .semicolon nothing_within statements).bind fun initializer first => ?_
  have conditions : Reader.Makes (fun pair : Place × Tree => pair.2.Within tally (bound + 4 * tally.unit))
      (do
        let _ ← Reader.require .semicolon .afterInitializer
        let start ← Reader.place
        let condition ← clause .semicolon (.number 1.0) inner.assignment
        pure (start, condition)) :=
    .later _ fun _ => .later _ fun start =>
      (clause_makes .semicolon (.number (by omega) 1.0) formulas).bind fun condition low => .pure low
  refine (conditions.within _).bind ?_
  rintro ⟨start, condition⟩ second
  have steps : Reader.Makes (Tree.Within tally (bound + 4 * tally.unit))
      (do
        let _ ← Reader.require .semicolon .afterLoopCondition
        clause .rightParen nothing (statement inner)) :=
    .later _ fun _ => clause_makes .rightParen nothing_within statements
  refine (steps.within _).bind fun step third => ?_
  refine Reader.Makes.within (.later _ fun _ => (body_makes within).bind fun body fourth => .pure ?_) _
  exact .loop start first second third fourth

theorem cases_makes (within : inner.Within tally bound extra) (count : Nat)
    {found : List ((Place × Tree) × (Place × Tree))}
    (all : ∀ one ∈ found, one.1.2.Within tally bound ∧ one.2.2.Within tally bound) :
    (cases inner count found).Makes fun cases =>
      ∀ one ∈ cases, one.1.2.Within tally bound ∧ one.2.2.Within tally bound := by
  induction count generalizing found with
  | zero => exact .pure (forall_mem_reverse all)
  | succ count induction =>
    refine .later _ fun another => ?_
    cases another with
    | false => exact .pure (forall_mem_reverse all)
    | true =>
      refine .later _ fun start => (within.assignment.within _).bind fun condition first => ?_
      have results : Reader.Makes (fun pair : Place × Tree => pair.2.Within tally bound)
          (do
            let _ ← Reader.require .colon .caseColon
            let resultStart ← Reader.place
            let result ← inner.assignment
            pure (resultStart, result)) :=
        .later _ fun _ => .later _ fun resultStart => within.assignment.bind fun result low => .pure low
      refine (results.within _).bind ?_
      rintro ⟨resultStart, result⟩ second
      exact .later _ fun _ => induction (List.forall_mem_cons.mpr ⟨⟨first, second⟩, all⟩)

theorem switchForm_makes (within : inner.Within tally bound extra) :
    (switchForm inner).Makes (Tree.Within tally (bound + tally.unit)) := by
  refine .later _ fun _ => ?_
  refine (cases_makes within inner.bound (List.forall_mem_nil _)).bind fun cases all => ?_
  have trees : Reader.Makes (Tree.Within tally (bound + tally.unit))
      (do
        let _ ← Reader.require .defaultWord .caseOrDefault
        let _ ← Reader.require .colon .defaultColon
        let start ← Reader.place
        let otherwise ← inner.assignment
        pure (.choice cases start otherwise)) :=
    .later _ fun _ => .later _ fun _ => .later _ fun start => within.assignment.bind fun otherwise last =>
      .pure (.choice start (fun one listed => (all one listed).1) (fun one listed => (all one listed).2) last)
  exact (trees.within _).bind fun tree low => .later _ fun _ => .later _ fun _ => .pure low

/-! ## Operands -/

theorem nameForm_makes (within : inner.Within tally bound extra) (word : Lexeme) (name : String) :
    (nameForm inner word name).Makes (Tree.Within tally (bound + tally.unit)) := by
  refine .later _ fun called => ?_
  cases called with
  | true =>
    refine (list_makes within _ _).bind fun arguments all => .later _ fun rest => .pure ?_
    exact .call word all rest
  | false =>
    rw [if_neg Bool.false_ne_true]
    split
    · exact .stop _
    · exact .later _ fun rest => .pure (.name (Nat.le_add_left _ _) word rest)

theorem primary_makes (within : inner.Within tally bound extra) :
    (primary inner).Makes (Tree.Within tally (bound + 5 * tally.unit)) := by
  have least : tally.unit ≤ bound + 5 * tally.unit := by omega
  intro lexemes tree rest read
  unfold primary at read
  split at read
  · cases read
  · split at read
    · cases read
      exact .number least _
    · cases read
      exact .text least _
    · exact (nameForm_makes within _ _ _ _ _ read).mono (by omega)
    · cases read
      exact .number least _
    · cases read
      exact .number least _
    · exact (block_makes within _ _ _ _ read).mono (by omega)
    · exact (block_makes within _ _ _ _ read).mono (by omega)
    · exact (ifForm_makes within _ _ _ read).mono (by omega)
    · exact (whileForm_makes within _ _ _ read).mono (by omega)
    · exact (forForm_makes within _ _ _ read).mono (by omega)
    · exact (switchForm_makes within _ _ _ read).mono (by omega)
    · cases read

theorem rangeEnd_makes {assignment : Reader Tree} (makes : assignment.Makes (Tree.Within tally bound))
    (least : tally.unit ≤ bound) (bracket : Lexeme) {base first : Tree} (lowBase : base.Within tally bound)
    (firstStart : Place) (lowFirst : first.Within tally bound) :
    (rangeEnd assignment bracket base firstStart first).Makes (Tree.Within tally (bound + 1)) := by
  refine .later _ fun ended => ?_
  cases ended with
  | true => exact .pure (.range bracket firstStart .ending lowBase lowFirst (.number least _))
  | false =>
    refine .later _ fun lastStart => (makes.within _).bind fun last lowLast => .later _ fun _ => .pure ?_
    exact .range bracket firstStart lastStart lowBase lowFirst lowLast

theorem subscript_makes {assignment : Reader Tree} (makes : assignment.Makes (Tree.Within tally bound))
    (least : tally.unit ≤ bound) (bracket : Lexeme) {base : Tree} (low : base.Within tally bound) :
    (subscript assignment bracket base).Makes (Tree.Within tally (bound + 1)) := by
  refine .later _ fun ended => ?_
  cases ended with
  | true => exact .pure (.size bracket low)
  | false =>
    refine .later _ fun ranged => ?_
    cases ranged with
    | true => exact rangeEnd_makes makes least bracket low .ending (.number least 0.0)
    | false =>
      refine .later _ fun start => (makes.within _).bind fun index second => .later _ fun ranged => ?_
      cases ranged with
      | true => exact rangeEnd_makes makes least bracket low start second
      | false => exact .later _ fun _ => .pure (.element bracket start low second)

theorem power_makes (within : inner.Within tally bound extra) :
    (power inner).Makes (Tree.Within tally (bound + extra + 8 * tally.unit)) := by
  refine (primary_makes within).bind fun base low => ?_
  refine (within.subscripts (by omega) low).bind fun base low => .later _ fun raising => ?_
  cases raising with
  | none => exact .pure (low.mono (by omega))
  | some sign =>
    refine (within.operand.within _).bind fun exponent small => .pure ?_
    have wider : exponent.Within tally (bound + 5 * tally.unit + extra) := small.mono (by omega)
    refine (low.arithmetic ?_).mono (by omega)
    exact List.forall_mem_singleton.mpr wider

theorem unary_makes (within : inner.Within tally bound extra) :
    (unary inner).Makes (Tree.Within tally (bound + extra + 8 * tally.unit)) := by
  have signed {context before : Tree → Tree}
      (made : ∀ operand : Tree, operand.Within tally bound → (context operand).Within tally (bound + tally.unit)) :
      (context <$> inner.operand.within before).Makes (Tree.Within tally (bound + extra + 8 * tally.unit)) :=
    (within.operand.within _).bind fun operand low => .pure ((made operand low).mono (by omega))
  intro lexemes tree rest read
  unfold unary at read
  split at read
  · exact power_makes within _ _ _ read
  · split at read
    · exact signed (fun _ => .negation _) _ _ _ read
    · exact signed (fun _ => .affirmation _) _ _ _ read
    · exact signed (fun _ => .denial _) _ _ _ read
    · exact signed (fun _ => .denial _) _ _ _ read
    · exact power_makes within _ _ _ read

/-! ## Formulas -/

theorem product_makes (within : inner.Within tally bound extra) :
    (product inner).Makes (Tree.Within tally (bound + extra + 11 * tally.unit)) :=
  makes_mono (run_makes (unary_makes within) (fun _ low _ all => low.arithmetic all) inner.bound) (by omega)

theorem sum_makes (within : inner.Within tally bound extra) :
    (sum inner).Makes (Tree.Within tally (bound + extra + 14 * tally.unit)) :=
  makes_mono (run_makes (product_makes within) (fun _ low _ all => low.arithmetic all) inner.bound) (by omega)

theorem relation_makes (within : inner.Within tally bound extra) :
    (relation inner).Makes (Tree.Within tally (bound + extra + 15 * tally.unit)) := by
  refine (sum_makes within).bind fun left first => .later _ fun found => ?_
  cases found with
  | none => exact .pure (first.mono (by omega))
  | some sign =>
    refine Reader.Makes.within ((sum_makes within).bind fun right second => .later _ fun _ => .pure ?_) _
    exact (Tree.Within.relation sign first second).mono (by omega)

theorem logical_makes (level : List BinaryOperator) {operand : Reader Tree}
    (makes : operand.Makes (Tree.Within tally bound)) :
    (logical inner level operand).Makes (Tree.Within tally (bound + 3 * tally.unit)) :=
  .later _ fun start => run_makes makes (fun _ low _ all => .logical start low all) inner.bound

theorem disjunction_makes (within : inner.Within tally bound extra) :
    (disjunction inner).Makes (Tree.Within tally (bound + extra + 24 * tally.unit)) :=
  makes_mono (logical_makes _ (logical_makes _ (logical_makes _ (relation_makes within)))) (by omega)

theorem conditional_makes (within : inner.Within tally bound extra) :
    (conditional inner).Makes (Tree.Within tally (bound + extra + 25 * tally.unit)) := by
  refine .later _ fun start => (disjunction_makes within).bind fun condition first => .later _ fun question => ?_
  cases question with
  | false => exact .pure (first.mono (by omega))
  | true =>
    refine .later _ fun branch => (within.assignment.within _).bind fun consequent second => ?_
    refine Reader.Makes.within (.later _ fun _ => within.assignment.bind fun alternative third => .pure ?_) _
    have wider : bound ≤ bound + extra + 24 * tally.unit := by omega
    exact (Tree.Within.conditional start branch first (second.mono wider) (third.mono wider)).mono (by omega)

theorem assignmentTo_makes (within : inner.Within tally bound extra) (word : Lexeme) :
    (assignmentTo inner word).Makes (Tree.Within tally (bound + 2 * tally.unit)) := by
  refine .later _ fun bracket => ?_
  cases bracket with
  | true =>
    refine .later _ fun start => (within.assignment.within _).bind fun index first => .later _ fun sign => ?_
    refine (within.assignment.within _).bind fun value second => .pure ?_
    exact (Tree.Within.elementAssignment word start sign first second).mono (by omega)
  | false =>
    refine .later _ fun sign => .later _ fun start => ?_
    exact (within.assignment.within _).bind fun value low => .pure (low.assignment word sign start)

theorem assignment_makes (within : inner.Within tally bound extra) :
    (assignment inner).Makes (Tree.Within tally (bound + extra + 25 * tally.unit)) := by
  intro lexemes tree rest read
  unfold assignment at read
  split at read
  · exact conditional_makes within _ _ _ read
  · split at read
    · exact (assignmentTo_makes within _ _ _ _ read).mono (by omega)
    · exact conditional_makes within _ _ _ read

/-! ## Levels -/

variable (tally) in
/-- What the graphs weigh at most of what stands inside so many levels. -/
def weightAt : (level : Nat) → Nat
  | 0 => 0
  | level + 1 => weightAt level + level + 25 * tally.unit

theorem innerAt_within (limit bound level : Nat) :
    (innerAt limit bound level).Within tally (weightAt tally level) level := by
  induction level with
  | zero =>
    refine ⟨nofun, nofun, fun {base higher} above low lexemes tree rest read => ?_⟩
    change subscriptsAt limit bound 0 base lexemes = .ok (tree, rest) at read
    rw [subscriptsAt] at read
    split at read
    · cases read
    · cases read
      exact low
  | succ level induction =>
    refine ⟨assignment_makes induction,
      fun lexemes tree rest read => (unary_makes induction lexemes tree rest read).mono (by rw [weightAt]; omega),
      fun {base higher} above low => .later _ fun found => ?_⟩
    rw [weightAt] at above
    cases found with
    | none => exact .pure (low.mono (Nat.le_add_right _ _))
    | some bracket =>
      have formulas : Reader.Makes (Tree.Within tally higher) (assignmentAt limit bound level) :=
        makes_mono induction.assignment (by omega)
      refine (subscript_makes formulas (by omega) bracket low).bind fun base low => ?_
      exact (induction.subscripts (by omega) low).imp fun _ low => low.mono (by omega)

theorem endedStatement_makes (within : inner.Within tally bound extra) :
    (endedStatement inner).Makes (Tree.Within tally (bound + 3 * tally.unit)) :=
  (statement_makes within).bind fun _ low => .later _ fun _ => .pure low

/-- The height is at most quadratic in the number of levels. -/
theorem weightAt_levels_le (level : Nat) : weightAt .levels level + 4 ≤ 13 * (level + 1) ^ 2 := by
  induction level with
  | zero => decide
  | succ level induction =>
    have square : (level + 1 + 1) ^ 2 = (level + 1) ^ 2 + 2 * level + 3 := by ring
    rw [weightAt, square]
    change weightAt .levels level + level + 25 * 1 + 4 ≤ _
    omega

/-- At every level, as many subscripts may follow one another as there are levels inside it. -/
theorem weightAt_subscripts (level : Nat) : weightAt .subscripts level = level * (level - 1) / 2 := by
  rw [← Nat.choose_two_right]
  induction level with
  | zero => rfl
  | succ level induction =>
    rw [weightAt, Nat.choose_succ_succ', Nat.choose_one_right, induction]
    change level.choose 2 + level + 25 * 0 = level + level.choose 2
    omega

end LiveExpr.Grammar
