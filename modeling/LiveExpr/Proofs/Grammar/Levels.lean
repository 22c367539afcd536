import LiveExpr.Proofs.Grammar.Deepening
import LiveExpr.Proofs.Grammar.Soundness

/-!
The readers of one level extend their counterparts if those of the next deeper level do. So the readers inside a level
extend all those that may enter fewer levels.
-/

namespace LiveExpr.Grammar

open Reader (Deepens DeepensTree)

/-- Whether the second readers of the next deeper level extend the first ones. -/
structure Inner.Deepens (shallow deep : Inner) : Prop where
  bound : shallow.bound = deep.bound
  assignment : DeepensTree (deep.bound + 1) shallow.assignment deep.assignment
  operand : DeepensTree (deep.bound + 1) shallow.operand deep.operand
  subscripts (base : Tree) :
    Reader.Deepens (deep.bound + 1) (fun tree => tree) base.work Tree.work (shallow.subscripts base)
      (deep.subscripts base)

theorem Inner.Deepens.enters {shallow deep : Inner} (deepens : shallow.Deepens deep) {size : Nat}
    (small : size ≤ deep.bound + 1) {done : Work} {context : Tree → Tree} (opens : done.Opens context) :
    Reader.Deepens size context done (fun tree => done.andThen tree.work) shallow.assignment deep.assignment :=
  (deepens.assignment.mono small).nested opens

variable {shallow deep : Inner} {size : Nat} {context : Tree → Tree} {before : Work}

/-! ## Repetitions -/

structure Lists (make : List (Place × Tree) → Tree) (done : List (Place × Tree) → Work) : Prop where
  opens (found : List (Place × Tree)) (start : Place) : (done found).Opens fun tree => make (found ++ [(start, tree)])
  grows (found : List (Place × Tree)) (one : Place × Tree) :
    ((done found).andThen one.2.work).LeadsTo (done (found ++ [one]))

theorem Lists.reversed {make : List (Place × Tree) → Tree} {done : List (Place × Tree) → Work}
    (lists : Lists make done) (found : List (Place × Tree)) (start : Place) :
    (done found.reverse).Opens fun tree => make ((start, tree) :: found).reverse := by
  simp only [List.reverse_cons]
  exact lists.opens found.reverse start

/-- Whether the trees that are made of a run of operators are compiled from left to right. -/
structure Runs {α : Type} (make : Tree → List (α × Tree) → Tree) : Prop where
  alone (first : Tree) : (make first []).work = first.work
  opens (first : Tree) (found : List (α × Tree)) (sign : α) :
    (make first found).work.Opens fun tree => make first (found ++ [(sign, tree)])

theorem Runs.reversed {α : Type} {make : Tree → List (α × Tree) → Tree} (runs : Runs make) (first : Tree)
    (found : List (α × Tree)) (sign : α) :
    (make first found.reverse).work.Opens fun tree => make first ((sign, tree) :: found).reverse := by
  simp only [List.reverse_cons]
  exact runs.opens first found.reverse sign

theorem operators_deepens {α : Type} {sign : Reader (Option α)} {make : Tree → List (α × Tree) → Tree}
    {operand other : Reader Tree}
    (signs : ∀ before, Deepens size (fun tree => tree) before (fun _ => before) sign sign)
    (runs : Runs make) (deepens : DeepensTree size operand other) (first : Tree) (bound : Nat)
    (found : List (α × Tree)) :
    Deepens size (fun tree => tree) (make first found.reverse).work (fun run => (make first run).work)
      (operators sign operand (make first) bound found) (operators sign other (make first) bound found) := by
  induction bound generalizing found with
  | zero => exact .pure (.refl _)
  | succ bound induction =>
    refine .bind (signs _) fun accepted => ?_
    cases accepted with
    | none => exact .pure (.refl _)
    | some spelled =>
      have opens := runs.reversed first found spelled
      refine .bind (.within (deepens.nested opens)) fun right => ?_
      exact .since (opens right) (induction ((spelled, right) :: found))

theorem run_deepens {α : Type} {sign : Reader (Option α)} {make : Tree → List (α × Tree) → Tree}
    {operand other : Reader Tree}
    (signs : ∀ before, Deepens size (fun tree => tree) before (fun _ => before) sign sign)
    (runs : Runs make) (deepens : DeepensTree size operand other) (bound : Nat) :
    DeepensTree size (run bound sign operand make) (run bound sign other make) := by
  refine .bind deepens fun first => ?_
  have rest := operators_deepens signs runs deepens first bound []
  rw [List.reverse_nil, runs.alone] at rest
  refine .bind rest fun rest => .pure ?_
  split
  · next empty =>
    rw [List.isEmpty_iff.mp empty, runs.alone]
    exact .refl _
  · exact .refl _

theorem items_deepens (deepens : shallow.Deepens deep) {make : List (Place × Tree) → Tree}
    {done : List (Place × Tree) → Work} (lists : Lists make done) (closing : Terminal) (bound : Nat)
    (small : bound ≤ deep.bound) (found : List (Place × Tree)) :
    Deepens bound (fun tree => tree) (done found.reverse) done (items shallow closing make bound found)
      (items deep closing make bound found) := by
  -- Every round takes a comma, so there are always fewer lexemes than rounds left.
  induction bound generalizing found with
  | zero => exact nofun
  | succ bound induction =>
    refine .bind .place fun start => ?_
    have opens := lists.reversed found start
    refine .bind (.within (deepens.enters (Nat.le_succ_of_le small) opens)) fun item => ?_
    have grows := lists.grows found.reverse (start, item)
    rw [← List.reverse_cons] at grows
    refine .since grows (.taking (induction (Nat.le_of_succ_le small) _) ?_)
    exact .bind (.within (.require (lists.reversed _ start) closing .listEnd)) fun _ => .pure (.refl _)

theorem list_deepens (deepens : shallow.Deepens deep) {make : List (Place × Tree) → Tree}
    {done : List (Place × Tree) → Work} (lists : Lists make done) (closing : Terminal) :
    Deepens deep.bound (fun tree => tree) (done []) done (list shallow closing make) (list deep closing make) := by
  refine .bind (.takes closing) fun empty => ?_
  cases empty with
  | true => exact .pure (.refl _)
  | false =>
    have items := items_deepens deepens lists closing deep.bound (Nat.le_refl _) []
    rwa [← deepens.bound] at items ⊢

/-! ## Declarations -/

theorem vectorSize_reads : vectorSize.Reads fun _ _ => True := by
  intro lexemes
  unfold vectorSize
  split
  · exact .stop _ _
  · next first rest =>
    split
    · exact ⟨[first], rfl, trivial⟩
    · exact .stop _ _

theorem closedVectorSize_deepens (opens : before.Opens context) :
    Deepens size context before (fun _ => before) closedVectorSize closedVectorSize := by
  refine .bind (.same vectorSize_reads fun _ stopped _ => opens.leadsTo stopped) fun size => ?_
  exact .bind (.require opens .rightBracket .sizeEnd) fun _ => .pure (.refl _)

theorem vectorContent_deepens (deepens : shallow.Deepens deep) (word : Lexeme) (size : Nat) :
    Deepens deep.bound (fun tree => tree) (.declaring word) Tree.work (vectorContent shallow word size)
      (vectorContent deep word size) := by
  have whole (elements : List (Place × Tree)) (bracket : Lexeme) :=
    Work.LeadsTo.listedVector word size bracket elements
  refine .bind (.takes .assign) fun assigned => ?_
  cases assigned with
  | false => exact .pure ((Work.LeadsTo.behind _ _).trans (whole [] word))
  | true =>
    refine .bind (.accept _) fun bracket => ?_
    cases bracket with
    | some bracket =>
      have lists : Lists (.listedVector word size bracket) (Work.elements word) :=
        ⟨.listedVector word size bracket, .elements word⟩
      refine .since (.behind _ _) (.bind (list_deepens deepens lists .rightBrace) fun elements => ?_)
      exact .pure (whole elements bracket)
    | none =>
      refine .bind .place fun start => ?_
      have opens := Work.Opens.filledVector word size start
      exact .bind (.within (deepens.enters (Nat.le_succ _) opens)) fun value => .pure (opens value)

theorem declarationOf_deepens (deepens : shallow.Deepens deep) (word : Lexeme) :
    DeepensTree deep.bound (declarationOf shallow word) (declarationOf deep word) := by
  refine .since (.none (.declaring word)) (.bind (.takes .leftBracket) fun bracket => ?_)
  cases bracket with
  | true =>
    refine .bind (.within (closedVectorSize_deepens (.declaration word .ending))) fun size => ?_
    exact vectorContent_deepens deepens word size
  | false =>
    refine .bind (.takes .assign) fun assigned => ?_
    cases assigned with
    | false => exact .pure ((Work.Opens.declaration word .ending).leadsTo _)
    | true =>
      refine .bind .place fun start => ?_
      have opens := Work.Opens.declaration word start
      exact .bind (.within (deepens.enters (Nat.le_succ _) opens)) fun value => .pure (opens value)

theorem declaration_deepens (deepens : shallow.Deepens deep) :
    DeepensTree (deep.bound + 1) (declaration shallow) (declaration deep) := by
  intro lexemes short
  unfold declaration
  split
  · exact Deepens.stop (fun _ => .none _) .unexpectedEnd [] short
  · next word rest =>
    split
    · exact (declarationOf_deepens deepens word rest (Nat.lt_of_succ_lt_succ short)).behind word
    · exact Deepens.stop (fun _ => .none _) _ (word :: rest) short

/-! ## Blocks -/

theorem statement_deepens (deepens : shallow.Deepens deep) :
    DeepensTree (deep.bound + 1) (statement shallow) (statement deep) := by
  refine .bind (.takes .varWord) fun declares => ?_
  cases declares with
  | true => exact declaration_deepens deepens
  | false => exact deepens.assignment

theorem blockOf_deepens (closing : Lexeme) (found : List Tree) :
    Deepens size (fun tree => tree) (.statements found.reverse) Tree.work (blockOf closing found)
      (blockOf closing found) := by
  match found with
  | [] => exact fun lexemes short => ⟨fun _ => .pure _ _, nofun, .inl rfl⟩
  | [only] => exact .pure (.statement only)
  | result :: second :: earlier =>
    rw [List.reverse_cons]
    exact .pure (.block (second :: earlier).reverse result)

theorem statements_deepens (deepens : shallow.Deepens deep) (closing : Terminal) (bound : Nat)
    (small : bound ≤ deep.bound) (found : List Tree) :
    Deepens bound (fun tree => tree) (.statements found.reverse) Tree.work (statements shallow closing bound found)
      (statements deep closing bound found) := by
  -- Every round takes a semicolon, so there are always fewer lexemes than rounds left.
  induction bound generalizing found with
  | zero => exact nofun
  | succ bound induction =>
    have next : Deepens (bound + 1) (fun tree => tree) (.statements found.reverse) Tree.work
        (statements.next shallow closing bound found) (statements.next deep closing bound found) := by
      rw [statements.next, statements.next]
      have first := (statement_deepens deepens).mono (Nat.le_succ_of_le small)
      refine .bind (.within (first.nested (.block found.reverse))) fun tree => ?_
      have grows := Work.LeadsTo.statements found.reverse tree
      rw [← List.reverse_cons] at grows
      refine .since grows (.taking (induction (Nat.le_of_succ_le small) _) ?_)
      exact .bind (.within (.require (.block _) closing .blockEnd)) fun last => blockOf_deepens last _
    intro lexemes short
    rw [statements, statements]
    cases lexemes with
    | nil => exact next [] short
    | cons first rest =>
      dsimp only
      split
      · exact (blockOf_deepens first found rest (Nat.lt_of_succ_lt short)).behind first
      · exact next (first :: rest) short

theorem block_deepens (deepens : shallow.Deepens deep) (closing : Terminal) :
    DeepensTree deep.bound (block shallow closing) (block deep closing) := by
  have statements := statements_deepens deepens closing deep.bound (Nat.le_refl _) []
  rw [block, block, deepens.bound]
  exact .since (.none _) statements

theorem body_deepens (deepens : shallow.Deepens deep) : DeepensTree deep.bound (body shallow) (body deep) := by
  refine .bind (.takes .leftBrace) fun braces => ?_
  cases braces with
  | true => exact block_deepens deepens .rightBrace
  | false => exact (statement_deepens deepens).mono (Nat.le_succ _)

/-! ## Forms -/

theorem takesElse_ne_error (lexemes : List Lexeme) (stopped : Tree) : takesElse lexemes ≠ .error stopped := by
  unfold takesElse
  split
  · split
    · nofun
    · exact Reader.takes_ne_error _ _ _
  · exact Reader.takes_ne_error _ _ _

theorem secondBranch_deepens (deepens : shallow.Deepens deep) (start : Place) (condition : Tree) (branch : Place)
    (consequent : Tree) :
    Deepens deep.bound (fun tree => tree) ((Work.scalar .condition start condition).andThen consequent.work) Tree.work
      (secondBranch shallow start condition branch consequent)
      (secondBranch deep start condition branch consequent) := by
  refine .bind (.same takesElse_sound fun _ _ read => absurd read (takesElse_ne_error _ _)) fun otherwise => ?_
  cases otherwise with
  | false => exact .pure (Work.Opens.conditionalOnly start condition branch consequent)
  | true =>
    have opens := Work.Opens.alternative start condition branch consequent
    exact .bind (.within ((body_deepens deepens).nested opens)) fun alternative => .pure (opens alternative)

theorem placedBehind_deepens {done : Work} (opens : done.Opens context) (terminal : Terminal) (wanted : Expectation)
    {reader other : Reader Tree} (deepens : DeepensTree size reader other) :
    Deepens size context done (fun pair : Place × Tree => done.andThen pair.2.work)
      (do
        let _ ← Reader.require terminal wanted
        let start ← Reader.place
        let tree ← reader
        pure (start, tree))
      (do
        let _ ← Reader.require terminal wanted
        let start ← Reader.place
        let tree ← other
        pure (start, tree)) := by
  refine .bind (.require opens terminal wanted) fun _ => .bind .place fun start => ?_
  exact .bind (deepens.nested opens) fun tree => .pure (.refl _)

theorem ifForm_deepens (deepens : shallow.Deepens deep) : DeepensTree deep.bound (ifForm shallow) (ifForm deep) := by
  have small := Nat.le_succ deep.bound
  refine .bind (.require .id .leftParen .ifOpen) fun _ => .bind .place fun start => ?_
  refine .bind (deepens.assignment.mono small) fun condition => .since (.scalar .condition start condition) ?_
  refine .bind (.takes .comma) fun comma => ?_
  cases comma with
  | true =>
    refine .bind .place fun branch => ?_
    have opensFirst := Work.Opens.consequent start condition branch fun stopped => stopped
    refine .bind (.within (deepens.enters small opensFirst)) fun consequent => ?_
    have opens := Work.Opens.alternative start condition branch consequent
    refine .within (.bind (.require opens .comma .ifComma) fun _ => ?_)
    refine .bind (deepens.enters small opens) fun alternative => ?_
    have opensEnd := opens.within (.andThen alternative)
    exact .bind (.within (.require opensEnd .rightParen .ifEnd)) fun _ => .pure (opens alternative)
  | false =>
    have opens := Work.Opens.consequent start condition .ending fun stopped => stopped
    have branches := placedBehind_deepens opens .rightParen .conditionEnd (body_deepens deepens)
    exact .bind (.within branches) fun pair => secondBranch_deepens deepens start condition pair.1 pair.2

theorem whileForm_deepens (deepens : shallow.Deepens deep) :
    DeepensTree deep.bound (whileForm shallow) (whileForm deep) := by
  refine .bind (.require .id .leftParen .whileOpen) fun _ => .bind .place fun start => ?_
  refine .bind (deepens.assignment.mono (Nat.le_succ _)) fun condition => ?_
  have opens := Work.Opens.loopBody nothing start condition nothing
  refine .since ?_ (.within (.bind (.require opens .rightParen .whileEnd) fun _ => ?_))
  · exact (Work.LeadsTo.scalar .loopCondition start condition).trans (.behind _ _)
  · exact .bind ((body_deepens deepens).nested opens) fun body => .pure (opens body)

theorem clause_deepens (ending : Terminal) (absent : Tree) {present other : Reader Tree}
    (deepens : DeepensTree size present other) :
    DeepensTree size (clause ending absent present) (clause ending absent other) := by
  refine .bind (.sees ending) fun ends => ?_
  cases ends with
  | true => exact .pure (.none _)
  | false => exact deepens

theorem forForm_deepens (deepens : shallow.Deepens deep) : DeepensTree deep.bound (forForm shallow) (forForm deep) := by
  have small := Nat.le_succ deep.bound
  have statements := (statement_deepens deepens).mono small
  have formulas := clause_deepens .semicolon (.number 1.0) (deepens.assignment.mono small)
  refine .bind (.require .id .leftParen .forOpen) fun _ => ?_
  refine .bind (clause_deepens .semicolon nothing statements) fun initializer => ?_
  have conditions := placedBehind_deepens (.andThen initializer) .semicolon .afterInitializer formulas
  refine .bind (.within conditions) fun pair => ?_
  obtain ⟨start, condition⟩ := pair
  have entered := (Work.LeadsTo.scalar .loopCondition start condition).andThen initializer.work
  have opensStep := Work.Opens.loopStep initializer start condition fun stopped => stopped
  have steps := (clause_deepens .rightParen nothing statements).nested opensStep
  have stepBehind := Deepens.bind (.require opensStep .semicolon .afterLoopCondition) fun _ => steps
  refine .since entered (.bind (.within stepBehind) fun step => ?_)
  have opens := Work.Opens.loopBody initializer start condition step
  refine .within (.bind (.require opens .rightParen .forEnd) fun _ => ?_)
  exact .bind ((body_deepens deepens).nested opens) fun body => .pure (opens body)

theorem cases_deepens (deepens : shallow.Deepens deep) (bound : Nat)
    (found : List ((Place × Tree) × (Place × Tree))) :
    Deepens deep.bound (fun tree => tree) (.cases found.reverse) Work.cases (cases shallow bound found)
      (cases deep bound found) := by
  have small := Nat.le_succ deep.bound
  induction bound generalizing found with
  | zero => exact .pure (.refl _)
  | succ bound induction =>
    refine .bind (.takes .caseWord) fun another => ?_
    cases another with
    | false => exact .pure (.refl _)
    | true =>
      refine .bind .place fun start => ?_
      refine .bind (.within (deepens.enters small (.choice found.reverse .ending))) fun condition => ?_
      have tested := (Work.LeadsTo.scalar .caseCondition start condition).andThen (.cases found.reverse)
      have opens : ((Work.cases found.reverse).andThen (.scalar .caseCondition start condition)).Opens fun stopped =>
          .choice (((start, condition), (.ending, stopped)) :: found).reverse .ending stopped := by
        simp only [List.reverse_cons]
        exact .caseResult found.reverse start condition .ending .ending fun stopped => stopped
      have results := placedBehind_deepens opens .colon .caseColon (deepens.assignment.mono small)
      refine .since tested (.bind (.within results) fun pair => ?_)
      obtain ⟨resultStart, result⟩ := pair
      have grows := Work.LeadsTo.cases found.reverse ((start, condition), (resultStart, result))
      rw [← List.reverse_cons] at grows
      refine .since grows (.bind (.within (.require (.choice _ .ending) .semicolon .caseEnd)) fun _ => ?_)
      exact induction _

theorem switchForm_deepens (deepens : shallow.Deepens deep) :
    DeepensTree deep.bound (switchForm shallow) (switchForm deep) := by
  have listed := cases_deepens deepens deep.bound []
  unfold switchForm
  rw [deepens.bound]
  refine .bind (.require .id .leftBrace .switchOpen) fun _ => .since (.none _) (.bind listed fun cases => ?_)
  have opens (start : Place) : (Work.cases cases).Opens (.choice cases start) := .choice cases start
  have formula := deepens.enters (Nat.le_succ _) (opens .ending)
  have trees := Deepens.bind (.require (opens .ending) .defaultWord .caseOrDefault) fun _ =>
    .bind (.require (opens .ending) .colon .defaultColon) fun _ => .bind .place fun start =>
      .bind formula fun otherwise => .pure (opens start otherwise)
  refine .bind (.within trees) fun tree => .bind (.takes .semicolon) fun _ => ?_
  exact .bind (.within (.require (.andThen tree) .rightBrace .switchEnd)) fun _ => .pure (.refl _)

/-! ## Operands -/

theorem nameForm_deepens (deepens : shallow.Deepens deep) (word : Lexeme) (name : String) :
    DeepensTree deep.bound (nameForm shallow word name) (nameForm deep word name) := by
  refine .bind (.takes .leftParen) fun called => ?_
  cases called with
  | true =>
    have lists : Lists (.call word · []) Work.arguments :=
      ⟨fun found start => .call word found start [], .arguments⟩
    refine .since (.none _) (.bind (list_deepens deepens lists .rightParen) fun arguments => ?_)
    exact .bind .remaining fun rest => .pure (.call word arguments rest)
  | false =>
    rw [if_neg Bool.false_ne_true, if_neg Bool.false_ne_true]
    split
    · exact .stop (fun _ => .none _) _
    · exact .bind .remaining fun rest => .pure (.none _)

theorem primary_deepens (deepens : shallow.Deepens deep) :
    DeepensTree (deep.bound + 1) (primary shallow) (primary deep) := by
  intro lexemes short
  cases lexemes with
  | nil => exact Deepens.stop (fun _ => .none _) .unexpectedEnd [] short
  | cons first rest =>
    have literal (tree : Tree) : Reader.Extends (fun tree => tree) .none Tree.work (first :: rest)
        (.ok (tree, rest)) (.ok (tree, rest)) := by
      refine ⟨.none _, ?_, .inl rfl⟩
      rintro _ _ ⟨⟩
      exact Nat.le_succ _
    have later {reader other : Reader Tree} (deepens : DeepensTree deep.bound reader other) :
        Reader.Extends (fun tree => tree) .none Tree.work (first :: rest) (reader rest) (other rest) :=
      (deepens rest (Nat.lt_of_succ_lt_succ short)).behind first
    unfold primary
    dsimp only
    split
    · exact literal _
    · exact literal _
    · exact later (nameForm_deepens deepens first _)
    · exact literal _
    · exact literal _
    · exact later (block_deepens deepens .rightParen)
    · exact later (block_deepens deepens .rightBrace)
    · exact later (ifForm_deepens deepens)
    · exact later (whileForm_deepens deepens)
    · exact later (forForm_deepens deepens)
    · exact later (switchForm_deepens deepens)
    · exact Deepens.stop (fun _ => .none _) _ (first :: rest) short

theorem rangeEnd_deepens {assignment other : Reader Tree} (deepens : DeepensTree size assignment other)
    (bracket : Lexeme) (base : Tree) (firstStart : Place) (first : Tree) :
    Deepens size (fun tree => tree) (base.work.andThen first.work) Tree.work
      (rangeEnd assignment bracket base firstStart first) (rangeEnd other bracket base firstStart first) := by
  have opens (lastStart : Place) := Work.Opens.range bracket base firstStart first lastStart
  refine .bind (.takes .rightBracket) fun ended => ?_
  cases ended with
  | true => exact .pure ((opens .ending).leadsTo _)
  | false =>
    refine .bind .place fun lastStart => ?_
    refine .bind (.within (deepens.nested (opens lastStart))) fun last => ?_
    have opensEnd := (opens lastStart).within (.andThen last)
    exact .bind (.within (.require opensEnd .rightBracket .rangeEnd)) fun _ => .pure (opens lastStart last)

theorem subscript_deepens {assignment other : Reader Tree} (deepens : DeepensTree size assignment other)
    (bracket : Lexeme) (base : Tree) :
    Deepens size (fun tree => tree) base.work Tree.work (subscript assignment bracket base)
      (subscript other bracket base) := by
  refine .bind (.takes .rightBracket) fun ended => ?_
  cases ended with
  | true => exact .pure (Work.Opens.size bracket base)
  | false =>
    refine .bind (.takes .colon) fun ranged => ?_
    cases ranged with
    | true => exact .since (.behind _ _) (rangeEnd_deepens deepens bracket base .ending (.number 0.0))
    | false =>
      refine .bind .place fun start => ?_
      have opens := Work.Opens.element bracket base start
      refine .bind (.within (deepens.nested opens)) fun index => .bind (.takes .colon) fun ranged => ?_
      cases ranged with
      | true => exact rangeEnd_deepens deepens bracket base start index
      | false =>
        have opensEnd := opens.within (.andThen index)
        exact .bind (.within (.require opensEnd .rightBracket .indexEnd)) fun _ => .pure (opens index)

theorem runs_arithmetic : Runs Tree.arithmetic :=
  ⟨fun first => funext fun environment => by simp [Tree.work], .arithmetic⟩

theorem runs_logical (start : Place) : Runs (Tree.logical start) :=
  ⟨fun first => funext fun environment => by simp [Tree.work], .logical start⟩

theorem power_deepens (deepens : shallow.Deepens deep) :
    DeepensTree (deep.bound + 1) (power shallow) (power deep) := by
  refine .bind (primary_deepens deepens) fun base => .bind (deepens.subscripts base) fun base => ?_
  refine .bind (.accept _) fun raising => ?_
  cases raising with
  | none => exact .pure (.refl _)
  | some sign =>
    have opens := runs_arithmetic.opens base [] (.pow, sign)
    rw [runs_arithmetic.alone] at opens
    exact .bind (.within (deepens.operand.nested opens)) fun exponent => .pure (opens exponent)

theorem unary_deepens (deepens : shallow.Deepens deep) :
    DeepensTree (deep.bound + 1) (unary shallow) (unary deep) := by
  intro lexemes short
  cases lexemes with
  | nil => exact power_deepens deepens [] short
  | cons sign rest =>
    have signed {make : Tree → Tree} (opens : Work.none.Opens make) :
        Reader.Extends (fun tree => tree) .none Tree.work (sign :: rest)
          ((make <$> shallow.operand.within make) rest) ((make <$> deep.operand.within make) rest) := by
      have operand : DeepensTree (deep.bound + 1) (make <$> shallow.operand.within make)
          (make <$> deep.operand.within make) :=
        .bind (.within (deepens.operand.nested opens)) fun tree => .pure (opens tree)
      exact (operand rest (Nat.lt_of_succ_lt short)).behind sign
    unfold unary
    dsimp only
    split
    · exact signed (.negation sign)
    · exact signed (.affirmation sign)
    · exact signed (.denial _)
    · exact signed (.denial _)
    · exact power_deepens deepens (sign :: rest) short

/-! ## Formulas -/

theorem logicalSign_deepens (level : List BinaryOperator) :
    Deepens size context before (fun _ => before) (logicalSign level) (logicalSign level) := by
  refine .bind (.accept _) fun found => ?_
  cases found with
  | none => exact .pure (.refl _)
  | some op => exact .bind .place fun start => .pure (.refl _)

theorem sum_deepens (deepens : shallow.Deepens deep) : DeepensTree (deep.bound + 1) (sum shallow) (sum deep) := by
  have product : DeepensTree (deep.bound + 1) (product shallow) (product deep) := by
    rw [product, product, deepens.bound]
    exact run_deepens (fun _ => .accept _) runs_arithmetic (unary_deepens deepens) deep.bound
  rw [sum, sum, deepens.bound]
  exact run_deepens (fun _ => .accept _) runs_arithmetic product deep.bound

theorem relation_deepens (deepens : shallow.Deepens deep) :
    DeepensTree (deep.bound + 1) (relation shallow) (relation deep) := by
  refine .bind (sum_deepens deepens) fun left => .bind (.accept _) fun found => ?_
  cases found with
  | none => exact .pure (.refl _)
  | some sign =>
    have opens := Work.Opens.relation sign left
    refine .within (.bind ((sum_deepens deepens).nested opens) fun right => ?_)
    have opensEnd := opens.within (.andThen right)
    refine .bind (.within (.same noSecondRelation_sound fun _ stopped _ => opensEnd.leadsTo stopped)) fun _ => ?_
    exact .pure (opens right)

theorem logical_deepens (deepens : shallow.Deepens deep) (level : List BinaryOperator) {operand other : Reader Tree}
    (operands : DeepensTree (deep.bound + 1) operand other) :
    DeepensTree (deep.bound + 1) (logical shallow level operand) (logical deep level other) := by
  unfold logical
  rw [deepens.bound]
  refine .bind .place fun start => ?_
  exact run_deepens (fun _ => logicalSign_deepens level) (runs_logical start) operands deep.bound

theorem disjunction_deepens (deepens : shallow.Deepens deep) :
    DeepensTree (deep.bound + 1) (disjunction shallow) (disjunction deep) :=
  logical_deepens deepens _ (logical_deepens deepens _ (logical_deepens deepens _ (relation_deepens deepens)))

theorem conditional_deepens (deepens : shallow.Deepens deep) :
    DeepensTree (deep.bound + 1) (conditional shallow) (conditional deep) := by
  have small := Nat.le_refl (deep.bound + 1)
  refine .bind .place fun start => .bind (disjunction_deepens deepens) fun condition => ?_
  refine .bind (.takes .question) fun question => ?_
  cases question with
  | false => exact .pure (.refl _)
  | true =>
    refine .since (.scalar .condition start condition) (.bind .place fun branch => ?_)
    have opensFirst := Work.Opens.consequent start condition branch fun stopped => stopped
    refine .bind (.within (deepens.enters small opensFirst)) fun consequent => ?_
    have opens := Work.Opens.alternative start condition branch consequent
    refine .within (.bind (.require opens .colon .conditionalColon) fun _ => ?_)
    exact .bind (deepens.enters small opens) fun alternative => .pure (opens alternative)

/-! ## Assignments -/

theorem assignmentSign_deepens (opens : before.Opens context) :
    Deepens size context before (fun _ => before) assignmentSign assignmentSign :=
  .same assignmentSign_sound fun _ stopped _ => opens.leadsTo stopped

theorem wholeAssignment_deepens (deepens : shallow.Deepens deep) (word : Lexeme) :
    DeepensTree (deep.bound + 1) (wholeAssignment shallow word) (wholeAssignment deep word) := by
  have opensSign := Work.Opens.assignment word word .ending
  refine .since (.none _) (.bind (.within (assignmentSign_deepens opensSign)) fun sign => .bind .place fun start => ?_)
  have opens := Work.Opens.assignment word sign start
  exact .bind (.within (deepens.enters (Nat.le_refl _) opens)) fun value => .pure (opens value)

theorem elementAssignment_deepens (deepens : shallow.Deepens deep) (word : Lexeme) :
    DeepensTree (deep.bound + 1) (elementAssignment shallow word) (elementAssignment deep word) := by
  have small := Nat.le_refl (deep.bound + 1)
  refine .bind .place fun start => ?_
  have opensIndex := Work.Opens.assignedIndex word start word .id fun stopped => stopped
  refine .since (.none _) (.bind (.within (deepens.enters small opensIndex)) fun index => ?_)
  have opensSign := Work.Opens.assignedIndex word start word (.andThen index) fun stopped => stopped
  rw [Work.andThen_assoc]
  refine .bind (.within (.bind (.require opensSign .rightBracket .indexEnd) fun _ => assignmentSign_deepens opensSign))
    fun sign => ?_
  have opens := Work.Opens.assignedElement word start index sign
  exact .bind (.within (deepens.enters small opens)) fun value => .pure (opens value)

theorem assignmentTo_deepens (deepens : shallow.Deepens deep) (word : Lexeme) :
    DeepensTree (deep.bound + 1) (assignmentTo shallow word) (assignmentTo deep word) := by
  refine .bind (.takes .leftBracket) fun bracket => ?_
  cases bracket with
  | true => exact elementAssignment_deepens deepens word
  | false => exact wholeAssignment_deepens deepens word

theorem assignment_deepens (deepens : shallow.Deepens deep) :
    DeepensTree (deep.bound + 1) (assignment shallow) (assignment deep) := by
  intro lexemes short
  cases lexemes with
  | nil => exact conditional_deepens deepens [] short
  | cons word rest =>
    unfold assignment
    dsimp only
    split
    · exact (assignmentTo_deepens deepens word rest (Nat.lt_of_succ_lt short)).behind word
    · exact conditional_deepens deepens (word :: rest) short

/-! ## Levels -/

/-- The readers of a level extend those with fewer levels to enter, if the readers of the next deeper level do. -/
theorem Inner.Deepens.succ {limit deeper bound level other : Nat}
    (deepens : (innerAt limit bound level).Deepens (innerAt deeper bound other)) :
    (innerAt limit bound (level + 1)).Deepens (innerAt deeper bound (other + 1)) := by
  refine ⟨rfl, assignment_deepens deepens, unary_deepens deepens, fun base => ?_⟩
  refine .bind (.accept _) fun found => ?_
  cases found with
  | none => exact .pure (.refl _)
  | some bracket => exact .bind (subscript_deepens deepens.assignment bracket base) deepens.subscripts

theorem subscriptsAt_of_not {limit bound : Nat} (level : Nat) (base : Tree) {lexemes : List Lexeme}
    (other : startsWith .leftBracket lexemes = false) :
    subscriptsAt limit bound level base lexemes = .ok (base, lexemes) := by
  cases level with
  | zero => rw [subscriptsAt, if_neg (Bool.eq_false_iff.mp other)]
  | succ level =>
    rw [subscriptsAt, Reader.bind_of_ok (Reader.acceptTerminal_of_not other)]
    rfl

theorem subscriptsAt_zero {limit bound : Nat} (base : Tree) {lexemes : List Lexeme}
    (starts : startsWith .leftBracket lexemes = true) :
    subscriptsAt limit bound 0 base lexemes =
      .error (.andThen base (.stop ⟨.tooDeep limit, .ofNext lexemes⟩ lexemes)) := by
  rw [subscriptsAt, if_pos starts]
  rfl

/-- The readers of a level extend themselves. -/
theorem innerAt_deepens_self (limit bound level : Nat) :
    (innerAt limit bound level).Deepens (innerAt limit bound level) := by
  induction level with
  | succ level induction => exact induction.succ
  | zero =>
    refine ⟨rfl, .stop (fun _ => .none _) _, .stop (fun _ => .none _) _, fun base lexemes short => ?_⟩
    change Reader.Extends _ _ _ lexemes (subscriptsAt limit bound 0 base lexemes)
      (subscriptsAt limit bound 0 base lexemes)
    cases starts : startsWith .leftBracket lexemes with
    | true =>
      rw [subscriptsAt_zero base starts]
      exact ⟨(Work.Opens.andThen base).leadsTo _, nofun, .inl rfl⟩
    | false =>
      rw [subscriptsAt_of_not 0 base starts]
      exact Deepens.pure (.refl _) lexemes short

/-- The readers of a level extend those with fewer levels to enter. -/
theorem innerAt_deepens (limit deeper bound level more : Nat) :
    (innerAt limit bound level).Deepens (innerAt deeper bound (level + more)) := by
  induction level with
  | succ level induction =>
    rw [Nat.succ_add]
    exact induction.succ
  | zero =>
    have self := innerAt_deepens_self deeper bound (0 + more)
    refine ⟨rfl, fun lexemes short => ?_, fun lexemes short => ?_, fun base lexemes short => ?_⟩
    · exact (self.assignment lexemes short).ofCutShort (.tooDeep .id limit _ lexemes)
    · exact (self.operand lexemes short).ofCutShort (.tooDeep .id limit _ lexemes)
    · change Reader.Extends _ _ _ lexemes (subscriptsAt limit bound 0 base lexemes)
        (subscriptsAt deeper bound (0 + more) base lexemes)
      cases starts : startsWith .leftBracket lexemes with
      | true =>
        rw [subscriptsAt_zero base starts]
        exact (self.subscripts base lexemes short).ofCutShort (.tooDeep (.andThen base) limit _ lexemes)
      | false =>
        rw [subscriptsAt_of_not 0 base starts, subscriptsAt_of_not _ base starts]
        exact Deepens.pure (.refl _) lexemes short

theorem endedStatement_deepens (deepens : shallow.Deepens deep) :
    DeepensTree (deep.bound + 1) (endedStatement shallow) (endedStatement deep) := by
  have reads : statementEnd.Reads fun _ _ => True := by
    intro lexemes
    unfold statementEnd
    split
    · exact ⟨[], rfl, trivial⟩
    · next first rest =>
      split
      · exact ⟨[first], rfl, trivial⟩
      · exact .stop _ _
  refine .bind (statement_deepens deepens) fun tree => ?_
  have opens := Work.Opens.andThen tree
  exact .bind (.within (.same reads fun _ stopped _ => opens.leadsTo stopped)) fun _ => .pure (.refl _)

end LiveExpr.Grammar
