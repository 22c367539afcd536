import LiveExpr.Proofs.Grammar.Lookahead

/-!
The trees that readers give, whether they come to the end or stop: runs of arithmetic carry arithmetic operators,
relations carry the sign of one, names that are looked up are not called, and what reading stopped at is a problem with
the grammar.
-/

namespace LiveExpr

theorem Lexeme.comparison_of_isRelation {sign : Lexeme} (isRelation : sign.isRelation = true)
    (noTest : sign.token.stringOperator? = none) :
    ∃ op, sign.token.binaryOperator? = some op ∧ op.isComparison = true := by
  unfold Lexeme.isRelation at isRelation
  split at isRelation
  next terminal spelled =>
    rw [spelled] at noTest ⊢
    have spells : terminal.binaryOperator?.any BinaryOperator.isComparison = true := by
      simpa [Terminal.isRelation, show terminal.stringOperator? = none from noTest] using isRelation
    exact (Option.any_eq_true _ _).mp spells
  next => cases isRelation

def Lexeme.IsUncalled (source : List Lexeme) (word : Lexeme) : Prop :=
  ∃ rest, word :: rest <:+ source ∧ startsWith .leftParen rest = false

/-- Whether the lexeme is a name that stands somewhere in the source without being called. -/
structure Lexeme.IsSought (source : List Lexeme) (word : Lexeme) : Prop where
  isName : word.token.isName = true
  uncalled : word.IsUncalled source

/-- The trees of a source that can be compiled without meeting an operator or a name out of place. -/
inductive Tree.Proper (source : List Lexeme) : Tree → Prop
  | number (value : Float) : Proper source (.number value)
  | text (content : Bytes) : Proper source (.text content)
  | name (word : Lexeme) (rest : List Lexeme) (sought : word.IsSought source) : Proper source (.name word rest)
  | call (word : Lexeme) {arguments : List (Place × Tree)} (rest : List Lexeme)
      (proper : ∀ one ∈ arguments, Proper source one.2) : Proper source (.call word arguments rest)
  | negation (sign : Lexeme) {operand : Tree} (proper : Proper source operand) : Proper source (.negation sign operand)
  | affirmation (sign : Lexeme) {operand : Tree} (proper : Proper source operand) :
      Proper source (.affirmation sign operand)
  | denial (start : Place) {operand : Tree} (proper : Proper source operand) : Proper source (.denial start operand)
  | arithmetic {first : Tree} {rest : List ((BinaryOperator × Lexeme) × Tree)} (proper : Proper source first)
      (signs : ∀ step ∈ rest, step.1.1.isArithmetic = true) (operands : ∀ step ∈ rest, Proper source step.2) :
      Proper source (.arithmetic first rest)
  | logical (start : Place) {first : Tree} {rest : List ((BinaryOperator × Place) × Tree)}
      (proper : Proper source first) (operands : ∀ step ∈ rest, Proper source step.2) :
      Proper source (.logical start first rest)
  | relation {sign : Lexeme} {left right : Tree} (isRelation : sign.isRelation = true)
      (first : Proper source left) (second : Proper source right) : Proper source (.relation sign left right)
  | conditional (start : Place) {condition : Tree} (branch : Place) {consequent alternative : Tree}
      (first : Proper source condition) (second : Proper source consequent) (third : Proper source alternative) :
      Proper source (.conditional start condition branch consequent alternative)
  | conditionalOnly (start : Place) {condition : Tree} (branch : Place) {consequent : Tree}
      (first : Proper source condition) (second : Proper source consequent) :
      Proper source (.conditionalOnly start condition branch consequent)
  | size (bracket : Lexeme) {base : Tree} (proper : Proper source base) : Proper source (.size bracket base)
  | element (bracket : Lexeme) {base : Tree} (start : Place) {index : Tree} (first : Proper source base)
      (second : Proper source index) : Proper source (.element bracket base start index)
  | range (bracket : Lexeme) {base : Tree} (firstStart : Place) {first : Tree} (lastStart : Place)
      {last : Tree} (sliced : Proper source base) (lower : Proper source first) (upper : Proper source last) :
      Proper source (.range bracket base firstStart first lastStart last)
  | block {statements : List Tree} {result : Tree} (proper : ∀ one ∈ statements, Proper source one)
      (last : Proper source result) : Proper source (.block statements result)
  | loop {initializer : Tree} (start : Place) {condition step body : Tree} (first : Proper source initializer)
      (second : Proper source condition) (third : Proper source step) (fourth : Proper source body) :
      Proper source (.loop initializer start condition step body)
  | choice {cases : List ((Place × Tree) × (Place × Tree))} (start : Place) {otherwise : Tree}
      (conditions : ∀ one ∈ cases, Proper source one.1.2) (results : ∀ one ∈ cases, Proper source one.2.2)
      (last : Proper source otherwise) : Proper source (.choice cases start otherwise)
  | assignment (word sign : Lexeme) (start : Place) {value : Tree} (sought : word.IsSought source)
      (proper : Proper source value) : Proper source (.assignment word sign start value)
  | elementAssignment (word : Lexeme) (start : Place) {index : Tree} (sign : Lexeme) {value : Tree}
      (sought : word.IsSought source) (first : Proper source index) (second : Proper source value) :
      Proper source (.elementAssignment word start index sign value)
  | declaration (word : Lexeme) (start : Place) {value : Tree} (proper : Proper source value) :
      Proper source (.declaration word start value)
  | listedVector (word : Lexeme) (size : Nat) (bracket : Lexeme) {elements : List (Place × Tree)}
      (proper : ∀ one ∈ elements, Proper source one.2) : Proper source (.listedVector word size bracket elements)
  | filledVector (word : Lexeme) (size : Nat) (start : Place) {value : Tree} (proper : Proper source value) :
      Proper source (.filledVector word size start value)
  | stop {report : Report} (grammatical : report.problem.phase = .grammatical) (rest : List Lexeme) :
      Proper source (.stop report rest)
  | andThen {done stopped : Tree} (first : Proper source done) (second : Proper source stopped) :
      Proper source (.andThen done stopped)

/-! ## Readers -/

section

variable (source : List Lexeme) {α : Type}

/-- Whether a result has a property and leaves an end of the source, and a tree in which reading stopped is proper. -/
def Reader.Outcome (property : α → Prop) : Except Tree (α × List Lexeme) → Prop
  | .ok (value, rest) => property value ∧ rest <:+ source
  | .error stopped => stopped.Proper source

/-- Whether a reader of the ends of a source gives results with a property, and stops in proper trees. -/
def Reader.Yields (property : α → Prop) (reader : Reader α) : Prop :=
  ∀ lexemes, lexemes <:+ source → Outcome source property (reader lexemes)

end

variable {source : List Lexeme}

namespace Reader.Yields

variable {α β : Type} {property : α → Prop} {next : β → Prop}

theorem pure {value : α} (holds : property value) : (Pure.pure value : Reader α).Yields source property :=
  fun _ ends => ⟨holds, ends⟩

theorem bind {first : Reader α} {continuation : α → Reader β} (yields : first.Yields source property)
    (continued : ∀ value, property value → (continuation value).Yields source next) :
    (first >>= continuation).Yields source next := by
  intro lexemes ends
  have outcome := yields lexemes ends
  rw [Reader.bind_apply]
  cases read : first lexemes with
  | error stopped =>
    rw [read] at outcome
    exact outcome
  | ok pair =>
    rw [read] at outcome
    exact continued pair.1 outcome.1 pair.2 outcome.2

theorem within {reader : Reader α} {context : Tree → Tree} (yields : reader.Yields source property)
    (proper : ∀ stopped, stopped.Proper source → (context stopped).Proper source) :
    (reader.within context).Yields source property := by
  intro lexemes ends
  have outcome := yields lexemes ends
  unfold Reader.within
  cases read : reader lexemes with
  | error stopped =>
    rw [read] at outcome
    exact proper stopped outcome
  | ok pair =>
    rw [read] at outcome
    exact outcome

theorem imp {reader : Reader α} {other : α → Prop} (yields : reader.Yields source property)
    (implies : ∀ value, property value → other value) : reader.Yields source other := by
  intro lexemes ends
  have outcome := yields lexemes ends
  cases read : reader lexemes with
  | error stopped =>
    rw [read] at outcome
    exact outcome
  | ok pair =>
    rw [read] at outcome
    exact outcome.imp_left (implies pair.1)

theorem stop {problem : Problem} (grammatical : problem.phase = .grammatical) :
    (Reader.stop problem : Reader α).Yields source property :=
  fun _ _ => .stop grammatical _

theorem stopUnexpected : (Reader.stopUnexpected : Reader α).Yields source property
  | [], _ => .stop rfl _
  | _ :: _, _ => .stop rfl _

theorem place : Reader.place.Yields source fun _ => True :=
  fun _ ends => ⟨trivial, ends⟩

theorem remaining : Reader.remaining.Yields source fun _ => True :=
  fun _ ends => ⟨trivial, ends⟩

/-- What is left behind the first lexeme is an end of the source too. -/
theorem behind {first : Lexeme} {rest : List Lexeme} (ends : first :: rest <:+ source) : rest <:+ source :=
  (List.suffix_cons first rest).trans ends

theorem accept (use? : Lexeme → Option α) :
    (Reader.accept use?).Yields source
      fun found => ∀ use, found = some use → ∃ lexeme, use? lexeme = some use := by
  intro lexemes ends
  unfold Reader.accept
  split
  · exact ⟨nofun, ends⟩
  · next first _ =>
    split
    · next use accepted =>
      refine ⟨?_, behind ends⟩
      rintro _ ⟨⟩
      exact ⟨first, accepted⟩
    · exact ⟨nofun, ends⟩

theorem acceptTerminal (terminal : Terminal) : (Reader.acceptTerminal terminal).Yields source fun _ => True :=
  (accept _).imp fun _ _ => trivial

theorem takes (terminal : Terminal) : (Reader.takes terminal).Yields source fun _ => True := by
  intro lexemes ends
  unfold Reader.takes
  split
  · exact ⟨trivial, ends⟩
  · split
    · exact ⟨trivial, behind ends⟩
    · exact ⟨trivial, ends⟩

theorem sees (terminal : Terminal) : (Reader.sees terminal).Yields source fun _ => True :=
  fun _ ends => ⟨trivial, ends⟩

theorem require (terminal : Terminal) (wanted : Expectation) :
    (Reader.require terminal wanted).Yields source fun _ => True := by
  intro lexemes ends
  unfold Reader.require
  split
  · exact .stop rfl _
  · split
    · exact ⟨trivial, behind ends⟩
    · exact .stop rfl _

end Reader.Yields

namespace Grammar

/-- Whether the readers of the next deeper level stop and end in proper trees. -/
structure Inner.Proper (source : List Lexeme) (inner : Inner) : Prop where
  assignment : inner.assignment.Yields source (Tree.Proper source)
  operand : inner.operand.Yields source (Tree.Proper source)
  subscripts (base : Tree) (proper : base.Proper source) : (inner.subscripts base).Yields source (Tree.Proper source)

variable {inner : Inner}

/-! ## Repetitions -/

theorem forall_mem_reverse {α : Type} {property : α → Prop} {list : List α}
    (holds : ∀ one ∈ list, property one) : ∀ one ∈ list.reverse, property one :=
  fun one member => holds one (List.mem_reverse.mp member)

theorem operators_yields {α : Type} {sign : Reader (Option α)} {operand : Reader Tree}
    {make : List (α × Tree) → Tree} {valid : α → Prop}
    (signs : sign.Yields source fun found => ∀ spelled, found = some spelled → valid spelled)
    (operands : operand.Yields source (Tree.Proper source))
    (proper : ∀ run : List (α × Tree), (∀ step ∈ run, valid step.1 ∧ step.2.Proper source) → (make run).Proper source)
    (bound : Nat) {found : List (α × Tree)} (sound : ∀ step ∈ found, valid step.1 ∧ step.2.Proper source) :
    (operators sign operand make bound found).Yields source
      fun run => ∀ step ∈ run, valid step.1 ∧ step.2.Proper source := by
  induction bound generalizing found with
  | zero => exact .pure (forall_mem_reverse sound)
  | succ bound induction =>
    refine signs.bind fun accepted validSign => ?_
    cases accepted with
    | none => exact .pure (forall_mem_reverse sound)
    | some spelled =>
      have longer {right : Tree} (properRight : right.Proper source) :
          ∀ step ∈ (spelled, right) :: found, valid step.1 ∧ step.2.Proper source :=
        List.forall_mem_cons.mpr ⟨⟨validSign spelled rfl, properRight⟩, sound⟩
      refine (operands.within fun _ stopped => proper _ (forall_mem_reverse (longer stopped))).bind
        fun right properRight => ?_
      exact induction (longer properRight)

theorem run_yields {α : Type} {sign : Reader (Option α)} {operand : Reader Tree}
    {make : Tree → List (α × Tree) → Tree} {valid : α → Prop}
    (signs : sign.Yields source fun found => ∀ spelled, found = some spelled → valid spelled)
    (operands : operand.Yields source (Tree.Proper source))
    (proper : ∀ first, (Tree.Proper source) first → ∀ run : List (α × Tree),
      (∀ step ∈ run, valid step.1 ∧ step.2.Proper source) → (make first run).Proper source)
    (bound : Nat) : (run bound sign operand make).Yields source (Tree.Proper source) := by
  refine operands.bind fun first properFirst => ?_
  refine (operators_yields signs operands (proper first properFirst) bound
    (List.forall_mem_nil _)).bind fun rest properRest => .pure ?_
  split
  · exact properFirst
  · exact proper first properFirst rest properRest

theorem items_yields (proper : inner.Proper source) (closing : Terminal) {make : List (Place × Tree) → Tree}
    (made : ∀ items : List (Place × Tree), (∀ one ∈ items, one.2.Proper source) → (make items).Proper source)
    (bound : Nat) {found : List (Place × Tree)} (sound : ∀ one ∈ found, one.2.Proper source) :
    (items inner closing make bound found).Yields source fun items => ∀ one ∈ items, one.2.Proper source := by
  induction bound generalizing found with
  | zero => exact .stopUnexpected
  | succ bound induction =>
    refine Reader.Yields.place.bind fun start _ => ?_
    refine Reader.Yields.bind (proper.assignment.within fun stopped properStopped => ?_)
      fun item properItem => ?_
    · exact made _ (forall_mem_reverse (List.forall_mem_cons.mpr ⟨properStopped, sound⟩))
    · have longer : ∀ one ∈ (start, item) :: found, one.2.Proper source :=
        List.forall_mem_cons.mpr ⟨properItem, sound⟩
      refine (Reader.Yields.takes .comma).bind fun comma _ => ?_
      cases comma with
      | true => exact induction longer
      | false =>
        refine ((Reader.Yields.require closing .listEnd).within fun stopped properStopped => ?_).bind
          fun _ _ => .pure (forall_mem_reverse longer)
        exact made _ (forall_mem_reverse (List.forall_mem_cons.mpr ⟨properStopped, longer⟩))

theorem list_yields (proper : inner.Proper source) (closing : Terminal) {make : List (Place × Tree) → Tree}
    (made : ∀ items : List (Place × Tree), (∀ one ∈ items, one.2.Proper source) → (make items).Proper source) :
    (list inner closing make).Yields source fun items => ∀ one ∈ items, one.2.Proper source := by
  refine (Reader.Yields.takes closing).bind fun empty _ => ?_
  cases empty with
  | true => exact .pure (List.forall_mem_nil _)
  | false => exact items_yields proper closing made inner.bound (List.forall_mem_nil _)

/-! ## Declarations and blocks -/

theorem vectorSize_yields : vectorSize.Yields source fun _ => True := by
  intro lexemes ends
  unfold vectorSize
  split
  · exact .stop rfl _
  · split
    · exact ⟨trivial, Reader.Yields.behind ends⟩
    · exact .stop rfl _

theorem closedVectorSize_yields : closedVectorSize.Yields source fun _ => True := by
  refine vectorSize_yields.bind fun size _ => ?_
  exact (Reader.Yields.require .rightBracket .sizeEnd).bind fun _ _ => .pure trivial

theorem vectorContent_yields (proper : inner.Proper source) (word : Lexeme) (size : Nat) :
    (vectorContent inner word size).Yields source (Tree.Proper source) := by
  refine (Reader.Yields.takes .assign).bind fun assigned _ => ?_
  cases assigned with
  | false => exact .pure (.listedVector word size word (List.forall_mem_nil _))
  | true =>
    refine (Reader.Yields.acceptTerminal .leftBrace).bind fun listed _ => ?_
    cases listed with
    | some bracket =>
      exact (list_yields proper .rightBrace fun _ => .listedVector word size bracket).bind
        fun elements properElements => .pure (.listedVector word size bracket properElements)
    | none =>
      refine Reader.Yields.place.bind fun start _ => ?_
      exact (proper.assignment.within fun _ => .filledVector word size start).bind
        fun value properValue => .pure (.filledVector word size start properValue)

theorem vectorDeclaration_yields (proper : inner.Proper source) (word : Lexeme) :
    (vectorDeclaration inner word).Yields source (Tree.Proper source) :=
  (closedVectorSize_yields.within fun _ => .declaration word .ending).bind
    fun size _ => vectorContent_yields proper word size

theorem declarationOf_yields (proper : inner.Proper source) (word : Lexeme) :
    (declarationOf inner word).Yields source (Tree.Proper source) := by
  refine (Reader.Yields.takes .leftBracket).bind fun bracket _ => ?_
  cases bracket with
  | true => exact vectorDeclaration_yields proper word
  | false =>
    refine (Reader.Yields.takes .assign).bind fun assigned _ => ?_
    cases assigned with
    | false => exact .pure (.declaration word .ending (.number 0.0))
    | true =>
      refine Reader.Yields.place.bind fun start _ => ?_
      exact (proper.assignment.within fun _ => .declaration word start).bind
        fun value properValue => .pure (.declaration word start properValue)

theorem declaration_yields (proper : inner.Proper source) : (declaration inner).Yields source (Tree.Proper source) := by
  intro lexemes ends
  unfold declaration
  split
  · exact .stop rfl _
  · split
    · exact declarationOf_yields proper _ _ (Reader.Yields.behind ends)
    · exact .stop rfl _

theorem statement_yields (proper : inner.Proper source) : (statement inner).Yields source (Tree.Proper source) := by
  refine (Reader.Yields.takes .varWord).bind fun declared _ => ?_
  cases declared with
  | true => exact declaration_yields proper
  | false => exact proper.assignment

theorem blockOf_yields (closing : Lexeme) {found : List Tree} (sound : ∀ one ∈ found, one.Proper source) :
    (blockOf closing found).Yields source (Tree.Proper source) := by
  match found, sound with
  | [], _ => exact fun _ _ => .stop rfl _
  | [only], sound => exact .pure (sound only (List.mem_singleton.mpr rfl))
  | result :: second :: earlier, sound =>
    have parts := List.forall_mem_cons.mp sound
    exact .pure (.block (forall_mem_reverse parts.2) parts.1)

theorem statements_yields (proper : inner.Proper source) (closing : Terminal) (bound : Nat) {found : List Tree}
    (sound : ∀ one ∈ found, one.Proper source) :
    (statements inner closing bound found).Yields source (Tree.Proper source) := by
  induction bound generalizing found with
  | zero =>
    rw [statements]
    exact .stopUnexpected
  | succ bound induction =>
    have next : (statements.next inner closing bound found).Yields source (Tree.Proper source) := by
      unfold statements.next
      refine Reader.Yields.bind ((statement_yields proper).within fun _ => .block (forall_mem_reverse sound))
        fun tree properTree => ?_
      have longer : ∀ one ∈ tree :: found, one.Proper source := List.forall_mem_cons.mpr ⟨properTree, sound⟩
      refine (Reader.Yields.takes .semicolon).bind fun semicolon _ => ?_
      cases semicolon with
      | true => exact induction longer
      | false =>
        refine ((Reader.Yields.require closing .blockEnd).within
          fun _ => .block (forall_mem_reverse longer)).bind fun last _ => ?_
        exact blockOf_yields last longer
    intro lexemes ends
    unfold statements
    split
    · split
      · exact blockOf_yields _ sound _ (Reader.Yields.behind ends)
      · exact next _ ends
    · exact next _ ends

theorem block_yields (proper : inner.Proper source) (closing : Terminal) :
    (block inner closing).Yields source (Tree.Proper source) :=
  statements_yields proper closing inner.bound (List.forall_mem_nil _)

theorem body_yields (proper : inner.Proper source) : (body inner).Yields source (Tree.Proper source) := by
  refine (Reader.Yields.takes .leftBrace).bind fun braced _ => ?_
  cases braced with
  | true => exact block_yields proper .rightBrace
  | false => exact statement_yields proper

/-! ## Forms -/

theorem nothing_proper : nothing.Proper source := .number 0.0

theorem takesElse_yields : takesElse.Yields source fun _ => True := by
  intro lexemes ends
  unfold takesElse
  split
  · split
    · exact ⟨trivial, Reader.Yields.behind (Reader.Yields.behind ends)⟩
    · exact Reader.Yields.takes .elseWord _ ends
  · exact Reader.Yields.takes .elseWord _ ends

theorem secondBranch_yields (proper : inner.Proper source) (start : Place) {condition : Tree}
    (properCondition : condition.Proper source) (branch : Place) {consequent : Tree}
    (properConsequent : consequent.Proper source) :
    (secondBranch inner start condition branch consequent).Yields source (Tree.Proper source) := by
  refine takesElse_yields.bind fun otherwise _ => ?_
  cases otherwise with
  | false => exact .pure (.conditionalOnly start branch properCondition properConsequent)
  | true =>
    exact ((body_yields proper).within fun _ =>
      .conditional start branch properCondition properConsequent).bind fun alternative properAlternative =>
        .pure (.conditional start branch properCondition properConsequent properAlternative)

theorem ifForm_yields (proper : inner.Proper source) : (ifForm inner).Yields source (Tree.Proper source) := by
  refine (Reader.Yields.require .leftParen .ifOpen).bind fun _ _ => ?_
  refine Reader.Yields.place.bind fun start _ => ?_
  refine proper.assignment.bind fun condition properCondition => ?_
  refine (Reader.Yields.takes .comma).bind fun comma _ => ?_
  cases comma with
  | true =>
    refine Reader.Yields.place.bind fun branch _ => ?_
    refine (proper.assignment.within fun _ stopped =>
      .conditional start branch properCondition stopped stopped).bind fun consequent properConsequent => ?_
    refine Reader.Yields.within ?_ fun _ => .conditional start branch properCondition properConsequent
    refine (Reader.Yields.require .comma .ifComma).bind fun _ _ => ?_
    refine proper.assignment.bind fun alternative properAlternative => ?_
    refine ((Reader.Yields.require .rightParen .ifEnd).within fun _ => .andThen properAlternative).bind
      fun _ _ => ?_
    exact .pure (.conditional start branch properCondition properConsequent properAlternative)
  | false =>
    have bodies : Reader.Yields source (fun pair : Place × Tree => pair.2.Proper source)
        (do
          let _ ← Reader.require .rightParen .conditionEnd
          let branch ← Reader.place
          let consequent ← body inner
          pure (branch, consequent)) := by
      refine (Reader.Yields.require .rightParen .conditionEnd).bind fun _ _ => ?_
      refine Reader.Yields.place.bind fun branch _ => ?_
      exact (body_yields proper).bind fun consequent properConsequent => .pure properConsequent
    refine (bodies.within fun _ stopped =>
      .conditional start .ending properCondition stopped stopped).bind fun pair properConsequent => ?_
    rcases pair with ⟨branch, consequent⟩
    exact secondBranch_yields proper start properCondition branch properConsequent

theorem whileForm_yields (proper : inner.Proper source) : (whileForm inner).Yields source (Tree.Proper source) := by
  refine (Reader.Yields.require .leftParen .whileOpen).bind fun _ _ => ?_
  refine Reader.Yields.place.bind fun start _ => ?_
  refine proper.assignment.bind fun condition properCondition => ?_
  refine Reader.Yields.within ?_ fun _ => .loop start nothing_proper properCondition nothing_proper
  refine (Reader.Yields.require .rightParen .whileEnd).bind fun _ _ => ?_
  exact (body_yields proper).bind
    fun body properBody => .pure (.loop start nothing_proper properCondition nothing_proper properBody)

theorem clause_yields (ending : Terminal) {absent : Tree} {present : Reader Tree} (proper : absent.Proper source)
    (yields : present.Yields source (Tree.Proper source)) :
    (clause ending absent present).Yields source (Tree.Proper source) := by
  refine (Reader.Yields.sees ending).bind fun ends _ => ?_
  cases ends with
  | true => exact .pure proper
  | false => exact yields

theorem forForm_yields (proper : inner.Proper source) : (forForm inner).Yields source (Tree.Proper source) := by
  refine (Reader.Yields.require .leftParen .forOpen).bind fun _ _ => ?_
  refine (clause_yields .semicolon nothing_proper (statement_yields proper)).bind
    fun initializer properInitializer => ?_
  have conditions : Reader.Yields source (fun pair : Place × Tree => pair.2.Proper source)
      (do
        let _ ← Reader.require .semicolon .afterInitializer
        let start ← Reader.place
        let condition ← clause .semicolon (.number 1.0) inner.assignment
        pure (start, condition)) := by
    refine (Reader.Yields.require .semicolon .afterInitializer).bind fun _ _ => ?_
    refine Reader.Yields.place.bind fun start _ => ?_
    exact (clause_yields .semicolon (.number 1.0) proper.assignment).bind
      fun condition properCondition => .pure properCondition
  refine (conditions.within fun _ => .andThen properInitializer).bind fun pair properCondition => ?_
  rcases pair with ⟨start, condition⟩
  have steps : Reader.Yields source (Tree.Proper source)
      (do
        let _ ← Reader.require .semicolon .afterLoopCondition
        clause .rightParen nothing (statement inner)) :=
    (Reader.Yields.require .semicolon .afterLoopCondition).bind
      fun _ _ => clause_yields .rightParen nothing_proper (statement_yields proper)
  refine (steps.within fun _ stopped =>
    .loop start properInitializer properCondition stopped stopped).bind fun step properStep => ?_
  refine Reader.Yields.within ?_ fun _ => .loop start properInitializer properCondition properStep
  refine (Reader.Yields.require .rightParen .forEnd).bind fun _ _ => ?_
  exact (body_yields proper).bind
    fun body properBody => .pure (.loop start properInitializer properCondition properStep properBody)

def ProperCase (source : List Lexeme) (one : (Place × Tree) × (Place × Tree)) : Prop :=
  one.1.2.Proper source ∧ one.2.2.Proper source

theorem choice_proper {found : List ((Place × Tree) × (Place × Tree))} (sound : ∀ one ∈ found, ProperCase source one)
    (start : Place) {otherwise : Tree} (proper : otherwise.Proper source) :
    (Tree.choice found start otherwise).Proper source :=
  .choice start (fun one member => (sound one member).1) (fun one member => (sound one member).2) proper

theorem cases_yields (proper : inner.Proper source) (bound : Nat)
    {found : List ((Place × Tree) × (Place × Tree))} (sound : ∀ one ∈ found, ProperCase source one) :
    (cases inner bound found).Yields source fun cases => ∀ one ∈ cases, ProperCase source one := by
  induction bound generalizing found with
  | zero => exact .pure (forall_mem_reverse sound)
  | succ bound induction =>
    refine (Reader.Yields.takes .caseWord).bind fun another _ => ?_
    cases another with
    | false => exact .pure (forall_mem_reverse sound)
    | true =>
      refine Reader.Yields.place.bind fun start _ => ?_
      refine (proper.assignment.within fun _ => choice_proper (forall_mem_reverse sound) .ending).bind
        fun condition properCondition => ?_
      have results : Reader.Yields source (fun pair : Place × Tree => pair.2.Proper source)
          (do
            let _ ← Reader.require .colon .caseColon
            let resultStart ← Reader.place
            let result ← inner.assignment
            pure (resultStart, result)) := by
        refine (Reader.Yields.require .colon .caseColon).bind fun _ _ => ?_
        refine Reader.Yields.place.bind fun resultStart _ => ?_
        exact proper.assignment.bind fun result properResult => .pure properResult
      refine (results.within fun _ stopped => choice_proper (forall_mem_reverse
        (List.forall_mem_cons.mpr ⟨⟨properCondition, stopped⟩, sound⟩)) .ending stopped).bind
          fun pair properResult => ?_
      rcases pair with ⟨resultStart, result⟩
      have longer : ∀ one ∈ ((start, condition), (resultStart, result)) :: found, ProperCase source one :=
        List.forall_mem_cons.mpr ⟨⟨properCondition, properResult⟩, sound⟩
      refine ((Reader.Yields.require .semicolon .caseEnd).within
        fun _ => choice_proper (forall_mem_reverse longer) .ending).bind fun _ _ => ?_
      exact induction longer

theorem switchForm_yields (proper : inner.Proper source) : (switchForm inner).Yields source (Tree.Proper source) := by
  refine (Reader.Yields.require .leftBrace .switchOpen).bind fun _ _ => ?_
  refine (cases_yields proper inner.bound (List.forall_mem_nil _)).bind fun cases properCases => ?_
  have trees : Reader.Yields source (Tree.Proper source)
      (do
        let _ ← Reader.require .defaultWord .caseOrDefault
        let _ ← Reader.require .colon .defaultColon
        let start ← Reader.place
        let otherwise ← inner.assignment
        pure (.choice cases start otherwise)) := by
    refine (Reader.Yields.require .defaultWord .caseOrDefault).bind fun _ _ => ?_
    refine (Reader.Yields.require .colon .defaultColon).bind fun _ _ => ?_
    refine Reader.Yields.place.bind fun start _ => ?_
    exact proper.assignment.bind
      fun otherwise properOtherwise => .pure (choice_proper properCases start properOtherwise)
  refine (trees.within fun _ => choice_proper properCases .ending).bind fun tree properTree => ?_
  refine (Reader.Yields.takes .semicolon).bind fun _ _ => ?_
  exact ((Reader.Yields.require .rightBrace .switchEnd).within fun _ => .andThen properTree).bind
    fun _ _ => .pure properTree

/-! ## Operands -/

theorem nameForm_yields (proper : inner.Proper source) {word : Lexeme} (isName : word.token.isName = true)
    (name : String) {rest : List Lexeme} (ends : word :: rest <:+ source) :
    Reader.Outcome source (Tree.Proper source) (nameForm inner word name rest) := by
  have behind := Reader.Yields.behind ends
  unfold nameForm
  cases called : startsWith .leftParen rest with
  | false =>
    rw [Reader.bind_of_ok (Reader.takes_of_not called), if_neg Bool.false_ne_true]
    split
    · exact .stop rfl _
    · exact ⟨.name word rest ⟨isName, rest, ends, called⟩, behind⟩
  | true =>
    cases rest with
    | nil => cases called
    | cons opening arguments =>
      rw [Reader.bind_of_ok (Reader.takes_of_is called _), if_pos rfl]
      refine Reader.Yields.bind (list_yields proper .rightParen fun _ => .call word []) (fun arguments proper => ?_) _
        (Reader.Yields.behind behind)
      exact Reader.Yields.remaining.bind fun rest _ => .pure (.call word rest proper)

theorem primary_yields (proper : inner.Proper source) : (primary inner).Yields source (Tree.Proper source) := by
  intro lexemes ends
  unfold primary
  split
  · exact .stop rfl _
  · have behind := Reader.Yields.behind ends
    split
    · exact ⟨.number _, behind⟩
    · exact ⟨.text _, behind⟩
    · next name spelled =>
      have isName : Token.isName (.name name) = true := rfl
      rw [← spelled] at isName
      exact nameForm_yields proper isName name ends
    · exact ⟨.number 1.0, behind⟩
    · exact ⟨.number 0.0, behind⟩
    · exact block_yields proper .rightParen _ behind
    · exact block_yields proper .rightBrace _ behind
    · exact ifForm_yields proper _ behind
    · exact whileForm_yields proper _ behind
    · exact forForm_yields proper _ behind
    · exact switchForm_yields proper _ behind
    · exact Reader.Yields.stopUnexpected _ ends

theorem rangeEnd_yields {assignment : Reader Tree} (proper : assignment.Yields source (Tree.Proper source))
    (bracket : Lexeme) {base first : Tree} (properBase : base.Proper source) (firstStart : Place)
    (properFirst : first.Proper source) :
    (rangeEnd assignment bracket base firstStart first).Yields source (Tree.Proper source) := by
  refine (Reader.Yields.takes .rightBracket).bind fun ended _ => ?_
  cases ended with
  | true => exact .pure (.range bracket firstStart .ending properBase properFirst (.number _))
  | false =>
    refine Reader.Yields.place.bind fun lastStart _ => ?_
    refine (proper.within fun _ => .range bracket firstStart lastStart properBase properFirst).bind
      fun last properLast => ?_
    refine ((Reader.Yields.require .rightBracket .rangeEnd).within fun _ stopped =>
      .range bracket firstStart lastStart properBase properFirst (.andThen properLast stopped)).bind
        fun _ _ => ?_
    exact .pure (.range bracket firstStart lastStart properBase properFirst properLast)

theorem subscript_yields {assignment : Reader Tree} (proper : assignment.Yields source (Tree.Proper source))
    (bracket : Lexeme) {base : Tree} (properBase : base.Proper source) :
    (subscript assignment bracket base).Yields source (Tree.Proper source) := by
  refine (Reader.Yields.takes .rightBracket).bind fun ended _ => ?_
  cases ended with
  | true => exact .pure (.size bracket properBase)
  | false =>
    refine (Reader.Yields.takes .colon).bind fun ranged _ => ?_
    cases ranged with
    | true => exact rangeEnd_yields proper bracket properBase .ending (.number 0.0)
    | false =>
      refine Reader.Yields.place.bind fun start _ => ?_
      refine (proper.within fun _ => .element bracket start properBase).bind fun index properIndex => ?_
      refine (Reader.Yields.takes .colon).bind fun ranged _ => ?_
      cases ranged with
      | true => exact rangeEnd_yields proper bracket properBase start properIndex
      | false =>
        refine ((Reader.Yields.require .rightBracket .indexEnd).within fun _ stopped =>
          .element bracket start properBase (.andThen properIndex stopped)).bind fun _ _ => ?_
        exact .pure (.element bracket start properBase properIndex)

theorem power_yields (proper : inner.Proper source) : (power inner).Yields source (Tree.Proper source) := by
  refine (primary_yields proper).bind fun base properBase => ?_
  refine (proper.subscripts base properBase).bind fun base properBase => ?_
  refine (Reader.Yields.acceptTerminal .caret).bind fun raising _ => ?_
  cases raising with
  | none => exact .pure properBase
  | some sign =>
    have raised {exponent : Tree} (properExponent : exponent.Proper source) :
        (Tree.arithmetic base [((.pow, sign), exponent)]).Proper source :=
      .arithmetic properBase (List.forall_mem_singleton.mpr rfl)
        (List.forall_mem_singleton.mpr properExponent)
    exact (proper.operand.within fun _ => raised).bind
      fun exponent properExponent => .pure (raised properExponent)

theorem unary_yields (proper : inner.Proper source) : (unary inner).Yields source (Tree.Proper source) := by
  have prefixed {context : Tree → Tree} (within : ∀ operand, operand.Proper source → (context operand).Proper source) :
      (context <$> inner.operand.within context).Yields source (Tree.Proper source) :=
    (proper.operand.within within).bind fun operand properOperand => .pure (within operand properOperand)
  intro lexemes ends
  unfold unary
  split
  · exact power_yields proper _ ends
  · have behind := Reader.Yields.behind ends
    split
    · exact prefixed (fun _ => .negation _) _ behind
    · exact prefixed (fun _ => .affirmation _) _ behind
    · exact prefixed (fun _ => .denial _) _ behind
    · exact prefixed (fun _ => .denial _) _ behind
    · exact power_yields proper _ ends

/-! ## Formulas -/

theorem mem_of_operatorOf? {level : List BinaryOperator} {sign : Lexeme} {op : BinaryOperator}
    (spelled : operatorOf? level sign = some op) : op ∈ level := by
  unfold operatorOf? at spelled
  split at spelled
  · split at spelled
    · next contained =>
      cases spelled
      exact List.contains_iff_mem.mp contained
    · cases spelled
  · cases spelled

theorem arithmeticSign_yields {level : List BinaryOperator}
    (arithmetic : ∀ op ∈ level, op.isArithmetic = true) :
    (arithmeticSign level).Yields source
      fun found => ∀ spelled, found = some spelled → spelled.1.isArithmetic = true := by
  refine (Reader.Yields.accept _).imp fun found accepted spelled equal => ?_
  obtain ⟨lexeme, spells⟩ := accepted spelled equal
  obtain ⟨op, isOperator, rfl⟩ := Option.map_eq_some_iff.mp spells
  exact arithmetic op (mem_of_operatorOf? isOperator)

theorem logicalSign_yields (level : List BinaryOperator) :
    (logicalSign level).Yields source fun found => ∀ spelled, found = some spelled → True := by
  refine (Reader.Yields.accept _).bind fun found _ => ?_
  cases found with
  | none => exact .pure nofun
  | some op => exact Reader.Yields.place.bind fun _ _ => .pure fun _ _ => trivial

theorem arithmeticRun_proper {first : Tree} (proper : first.Proper source)
    {run : List ((BinaryOperator × Lexeme) × Tree)}
    (sound : ∀ step ∈ run, step.1.1.isArithmetic = true ∧ step.2.Proper source) :
    (Tree.arithmetic first run).Proper source :=
  .arithmetic proper (fun step member => (sound step member).1) (fun step member => (sound step member).2)

theorem product_yields (proper : inner.Proper source) : (product inner).Yields source (Tree.Proper source) :=
  run_yields (arithmeticSign_yields (by decide)) (unary_yields proper)
    (fun _ proper _ => arithmeticRun_proper proper) inner.bound

theorem sum_yields (proper : inner.Proper source) : (sum inner).Yields source (Tree.Proper source) :=
  run_yields (arithmeticSign_yields (by decide)) (product_yields proper)
    (fun _ proper _ => arithmeticRun_proper proper) inner.bound

theorem noSecondRelation_yields : noSecondRelation.Yields source fun _ => True := by
  intro lexemes ends
  unfold noSecondRelation
  split
  · exact .stop rfl _
  · exact ⟨trivial, ends⟩

theorem relation_yields (proper : inner.Proper source) : (relation inner).Yields source (Tree.Proper source) := by
  refine (sum_yields proper).bind fun left properLeft => ?_
  refine (Reader.Yields.accept _).bind fun found accepted => ?_
  cases found with
  | none => exact .pure properLeft
  | some sign =>
    obtain ⟨lexeme, spells⟩ := accepted sign rfl
    have isRelation : sign.isRelation = true := by
      split at spells
      · next isRelation =>
        cases spells
        exact isRelation
      · cases spells
    refine Reader.Yields.within ?_ fun _ => .relation isRelation properLeft
    refine (sum_yields proper).bind fun right properRight => ?_
    exact (noSecondRelation_yields.within fun _ => .andThen properRight).bind
      fun _ _ => .pure (.relation isRelation properLeft properRight)

theorem logical_yields (level : List BinaryOperator) {operand : Reader Tree}
    (proper : operand.Yields source (Tree.Proper source)) :
    (logical inner level operand).Yields source (Tree.Proper source) := by
  refine Reader.Yields.place.bind fun start _ => ?_
  exact run_yields (logicalSign_yields level) proper
    (fun _ proper _ sound => .logical start proper fun step member => (sound step member).2) inner.bound

theorem disjunction_yields (proper : inner.Proper source) : (disjunction inner).Yields source (Tree.Proper source) :=
  logical_yields _ (logical_yields _ (logical_yields _ (relation_yields proper)))

theorem conditional_yields (proper : inner.Proper source) : (conditional inner).Yields source (Tree.Proper source) := by
  refine Reader.Yields.place.bind fun start _ => ?_
  refine (disjunction_yields proper).bind fun condition properCondition => ?_
  refine (Reader.Yields.takes .question).bind fun question _ => ?_
  cases question with
  | false => exact .pure properCondition
  | true =>
    refine Reader.Yields.place.bind fun branch _ => ?_
    refine (proper.assignment.within fun _ stopped =>
      .conditional start branch properCondition stopped stopped).bind fun consequent properConsequent => ?_
    refine Reader.Yields.within ?_ fun _ => .conditional start branch properCondition properConsequent
    refine (Reader.Yields.require .colon .conditionalColon).bind fun _ _ => ?_
    exact proper.assignment.bind fun alternative properAlternative =>
      .pure (.conditional start branch properCondition properConsequent properAlternative)

theorem assignmentSign_yields : assignmentSign.Yields source fun _ => True
  | [], _ => .stop rfl _
  | _ :: _, ends => ⟨trivial, Reader.Yields.behind ends⟩

section Assignment

variable (proper : inner.Proper source) {word : Lexeme} (sought : word.IsSought source)

include proper sought

theorem wholeAssignment_yields : (wholeAssignment inner word).Yields source (Tree.Proper source) := by
  refine (assignmentSign_yields.within fun _ => .assignment word word .ending sought).bind fun sign _ => ?_
  refine Reader.Yields.place.bind fun start _ => ?_
  exact (proper.assignment.within fun _ => .assignment word sign start sought).bind
    fun value properValue => .pure (.assignment word sign start sought properValue)

theorem elementAssignment_yields : (elementAssignment inner word).Yields source (Tree.Proper source) := by
  refine Reader.Yields.place.bind fun start _ => ?_
  refine (proper.assignment.within fun _ stopped =>
    .elementAssignment word start word sought stopped stopped).bind fun index properIndex => ?_
  have signs : Reader.Yields source (fun _ => True)
      (do
        let _ ← Reader.require .rightBracket .indexEnd
        assignmentSign) :=
    (Reader.Yields.require .rightBracket .indexEnd).bind fun _ _ => assignmentSign_yields
  refine (signs.within fun _ stopped =>
    .elementAssignment word start word sought (.andThen properIndex stopped) stopped).bind fun sign _ => ?_
  exact (proper.assignment.within fun _ => .elementAssignment word start sign sought properIndex).bind
    fun value properValue => .pure (.elementAssignment word start sign sought properIndex properValue)

theorem assignmentTo_yields : (assignmentTo inner word).Yields source (Tree.Proper source) := by
  refine (Reader.Yields.takes .leftBracket).bind fun bracket _ => ?_
  cases bracket with
  | true => exact elementAssignment_yields proper sought
  | false => exact wholeAssignment_yields proper sought

end Assignment

theorem assignment_yields (proper : inner.Proper source) :
    (assignment inner).Yields source (Tree.Proper source) := by
  intro lexemes ends
  unfold assignment
  split
  · exact conditional_yields proper _ ends
  · next word rest =>
    split
    · next starts =>
      have sought : word.IsSought source :=
        ⟨isName_of_startsAssignment starts, rest, ends, noParen_of_startsAssignment starts⟩
      exact assignmentTo_yields proper sought _ (Reader.Yields.behind ends)
    · exact conditional_yields proper _ ends

/-! ## Levels -/

/-- The readers inside a level of which `level` more may be entered. -/
def innerAt (limit bound level : Nat) : Inner :=
  ⟨assignmentAt limit bound level, operandAt limit bound level, subscriptsAt limit bound level, bound⟩

theorem innerAt_proper (limit bound level : Nat) : (innerAt limit bound level).Proper source := by
  induction level with
  | zero =>
    refine ⟨fun _ _ => .stop rfl _, fun _ _ => .stop rfl _, fun base proper lexemes ends => ?_⟩
    change Reader.Outcome source (Tree.Proper source) (subscriptsAt limit bound 0 base lexemes)
    rw [subscriptsAt]
    split
    · exact .andThen proper (.stop rfl _)
    · exact ⟨proper, ends⟩
  | succ level induction =>
    refine ⟨assignment_yields induction, unary_yields induction, fun base proper => ?_⟩
    refine (Reader.Yields.acceptTerminal .leftBracket).bind fun found _ => ?_
    cases found with
    | none => exact .pure proper
    | some bracket =>
      exact (subscript_yields induction.assignment bracket proper).bind
        fun base properBase => induction.subscripts base properBase

theorem statementEnd_yields : statementEnd.Yields source fun _ => True := by
  intro lexemes ends
  unfold statementEnd
  split
  · exact ⟨trivial, ends⟩
  · split
    · exact ⟨trivial, Reader.Yields.behind ends⟩
    · exact .stop rfl _

theorem endedStatement_yields (proper : inner.Proper source) :
    (endedStatement inner).Yields source (Tree.Proper source) := by
  refine (statement_yields proper).bind fun tree properTree => ?_
  exact (statementEnd_yields.within fun _ => .andThen properTree).bind fun _ _ => .pure properTree

theorem endedStatement_outcome (limit bound : Nat) {lexemes : List Lexeme} (ends : lexemes <:+ source) :
    Reader.Outcome source (Tree.Proper source) (endedStatement (outermost limit bound) lexemes) :=
  endedStatement_yields (innerAt_proper limit bound limit) lexemes ends

theorem recover_suffix (depth : Int) (skip : Nat) (lexemes : List Lexeme) :
    recover depth skip lexemes <:+ lexemes := by
  fun_induction recover depth skip lexemes with
  | case1 => exact List.suffix_refl _
  | case2 _ _ first rest _ induction => exact induction.trans (List.suffix_cons first rest)
  | case3 _ _ first rest _ _ induction => exact induction.trans (List.suffix_cons first rest)
  | case4 _ _ first rest => exact List.suffix_cons first rest
  | case5 _ _ first rest _ _ _ induction => exact induction.trans (List.suffix_cons first rest)

end Grammar

end LiveExpr
