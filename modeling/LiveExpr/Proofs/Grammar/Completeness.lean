import LiveExpr.Proofs.Compile.Completion
import LiveExpr.Proofs.Grammar.Taking
import LiveExpr.Proofs.Number.Whole

/-!
Readers take all that the grammar derives, where bodies have braces. In front of lexemes that do not go on with a
phrase, its reader takes the whole phrase, and the tree that it gives can be compiled.
-/

namespace LiveExpr

namespace Grammar

def IsVectorSize (token : Token) : Prop :=
  ∃ number, ∃ whole : Nat, token = .number number ∧ number.isFinite = true ∧ Number.value number = whole ∧
    1 ≤ whole ∧ whole < 2 ^ 64

theorem vectorSize?_of_isVectorSize {token : Token} (sized : IsVectorSize token) :
    ∃ size, vectorSize? token = some size := by
  rcases sized with ⟨number, whole, rfl, finite, same, positive, below⟩
  have entire : (Number.fraction number == 0.0) = true := Number.fraction_of_whole finite positive same
  have large : decide (number ≥ 1.0) = true := decide_eq_true (Number.one_le_of_whole finite positive same)
  have index : Number.toIndex? number = some whole := Number.toIndex?_of_whole finite same below
  rw [vectorSize?, entire, large, index]
  exact ⟨whole, rfl⟩

/-- The documented grammar with braces around every body, in which no name of a function stands for a value, calls have
numbers of arguments that their functions accept, the sizes of vectors are whole numbers, at least one and below 2 ^ 64,
and a list in braces is all that a vector may be filled from behind an opening brace. -/
def Dialect.accepted (environment : Environment) (world : World) : Dialect where
  looseBody := False
  value word := (∀ name, word.token = .name name → Builtin.find? name = none) ∧
    ∀ function, (world.table environment.table).lookup word.text ≠ some (.function function)
  call := Compile.Accepts environment world
  size token := IsVectorSize token
  size_number token sized := by
    rcases sized with ⟨number, whole, rfl, _⟩
    rfl
  filling formula := startsWith .leftBrace formula = false

structure Reading where
  environment : Environment
  unaided : environment.resolver = none
  world : World
  /-- The number of lexemes in the source, or more. -/
  bound : Nat

namespace Reading

variable (reading : Reading)

def bounds : Bounds :=
  ⟨reading.environment.settings.maxDepth, reading.bound⟩

abbrev inner (level : Nat) : Inner :=
  reading.bounds.inner level

abbrev dialect : Dialect :=
  .accepted reading.environment reading.world

abbrev Good (tree : Tree) : Prop :=
  tree.Proceeds reading.environment reading.world

/-- Whether a reader takes all the lexemes in front of what does not go on with a phrase of the rank. The levels that
may still be entered, and some slack, have to be as many as the lexemes. -/
def Takes (slack rank : Nat) (reader : Inner → Reader Tree) (lexemes : List Lexeme) : Prop :=
  ∀ level rest, lexemes.length ≤ level + slack → lexemes.length ≤ reading.bound → Stops rank rest →
    (reader (reading.inner level)).Gives reading.Good (lexemes ++ rest) rest

def Reads : Phrase → List Lexeme → Prop
  | .program, _ => True
  | .statement, lexemes => reading.Takes 0 9 statement lexemes
  | .declaration, lexemes => reading.Takes 0 9 declaration lexemes
  | .initializer, lexemes => ∀ word size, reading.Takes 0 9 (vectorContent · word size) lexemes
  | .assignment, lexemes => reading.Takes 1 9 assignment lexemes
  | .conditional, lexemes => reading.Takes 1 9 conditional lexemes
  | .run level, lexemes => reading.Takes 1 level.rank level.reader lexemes
  | .relation, lexemes => reading.Takes 1 4 relation lexemes
  | .unary, lexemes => reading.Takes 1 1 unary lexemes
  | .power, lexemes => reading.Takes 1 1 power lexemes
  | .primary, lexemes => reading.Takes 1 0 primary lexemes
  | .otherwise, lexemes => ∀ start condition branch consequent, reading.Good condition →
    reading.Good consequent → reading.Takes 0 0 (secondBranch · start condition branch consequent) lexemes
  | .body, lexemes => ∀ level rest, lexemes.length ≤ level → lexemes.length ≤ reading.bound →
    (body (reading.inner level)).Gives reading.Good (lexemes ++ rest) rest
  | .block, lexemes => ∀ level count found closing bracket rest, lexemes.length ≤ level →
    lexemes.length ≤ reading.bound → lexemes.length < count → (∀ one ∈ found, reading.Good one) →
    IsCloser closing → bracket.is closing = true →
    (statements (reading.inner level) closing count found).Gives reading.Good (lexemes ++ bracket :: rest) rest
  | .steps operators, lexemes => ∀ {α : Type} (sign : Reader (Option (BinaryOperator × α))), operators.IsSign sign →
    ∀ level count found soFar rest, lexemes.length ≤ level → lexemes.length ≤ reading.bound →
    lexemes.length ≤ count → (∀ step ∈ found, reading.Good step.2) → Stops operators.rank rest →
    (Grammar.operators sign (operators.operand.reader (reading.inner level)) soFar count found).Gives
      (fun run => ∀ step ∈ run, reading.Good step.2) (lexemes ++ rest) rest
  | .subscripts, lexemes => ∀ level base rest, lexemes.length ≤ level → lexemes.length ≤ reading.bound →
    reading.Good base → startsWith .leftBracket rest = false →
    ((reading.inner level).subscripts base).Gives reading.Good (lexemes ++ rest) rest
  | .list 0, lexemes => lexemes = []
  | .list (more + 1), lexemes => ∀ level count found soFar closing bracket rest, lexemes.length ≤ level →
    lexemes.length ≤ reading.bound → lexemes.length ≤ count → (∀ one ∈ found, reading.Good one.2) →
    IsCloser closing → bracket.is closing = true →
    (items (reading.inner level) closing soFar count found).Gives
      (fun items => items.length = found.length + more + 1 ∧ ∀ one ∈ items, reading.Good one.2)
      (lexemes ++ bracket :: rest) rest
  | .cases, lexemes => ∀ level count found rest, lexemes.length ≤ level → lexemes.length ≤ reading.bound →
    lexemes.length ≤ count → (∀ one ∈ found, reading.Good one.1.2 ∧ reading.Good one.2.2) →
    startsWith .caseWord rest = false → startsWith .elseWord rest = false →
    (Grammar.cases (reading.inner level) count found).Gives
      (fun cases => ∀ one ∈ cases, reading.Good one.1.2 ∧ reading.Good one.2.2) (lexemes ++ rest) rest
  | .separator, lexemes => lexemes = [] ∨ ∃ semicolon, lexemes = [semicolon] ∧ semicolon.is .semicolon = true
  | .optional phrase, lexemes =>
    lexemes = [] ∨ Derives reading.dialect phrase lexemes ∧ Reads phrase lexemes

structure Accepts (phrase : Phrase) (lexemes : List Lexeme) : Prop where
  derived : Derives reading.dialect phrase lexemes
  reads : reading.Reads phrase lexemes

variable {reading} {lexemes : List Lexeme}

/-- What is read as a phrase with a tree of its own is taken by the reader of the phrase. -/
theorem takes {phrase : Phrase} (derived : Derives reading.dialect phrase lexemes)
    (reads : reading.Reads phrase lexemes) (isWhole : phrase.IsWhole) :
    reading.bounds.Takes reading.dialect reading.Good phrase lexemes := by
  cases phrase <;> first | exact ⟨derived, reads⟩ | cases isWhole

theorem takes_assignment (accepts : reading.Accepts .assignment lexemes) {level : Nat} {rest : List Lexeme}
    (deep : lexemes.length ≤ level) (short : lexemes.length ≤ reading.bound) (stops : Stops 9 rest) :
    (reading.inner level).assignment.Gives reading.Good (lexemes ++ rest) rest :=
  (takes accepts.derived accepts.reads trivial).assignmentWithin deep short stops

/-! ## Runs -/

theorem forall_mem_reverse_cons {α : Type} {property : α → Prop} {one : α} {list : List α} (first : property one)
    (others : ∀ other ∈ list, property other) : ∀ other ∈ one :: list, property other :=
  List.forall_mem_cons.mpr ⟨first, others⟩

theorem takes_operandOf {level : Level} (accepts : reading.Accepts level.operand lexemes) :
    reading.bounds.Takes reading.dialect reading.Good level.operand lexemes :=
  takes accepts.derived accepts.reads (by cases level <;> trivial)

theorem reads_noStep (operators : Level) : reading.Reads (.steps operators) [] := by
  intro α sign isSign level count found soFar rest _ _ _ good stops
  exact gives_noStep isSign stops _ soFar count (forall_mem_reverse good)

theorem reads_step {operators : Level} {sign : Lexeme} {op : BinaryOperator} {right steps : List Lexeme}
    (spelled : operatorOf? operators.operators sign = some op)
    (operand : reading.Accepts operators.operand right) (more : reading.Accepts (.steps operators) steps) :
    reading.Reads (.steps operators) (sign :: (right ++ steps)) := by
  intro α reader isSign level count found soFar rest deep short rounds good stops
  simp only [List.length_cons, List.length_append] at deep short rounds
  cases count with
  | zero => omega
  | succ count =>
    rw [List.cons_append, List.append_assoc]
    have next := stops_steps more.derived stops operators.rank_pred_lt
    refine gives_step isSign spelled ((takes_operandOf operand).operandOf (by omega)
      (show _ ≤ reading.bound by omega) next) fun detail tree goodTree => ?_
    exact more.reads reader isSign level count _ soFar rest (by omega) (by omega) (by omega)
      (forall_mem_reverse_cons goodTree good) stops

theorem takes_run {level : Level} {first steps : List Lexeme} (operand : reading.Accepts level.operand first)
    (more : reading.Accepts (.steps level) steps) {α : Type} {sign : Reader (Option (BinaryOperator × α))}
    (isSign : level.IsSign sign) {make : Tree → List ((BinaryOperator × α) × Tree) → Tree}
    (made : ∀ {leftmost}, reading.Good leftmost → ∀ {run : List ((BinaryOperator × α) × Tree)},
      (∀ step ∈ run, reading.Good step.2) → reading.Good (make leftmost run)) :
    reading.Takes 1 level.rank (fun inner => run inner.bound sign (level.operand.reader inner) make)
      (first ++ steps) := by
  intro depth rest deep short stops
  rw [List.length_append] at deep short
  have takes := takes_operandOf operand
  have some := takes.length_pos_operand
  have next := stops_steps more.derived stops level.rank_pred_lt
  rw [List.append_assoc]
  refine gives_run (takes.operandOf (by omega) (show _ ≤ reading.bound by omega) next) fun leftmost good => ?_
  refine (more.reads sign isSign depth reading.bound [] (make leftmost) rest (by omega) (by omega) (by omega)
    nofun stops).imp fun run goodRun => ?_
  split
  · exact good
  · exact made good goodRun

theorem reads_run {level : Level} {first steps : List Lexeme} (operand : reading.Accepts level.operand first)
    (more : reading.Accepts (.steps level) steps) : reading.Reads (.run level) (first ++ steps) := by
  have arithmetic {leftmost : Tree} (good : reading.Good leftmost) {run : List ((BinaryOperator × Lexeme) × Tree)}
      (goodRun : ∀ step ∈ run, reading.Good step.2) : reading.Good (.arithmetic leftmost run) :=
    .arithmetic good goodRun
  have logical (start : Place) {leftmost : Tree} (good : reading.Good leftmost)
      {run : List ((BinaryOperator × Place) × Tree)} (goodRun : ∀ step ∈ run, reading.Good step.2) :
      reading.Good (.logical start leftmost run) :=
    .logical start good goodRun
  cases level with
  | product => exact takes_run operand more (isSign_arithmeticSign .product) arithmetic
  | sum => exact takes_run operand more (isSign_arithmeticSign .sum) arithmetic
  | conjunction =>
    exact fun depth rest deep short stops => Reader.Gives.place.bind fun start _ =>
      takes_run operand more (isSign_logicalSign .conjunction) (logical start) depth rest deep short stops
  | exclusion =>
    exact fun depth rest deep short stops => Reader.Gives.place.bind fun start _ =>
      takes_run operand more (isSign_logicalSign .exclusion) (logical start) depth rest deep short stops
  | disjunction =>
    exact fun depth rest deep short stops => Reader.Gives.place.bind fun start _ =>
      takes_run operand more (isSign_logicalSign .disjunction) (logical start) depth rest deep short stops

/-! ## Subscripts -/

theorem good_signedBy (sign : Lexeme) (start : Place) {tree : Tree} (good : reading.Good tree) :
    reading.Good (signedBy sign start tree) := by
  unfold signedBy
  split
  · exact .negation sign good
  · exact .affirmation sign good
  · exact .denial start good

theorem subscripts_of_accepts (accepts : reading.Accepts .subscripts lexemes) :
    reading.bounds.Subscripts reading.dialect reading.Good reading.Good lexemes where
  derived := accepts.derived
  gives level base rest deep short good other := accepts.reads level base rest deep short good other

/-- A subscript is read in front of those behind it. -/
theorem gives_subscripts {opening : Lexeme} (opened : opening.is .leftBracket = true) {level : Nat} {base : Tree}
    {ahead between rest : List Lexeme}
    (first : (subscript (reading.inner level).assignment opening base).Gives reading.Good ahead between)
    (more : ∀ base, reading.Good base → ((reading.inner level).subscripts base).Gives reading.Good between rest) :
    ((reading.inner (level + 1)).subscripts base).Gives reading.Good (opening :: ahead) rest := by
  refine Reader.Gives.bind (Reader.Gives.accepting opened) ?_
  rintro _ rfl
  exact first.bind more

theorem reads_noSubscript : reading.Reads .subscripts [] := by
  intro level base rest deep short good other
  have none : reading.bounds.Subscripts reading.dialect reading.Good reading.Good [] := .none
  exact none.gives level base rest deep short good other


theorem reads_size {opening closing : Lexeme} {subscripts : List Lexeme} (opened : opening.is .leftBracket = true)
    (closed : closing.is .rightBracket = true) (more : reading.Accepts .subscripts subscripts) :
    reading.Reads .subscripts (opening :: closing :: subscripts) := by
  intro level base rest deep short good other
  simp only [List.length_cons] at deep short
  cases level with
  | zero => omega
  | succ level =>
    exact gives_subscripts opened (.taking closed (.pure (.size opening good)))
      fun base good => more.reads level base rest (by omega) (by omega) good other

theorem reads_element {opening closing : Lexeme} {index subscripts : List Lexeme}
    (opened : opening.is .leftBracket = true) (place : reading.Accepts .assignment index)
    (closed : closing.is .rightBracket = true) (more : reading.Accepts .subscripts subscripts) :
    reading.Reads .subscripts (opening :: (index ++ closing :: subscripts)) := by
  intro level base rest deep short good other
  simp only [List.length_append, List.length_cons] at deep short
  rw [List.cons_append, List.append_assoc, List.cons_append]
  cases level with
  | zero => omega
  | succ level =>
    have begins : Begins Token.startsFormula index := place.derived.begins
    refine gives_subscripts opened ?_
      fun base good => more.reads level base rest (by omega) (by omega) good other
    refine .skipping (begins.startsWith_eq_false rfl _) (.skipping (begins.startsWith_eq_false rfl _) ?_)
    refine Reader.Gives.place.bind fun start _ => ?_
    refine ((takes_assignment place (by omega) (by omega) (.terminal closed (by decide) nofun _)).within _).bind
      fun index goodIndex => ?_
    refine .skipping (startsWith_cons_eq_false closed (by decide) _) ?_
    exact ((Reader.Gives.require closed _).within _).bind fun _ _ => .pure (.element opening start good goodIndex)

theorem gives_rangeEnd {closing : Lexeme} {last : List Lexeme}
    (upper : reading.Reads (.optional .assignment) last) (closed : closing.is .rightBracket = true) {level : Nat}
    (deep : last.length ≤ level) (short : last.length ≤ reading.bound) (bracket : Lexeme) {base first : Tree}
    (firstStart : Place) (good : reading.Good base) (goodFirst : reading.Good first) {rest : List Lexeme} :
    (rangeEnd (reading.inner level).assignment bracket base firstStart first).Gives reading.Good
      (last ++ closing :: rest) rest := by
  rcases upper with rfl | ⟨derived, reads⟩
  · exact .taking closed (.pure (.range bracket firstStart .ending good goodFirst (.number _)))
  · have begins : Begins Token.startsFormula last := derived.begins
    refine .skipping (begins.startsWith_eq_false rfl _) ?_
    refine Reader.Gives.place.bind fun lastStart _ => ?_
    refine ((takes_assignment ⟨derived, reads⟩ deep short (.terminal closed (by decide) nofun _)).within _).bind
      fun last goodLast => ?_
    exact ((Reader.Gives.require closed _).within _).bind
      fun _ _ => .pure (.range bracket firstStart lastStart good goodFirst goodLast)

theorem reads_range {opening colon closing : Lexeme} {first last subscripts : List Lexeme}
    (opened : opening.is .leftBracket = true) (lower : reading.Reads (.optional .assignment) first)
    (separated : colon.is .colon = true) (upper : reading.Reads (.optional .assignment) last)
    (closed : closing.is .rightBracket = true) (more : reading.Accepts .subscripts subscripts) :
    reading.Reads .subscripts (opening :: (first ++ colon :: (last ++ closing :: subscripts))) := by
  intro level base rest deep short good other
  simp only [List.length_append, List.length_cons] at deep short
  rw [List.cons_append, List.append_assoc, List.cons_append, List.append_assoc, List.cons_append]
  cases level with
  | zero => omega
  | succ level =>
    refine gives_subscripts opened ?_
      fun base good => more.reads level base rest (by omega) (by omega) good other
    have ending {firstStart : Place} {first : Tree} (goodFirst : reading.Good first) :
        (rangeEnd (reading.inner level).assignment opening base firstStart first).Gives reading.Good
          (last ++ closing :: (subscripts ++ rest)) (subscripts ++ rest) :=
      gives_rangeEnd upper closed (by omega) (by omega) opening firstStart good goodFirst
    rcases lower with rfl | ⟨derived, reads⟩
    · exact .skipping (startsWith_cons_eq_false separated (by decide) _) (.taking separated (ending (.number _)))
    · have begins : Begins Token.startsFormula first := derived.begins
      refine .skipping (begins.startsWith_eq_false rfl _) (.skipping (begins.startsWith_eq_false rfl _) ?_)
      refine Reader.Gives.place.bind fun start _ => ?_
      refine ((takes_assignment ⟨derived, reads⟩ (by omega) (by omega)
        (.terminal separated (by decide) nofun _)).within _).bind fun index goodIndex => ?_
      exact .taking separated (ending goodIndex)

/-! ## Statements and blocks -/

theorem reads_declared {word : Lexeme} {declaration : List Lexeme} (spelled : word.is .varWord = true)
    (more : reading.Accepts .declaration declaration) : reading.Reads .statement (word :: declaration) := by
  intro level rest deep short stops
  rw [List.length_cons] at deep short
  exact .taking spelled (more.reads level rest (by omega) (by omega) stops)

theorem gives_declaration {inner : Inner} {word : Lexeme} (name : word.token.isName = true) {ahead rest : List Lexeme}
    (gives : (declarationOf inner word).Gives reading.Good ahead rest) :
    (declaration inner).Gives reading.Good (word :: ahead) rest := by
  rcases word with ⟨token, text, position⟩
  cases token with
  | name found => exact gives
  | _ => cases name

theorem reads_zero {word : Lexeme} (name : word.token.isName = true) : reading.Reads .declaration [word] := by
  intro level rest _ _ stops
  refine gives_declaration name (.skipping (stops.startsWith_eq_false (by decide)) ?_)
  exact .skipping (stops.startsWith_eq_false (by decide)) (.pure (.declaration word .ending (.number 0.0)))

theorem reads_initialized {word sign : Lexeme} {value : List Lexeme} (name : word.token.isName = true)
    (assigned : sign.is .assign = true) (formula : reading.Accepts .assignment value) :
    reading.Reads .declaration (word :: sign :: value) := by
  intro level rest deep short stops
  simp only [List.length_cons] at deep short
  refine gives_declaration name (.skipping (startsWith_cons_eq_false assigned (by decide) _) (.taking assigned ?_))
  refine Reader.Gives.place.bind fun start _ => ?_
  refine ((takes_assignment formula (by omega) (by omega) stops).within _).bind fun value good => ?_
  exact .pure (.declaration word start good)

theorem gives_closedVectorSize {number closing : Lexeme} (sized : ∃ size, vectorSize? number.token = some size)
    (closed : closing.is .rightBracket = true) {rest : List Lexeme} :
    closedVectorSize.Gives (fun _ => True) (number :: closing :: rest) rest := by
  rcases sized with ⟨size, found⟩
  have taken : vectorSize.Gives (fun _ => True) (number :: closing :: rest) (closing :: rest) :=
    ⟨size, by rw [vectorSize, found], trivial⟩
  refine taken.bind fun size _ => ?_
  exact (Reader.Gives.require closed _).bind fun _ _ => .pure trivial

theorem reads_vector {word opening number closing : Lexeme} {initializer : List Lexeme}
    (name : word.token.isName = true) (opened : opening.is .leftBracket = true)
    (sized : reading.dialect.size number.token) (closed : closing.is .rightBracket = true)
    (filled : reading.Accepts .initializer initializer) :
    reading.Reads .declaration (word :: opening :: number :: closing :: initializer) := by
  intro level rest deep short stops
  simp only [List.length_cons] at deep short
  refine gives_declaration name (.taking opened ?_)
  refine ((gives_closedVectorSize (vectorSize?_of_isVectorSize sized) closed).within _).bind fun size _ => ?_
  exact filled.reads word size level rest (by omega) (by omega) stops

theorem reads_noInitializer : reading.Reads .initializer [] := by
  intro word size level rest _ _ stops
  exact .skipping (stops.startsWith_eq_false (by decide)) (.pure (.listedVector word size word nofun))

theorem gives_list {count : Nat} {elements : List Lexeme} (formulas : reading.Accepts (.list count) elements)
    {closing : Terminal} (isCloser : IsCloser closing) {bracket : Lexeme} (closed : bracket.is closing = true)
    {level : Nat} (deep : elements.length ≤ level) (short : elements.length ≤ reading.bound)
    (soFar : List (Place × Tree) → Tree) {rest : List Lexeme} :
    (list (reading.inner level) closing soFar).Gives
      (fun items => items.length = count ∧ ∀ one ∈ items, reading.Good one.2) (elements ++ bracket :: rest) rest := by
  cases count with
  | zero =>
    have empty : elements = [] := formulas.reads
    rw [empty]
    exact .taking closed (.pure ⟨rfl, nofun⟩)
  | succ more =>
    have begins : Begins Token.startsFormula elements := formulas.derived.begins
    have other : startsWith closing (elements ++ bracket :: rest) = false := by
      rcases isCloser with rfl | rfl <;> exact begins.startsWith_eq_false rfl _
    refine .skipping other ?_
    have reads := formulas.reads level reading.bound [] soFar closing bracket rest deep short short nofun
      isCloser closed
    rw [List.length_nil, Nat.zero_add] at reads
    exact reads

theorem reads_listed {sign opening closing : Lexeme} {count : Nat} {elements : List Lexeme}
    (assigned : sign.is .assign = true) (opened : opening.is .leftBrace = true)
    (formulas : reading.Accepts (.list count) elements) (closed : closing.is .rightBrace = true) :
    reading.Reads .initializer (sign :: opening :: (elements ++ [closing])) := by
  intro word size level rest deep short _
  simp only [List.length_cons, List.length_append, List.length_nil] at deep short
  rw [List.cons_append, List.cons_append, List.append_assoc]
  refine .taking assigned (Reader.Gives.bind (Reader.Gives.accepting opened) ?_)
  rintro _ rfl
  refine (gives_list formulas (.inr rfl) closed (by omega) (by omega) _).bind fun elements good => ?_
  exact .pure (.listedVector word size opening good.2)

theorem reads_filled {sign : Lexeme} {value : List Lexeme} (assigned : sign.is .assign = true)
    (filling : reading.dialect.filling value) (formula : reading.Accepts .assignment value) :
    reading.Reads .initializer (sign :: value) := by
  intro word size level rest deep short stops
  rw [List.length_cons] at deep short
  have noBrace : startsWith .leftBrace (value ++ rest) = false := by
    rcases formula.derived.begins with ⟨first, others, rfl, _⟩
    exact filling
  refine .taking assigned (Reader.Gives.bind (Reader.Gives.refusing noBrace) ?_)
  rintro _ rfl
  refine Reader.Gives.place.bind fun start _ => ?_
  refine ((takes_assignment formula (by omega) (by omega) stops).within _).bind fun value good => ?_
  exact .pure (.filledVector word size start good)

theorem gives_blockOf {bracket : Lexeme} {last : Tree} {earlier : List Tree}
    (good : ∀ one ∈ last :: earlier, reading.Good one) {rest : List Lexeme} :
    (blockOf bracket (last :: earlier)).Gives reading.Good rest rest := by
  rw [List.forall_mem_cons] at good
  cases earlier with
  | nil => exact .pure good.1
  | cons other others => exact .pure (.block (forall_mem_reverse good.2) good.1)

theorem statements_of_is (inner : Inner) {closing : Terminal} {bracket : Lexeme} (closed : bracket.is closing = true)
    (count : Nat) (found : List Tree) (rest : List Lexeme) :
    statements inner closing (count + 1) found (bracket :: rest) = blockOf bracket found rest := by
  rw [statements]
  exact if_pos closed

theorem reads_result {last after : List Lexeme} (statement : reading.Accepts .statement last)
    (trailing : reading.Reads .separator after) : reading.Reads .block (last ++ after) := by
  intro level count found closing bracket rest deep short rounds good isCloser closed
  have some : 0 < last.length := Begins.length_pos statement.derived.begins
  rw [List.length_append] at deep short rounds
  cases count with
  | zero => omega
  | succ count =>
    rw [List.append_assoc]
    refine .of_eq (statements_of_begins _ isCloser _ _ statement.derived.begins _) ?_
    rw [statements.next]
    have stops : Stops 9 (after ++ bracket :: rest) := by
      rcases trailing with rfl | ⟨semicolon, rfl, separated⟩
      · exact stops_closer isCloser closed rest
      · exact .semicolon separated (by decide) (startsWith_closer isCloser closed (by decide) rest)
    refine ((statement.reads level _ (by omega) (by omega) stops).within _).bind fun tree goodTree => ?_
    have goodAll := forall_mem_reverse_cons goodTree good
    rcases trailing with rfl | ⟨semicolon, rfl, separated⟩
    · refine .skipping (startsWith_closer isCloser closed (by decide) rest) ?_
      exact ((Reader.Gives.require closed _).within _).bind fun _ _ => gives_blockOf goodAll
    · refine .taking separated ?_
      cases count with
      | zero => rw [List.length_singleton] at rounds; omega
      | succ count =>
        rcases gives_blockOf goodAll with ⟨tree, read, goodTree⟩
        exact ⟨tree, (statements_of_is _ closed count _ rest).trans read, goodTree⟩

theorem reads_effect {first statements : List Lexeme} {semicolon : Lexeme}
    (statement : reading.Accepts .statement first) (separated : semicolon.is .semicolon = true)
    (more : reading.Accepts .block statements) : reading.Reads .block (first ++ semicolon :: statements) := by
  intro level count found closing bracket rest deep short rounds good isCloser closed
  have some : 0 < first.length := Begins.length_pos statement.derived.begins
  have begins : Begins Token.startsStatement statements := more.derived.begins
  rw [List.length_append, List.length_cons] at deep short rounds
  cases count with
  | zero => omega
  | succ count =>
    rw [List.append_assoc, List.cons_append]
    refine .of_eq (statements_of_begins _ isCloser _ _ statement.derived.begins _) ?_
    rw [statements.next]
    have stops : Stops 9 (semicolon :: (statements ++ bracket :: rest)) :=
      .semicolon separated (by decide) (begins.startsWith_eq_false rfl _)
    refine ((statement.reads level _ (by omega) (by omega) stops).within _).bind fun tree goodTree => ?_
    refine .taking separated ?_
    exact more.reads level count _ closing bracket rest (by omega) (by omega) (by omega)
      (forall_mem_reverse_cons goodTree good) isCloser closed

theorem gives_block {content : List Lexeme} (accepts : reading.Accepts .block content) {closing : Terminal}
    (isCloser : IsCloser closing) {bracket : Lexeme} (closed : bracket.is closing = true) {level : Nat}
    (deep : content.length ≤ level) (short : content.length < reading.bound) {rest : List Lexeme} :
    (block (reading.inner level) closing).Gives reading.Good (content ++ bracket :: rest) rest :=
  accepts.reads level reading.bound [] closing bracket rest deep (Nat.le_of_lt short) short nofun isCloser closed

/-! ## Literals, names, calls and blocks -/

theorem reads_lastItem (formula : reading.Accepts .assignment lexemes) : reading.Reads (.list 1) lexemes := by
  intro level count found soFar closing bracket rest deep short rounds good isCloser closed
  have some := Begins.length_pos formula.derived.begins
  cases count with
  | zero => omega
  | succ count =>
    rw [items]
    refine Reader.Gives.place.bind fun start _ => ?_
    refine ((takes_assignment formula deep short (stops_closer isCloser closed rest)).within _).bind
      fun item goodItem => ?_
    refine .skipping (startsWith_closer isCloser closed (by decide) rest) ?_
    refine ((Reader.Gives.require closed _).within _).bind fun _ _ => .pure ⟨?_, ?_⟩
    · rw [List.length_reverse, List.length_cons]
    · exact forall_mem_reverse (List.forall_mem_cons.mpr ⟨goodItem, good⟩)

theorem reads_nextItem {comma : Lexeme} {more : Nat} {first others : List Lexeme}
    (formula : reading.Accepts .assignment first) (separated : comma.is .comma = true)
    (following : reading.Accepts (.list (more + 1)) others) :
    reading.Reads (.list (more + 2)) (first ++ comma :: others) := by
  intro level count found soFar closing bracket rest deep short rounds good isCloser closed
  simp only [List.length_append, List.length_cons] at deep short rounds
  rw [List.append_assoc, List.cons_append]
  cases count with
  | zero => omega
  | succ count =>
    rw [items]
    refine Reader.Gives.place.bind fun start _ => ?_
    refine ((takes_assignment formula (by omega) (by omega) (.terminal separated (by decide) nofun _)).within _).bind
      fun item goodItem => ?_
    refine .taking separated ?_
    have goodFound : ∀ one ∈ (start, item) :: found, reading.Good one.2 :=
      List.forall_mem_cons.mpr ⟨goodItem, good⟩
    have reads := following.reads level count _ soFar closing bracket rest (by omega) (by omega) (by omega)
      goodFound isCloser closed
    rw [List.length_cons, Nat.add_right_comm _ 1 more] at reads
    exact reads

theorem reads_literal {word : Lexeme} (spelled : word.token.isLiteral = true) :
    reading.Reads .primary [word] := by
  intro level rest _ _ _
  rcases word with ⟨token, text, position⟩
  cases token with
  | number value => exact ⟨.number value, rfl, .number value⟩
  | text content => exact ⟨.text content, rfl, .text content⟩
  | name _ => cases spelled
  | fixed terminal =>
    cases terminal with
    | trueWord => exact ⟨.number 1.0, rfl, .number 1.0⟩
    | falseWord => exact ⟨.number 0.0, rfl, .number 0.0⟩
    | _ => cases spelled

theorem reads_name {word : Lexeme} (isName : word.token.isName = true) (value : reading.dialect.value word) :
    reading.Reads .primary [word] := by
  have takes : reading.bounds.Takes reading.dialect reading.Good .primary [word] :=
    .name isName value value.1 (Tree.Proceeds.name reading.unaided value.2)
  exact takes.gives

theorem reads_call {word opening closing : Lexeme} {count : Nat} {arguments : List Lexeme}
    (isName : word.token.isName = true) (opened : opening.is .leftParen = true)
    (formulas : reading.Accepts (.list count) arguments) (closed : closing.is .rightParen = true)
    (callable : reading.dialect.call word count) :
    reading.Reads .primary (word :: opening :: (arguments ++ [closing])) := by
  intro level rest deep short _
  simp only [List.length_cons, List.length_append, List.length_nil] at deep short
  rw [List.cons_append, List.cons_append, List.append_assoc]
  refine gives_nameForm isName fun name same => .taking opened ?_
  refine (gives_list formulas (.inl rfl) closed (by omega) (by omega) _).bind fun arguments good => ?_
  have accepts : Compile.Accepts reading.environment reading.world word arguments.length := by
    rw [good.1]
    exact callable
  exact Reader.Gives.remaining.bind fun behind _ => .pure (.call accepts good.2 behind)

theorem reads_parentheses {opening closing : Lexeme} {content : List Lexeme}
    (opened : opening.is .leftParen = true) (accepts : reading.Accepts .block content)
    (closed : closing.is .rightParen = true) :
    reading.Reads .primary (opening :: (content ++ [closing])) := by
  intro level rest deep short _
  simp only [List.length_cons, List.length_append, List.length_nil] at deep short
  rw [List.cons_append, List.append_assoc]
  exact gives_primary opened (fun _ _ _ => rfl) (gives_block accepts (.inl rfl) closed (by omega) (by omega))

theorem reads_braces {opening closing : Lexeme} {content : List Lexeme}
    (opened : opening.is .leftBrace = true) (accepts : reading.Accepts .block content)
    (closed : closing.is .rightBrace = true) :
    reading.Reads .primary (opening :: (content ++ [closing])) := by
  intro level rest deep short _
  simp only [List.length_cons, List.length_append, List.length_nil] at deep short
  rw [List.cons_append, List.append_assoc]
  exact gives_primary opened (fun _ _ _ => rfl) (gives_block accepts (.inr rfl) closed (by omega) (by omega))

/-! ## Forms -/

theorem reads_bracedBody {opening closing : Lexeme} {content : List Lexeme}
    (opened : opening.is .leftBrace = true) (accepts : reading.Accepts .block content)
    (closed : closing.is .rightBrace = true) :
    reading.Reads .body (opening :: (content ++ [closing])) := by
  intro level rest deep short
  simp only [List.length_cons, List.length_append, List.length_nil] at deep short
  rw [List.cons_append, List.append_assoc]
  exact .taking opened (gives_block accepts (.inr rfl) closed (by omega) (by omega))

theorem takesElse_of_stops {rest : List Lexeme} (stops : Stops 0 rest) : takesElse rest = .ok (false, rest) := by
  have noElse : Reader.takes .elseWord rest = .ok (false, rest) :=
    Reader.takes_of_not (stops.startsWith_eq_false (by decide))
  cases rest with
  | nil => exact noElse
  | cons first others =>
    cases others with
    | nil => exact noElse
    | cons second others =>
      refine (if_neg fun both => ?_).trans noElse
      rw [Bool.and_eq_true] at both
      have apart : second.is .elseWord = false := stops.2 both.1
      rw [both.2] at apart
      cases apart

theorem reads_noOtherwise : reading.Reads .otherwise [] := by
  intro start condition branch consequent goodCondition goodConsequent level rest _ _ stops
  refine Reader.Gives.bind ⟨false, takesElse_of_stops stops, rfl⟩ ?_
  rintro _ rfl
  exact .pure (.conditionalOnly start branch goodCondition goodConsequent)

theorem takesElse_of_is {word : Lexeme} {before : List Lexeme} (separated : reading.Reads .separator before)
    (spelled : word.is .elseWord = true) (rest : List Lexeme) :
    takesElse (before ++ word :: rest) = .ok (true, rest) := by
  rcases separated with rfl | ⟨semicolon, rfl, semicolonSpelled⟩
  · have direct : Reader.takes .elseWord (word :: rest) = .ok (true, rest) := Reader.takes_of_is spelled rest
    cases rest with
    | nil => exact direct
    | cons second others =>
      refine (if_neg fun both => ?_).trans direct
      rw [Lexeme.is_eq_false_of_ne spelled (by decide)] at both
      cases both
  · refine if_pos ?_
    rw [semicolonSpelled, spelled]
    rfl

theorem reads_otherwise {word : Lexeme} {before branch : List Lexeme} (separated : reading.Reads .separator before)
    (spelled : word.is .elseWord = true) (more : reading.Accepts .body branch) :
    reading.Reads .otherwise (before ++ word :: branch) := by
  intro start condition branchStart consequent goodCondition goodConsequent level rest deep short _
  simp only [List.length_append, List.length_cons] at deep short
  rw [List.append_assoc, List.cons_append]
  refine Reader.Gives.bind ⟨true, takesElse_of_is separated spelled _, rfl⟩ ?_
  rintro _ rfl
  refine ((more.reads level rest (by omega) (by omega)).within _).bind fun alternative good => ?_
  exact .pure (.conditional start branchStart goodCondition goodConsequent good)

theorem reads_ifFunction {word opening comma second closing : Lexeme}
    {condition consequent alternative : List Lexeme} (spelled : word.is .ifWord = true)
    (opened : opening.is .leftParen = true) (asked : reading.Accepts .assignment condition)
    (separated : comma.is .comma = true) (first : reading.Accepts .assignment consequent)
    (separatedAgain : second.is .comma = true) (last : reading.Accepts .assignment alternative)
    (closed : closing.is .rightParen = true) :
    reading.Reads .primary
      (word :: opening :: (condition ++ comma :: (consequent ++ second :: (alternative ++ [closing])))) := by
  intro level rest deep short _
  simp only [List.length_cons, List.length_append, List.length_nil] at deep short
  simp only [List.cons_append, List.append_assoc, List.nil_append]
  refine gives_primary spelled (fun _ _ _ => rfl) ?_
  refine (Reader.Gives.require opened _).bind fun _ _ => ?_
  refine Reader.Gives.place.bind fun start _ => ?_
  refine (takes_assignment asked (by omega) (by omega) (.terminal separated (by decide) nofun _)).bind
    fun condition goodCondition => .taking separated ?_
  refine Reader.Gives.place.bind fun branch _ => ?_
  refine ((takes_assignment first (by omega) (by omega)
    (.terminal separatedAgain (by decide) nofun _)).within _).bind fun consequent goodConsequent => ?_
  refine Reader.Gives.within ((Reader.Gives.require separatedAgain _).bind fun _ _ => ?_) _
  refine (takes_assignment last (by omega) (by omega) (.terminal closed (by decide) nofun _)).bind
    fun alternative good => ?_
  refine ((Reader.Gives.require closed _).within _).bind fun _ _ => ?_
  exact .pure (.conditional start branch goodCondition goodConsequent good)

theorem reads_ifStatement {word opening closing : Lexeme} {condition consequent alternative : List Lexeme}
    (spelled : word.is .ifWord = true) (opened : opening.is .leftParen = true)
    (asked : reading.Accepts .assignment condition) (closed : closing.is .rightParen = true)
    (first : reading.Accepts .body consequent) (second : reading.Accepts .otherwise alternative) :
    reading.Reads .primary (word :: opening :: (condition ++ closing :: (consequent ++ alternative))) := by
  intro level rest deep short stops
  simp only [List.length_cons, List.length_append] at deep short
  simp only [List.cons_append, List.append_assoc]
  refine gives_primary spelled (fun _ _ _ => rfl) ?_
  refine (Reader.Gives.require opened _).bind fun _ _ => ?_
  refine Reader.Gives.place.bind fun start _ => ?_
  refine (takes_assignment asked (by omega) (by omega) (.terminal closed (by decide) nofun _)).bind
    fun condition goodCondition => .skipping (startsWith_cons_eq_false closed (by decide) _) ?_
  have branches {branch : Place} {read : Tree} (good : reading.Good read) :
      (secondBranch (reading.inner level) start condition branch read).Gives reading.Good
        (alternative ++ rest) rest :=
    second.reads start condition branch read goodCondition good level rest (by omega) (by omega) stops
  refine Reader.Gives.bind (.within ((Reader.Gives.require closed _).bind fun _ _ =>
    Reader.Gives.place.bind fun branch _ => ?_) _) fun pair good => branches good
  exact (first.reads level _ (by omega) (by omega)).bind fun consequent good => .pure good

theorem reads_whileLoop {word opening closing : Lexeme} {condition governed : List Lexeme}
    (spelled : word.is .whileWord = true) (opened : opening.is .leftParen = true)
    (asked : reading.Accepts .assignment condition) (closed : closing.is .rightParen = true)
    (more : reading.Accepts .body governed) :
    reading.Reads .primary (word :: opening :: (condition ++ closing :: governed)) := by
  intro level rest deep short _
  simp only [List.length_cons, List.length_append] at deep short
  simp only [List.cons_append, List.append_assoc]
  refine gives_primary spelled (fun _ _ _ => rfl) ?_
  refine (Reader.Gives.require opened _).bind fun _ _ => ?_
  refine Reader.Gives.place.bind fun start _ => ?_
  refine (takes_assignment asked (by omega) (by omega) (.terminal closed (by decide) nofun _)).bind
    fun condition goodCondition => ?_
  refine Reader.Gives.within ((Reader.Gives.require closed _).bind fun _ _ => ?_) _
  refine (more.reads level rest (by omega) (by omega)).bind fun body good => ?_
  exact .pure (.loop start (.number 0.0) goodCondition (.number 0.0) good)

theorem gives_clause {ending : Terminal} {absent : Tree} {present : Reader Tree} {first : Lexeme}
    (ended : first.is ending = true) (good : reading.Good absent) {rest : List Lexeme}
    (gives : lexemes = [] ∨ startsWith ending (lexemes ++ first :: rest) = false ∧
      present.Gives reading.Good (lexemes ++ first :: rest) (first :: rest)) :
    (clause ending absent present).Gives reading.Good (lexemes ++ first :: rest) (first :: rest) := by
  refine (Reader.Gives.sees ending).bind ?_
  rintro _ rfl
  rcases gives with rfl | ⟨other, gives⟩
  · have sees : startsWith ending ([] ++ first :: rest) = true := ended
    rw [if_pos sees]
    exact .pure good
  · rw [if_neg (Bool.eq_false_iff.mp other)]
    exact gives

/-- A statement that may be left out, as the clause of a loop. -/
theorem gives_statementClause {clauseLexemes : List Lexeme}
    (read : reading.Reads (.optional .statement) clauseLexemes) {ending : Terminal} {first : Lexeme}
    (ended : first.is ending = true) (apart : Token.startsStatement (.fixed ending) = false) {level : Nat}
    (deep : clauseLexemes.length ≤ level) (short : clauseLexemes.length ≤ reading.bound) {rest : List Lexeme}
    (stops : Stops 9 (first :: rest)) :
    (clause ending nothing (statement (reading.inner level))).Gives reading.Good
      (clauseLexemes ++ first :: rest) (first :: rest) := by
  refine gives_clause ended (.number 0.0) ?_
  rcases read with rfl | ⟨derived, reads⟩
  · exact .inl rfl
  · have begins : Begins Token.startsStatement clauseLexemes := derived.begins
    exact .inr ⟨begins.startsWith_eq_false apart _, reads level _ deep short stops⟩

/-- No second branch comes next where a clause stands that may be left out. -/
theorem startsWith_clause (clause : lexemes = [] ∨ Begins Token.startsStatement lexemes) {ending : Terminal}
    {first : Lexeme} (ended : first.is ending = true) (apart : ending ≠ .elseWord) (rest : List Lexeme) :
    startsWith .elseWord (lexemes ++ first :: rest) = false := by
  rcases clause with rfl | begins
  · exact startsWith_cons_eq_false ended apart rest
  · exact begins.startsWith_eq_false rfl _

theorem reads_forLoop {word opening first second closing : Lexeme} {start condition step governed : List Lexeme}
    (spelled : word.is .forWord = true) (opened : opening.is .leftParen = true)
    (initialized : reading.Reads (.optional .statement) start) (separated : first.is .semicolon = true)
    (asked : reading.Reads (.optional .assignment) condition) (separatedAgain : second.is .semicolon = true)
    (stepped : reading.Reads (.optional .statement) step) (closed : closing.is .rightParen = true)
    (more : reading.Accepts .body governed) :
    reading.Reads .primary
      (word :: opening :: (start ++ first :: (condition ++ second :: (step ++ closing :: governed)))) := by
  intro level rest deep short _
  simp only [List.length_cons, List.length_append] at deep short
  simp only [List.cons_append, List.append_assoc]
  have noElse : startsWith .elseWord (condition ++ second :: (step ++ closing :: (governed ++ rest))) = false := by
    refine startsWith_clause ?_ separatedAgain (by decide) _
    exact asked.imp_right fun present =>
      Begins.imp present.1.begins fun _ => Token.startsStatement_of_startsFormula
  have noElseAgain : startsWith .elseWord (step ++ closing :: (governed ++ rest)) = false :=
    startsWith_clause (stepped.imp_right fun present => present.1.begins) closed (by decide) _
  refine gives_primary spelled (fun _ _ _ => rfl) ?_
  refine (Reader.Gives.require opened _).bind fun _ _ => ?_
  refine (gives_statementClause initialized separated rfl (by omega) (by omega)
    (.semicolon separated (by decide) noElse)).bind fun initializer goodInitializer => ?_
  have conditions : (clause .semicolon (.number 1.0) (reading.inner level).assignment).Gives reading.Good
      (condition ++ second :: (step ++ closing :: (governed ++ rest)))
      (second :: (step ++ closing :: (governed ++ rest))) := by
    refine gives_clause separatedAgain (.number 1.0) ?_
    rcases asked with rfl | ⟨derived, reads⟩
    · exact .inl rfl
    · have begins : Begins Token.startsFormula condition := derived.begins
      exact .inr ⟨begins.startsWith_eq_false rfl _, takes_assignment ⟨derived, reads⟩ (by omega) (by omega)
        (.semicolon separatedAgain (by decide) noElseAgain)⟩
  have placed {start : Place} {tree : Tree} (good : reading.Good tree) :
      (Pure.pure (start, tree) : Reader (Place × Tree)).Gives (fun pair => reading.Good pair.2)
        (second :: (step ++ closing :: (governed ++ rest))) (second :: (step ++ closing :: (governed ++ rest))) :=
    .pure good
  refine Reader.Gives.bind (.within ((Reader.Gives.require separated _).bind fun _ _ =>
    Reader.Gives.place.bind fun start _ => conditions.bind fun condition good => placed good) _)
      fun pair goodCondition => ?_
  refine Reader.Gives.bind (.within ((Reader.Gives.require separatedAgain _).bind fun _ _ =>
    gives_statementClause stepped closed rfl (by omega) (by omega) (.terminal closed (by decide) nofun _)) _)
      fun step goodStep => ?_
  refine Reader.Gives.within ((Reader.Gives.require closed _).bind fun _ _ => ?_) _
  refine (more.reads level rest (by omega) (by omega)).bind fun body good => ?_
  exact .pure (.loop pair.1 goodInitializer goodCondition goodStep good)

theorem reads_noCase : reading.Reads .cases [] := by
  intro level count found rest _ _ _ good other _
  have good := forall_mem_reverse good
  cases count with
  | zero => exact .pure good
  | succ count =>
    rw [Grammar.cases]
    exact .skipping other (.pure good)

theorem startsWith_cases {dialect : Dialect} (cases : Derives dialect .cases lexemes) {rest : List Lexeme}
    (noElse : startsWith .elseWord rest = false) : startsWith .elseWord (lexemes ++ rest) = false := by
  cases cases with
  | noCase => exact noElse
  | case spelled _ _ _ _ _ => exact startsWith_cons_eq_false spelled (by decide) _

theorem reads_case {word colon semicolon : Lexeme} {condition value others : List Lexeme}
    (spelled : word.is .caseWord = true) (asked : reading.Accepts .assignment condition)
    (separated : colon.is .colon = true) (formula : reading.Accepts .assignment value)
    (ended : semicolon.is .semicolon = true) (more : reading.Accepts .cases others) :
    reading.Reads .cases (word :: (condition ++ colon :: (value ++ semicolon :: others))) := by
  intro level count found rest deep short rounds good other noElse
  simp only [List.length_cons, List.length_append] at deep short rounds
  simp only [List.cons_append, List.append_assoc]
  have noElseBehind := startsWith_cases more.derived noElse
  cases count with
  | zero => omega
  | succ count =>
    rw [Grammar.cases]
    refine .taking spelled (Reader.Gives.place.bind fun start _ => ?_)
    refine ((takes_assignment asked (by omega) (by omega)
      (.terminal separated (by decide) nofun _)).within _).bind fun condition goodCondition => ?_
    have results : (do
        let _ ← Reader.require .colon .caseColon
        let resultStart ← Reader.place
        let result ← (reading.inner level).assignment
        pure (resultStart, result) : Reader (Place × Tree)).Gives (fun pair => reading.Good pair.2)
          (colon :: (value ++ semicolon :: (others ++ rest))) (semicolon :: (others ++ rest)) := by
      refine (Reader.Gives.require separated _).bind fun _ _ => Reader.Gives.place.bind fun start _ => ?_
      refine (takes_assignment formula (by omega) (by omega) (.semicolon ended (by decide) noElseBehind)).bind
        fun result good => .pure good
    refine (results.within _).bind fun pair goodResult => ?_
    refine ((Reader.Gives.require ended _).within _).bind fun _ _ => ?_
    exact more.reads level count _ rest (by omega) (by omega) (by omega)
      (List.forall_mem_cons.mpr ⟨⟨goodCondition, goodResult⟩, good⟩) other noElse

theorem reads_choice {word opening keyword colon closing : Lexeme} {found otherwise after : List Lexeme}
    (spelled : word.is .switchWord = true) (opened : opening.is .leftBrace = true)
    (tested : reading.Accepts .cases found) (defaulted : keyword.is .defaultWord = true)
    (separated : colon.is .colon = true) (formula : reading.Accepts .assignment otherwise)
    (trailing : reading.Reads .separator after) (closed : closing.is .rightBrace = true) :
    reading.Reads .primary
      (word :: opening :: (found ++ keyword :: colon :: (otherwise ++ (after ++ [closing])))) := by
  intro level rest deep short _
  simp only [List.length_cons, List.length_append, List.length_nil] at deep short
  simp only [List.cons_append, List.append_assoc, List.nil_append]
  have ends : (Reader.takes .semicolon).Gives (fun _ => True) (after ++ closing :: rest) (closing :: rest) := by
    rcases trailing with rfl | ⟨semicolon, rfl, ended⟩
    · exact ⟨false, Reader.takes_of_not (startsWith_cons_eq_false closed (by decide) rest), trivial⟩
    · exact ⟨true, Reader.takes_of_is ended _, trivial⟩
  have stops : Stops 9 (after ++ closing :: rest) := by
    rcases trailing with rfl | ⟨semicolon, rfl, ended⟩
    · exact .terminal closed (by decide) nofun rest
    · exact .semicolon ended (by decide) (startsWith_cons_eq_false closed (by decide) rest)
  have result (cases : List ((Place × Tree) × (Place × Tree)))
      (good : ∀ one ∈ cases, reading.Good one.1.2 ∧ reading.Good one.2.2) : (do
        let _ ← Reader.require .defaultWord .caseOrDefault
        let _ ← Reader.require .colon .defaultColon
        let start ← Reader.place
        let otherwise ← (reading.inner level).assignment
        pure (.choice cases start otherwise) : Reader Tree).Gives reading.Good
          (keyword :: colon :: (otherwise ++ (after ++ closing :: rest))) (after ++ closing :: rest) := by
    refine (Reader.Gives.require defaulted _).bind fun _ _ => ?_
    refine (Reader.Gives.require separated _).bind fun _ _ => ?_
    refine Reader.Gives.place.bind fun start _ => ?_
    refine (takes_assignment formula (by omega) (by omega) stops).bind fun otherwise goodOtherwise => ?_
    exact .pure (.choice good start goodOtherwise)
  refine gives_primary spelled (fun _ _ _ => rfl) ?_
  refine (Reader.Gives.require opened _).bind fun _ _ => ?_
  have read := tested.reads level reading.bound [] (keyword :: colon :: (otherwise ++ (after ++ closing :: rest)))
    (by omega) (by omega) (by omega) (List.forall_mem_nil _) (startsWith_cons_eq_false defaulted (by decide) _)
    (startsWith_cons_eq_false defaulted (by decide) _)
  refine read.bind fun cases goodCases => ?_
  refine ((result cases goodCases).within _).bind fun tree good => ?_
  refine ends.bind fun _ _ => ?_
  exact ((Reader.Gives.require closed _).within _).bind fun _ _ => .pure good

/-! ## All phrases -/

theorem reads_of_derives {phrase : Phrase} (derived : Derives reading.dialect phrase lexemes) :
    reading.Reads phrase lexemes := by
  induction derived with
  | lastStatement _ _ _ _ => exact trivial
  | nextStatement _ _ _ _ _ _ => exact trivial
  | noSeparator => exact .inl rfl
  | separator spelled => exact .inr ⟨_, rfl, spelled⟩
  | result statement _ readsStatement trailing => exact reads_result ⟨statement, readsStatement⟩ trailing
  | effect statement separated more readsStatement readsMore =>
    exact reads_effect ⟨statement, readsStatement⟩ separated ⟨more, readsMore⟩
  | declared spelled declaration reads => exact reads_declared spelled ⟨declaration, reads⟩
  | formula assignment reads => exact (takes assignment reads trivial).formula.gives
  | zero name => exact reads_zero name
  | initialized name assigned formula reads => exact reads_initialized name assigned ⟨formula, reads⟩
  | vector name opened sized closed filled reads => exact reads_vector name opened sized closed ⟨filled, reads⟩
  | noInitializer => exact reads_noInitializer
  | listed assigned opened formulas closed reads => exact reads_listed assigned opened ⟨formulas, reads⟩ closed
  | filled assigned filling formula reads => exact reads_filled assigned filling ⟨formula, reads⟩
  | unassigned conditional reads => exact (takes conditional reads trivial).unassigned.gives
  | assigned name assigned formula reads =>
    exact (Bounds.Takes.assigned name assigned (takes formula reads trivial)
      (.assignment reading.unaided _ _)).gives
  | elementAssigned name opened place closed assigned formula readsPlace reads =>
    exact (Bounds.Takes.elementAssigned name opened (takes place readsPlace trivial) closed assigned
      (takes formula reads trivial) fun start => .elementAssignment reading.unaided _ start _).gives
  | unconditional disjunction reads => exact (takes disjunction reads trivial).unconditional.gives
  | chosen disjunction asked first separated second reads readsFirst readsSecond =>
    exact (Bounds.Takes.chosen (takes disjunction reads trivial) asked (takes first readsFirst trivial) separated
      (takes second readsSecond trivial) fun start branch => .conditional start branch).gives
  | run operand steps reads readsSteps => exact reads_run ⟨operand, reads⟩ ⟨steps, readsSteps⟩
  | noStep => exact reads_noStep _
  | step spelled operand steps reads readsSteps => exact reads_step spelled ⟨operand, reads⟩ ⟨steps, readsSteps⟩
  | unrelated sum reads => exact (takes sum reads trivial).unrelated.gives
  | related first spelled second reads readsSecond =>
    exact (Bounds.Takes.related (takes first reads trivial) spelled (takes second readsSecond trivial)
      (.relation _)).gives
  | signed spelled operand reads =>
    exact (Bounds.Takes.signed spelled (takes operand reads trivial) (good_signedBy _)).gives
  | unsigned power reads => exact (takes power reads trivial).unsigned.gives
  | base primary subscripts reads readsMore => 
    exact (Bounds.Takes.base (takes primary reads trivial) (subscripts_of_accepts ⟨subscripts, readsMore⟩)).gives
  | raised primary subscripts spelled operand reads readsMore readsOperand =>
    exact (Bounds.Takes.raised (takes primary reads trivial) (subscripts_of_accepts ⟨subscripts, readsMore⟩) spelled
      (takes operand readsOperand trivial)
      fun base exponent => .arithmetic base (List.forall_mem_singleton.mpr exponent)).gives
  | noSubscript => exact reads_noSubscript
  | size opened closed more reads => exact reads_size opened closed ⟨more, reads⟩
  | element opened place closed more reads readsMore =>
    exact reads_element opened ⟨place, reads⟩ closed ⟨more, readsMore⟩
  | range opened _ separated _ closed more lower upper reads =>
    exact reads_range opened lower separated upper closed ⟨more, reads⟩
  | absent => exact .inl rfl
  | present derived reads => exact .inr ⟨derived, reads⟩
  | literal spelled => exact reads_literal spelled
  | name isName value => exact reads_name isName value
  | call name opened formulas closed callable reads =>
    exact reads_call name opened ⟨formulas, reads⟩ closed callable
  | parentheses opened block closed reads => exact reads_parentheses opened ⟨block, reads⟩ closed
  | braces opened block closed reads => exact reads_braces opened ⟨block, reads⟩ closed
  | noItem => exact rfl
  | lastItem formula reads => exact reads_lastItem ⟨formula, reads⟩
  | nextItem formula separated more reads readsMore =>
    exact reads_nextItem ⟨formula, reads⟩ separated ⟨more, readsMore⟩
  | ifFunction spelled opened asked separated first separatedAgain last closed reads readsFirst readsLast =>
    exact reads_ifFunction spelled opened ⟨asked, reads⟩ separated ⟨first, readsFirst⟩ separatedAgain
      ⟨last, readsLast⟩ closed
  | ifStatement spelled opened asked closed first second reads readsFirst readsSecond =>
    exact reads_ifStatement spelled opened ⟨asked, reads⟩ closed ⟨first, readsFirst⟩ ⟨second, readsSecond⟩
  | whileLoop spelled opened asked closed body reads readsBody =>
    exact reads_whileLoop spelled opened ⟨asked, reads⟩ closed ⟨body, readsBody⟩
  | forLoop spelled opened _ separated _ separatedAgain _ closed body initialized asked stepped readsBody =>
    exact reads_forLoop spelled opened initialized separated asked separatedAgain stepped closed ⟨body, readsBody⟩
  | choice spelled opened tested defaulted separated formula _ closed reads readsFormula trailing =>
    exact reads_choice spelled opened ⟨tested, reads⟩ defaulted separated ⟨formula, readsFormula⟩ trailing closed
  | noCase => exact reads_noCase
  | case spelled asked separated formula ended more reads readsFormula readsMore =>
    exact reads_case spelled ⟨asked, reads⟩ separated ⟨formula, readsFormula⟩ ended ⟨more, readsMore⟩
  | bracedBody opened block closed reads => exact reads_bracedBody opened ⟨block, reads⟩ closed
  | looseBody allowed _ _ => cases allowed
  | noOtherwise => exact reads_noOtherwise
  | otherwise _ spelled body separated reads => exact reads_otherwise separated spelled ⟨body, reads⟩

/-! ## Statements of a program -/

theorem startsWith_program {dialect : Dialect} (derived : Derives dialect .program lexemes) :
    startsWith .elseWord lexemes = false := by
  have begins {before only rest : List Lexeme} (leading : ∀ one ∈ before, one.is .semicolon = true)
      (statement : Derives dialect .statement only) :
      startsWith .elseWord (before ++ (only ++ rest)) = false := by
    cases before with
    | nil => exact Begins.startsWith_eq_false statement.begins rfl rest
    | cons first others =>
      exact startsWith_cons_eq_false (leading first (List.mem_cons_self ..)) (by decide) _
  cases derived with
  | lastStatement leading statement _ => exact begins leading statement
  | nextStatement leading statement _ _ => exact begins leading statement

theorem gives_endedStatement {only rest : List Lexeme} (accepts : reading.Accepts .statement only)
    (ended : startsWith .semicolon rest = true ∨ rest = []) (noElse : startsWith .elseWord rest.tail = false)
    {level : Nat} (deep : only.length ≤ level) (short : only.length ≤ reading.bound) :
    (endedStatement (reading.inner level)).Gives reading.Good (only ++ rest) rest.tail := by
  have stops : Stops 9 rest := by
    cases rest with
    | nil => exact trivial
    | cons first others =>
      rcases ended with semicolon | empty
      · exact .semicolon semicolon (by decide) noElse
      · cases empty
  have ending : statementEnd.Gives (fun _ => True) rest rest.tail := by
    cases rest with
    | nil => exact ⟨(), rfl, trivial⟩
    | cons first others =>
      rcases ended with semicolon | empty
      · exact ⟨(), if_pos semicolon, trivial⟩
      · cases empty
  refine (accepts.reads level rest deep short stops).bind fun tree good => ?_
  exact (ending.within _).bind fun _ _ => .pure good

end Reading

end Grammar

end LiveExpr
