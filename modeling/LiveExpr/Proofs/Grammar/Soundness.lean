import LiveExpr.Proofs.Grammar.Contracts
import LiveExpr.Proofs.Grammar.Lookahead
import LiveExpr.Proofs.Grammar.Proper

/-!
Readers take what the grammar derives. Where a reader comes to its end, the lexemes that it took derive from its phrase;
where it stops, the tree that it leaves cannot be compiled.
-/

namespace LiveExpr

namespace Grammar

abbrev Phrase.ReadBy {α : Type} (phrase : Phrase) (reader : Reader α) : Prop :=
  reader.Reads fun taken _ => Derives .documented phrase taken

/-- Whether the readers of the next deeper level take what the grammar derives. -/
structure Inner.Sound (inner : Inner) : Prop where
  assignment : Phrase.assignment.ReadBy inner.assignment
  operand : Phrase.unary.ReadBy inner.operand
  subscripts (base : Tree) : Phrase.subscripts.ReadBy (inner.subscripts base)

variable {inner : Inner}

/-! ## Repetitions -/

def ReadsSign {α : Type} (level : Level) (taken : List Lexeme) (found : Option α) : Prop :=
  (found = none ∧ taken = []) ∨
    found.isSome = true ∧ ∃ sign op, taken = [sign] ∧ operatorOf? level.operators sign = some op

theorem halts_reverse {α : Type} (one : α) {stopped : Tree} (halts : stopped.Halts) (found : List (α × Tree)) :
    ∃ step ∈ ((one, stopped) :: found).reverse, step.2.Halts :=
  ⟨(one, stopped), List.mem_reverse.mpr (List.mem_cons_self ..), halts⟩

section Runs

variable {α : Type} {level : Level} {sign : Reader (Option α)} {operand : Reader Tree}
  (signs : sign.Reads (ReadsSign level)) (operands : level.operand.ReadBy operand)

include signs operands

theorem operators_sound {make : List (α × Tree) → Tree}
    (halts : ∀ run, (∃ step ∈ run, step.2.Halts) → (make run).Halts) (bound : Nat) (found : List (α × Tree)) :
    (Phrase.steps level).ReadBy (operators sign operand make bound found) := by
  induction bound generalizing found with
  | zero => exact .pure .noStep
  | succ bound induction =>
    refine signs.bind ?_
    rintro _ found? (⟨rfl, rfl⟩ | ⟨isSome, sign, op, rfl, spelled⟩)
    · exact .pure .noStep
    · cases found? with
      | none => cases isSome
      | some one =>
        refine (operands.within fun stopped halted => halts _ (halts_reverse one halted found)).bind ?_
        intro right _ derived
        refine (induction _).imp fun more _ steps => ?_
        have step := Derives.step spelled derived steps
        exact step

theorem run_sound {make : Tree → List (α × Tree) → Tree}
    (halts : ∀ first run, (∃ step ∈ run, step.2.Halts) → (make first run).Halts) (bound : Nat) :
    (Phrase.run level).ReadBy (run bound sign operand make) := by
  refine operands.bind ?_
  intro first tree derived
  refine (operators_sound signs operands (halts tree) bound []).bind ?_
  intro rest _ steps
  refine .pure ?_
  rw [List.append_nil]
  exact .run derived steps

end Runs

def IsClosedList (closing : Terminal) (lexemes : List Lexeme) : Prop :=
  ∃ count content bracket, lexemes = content ++ [bracket] ∧ bracket.is closing = true ∧
    Derives .documented (.list count) content

theorem items_sound (sound : inner.Sound) (closing : Terminal) {make : List (Place × Tree) → Tree}
    (halts : ∀ items, (∃ one ∈ items, one.2.Halts) → (make items).Halts) (bound : Nat)
    (found : List (Place × Tree)) :
    (items inner closing make bound found).Reads fun taken _ => ∃ count content bracket,
      taken = content ++ [bracket] ∧ bracket.is closing = true ∧
        Derives .documented (.list (count + 1)) content := by
  induction bound generalizing found with
  | zero => exact .stopUnexpected
  | succ bound induction =>
    refine Reader.Reads.place.bind ?_
    rintro _ start rfl
    refine (sound.assignment.within fun stopped halted => halts _ (halts_reverse start halted found)).bind ?_
    intro first item derived
    refine (Reader.Reads.takes .comma).bind ?_
    rintro taken (_ | _) skipped
    · refine ((Reader.Reads.require closing .listEnd).within
        fun stopped halted => halts _ (halts_reverse start halted _)).bind ?_
      rintro _ bracket ⟨rfl, closed⟩
      refine .pure ⟨0, first, bracket, ?_, closed, .lastItem derived⟩
      rw [show taken = [] from skipped]
      simp
    · rcases skipped with ⟨comma, rfl, separated⟩
      refine (induction _).imp ?_
      rintro more _ ⟨count, content, bracket, rfl, closed, rest⟩
      refine ⟨count + 1, first ++ comma :: content, bracket, ?_, closed, .nextItem derived separated rest⟩
      simp

theorem list_sound (sound : inner.Sound) (closing : Terminal) {make : List (Place × Tree) → Tree}
    (halts : ∀ items, (∃ one ∈ items, one.2.Halts) → (make items).Halts) :
    (list inner closing make).Reads fun taken _ => IsClosedList closing taken := by
  refine (Reader.Reads.takes closing).bind ?_
  rintro taken (_ | _) skipped
  · refine (items_sound sound closing halts inner.bound []).imp ?_
    rintro more _ ⟨count, content, bracket, rfl, closed, derived⟩
    rw [show taken = [] from skipped]
    exact ⟨count + 1, content, bracket, rfl, closed, derived⟩
  · rcases skipped with ⟨bracket, rfl, closed⟩
    exact .pure ⟨0, [], bracket, rfl, closed, .noItem⟩

/-! ## Declarations and blocks -/

theorem closedVectorSize_sound :
    closedVectorSize.Reads fun taken _ => ∃ number closing, taken = [number, closing] ∧
      Dialect.documented.size number.token ∧ closing.is .rightBracket = true := by
  have size : vectorSize.Reads fun taken _ => ∃ number, taken = [number] ∧
      Dialect.documented.size number.token := by
    intro lexemes
    unfold vectorSize
    split
    · exact .stop _ _
    · next first rest =>
      split
      · next found sized =>
        refine ⟨[first], rfl, first, rfl, ?_⟩
        unfold vectorSize? at sized
        split at sized
        · next value spelled =>
          rw [spelled]
          rfl
        · cases sized
      · exact .stop _ _
  refine size.bind ?_
  rintro _ _ ⟨number, rfl, sized⟩
  refine (Reader.Reads.require .rightBracket .sizeEnd).bind ?_
  rintro _ closing ⟨rfl, closed⟩
  exact .pure ⟨number, closing, rfl, sized, closed⟩

theorem vectorContent_sound (sound : inner.Sound) (word : Lexeme) (size : Nat) :
    Phrase.initializer.ReadBy (vectorContent inner word size) := by
  refine (Reader.Reads.takes .assign).bind ?_
  rintro taken (_ | _) skipped
  · rw [show taken = [] from skipped]
    exact .pure .noInitializer
  · rcases skipped with ⟨sign, rfl, assigned⟩
    refine (Reader.Reads.acceptTerminal .leftBrace).bind ?_
    rintro taken (_ | opening) accepted
    · refine Reader.Reads.place.bind ?_
      rintro _ start rfl
      refine (sound.assignment.within fun stopped => .filledVector word size start).bind ?_
      intro value _ formula
      rw [show taken = [] from accepted]
      refine .pure ?_
      simpa using Derives.filled assigned trivial formula
    · rcases accepted with ⟨rfl, opened⟩
      refine (list_sound sound .rightBrace fun items => .listedVector word size opening).bind ?_
      rintro _ _ ⟨count, content, bracket, rfl, ended, formulas⟩
      refine .pure ?_
      simpa using Derives.listed assigned opened formulas ended

theorem vectorDeclaration_sound (sound : inner.Sound) (word : Lexeme) :
    (vectorDeclaration inner word).Reads fun taken _ => ∃ number closing rest,
      taken = number :: closing :: rest ∧ Dialect.documented.size number.token ∧
        closing.is .rightBracket = true ∧ Derives .documented .initializer rest := by
  refine (closedVectorSize_sound.within fun stopped => .declaration word .ending).bind ?_
  rintro _ size ⟨number, closing, rfl, sized, closed⟩
  exact (vectorContent_sound sound word size).imp
    fun rest _ filled => ⟨number, closing, rest, rfl, sized, closed, filled⟩

theorem declaration_sound (sound : inner.Sound) : Phrase.declaration.ReadBy (declaration inner) := by
  have behind (word : Lexeme) (name : word.token.isName = true) :
      (declarationOf inner word).Reads fun taken _ =>
        Derives .documented .declaration (word :: taken) := by
    refine (Reader.Reads.takes .leftBracket).bind ?_
    rintro taken (_ | _) skipped
    · rw [show taken = [] from skipped]
      refine (Reader.Reads.takes .assign).bind ?_
      rintro taken (_ | _) skipped
      · rw [show taken = [] from skipped]
        exact .pure (.zero name)
      · rcases skipped with ⟨sign, rfl, assigned⟩
        refine Reader.Reads.place.bind ?_
        rintro _ start rfl
        refine (sound.assignment.within fun stopped => .declaration word start).bind ?_
        intro value _ formula
        refine .pure ?_
        simpa using Derives.initialized name assigned formula
    · rcases skipped with ⟨opening, rfl, opened⟩
      refine (vectorDeclaration_sound sound word).imp ?_
      rintro _ _ ⟨number, closing, rest, rfl, sized, closed, filled⟩
      exact .vector name opened sized closed filled
  intro lexemes
  unfold declaration
  split
  · exact .stop _ _
  · next word rest =>
    split
    · next spelled =>
      have name : word.token.isName = true := by
        rw [spelled]
        rfl
      exact (behind word name rest).behind word fun _ _ derived => derived
    · exact .stop _ _

theorem statement_sound (sound : inner.Sound) : Phrase.statement.ReadBy (statement inner) := by
  refine (Reader.Reads.takes .varWord).bind ?_
  rintro taken (_ | _) skipped
  · rw [show taken = [] from skipped]
    exact sound.assignment.imp fun _ _ assignment => .formula assignment
  · rcases skipped with ⟨word, rfl, spelled⟩
    exact (declaration_sound sound).imp fun _ _ derived => .declared spelled derived

/-- Whether the lexemes are what a block still has to have behind so many statements, and the bracket behind
that. -/
def EndsBlock (closing : Terminal) (found : List Tree) (lexemes : List Lexeme) : Prop :=
  ∃ content bracket, lexemes = content ++ [bracket] ∧ bracket.is closing = true ∧
    (found ≠ [] ∧ content = [] ∨ Derives .documented .block content)

theorem blockOf_sound (closing : Lexeme) (found : List Tree) :
    (blockOf closing found).Reads fun taken _ => found ≠ [] ∧ taken = [] := by
  match found with
  | [] => exact fun _ => .stop _ _
  | [only] => exact .pure ⟨List.cons_ne_nil _ _, rfl⟩
  | result :: second :: earlier => exact .pure ⟨List.cons_ne_nil _ _, rfl⟩

theorem statements_sound (sound : inner.Sound) (closing : Terminal) (bound : Nat) (found : List Tree) :
    (statements inner closing bound found).Reads fun taken _ => EndsBlock closing found taken := by
  induction bound generalizing found with
  | zero =>
    rw [statements]
    exact .stopUnexpected
  | succ bound induction =>
    have next : (statements.next inner closing bound found).Reads fun taken _ =>
        EndsBlock closing found taken := by
      unfold statements.next
      refine ((statement_sound sound).within fun stopped => .block found.reverse).bind ?_
      intro first tree derived
      refine (Reader.Reads.takes .semicolon).bind ?_
      rintro taken (_ | _) skipped
      · rw [show taken = [] from skipped]
        refine ((Reader.Reads.require closing .blockEnd).within
          fun stopped => .block (tree :: found).reverse).bind ?_
        rintro _ bracket ⟨rfl, closed⟩
        refine (blockOf_sound bracket (tree :: found)).imp ?_
        rintro _ _ ⟨-, rfl⟩
        refine ⟨first, bracket, ?_, closed, .inr ?_⟩
        · simp
        · simpa using Derives.result derived .noSeparator
      · rcases skipped with ⟨semicolon, rfl, separated⟩
        refine (induction (tree :: found)).imp ?_
        rintro _ _ ⟨content, bracket, rfl, closed, ⟨-, rfl⟩ | block⟩
        · exact ⟨first ++ [semicolon], bracket, by simp, closed,
            .inr (.result derived (.separator separated))⟩
        · exact ⟨first ++ semicolon :: content, bracket, by simp, closed,
            .inr (.effect derived separated block)⟩
    intro lexemes
    unfold statements
    split
    · next first rest =>
      split
      · next closed =>
        refine (blockOf_sound first found rest).behind first ?_
        rintro _ _ ⟨some, rfl⟩
        exact ⟨[], first, rfl, closed, .inl ⟨some, rfl⟩⟩
      · exact next _
    · exact next _

theorem block_sound (sound : inner.Sound) (closing : Terminal) :
    (block inner closing).Reads fun taken _ => ∃ content bracket, taken = content ++ [bracket] ∧
      bracket.is closing = true ∧ Derives .documented .block content := by
  refine (statements_sound sound closing inner.bound []).imp ?_
  rintro _ _ ⟨content, bracket, rfl, closed, ⟨some, -⟩ | derived⟩
  · exact absurd rfl some
  · exact ⟨content, bracket, rfl, closed, derived⟩

theorem body_sound (sound : inner.Sound) : Phrase.body.ReadBy (body inner) := by
  refine (Reader.Reads.takes .leftBrace).bind ?_
  rintro taken (_ | _) skipped
  · rw [show taken = [] from skipped]
    exact (statement_sound sound).imp fun _ _ derived => .looseBody trivial derived
  · rcases skipped with ⟨opening, rfl, opened⟩
    refine (block_sound sound .rightBrace).imp ?_
    rintro _ _ ⟨content, bracket, rfl, closed, derived⟩
    exact .bracedBody opened derived closed

/-! ## Forms -/

theorem takesElse_sound : takesElse.Reads fun taken found => found = false ∧ taken = [] ∨
    found = true ∧ ∃ before word, taken = before ++ [word] ∧ Derives .documented .separator before ∧
      word.is .elseWord = true := by
  have alone : (Reader.takes .elseWord).Reads fun taken found => found = false ∧ taken = [] ∨
      found = true ∧ ∃ before word, taken = before ++ [word] ∧ Derives .documented .separator before ∧
        word.is .elseWord = true := by
    refine (Reader.Reads.takes .elseWord).imp ?_
    rintro taken (_ | _) skipped
    · exact .inl ⟨rfl, skipped⟩
    · rcases skipped with ⟨word, rfl, spelled⟩
      exact .inr ⟨rfl, [], word, rfl, .noSeparator, spelled⟩
  intro lexemes
  unfold takesElse
  split
  · next first second rest =>
    split
    · next spelled =>
      rw [Bool.and_eq_true] at spelled
      exact ⟨[first, second], rfl, .inr ⟨rfl, [first], second, rfl, .separator spelled.1, spelled.2⟩⟩
    · exact alone _
  · exact alone _

theorem secondBranch_sound (sound : inner.Sound) (start : Place) (condition : Tree) (branch : Place)
    (consequent : Tree) : Phrase.otherwise.ReadBy (secondBranch inner start condition branch consequent) := by
  refine takesElse_sound.bind ?_
  rintro taken found (⟨rfl, rfl⟩ | ⟨rfl, before, keyword, rfl, separated, spelled⟩)
  · exact .pure .noOtherwise
  · refine ((body_sound sound).within fun _ => .alternative start condition branch consequent).bind ?_
    intro alternative _ derived
    refine .pure ?_
    simpa using Derives.otherwise separated spelled derived

theorem ifForm_sound (sound : inner.Sound) {word : Lexeme} (spelled : word.is .ifWord = true) :
    (ifForm inner).Reads fun taken _ => Derives .documented .primary (word :: taken) := by
  refine (Reader.Reads.require .leftParen .ifOpen).bind ?_
  rintro _ opening ⟨rfl, opened⟩
  refine Reader.Reads.place.bind ?_
  rintro _ start rfl
  refine sound.assignment.bind ?_
  intro condition tree asked
  refine (Reader.Reads.takes .comma).bind ?_
  rintro taken (_ | _) skipped
  · rw [show taken = [] from skipped]
    have governed : Reader.Reads
        (fun taken (_ : Place × Tree) => ∃ closing consequent, taken = closing :: consequent ∧
          closing.is .rightParen = true ∧ Derives .documented .body consequent)
        (do
          let _ ← Reader.require .rightParen .conditionEnd
          let branch ← Reader.place
          let consequent ← body inner
          pure (branch, consequent)) := by
      refine (Reader.Reads.require .rightParen .conditionEnd).bind ?_
      rintro _ closing ⟨rfl, closed⟩
      refine Reader.Reads.place.bind ?_
      rintro _ branch rfl
      refine (body_sound sound).bind ?_
      intro consequent _ derived
      exact .pure ⟨closing, consequent, by simp, closed, derived⟩
    refine (governed.within fun stopped halts => .consequent start tree .ending halts stopped).bind ?_
    rintro _ ⟨branch, first⟩ ⟨closing, consequent, rfl, closed, derived⟩
    refine (secondBranch_sound sound start tree branch first).imp fun alternative _ otherwise => ?_
    simpa using Derives.ifStatement spelled opened asked closed derived otherwise
  · rcases skipped with ⟨comma, rfl, separated⟩
    refine Reader.Reads.place.bind ?_
    rintro _ branch rfl
    refine (sound.assignment.within fun stopped halts => .consequent start tree branch halts stopped).bind ?_
    intro consequent first derived
    refine Reader.Reads.within ?_ fun _ => .alternative start tree branch first
    refine (Reader.Reads.require .comma .ifComma).bind ?_
    rintro _ second ⟨rfl, separatedAgain⟩
    refine sound.assignment.bind ?_
    intro alternative last derivedLast
    refine ((Reader.Reads.require .rightParen .ifEnd).within fun _ => .andThen last).bind ?_
    rintro _ closing ⟨rfl, closed⟩
    refine .pure ?_
    simpa using Derives.ifFunction spelled opened asked separated derived separatedAgain derivedLast closed

theorem whileForm_sound (sound : inner.Sound) {word : Lexeme} (spelled : word.is .whileWord = true) :
    (whileForm inner).Reads fun taken _ => Derives .documented .primary (word :: taken) := by
  refine (Reader.Reads.require .leftParen .whileOpen).bind ?_
  rintro _ opening ⟨rfl, opened⟩
  refine Reader.Reads.place.bind ?_
  rintro _ start rfl
  refine sound.assignment.bind ?_
  intro condition tree asked
  refine Reader.Reads.within ?_ fun _ => .loopBody nothing start tree nothing
  refine (Reader.Reads.require .rightParen .whileEnd).bind ?_
  rintro _ closing ⟨rfl, closed⟩
  refine (body_sound sound).bind ?_
  intro governed _ body
  refine .pure ?_
  simpa using Derives.whileLoop spelled opened asked closed body

theorem clause_sound {phrase : Phrase} (ending : Terminal) (absent : Tree) {present : Reader Tree}
    (reads : phrase.ReadBy present) : (Phrase.optional phrase).ReadBy (clause ending absent present) := by
  refine (Reader.Reads.sees ending).bind ?_
  rintro _ (_ | _) rfl
  · exact reads.imp fun _ _ derived => .present derived
  · exact .pure .absent

theorem forForm_sound (sound : inner.Sound) {word : Lexeme} (spelled : word.is .forWord = true) :
    (forForm inner).Reads fun taken _ => Derives .documented .primary (word :: taken) := by
  refine (Reader.Reads.require .leftParen .forOpen).bind ?_
  rintro _ opening ⟨rfl, opened⟩
  refine (clause_sound .semicolon nothing (statement_sound sound)).bind ?_
  intro first initializer initialized
  have conditions : Reader.Reads
      (fun taken (_ : Place × Tree) => ∃ semicolon condition, taken = semicolon :: condition ∧
        semicolon.is .semicolon = true ∧ Derives .documented (.optional .assignment) condition)
      (do
        let _ ← Reader.require .semicolon .afterInitializer
        let start ← Reader.place
        let condition ← clause .semicolon (.number 1.0) inner.assignment
        pure (start, condition)) := by
    refine (Reader.Reads.require .semicolon .afterInitializer).bind ?_
    rintro _ semicolon ⟨rfl, separated⟩
    refine Reader.Reads.place.bind ?_
    rintro _ start rfl
    refine (clause_sound .semicolon (.number 1.0) sound.assignment).bind ?_
    intro condition _ asked
    exact .pure ⟨semicolon, condition, by simp, separated, asked⟩
  refine (conditions.within fun _ => .andThen initializer).bind ?_
  rintro _ ⟨start, tree⟩ ⟨semicolon, condition, rfl, separated, asked⟩
  have steps : Reader.Reads
      (fun taken (_ : Tree) => ∃ semicolon step, taken = semicolon :: step ∧
        semicolon.is .semicolon = true ∧ Derives .documented (.optional .statement) step)
      (do
        let _ ← Reader.require .semicolon .afterLoopCondition
        clause .rightParen nothing (statement inner)) := by
    refine (Reader.Reads.require .semicolon .afterLoopCondition).bind ?_
    rintro _ semicolon ⟨rfl, separated⟩
    exact (clause_sound .rightParen nothing (statement_sound sound)).imp
      fun step _ stepped => ⟨semicolon, step, rfl, separated, stepped⟩
  refine (steps.within fun stopped halts => .loopStep initializer start tree halts stopped).bind ?_
  rintro _ stepTree ⟨second, step, rfl, separatedAgain, stepped⟩
  refine Reader.Reads.within ?_ fun _ => .loopBody initializer start tree stepTree
  refine (Reader.Reads.require .rightParen .forEnd).bind ?_
  rintro _ closing ⟨rfl, closed⟩
  refine (body_sound sound).bind ?_
  intro governed _ body
  refine .pure ?_
  simpa using Derives.forLoop spelled opened initialized separated asked separatedAgain stepped closed body

theorem cases_sound (sound : inner.Sound) (bound : Nat)
    (found : List ((Place × Tree) × (Place × Tree))) : Phrase.cases.ReadBy (cases inner bound found) := by
  induction bound generalizing found with
  | zero => exact .pure .noCase
  | succ bound induction =>
    refine (Reader.Reads.takes .caseWord).bind ?_
    rintro taken (_ | _) skipped
    · rw [show taken = [] from skipped]
      exact .pure .noCase
    · rcases skipped with ⟨word, rfl, spelled⟩
      refine Reader.Reads.place.bind ?_
      rintro _ start rfl
      refine (sound.assignment.within fun _ => .choice found.reverse .ending).bind ?_
      intro condition tree asked
      have results : Reader.Reads
          (fun taken (_ : Place × Tree) => ∃ colon value, taken = colon :: value ∧ colon.is .colon = true ∧
            Derives .documented .assignment value)
          (do
            let _ ← Reader.require .colon .caseColon
            let resultStart ← Reader.place
            let result ← inner.assignment
            pure (resultStart, result)) := by
        refine (Reader.Reads.require .colon .caseColon).bind ?_
        rintro _ colon ⟨rfl, separated⟩
        refine Reader.Reads.place.bind ?_
        rintro _ resultStart rfl
        refine sound.assignment.bind ?_
        intro value _ formula
        exact .pure ⟨colon, value, by simp, separated, formula⟩
      refine (results.within fun _ => .choice _ .ending).bind ?_
      rintro _ ⟨resultStart, result⟩ ⟨colon, value, rfl, separated, formula⟩
      refine ((Reader.Reads.require .semicolon .caseEnd).within fun _ => .choice _ .ending).bind ?_
      rintro _ semicolon ⟨rfl, ended⟩
      refine (induction _).imp fun rest _ more => ?_
      simpa using Derives.case spelled asked separated formula ended more

theorem switchForm_sound (sound : inner.Sound) {word : Lexeme} (spelled : word.is .switchWord = true) :
    (switchForm inner).Reads fun taken _ => Derives .documented .primary (word :: taken) := by
  refine (Reader.Reads.require .leftBrace .switchOpen).bind ?_
  rintro _ opening ⟨rfl, opened⟩
  refine (cases_sound sound inner.bound []).bind ?_
  intro found trees tested
  have defaults : Reader.Reads
      (fun taken (_ : Tree) => ∃ keyword colon otherwise, taken = keyword :: colon :: otherwise ∧
        keyword.is .defaultWord = true ∧ colon.is .colon = true ∧ Derives .documented .assignment otherwise)
      (do
        let _ ← Reader.require .defaultWord .caseOrDefault
        let _ ← Reader.require .colon .defaultColon
        let start ← Reader.place
        let otherwise ← inner.assignment
        pure (.choice trees start otherwise)) := by
    refine (Reader.Reads.require .defaultWord .caseOrDefault).bind ?_
    rintro _ keyword ⟨rfl, defaulted⟩
    refine (Reader.Reads.require .colon .defaultColon).bind ?_
    rintro _ colon ⟨rfl, separated⟩
    refine Reader.Reads.place.bind ?_
    rintro _ start rfl
    refine sound.assignment.bind ?_
    intro otherwise _ formula
    exact .pure ⟨keyword, colon, otherwise, by simp, defaulted, separated, formula⟩
  refine (defaults.within fun _ => .choice trees .ending).bind ?_
  rintro _ tree ⟨keyword, colon, otherwise, rfl, defaulted, separated, formula⟩
  refine (Reader.Reads.takes .semicolon).bind ?_
  intro after skipped taken
  have trailing : Derives .documented .separator after := by
    cases skipped with
    | false =>
      rw [show after = [] from taken]
      exact .noSeparator
    | true =>
      rcases taken with ⟨semicolon, rfl, spelled⟩
      exact .separator spelled
  refine ((Reader.Reads.require .rightBrace .switchEnd).within fun _ => .andThen tree).bind ?_
  rintro _ closing ⟨rfl, closed⟩
  refine .pure ?_
  simpa using Derives.choice spelled opened tested defaulted separated formula trailing closed

/-! ## Operands -/

theorem nameForm_sound (sound : inner.Sound) {word : Lexeme} (isName : word.token.isName = true) (name : String) :
    (nameForm inner word name).Reads fun taken _ => Derives .documented .primary (word :: taken) := by
  refine (Reader.Reads.takes .leftParen).bind ?_
  rintro taken (_ | _) skipped
  · rw [show taken = [] from skipped, if_neg Bool.false_ne_true]
    split
    · exact .stop _
    · refine Reader.Reads.remaining.bind ?_
      rintro _ rest rfl
      exact .pure (.name isName trivial)
  · rcases skipped with ⟨opening, rfl, opened⟩
    refine (list_sound sound .rightParen fun arguments halts => .call word halts []).bind ?_
    rintro _ arguments ⟨count, content, bracket, rfl, closed, formulas⟩
    refine Reader.Reads.remaining.bind ?_
    rintro _ rest rfl
    refine .pure ?_
    simpa using Derives.call isName opened formulas closed trivial

theorem primary_sound (sound : inner.Sound) : Phrase.primary.ReadBy (primary inner) := by
  intro lexemes
  unfold primary
  split
  · exact .stop _ _
  · next first rest =>
    have literal (isLiteral : first.token.isLiteral = true) (tree : Tree) :
        Reader.Taken (fun taken _ => Derives .documented .primary taken) (first :: rest) (.ok (tree, rest)) :=
      ⟨[first], rfl, .literal isLiteral⟩
    have block (closing : Terminal) (derived : ∀ content bracket, bracket.is closing = true →
        Derives .documented .block content → Derives .documented .primary (first :: (content ++ [bracket]))) :
        Reader.Taken (fun taken _ => Derives .documented .primary taken) (first :: rest)
          (Grammar.block inner closing rest) := by
      refine (block_sound sound closing rest).behind first ?_
      rintro _ _ ⟨content, bracket, rfl, closed, derivedBlock⟩
      exact derived content bracket closed derivedBlock
    split
    · next spelled => exact literal (by rw [spelled]; rfl) _
    · next spelled => exact literal (by rw [spelled]; rfl) _
    · next name spelled =>
      have isName : first.token.isName = true := by
        rw [spelled]
        rfl
      exact (nameForm_sound sound isName name rest).behind first fun _ _ derived => derived
    · next spelled => exact literal (by rw [spelled]; rfl) _
    · next spelled => exact literal (by rw [spelled]; rfl) _
    · next spelled =>
      exact block .rightParen fun _ _ closed derived => .parentheses (Lexeme.is_of_token spelled) derived closed
    · next spelled =>
      exact block .rightBrace fun _ _ closed derived => .braces (Lexeme.is_of_token spelled) derived closed
    · next spelled =>
      exact (ifForm_sound sound (Lexeme.is_of_token spelled) rest).behind first fun _ _ derived => derived
    · next spelled =>
      exact (whileForm_sound sound (Lexeme.is_of_token spelled) rest).behind first fun _ _ derived => derived
    · next spelled =>
      exact (forForm_sound sound (Lexeme.is_of_token spelled) rest).behind first fun _ _ derived => derived
    · next spelled =>
      exact (switchForm_sound sound (Lexeme.is_of_token spelled) rest).behind first fun _ _ derived => derived
    · exact .stop _ _

/-- A subscript behind its opening bracket: whatever subscripts follow it, they are subscripts together. -/
def IsSubscript (lexemes : List Lexeme) : Prop :=
  ∀ {opening rest}, opening.is .leftBracket = true → Derives .documented .subscripts rest →
    Derives .documented .subscripts (opening :: (lexemes ++ rest))

theorem rangeEnd_sound {assignment : Reader Tree} (sound : Phrase.assignment.ReadBy assignment)
    (bracket : Lexeme) (base : Tree) (firstStart : Place) (first : Tree) :
    (rangeEnd assignment bracket base firstStart first).Reads fun taken _ => ∃ last closing,
      taken = last ++ [closing] ∧ Derives .documented (.optional .assignment) last ∧
        closing.is .rightBracket = true := by
  refine (Reader.Reads.takes .rightBracket).bind ?_
  rintro taken (_ | _) skipped
  · rw [show taken = [] from skipped]
    refine Reader.Reads.place.bind ?_
    rintro _ lastStart rfl
    refine (sound.within fun _ => .range bracket base firstStart first lastStart).bind ?_
    intro last tree derived
    refine ((Reader.Reads.require .rightBracket .rangeEnd).within fun stopped halts =>
      .range bracket base firstStart first lastStart (.andThen tree halts)).bind ?_
    rintro _ closing ⟨rfl, closed⟩
    exact .pure ⟨last, closing, by simp, .present derived, closed⟩
  · rcases skipped with ⟨closing, rfl, closed⟩
    exact .pure ⟨[], closing, rfl, .absent, closed⟩

theorem subscript_sound {assignment : Reader Tree} (sound : Phrase.assignment.ReadBy assignment)
    (bracket : Lexeme) (base : Tree) :
    (subscript assignment bracket base).Reads fun taken _ => IsSubscript taken := by
  refine (Reader.Reads.takes .rightBracket).bind ?_
  rintro taken (_ | _) skipped
  · rw [show taken = [] from skipped]
    refine (Reader.Reads.takes .colon).bind ?_
    rintro taken (_ | _) skipped
    · rw [show taken = [] from skipped]
      refine Reader.Reads.place.bind ?_
      rintro _ start rfl
      refine (sound.within fun _ => .element bracket base start).bind ?_
      intro index tree place
      refine (Reader.Reads.takes .colon).bind ?_
      rintro taken (_ | _) skipped
      · rw [show taken = [] from skipped]
        refine ((Reader.Reads.require .rightBracket .indexEnd).within fun stopped halts =>
          .element bracket base start (.andThen tree halts)).bind ?_
        rintro _ closing ⟨rfl, closed⟩
        refine .pure fun opened more => ?_
        simpa using Derives.element opened place closed more
      · rcases skipped with ⟨colon, rfl, separated⟩
        refine (rangeEnd_sound sound bracket base start tree).imp ?_
        rintro _ _ ⟨last, closing, rfl, upper, closed⟩ _ _ opened more
        simpa using Derives.range opened (.present place) separated upper closed more
    · rcases skipped with ⟨colon, rfl, separated⟩
      refine (rangeEnd_sound sound bracket base .ending (.number 0.0)).imp ?_
      rintro _ _ ⟨last, closing, rfl, upper, closed⟩ _ _ opened more
      simpa using Derives.range opened .absent separated upper closed more
  · rcases skipped with ⟨closing, rfl, closed⟩
    exact .pure fun opened more => .size opened closed more

theorem power_sound (sound : inner.Sound) : Phrase.power.ReadBy (power inner) := by
  refine (primary_sound sound).bind ?_
  intro base tree primary
  refine (sound.subscripts tree).bind ?_
  intro rest subscripted subscripts
  refine (Reader.Reads.acceptTerminal .caret).bind ?_
  rintro taken (_ | caret) accepted
  · rw [show taken = [] from accepted]
    refine .pure ?_
    simpa using Derives.base primary subscripts
  · rcases accepted with ⟨rfl, spelled⟩
    refine (sound.operand.within fun stopped halts =>
      .arithmetic subscripted ⟨_, List.mem_singleton_self _, halts⟩).bind ?_
    intro exponent _ operand
    refine .pure ?_
    simpa using Derives.raised primary subscripts spelled operand

theorem unary_sound (sound : inner.Sound) : Phrase.unary.ReadBy (unary inner) := by
  have unsigned (lexemes : List Lexeme) :
      Reader.Taken (fun taken _ => Derives .documented .unary taken) lexemes (power inner lexemes) :=
    (power_sound sound).imp (fun _ _ power => .unsigned power) lexemes
  intro lexemes
  unfold unary
  split
  · exact unsigned []
  · next sign rest =>
    have signed {make : Tree → Tree} (halts : ∀ stopped : Tree, stopped.Halts → (make stopped).Halts)
        (spelled : sign.token.isSign = true) :
        Reader.Taken (fun taken _ => Derives .documented .unary taken) (sign :: rest)
          ((make <$> inner.operand.within make) rest) := by
      have reads : Phrase.unary.ReadBy (make <$> inner.operand.within make) := by
        refine (sound.operand.within halts).bind ?_
        intro taken _ derived
        refine .pure ?_
        simpa using derived
      exact (reads rest).behind sign fun _ _ operand => .signed spelled operand
    split
    · next spelled => exact signed (fun _ => .negation sign) (by rw [spelled]; rfl)
    · next spelled => exact signed (fun _ => .affirmation sign) (by rw [spelled]; rfl)
    · next spelled => exact signed (fun _ => .denial _) (by rw [spelled]; rfl)
    · next spelled => exact signed (fun _ => .denial _) (by rw [spelled]; rfl)
    · exact unsigned _

/-! ## Formulas -/

theorem arithmeticSign_sound (level : Level) : (arithmeticSign level.operators).Reads (ReadsSign level) := by
  refine (Reader.Reads.accept _).imp ?_
  rintro taken _ (⟨rfl, rfl⟩ | ⟨sign, use, rfl, accepted, rfl⟩)
  · exact .inl ⟨rfl, rfl⟩
  · rcases Option.map_eq_some_iff.mp accepted with ⟨op, spelled, -⟩
    exact .inr ⟨rfl, sign, op, rfl, spelled⟩

theorem logicalSign_sound {level : Level} : (logicalSign level.operators).Reads (ReadsSign level) := by
  refine (Reader.Reads.accept _).bind ?_
  rintro taken _ (⟨rfl, rfl⟩ | ⟨sign, op, rfl, spelled, rfl⟩)
  · exact .pure (.inl ⟨rfl, rfl⟩)
  · refine Reader.Reads.place.bind ?_
    rintro _ start rfl
    exact .pure (.inr ⟨rfl, sign, op, rfl, spelled⟩)

theorem product_sound (sound : inner.Sound) : (Phrase.run .product).ReadBy (product inner) :=
  run_sound (arithmeticSign_sound .product) (unary_sound sound) (fun _ _ => .arithmetic _) _

theorem sum_sound (sound : inner.Sound) : (Phrase.run .sum).ReadBy (sum inner) :=
  run_sound (arithmeticSign_sound .sum) (product_sound sound) (fun _ _ => .arithmetic _) _

theorem noSecondRelation_sound : noSecondRelation.Reads fun taken _ => taken = [] := by
  intro lexemes
  unfold noSecondRelation
  split
  · exact .stop _ _
  · exact ⟨[], rfl, rfl⟩

theorem relation_sound (sound : inner.Sound) : Phrase.relation.ReadBy (relation inner) := by
  refine (sum_sound sound).bind ?_
  intro left leftTree first
  refine (Reader.Reads.accept _).bind ?_
  rintro taken _ (⟨rfl, rfl⟩ | ⟨sign, use, rfl, accepted, rfl⟩)
  · refine .pure ?_
    simpa using Derives.unrelated first
  · have spelled : sign.isRelation = true := by
      split at accepted
      · next spelled => exact spelled
      · cases accepted
    refine Reader.Reads.within ?_ fun _ => .relation use leftTree
    refine (sum_sound sound).bind ?_
    intro right rightTree second
    refine (noSecondRelation_sound.within fun _ => .andThen rightTree).bind ?_
    rintro _ _ rfl
    refine .pure ?_
    simpa using Derives.related first spelled second

theorem logical_sound (level : Level) {operand : Reader Tree} (sound : level.operand.ReadBy operand) :
    (Phrase.run level).ReadBy (logical inner level.operators operand) := by
  refine Reader.Reads.place.bind ?_
  rintro _ start rfl
  exact run_sound logicalSign_sound sound (fun _ _ => .logical start _) _

theorem disjunction_sound (sound : inner.Sound) : (Phrase.run .disjunction).ReadBy (disjunction inner) := by
  have conjunctions : (Phrase.run .conjunction).ReadBy (conjunction inner) :=
    logical_sound .conjunction (relation_sound sound)
  have exclusions : (Phrase.run .exclusion).ReadBy (exclusion inner) :=
    logical_sound .exclusion conjunctions
  exact logical_sound .disjunction exclusions

theorem conditional_sound (sound : inner.Sound) : Phrase.conditional.ReadBy (conditional inner) := by
  refine Reader.Reads.place.bind ?_
  rintro _ start rfl
  refine (disjunction_sound sound).bind ?_
  intro condition tree disjunction
  refine (Reader.Reads.takes .question).bind ?_
  rintro taken (_ | _) skipped
  · rw [show taken = [] from skipped]
    refine .pure ?_
    simpa using Derives.unconditional disjunction
  · rcases skipped with ⟨question, rfl, asked⟩
    refine Reader.Reads.place.bind ?_
    rintro _ branch rfl
    refine (sound.assignment.within fun stopped halts => .consequent start tree branch halts stopped).bind ?_
    intro consequent consequentTree first
    refine Reader.Reads.within ?_ fun _ => .alternative start tree branch consequentTree
    refine (Reader.Reads.require .colon .conditionalColon).bind ?_
    rintro _ colon ⟨rfl, separated⟩
    refine sound.assignment.bind ?_
    intro alternative _ second
    refine .pure ?_
    simpa using Derives.chosen disjunction asked first separated second

theorem assignmentSign_sound : assignmentSign.Reads fun taken sign => taken = [sign]
  | [] => .stop _ _
  | sign :: _ => ⟨[sign], rfl, rfl⟩

theorem wholeAssignment_sound (sound : inner.Sound) (word : Lexeme) :
    (wholeAssignment inner word).Reads fun taken _ => ∃ sign value, taken = sign :: value ∧
      Derives .documented .assignment value := by
  refine (assignmentSign_sound.within fun _ => .assignment word word .ending).bind ?_
  rintro _ sign rfl
  refine Reader.Reads.place.bind ?_
  rintro _ start rfl
  refine (sound.assignment.within fun _ => .assignment word sign start).bind ?_
  intro value _ formula
  exact .pure ⟨sign, value, by simp, formula⟩

theorem elementAssignment_sound (sound : inner.Sound) (word : Lexeme) :
    (elementAssignment inner word).Reads fun taken _ => ∃ index closing sign value,
      taken = index ++ closing :: sign :: value ∧ Derives .documented .assignment index ∧
        closing.is .rightBracket = true ∧ Derives .documented .assignment value := by
  refine Reader.Reads.place.bind ?_
  rintro _ start rfl
  refine (sound.assignment.within fun stopped halts => .assignedIndex word start halts word stopped).bind ?_
  intro index tree place
  have signs : Reader.Reads
      (fun taken sign => ∃ closing, taken = [closing, sign] ∧ closing.is .rightBracket = true)
      (do
        let _ ← Reader.require .rightBracket .indexEnd
        assignmentSign) := by
    refine (Reader.Reads.require .rightBracket .indexEnd).bind ?_
    rintro _ closing ⟨rfl, closed⟩
    exact assignmentSign_sound.imp fun _ _ same => ⟨closing, congrArg (closing :: ·) same, closed⟩
  refine (signs.within fun stopped halts => .assignedElement word start _ word halts).bind ?_
  rintro _ sign ⟨closing, rfl, closed⟩
  refine (sound.assignment.within fun _ => .assignedElement word start tree sign).bind ?_
  intro value _ formula
  exact .pure ⟨index, closing, sign, value, by simp, place, closed, formula⟩

/-- Where the lookahead has found an assignment, its sign is where the lookahead has found it. -/
theorem assignmentTo_sound (sound : inner.Sound) {word : Lexeme} {rest : List Lexeme}
    (starts : startsAssignment (word :: rest) = true) :
    Reader.Taken (fun taken _ => Derives .documented .assignment (word :: taken)) rest
      (assignmentTo inner word rest) := by
  rw [startsAssignment_cons, Bool.and_eq_true] at starts
  rcases starts with ⟨isName, ahead⟩
  unfold assignmentTo
  cases bracket : startsWith .leftBracket rest with
  | true =>
    rw [if_pos bracket] at ahead
    cases rest with
    | nil => cases bracket
    | cons opening more =>
      rw [Reader.bind_of_ok (Reader.takes_of_is bracket more)]
      have outcome := elementAssignment_sound sound word more
      change Reader.Taken _ (opening :: more) (elementAssignment inner word more)
      cases read : elementAssignment inner word more with
      | error stopped =>
        rw [read] at outcome
        exact outcome
      | ok pair =>
        rw [read] at outcome
        rcases outcome with ⟨_, split, index, closing, sign, value, rfl, place, closed, formula⟩
        have assigned : sign.token.assigns = true := by
          rw [split, List.append_assoc, List.cons_append, assignsElement_brackets bracket closed
            place.passedOver] at ahead
          exact ahead
        refine ⟨opening :: (index ++ closing :: sign :: value), congrArg (opening :: ·) split, ?_⟩
        exact .elementAssigned isName bracket place closed assigned formula
  | false =>
    rw [if_neg (Bool.eq_false_iff.mp bracket)] at ahead
    rw [Reader.bind_of_ok (Reader.takes_of_not bracket)]
    have outcome := wholeAssignment_sound sound word rest
    change Reader.Taken _ rest (wholeAssignment inner word rest)
    cases read : wholeAssignment inner word rest with
    | error stopped =>
      rw [read] at outcome
      exact outcome
    | ok pair =>
      rw [read] at outcome
      rcases outcome with ⟨_, split, sign, value, rfl, formula⟩
      have assigned : sign.token.assigns = true := by
        rw [split] at ahead
        exact ahead
      exact ⟨sign :: value, split, .assigned isName assigned formula⟩

theorem assignment_sound (sound : inner.Sound) : Phrase.assignment.ReadBy (assignment inner) := by
  have unassigned (lexemes : List Lexeme) :
      Reader.Taken (fun taken _ => Derives .documented .assignment taken) lexemes (conditional inner lexemes) :=
    (conditional_sound sound).imp (fun _ _ conditional => .unassigned conditional) lexemes
  intro lexemes
  unfold assignment
  split
  · exact unassigned []
  · next word rest =>
    split
    · next starts => exact (assignmentTo_sound sound starts).behind word fun _ _ derived => derived
    · exact unassigned _

/-! ## Levels -/

theorem innerAt_sound (limit bound level : Nat) : (innerAt limit bound level).Sound := by
  induction level with
  | zero =>
    refine ⟨fun _ => .stop _ _, fun _ => .stop _ _, fun base lexemes => ?_⟩
    change Reader.Taken _ lexemes (subscriptsAt limit bound 0 base lexemes)
    rw [subscriptsAt]
    split
    · exact .andThen base (.stop _ _)
    · exact ⟨[], rfl, .noSubscript⟩
  | succ level induction =>
    refine ⟨assignment_sound induction, unary_sound induction, fun base => ?_⟩
    refine (Reader.Reads.acceptTerminal .leftBracket).bind ?_
    rintro taken (_ | bracket) accepted
    · rw [show taken = [] from accepted]
      exact .pure .noSubscript
    · rcases accepted with ⟨rfl, opened⟩
      refine (subscript_sound induction.assignment bracket base).bind ?_
      intro taken subscripted isSubscript
      exact (induction.subscripts subscripted).imp fun _ _ more => isSubscript opened more

theorem statementEnd_eq_ok {lexemes rest : List Lexeme} (read : statementEnd lexemes = .ok ((), rest)) :
    lexemes = [] ∧ rest = [] ∨
      ∃ semicolon, lexemes = semicolon :: rest ∧ semicolon.is .semicolon = true := by
  unfold statementEnd at read
  split at read
  · cases read
    exact .inl ⟨rfl, rfl⟩
  · next first more =>
    split at read
    · next separated =>
      cases read
      exact .inr ⟨first, rfl, separated⟩
    · cases read

/-- A statement of a program, with the semicolon behind it unless the source ends there. -/
theorem endedStatement_sound (sound : inner.Sound) {lexemes rest : List Lexeme} {tree : Tree}
    (read : endedStatement inner lexemes = .ok (tree, rest)) :
    ∃ taken, Derives .documented .statement taken ∧
      (lexemes = taken ∧ rest = [] ∨
        ∃ semicolon, lexemes = taken ++ semicolon :: rest ∧ semicolon.is .semicolon = true) := by
  rcases Reader.bind_eq_ok.mp read with ⟨found, between, readStatement, ended⟩
  have outcome := statement_sound sound lexemes
  rw [readStatement] at outcome
  rcases outcome with ⟨taken, split, derived⟩
  refine ⟨taken, derived, ?_⟩
  rcases Reader.bind_eq_ok.mp ended with ⟨_, last, readEnd, done⟩
  cases done
  rcases statementEnd_eq_ok (Reader.within_eq_ok.mp readEnd) with ⟨rfl, rfl⟩ | ⟨semicolon, rfl, separated⟩
  · exact .inl ⟨by simpa using split, rfl⟩
  · exact .inr ⟨semicolon, split, separated⟩

/-- Where a statement stops, its tree cannot be compiled. -/
theorem endedStatement_halts (sound : inner.Sound) {lexemes : List Lexeme} {stopped : Tree}
    (read : endedStatement inner lexemes = .error stopped) : stopped.Halts := by
  have ends : statementEnd.Reads fun _ _ => True := by
    intro lexemes
    unfold statementEnd
    split
    · exact ⟨[], rfl, trivial⟩
    · next first rest =>
      split
      · exact ⟨[first], rfl, trivial⟩
      · exact .stop _ _
  have reads : (endedStatement inner).Reads fun _ _ => True := by
    refine (statement_sound sound).bind fun _ tree _ => ?_
    refine (ends.within fun _ => .andThen tree).bind fun _ _ _ => .pure trivial
  have outcome := reads lexemes
  rw [read] at outcome
  exact outcome

end Grammar

end LiveExpr
