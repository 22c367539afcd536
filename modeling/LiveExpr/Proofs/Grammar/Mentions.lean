import LiveExpr.Proofs.Grammar.Occurrences
import LiveExpr.Proofs.Grammar.Soundness

/-!
The names in the lexemes of a formula are those of the tree that is read from them: every name behind the keyword of a
declaration comes to be declared in the tree, every other name in front of a parenthesis comes to be called, every other
name comes to be looked up, in order, and nothing else does.
-/

namespace LiveExpr

/-! ## Names in lexemes -/

/-- The names behind the keywords of declarations, in order. -/
def declaredNames : List Lexeme → List String
  | first :: second :: rest =>
    if first.is .varWord then second.text :: declaredNames (second :: rest) else declaredNames (second :: rest)
  | _ => []

/-- The names in lexemes, in order, but for those in front of the parenthesis of a call. The first lexeme is behind the
keyword of declarations, or it is not. -/
def mentionsFrom (declaring : Bool) : List Lexeme → List Mention
  | [] => []
  | first :: rest =>
    if declaring then .declared first.text :: mentionsFrom (first.is .varWord) rest
    else if first.token.isName && !startsWith .leftParen rest then
      .sought first.text :: mentionsFrom (first.is .varWord) rest
    else mentionsFrom (first.is .varWord) rest

/-- The names in lexemes that are declared or looked up, in order. -/
def mentions : List Lexeme → List Mention :=
  mentionsFrom false

/-- The names in lexemes, in order. The first lexeme is behind the keyword of declarations, or it is not. -/
def spelledNamesFrom (declaring : Bool) : List Lexeme → List Occurrence
  | [] => []
  | first :: rest =>
    if declaring then .declaring first.text :: spelledNamesFrom (first.is .varWord) rest
    else if first.token.isName then
      (if startsWith .leftParen rest then .called first.text else .sought first.text) ::
        spelledNamesFrom (first.is .varWord) rest
    else spelledNamesFrom (first.is .varWord) rest

/-- The names in lexemes that are declared, called or looked up, in order. -/
def spelledNames : List Lexeme → List Occurrence :=
  spelledNamesFrom false

def Token.isInert : Token → Bool
  | name _ | fixed .varWord => false
  | _ => true

namespace Lexeme

variable {sign : Lexeme}

theorem isInert_of (property : Token → Bool) (holds : property sign.token = true)
    (noName : ∀ name, property (.name name) = false) (noKeyword : property (.fixed .varWord) = false) :
    sign.token.isInert = true := by
  unfold Token.isInert
  split
  · next name =>
    rw [name, noName] at holds
    cases holds
  · next keyword =>
    rw [keyword, noKeyword] at holds
    cases holds
  · rfl

theorem isInert_of_is {terminal : Terminal} (spelled : sign.is terminal = true) (other : terminal ≠ .varWord) :
    sign.token.isInert = true := by
  exact isInert_of (fun token => (lexemeOf token "").is terminal) spelled (fun _ => rfl)
    (beq_eq_false_iff_ne.mpr (Ne.symm other))

theorem not_varWord_of_isName (name : sign.token.isName = true) : sign.is .varWord = false :=
  is_eq_false name rfl

end Lexeme

section Mentions

variable {first : Lexeme} {rest : List Lexeme}

theorem spelledNames_cons (inert : first.token.isInert = true) (rest : List Lexeme) :
    spelledNames (first :: rest) = spelledNames rest := by
  have noName : first.token.isName = false := by
    cases token : first.token with
    | name =>
      rw [token] at inert
      cases inert
    | _ => rfl
  have noKeyword : first.is .varWord = false := Lexeme.is_eq_false inert rfl
  rw [spelledNames, spelledNamesFrom, noName, noKeyword]
  rfl

/-- A name that is not called is looked up. -/
theorem spelledNames_name (name : first.token.isName = true) (uncalled : startsWith .leftParen rest = false) :
    spelledNames (first :: rest) = .sought first.text :: spelledNames rest := by
  rw [spelledNames, spelledNamesFrom, name, uncalled, Lexeme.not_varWord_of_isName name]
  rfl

theorem spelledNames_call (name : first.token.isName = true) (called : startsWith .leftParen rest = true) :
    spelledNames (first :: rest) = .called first.text :: spelledNames rest := by
  rw [spelledNames, spelledNamesFrom, name, called, Lexeme.not_varWord_of_isName name]
  rfl

theorem spelledNames_declaration {word : Lexeme} (keyword : first.is .varWord = true)
    (name : word.token.isName = true) :
    spelledNames (first :: word :: rest) = .declaring word.text :: spelledNames rest := by
  have noName : first.token.isName = false := by rw [Lexeme.token_of_is keyword]; rfl
  rw [spelledNames, spelledNamesFrom, noName, keyword, spelledNamesFrom, Lexeme.not_varWord_of_isName name]
  rfl

theorem mentionsFrom_eq (declaring : Bool) (lexemes : List Lexeme) :
    mentionsFrom declaring lexemes = (spelledNamesFrom declaring lexemes).filterMap Occurrence.mention? := by
  induction lexemes generalizing declaring with
  | nil => rfl
  | cons first rest induction =>
    rw [mentionsFrom, spelledNamesFrom, induction]
    cases declaring with
    | true => rfl
    | false => cases first.token.isName <;> cases startsWith .leftParen rest <;> rfl

theorem filterMap_declared?_mentionsFrom (first : Lexeme) (rest : List Lexeme) :
    (mentionsFrom (first.is .varWord) rest).filterMap Mention.declared? = declaredNames (first :: rest) := by
  induction rest generalizing first with
  | nil => rfl
  | cons second rest induction =>
    rw [declaredNames]
    split
    · next declares =>
      rw [declares, mentionsFrom]
      exact congrArg (second.text :: ·) (induction second)
    · next other =>
      rw [Bool.eq_false_iff.mpr other, mentionsFrom, if_neg Bool.false_ne_true]
      split <;> exact induction second

theorem filterMap_declared?_mentions (lexemes : List Lexeme) :
    (mentions lexemes).filterMap Mention.declared? = declaredNames lexemes := by
  cases lexemes with
  | nil => rfl
  | cons first rest =>
    rw [mentions, mentionsFrom, if_neg Bool.false_ne_true]
    split <;> exact filterMap_declared?_mentionsFrom first rest

end Mentions

namespace Reader

variable {α β : Type}

/-- Whether a reader accounts for the names in what it takes: behind those before, they are those in its result. -/
def Accounts (before : List Occurrence) (after : α → List Occurrence) (reader : Reader α) : Prop :=
  ∀ lexemes value rest, reader lexemes = .ok (value, rest) →
    before ++ spelledNames lexemes = after value ++ spelledNames rest

abbrev AccountsTree (reader : Reader Tree) : Prop :=
  ∀ before, reader.Accounts before fun tree => before ++ tree.spelled

namespace Accounts

variable {before : List Occurrence} {between : α → List Occurrence} {after : β → List Occurrence}

theorem pure {value : β} (same : before = after value) : (Pure.pure value : Reader β).Accounts before after := by
  rintro lexemes _ _ ⟨⟩
  rw [same]

theorem bind {first : Reader α} {continuation : α → Reader β} (accounts : first.Accounts before between)
    (continued : ∀ value, (continuation value).Accounts (between value) after) :
    (first >>= continuation).Accounts before after := by
  intro lexemes result rest read
  obtain ⟨value, middle, readFirst, readNext⟩ := Reader.bind_eq_ok.mp read
  exact (accounts lexemes value middle readFirst).trans (continued value middle result rest readNext)

theorem within {reader : Reader β} (accounts : reader.Accounts before after) (context : Tree → Tree) :
    (reader.within context).Accounts before after :=
  fun lexemes value rest read => accounts lexemes value rest (Reader.within_eq_ok.mp read)

theorem stop (problem : Problem) : (Reader.stop problem : Reader β).Accounts before after :=
  nofun

theorem stopUnexpected : (Reader.stopUnexpected : Reader β).Accounts before after
  | [], _, _, read => nomatch read
  | _ :: _, _, _, read => nomatch read

theorem place : Reader.place.Accounts before fun _ => before := by
  rintro lexemes _ _ ⟨⟩
  rfl

theorem remaining : Reader.remaining.Accounts before fun _ => before := by
  rintro lexemes _ _ ⟨⟩
  rfl

theorem sees (terminal : Terminal) : (Reader.sees terminal).Accounts before fun _ => before := by
  rintro lexemes _ _ ⟨⟩
  rfl

theorem accept {use? : Lexeme → Option β} (other : ∀ sign use, use? sign = some use → sign.token.isInert = true) :
    (Reader.accept use?).Accounts before fun _ => before := by
  intro lexemes value rest read
  unfold Reader.accept at read
  split at read
  · cases read
    rfl
  · split at read
    · next accepted =>
      cases read
      rw [spelledNames_cons (other _ _ accepted)]
    · cases read
      rfl

theorem acceptTerminal {terminal : Terminal} (other : terminal ≠ .varWord) :
    (Reader.acceptTerminal terminal).Accounts before fun _ => before := by
  refine accept fun sign use accepted => ?_
  split at accepted
  · next spelled => exact Lexeme.isInert_of_is spelled other
  · cases accepted

theorem takes {terminal : Terminal} (other : terminal ≠ .varWord) :
    (Reader.takes terminal).Accounts before fun _ => before := by
  intro lexemes value rest read
  unfold Reader.takes at read
  split at read
  · cases read
    rfl
  · split at read
    · next spelled =>
      cases read
      rw [spelledNames_cons (Lexeme.isInert_of_is spelled other)]
    · cases read
      rfl

theorem require {terminal : Terminal} (other : terminal ≠ .varWord) (wanted : Expectation) :
    (Reader.require terminal wanted).Accounts before fun _ => before := by
  intro lexemes value rest read
  unfold Reader.require at read
  split at read
  · cases read
  · split at read
    · next spelled =>
      cases read
      rw [spelledNames_cons (Lexeme.isInert_of_is spelled other)]
    · cases read

end Accounts

end Reader

namespace Grammar

open Reader (AccountsTree)

/-- Whether the readers of the next deeper level account for names, and take what the grammar derives. -/
structure Inner.Accounts (inner : Inner) : Prop where
  sound : inner.Sound
  assignment : inner.assignment.AccountsTree
  operand : inner.operand.AccountsTree
  subscripts (base : Tree) (before : List Occurrence) :
    (inner.subscripts base).Accounts (before ++ base.spelled) fun tree => before ++ tree.spelled

variable {inner : Inner} {before : List Occurrence}

/-! ## Repetitions -/

theorem operators_accounts {α : Type} {sign : Reader (Option α)} {operand : Reader Tree}
    (signs : ∀ before, sign.Accounts before fun _ => before) (operands : operand.AccountsTree)
    (make : List (α × Tree) → Tree) (bound : Nat) (found : List (α × Tree)) (before : List Occurrence) :
    (operators sign operand make bound found).Accounts (before ++ found.reverse.flatMap (·.2.spelled))
      fun run => before ++ run.flatMap (·.2.spelled) := by
  induction bound generalizing found with
  | zero => exact .pure rfl
  | succ bound induction =>
    refine (signs _).bind fun accepted => ?_
    cases accepted with
    | none => exact .pure rfl
    | some spelled =>
      refine ((operands _).within _).bind fun right => ?_
      have longer := induction ((spelled, right) :: found)
      simpa [List.append_assoc] using longer

theorem run_accounts {α : Type} {sign : Reader (Option α)} {operand : Reader Tree}
    {make : Tree → List (α × Tree) → Tree} (signs : ∀ before, sign.Accounts before fun _ => before)
    (operands : operand.AccountsTree)
    (made : ∀ first run, (make first run).spelled =
      first.spelled ++ run.flatMap (·.2.spelled))
    (bound : Nat) : (run bound sign operand make).AccountsTree := by
  intro before
  refine (operands before).bind fun first => ?_
  have steps := operators_accounts signs operands (make first) bound [] (before ++ first.spelled)
  rw [List.reverse_nil, List.flatMap_nil, List.append_nil] at steps
  refine steps.bind fun rest => .pure ?_
  split
  · next empty =>
    rw [List.isEmpty_iff.mp empty, List.flatMap_nil, List.append_nil]
  · rw [made, List.append_assoc]

theorem items_accounts (accounts : inner.Accounts) {closing : Terminal} (other : closing ≠ .varWord)
    (make : List (Place × Tree) → Tree) (bound : Nat) (found : List (Place × Tree)) (before : List Occurrence) :
    (items inner closing make bound found).Accounts (before ++ found.reverse.flatMap (·.2.spelled))
      fun items => before ++ items.flatMap (·.2.spelled) := by
  induction bound generalizing found with
  | zero => exact .stopUnexpected
  | succ bound induction =>
    refine Reader.Accounts.place.bind fun start => ?_
    refine ((accounts.assignment _).within _).bind fun item => ?_
    refine (Reader.Accounts.takes (by decide)).bind fun comma => ?_
    have longer := induction ((start, item) :: found)
    cases comma with
    | true => simpa [List.append_assoc] using longer
    | false =>
      refine ((Reader.Accounts.require other .listEnd).within _).bind fun _ => .pure ?_
      simp [List.append_assoc]

theorem list_accounts (accounts : inner.Accounts) {closing : Terminal} (other : closing ≠ .varWord)
    (make : List (Place × Tree) → Tree) :
    (list inner closing make).Accounts before fun items => before ++ items.flatMap (·.2.spelled) := by
  refine (Reader.Accounts.takes other).bind fun empty => ?_
  cases empty with
  | true => exact .pure (by simp)
  | false =>
    have items := items_accounts accounts other make inner.bound [] before
    rwa [List.reverse_nil, List.flatMap_nil, List.append_nil] at items

/-! ## Declarations and blocks -/

theorem vectorSize_accounts : vectorSize.Accounts before fun _ => before := by
  intro lexemes size rest read
  unfold vectorSize at read
  split at read
  · cases read
  · next first behind =>
    split at read
    · next sized =>
      cases read
      have other : first.token.isInert = true := by
        unfold vectorSize? at sized
        split at sized
        · next number => rw [number]; rfl
        · cases sized
      rw [spelledNames_cons other]
    · cases read

theorem closedVectorSize_accounts : closedVectorSize.Accounts before fun _ => before :=
  vectorSize_accounts.bind fun _ => (Reader.Accounts.require (by decide) .sizeEnd).bind fun _ => .pure rfl

theorem vectorContent_accounts (accounts : inner.Accounts) (word : Lexeme) (size : Nat) :
    (vectorContent inner word size).Accounts (before ++ [.declaring word.text])
      fun tree => before ++ tree.spelled := by
  refine (Reader.Accounts.takes (by decide)).bind fun assigned => ?_
  cases assigned with
  | false => exact .pure (by simp [Tree.spelled, Tree.occurrences, occurrencesOfPlaced])
  | true =>
    refine (Reader.Accounts.acceptTerminal (by decide)).bind fun bracket => ?_
    cases bracket with
    | some bracket =>
      refine (list_accounts accounts (by decide) _).bind fun elements => .pure ?_
      simp [Tree.spelled, Tree.occurrences, spelled_occurrencesOfPlaced]
    | none =>
      refine Reader.Accounts.place.bind fun start => ?_
      refine ((accounts.assignment _).within _).bind fun value => .pure ?_
      simp [Tree.spelled, Tree.occurrences]

theorem declarationOf_accounts (accounts : inner.Accounts) (word : Lexeme) (before : List Occurrence) :
    (declarationOf inner word).Accounts (before ++ [.declaring word.text])
      fun tree => before ++ tree.spelled := by
  refine (Reader.Accounts.takes (by decide)).bind fun bracket => ?_
  cases bracket with
  | true =>
    exact (closedVectorSize_accounts.within _).bind fun size => vectorContent_accounts accounts word size
  | false =>
    refine (Reader.Accounts.takes (by decide)).bind fun assigned => ?_
    cases assigned with
    | false => exact .pure (by simp [Tree.spelled, Tree.occurrences])
    | true =>
      refine Reader.Accounts.place.bind fun start => ?_
      refine ((accounts.assignment _).within _).bind fun value => .pure ?_
      simp [Tree.spelled, Tree.occurrences]

/-- Behind the keyword stands the name that is declared. -/
theorem statement_accounts (accounts : inner.Accounts) : (statement inner).AccountsTree := by
  intro before lexemes tree rest read
  unfold statement at read
  obtain ⟨declares, between, taken, readOn⟩ := Reader.bind_eq_ok.mp read
  unfold Reader.takes at taken
  split at taken
  · cases taken
    exact accounts.assignment before _ tree rest readOn
  · split at taken
    · next spelled =>
      cases taken
      rw [if_pos rfl] at readOn
      unfold declaration at readOn
      split at readOn
      · cases readOn
      · next word more =>
        split at readOn
        · next name =>
          have behind := declarationOf_accounts accounts word before more tree rest readOn
          rw [spelledNames_declaration spelled (by rw [name]; rfl), ← behind, List.append_assoc]
          rfl
        · cases readOn
    · cases taken
      exact accounts.assignment before _ tree rest readOn

theorem blockOf_accounts (closing : Lexeme) (found : List Tree) :
    (blockOf closing found).Accounts (before ++ found.reverse.flatMap (·.spelled))
      fun tree => before ++ tree.spelled := by
  match found with
  | [] => exact nofun
  | [only] => exact .pure (by simp)
  | result :: second :: earlier =>
    exact .pure (by simp [Tree.spelled, Tree.occurrences, spelled_occurrencesOfStatements])

theorem statements_accounts (accounts : inner.Accounts) {closing : Terminal} (other : closing ≠ .varWord)
    (bound : Nat) (found : List Tree) (before : List Occurrence) :
    (statements inner closing bound found).Accounts (before ++ found.reverse.flatMap (·.spelled))
      fun tree => before ++ tree.spelled := by
  induction bound generalizing found with
  | zero =>
    rw [statements]
    exact .stopUnexpected
  | succ bound induction =>
    have next : (statements.next inner closing bound found).Accounts
        (before ++ found.reverse.flatMap (·.spelled)) fun tree => before ++ tree.spelled := by
      rw [statements.next]
      refine ((statement_accounts accounts _).within _).bind fun tree => ?_
      have longer : before ++ found.reverse.flatMap (·.spelled) ++ tree.spelled =
          before ++ (tree :: found).reverse.flatMap (·.spelled) := by
        simp [List.append_assoc]
      rw [longer]
      refine (Reader.Accounts.takes (by decide)).bind fun semicolon => ?_
      cases semicolon with
      | true => exact induction (tree :: found)
      | false =>
        refine ((Reader.Accounts.require other .blockEnd).within _).bind fun last => ?_
        exact blockOf_accounts last (tree :: found)
    intro lexemes tree rest read
    rw [statements] at read
    dsimp only at read
    split at read
    · next first behind =>
      split at read
      · next closes =>
        rw [spelledNames_cons (Lexeme.isInert_of_is closes other)]
        exact blockOf_accounts first found behind tree rest read
      · exact next _ tree rest read
    · exact next _ tree rest read

theorem block_accounts (accounts : inner.Accounts) {closing : Terminal} (other : closing ≠ .varWord) :
    (block inner closing).AccountsTree := by
  intro before
  have statements := statements_accounts accounts other inner.bound [] before
  rwa [List.reverse_nil, List.flatMap_nil, List.append_nil] at statements

theorem body_accounts (accounts : inner.Accounts) : (body inner).AccountsTree := by
  intro before
  refine (Reader.Accounts.takes (by decide)).bind fun braces => ?_
  cases braces with
  | true => exact block_accounts accounts (by decide) before
  | false => exact statement_accounts accounts before

/-! ## Forms -/

theorem takesElse_accounts : takesElse.Accounts before fun _ => before := by
  intro lexemes value rest read
  have skipping {lexemes : List Lexeme} (read : Reader.takes .elseWord lexemes = .ok (value, rest)) :
      before ++ spelledNames lexemes = before ++ spelledNames rest :=
    Reader.Accounts.takes (by decide) lexemes value rest read
  unfold takesElse at read
  split at read
  · split at read
    · next both =>
      cases read
      rw [Bool.and_eq_true] at both
      rw [spelledNames_cons (Lexeme.isInert_of_is both.1 (by decide)),
        spelledNames_cons (Lexeme.isInert_of_is both.2 (by decide))]
    · exact skipping read
  · exact skipping read

theorem secondBranch_accounts (accounts : inner.Accounts) (start : Place) (condition : Tree) (branch : Place)
    (consequent : Tree) :
    (secondBranch inner start condition branch consequent).Accounts
      (before ++ condition.spelled ++ consequent.spelled)
      fun tree => before ++ tree.spelled := by
  refine takesElse_accounts.bind fun otherwise => ?_
  cases otherwise with
  | false => exact .pure (by simp [Tree.spelled, Tree.occurrences])
  | true =>
    refine ((body_accounts accounts _).within _).bind fun alternative => .pure ?_
    simp [Tree.spelled, Tree.occurrences]

theorem placedBehind_accounts (terminal : Terminal) (other : terminal ≠ .varWord) (wanted : Expectation)
    {read : Reader Tree} (accounts : read.AccountsTree) (before : List Occurrence) :
    Reader.Accounts before (fun pair : Place × Tree => before ++ pair.2.spelled)
      (do
        let _ ← Reader.require terminal wanted
        let start ← Reader.place
        let tree ← read
        pure (start, tree)) := by
  refine (Reader.Accounts.require other wanted).bind fun _ => Reader.Accounts.place.bind fun start => ?_
  exact (accounts _).bind fun tree => .pure rfl

theorem ifForm_accounts (accounts : inner.Accounts) : (ifForm inner).AccountsTree := by
  intro before
  refine (Reader.Accounts.require (by decide) .ifOpen).bind fun _ => ?_
  refine Reader.Accounts.place.bind fun start => (accounts.assignment before).bind fun condition => ?_
  refine (Reader.Accounts.takes (by decide)).bind fun comma => ?_
  cases comma with
  | true =>
    refine Reader.Accounts.place.bind fun branch => ((accounts.assignment _).within _).bind fun consequent => ?_
    refine Reader.Accounts.within ?_ _
    refine (Reader.Accounts.require (by decide) .ifComma).bind fun _ => ?_
    refine (accounts.assignment _).bind fun alternative => ?_
    refine ((Reader.Accounts.require (by decide) .ifEnd).within _).bind fun _ => .pure ?_
    simp [Tree.spelled, Tree.occurrences]
  | false =>
    have branches := placedBehind_accounts .rightParen (by decide) .conditionEnd (body_accounts accounts)
      (before ++ condition.spelled)
    refine (branches.within _).bind ?_
    rintro ⟨branch, consequent⟩
    exact secondBranch_accounts accounts start condition branch consequent

theorem whileForm_accounts (accounts : inner.Accounts) : (whileForm inner).AccountsTree := by
  intro before
  refine (Reader.Accounts.require (by decide) .whileOpen).bind fun _ => ?_
  refine Reader.Accounts.place.bind fun start => (accounts.assignment before).bind fun condition => ?_
  refine Reader.Accounts.within ?_ _
  refine (Reader.Accounts.require (by decide) .whileEnd).bind fun _ => ?_
  refine (body_accounts accounts _).bind fun body => .pure ?_
  simp [Tree.spelled, Tree.occurrences, nothing]

theorem clause_accounts (ending : Terminal) (absent : Tree) (none : absent.spelled = []) {present : Reader Tree}
    (accounts : present.AccountsTree) : (clause ending absent present).AccountsTree := by
  intro before
  refine (Reader.Accounts.sees ending).bind fun ends => ?_
  cases ends with
  | true => exact .pure (by simp [none])
  | false => exact accounts before

theorem forForm_accounts (accounts : inner.Accounts) : (forForm inner).AccountsTree := by
  intro before
  have statements := clause_accounts .semicolon nothing rfl (statement_accounts accounts)
  have lastStatements := clause_accounts .rightParen nothing rfl (statement_accounts accounts)
  have formulas := clause_accounts .semicolon (.number 1.0) rfl accounts.assignment
  refine (Reader.Accounts.require (by decide) .forOpen).bind fun _ => (statements before).bind fun initializer => ?_
  have conditions := placedBehind_accounts .semicolon (by decide) .afterInitializer formulas
    (before ++ initializer.spelled)
  refine (conditions.within _).bind ?_
  rintro ⟨start, condition⟩
  have steps : Reader.Accounts (before ++ initializer.spelled ++ condition.spelled)
      (fun tree => before ++ initializer.spelled ++ condition.spelled ++ tree.spelled)
      (do
        let _ ← Reader.require .semicolon .afterLoopCondition
        clause .rightParen nothing (statement inner)) :=
    (Reader.Accounts.require (by decide) .afterLoopCondition).bind fun _ => lastStatements _
  refine (steps.within _).bind fun step => ?_
  refine Reader.Accounts.within ?_ _
  refine (Reader.Accounts.require (by decide) .forEnd).bind fun _ => ?_
  refine (body_accounts accounts _).bind fun body => .pure ?_
  simp [Tree.spelled, Tree.occurrences]

theorem cases_accounts (accounts : inner.Accounts) (bound : Nat) (found : List ((Place × Tree) × (Place × Tree)))
    (before : List Occurrence) :
    (cases inner bound found).Accounts
      (before ++ found.reverse.flatMap fun one => one.1.2.spelled ++ one.2.2.spelled)
      fun cases => before ++ cases.flatMap fun one => one.1.2.spelled ++ one.2.2.spelled := by
  induction bound generalizing found with
  | zero => exact .pure rfl
  | succ bound induction =>
    refine (Reader.Accounts.takes (by decide)).bind fun another => ?_
    cases another with
    | false => exact .pure rfl
    | true =>
      refine Reader.Accounts.place.bind fun start => ((accounts.assignment _).within _).bind fun condition => ?_
      let tested := before ++ (found.reverse.flatMap fun one => one.1.2.spelled ++ one.2.2.spelled) ++
        condition.spelled
      have results := placedBehind_accounts .colon (by decide) .caseColon accounts.assignment tested
      refine (results.within _).bind ?_
      rintro ⟨resultStart, result⟩
      have longer : tested ++ result.spelled = before ++
          (((start, condition), (resultStart, result)) :: found).reverse.flatMap
            fun one => one.1.2.spelled ++ one.2.2.spelled := by
        simp [tested, List.append_assoc]
      dsimp only
      rw [longer]
      exact ((Reader.Accounts.require (by decide) .caseEnd).within _).bind fun _ => induction _

theorem switchForm_accounts (accounts : inner.Accounts) : (switchForm inner).AccountsTree := by
  intro before
  have listed := cases_accounts accounts inner.bound [] before
  rw [List.reverse_nil, List.flatMap_nil, List.append_nil] at listed
  refine (Reader.Accounts.require (by decide) .switchOpen).bind fun _ => listed.bind fun cases => ?_
  have trees : Reader.Accounts
      (before ++ cases.flatMap fun one => one.1.2.spelled ++ one.2.2.spelled)
      (fun tree : Tree => before ++ tree.spelled)
      (do
        let _ ← Reader.require .defaultWord .caseOrDefault
        let _ ← Reader.require .colon .defaultColon
        let start ← Reader.place
        let otherwise ← inner.assignment
        pure (.choice cases start otherwise)) := by
    refine (Reader.Accounts.require (by decide) .caseOrDefault).bind fun _ => ?_
    refine (Reader.Accounts.require (by decide) .defaultColon).bind fun _ => Reader.Accounts.place.bind fun start => ?_
    refine (accounts.assignment _).bind fun otherwise => .pure ?_
    simp [Tree.spelled, Tree.occurrences, spelled_occurrencesOfCases]
  refine (trees.within _).bind fun tree => (Reader.Accounts.takes (by decide)).bind fun _ => ?_
  exact ((Reader.Accounts.require (by decide) .switchEnd).within _).bind fun _ => .pure rfl

/-! ## Operands -/

/-- A name in front of a parenthesis is called, and any other is looked up. -/
theorem nameForm_accounts (accounts : inner.Accounts) {word : Lexeme} (isName : word.token.isName = true)
    (name : String) {lexemes rest : List Lexeme} {tree : Tree}
    (read : nameForm inner word name lexemes = .ok (tree, rest)) (before : List Occurrence) :
    before ++ spelledNames (word :: lexemes) = before ++ tree.spelled ++ spelledNames rest := by
  obtain ⟨called, between, taken, readOn⟩ := Reader.bind_eq_ok.mp read
  cases opens : startsWith .leftParen lexemes with
  | true =>
    cases lexemes with
    | nil => cases opens
    | cons opening more =>
      rw [Reader.takes_of_is opens] at taken
      cases taken
      rw [spelledNames_call isName opens, spelledNames_cons (Lexeme.isInert_of_is opens (by decide))]
      have arguments : Reader.Accounts (before ++ [.called word.text]) (fun tree : Tree => before ++ tree.spelled)
          (do
            let arguments ← list inner .rightParen (.call word · [])
            let rest ← Reader.remaining
            pure (.call word arguments rest)) := by
        refine (list_accounts accounts (by decide) _).bind fun arguments => ?_
        refine Reader.Accounts.remaining.bind fun rest => ?_
        exact .pure (by simp [Tree.spelled, Tree.occurrences, spelled_occurrencesOfPlaced])
      rw [List.append_cons]
      exact arguments _ tree rest readOn
  | false =>
    rw [Reader.takes_of_not opens] at taken
    cases taken
    rw [if_neg Bool.false_ne_true] at readOn
    rw [spelledNames_name isName opens]
    split at readOn
    · cases readOn
    · cases readOn
      simp [Tree.spelled, Tree.occurrences]

theorem primary_accounts (accounts : inner.Accounts) : (primary inner).AccountsTree := by
  intro before lexemes tree rest read
  unfold primary at read
  split at read
  · cases read
  · next first behind =>
    have later {reader : Reader Tree} (accounts : reader.AccountsTree) (other : first.token.isInert = true)
        (read : reader behind = .ok (tree, rest)) :
        before ++ spelledNames (first :: behind) = before ++ tree.spelled ++ spelledNames rest := by
      rw [spelledNames_cons other]
      exact accounts before behind tree rest read
    have literal {literal : Tree} (none : literal.spelled = []) (other : first.token.isInert = true)
        (read : (.ok (literal, behind) : Except Tree (Tree × List Lexeme)) = .ok (tree, rest)) :
        before ++ spelledNames (first :: behind) = before ++ tree.spelled ++ spelledNames rest := by
      cases read
      rw [spelledNames_cons other, none, List.append_nil]
    split at read
    · next spelled => exact literal rfl (by rw [spelled]; rfl) read
    · next spelled => exact literal rfl (by rw [spelled]; rfl) read
    · next spelled => exact nameForm_accounts accounts (by rw [spelled]; rfl) _ read before
    · next spelled => exact literal rfl (by rw [spelled]; rfl) read
    · next spelled => exact literal rfl (by rw [spelled]; rfl) read
    · next spelled => exact later (block_accounts accounts (by decide)) (by rw [spelled]; rfl) read
    · next spelled => exact later (block_accounts accounts (by decide)) (by rw [spelled]; rfl) read
    · next spelled => exact later (ifForm_accounts accounts) (by rw [spelled]; rfl) read
    · next spelled => exact later (whileForm_accounts accounts) (by rw [spelled]; rfl) read
    · next spelled => exact later (forForm_accounts accounts) (by rw [spelled]; rfl) read
    · next spelled => exact later (switchForm_accounts accounts) (by rw [spelled]; rfl) read
    · cases read

theorem rangeEnd_accounts {assignment : Reader Tree} (accounts : assignment.AccountsTree) (bracket : Lexeme)
    (base : Tree) (firstStart : Place) (first : Tree) (before : List Occurrence) :
    (rangeEnd assignment bracket base firstStart first).Accounts
      (before ++ base.spelled ++ first.spelled) fun tree => before ++ tree.spelled := by
  refine (Reader.Accounts.takes (by decide)).bind fun ended => ?_
  cases ended with
  | true => exact .pure (by simp [Tree.spelled, Tree.occurrences])
  | false =>
    refine Reader.Accounts.place.bind fun lastStart => ((accounts _).within _).bind fun last => ?_
    refine ((Reader.Accounts.require (by decide) .rangeEnd).within _).bind fun _ => .pure ?_
    simp [Tree.spelled, Tree.occurrences]

theorem subscript_accounts {assignment : Reader Tree} (accounts : assignment.AccountsTree) (bracket : Lexeme)
    (base : Tree) :
    (subscript assignment bracket base).Accounts (before ++ base.spelled)
      fun tree => before ++ tree.spelled := by
  refine (Reader.Accounts.takes (by decide)).bind fun ended => ?_
  cases ended with
  | true => exact .pure (by simp [Tree.spelled, Tree.occurrences])
  | false =>
    refine (Reader.Accounts.takes (by decide)).bind fun ranged => ?_
    cases ranged with
    | true =>
      have fromStart := rangeEnd_accounts accounts bracket base .ending (.number 0.0) before
      simpa [Tree.spelled, Tree.occurrences] using fromStart
    | false =>
      refine Reader.Accounts.place.bind fun start => ((accounts _).within _).bind fun index => ?_
      refine (Reader.Accounts.takes (by decide)).bind fun ranged => ?_
      cases ranged with
      | true => exact rangeEnd_accounts accounts bracket base start index before
      | false =>
        refine ((Reader.Accounts.require (by decide) .indexEnd).within _).bind fun _ => .pure ?_
        simp [Tree.spelled, Tree.occurrences]

theorem power_accounts (accounts : inner.Accounts) : (power inner).AccountsTree := by
  intro before
  refine (primary_accounts accounts before).bind fun base => (accounts.subscripts base before).bind fun base => ?_
  refine (Reader.Accounts.acceptTerminal (by decide)).bind fun raising => ?_
  cases raising with
  | none => exact .pure rfl
  | some sign =>
    refine ((accounts.operand _).within _).bind fun exponent => .pure ?_
    simp [spelled_arithmetic]

theorem unary_accounts (accounts : inner.Accounts) : (unary inner).AccountsTree := by
  intro before lexemes tree rest read
  unfold unary at read
  split at read
  · exact power_accounts accounts before _ tree rest read
  · next sign behind =>
    have signed {make : Tree → Tree} (made : ∀ operand, (make operand).occurrences = operand.occurrences)
        (other : sign.token.isInert = true)
        (read : (make <$> inner.operand.within make) behind = .ok (tree, rest)) :
        before ++ spelledNames (sign :: behind) = before ++ tree.spelled ++ spelledNames rest := by
      rw [spelledNames_cons other]
      have accounts : (make <$> inner.operand.within make).AccountsTree := fun before =>
        ((accounts.operand before).within _).bind fun operand => .pure (by rw [Tree.spelled, Tree.spelled, made])
      exact accounts before behind tree rest read
    split at read
    · next spelled => exact signed (fun _ => by rw [Tree.occurrences]) (by rw [spelled]; rfl) read
    · next spelled => exact signed (fun _ => by rw [Tree.occurrences]) (by rw [spelled]; rfl) read
    · next spelled => exact signed (fun _ => by rw [Tree.occurrences]) (by rw [spelled]; rfl) read
    · next spelled => exact signed (fun _ => by rw [Tree.occurrences]) (by rw [spelled]; rfl) read
    · exact power_accounts accounts before _ tree rest read

/-! ## Formulas -/

theorem isInert_of_operatorOf? {level : List BinaryOperator} {sign : Lexeme} {op : BinaryOperator}
    (spelled : operatorOf? level sign = some op) : sign.token.isInert = true := by
  have operator : sign.token.binaryOperator?.isSome = true := by
    unfold operatorOf? at spelled
    split at spelled
    · next found => rw [found]; rfl
    · cases spelled
  exact Lexeme.isInert_of (·.binaryOperator?.isSome) operator (fun _ => rfl) rfl

theorem arithmeticSign_accounts (level : List BinaryOperator) :
    (arithmeticSign level).Accounts before fun _ => before := by
  refine .accept fun sign use accepted => ?_
  obtain ⟨op, spelled, -⟩ := Option.map_eq_some_iff.mp accepted
  exact isInert_of_operatorOf? spelled

theorem logicalSign_accounts (level : List BinaryOperator) :
    (logicalSign level).Accounts before fun _ => before := by
  refine (Reader.Accounts.accept fun sign op => isInert_of_operatorOf?).bind fun found => ?_
  cases found with
  | none => exact .pure rfl
  | some op => exact Reader.Accounts.place.bind fun _ => .pure rfl

theorem product_accounts (accounts : inner.Accounts) : (product inner).AccountsTree :=
  run_accounts (fun _ => arithmeticSign_accounts _) (unary_accounts accounts) spelled_arithmetic inner.bound

theorem sum_accounts (accounts : inner.Accounts) : (sum inner).AccountsTree :=
  run_accounts (fun _ => arithmeticSign_accounts _) (product_accounts accounts) spelled_arithmetic inner.bound

theorem noSecondRelation_accounts : noSecondRelation.Accounts before fun _ => before := by
  intro lexemes value rest read
  unfold noSecondRelation at read
  split at read
  · cases read
  · cases read
    rfl

theorem relation_accounts (accounts : inner.Accounts) : (relation inner).AccountsTree := by
  intro before
  refine (sum_accounts accounts before).bind fun left => ?_
  refine (Reader.Accounts.accept fun sign use accepted => ?_).bind fun found => ?_
  · split at accepted
    · next spelled =>
      exact Lexeme.isInert_of (fun token => (lexemeOf token "").isRelation) spelled (fun _ => rfl) (by decide)
    · cases accepted
  · cases found with
    | none => exact .pure rfl
    | some sign =>
      refine Reader.Accounts.within ((sum_accounts accounts _).bind fun right => ?_) _
      refine (noSecondRelation_accounts.within _).bind fun _ => .pure ?_
      simp [Tree.spelled, Tree.occurrences]

theorem logical_accounts (level : List BinaryOperator) {operand : Reader Tree} (accounts : operand.AccountsTree) :
    (logical inner level operand).AccountsTree := by
  intro before
  refine Reader.Accounts.place.bind fun start => ?_
  exact run_accounts (fun _ => logicalSign_accounts _) accounts (spelled_logical start) inner.bound before

theorem disjunction_accounts (accounts : inner.Accounts) : (disjunction inner).AccountsTree :=
  logical_accounts _ (logical_accounts _ (logical_accounts _ (relation_accounts accounts)))

theorem conditional_accounts (accounts : inner.Accounts) : (conditional inner).AccountsTree := by
  intro before
  refine Reader.Accounts.place.bind fun start => (disjunction_accounts accounts before).bind fun condition => ?_
  refine (Reader.Accounts.takes (by decide)).bind fun question => ?_
  cases question with
  | false => exact .pure rfl
  | true =>
    refine Reader.Accounts.place.bind fun branch => ((accounts.assignment _).within _).bind fun consequent => ?_
    refine Reader.Accounts.within ((Reader.Accounts.require (by decide) .conditionalColon).bind fun _ => ?_) _
    refine (accounts.assignment _).bind fun alternative => .pure ?_
    simp [Tree.spelled, Tree.occurrences]

/-! ## Assignments

The sign of an assignment has been looked at before it is taken, so it is neither a name nor a keyword.
-/

theorem assignmentSign_accounts {lexemes rest : List Lexeme} {sign : Lexeme}
    (assigns : startsWithAssignmentSign lexemes = true) (read : assignmentSign lexemes = .ok (sign, rest)) :
    spelledNames lexemes = spelledNames rest := by
  unfold assignmentSign at read
  split at read
  · cases read
  · next first behind =>
    cases read
    exact spelledNames_cons (Lexeme.isInert_of Token.assigns assigns (fun _ => rfl) rfl) rest

theorem wholeAssignment_accounts (accounts : inner.Accounts) (word : Lexeme) {lexemes rest : List Lexeme} {tree : Tree}
    (assigns : startsWithAssignmentSign lexemes = true)
    (read : wholeAssignment inner word lexemes = .ok (tree, rest)) :
    .sought word.text :: spelledNames lexemes = tree.spelled ++ spelledNames rest := by
  obtain ⟨sign, behind, signRead, read⟩ := Reader.bind_eq_ok.mp read
  rw [assignmentSign_accounts assigns (Reader.within_eq_ok.mp signRead)]
  have values : Reader.Accounts [.sought word.text] (fun tree : Tree => tree.spelled)
      (do
        let start ← Reader.place
        let value ← inner.assignment.within (.assignment word sign start)
        pure (.assignment word sign start value)) := by
    refine Reader.Accounts.place.bind fun start => ((accounts.assignment _).within _).bind fun value => .pure ?_
    simp [Tree.spelled, Tree.occurrences]
  exact values behind tree rest read

/-- Behind the bracket that closes the index stands the sign that the look ahead has found. -/
theorem elementAssignment_accounts (accounts : inner.Accounts) (word : Lexeme) {opening : Lexeme}
    (opened : opening.is .leftBracket = true) {lexemes rest : List Lexeme} {tree : Tree}
    (assigns : assignsElement 0 (opening :: lexemes) = true)
    (read : elementAssignment inner word lexemes = .ok (tree, rest)) :
    .sought word.text :: spelledNames lexemes = tree.spelled ++ spelledNames rest := by
  obtain ⟨_, _, ⟨⟩, read⟩ := Reader.bind_eq_ok.mp read
  obtain ⟨index, behindIndex, indexRead, read⟩ := Reader.bind_eq_ok.mp read
  obtain ⟨sign, behindSign, signRead, read⟩ := Reader.bind_eq_ok.mp read
  obtain ⟨closing, behindClosing, closingRead, signRead⟩ := Reader.bind_eq_ok.mp (Reader.within_eq_ok.mp signRead)
  have indexRead := Reader.within_eq_ok.mp indexRead
  have derived := accounts.sound.assignment lexemes
  rw [indexRead] at derived
  obtain ⟨taken, split, derived⟩ := derived
  have closed := Reader.Reads.require .rightBracket .indexEnd behindIndex
  rw [closingRead] at closed
  obtain ⟨_, bracket, rfl, closes⟩ := closed
  rw [split, bracket, List.singleton_append, assignsElement_brackets opened closes derived.passedOver] at assigns
  let before := .sought word.text :: index.spelled
  have values (start : Place) : Reader.Accounts before (fun tree : Tree => tree.spelled)
      (do
        let value ← inner.assignment.within (.elementAssignment word start index sign)
        pure (.elementAssignment word start index sign value)) := by
    exact ((accounts.assignment _).within _).bind fun value => .pure (by simp [before, Tree.spelled, Tree.occurrences])
  calc .sought word.text :: spelledNames lexemes
    _ = before ++ spelledNames behindIndex := accounts.assignment [.sought word.text] _ _ _ indexRead
    _ = before ++ spelledNames behindClosing := Reader.Accounts.require (by decide) .indexEnd _ _ _ closingRead
    _ = before ++ spelledNames behindSign := by rw [assignmentSign_accounts assigns signRead]
    _ = tree.spelled ++ spelledNames rest := values _ behindSign tree rest read

theorem assignment_accounts (accounts : inner.Accounts) : (assignment inner).AccountsTree := by
  intro before lexemes tree rest read
  unfold assignment at read
  split at read
  · exact conditional_accounts accounts before _ tree rest read
  · next word behind =>
    split at read
    · next starts =>
      have uncalled := noParen_of_startsAssignment starts
      rw [startsAssignment_cons, Bool.and_eq_true] at starts
      obtain ⟨name, assigns⟩ := starts
      rw [List.append_assoc]
      refine congrArg (before ++ ·) ?_
      obtain ⟨bracketed, between, taken, readOn⟩ := Reader.bind_eq_ok.mp read
      cases opens : startsWith .leftBracket behind with
      | false =>
        rw [Reader.takes_of_not opens] at taken
        cases taken
        rw [if_neg (Bool.eq_false_iff.mp opens)] at assigns
        rw [spelledNames_name name uncalled]
        exact wholeAssignment_accounts accounts word assigns readOn
      | true =>
        rw [if_pos opens] at assigns
        cases behind with
        | nil => cases opens
        | cons opening more =>
          rw [Reader.takes_of_is opens] at taken
          cases taken
          rw [spelledNames_name name uncalled, spelledNames_cons (Lexeme.isInert_of_is opens (by decide))]
          exact elementAssignment_accounts accounts word opens assigns readOn
    · exact conditional_accounts accounts before _ tree rest read

/-! ## Levels -/

theorem innerAt_accounts (limit bound level : Nat) : (innerAt limit bound level).Accounts := by
  induction level with
  | zero =>
    refine ⟨innerAt_sound limit bound 0, fun _ => nofun, fun _ => nofun, fun base before lexemes tree rest read => ?_⟩
    change subscriptsAt limit bound 0 base lexemes = .ok (tree, rest) at read
    rw [subscriptsAt] at read
    split at read
    · cases read
    · cases read
      rfl
  | succ level induction =>
    refine ⟨innerAt_sound limit bound (level + 1), assignment_accounts induction, unary_accounts induction,
      fun base before => ?_⟩
    refine (Reader.Accounts.acceptTerminal (by decide)).bind fun found => ?_
    cases found with
    | none => exact .pure rfl
    | some bracket =>
      exact (subscript_accounts induction.assignment bracket base).bind fun base => induction.subscripts base before

theorem endedStatement_accounts (accounts : inner.Accounts) : (endedStatement inner).AccountsTree := by
  intro before
  have ends {before : List Occurrence} : statementEnd.Accounts before fun _ => before := by
    intro lexemes value rest read
    unfold statementEnd at read
    split at read
    · cases read
      rfl
    · split at read
      · next spelled =>
        cases read
        rw [spelledNames_cons (Lexeme.isInert_of_is spelled (by decide))]
      · cases read
  exact (statement_accounts accounts before).bind fun tree => (ends.within _).bind fun _ => .pure rfl

end Grammar

end LiveExpr
