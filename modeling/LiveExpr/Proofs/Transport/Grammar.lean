import LiveExpr.Proofs.Transport.Reader

/-!
The grammar in other sources. Every reader of the grammar does with carried lexemes what it does with the lexemes, so a
statement is read into trees that go together.
-/

namespace LiveExpr.Grammar

open Reader (Carries CarriesFrom CarriesTree)

/-- Whether the readers of the next deeper level go together, and the second source allows the rounds that it needs. -/
structure Inner.Carries (transport : Transport) (inner other : Inner) : Prop where
  sound : inner.Sound
  assignment : CarriesTree transport inner.bound inner.assignment other.assignment
  operand : CarriesTree transport inner.bound inner.operand other.operand
  subscripts {base otherBase : Tree} (carried : base.Carried transport otherBase) :
    CarriesTree transport inner.bound (inner.subscripts base) (other.subscripts otherBase)
  bound : other.bound = inner.bound + transport.slack

variable {transport : Transport}

/-! ## Repetitions -/

section Runs

variable {α : Type} {change : α → α} {sign otherSign : Reader (Option α)} {operand otherOperand : Reader Tree}
  {bound : Nat}

/-- A step of a run and one that goes with it in the other source. -/
abbrev StepCarried (transport : Transport) (change : α → α) (one other : α × Tree) : Prop :=
  other.1 = change one.1 ∧ one.2.Carried transport other.2

structure CarriesSign (transport : Transport) (change : α → α) (sign otherSign : Reader (Option α)) : Prop where
  carries (rounds : Nat) (brackets : List Terminal) :
    Carries transport (transport.Fits rounds brackets) (fun found other => other = found.map change)
      (fun found => transport.Past rounds brackets brackets found.isSome) sign otherSign
  ends : otherSign [] = .ok (none, [])

variable (signs : CarriesSign transport change sign otherSign)
  (operands : CarriesTree transport bound operand otherOperand)

include signs operands

theorem operators_carries {make otherMake : List (α × Tree) → Tree}
    (made : ∀ run others, List.Forall₂ (StepCarried transport change) run others →
      (make run).Carried transport (otherMake others))
    {count rounds : Nat} (enough : rounds ≤ count) (room : rounds ≤ bound) {found others : List (α × Tree)}
    (before : List.Forall₂ (StepCarried transport change) found others) (brackets : List Terminal) :
    Carries transport (transport.Fits rounds brackets) (List.Forall₂ (StepCarried transport change))
      (fun _ => transport.Fits rounds brackets) (operators sign operand make count found)
      (operators otherSign otherOperand otherMake (count + transport.slack) others) := by
  induction count generalizing rounds found others with
  | zero =>
    intro lexemes fits
    obtain rfl : lexemes = [] := List.length_eq_zero_iff.mp (Nat.le_zero.mp (Nat.le_trans fits.2 enough))
    have ended : operators otherSign otherOperand otherMake (0 + transport.slack) others [] =
        .ok (others.reverse, []) := by
      cases 0 + transport.slack with
      | zero => rfl
      | succ more => exact Reader.bind_of_ok signs.ends _
    rw [Transport.carry_nil fits.1, ended]
    exact .read_nil (List.forall₂_reverse_iff.mpr before) fits.1 fits
  | succ count induction =>
    rw [Nat.succ_add]
    refine (signs.carries rounds brackets).bind_change fun accepted => ?_
    cases accepted with
    | none => exact .pure (List.forall₂_reverse_iff.mpr before) fun _ => id
    | some spelled =>
      refine .spare fun fewer less => ?_
      have room : fewer ≤ bound := Nat.le_trans (Nat.le_of_lt less) room
      have enough : fewer ≤ count := Nat.le_of_lt_succ (Nat.lt_of_lt_of_le less enough)
      have longer {right otherRight : Tree} (carried : right.Carried transport otherRight) :
          List.Forall₂ (StepCarried transport change) ((spelled, right) :: found)
            ((change spelled, otherRight) :: others) := .cons ⟨rfl, carried⟩ before
      refine ((operands fewer room brackets).within fun tree other carried => ?_).bind
        fun right otherRight carried => ?_
      · exact made _ _ (List.forall₂_reverse_iff.mpr (longer carried))
      · exact induction enough room (longer carried)

theorem run_carries {make otherMake : Tree → List (α × Tree) → Tree}
    (made : ∀ first other run others, first.Carried transport other →
      List.Forall₂ (StepCarried transport change) run others →
      (make first run).Carried transport (otherMake other others)) :
    CarriesTree transport bound (run bound sign operand make)
      (run (bound + transport.slack) otherSign otherOperand otherMake) := by
  intro rounds room brackets
  refine (operands rounds room brackets).bind fun first other carried => ?_
  have steps := operators_carries signs operands (fun run others => made first other run others carried) room room
    .nil brackets
  refine steps.bind fun rest others steps => .pure ?_ fun _ => id
  cases steps with
  | nil => exact carried
  | cons step steps => exact made _ _ _ _ carried (.cons step steps)

end Runs

open Tree.Carried (Placed)

variable {inner other : Inner} (carries : inner.Carries transport other) {rounds : Nat} (room : rounds ≤ inner.bound)
  (brackets : List Terminal)

include carries room

theorem items_carries {closing : Terminal} {make otherMake : List (Place × Tree) → Tree}
    (made : ∀ run others, List.Forall₂ (Placed transport) run others → (∃ one ∈ run, one.2.Halts) →
      (make run).Carried transport (otherMake others))
    {count : Nat} (enough : rounds < count) {found others : List (Place × Tree)}
    (before : List.Forall₂ (Placed transport) found others) :
    Carries transport (transport.Fits rounds (closing :: brackets)) (List.Forall₂ (Placed transport))
      (fun _ => transport.Fits rounds brackets) (items inner closing make count found)
      (items other closing otherMake (count + transport.slack) others) := by
  induction count generalizing rounds found others with
  | zero => exact absurd enough (Nat.not_lt_zero _)
  | succ count induction =>
    rw [Nat.succ_add]
    have longer (start : Place) {item otherItem : Tree} (carried : item.Carried transport otherItem) :
        List.Forall₂ (Placed transport) ((start, item) :: found) ((start.moved transport, otherItem) :: others) :=
      .cons ⟨rfl, carried⟩ before
    have stopping (start : Place) {found others : List (Place × Tree)}
        (before : List.Forall₂ (Placed transport) found others) (tree other : Tree) (halts : tree.Halts)
        (carried : tree.Carried transport other) :
        (make ((start, tree) :: found).reverse).Carried transport
          (otherMake ((start.moved transport, other) :: others).reverse) :=
      made _ _ (List.forall₂_reverse_iff.mpr (.cons ⟨rfl, carried⟩ before)) (halts_reverse start halts found)
    refine Carries.place.bind_change fun start => ?_
    have read := (carries.assignment rounds room (closing :: brackets)).within_of_halts carries.sound.assignment
      (stopping start before)
    refine read.bind fun item otherItem carried => ?_
    refine (Carries.takes (Transport.passes_plain rfl)).bind_same fun comma => ?_
    cases comma with
    | true =>
      refine .spare fun fewer less => ?_
      have room : fewer ≤ inner.bound := Nat.le_trans (Nat.le_of_lt less) room
      have enough : fewer < count := Nat.lt_of_lt_of_le less (Nat.le_of_lt_succ enough)
      exact induction room enough (longer start carried)
    | false =>
      refine ((Carries.require Transport.passes_closing .listEnd).within_of_halts (.require closing .listEnd)
        (stopping start (longer start carried))).bind_change fun _ => ?_
      exact .pure (List.forall₂_reverse_iff.mpr (longer start carried)) fun _ => id

theorem list_carries {closing : Terminal} {make otherMake : List (Place × Tree) → Tree}
    (made : ∀ run others, List.Forall₂ (Placed transport) run others → (∃ one ∈ run, one.2.Halts) →
      (make run).Carried transport (otherMake others)) :
    Carries transport (transport.Spares rounds (closing :: brackets)) (List.Forall₂ (Placed transport))
      (fun _ => transport.Fits rounds brackets) (list inner closing make) (list other closing otherMake) := by
  refine .spare fun fewer less => ?_
  have strict : fewer < inner.bound := Nat.lt_of_lt_of_le less room
  refine (Carries.takes Transport.passes_closing).bind_same fun empty => ?_
  cases empty with
  | true => exact .pure .nil fun _ => Transport.Spares.fits
  | false =>
    rw [carries.bound]
    exact items_carries carries (Nat.le_of_lt strict) brackets made strict .nil

/-! ## Declarations and blocks -/

omit carries room in
theorem vectorSize_carries :
    Carries transport (transport.Fits rounds brackets) Eq (fun _ => transport.Fits rounds brackets) vectorSize
      vectorSize := by
  intro lexemes fits
  cases lexemes with
  | nil =>
    rw [Transport.carry_nil fits.1]
    exact .stop_nil (.badVectorSize none) fits.1
  | cons first rest =>
    rw [transport.carry_cons, vectorSize, vectorSize, transport.token_move, transport.text_move]
    cases sized : vectorSize? first.token with
    | none => exact .stop (.badVectorSize (some first.text)) fits.1
    | some size =>
      have plain : first.token.isPlain = true := by
        unfold vectorSize? at sized
        split at sized
        · next number => rw [number]; rfl
        · cases sized
      exact .read rfl (fits.plain plain).fits

omit carries room in
theorem closedVectorSize_carries :
    Carries transport (transport.Fits rounds (.rightBracket :: brackets)) Eq
      (fun _ => transport.Fits rounds brackets) closedVectorSize closedVectorSize := by
  refine (vectorSize_carries _).bind_same fun size => ?_
  exact (Carries.require Transport.passes_closing .sizeEnd).bind_change fun _ => .pure rfl fun _ => id

theorem vectorContent_carries (word : Lexeme) (size : Nat) :
    CarriesFrom transport rounds brackets brackets (vectorContent inner word size)
      (vectorContent other (transport.move word) size) := by
  refine (Carries.takes (Transport.passes_plain rfl)).bind_same fun assigned => ?_
  cases assigned with
  | false => exact .pure (.listedVector word size word .nil) fun _ => id
  | true =>
    refine .fit ((Carries.acceptTerminal (Transport.passes_opening rfl)).bind_change fun bracket => ?_)
    cases bracket with
    | some bracket =>
      refine (list_carries carries room brackets fun _ _ placed _ => ?_).bind fun elements others placed => ?_
      · exact .listedVector word size bracket placed
      · exact .pure (.listedVector word size bracket placed) fun _ => id
    | none =>
      refine Carries.place.bind_change fun start => ?_
      have value := (carries.assignment rounds room brackets).within fun tree other carried =>
        Tree.Carried.filledVector word size start carried
      exact value.bind fun value otherValue carried => .pure (.filledVector word size start carried) fun _ => id

theorem declarationOf_carries (word : Lexeme) :
    CarriesFrom transport rounds brackets brackets (declarationOf inner word)
      (declarationOf other (transport.move word)) := by
  refine (Carries.takes (Transport.passes_opening rfl)).bind_same fun bracket => ?_
  cases bracket with
  | true =>
    refine .fit (((closedVectorSize_carries brackets).within fun tree other carried => ?_).bind_same fun size => ?_)
    · exact .declaration word .ending carried
    · exact vectorContent_carries carries room brackets word size
  | false =>
    refine (Carries.takes (Transport.passes_plain rfl)).bind_same fun assigned => ?_
    cases assigned with
    | false => exact .pure (.declaration word .ending (.number 0.0)) fun _ => id
    | true =>
      refine .fit (Carries.place.bind_change fun start => ?_)
      have value := (carries.assignment rounds room brackets).within fun tree other carried =>
        Tree.Carried.declaration word start carried
      exact value.bind fun value otherValue carried => .pure (.declaration word start carried) fun _ => id

theorem declaration_carries :
    CarriesFrom transport rounds brackets brackets (declaration inner)
      (declaration other) := by
  intro lexemes fits
  cases lexemes with
  | nil =>
    rw [Transport.carry_nil fits.1]
    exact .stop_nil .unexpectedEnd fits.1
  | cons word rest =>
    rw [transport.carry_cons, declaration, declaration, transport.token_move, transport.text_move]
    cases spelled : word.token with
    | name name =>
      have plain : word.token.isPlain = true := by rw [spelled]; rfl
      exact declarationOf_carries carries room brackets word rest (fits.plain plain).fits
    | number | text | fixed => exact .stop (.expected .declaredName (some word.text)) fits.1

theorem statement_carries :
    CarriesFrom transport rounds brackets brackets (statement inner)
      (statement other) := by
  refine (Carries.takes (Transport.passes_plain rfl)).bind_same fun declares => ?_
  cases declares with
  | true => exact .fit (declaration_carries carries room brackets)
  | false => exact carries.assignment rounds room brackets

omit carries room in
theorem blockOf_carries (closing : Lexeme) {found others : List Tree}
    (carried : List.Forall₂ (Tree.Carried transport) found others) :
    CarriesFrom transport rounds brackets brackets (blockOf closing found)
      (blockOf (transport.move closing) others) := by
  cases carried with
  | nil => exact fun _ fits => .stopped (.stop .emptyBlock rfl fits.1)
  | cons result earlier =>
    cases earlier with
    | nil => exact .pure result fun _ => id
    | cons second earlier =>
      exact .pure (.block (List.forall₂_reverse_iff.mpr (.cons second earlier)) result) fun _ => id

theorem statements_carries (closing : Terminal) {count : Nat} (enough : rounds < count) {found others : List Tree}
    (before : List.Forall₂ (Tree.Carried transport) found others) :
    CarriesFrom transport rounds (closing :: brackets) brackets (statements inner closing count found)
      (statements other closing (count + transport.slack) others) := by
  induction count generalizing rounds found others with
  | zero => exact absurd enough (Nat.not_lt_zero _)
  | succ count induction =>
    have stopping {found others : List Tree} (before : List.Forall₂ (Tree.Carried transport) found others)
        (tree other : Tree) (carried : tree.Carried transport other) :
        (Tree.block found.reverse tree).Carried transport (.block others.reverse other) :=
      .block (List.forall₂_reverse_iff.mpr before) carried
    have next : CarriesFrom transport rounds (closing :: brackets) brackets (statements.next inner closing count found)
        (statements.next other closing (count + transport.slack) others) := by
      rw [statements.next, statements.next]
      have read := (statement_carries carries room (closing :: brackets)).within (stopping before)
      refine read.bind fun tree otherTree carried => ?_
      refine (Carries.takes Transport.passes_semicolon).bind_same fun semicolon => ?_
      cases semicolon with
      | true =>
        refine .spare fun fewer less => ?_
        have room : fewer ≤ inner.bound := Nat.le_trans (Nat.le_of_lt less) room
        have enough : fewer < count := Nat.lt_of_lt_of_le less (Nat.le_of_lt_succ enough)
        exact induction room enough (.cons carried before)
      | false =>
        refine ((Carries.require Transport.passes_closing .blockEnd).within
          (stopping (.cons carried before))).bind_change fun last => ?_
        exact blockOf_carries brackets last (.cons carried before)
    rw [Nat.succ_add]
    intro lexemes fits
    cases lexemes with
    | nil =>
      have outcome := next [] fits
      rw [Transport.carry_nil fits.1] at outcome ⊢
      rw [statements, statements]
      exact outcome
    | cons first rest =>
      rw [transport.carry_cons, statements, statements]
      dsimp only
      rw [transport.is_move]
      split
      · next closes =>
        exact blockOf_carries brackets first before rest (fits.rest (transport.admits_closing fits.1 closes)).fits
      · exact next (first :: rest) fits

theorem block_carries (closing : Terminal) :
    Carries transport (transport.Spares rounds (closing :: brackets)) (Tree.Carried transport)
      (fun _ => transport.Fits rounds brackets) (block inner closing) (block other closing) := by
  refine .spare fun fewer less => ?_
  have strict : fewer < inner.bound := Nat.lt_of_lt_of_le less room
  unfold block
  rw [carries.bound]
  exact statements_carries carries (Nat.le_of_lt strict) brackets closing strict .nil

theorem body_carries : CarriesFrom transport rounds brackets brackets (body inner) (body other) := by
  refine (Carries.takes (Transport.passes_opening rfl)).bind_same fun braces => ?_
  cases braces with
  | true => exact block_carries carries room brackets .rightBrace
  | false => exact statement_carries carries room brackets

/-! ## Forms -/

omit carries room in
theorem takesElse_cons (first : Lexeme) (rest : List Lexeme) :
    takesElse (first :: rest) = if first.is .semicolon && startsWith .elseWord rest then .ok (true, rest.tail)
      else Reader.takes .elseWord (first :: rest) := by
  cases rest with
  | nil => simp [takesElse, startsWith]
  | cons second more => rfl

omit carries room in
theorem takesElse_carries :
    Carries transport (transport.Fits rounds brackets) Eq (transport.Past rounds brackets brackets) takesElse
      takesElse := by
  have skipping : Carries transport (transport.Fits rounds brackets) Eq (transport.Past rounds brackets brackets)
      (Reader.takes .elseWord) (Reader.takes .elseWord) := Carries.takes (Transport.passes_plain rfl)
  intro lexemes fits
  cases lexemes with
  | nil =>
    have outcome := skipping [] fits
    rw [Transport.carry_nil fits.1] at outcome ⊢
    exact outcome
  | cons first rest =>
    have ahead : startsWith .elseWord (transport.carry rest) = startsWith .elseWord rest := by
      cases rest with
      | nil => exact transport.noElse_behind
      | cons second more => exact transport.is_move second .elseWord
    rw [transport.carry_cons, takesElse_cons, takesElse_cons, transport.is_move, ahead]
    split
    · next both =>
      obtain ⟨separates, otherwise⟩ := Bool.and_eq_true_iff.mp both
      cases rest with
      | nil => cases otherwise
      | cons second more =>
        exact .read rfl ⟨transport.admits_else fits.1 separates otherwise, Nat.lt_of_succ_lt fits.2⟩
    · exact skipping (first :: rest) fits

theorem secondBranch_carries (start : Place) {condition otherCondition : Tree}
    (first : condition.Carried transport otherCondition) (branch : Place) {consequent otherConsequent : Tree}
    (second : consequent.Carried transport otherConsequent) :
    CarriesFrom transport rounds brackets brackets (secondBranch inner start condition branch consequent)
      (secondBranch other (start.moved transport) otherCondition (branch.moved transport) otherConsequent) := by
  refine (takesElse_carries brackets).bind_same fun otherwise => ?_
  cases otherwise with
  | false => exact .pure (.conditionalOnly start branch first second) fun _ => id
  | true =>
    have last := (body_carries carries room brackets).within fun tree other carried =>
      Tree.Carried.conditional start branch first second carried
    exact .fit (last.bind fun alternative otherAlternative third =>
      .pure (.conditional start branch first second third) fun _ => id)

omit carries room in
theorem placedBehind_carries (terminal : Terminal) {outside inside : List Terminal}
    (passes : transport.Passes terminal outside inside) (wanted : Expectation) {read otherRead : Reader Tree}
    (reads : CarriesFrom transport rounds inside brackets read otherRead) :
    Carries transport (transport.Fits rounds outside) (Placed transport) (fun _ => transport.Fits rounds brackets)
      (do
        let _ ← Reader.require terminal wanted
        let start ← Reader.place
        let tree ← read
        pure (start, tree))
      (do
        let _ ← Reader.require terminal wanted
        let start ← Reader.place
        let tree ← otherRead
        pure (start, tree)) := by
  refine (Carries.require passes wanted).bind_change fun _ => Carries.place.bind_change fun start => ?_
  exact reads.bind fun _ _ carried => .pure ⟨rfl, carried⟩ fun _ => id

theorem ifForm_carries : CarriesFrom transport rounds brackets brackets (ifForm inner) (ifForm other) := by
  refine (Carries.require (Transport.passes_opening rfl) .ifOpen).bind_change fun _ => ?_
  refine Carries.place.bind_change fun start => ?_
  refine (carries.assignment rounds room _).bind fun condition otherCondition first => ?_
  refine (Carries.takes (Transport.passes_plain rfl)).bind_same fun comma => ?_
  cases comma with
  | true =>
    refine .fit (Carries.place.bind_change fun branch => ?_)
    have read := (carries.assignment rounds room (.rightParen :: brackets)).within fun tree other carried =>
      Tree.Carried.conditional start branch first carried carried
    refine read.bind fun consequent otherConsequent second => ?_
    refine Carries.within ?_ fun tree other carried => .conditional start branch first second carried
    refine (Carries.require (Transport.passes_plain rfl) .ifComma).bind_change fun _ => ?_
    refine (carries.assignment rounds room _).bind fun alternative otherAlternative third => ?_
    refine ((Carries.require Transport.passes_closing .ifEnd).within fun tree other carried => ?_).bind_change
      fun _ => ?_
    · exact .andThen third carried
    · exact .pure (.conditional start branch first second third) fun _ => id
  | false =>
    have branches := placedBehind_carries brackets .rightParen Transport.passes_closing .conditionEnd
      (body_carries carries room brackets)
    have read := branches.within fun tree other carried =>
      Tree.Carried.conditional start .ending first carried carried
    refine read.bind ?_
    rintro ⟨branch, consequent⟩ ⟨_, otherConsequent⟩ ⟨⟨⟩, second⟩
    exact secondBranch_carries carries room brackets start first branch second

theorem whileForm_carries : CarriesFrom transport rounds brackets brackets (whileForm inner) (whileForm other) := by
  refine (Carries.require (Transport.passes_opening rfl) .whileOpen).bind_change fun _ => ?_
  refine Carries.place.bind_change fun start => ?_
  refine (carries.assignment rounds room _).bind fun condition otherCondition asked => ?_
  have looping {body otherBody : Tree} (carried : body.Carried transport otherBody) :
      (Tree.loop nothing start condition nothing body).Carried transport
        (.loop nothing (start.moved transport) otherCondition nothing otherBody) :=
    .loop start (.number 0.0) asked (.number 0.0) carried
  refine Carries.within ?_ fun tree other carried => looping carried
  refine (Carries.require Transport.passes_closing .whileEnd).bind_change fun _ => ?_
  exact (body_carries carries room brackets).bind fun _ _ carried => .pure (looping carried) fun _ => id

omit carries room in
theorem clause_carries (ending : Terminal) {absent otherAbsent : Tree} (left : absent.Carried transport otherAbsent)
    {present otherPresent : Reader Tree} (read : CarriesFrom transport rounds brackets brackets present otherPresent) :
    CarriesFrom transport rounds brackets brackets (clause ending absent present)
      (clause ending otherAbsent otherPresent) := by
  refine (Carries.sees ending).bind_same fun ended => ?_
  cases ended with
  | true => exact .pure left fun _ => id
  | false => exact read

theorem forForm_carries : CarriesFrom transport rounds brackets brackets (forForm inner) (forForm other) := by
  refine (Carries.require (Transport.passes_opening rfl) .forOpen).bind_change fun _ => ?_
  have initialized := clause_carries (.rightParen :: brackets) .semicolon (.number 0.0)
    (statement_carries carries room (.rightParen :: brackets))
  refine initialized.bind fun initializer otherInitializer first => ?_
  have asked := clause_carries (.rightParen :: brackets) .semicolon (.number 1.0)
    (carries.assignment rounds room (.rightParen :: brackets))
  have conditions := placedBehind_carries _ .semicolon Transport.passes_semicolon .afterInitializer asked
  have conditions := conditions.within fun tree other carried => Tree.Carried.andThen first carried
  refine conditions.bind ?_
  rintro ⟨start, condition⟩ ⟨_, otherCondition⟩ ⟨⟨⟩, second⟩
  have looping {step otherStep body otherBody : Tree} (third : step.Carried transport otherStep)
      (last : body.Carried transport otherBody) :
      (Tree.loop initializer start condition step body).Carried transport
        (.loop otherInitializer (start.moved transport) otherCondition otherStep otherBody) :=
    .loop start first second third last
  have steps : CarriesFrom transport rounds (.rightParen :: brackets) (.rightParen :: brackets)
      (do
        let _ ← Reader.require .semicolon .afterLoopCondition
        clause .rightParen nothing (statement inner))
      (do
        let _ ← Reader.require .semicolon .afterLoopCondition
        clause .rightParen nothing (statement other)) :=
    (Carries.require Transport.passes_semicolon .afterLoopCondition).bind_change fun _ =>
      clause_carries (.rightParen :: brackets) .rightParen (.number 0.0)
        (statement_carries carries room (.rightParen :: brackets))
  have steps := steps.within fun tree other carried => looping carried carried
  refine steps.bind fun step otherStep third => ?_
  refine Carries.within ?_ fun tree other carried => looping third carried
  refine (Carries.require Transport.passes_closing .forEnd).bind_change fun _ => ?_
  exact (body_carries carries room brackets).bind fun _ _ carried => .pure (looping third carried) fun _ => id

open Tree.Carried (Case)

theorem cases_carries (closing : Terminal) {count : Nat} (enough : rounds ≤ count)
    {found others : List ((Place × Tree) × (Place × Tree))} (before : List.Forall₂ (Case transport) found others) :
    Carries transport (transport.Fits rounds (closing :: brackets)) (List.Forall₂ (Case transport))
      (fun _ => transport.Fits rounds (closing :: brackets)) (cases inner count found)
      (cases other (count + transport.slack) others) := by
  have stopping {found others : List ((Place × Tree) × (Place × Tree))}
      (before : List.Forall₂ (Case transport) found others) (tree other : Tree)
      (carried : tree.Carried transport other) :
      (Tree.choice found.reverse .ending tree).Carried transport (.choice others.reverse .ending other) :=
    .choice .ending (List.forall₂_reverse_iff.mpr before) carried
  induction count generalizing rounds found others with
  | zero =>
    intro lexemes fits
    obtain rfl : lexemes = [] := List.length_eq_zero_iff.mp (Nat.le_zero.mp (Nat.le_trans fits.2 enough))
    have ended : cases other (0 + transport.slack) others [] = .ok (others.reverse, []) := by
      cases 0 + transport.slack with
      | zero => rfl
      | succ more => rfl
    rw [Transport.carry_nil fits.1, ended]
    exact .read_nil (List.forall₂_reverse_iff.mpr before) fits.1 fits
  | succ count induction =>
    rw [Nat.succ_add]
    refine (Carries.takes (Transport.passes_plain rfl)).bind_same fun another => ?_
    cases another with
    | false => exact .pure (List.forall₂_reverse_iff.mpr before) fun _ => id
    | true =>
      refine .spare fun fewer less => ?_
      have room : fewer ≤ inner.bound := Nat.le_trans (Nat.le_of_lt less) room
      have enough : fewer ≤ count := Nat.le_of_lt_succ (Nat.lt_of_lt_of_le less enough)
      refine Carries.place.bind_change fun start => ?_
      have asked := (carries.assignment fewer room (closing :: brackets)).within (stopping before)
      refine asked.bind fun condition otherCondition first => ?_
      have results := placedBehind_carries _ .colon (Transport.passes_plain rfl) .caseColon
        (carries.assignment fewer room (closing :: brackets))
      refine (results.within fun tree other carried => ?_).bind ?_
      · exact stopping (.cons ⟨⟨rfl, first⟩, rfl, carried⟩ before) tree other carried
      rintro ⟨resultStart, result⟩ ⟨_, otherResult⟩ ⟨⟨⟩, second⟩
      have longer : List.Forall₂ (Case transport) (((start, condition), (resultStart, result)) :: found)
          (((start.moved transport, otherCondition), (resultStart.moved transport, otherResult)) :: others) :=
        .cons ⟨⟨rfl, first⟩, rfl, second⟩ before
      refine ((Carries.require Transport.passes_semicolon .caseEnd).within (stopping longer)).bind_change fun _ => ?_
      exact induction room enough longer

theorem switchForm_carries : CarriesFrom transport rounds brackets brackets (switchForm inner) (switchForm other) := by
  refine (Carries.require (Transport.passes_opening rfl) .switchOpen).bind_change fun _ => ?_
  rw [carries.bound]
  refine (cases_carries carries room brackets .rightBrace room .nil).bind fun cases others tested => ?_
  have trees : CarriesFrom transport rounds (.rightBrace :: brackets) (.rightBrace :: brackets)
      (do
        let _ ← Reader.require .defaultWord .caseOrDefault
        let _ ← Reader.require .colon .defaultColon
        let start ← Reader.place
        let otherwise ← inner.assignment
        pure (.choice cases start otherwise))
      (do
        let _ ← Reader.require .defaultWord .caseOrDefault
        let _ ← Reader.require .colon .defaultColon
        let start ← Reader.place
        let otherwise ← other.assignment
        pure (.choice others start otherwise)) := by
    refine (Carries.require (Transport.passes_plain rfl) .caseOrDefault).bind_change fun _ => ?_
    refine (Carries.require (Transport.passes_plain rfl) .defaultColon).bind_change fun _ => ?_
    refine Carries.place.bind_change fun start => ?_
    refine (carries.assignment rounds room _).bind fun otherwise _ carried => ?_
    exact .pure (.choice start tested carried) fun _ => id
  have trees := trees.within fun tree other carried => Tree.Carried.choice .ending tested carried
  refine trees.bind fun tree otherTree carried => ?_
  have closed : CarriesFrom transport rounds (.rightBrace :: brackets) brackets
      (do
        let _ ← (Reader.require .rightBrace .switchEnd).within (.andThen tree)
        pure tree)
      (do
        let _ ← (Reader.require .rightBrace .switchEnd).within (.andThen otherTree)
        pure otherTree) := by
    refine ((Carries.require Transport.passes_closing .switchEnd).within fun _ _ stopped => ?_).bind_change fun _ => ?_
    · exact .andThen carried stopped
    · exact .pure carried fun _ => id
  refine (Carries.takes Transport.passes_semicolon).bind_same fun semicolon => ?_
  cases semicolon with
  | true => exact .fit closed
  | false => exact closed

/-! ## Operands -/

theorem nameForm_carries (word : Lexeme) (name : String) :
    CarriesFrom transport rounds brackets brackets (nameForm inner word name)
      (nameForm other (transport.move word) name) := by
  refine (Carries.takes (Transport.passes_opening rfl)).bind_same fun called => ?_
  cases called with
  | true =>
    refine (list_carries carries room brackets fun run others placed halts => ?_).bind fun arguments others placed => ?_
    · exact .call_of_halts word placed halts [] []
    · exact fun rest fits => .read (.call word placed fits.1) fits
  | false =>
    simp only [Bool.false_eq_true, ↓reduceIte]
    split
    · exact .stop (.bareFunction name)
    · exact fun rest fits => .read (.name word fits.1) fits

theorem primary_carries : CarriesFrom transport rounds brackets brackets (primary inner) (primary other) := by
  intro lexemes fits
  have unexpected : CarriesFrom transport rounds brackets brackets .stopUnexpected .stopUnexpected :=
    Carries.stopUnexpected
  have unexpected := unexpected lexemes fits
  cases lexemes with
  | nil =>
    rw [Transport.carry_nil fits.1] at unexpected ⊢
    exact unexpected
  | cons first rest =>
    rw [transport.carry_cons] at unexpected ⊢
    rw [primary, primary, transport.token_move]
    have plainly (plain : first.token.isPlain = true) := (fits.plain plain).fits
    have opening {terminal closing : Terminal} (spelled : first.token = .fixed terminal)
        (closes : terminal.closing? = some closing) :=
      block_carries carries room brackets closing rest
        (fits.rest (transport.admits_opening fits.1 (Lexeme.is_of_token spelled) closes))
    cases spelled : first.token with
    | number value => exact .read (.number value) (plainly (by rw [spelled]; rfl))
    | text content => exact .read (.text content) (plainly (by rw [spelled]; rfl))
    | name name => exact nameForm_carries carries room brackets first name rest (plainly (by rw [spelled]; rfl))
    | fixed terminal =>
      rw [spelled] at plainly
      cases terminal
      case trueWord => exact .read (.number 1.0) (plainly rfl)
      case falseWord => exact .read (.number 0.0) (plainly rfl)
      case ifWord => exact ifForm_carries carries room brackets rest (plainly rfl)
      case whileWord => exact whileForm_carries carries room brackets rest (plainly rfl)
      case forWord => exact forForm_carries carries room brackets rest (plainly rfl)
      case switchWord => exact switchForm_carries carries room brackets rest (plainly rfl)
      case leftParen => exact opening spelled rfl
      case leftBrace => exact opening spelled rfl
      all_goals exact unexpected

omit carries room in
theorem rangeEnd_carries {assignment otherAssignment : Reader Tree} (bracket : Lexeme)
    (assignments : CarriesFrom transport rounds (.rightBracket :: brackets) (.rightBracket :: brackets) assignment
      otherAssignment)
    {base otherBase first otherFirst : Tree} (carried : base.Carried transport otherBase) (firstStart : Place)
    (lower : first.Carried transport otherFirst) :
    CarriesFrom transport rounds (.rightBracket :: brackets) brackets
      (rangeEnd assignment bracket base firstStart first)
      (rangeEnd otherAssignment (transport.move bracket) otherBase (firstStart.moved transport) otherFirst) := by
  refine (Carries.takes Transport.passes_closing).bind_same fun ended => ?_
  cases ended with
  | true => exact .pure (.range bracket firstStart .ending carried lower (.number _)) fun _ => Transport.Spares.fits
  | false =>
    refine Carries.place.bind_change fun lastStart => ?_
    refine (assignments.within fun tree other upper => ?_).bind fun last otherLast upper => ?_
    · exact .range bracket firstStart lastStart carried lower upper
    · refine ((Carries.require Transport.passes_closing .rangeEnd).within fun tree other stopped => ?_).bind_change
        fun _ => ?_
      · exact .range bracket firstStart lastStart carried lower (.andThen upper stopped)
      · exact .pure (.range bracket firstStart lastStart carried lower upper) fun _ => id

omit carries room in
theorem subscript_carries {assignment otherAssignment : Reader Tree} (bracket : Lexeme)
    (assignments : CarriesFrom transport rounds (.rightBracket :: brackets) (.rightBracket :: brackets) assignment
      otherAssignment)
    {base otherBase : Tree} (carried : base.Carried transport otherBase) :
    CarriesFrom transport rounds (.rightBracket :: brackets) brackets (subscript assignment bracket base)
      (subscript otherAssignment (transport.move bracket) otherBase) := by
  refine (Carries.takes Transport.passes_closing).bind_same fun ended => ?_
  cases ended with
  | true => exact .pure (.size bracket carried) fun _ => Transport.Spares.fits
  | false =>
    refine (Carries.takes (Transport.passes_plain rfl)).bind_same fun ranged => ?_
    cases ranged with
    | true => exact .fit (rangeEnd_carries brackets bracket assignments carried .ending (.number 0.0))
    | false =>
      refine Carries.place.bind_change fun start => ?_
      refine (assignments.within fun tree other indexed => ?_).bind fun index otherIndex indexed => ?_
      · exact .element bracket start carried indexed
      · refine (Carries.takes (Transport.passes_plain rfl)).bind_same fun ranged => ?_
        cases ranged with
        | true => exact .fit (rangeEnd_carries brackets bracket assignments carried start indexed)
        | false =>
          refine ((Carries.require Transport.passes_closing .indexEnd).within fun tree other stopped => ?_).bind_change
            fun _ => ?_
          · exact .element bracket start carried (.andThen indexed stopped)
          · exact .pure (.element bracket start carried indexed) fun _ => id

theorem power_carries : CarriesFrom transport rounds brackets brackets (power inner) (power other) := by
  refine (primary_carries carries room brackets).bind fun base otherBase carried => ?_
  refine (carries.subscripts carried rounds room brackets).bind fun base otherBase carried => ?_
  refine (Carries.acceptTerminal (Transport.passes_plain rfl)).bind_change fun raising => ?_
  cases raising with
  | none => exact .pure carried fun _ => id
  | some sign =>
    have raised {exponent otherExponent : Tree} (exponents : exponent.Carried transport otherExponent) :
        (Tree.arithmetic base [((.pow, sign), exponent)]).Carried transport
          (.arithmetic otherBase [((.pow, transport.move sign), otherExponent)]) :=
      .arithmetic carried (.cons ⟨rfl, exponents⟩ .nil)
    have read := (carries.operand rounds room brackets).within fun tree other exponents => raised exponents
    exact .fit (read.bind fun _ _ exponents => .pure (raised exponents) fun _ => id)

theorem unary_carries : CarriesFrom transport rounds brackets brackets (unary inner) (unary other) := by
  intro lexemes fits
  have unsigned := power_carries carries room brackets lexemes fits
  cases lexemes with
  | nil =>
    rw [Transport.carry_nil fits.1] at unsigned ⊢
    exact unsigned
  | cons sign rest =>
    have signed {make otherMake : Tree → Tree} (plain : sign.token.isPlain = true)
        (made : ∀ tree other, tree.Carried transport other → (make tree).Carried transport (otherMake other)) :
        Reader.Carried transport (Tree.Carried transport) (fun _ => transport.Fits rounds brackets)
          ((make <$> inner.operand.within make) rest)
          ((otherMake <$> other.operand.within otherMake) (transport.carry rest)) := by
      have read : CarriesFrom transport rounds brackets brackets (make <$> inner.operand.within make)
          (otherMake <$> other.operand.within otherMake) :=
        ((carries.operand rounds room brackets).within made).bind fun tree other carried =>
          .pure (made tree other carried) fun _ => id
      exact read rest (fits.plain plain).fits
    have denied (plain : sign.token.isPlain = true) := signed plain fun tree other carried =>
      Tree.Carried.denial (Place.ofNext rest) carried
    have start (plain : sign.token.isPlain = true) :
        Place.ofNext (transport.carry rest) = (Place.ofNext rest).moved transport :=
      transport.ofNext_carry (transport.admits_plain fits.1 plain)
    rw [transport.carry_cons] at unsigned ⊢
    rw [unary, unary, transport.token_move]
    cases spelled : sign.token with
    | number | text | name => exact unsigned
    | fixed terminal =>
      rw [spelled] at signed denied start
      cases terminal
      case minus => exact signed rfl fun tree other carried => .negation sign carried
      case plus => exact signed rfl fun tree other carried => .affirmation sign carried
      case bang =>
        dsimp only
        rw [start rfl]
        exact denied rfl
      case notWord =>
        dsimp only
        rw [start rfl]
        exact denied rfl
      all_goals exact unsigned

/-! ## Formulas -/

section Signs

variable (transport) (level : List BinaryOperator)

omit carries room in
theorem isPlain_of_operatorOf? {sign : Lexeme} {op : BinaryOperator} (spelled : operatorOf? level sign = some op) :
    sign.token.isPlain = true := by
  unfold operatorOf? at spelled
  cases token : sign.token with
  | fixed terminal =>
    rw [token] at spelled
    cases terminal <;> first | rfl | cases spelled
  | number | text | name => rfl

omit carries room in
theorem operatorOf?_move (sign : Lexeme) : operatorOf? level (transport.move sign) = operatorOf? level sign := by
  rw [operatorOf?, transport.token_move, operatorOf?]

omit carries room in
theorem arithmeticSign_carries :
    CarriesSign transport (fun step => (step.1, transport.move step.2)) (arithmeticSign level)
      (arithmeticSign level) := by
  refine ⟨fun rounds brackets => Carries.acceptPlain (fun sign => ?_) fun sign use accepted => ?_, rfl⟩
  · rw [operatorOf?_move, Option.map_map]
    rfl
  · obtain ⟨op, spelled, -⟩ := Option.map_eq_some_iff.mp accepted
    exact isPlain_of_operatorOf? level spelled

omit carries room in
theorem logicalSign_carries :
    CarriesSign transport (fun step => (step.1, step.2.moved transport)) (logicalSign level) (logicalSign level) := by
  refine ⟨fun rounds brackets => ?_, rfl⟩
  have accepted : Carries transport (transport.Fits rounds brackets) (fun found other => other = found.map id)
      (fun found => transport.Past rounds brackets brackets found.isSome)
      (Reader.accept (operatorOf? level)) (Reader.accept (operatorOf? level)) :=
    Carries.acceptPlain (fun sign => by rw [operatorOf?_move, Option.map_id, id]) fun sign op =>
      isPlain_of_operatorOf? level
  refine accepted.bind_change fun found => ?_
  cases found with
  | none => exact .pure rfl fun _ => id
  | some op =>
    refine Carries.bind_change (Carries.placeOf fun _ => Transport.Spares.fits) fun start => ?_
    exact .pure rfl fun _ => id

omit carries room in
theorem isRelation_move (sign : Lexeme) : (transport.move sign).isRelation = sign.isRelation := by
  rw [Lexeme.isRelation, transport.token_move, Lexeme.isRelation]

omit carries room in
theorem isPlain_of_isRelation {sign : Lexeme} (spelled : sign.isRelation = true) : sign.token.isPlain = true := by
  unfold Lexeme.isRelation at spelled
  cases token : sign.token with
  | fixed terminal =>
    rw [token] at spelled
    cases terminal <;> first | rfl | cases spelled
  | number | text | name => rfl

omit carries room in
theorem relationSign_carries :
    CarriesSign transport transport.move (Reader.accept fun sign => if sign.isRelation then some sign else none)
      (Reader.accept fun sign => if sign.isRelation then some sign else none) := by
  refine ⟨fun rounds brackets => Carries.acceptPlain (fun sign => ?_) fun sign use accepted => ?_, rfl⟩
  · rw [isRelation_move]
    split <;> rfl
  · split at accepted
    · next spelled => exact isPlain_of_isRelation spelled
    · cases accepted

end Signs

omit room

theorem product_carries : CarriesTree transport inner.bound (product inner) (product other) := by
  unfold product
  rw [carries.bound]
  refine run_carries (arithmeticSign_carries transport _) (fun _ room => unary_carries carries room) ?_
  exact fun _ _ _ _ => .arithmetic

theorem sum_carries : CarriesTree transport inner.bound (sum inner) (sum other) := by
  unfold sum
  rw [carries.bound]
  refine run_carries (arithmeticSign_carries transport _) (product_carries carries) ?_
  exact fun _ _ _ _ => .arithmetic

omit carries in
theorem noSecondRelation_carries :
    Carries transport (transport.Fits rounds brackets) Eq (fun _ => transport.Fits rounds brackets)
      noSecondRelation noSecondRelation := by
  intro lexemes fits
  have ahead : startsRelation (transport.carry lexemes) = startsRelation lexemes := by
    cases lexemes with
    | nil => rw [Transport.carry_nil fits.1]
    | cons first rest =>
      exact isRelation_move transport first
  rw [noSecondRelation, noSecondRelation, ahead]
  split
  · exact .stop .chainedComparison fits.1
  · exact .read rfl fits

theorem relation_carries : CarriesTree transport inner.bound (relation inner) (relation other) := by
  intro rounds room brackets
  refine (sum_carries carries rounds room brackets).bind fun left otherLeft first => ?_
  refine ((relationSign_carries transport).carries rounds brackets).bind_change fun found => ?_
  cases found with
  | none => exact .pure first fun _ => id
  | some sign =>
    refine .fit (Carries.within ?_ fun tree other carried => .relation sign first carried)
    refine (sum_carries carries rounds room brackets).bind fun right otherRight second => ?_
    refine ((noSecondRelation_carries brackets).within fun tree other carried => ?_).bind_same fun _ => ?_
    · exact .andThen second carried
    · exact .pure (.relation sign first second) fun _ => id

theorem logical_carries (level : List BinaryOperator) {operand otherOperand : Reader Tree}
    (operands : CarriesTree transport inner.bound operand otherOperand) :
    CarriesTree transport inner.bound (logical inner level operand) (logical other level otherOperand) := by
  intro rounds room brackets
  refine Carries.place.bind_change fun start => ?_
  rw [carries.bound]
  refine run_carries (logicalSign_carries transport level) operands ?_ rounds room brackets
  exact fun _ _ _ _ => .logical start

theorem disjunction_carries : CarriesTree transport inner.bound (disjunction inner) (disjunction other) :=
  logical_carries carries _ (logical_carries carries _ (logical_carries carries _ (relation_carries carries)))

theorem conditional_carries : CarriesTree transport inner.bound (conditional inner) (conditional other) := by
  intro rounds room brackets
  refine Carries.place.bind_change fun start => ?_
  refine (disjunction_carries carries rounds room brackets).bind fun condition otherCondition first => ?_
  refine (Carries.takes (Transport.passes_plain rfl)).bind_same fun question => ?_
  cases question with
  | false => exact .pure first fun _ => id
  | true =>
    refine .fit (Carries.place.bind_change fun branch => ?_)
    refine ((carries.assignment rounds room brackets).within fun tree other carried => ?_).bind
      fun consequent otherConsequent second => ?_
    · exact .conditional start branch first carried carried
    · refine Carries.within ?_ fun tree other carried => .conditional start branch first second carried
      refine (Carries.require (Transport.passes_plain rfl) .conditionalColon).bind_change fun _ => ?_
      refine (carries.assignment rounds room brackets).bind fun alternative otherAlternative third => ?_
      exact .pure (.conditional start branch first second third) fun _ => id

/-! ## Assignments

The sign of an assignment has been looked at before it is taken, so it is no bracket.
-/

omit carries in
theorem isPlain_of_startsWithAssignmentSign {sign : Lexeme} {rest : List Lexeme}
    (assigns : startsWithAssignmentSign (sign :: rest) = true) : sign.token.isPlain = true := by
  cases token : sign.token with
  | fixed terminal =>
    rw [startsWithAssignmentSign, token] at assigns
    cases terminal <;> first | rfl | cases assigns
  | number | text | name => rfl

omit carries in
theorem startsWithAssignmentSign_carry {lexemes : List Lexeme} (admitted : transport.Admits brackets lexemes) :
    startsWithAssignmentSign (transport.carry lexemes) = startsWithAssignmentSign lexemes := by
  cases lexemes with
  | nil => rw [Transport.carry_nil admitted]
  | cons first rest =>
    rw [transport.carry_cons, startsWithAssignmentSign, transport.token_move]
    rfl

omit carries in
theorem assignmentSign_carries :
    Carries transport
      (fun lexemes => transport.Fits rounds brackets lexemes ∧ startsWithAssignmentSign lexemes = true)
      (fun sign other => other = transport.move sign) (fun _ => transport.Fits rounds brackets) assignmentSign
      assignmentSign := by
  rintro lexemes ⟨fits, assigns⟩
  cases lexemes with
  | nil => cases assigns
  | cons sign rest =>
    exact .read rfl (fits.plain (isPlain_of_startsWithAssignmentSign assigns)).fits

theorem wholeAssignment_carries (room : rounds ≤ inner.bound) (word : Lexeme) :
    Carries transport
      (fun lexemes => transport.Fits rounds brackets lexemes ∧ startsWithAssignmentSign lexemes = true)
      (Tree.Carried transport) (fun _ => transport.Fits rounds brackets) (wholeAssignment inner word)
      (wholeAssignment other (transport.move word)) := by
  refine ((assignmentSign_carries brackets).within fun tree other carried => ?_).bind_change fun sign => ?_
  · exact .assignment word word .ending carried
  · refine Carries.place.bind_change fun start => ?_
    refine ((carries.assignment rounds room brackets).within fun tree other carried => ?_).bind
      fun value otherValue carried => ?_
    · exact .assignment word sign start carried
    · exact .pure (.assignment word sign start carried) fun _ => id

omit carries in
theorem assignsElement_closing {closing : Lexeme} (closed : closing.is .rightBracket = true) (rest : List Lexeme) :
    assignsElement 1 (closing :: rest) = startsWithAssignmentSign rest := by
  have noLeft : closing.is .leftBracket = false := Lexeme.is_eq_false_of_ne closed (by decide)
  rw [assignsElement, if_neg (Bool.eq_false_iff.mp noLeft), if_pos closed, if_pos (Nat.le_refl 1)]

/-- Behind the bracket that closes the index stands the sign that the look ahead has found. -/
theorem elementAssignment_carries (room : rounds ≤ inner.bound) (word : Lexeme) :
    Carries transport
      (fun lexemes => transport.Fits rounds (.rightBracket :: brackets) lexemes ∧ assignsElement 1 lexemes = true)
      (Tree.Carried transport) (fun _ => transport.Fits rounds brackets) (elementAssignment inner word)
      (elementAssignment other (transport.move word)) := by
  refine (Carries.placeOf fun lexemes holds => holds.1).bind_change fun start => ?_
  have passed (lexemes : List Lexeme) (index : Tree) (rest : List Lexeme) (assigns : assignsElement 1 lexemes = true)
      (read : inner.assignment lexemes = .ok (index, rest)) : assignsElement 1 rest = true := by
    have taken := carries.sound.assignment lexemes
    rw [read] at taken
    obtain ⟨taken, rfl, derived⟩ := taken
    rwa [derived.passedOver] at assigns
  have indices := (carries.assignment rounds room (.rightBracket :: brackets)).also passed
  refine (indices.within fun tree other carried => ?_).bind fun index otherIndex first => ?_
  · exact .elementAssignment word word start carried carried
  have signs : Carries transport
      (fun lexemes => transport.Fits rounds (.rightBracket :: brackets) lexemes ∧ assignsElement 1 lexemes = true)
      (fun sign other => other = transport.move sign) (fun _ => transport.Fits rounds brackets)
      (do
        let _ ← Reader.require .rightBracket .indexEnd
        assignmentSign)
      (do
        let _ ← Reader.require .rightBracket .indexEnd
        assignmentSign) := by
    refine ((Carries.require Transport.passes_closing .indexEnd).also ?_).bind_change fun _ =>
      assignmentSign_carries brackets
    intro lexemes closing rest assigns read
    have closed := Reader.Reads.require .rightBracket .indexEnd lexemes
    rw [read] at closed
    obtain ⟨_, rfl, rfl, closed⟩ := closed
    rwa [List.singleton_append, assignsElement_closing closed] at assigns
  refine (signs.within fun tree other carried => ?_).bind_change fun sign => ?_
  · exact .elementAssignment word word start (.andThen first carried) carried
  refine ((carries.assignment rounds room brackets).within fun tree other carried => ?_).bind
    fun value otherValue carried => ?_
  · exact .elementAssignment word sign start first carried
  · exact .pure (.elementAssignment word sign start first carried) fun _ => id

omit carries in
theorem isPlain_of_isName {token : Token} (named : token.isName = true) : token.isPlain = true := by
  cases token with
  | name => rfl
  | number | text | fixed => cases named

omit carries in
theorem startsAssignment_carry {word : Lexeme} {rest : List Lexeme}
    (admitted : transport.Admits brackets (word :: rest)) :
    startsAssignment (transport.carry (word :: rest)) = startsAssignment (word :: rest) := by
  rw [transport.carry_cons, startsAssignment_cons, startsAssignment_cons, transport.token_move]
  cases named : word.token.isName with
  | false => rfl
  | true =>
    have behind := transport.admits_plain admitted (isPlain_of_isName named)
    rw [transport.startsWith_carry behind]
    cases opens : startsWith .leftBracket rest with
    | false =>
      rw [if_neg nofun, if_neg nofun, startsWithAssignmentSign_carry brackets behind]
    | true =>
      cases rest with
      | nil => cases opens
      | cons opening more =>
        have opened : opening.is .leftBracket = true := opens
        have inside := transport.admits_opening behind opened rfl
        rw [if_pos rfl, if_pos rfl, transport.carry_cons, assignsElement, assignsElement, transport.is_move,
          if_pos opened, if_pos opened]
        exact congrArg _ (transport.assignsElement_eq inside)

theorem assignmentTo_carries (room : rounds ≤ inner.bound) (word : Lexeme) {rest : List Lexeme}
    (fits : transport.Fits rounds brackets rest)
    (assigns : (if startsWith .leftBracket rest then assignsElement 0 rest else startsWithAssignmentSign rest) = true) :
    Reader.Carried transport (Tree.Carried transport) (fun _ => transport.Fits rounds brackets)
      (assignmentTo inner word rest) (assignmentTo other (transport.move word) (transport.carry rest)) := by
  unfold assignmentTo
  have carried := transport.startsWith_carry fits.1 .leftBracket
  cases opens : startsWith .leftBracket rest with
  | false =>
    rw [if_neg (Bool.eq_false_iff.mp opens)] at assigns
    rw [Reader.bind_of_ok (Reader.takes_of_not opens),
      Reader.bind_of_ok (Reader.takes_of_not (carried.trans opens))]
    exact wholeAssignment_carries carries brackets room word rest ⟨fits, assigns⟩
  | true =>
    rw [if_pos opens] at assigns
    cases rest with
    | nil => cases opens
    | cons opening more =>
      have opened : opening.is .leftBracket = true := opens
      rw [assignsElement, if_pos opened] at assigns
      rw [transport.carry_cons, Reader.bind_of_ok (Reader.takes_of_is opened more),
        Reader.bind_of_ok (Reader.takes_of_is ((transport.is_move ..).trans opened) _)]
      have inside := (fits.rest (transport.admits_opening fits.1 opened rfl)).fits
      exact elementAssignment_carries carries brackets room word more ⟨inside, assigns⟩

theorem assignment_carries : CarriesTree transport inner.bound (assignment inner) (assignment other) := by
  intro rounds room brackets lexemes fits
  have unassigned := conditional_carries carries rounds room brackets lexemes fits
  cases lexemes with
  | nil =>
    rw [Transport.carry_nil fits.1] at unassigned ⊢
    exact unassigned
  | cons word rest =>
    have ahead := startsAssignment_carry brackets fits.1
    rw [transport.carry_cons] at ahead unassigned ⊢
    rw [assignment, assignment, ahead]
    split
    · next starts =>
      rw [startsAssignment_cons, Bool.and_eq_true] at starts
      obtain ⟨named, assigns⟩ := starts
      exact assignmentTo_carries carries brackets room word (fits.plain (isPlain_of_isName named)).fits assigns
    · exact unassigned

/-! ## Levels -/

omit carries in
theorem innerAt_carries (limit bound level : Nat) :
    (innerAt limit bound level).Carries transport (innerAt limit (bound + transport.slack) level) := by
  have tooDeep : CarriesTree transport bound (.stop (.tooDeep limit)) (.stop (.tooDeep limit)) :=
    fun _ _ _ => .stop (.tooDeep limit)
  induction level with
  | zero =>
    refine ⟨innerAt_sound limit bound 0, tooDeep, tooDeep,
      fun carried rounds room brackets lexemes fits => ?_, rfl⟩
    change Reader.Carried transport _ _ (subscriptsAt limit bound 0 _ lexemes)
      (subscriptsAt limit (bound + transport.slack) 0 _ (transport.carry lexemes))
    rw [subscriptsAt, subscriptsAt, transport.startsWith_carry fits.1]
    split
    · exact ((tooDeep rounds room brackets).within fun tree other => .andThen carried) lexemes fits
    · exact .read carried fits
  | succ level induction =>
    refine ⟨innerAt_sound limit bound (level + 1), assignment_carries induction,
      fun _ room brackets => unary_carries induction room brackets,
      fun {base otherBase} carried rounds room brackets => ?_, rfl⟩
    refine (Carries.acceptTerminal (Transport.passes_opening rfl)).bind_change fun found => ?_
    cases found with
    | none => exact .pure carried fun _ => id
    | some bracket =>
      have read := subscript_carries brackets bracket (induction.assignment rounds room (.rightBracket :: brackets))
        carried
      exact .fit (read.bind fun _ _ carried => induction.subscripts carried rounds room brackets)

/-! ## Statements of a program -/

/-- Whether lexemes stand behind the end of a statement: behind a semicolon, or at the end of what is admitted. -/
def Ended (transport : Transport) (brackets : List Terminal) (rest : List Lexeme) : Prop :=
  transport.Admits brackets [] ∧ rest = [] ∨
    ∃ semicolon, semicolon.is .semicolon = true ∧ transport.Admits brackets (semicolon :: rest)

omit carries in
theorem statementEnd_carries :
    Carries transport (transport.Fits rounds brackets) Eq (fun _ => Ended transport brackets) statementEnd
      statementEnd := by
  intro lexemes fits
  cases lexemes with
  | nil =>
    rw [Transport.carry_nil fits.1]
    exact .read_nil rfl fits.1 (.inl ⟨fits.1, rfl⟩)
  | cons first rest =>
    rw [transport.carry_cons, statementEnd, statementEnd, transport.is_move, transport.text_move]
    split
    · next separates => exact .read rfl (.inr ⟨first, separates, fits.1⟩)
    · exact .stop (.unexpected first.text) fits.1

theorem endedStatement_carries (room : rounds ≤ inner.bound) :
    Carries transport (transport.Fits rounds brackets) (Tree.Carried transport) (fun _ => Ended transport brackets)
      (endedStatement inner) (endedStatement other) := by
  refine (statement_carries carries room brackets).bind fun tree otherTree carried => ?_
  refine ((statementEnd_carries brackets).within fun _ _ stopped => ?_).bind_same fun _ => ?_
  · exact .andThen carried stopped
  · exact .pure carried fun _ => id

end LiveExpr.Grammar
