import LiveExpr.Proofs.Compile.Grammar
import LiveExpr.Proofs.Transport.Program

/-!
Recovery from statements that do not fit the grammar. Where every statement has its brackets in pairs, compilation goes
on behind the semicolon that ends it, however far it was read, so each statement is compiled as if it stood alone.
-/

namespace LiveExpr

/-! ## Segments among others -/

def Closers (brackets : List Terminal) : Prop :=
  ∀ closing ∈ brackets, ∃ opening : Terminal, opening.closing? = some closing

/-- Whether a segment ends here: at a semicolon, with lexemes behind it that do not begin with `else`, or at the end. -/
inductive Segment.Ends : (ending behind : List Lexeme) → Prop
  | source : Ends [] []
  | semicolon {semicolon : Lexeme} {behind : List Lexeme} (separates : semicolon.is .semicolon = true)
      (noElse : startsWith .elseWord behind = false) : Ends [semicolon] behind

theorem Segment.Ends.alone {ending behind : List Lexeme} : Segment.Ends ending behind → Segment.Ends ending []
  | source => source
  | semicolon separates _ => semicolon separates rfl

section Segments

variable {ending behind : List Lexeme}

def Segment.Left (ending : List Lexeme) (brackets : List Terminal) (lexemes : List Lexeme) : Prop :=
  Closers brackets ∧ ∃ rest, lexemes = rest ++ ending ∧ Nested brackets rest

theorem Segment.Left.cases (ends : Segment.Ends ending behind) {brackets : List Terminal} {first : Lexeme}
    {rest : List Lexeme} (left : Segment.Left ending brackets (first :: rest))
    (inside : brackets ≠ [] ∨ first.is .semicolon = false ∨ rest ≠ []) :
    Closers brackets ∧ ∃ more, rest = more ++ ending ∧ Nested brackets (first :: more) := by
  obtain ⟨closers, lexemes, split, nested⟩ := left
  refine ⟨closers, ?_⟩
  cases lexemes with
  | nil =>
    exfalso
    cases nested
    cases ends with
    | source => cases split
    | semicolon separates _ =>
      cases split
      rcases inside with inside | other | more
      · exact inside rfl
      · rw [separates] at other
        cases other
      · exact more rfl
  | cons one more =>
    cases split
    exact ⟨more, rfl, nested⟩

/-- Carries a segment, with the lexemes that end it, in front of others. -/
def Transport.amid (ends : Segment.Ends ending behind) (slack : Nat) : Transport where
  move := id
  token_move _ := rfl
  text_move _ := rfl
  shift := id
  behind := behind
  noElse_behind := by
    cases ends with
    | source => rfl
    | semicolon _ noElse => exact noElse
  slack := slack
  Admits := Segment.Left ending
  behind_of_nil := by
    rintro brackets ⟨-, rest, split, -⟩
    cases ends with
    | source => rfl
    | semicolon => simp at split
  admits_plain admitted plain := by
    obtain ⟨closers, more, rfl, nested⟩ := admitted.cases ends (.inr (.inl (Lexeme.is_eq_false plain rfl)))
    exact ⟨closers, more, rfl, nested.of_plain plain⟩
  admits_opening := by
    intro brackets first rest opening closing admitted opens pairs
    have other : first.is .semicolon = false := by
      refine Lexeme.is_eq_false_of_ne opens ?_
      rcases Terminal.pairs_cases pairs with ⟨rfl, _⟩ | ⟨rfl, _⟩ | ⟨rfl, _⟩ <;> decide
    obtain ⟨closers, more, rfl, nested⟩ := admitted.cases ends (.inr (.inl other))
    exact ⟨List.forall_mem_cons.mpr ⟨⟨opening, pairs⟩, closers⟩, more, rfl, nested.of_opening opens pairs⟩
  admits_closing admitted closes := by
    obtain ⟨closers, more, rfl, nested⟩ := admitted.cases ends (.inl (List.cons_ne_nil _ _))
    obtain ⟨⟨opening, pairs⟩, others⟩ := List.forall_mem_cons.mp closers
    exact ⟨others, more, rfl, nested.of_closing closes pairs⟩
  admits_semicolon admitted separates := by
    obtain ⟨closers, more, rfl, nested⟩ := admitted.cases ends (.inl (List.cons_ne_nil _ _))
    exact ⟨closers, more, rfl, (nested.of_semicolon separates).2⟩
  admits_else := by
    intro brackets first second rest admitted separates otherwise
    obtain ⟨closers, more, split, nested⟩ := admitted.cases ends (.inr (.inr (List.cons_ne_nil _ _)))
    obtain ⟨inside, nested⟩ := nested.of_semicolon separates
    obtain ⟨closers, more, rfl, nested⟩ := Segment.Left.cases ends ⟨closers, more, split, nested⟩ (.inl inside)
    exact ⟨closers, more, rfl, nested.of_plain (Lexeme.isPlain_of_is rfl otherwise)⟩
  assignsElement_eq := by
    rintro brackets _ ⟨-, rest, rfl, nested⟩
    rw [List.map_id]
    refine nested.assignsElement (by rw [List.count_cons_self]; omega) ?_
    rintro rfl
    cases ends
    rfl

/-- The state with reports that were made before. -/
def Progress.onto (earlier : List Report) (progress : Progress) : Progress :=
  { progress with reports := progress.reports ++ earlier }

theorem Report.moved_amid (ends : Segment.Ends ending behind) (slack : Nat) (report : Report) :
    report.moved (.amid ends slack) = report := by
  rcases report with ⟨problem, _ | _ | _⟩ <;> rfl

theorem Progress.moved_amid (ends : Segment.Ends ending behind) (slack : Nat) (earlier : List Report)
    (progress : Progress) : progress.moved (.amid ends slack) earlier = progress.onto earlier := by
  rw [Progress.moved, List.map_congr_left fun report _ => Report.moved_amid ends slack report, List.map_id']
  rfl

end Segments

namespace Compile

/-! ## Statements one by one -/

variable (environment : Environment)

def settled (bound : Nat) (lexemes : List Lexeme) (before : Progress) : Progress :=
  match statement environment bound lexemes before with
  | (.ok _, after) => after
  | (.error halt, after) => { after with reports := halt.report :: after.reports }

/-- The lexemes with which compilation goes on behind the statement at the front. -/
def resumption (bound : Nat) (lexemes : List Lexeme) (before : Progress) : List Lexeme :=
  match statement environment bound lexemes before with
  | (.ok (_, rest), _) => rest
  | (.error halt, _) => Grammar.recover 0 (lexemes.length - halt.rest.length) lexemes

/-- The state behind a program by itself, with its own reports only. -/
def alone (lexemes : List Lexeme) (before : Progress) : Progress :=
  (program environment lexemes { before with reports := [] }).2

/-- Compiles programs in turn, each by itself, and gives all that they report. -/
def separately : List (List Lexeme) → Progress → List Report × Progress
  | [], progress => ([], progress)
  | lexemes :: others, progress =>
    let after := alone environment lexemes progress
    let (reports, last) := separately others after
    (after.reports.reverse ++ reports, last)

variable {environment} {bound count : Nat} {before : Progress}

theorem statements_separated {semicolon : Lexeme} {rest : List Lexeme} (separates : semicolon.is .semicolon = true) :
    statements environment bound (count + 1) (semicolon :: rest) before =
      statements environment bound count rest before :=
  if_pos separates

/-- Behind its first statement, a program goes on from the state to which that has come. -/
theorem statements_settled {first : Lexeme} {rest : List Lexeme} (other : first.is .semicolon = false) :
    (statements environment bound (count + 1) (first :: rest) before).2 =
      (statements environment bound count (resumption environment bound (first :: rest) before)
        (settled environment bound (first :: rest) before)).2 ∧
    ((statements environment bound (count + 1) (first :: rest) before).1 = [] →
      (settled environment bound (first :: rest) before).reports ≠ []) := by
  rw [statements, if_neg (Bool.eq_false_iff.mp other), resumption, settled]
  generalize statement environment bound (first :: rest) before = compiled
  rcases compiled with ⟨halt | ⟨node, behind⟩, after⟩
  · exact ⟨rfl, fun _ => List.cons_ne_nil _ _⟩
  · exact ⟨rfl, fun none => absurd none (List.cons_ne_nil _ _)⟩

theorem statements_nil (environment : Environment) (bound count : Nat) (before : Progress) :
    statements environment bound count [] before = ([], before) := by
  cases count <;> rfl

/-- A program has the reports of its statements, and one of its own if there is neither a statement nor a report. -/
theorem program_eq (lexemes : List Lexeme) :
    let compiled := statements environment lexemes.length lexemes.length lexemes before
    (program environment lexemes before).2 =
      { compiled.2 with
        reports := if compiled.1.isEmpty && compiled.2.reports.isEmpty then [⟨.emptyFormula, .ending⟩]
          else compiled.2.reports } := by
  rw [program]
  generalize statements environment _ _ lexemes before = compiled
  obtain ⟨nodes, world, locals, reports, accepted, reported⟩ := compiled
  cases last : nodes.getLast? with
  | some node =>
    have present : nodes.isEmpty = false := by
      cases nodes with
      | nil => cases last
      | cons => rfl
    simp [last, present]
  | none =>
    obtain rfl := List.getLast?_eq_none_iff.mp last
    cases reports <;> rfl

theorem program_of_reported {lexemes : List Lexeme}
    (reported : (statements environment lexemes.length lexemes.length lexemes before).1 = [] →
      (statements environment lexemes.length lexemes.length lexemes before).2.reports ≠ []) :
    (program environment lexemes before).2 =
      (statements environment lexemes.length lexemes.length lexemes before).2 := by
  rw [program_eq, if_neg]
  rw [Bool.and_eq_true, List.isEmpty_iff, List.isEmpty_iff]
  exact fun ⟨noNode, noReport⟩ => reported noNode noReport

/-! ## Statements among others -/

section Amid

variable {ending behind : List Lexeme} (ends : Segment.Ends ending behind)

include ends

theorem ended_amid {slack : Nat} {rest : List Lexeme}
    (ended : Grammar.Ended (Transport.amid ends slack) [] rest) : rest = [] := by
  rcases ended with ⟨-, none⟩ | ⟨semicolon, separates, -, segment, split, nested⟩
  · exact none
  · cases segment with
    | nil =>
      cases ends with
      | source => cases split
      | semicolon =>
        cases split
        rfl
    | cons first more =>
      cases split
      exact absurd rfl (nested.of_semicolon separates).1

/-- Among others, a statement is compiled as it is by itself, and those behind it come next. -/
theorem statement_amid {segment : List Lexeme} (nested : Nested [] segment)
    (room : (segment ++ ending).length ≤ bound) :
    settled environment bound (segment ++ ending ++ behind) before =
        (settled environment (segment ++ ending).length (segment ++ ending) { before with reports := [] }).onto
          before.reports ∧
      resumption environment bound (segment ++ ending ++ behind) before = behind := by
  let transport := Transport.amid ends (bound - (segment ++ ending).length)
  have admitted : transport.Admits [] (segment ++ ending) := ⟨List.forall_mem_nil _, segment, rfl, nested⟩
  have outcome := statement_carries environment admitted (Nat.le_refl _) before.reports { before with reports := [] }
  have total : (segment ++ ending).length + transport.slack = bound := Nat.add_sub_cancel' room
  have carried (lexemes : List Lexeme) : transport.carry lexemes = lexemes ++ behind := by
    rw [Transport.carry, show transport.move = id from rfl, List.map_id]
    rfl
  rw [total, carried, Progress.moved_amid] at outcome
  change Carried transport _ _ _ (statement environment bound (segment ++ ending ++ behind) before) at outcome
  unfold settled resumption
  generalize statement environment _ (segment ++ ending) _ = one at outcome
  generalize statement environment bound (segment ++ ending ++ behind) before = other at outcome
  cases outcome with
  | @done value _ progress same =>
    obtain ⟨rfl, ended⟩ := same
    refine ⟨Progress.moved_amid .., ?_⟩
    dsimp only
    rw [ended_amid ends ended, carried, List.nil_append]
  | @halted halt halted progress halts =>
    dsimp only
    constructor
    · rw [halts.report, Report.moved_amid, Progress.moved_amid]
      rfl
    · obtain ⟨brackets, -, rest, left, -⟩ := halts.admitted
      have separates : ∀ first ∈ (ending ++ behind).head?, first.is .semicolon = true := by
        intro first same
        cases ends with
        | source => cases same
        | semicolon separates _ =>
          cases same
          exact separates
      rw [halts.rest, carried, left, List.append_assoc segment]
      refine (nested.recover ?_ separates).trans ?_
      · simp only [List.length_append]
        omega
      · cases ends <;> rfl

/-- By itself, a segment is a program of one statement. -/
theorem alone_eq {first : Lexeme} {rest : List Lexeme} (nested : Nested [] (first :: rest)) :
    alone environment (first :: rest ++ ending) before =
      settled environment (first :: rest ++ ending).length (first :: rest ++ ending) { before with reports := [] } := by
  have other : first.is .semicolon = false :=
    Bool.eq_false_iff.mpr fun separates => absurd rfl (nested.of_semicolon separates).1
  have step := @statements_settled environment (first :: (rest ++ ending)).length (rest ++ ending).length
    { before with reports := [] } first (rest ++ ending) other
  have done := (@statement_amid environment _ { before with reports := [] } _ _ ends.alone _ nested (Nat.le_refl _)).2
  rw [List.append_nil, List.cons_append] at done
  rw [done, statements_nil] at step
  exact (program_of_reported fun none => step.1 ▸ step.2 none).trans step.1

/-- A segment comes to the same among others as by itself, and a program goes on with those others behind it. -/
theorem statements_amid {first : Lexeme} {rest : List Lexeme} (nested : Nested [] (first :: rest))
    (room : (first :: rest ++ ending).length ≤ bound) :
    let compiled := statements environment bound (count + 1) (first :: rest ++ ending ++ behind) before
    let after := (alone environment (first :: rest ++ ending) before).onto before.reports
    compiled.2 = (statements environment bound count behind after).2 ∧ (compiled.1 = [] → after.reports ≠ []) := by
  have other : first.is .semicolon = false :=
    Bool.eq_false_iff.mpr fun separates => absurd rfl (nested.of_semicolon separates).1
  have step := @statements_settled environment bound count before first (rest ++ ending ++ behind) other
  have among := @statement_amid environment bound before _ _ ends _ nested room
  rw [← alone_eq ends nested, List.cons_append, List.cons_append] at among
  rw [among.1, among.2] at step
  exact step

end Amid

/-! ## Programs -/

/-- Whether lexemes can stand between semicolons as a statement of their own. -/
structure IsSegment (lexemes : List Lexeme) : Prop where
  nested : Nested [] lexemes
  noElse : startsWith .elseWord lexemes = false

/-- Segments with the semicolons behind them, in front of a last one. -/
def joined : List (List Lexeme × Lexeme) → List Lexeme → List Lexeme
  | [], last => last
  | (segment, semicolon) :: others, last => segment ++ [semicolon] ++ joined others last

/-- The segments that have lexemes, each with the semicolon behind it but the last one. -/
def parts : List (List Lexeme × Lexeme) → List Lexeme → List (List Lexeme)
  | [], last => if last.isEmpty then [] else [last]
  | (segment, semicolon) :: others, last =>
    if segment.isEmpty then parts others last else (segment ++ [semicolon]) :: parts others last

section Joined

variable {segments : List (List Lexeme × Lexeme)} {last : List Lexeme}

theorem noElse_joined (apart : ∀ one ∈ segments, IsSegment one.1 ∧ one.2.is .semicolon = true)
    (ended : IsSegment last) : startsWith .elseWord (joined segments last) = false := by
  cases segments with
  | nil => exact ended.noElse
  | cons one others =>
    obtain ⟨segment, semicolon⟩ := one
    obtain ⟨isSegment, separates⟩ := apart _ (List.mem_cons_self ..)
    cases segment with
    | nil => exact Lexeme.is_eq_false_of_ne separates (by decide)
    | cons first rest => exact isSegment.noElse

/-- Each statement leaves its own reports out of account. -/
theorem separately_onto (environment : Environment) (lexemes : List (List Lexeme)) (earlier reports : List Report)
    (progress : Progress) :
    (separately environment lexemes (progress.onto earlier)).1 = (separately environment lexemes progress).1 ∧
      { (separately environment lexemes (progress.onto earlier)).2 with reports := reports } =
        { (separately environment lexemes progress).2 with reports := reports } := by
  cases lexemes with
  | nil => exact ⟨rfl, rfl⟩
  | cons => exact ⟨rfl, rfl⟩

/-- A program of segments comes to what its statements come to one by one. -/
theorem statements_joined (apart : ∀ one ∈ segments, IsSegment one.1 ∧ one.2.is .semicolon = true)
    (ended : IsSegment last) (enough : (joined segments last).length ≤ count)
    (room : (joined segments last).length ≤ bound) :
    let compiled := statements environment bound count (joined segments last) before
    let separate := separately environment (parts segments last) before
    compiled.2 = { separate.2 with reports := separate.1.reverse ++ before.reports } ∧
      (parts segments last = [] → compiled.1 = []) ∧
      (parts segments last ≠ [] → compiled.1 = [] → compiled.2.reports ≠ []) := by
  induction segments generalizing count before with
  | nil =>
    cases last with
    | nil =>
      rw [joined, statements_nil]
      exact ⟨rfl, fun _ => rfl, fun some => absurd rfl some⟩
    | cons first rest =>
      obtain ⟨count, rfl⟩ : ∃ fewer, count = fewer + 1 := Nat.exists_eq_add_one.mpr (Nat.zero_lt_of_lt enough)
      have step := @statements_amid environment bound count before _ _ .source first rest ended.nested
        (by rwa [List.append_nil])
      simp only [List.append_nil, statements_nil] at step
      rw [joined]
      refine ⟨?_, nofun, fun _ none => step.1 ▸ step.2 none⟩
      rw [step.1]
      simp [parts, separately, Progress.onto]
  | cons one others induction =>
    obtain ⟨segment, semicolon⟩ := one
    obtain ⟨⟨isSegment, separates⟩, remaining⟩ := List.forall_mem_cons.mp apart
    have more : (joined ((segment, semicolon) :: others) last).length =
        segment.length + 1 + (joined others last).length := by
      simp only [joined, List.length_append, List.length_singleton]
    obtain ⟨count, rfl⟩ : ∃ fewer, count = fewer + 1 := Nat.exists_eq_add_one.mpr (by omega)
    cases segment with
    | nil =>
      rw [joined, List.nil_append, List.singleton_append, statements_separated separates]
      exact induction remaining (by omega) (by omega)
    | cons first rest =>
      have step := @statements_amid environment bound count before _ _
        (.semicolon separates (noElse_joined remaining ended)) first rest isSegment.nested
        (by simp only [List.length_cons, List.length_append, List.length_nil] at *; omega)
      have following := @induction count ((alone environment (first :: rest ++ [semicolon]) before).onto before.reports)
        remaining (by omega) (by omega)
      have same := separately_onto environment (parts others last) before.reports
      dsimp only at step following ⊢
      rw [joined]
      have whole := step.1.trans following.1
      refine ⟨?_, nofun, fun _ none => ?_⟩
      · rw [whole, (same [] _).1]
        refine (same _ _).2.trans ?_
        simp [parts, separately, Progress.onto]
      · rw [whole]
        exact List.append_ne_nil_of_right_ne_nil _ (step.2 none)

/-- Statements do not disturb one another. With brackets in pairs, the statements between the semicolons of a program
are compiled one by one, each from the state that the one before has left, whatever of them does not fit the grammar:
all that is reported is what each of them reports by itself, and behind each the next one is read from its start. -/
theorem program_separately (environment : Environment) (world : World)
    (apart : ∀ one ∈ segments, IsSegment one.1 ∧ one.2.is .semicolon = true) (ended : IsSegment last) :
    let whole := (program environment (joined segments last) (.start world)).2
    let (reports, after) := separately environment (parts segments last) (.start world)
    whole.reports.reverse = (if (parts segments last).isEmpty then [⟨.emptyFormula, .ending⟩] else reports) ∧
      { whole with reports := [] } = { after with reports := [] } ∧
      (∀ source, tokenize source = .ok (joined segments last) →
        (Compilation.ofSource environment source world).reports = whole.reports.reverse) ∧
      ∀ earlier one others, segments = earlier ++ one :: others → one.1 ≠ [] → ∀ bound before,
        (joined (one :: others) last).length ≤ bound →
          resumption environment bound (joined (one :: others) last) before = joined others last := by
  have outcome := @statements_joined environment (joined segments last).length (joined segments last).length
    (.start world) segments last apart ended (Nat.le_refl _) (Nat.le_refl _)
  dsimp only at outcome ⊢
  obtain ⟨same, none, some⟩ := outcome
  refine ⟨?_, ?_, ?_, ?_⟩
  · cases left : parts segments last with
    | nil =>
      rw [program_eq, none left, same, left]
      rfl
    | cons first rest =>
      rw [program_of_reported (some (left ▸ List.cons_ne_nil _ _)), same, left]
      simp [Progress.start]
  · rw [program_eq, same]
  · intro source read
    rw [Compilation.ofSource, read]
  · rintro earlier ⟨segment, semicolon⟩ others rfl present bound before room
    obtain ⟨⟨isSegment, separates⟩, remaining⟩ := List.forall_mem_cons.mp (List.forall_mem_append.mp apart).2
    exact (statement_amid (.semicolon separates (noElse_joined remaining ended)) isSegment.nested
      (by simp [joined] at room ⊢; omega)).2

end Joined

theorem tokenize_unfinished :
    tokenize "(+;);y" = .ok [⟨.fixed .leftParen, "(", ⟨1, 1⟩⟩, ⟨.fixed .plus, "+", ⟨1, 2⟩⟩,
      ⟨.fixed .semicolon, ";", ⟨1, 3⟩⟩, ⟨.fixed .rightParen, ")", ⟨1, 4⟩⟩, ⟨.fixed .semicolon, ";", ⟨1, 5⟩⟩,
      ⟨.name "y", "y", ⟨1, 6⟩⟩] := by
  with_unfolding_all rfl

/-- Behind the unfinished sum in parentheses, which have a semicolon of their own, the next statement is compiled. -/
theorem program_separately_unfinished :
    let segments : List (List Lexeme × Lexeme) :=
      [([⟨.fixed .leftParen, "(", ⟨1, 1⟩⟩, ⟨.fixed .plus, "+", ⟨1, 2⟩⟩, ⟨.fixed .semicolon, ";", ⟨1, 3⟩⟩,
        ⟨.fixed .rightParen, ")", ⟨1, 4⟩⟩], ⟨.fixed .semicolon, ";", ⟨1, 5⟩⟩)]
    let last : List Lexeme := [⟨.name "y", "y", ⟨1, 6⟩⟩]
    (∀ one ∈ segments, IsSegment one.1 ∧ one.2.is .semicolon = true) ∧ IsSegment last ∧
      (Compilation.ofSource plainEnvironment "(+;);y" .empty).reports =
        [⟨.unexpected ";", .lexeme ⟨.fixed .semicolon, ";", ⟨1, 3⟩⟩⟩,
          ⟨.undefinedSymbol "y", .lexeme ⟨.name "y", "y", ⟨1, 6⟩⟩⟩] := by
  intro segments last
  have apart : ∀ one ∈ segments, IsSegment one.1 ∧ one.2.is .semicolon = true := by
    refine List.forall_mem_singleton.mpr ⟨⟨?_, rfl⟩, rfl⟩
    have closed : Nested [.rightParen] [⟨.fixed .rightParen, ")", ⟨1, 4⟩⟩] :=
      @Nested.closed _ .leftParen _ _ _ rfl rfl .done
    exact @Nested.opened _ .leftParen _ _ _ rfl rfl (.plain rfl (.semicolon rfl closed))
  have ended : IsSegment last := ⟨.plain rfl .done, rfl⟩
  obtain ⟨reports, -, compiled, -⟩ := program_separately plainEnvironment .empty apart ended
  refine ⟨apart, ended, (compiled "(+;);y" tokenize_unfinished).trans (reports.trans ?_)⟩
  subst segments last
  cbv

end Compile

end LiveExpr
