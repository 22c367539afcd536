import LiveExpr.Proofs.Compile.Source
import LiveExpr.Proofs.Grammar.Completeness
import LiveExpr.Proofs.Grammar.Soundness

/-!
Compilation accepts the grammar: a source is reported to have a problem with its grammar if the grammar does not derive
its lexemes, and only then as far as the grammar tells.
-/

namespace LiveExpr

/-- Whether no problem with the grammar is reported. -/
def Progress.IsGrammatical (progress : Progress) : Prop :=
  ∀ report ∈ progress.reports, report.problem.phase ≠ .grammatical

theorem Progress.Reaches.mem_reports {environment : Environment} {before after : Progress}
    (reached : before.Reaches environment after) {report : Report} (reported : report ∈ before.reports) :
    report ∈ after.reports := by
  induction reached with
  | refl => exact reported
  | tail _ step induction =>
    cases step with
    | report => exact List.mem_cons_of_mem _ induction
    | reportName => exact List.mem_cons_of_mem _ induction
    | declare _ found => exact List.mem_append_right found induction
    | _ => exact induction

namespace Compile

variable {environment : Environment} {world : World} {before after : Progress}

theorem phase_of_halted (reached : (Progress.start world).Reaches environment before) {bound : Nat}
    {lexemes : List Lexeme} {halt : Halt}
    (halted : statement environment bound lexemes before = (.error halt, after)) :
    halt.report.problem.phase = .grammatical := by
  have outcomes := ((Correspondence.course environment world).statement_parallel rfl reached bound lexemes).outcomes
  change Outcomes _ (statement environment bound lexemes before).1
    (statement environment bound lexemes before).1 at outcomes
  rw [halted] at outcomes
  cases outcomes with
  | halted grammatical => exact grammatical

theorem statement_reaches (reached : (Progress.start world).Reaches environment before) (bound : Nat)
    (lexemes : List Lexeme) : before.Reaches environment (statement environment bound lexemes before).2 :=
  ((Correspondence.course environment world).statement_parallel rfl reached bound lexemes).reaches

theorem statements_reaches (reached : (Progress.start world).Reaches environment before) (bound count : Nat)
    (lexemes : List Lexeme) :
    before.Reaches environment (statements environment bound count lexemes before).2 :=
  ((Correspondence.course environment world).statements_related rfl reached bound count lexemes).2.1

theorem program_reaches (environment : Environment) (world : World) (lexemes : List Lexeme) :
    (Progress.start world).Reaches environment (program environment lexemes (.start world)).2 :=
  ((Correspondence.course environment world).program_related rfl lexemes).2.1

theorem not_isGrammatical_of_halted (reached : (Progress.start world).Reaches environment before) {bound count : Nat}
    {first : Lexeme} {rest : List Lexeme} {halt : Halt} (other : ¬first.is .semicolon = true)
    (halted : statement environment bound (first :: rest) before = (.error halt, after)) :
    ¬(statements environment bound (count + 1) (first :: rest) before).2.IsGrammatical := by
  intro clean
  have reaches := statement_reaches reached bound (first :: rest)
  rw [halted] at reaches
  have recorded := reaches.tail (.report after halt.report)
  have later := statements_reaches (reached.trans recorded) bound count
    (Grammar.recover 0 ((first :: rest).length - halt.rest.length) (first :: rest))
  rw [statements, if_neg other, halted] at clean
  exact clean _ (later.mem_reports (List.mem_cons_self ..)) (phase_of_halted reached halted)

theorem statements_isGrammatical {lexemes : List Lexeme}
    (clean : (program environment lexemes before).2.IsGrammatical) :
    (statements environment lexemes.length lexemes.length lexemes before).2.IsGrammatical := by
  unfold program at clean
  cases done : statements environment lexemes.length lexemes.length lexemes before with
  | mk nodes progress =>
    rw [done] at clean
    dsimp only at clean ⊢
    split at clean
    · exact clean
    · split at clean
      · next empty =>
        rw [List.isEmpty_iff] at empty
        rw [Progress.IsGrammatical, empty]
        exact List.forall_mem_nil _
      · exact clean

/-! ## Soundness -/

/-- A statement that does not halt derives, with the semicolon behind it. -/
theorem statement_derives {bound : Nat} {lexemes rest : List Lexeme} {node : AnyNode}
    (done : statement environment bound lexemes before = (.ok (node, rest), after)) :
    ∃ taken, Grammar.Derives .documented .statement taken ∧
      (lexemes = taken ∧ rest = [] ∨
        ∃ semicolon, lexemes = taken ++ semicolon :: rest ∧ semicolon.is .semicolon = true) := by
  have sound : (Grammar.outermost environment.settings.maxDepth bound).Sound :=
    Grammar.innerAt_sound environment.settings.maxDepth bound environment.settings.maxDepth
  cases read : Grammar.endedStatement (Grammar.outermost environment.settings.maxDepth bound) lexemes with
  | ok pair =>
    rcases pair with ⟨tree, more⟩
    rw [statement_of_ok read] at done
    cases compiled : tree.compile environment before with
    | mk outcome middle =>
      cases outcome with
      | error halt =>
        rw [bind_of_error compiled] at done
        cases done
      | ok found =>
        rw [bind_of_ok compiled] at done
        cases done
        exact Grammar.endedStatement_sound sound read
  | error stopped =>
    rw [statement_of_error read] at done
    rcases Grammar.endedStatement_halts sound read environment before with ⟨halt, middle, halted⟩
    rw [bind_of_error halted] at done
    cases done

theorem derives_cons {dialect : Grammar.Dialect} {first : Lexeme} {rest : List Lexeme}
    (semicolon : first.is .semicolon = true) (derived : Grammar.Derives dialect .program rest) :
    Grammar.Derives dialect .program (first :: rest) := by
  cases derived with
  | lastStatement leading statement trailing =>
    exact .lastStatement (List.forall_mem_cons.mpr ⟨semicolon, leading⟩) statement trailing
  | nextStatement leading statement separated more =>
    exact .nextStatement (List.forall_mem_cons.mpr ⟨semicolon, leading⟩) statement separated more

/-- Without a problem with the grammar, either there are only semicolons or the lexemes derive. -/
theorem statements_derive (bound count : Nat) {lexemes : List Lexeme} (enough : lexemes.length ≤ count)
    (reached : (Progress.start world).Reaches environment before)
    (clean : (statements environment bound count lexemes before).2.IsGrammatical) :
    (∀ one ∈ lexemes, one.is .semicolon = true) ∧ statements environment bound count lexemes before = ([], before) ∨
      Grammar.Derives .documented .program lexemes := by
  induction count generalizing lexemes before with
  | zero =>
    have empty : lexemes = [] := List.length_eq_zero_iff.mp (Nat.le_zero.mp enough)
    subst empty
    exact .inl ⟨List.forall_mem_nil _, rfl⟩
  | succ count induction =>
    cases lexemes with
    | nil => exact .inl ⟨List.forall_mem_nil _, rfl⟩
    | cons first rest =>
      by_cases alone : first.is .semicolon = true
      · rw [statements, if_pos alone] at clean ⊢
        rcases induction (Nat.le_of_succ_le_succ enough) reached clean with ⟨semicolons, same⟩ | derived
        · exact .inl ⟨List.forall_mem_cons.mpr ⟨alone, semicolons⟩, same⟩
        · exact .inr (derives_cons alone derived)
      · refine .inr ?_
        have reaches := statement_reaches reached bound (first :: rest)
        cases done : statement environment bound (first :: rest) before with
        | mk outcome middle =>
          cases outcome with
          | error halt => exact absurd clean (not_isGrammatical_of_halted reached alone done)
          | ok pair =>
            rw [statements, if_neg alone, done] at clean
            rw [done] at reaches
            rcases pair with ⟨node, behind⟩
            change (statements environment bound count behind middle).2.IsGrammatical at clean
            rcases statement_derives done with ⟨taken, derived, ⟨split, rfl⟩ | ⟨semicolon, split, separated⟩⟩
            · rw [split]
              simpa using Grammar.Derives.lastStatement (List.forall_mem_nil _) derived (List.forall_mem_nil _)
            · have shorter : behind.length ≤ count := by
                have lengths := congrArg List.length split
                simp only [List.length_cons, List.length_append] at lengths enough
                omega
              rw [split]
              rcases induction shorter (reached.trans reaches) clean with ⟨semicolons, -⟩ | more
              · exact .lastStatement (List.forall_mem_nil _) derived
                  (List.forall_mem_cons.mpr ⟨separated, semicolons⟩)
              · exact .nextStatement (List.forall_mem_nil _) derived separated more

theorem derives_of_isGrammatical (lexemes : List Lexeme)
    (clean : (program environment lexemes (.start world)).2.IsGrammatical) :
    Grammar.Derives .documented .program lexemes := by
  have reached : (Progress.start world).Reaches environment (.start world) := .refl
  rcases statements_derive lexemes.length lexemes.length (Nat.le_refl _) reached (statements_isGrammatical clean)
    with ⟨-, nothing⟩ | derived
  · unfold program at clean
    rw [nothing] at clean
    exact absurd rfl (clean ⟨.emptyFormula, .ending⟩ (List.mem_singleton_self _))
  · exact derived

/-! ## Completeness -/

section

variable (reading : Grammar.Reading)

theorem statement_completes {only rest : List Lexeme} (derived : Grammar.Derives reading.dialect .statement only)
    (ended : startsWith .semicolon rest = true ∨ rest = []) (noElse : startsWith .elseWord rest.tail = false)
    (deep : only.length ≤ reading.environment.settings.maxDepth) (short : only.length ≤ reading.bound) :
    (statement reading.environment reading.bound (only ++ rest)).Completes reading.world
      fun pair => pair.2 = rest.tail := by
  intro before onward
  rcases Grammar.Reading.gives_endedStatement ⟨derived, Grammar.Reading.reads_of_derives derived⟩ ended noElse deep
    short with ⟨tree, read, good⟩
  have completes : (tree.compile reading.environment >>= fun node => pure (node, rest.tail)).Completes reading.world
      fun pair => pair.2 = rest.tail :=
    Completes.bind good fun node _ => .pure rfl
  unfold statement
  have same : Grammar.endedStatement
      (Grammar.outermost reading.environment.settings.maxDepth reading.bound) (only ++ rest) =
      .ok (tree, rest.tail) := read
  rw [same]
  exact completes before onward

theorem statements_of_done {count : Nat} {lexemes behind : List Lexeme} {node : AnyNode} {middle : Progress}
    {bound : Nat} (starts : startsWith .semicolon lexemes = false) (some : 0 < lexemes.length)
    (done : statement environment bound lexemes before = (.ok (node, behind), middle)) :
    statements environment bound (count + 1) lexemes before =
      (node :: (statements environment bound count behind middle).1,
        (statements environment bound count behind middle).2) := by
  cases lexemes with
  | nil => cases some
  | cons first rest =>
    have other : ¬first.is .semicolon = true := Bool.eq_false_iff.mp starts
    rw [statements, if_neg other, done]

theorem statements_of_semicolons (environment : Environment) (bound count : Nat) {lexemes : List Lexeme}
    (semicolons : ∀ one ∈ lexemes, one.is .semicolon = true) (before : Progress) :
    statements environment bound count lexemes before = ([], before) := by
  induction count generalizing lexemes with
  | zero => rfl
  | succ count induction =>
    cases lexemes with
    | nil => rfl
    | cons first rest =>
      rw [List.forall_mem_cons] at semicolons
      rw [statements, if_pos semicolons.1]
      exact induction semicolons.2

theorem startsWith_semicolons {lexemes : List Lexeme} (semicolons : ∀ one ∈ lexemes, one.is .semicolon = true) :
    startsWith .elseWord lexemes = false := by
  cases lexemes with
  | nil => rfl
  | cons first rest =>
    exact startsWith_cons_eq_false (semicolons first (List.mem_cons_self ..)) (by decide) rest

/-- Whether some statement is compiled, and no problem with the grammar is reported. -/
def Runs (world : World) (statements : Progress → List AnyNode × Progress) : Prop :=
  ∀ before, (Progress.start world).Onward before →
    (statements before).1 ≠ [] ∧ before.Onward (statements before).2

/-- A first statement is compiled before those behind it, which may be semicolons only. -/
theorem runs_statement {only rest : List Lexeme} (derived : Grammar.Derives reading.dialect .statement only)
    (ended : startsWith .semicolon rest = true ∨ rest = []) (noElse : startsWith .elseWord rest.tail = false)
    (deep : only.length ≤ reading.environment.settings.maxDepth) (short : only.length ≤ reading.bound) {count : Nat}
    (more : Runs reading.world (statements reading.environment reading.bound count rest.tail) ∨
      ∀ one ∈ rest.tail, one.is .semicolon = true) :
    Runs reading.world (statements reading.environment reading.bound (count + 1) (only ++ rest)) := by
  intro before onward
  have begins : Grammar.Begins Token.startsStatement only := derived.begins
  have some : 0 < (only ++ rest).length := (begins.append rest).length_pos
  rcases statement_completes reading derived ended noElse deep short before onward
    with ⟨⟨node, behind⟩, middle, done, forth, same⟩
  rw [statements_of_done (begins.startsWith_eq_false rfl rest) some done]
  refine ⟨List.cons_ne_nil _ _, ?_⟩
  have further : middle.Onward (statements reading.environment reading.bound count behind middle).2 := by
    rw [show behind = rest.tail from same]
    rcases more with runs | semicolons
    · exact (runs middle (onward.trans forth)).2
    · rw [statements_of_semicolons _ _ _ semicolons]
      exact .refl middle
  exact forth.trans further

theorem runs_of_derives {lexemes : List Lexeme} (derived : Grammar.Derives reading.dialect .program lexemes)
    {count : Nat} (enough : lexemes.length ≤ count)
    (deep : lexemes.length ≤ reading.environment.settings.maxDepth) (short : lexemes.length ≤ reading.bound) :
    Runs reading.world (statements reading.environment reading.bound count lexemes) := by
  have passed {first : Lexeme} {rest : List Lexeme} {count : Nat} (semicolon : first.is .semicolon = true)
      (runs : Runs reading.world (statements reading.environment reading.bound count rest)) :
      Runs reading.world (statements reading.environment reading.bound (count + 1) (first :: rest)) := by
    intro before onward
    rw [statements, if_pos semicolon]
    exact runs before onward
  induction count generalizing lexemes with
  | zero =>
    cases derived with
    | lastStatement _ statement _ =>
      have some := Grammar.Begins.length_pos statement.begins
      simp only [List.length_append] at enough
      omega
    | nextStatement _ statement _ _ =>
      simp only [List.length_append, List.length_cons] at enough
      omega
  | succ count induction =>
    cases derived with
    | @lastStatement leading only after semicolons statement trailing =>
      cases leading with
      | nil =>
        simp only [List.nil_append, List.length_append] at enough deep short ⊢
        have ended : startsWith .semicolon after = true ∨ after = [] := by
          cases after with
          | nil => exact .inr rfl
          | cons first others => exact .inl (trailing first (List.mem_cons_self ..))
        have behind : ∀ one ∈ after.tail, one.is .semicolon = true :=
          fun one member => trailing one (List.mem_of_mem_tail member)
        exact runs_statement reading statement ended (startsWith_semicolons behind) (by omega) (by omega)
          (.inr behind)
      | cons first others =>
        rw [List.forall_mem_cons] at semicolons
        simp only [List.cons_append, List.length_cons] at enough deep short ⊢
        exact passed semicolons.1
          (induction (.lastStatement semicolons.2 statement trailing) (by omega) (by omega) (by omega))
    | @nextStatement leading only rest semicolon semicolons statement separated more =>
      cases leading with
      | nil =>
        simp only [List.nil_append, List.length_append, List.length_cons] at enough deep short ⊢
        have ended : startsWith .semicolon (semicolon :: rest) = true := separated
        have runs := induction more (by omega) (by omega) (by omega)
        exact runs_statement reading statement (.inl ended) (Grammar.Reading.startsWith_program more) (by omega)
          (by omega) (.inl runs)
      | cons first others =>
        rw [List.forall_mem_cons] at semicolons
        simp only [List.cons_append, List.length_cons] at enough deep short ⊢
        exact passed semicolons.1
          (induction (.nextStatement semicolons.2 statement separated more) (by omega) (by omega) (by omega))

end

/-- What derives as far as the grammar can tell is compiled without a problem with the grammar. -/
theorem isGrammatical_of_derives (unaided : environment.resolver = none) (world : World) {lexemes : List Lexeme}
    (deep : lexemes.length ≤ environment.settings.maxDepth)
    (derived : Grammar.Derives (.accepted environment world) .program lexemes) :
    (program environment lexemes (.start world)).2.IsGrammatical := by
  rcases runs_of_derives ⟨environment, unaided, world, lexemes.length⟩ derived (Nat.le_refl _) deep (Nat.le_refl _)
    (.start world) (.refl _) with ⟨some, onward⟩
  unfold program
  dsimp only at some onward ⊢
  split
  · intro report reported
    rcases onward.reports reported with before | other
    · cases before
    · exact other
  · next nothing =>
    rw [List.getLast?_eq_none_iff] at nothing
    exact absurd nothing some

/-- Compilation accepts the grammar: without a problem with the grammar the lexemes derive, and what derives with
braces around bodies is accepted, as long as no name of a function stands for a value, functions are called with as
many arguments as they take, the sizes of vectors are whole numbers, at least one and below 2 ^ 64, and vectors are
filled from nothing that begins with a brace. -/
theorem program_isGrammatical (unaided : environment.resolver = none) (world : World) (lexemes : List Lexeme)
    (deep : lexemes.length < environment.settings.maxDepth) :
    ((program environment lexemes (.start world)).2.IsGrammatical →
      Grammar.Derives .documented .program lexemes) ∧
    (Grammar.Derives (.accepted environment world) .program lexemes →
      (program environment lexemes (.start world)).2.IsGrammatical) :=
  ⟨derives_of_isGrammatical lexemes, isGrammatical_of_derives unaided world (Nat.le_of_lt deep)⟩

/-- A table whose bindings are its own, no resolver, and standard settings. -/
def plainEnvironment : Environment :=
  ⟨⟨0⟩, none, .standard⟩

def countdownWorld : World where
  store := { Store.empty with numbers := ⟨#[3.0]⟩, functions := ⟨#[fun _ _ => 0.0]⟩ }
  tables := ⟨#[(SymbolTable.empty.insert "x" (.scalar ⟨0⟩ false)).insert "f" (.function ⟨0, 1⟩)]⟩

def vectorOfTwo : List Lexeme :=
  [lexemeOf (.fixed .varWord) "var", lexemeOf (.name "v") "v", lexemeOf (.fixed .leftBracket) "[",
    lexemeOf (.number 2.0) "2", lexemeOf (.fixed .rightBracket) "]", lexemeOf (.fixed .assign) ":=",
    lexemeOf (.fixed .leftBrace) "\x7b", lexemeOf (.name "x") "x", lexemeOf (.fixed .comma) ",",
    lexemeOf (.number 1.0) "1", lexemeOf (.fixed .rightBrace) "\x7d"]

def countdownLoop : List Lexeme :=
  [lexemeOf (.fixed .whileWord) "while", lexemeOf (.fixed .leftParen) "(", lexemeOf (.name "x") "x",
    lexemeOf (.fixed .rightParen) ")", lexemeOf (.fixed .leftBrace) "\x7b", lexemeOf (.name "x") "x",
    lexemeOf (.fixed .assign) ":=", lexemeOf (.name "f") "f", lexemeOf (.fixed .leftParen) "(",
    lexemeOf (.name "v") "v", lexemeOf (.fixed .leftBracket) "[", lexemeOf (.number 0.0) "0",
    lexemeOf (.fixed .rightBracket) "]", lexemeOf (.fixed .rightParen) ")", lexemeOf (.fixed .rightBrace) "\x7d"]

/-- The program `var v[2] := {x, 1}; while (x) {x := f(v[0])}; sin := v`. -/
def countdownProgram : List Lexeme :=
  vectorOfTwo ++ lexemeOf (.fixed .semicolon) ";" :: (countdownLoop ++ lexemeOf (.fixed .semicolon) ";" ::
    [lexemeOf (.name "sin") "sin", lexemeOf (.fixed .assign) ":=", lexemeOf (.name "v") "v"])

theorem derives_number {dialect : Grammar.Dialect} (value : Float) (text : String) :
    Grammar.Derives dialect .assignment [lexemeOf (.number value) text] :=
  .bare (.literal rfl)

theorem isVectorSize_two : Grammar.IsVectorSize (.number 2.0) := by
  have unpacked : Number.unpacked 2.0 = .finite .positive 4503599627370496 (-51) (by decide) := rfl
  have two : Number.value 2.0 = (2 : Nat) := by
    rw [Number.value, unpacked]
    norm_num [Float.Model.UnpackedFloat.Sign.apply]
  exact ⟨2.0, 2, rfl, by decide +kernel, two, by decide, by decide⟩

theorem derives_countdownName (word : String) (noBuiltin : Builtin.find? word = none)
    (noFunction : ∀ function, (countdownWorld.table ⟨0⟩).lookup word ≠ some (.function function)) :
    Grammar.Derives (.accepted plainEnvironment countdownWorld) .primary [lexemeOf (.name word) word] := by
  apply Grammar.Derives.name rfl
  constructor
  · rintro name same
    cases same
    exact noBuiltin
  · exact noFunction

theorem derives_vectorOfTwo : Grammar.Derives (.accepted plainEnvironment countdownWorld) .statement vectorOfTwo := by
  have x := derives_countdownName "x" (by decide) nofun
  have elements : Grammar.Derives (.accepted plainEnvironment countdownWorld) (.list 2)
      ([lexemeOf (.name "x") "x"] ++ lexemeOf (.fixed .comma) "," :: [lexemeOf (.number 1.0) "1"]) :=
    .nextItem (.bare x) rfl (.lastItem (derives_number 1.0 "1"))
  exact .declared rfl (.vector rfl rfl isVectorSize_two rfl (.listed rfl rfl elements rfl))

theorem derives_countdownLoop :
    Grammar.Derives (.accepted plainEnvironment countdownWorld) .statement countdownLoop := by
  have x := derives_countdownName "x" (by decide) nofun
  have v := derives_countdownName "v" (by decide) nofun
  have element : Grammar.Derives (.accepted plainEnvironment countdownWorld) .assignment
      ([lexemeOf (.name "v") "v"] ++ lexemeOf (.fixed .leftBracket) "[" ::
        ([lexemeOf (.number 0.0) "0"] ++ lexemeOf (.fixed .rightBracket) "]" :: [])) :=
    .unassigned (.unconditional (.single (.single (.single (.unrelated (.single (.single (.unsigned
      (.base v (.element rfl (derives_number 0.0 "0") rfl .noSubscript))))))))))
  have accepts : Accepts plainEnvironment countdownWorld (lexemeOf (.name "f") "f") 1 := by
    rintro function bound
    cases bound
    rfl
  have call : Grammar.Derives (.accepted plainEnvironment countdownWorld) .assignment
      (lexemeOf (.name "f") "f" :: lexemeOf (.fixed .leftParen) "(" :: ([lexemeOf (.name "v") "v",
        lexemeOf (.fixed .leftBracket) "[", lexemeOf (.number 0.0) "0", lexemeOf (.fixed .rightBracket) "]"] ++
          [lexemeOf (.fixed .rightParen) ")"])) :=
    .bare (.call rfl rfl (.lastItem element) rfl accepts)
  have body : Grammar.Derives (.accepted plainEnvironment countdownWorld) .block
      ((lexemeOf (.name "x") "x" :: lexemeOf (.fixed .assign) ":=" :: _) ++ []) :=
    .result (.formula (.assigned rfl rfl call)) .noSeparator
  exact .formula (.bare (.whileLoop rfl rfl (.bare x) rfl (.bracedBody rfl body rfl)))

theorem derives_countdownProgram :
    Grammar.Derives (.accepted plainEnvironment countdownWorld) .program countdownProgram := by
  have v := derives_countdownName "v" (by decide) nofun
  have last : Grammar.Derives (.accepted plainEnvironment countdownWorld) .program
      (lexemeOf (.name "sin") "sin" :: lexemeOf (.fixed .assign) ":=" :: [lexemeOf (.name "v") "v"]) :=
    .alone (.formula (.assigned rfl rfl (.bare v)))
  exact .nextStatement (List.forall_mem_nil _) derives_vectorOfTwo rfl
    (.nextStatement (List.forall_mem_nil _) derives_countdownLoop rfl last)

/-- A program with a vector, a loop, and a call of a function of the host, which assigns to a name that a function has,
derives and is accepted. -/
theorem program_isGrammatical_countdown :
    plainEnvironment.resolver = none ∧ countdownProgram.length < plainEnvironment.settings.maxDepth ∧
      Grammar.Derives (.accepted plainEnvironment countdownWorld) .program countdownProgram ∧
      (program plainEnvironment countdownProgram (.start countdownWorld)).2.IsGrammatical :=
  ⟨rfl, by decide, derives_countdownProgram,
    (program_isGrammatical rfl countdownWorld countdownProgram (by decide)).2 derives_countdownProgram⟩

/-! ## What derives and is not accepted -/

/-- A program whose first statement cannot be read has a problem with its grammar. -/
theorem not_isGrammatical_of_unread {first : Lexeme} {rest : List Lexeme} {stopped : Tree}
    (other : ¬first.is .semicolon = true)
    (stops : Grammar.statement (Grammar.outermost environment.settings.maxDepth (first :: rest).length)
      (first :: rest) = .error stopped) :
    ¬(program environment (first :: rest) (.start world)).2.IsGrammatical := by
  intro clean
  have sound : (Grammar.outermost environment.settings.maxDepth (first :: rest).length).Sound :=
    Grammar.innerAt_sound _ _ _
  have read : Grammar.endedStatement (Grammar.outermost environment.settings.maxDepth (first :: rest).length)
      (first :: rest) = .error stopped :=
    Reader.bind_eq_error.mpr (.inl stops)
  rcases Grammar.endedStatement_halts sound read environment (.start world) with ⟨halt, after, halted⟩
  have done : statement environment (first :: rest).length (first :: rest) (.start world) = (.error halt, after) := by
    rw [statement_of_error read, bind_of_error halted]
  exact not_isGrammatical_of_halted .refl other done (statements_isGrammatical clean)

/-- A single report is enough, if it is one of a problem with the grammar. -/
theorem not_isGrammatical_of_phases {progress : Progress}
    (phases : progress.reports.map (·.problem.phase) = [.grammatical]) : ¬progress.IsGrammatical := by
  intro clean
  obtain ⟨report, reported, same⟩ := List.mem_map.mp (phases ▸ List.mem_singleton_self Phase.grammatical)
  exact clean report reported same

/-! ### Functions -/

def functionAlone : List Lexeme :=
  [lexemeOf (.name "sin") "sin"]

theorem derives_functionAlone : Grammar.Derives .braced .program functionAlone :=
  .alone (.formula (.bare (.name rfl trivial)))

/-- A function stands for no value. -/
theorem not_isGrammatical_functionAlone :
    ¬(program plainEnvironment functionAlone (.start .empty)).2.IsGrammatical :=
  not_isGrammatical_of_phases rfl

def argumentTooMany : List Lexeme :=
  [lexemeOf (.name "sin") "sin", lexemeOf (.fixed .leftParen) "(", lexemeOf (.number 1.0) "1",
    lexemeOf (.fixed .comma) ",", lexemeOf (.number 2.0) "2", lexemeOf (.fixed .rightParen) ")"]

theorem derives_argumentTooMany : Grammar.Derives .braced .program argumentTooMany := by
  have arguments : Grammar.Derives .braced (.list 2)
      ([lexemeOf (.number 1.0) "1"] ++ lexemeOf (.fixed .comma) "," :: [lexemeOf (.number 2.0) "2"]) :=
    .nextItem (derives_number 1.0 "1") rfl (.lastItem (derives_number 2.0 "2"))
  exact .alone (.formula (.bare (.call rfl rfl arguments rfl trivial)))

/-- A function of one argument cannot be called with two. -/
theorem not_isGrammatical_argumentTooMany :
    ¬(program plainEnvironment argumentTooMany (.start .empty)).2.IsGrammatical :=
  not_isGrammatical_of_phases rfl

/-! ### Vectors -/

theorem vectorDeclaration_of_noSize (inner : Grammar.Inner) (word number : Lexeme) (rest : List Lexeme)
    (none : Grammar.vectorSize? number.token = none) :
    ∃ stopped, Grammar.vectorDeclaration inner word (number :: rest) = .error stopped := by
  have stops : Grammar.vectorSize (number :: rest) =
      Reader.stop (.badVectorSize (some number.text)) (number :: rest) := by
    rw [Grammar.vectorSize, none]
  exact ⟨_, Reader.bind_eq_error.mpr (.inl (Reader.within_of_error (Reader.bind_eq_error.mpr (.inl stops)) _))⟩

/-- The declaration of a vector of so many zeros. -/
def vectorOf (size : Float) (text : String) : List Lexeme :=
  [lexemeOf (.fixed .varWord) "var", lexemeOf (.name "v") "v", lexemeOf (.fixed .leftBracket) "[",
    lexemeOf (.number size) text, lexemeOf (.fixed .rightBracket) "]"]

theorem derives_vectorOf (size : Float) (text : String) : Grammar.Derives .braced .program (vectorOf size text) :=
  .alone (.declared rfl (.vector rfl rfl rfl rfl .noInitializer))

theorem not_isGrammatical_vectorOf {size : Float} (none : Grammar.vectorSize? (.number size) = none) (text : String) :
    ¬(program plainEnvironment (vectorOf size text) (.start .empty)).2.IsGrammatical := by
  rcases vectorDeclaration_of_noSize (Grammar.outermost 40 5) (lexemeOf (.name "v") "v")
    (lexemeOf (.number size) text) [lexemeOf (.fixed .rightBracket) "]"] none with ⟨stopped, declared⟩
  exact not_isGrammatical_of_unread (by decide)
    (show Grammar.statement _ (vectorOf size text) = .error stopped from declared)

def blockOfTwo : List Lexeme :=
  [lexemeOf (.fixed .leftBrace) "\x7b", lexemeOf (.number 1.0) "1", lexemeOf (.fixed .semicolon) ";",
    lexemeOf (.number 2.0) "2", lexemeOf (.fixed .rightBrace) "\x7d"]

/-- The program `var v[2] := {1; 2}`. -/
def filledFromBlock : List Lexeme :=
  lexemeOf (.fixed .varWord) "var" :: lexemeOf (.name "v") "v" :: lexemeOf (.fixed .leftBracket) "[" ::
    lexemeOf (.number 2.0) "2" :: lexemeOf (.fixed .rightBracket) "]" :: lexemeOf (.fixed .assign) ":=" :: blockOfTwo

theorem derives_blockOfTwo {dialect : Grammar.Dialect} : Grammar.Derives dialect .assignment blockOfTwo := by
  have content : Grammar.Derives dialect .block ([lexemeOf (.number 1.0) "1"] ++
      lexemeOf (.fixed .semicolon) ";" :: ([lexemeOf (.number 2.0) "2"] ++ [])) :=
    .effect (.formula (derives_number 1.0 "1")) rfl (.result (.formula (derives_number 2.0 "2")) .noSeparator)
  exact .bare (.braces rfl content rfl)

theorem derives_filledFromBlock : Grammar.Derives .braced .program filledFromBlock := by
  have initializer : Grammar.Derives .braced .initializer (lexemeOf (.fixed .assign) ":=" :: blockOfTwo) :=
    .filled rfl trivial derives_blockOfTwo
  exact .alone (.declared rfl (.vector rfl rfl rfl rfl initializer))

/-- Behind the sign of an initializer a brace opens a list, in which no semicolon may stand. -/
theorem vectorContent_blockOfTwo (word : Lexeme) (size : Nat) :
    ∃ stopped, Grammar.vectorContent (Grammar.outermost 40 11) word size
      (lexemeOf (.fixed .assign) ":=" :: blockOfTwo) = .error stopped :=
  ⟨_, rfl⟩

theorem vectorDeclaration_blockOfTwo (word : Lexeme) :
    ∃ stopped, Grammar.vectorDeclaration (Grammar.outermost 40 11) word
      (lexemeOf (.number 2.0) "2" :: lexemeOf (.fixed .rightBracket) "]" ::
        lexemeOf (.fixed .assign) ":=" :: blockOfTwo) = .error stopped := by
  cases sized : Grammar.vectorSize? (.number 2.0) with
  | none => exact vectorDeclaration_of_noSize _ word (lexemeOf (.number 2.0) "2") _ sized
  | some size =>
    have read : (Grammar.closedVectorSize).Gives (fun _ => True) (lexemeOf (.number 2.0) "2" ::
        lexemeOf (.fixed .rightBracket) "]" :: lexemeOf (.fixed .assign) ":=" :: blockOfTwo)
        (lexemeOf (.fixed .assign) ":=" :: blockOfTwo) :=
      Grammar.Reading.gives_closedVectorSize ⟨size, sized⟩ rfl
    rcases read with ⟨found, read, -⟩
    rcases vectorContent_blockOfTwo word found with ⟨stopped, content⟩
    exact ⟨stopped, Reader.bind_eq_error.mpr (.inr ⟨found, _, Reader.within_of_ok read _, content⟩)⟩

theorem not_isGrammatical_filledFromBlock :
    ¬(program plainEnvironment filledFromBlock (.start .empty)).2.IsGrammatical := by
  rcases vectorDeclaration_blockOfTwo (lexemeOf (.name "v") "v") with ⟨stopped, declared⟩
  exact not_isGrammatical_of_unread (by decide)
    (show Grammar.statement _ filledFromBlock = .error stopped from declared)

/-- Not all that derives with braces around bodies is accepted: a function that is not called, a call with an argument
too many, a vector without elements or with more than can be counted, and a vector that is filled from a block in
braces. -/
theorem not_isGrammatical_derived :
    plainEnvironment.resolver = none ∧
      ∀ lexemes ∈ [functionAlone, argumentTooMany, vectorOf 0.0 "0", vectorOf 1e300 "1e300", filledFromBlock],
        lexemes.length < plainEnvironment.settings.maxDepth ∧ Grammar.Derives .braced .program lexemes ∧
          ¬(program plainEnvironment lexemes (.start .empty)).2.IsGrammatical := by
  simp only [List.forall_mem_cons]
  exact ⟨rfl, ⟨by decide, derives_functionAlone, not_isGrammatical_functionAlone⟩,
    ⟨by decide, derives_argumentTooMany, not_isGrammatical_argumentTooMany⟩,
    ⟨by decide, derives_vectorOf 0.0 "0", not_isGrammatical_vectorOf (by decide +kernel) "0"⟩,
    ⟨by decide, derives_vectorOf 1e300 "1e300", not_isGrammatical_vectorOf (by decide +kernel) "1e300"⟩,
    ⟨by decide, derives_filledFromBlock, not_isGrammatical_filledFromBlock⟩, List.forall_mem_nil _⟩

end Compile

end LiveExpr
