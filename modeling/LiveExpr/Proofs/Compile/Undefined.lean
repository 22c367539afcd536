import LiveExpr.Proofs.Compile.Naming
import LiveExpr.Proofs.Compile.Success

/-!
Undefined names. Without a resolver, and where no other problems are found, a compilation reports exactly those names
that are used at some place where they are neither declared yet nor bound in the table, and each of them once. What is
known of names is followed through the formula as it is compiled, occurrence by occurrence.
-/

namespace LiveExpr

/-! ## Undefined occurrences -/

/-- The name that something must stand for at the place of the occurrence. -/
def Occurrence.needs? : Occurrence → Option String
  | sought name => some name
  | applied name => if (Builtin.find? name).isSome then none else some name
  | called _ | declaring _ | declared _ => none

/-- Whether a name is used somewhere where it has not been declared before, nor is bound in the table. -/
def IsUndefined (table : SymbolTable) (occurrences : List Occurrence) (name : String) : Prop :=
  ∃ before occurrence after, occurrences = before ++ occurrence :: after ∧ occurrence.needs? = some name ∧
    .declared name ∉ before ∧ table.lookup name = none

theorem not_isUndefined_nil (table : SymbolTable) (name : String) : ¬IsUndefined table [] name := by
  rintro ⟨before, occurrence, after, split, -⟩
  cases before <;> cases split

theorem isUndefined_cons {table : SymbolTable} {first : Occurrence} {rest : List Occurrence} {name : String} :
    IsUndefined table (first :: rest) name ↔
      first.needs? = some name ∧ table.lookup name = none ∨
        first ≠ .declared name ∧ IsUndefined table rest name := by
  constructor
  · rintro ⟨_ | ⟨one, before⟩, occurrence, after, split, needs, undeclared, unbound⟩
    · cases split
      exact .inl ⟨needs, unbound⟩
    · cases split
      rw [List.mem_cons, not_or] at undeclared
      exact .inr ⟨Ne.symm undeclared.1, before, occurrence, after, rfl, needs, undeclared.2, unbound⟩
  · rintro (⟨needs, unbound⟩ | ⟨other, before, occurrence, after, rfl, needs, undeclared, unbound⟩)
    · exact ⟨[], first, rest, rfl, needs, List.not_mem_nil, unbound⟩
    · refine ⟨first :: before, occurrence, after, rfl, needs, ?_, unbound⟩
      rw [List.mem_cons, not_or]
      exact ⟨Ne.symm other, undeclared⟩

/-- What is known of names so far: those that are declared, and those that have been found undefined, the latest
first. -/
structure Survey where
  declared : List String
  undefined : List String

namespace Survey

variable (table : SymbolTable)

/-- Takes note of the use of a name. -/
def require (survey : Survey) (name : String) : Survey :=
  if survey.declared.contains name || (table.lookup name).isSome || survey.undefined.contains name then survey
  else { survey with undefined := name :: survey.undefined }

def note (survey : Survey) (occurrence : Occurrence) : Survey :=
  match occurrence with
  | .declared name => { survey with declared := name :: survey.declared }
  | occurrence =>
    match occurrence.needs? with
    | some name => survey.require table name
    | none => survey

/-- What is known behind some occurrences. -/
def behind (survey : Survey) (occurrences : List Occurrence) : Survey :=
  occurrences.foldl (note table) survey

variable {table} {survey : Survey} {name other : String}

/-- A call needs its name unless that is the name of a built-in function. -/
theorem note_applied : survey.note table (.applied name) =
    if (Builtin.find? name).isSome then survey else survey.require table name := by
  cases builtin : Builtin.find? name <;> simp [note, Occurrence.needs?, builtin]

theorem mem_require :
    other ∈ (survey.require table name).undefined ↔
      other ∈ survey.undefined ∨ other = name ∧ other ∉ survey.declared ∧ table.lookup other = none := by
  unfold require
  split
  · next known =>
    simp only [Bool.or_eq_true, List.contains_iff_mem] at known
    constructor
    · exact .inl
    · rintro (found | ⟨rfl, undeclared, unbound⟩)
      · exact found
      · rcases known with (declared | bound) | found
        · exact absurd declared undeclared
        · rw [unbound] at bound
          cases bound
        · exact found
  · next unknown =>
    simp only [Bool.or_eq_true, List.contains_iff_mem, not_or, Option.not_isSome_iff_eq_none] at unknown
    obtain ⟨⟨undeclared, unbound⟩, -⟩ := unknown
    rw [List.mem_cons]
    constructor
    · rintro (rfl | found)
      · exact .inr ⟨rfl, undeclared, unbound⟩
      · exact .inl found
    · rintro (found | ⟨rfl, -⟩)
      · exact .inr found
      · exact .inl rfl

theorem declared_require : (survey.require table name).declared = survey.declared := by
  unfold require
  split <;> rfl

theorem nodup_require (distinct : survey.undefined.Nodup) : (survey.require table name).undefined.Nodup := by
  unfold require
  split
  · exact distinct
  · next unknown =>
    simp only [Bool.or_eq_true, List.contains_iff_mem, not_or] at unknown
    exact List.nodup_cons.mpr ⟨unknown.2, distinct⟩

theorem mem_behind (occurrences : List Occurrence) :
    name ∈ (survey.behind table occurrences).undefined ↔
      name ∈ survey.undefined ∨ name ∉ survey.declared ∧ IsUndefined table occurrences name := by
  induction occurrences generalizing survey with
  | nil => simp [behind, not_isUndefined_nil]
  | cons first rest induction =>
    have step : survey.behind table (first :: rest) = (survey.note table first).behind table rest := rfl
    rw [step, induction, isUndefined_cons]
    cases first with
    | declared declared =>
      simp only [note, Occurrence.needs?, List.mem_cons, not_or, ne_eq, Occurrence.declared.injEq]
      grind
    | sought sought =>
      simp only [note, Occurrence.needs?, mem_require, declared_require]
      grind
    | applied applied =>
      cases builtin : Builtin.find? applied with
      | none =>
        simp only [note, Occurrence.needs?, builtin, Option.isSome_none, Bool.false_eq_true, if_false, mem_require,
          declared_require]
        grind
      | some function =>
        simp only [note, Occurrence.needs?, builtin, Option.isSome_some, if_true]
        grind
    | called | declaring =>
      simp only [note, Occurrence.needs?]
      grind

theorem nodup_behind (distinct : survey.undefined.Nodup) (occurrences : List Occurrence) :
    (survey.behind table occurrences).undefined.Nodup := by
  induction occurrences generalizing survey with
  | nil => exact distinct
  | cons first rest induction =>
    refine @induction (survey.note table first) ?_
    unfold note
    split
    · exact distinct
    · split
      · exact nodup_require distinct
      · exact distinct

end Survey

/-! ## Compilations -/

def Progress.IsSymbolic (progress : Progress) : Prop :=
  ∀ report ∈ progress.reports, report.problem.phase = .symbolic

/-- The text that a report points at. -/
def Report.text (report : Report) : String :=
  match report.place with
  | .lexeme lexeme => lexeme.text
  | .malformed malformed => malformed.text
  | .ending => ""

theorem Report.tokenValue_ofReport (source : String) (report : Report) :
    (Diagnostic.ofReport source report).tokenValue = report.text := by
  rcases report with ⟨problem, lexeme | malformed | _⟩ <;> rfl

def Report.IsOfUndefined (name : String) (report : Report) : Prop :=
  (report.problem = .undefinedSymbol name ∨ report.problem = .undefinedFunction name) ∧
    ∃ word, report.place = .lexeme word ∧ word.text = name

/-- Whether a survey describes the state of a compilation: the declared names are known, and the undefined ones are
reported. -/
structure Progress.Fits (environment : Environment) (table : SymbolTable) (survey : Survey) (progress : Progress) :
    Prop where
  table : progress.world.table environment.table = table
  declared (name : String) : (progress.locals.lookup name).isSome = survey.declared.contains name
  reported : progress.reported = survey.undefined
  reports : List.Forall₂ Report.IsOfUndefined survey.undefined progress.reports

namespace Compile

variable {environment : Environment} {table : SymbolTable} {α β : Type}

/-- Whether a computation that comes to a value, where only problems with symbols are reported, leaves what is known of
names as it is behind the occurrences. -/
def Surveys (environment : Environment) (table : SymbolTable) (occurrences : List Occurrence)
    (computation : Compile α) : Prop :=
  ∀ ⦃before : Progress⦄ ⦃value : α⦄ ⦃after : Progress⦄, computation before = (.ok value, after) → after.IsSymbolic →
    before.IsSymbolic ∧ ∀ survey : Survey, before.Fits environment table survey →
      after.Fits environment table (survey.behind table occurrences)

theorem not_isSymbolic {progress : Progress}
    (found : ∃ report ∈ progress.reports, report.problem.phase = .kinds) : ¬progress.IsSymbolic := by
  intro symbolic
  obtain ⟨report, reported, kinds⟩ := found
  rw [symbolic report reported] at kinds
  cases kinds

theorem quiet_isSymbolic {before after : Progress} (quiet : before.Quiet after) (symbolic : after.IsSymbolic) :
    after.reports = before.reports := by
  obtain ⟨found, sameReports, kinds⟩ := quiet.reports
  cases found with
  | nil => exact sameReports
  | cons report found =>
    refine absurd symbolic (not_isSymbolic ⟨report, ?_, kinds report List.mem_cons_self⟩)
    rw [sameReports]
    exact List.mem_cons_self

theorem fits_of_quiet {before after : Progress} (quiet : before.Quiet after) (symbolic : after.IsSymbolic)
    {survey : Survey} (fits : before.Fits environment table survey) : after.Fits environment table survey where
  table := (congrArg (·.get environment.table.index) quiet.tables).trans fits.table
  declared name := by rw [quiet.locals, fits.declared]
  reported := quiet.reported.trans fits.reported
  reports := by
    rw [quiet_isSymbolic quiet symbolic]
    exact fits.reports

theorem isSymbolic_of_quiet {before after : Progress} (quiet : before.Quiet after) (symbolic : after.IsSymbolic) :
    before.IsSymbolic := by
  unfold Progress.IsSymbolic
  rw [← quiet_isSymbolic quiet symbolic]
  exact symbolic

namespace Surveys

variable {occurrences others : List Occurrence}

theorem bind {first : Compile α} {continuation : α → Compile β} (surveys : Surveys environment table occurrences first)
    (continued : ∀ value, Surveys environment table others (continuation value)) :
    Surveys environment table (occurrences ++ others) (first >>= continuation) := by
  intro before result after done symbolic
  obtain ⟨value, middle, made, done⟩ := bind_eq_ok done
  obtain ⟨symbolicMiddle, later⟩ := continued value done symbolic
  obtain ⟨symbolicBefore, earlier⟩ := surveys made symbolicMiddle
  refine ⟨symbolicBefore, fun survey fits => ?_⟩
  rw [Survey.behind, List.foldl_append]
  exact later _ (earlier survey fits)

theorem plain {computation : Compile α} (plain : computation.Plain) : Surveys environment table [] computation := by
  intro before value after done symbolic
  obtain ⟨_, _, same, quiet⟩ := plain before
  rw [done] at same
  obtain ⟨-, rfl⟩ := Prod.mk.inj same
  exact ⟨isSymbolic_of_quiet quiet symbolic, fun survey => fits_of_quiet quiet symbolic⟩

theorem halt (problem : Problem) (place : Place) (rest : List Lexeme) :
    Surveys environment table occurrences (Compile.halt problem place rest : Compile α) :=
  nofun

/-- Joining nodes changes nothing in front of the rest. -/
theorem before {first : Compile α} {continuation : α → Compile β} (isPlain : first.Plain)
    (continued : ∀ value, Surveys environment table occurrences (continuation value)) :
    Surveys environment table occurrences (first >>= continuation) :=
  (plain isPlain).bind continued

/-- Joining nodes changes nothing at the end. -/
theorem behind {first : Compile α} {continuation : α → Compile β}
    (surveys : Surveys environment table occurrences first) (isPlain : ∀ value, (continuation value).Plain) :
    Surveys environment table occurrences (first >>= continuation) := by
  have both := surveys.bind fun value => plain (isPlain value)
  rwa [List.append_nil] at both

end Surveys

/-! ## Names -/

section Names

variable {before after : Progress} {survey : Survey} {name : String}

theorem isSome_binding? (fits : before.Fits environment table survey) (name : String) :
    (before.binding? environment name).isSome = (survey.declared.contains name || (table.lookup name).isSome) := by
  rw [← fits.declared, Progress.binding?, fits.table]
  cases before.locals.lookup name <;> rfl

theorem require_of_known (fits : before.Fits environment table survey)
    (known : (before.binding? environment name).isSome = true ∨ name ∈ before.reported) :
    survey.require table name = survey := by
  unfold Survey.require
  rw [← isSome_binding? fits, ← fits.reported, if_pos]
  rw [Bool.or_eq_true, List.contains_iff_mem]
  exact known

theorem fits_reported (fits : before.Fits environment table survey) (unknown : before.binding? environment name = none)
    (new : name ∉ before.reported) {report : Report} (describes : report.IsOfUndefined name) :
    Progress.Fits environment table (survey.require table name)
      { before with reports := report :: before.reports, reported := name :: before.reported } := by
  have noted : survey.require table name = { survey with undefined := name :: survey.undefined } := by
    unfold Survey.require
    rw [← isSome_binding? fits, ← fits.reported, unknown, if_neg]
    rw [Bool.or_eq_true, List.contains_iff_mem]
    simpa using new
  rw [noted]
  exact ⟨fits.table, fits.declared, congrArg (name :: ·) fits.reported, .cons describes fits.reports⟩

theorem surveys_reportName {problem : Problem} {word : Lexeme}
    (describes : problem = .undefinedSymbol word.text ∨ problem = .undefinedFunction word.text) {value other : α}
    (unknown : before.binding? environment word.text = none) (new : word.text ∉ before.reported)
    (done : (do reportName word.text problem (.lexeme word); pure other : Compile α) before = (.ok value, after))
    (symbolic : after.IsSymbolic) :
    before.IsSymbolic ∧ ∀ survey : Survey, before.Fits environment table survey →
      after.Fits environment table (survey.require table word.text) := by
  cases done
  refine ⟨fun report reported => symbolic report (List.mem_cons_of_mem _ reported), fun survey fits => ?_⟩
  exact fits_reported fits unknown new ⟨describes, word, rfl, rfl⟩

end Names

theorem resolve_surveys (unaided : environment.resolver = none) (word : Lexeme) :
    Surveys environment table [.sought word.text] (resolve environment word) := by
  intro before value after done symbolic
  change _ ∧ ∀ survey : Survey, _ → after.Fits environment table (survey.require table word.text)
  obtain ⟨known, middle, looked, done⟩ := bind_eq_ok done
  obtain ⟨rfl, rfl⟩ := known?_eq_ok looked
  cases known : before.binding? environment word.text with
  | some binding =>
    rw [known] at done
    cases done
    refine ⟨symbolic, fun survey fits => ?_⟩
    rwa [require_of_known fits (.inl (by rw [known]; rfl))]
  | none =>
    rw [known] at done
    dsimp only at done
    rw [view_bind] at done
    split at done
    · next contained =>
      cases done
      refine ⟨symbolic, fun survey fits => ?_⟩
      rwa [require_of_known fits (.inr (List.contains_iff_mem.mp contained))]
    · next new =>
      rw [unaided] at done
      exact surveys_reportName (.inl rfl) known (fun reported => new (List.contains_iff_mem.mpr reported)) done symbolic

theorem reference_surveys (settings : Settings) (word : Lexeme) (rest : List Lexeme) (binding : Option Binding) :
    Surveys environment table [] (reference settings word rest binding) := by
  rcases binding with _ | (_ | _ | _ | function)
  case some.function => exact .halt _ _ _
  all_goals exact .plain (reference_plain settings word rest nofun)

theorem surveys_called {occurrences : List Occurrence} {computation : Compile α}
    (surveys : Surveys environment table occurrences computation) (name : String) :
    Surveys environment table (.called name :: occurrences) computation :=
  surveys

/-- What a call comes to. It halts, or the nodes are joined and its name is known, or has been reported; or else the
name is reported now. -/
theorem call_cases (environment : Environment) (word : Lexeme) (arguments : List (Place × AnyNode))
    (rest : List Lexeme) (before : Progress) :
    (∃ halt, call environment word arguments rest before = (.error halt, before)) ∨
    ((Builtin.find? word.text).isSome = true ∨ (before.binding? environment word.text).isSome = true ∨
        word.text ∈ before.reported) ∧
      (∃ computation : Compile AnyNode, computation.Plain ∧
        call environment word arguments rest before = computation before) ∨
    Builtin.find? word.text = none ∧ before.binding? environment word.text = none ∧ word.text ∉ before.reported ∧
      call environment word arguments rest before = (do
        reportName word.text (.undefinedFunction word.text) (.lexeme word)
        pure placeholder : Compile AnyNode) before := by
  unfold call
  dsimp only
  cases builtin : Builtin.find? word.text with
  | some function =>
    dsimp only
    split
    · exact .inr (.inl ⟨.inl rfl, _, builtinCall_plain _ word function arguments, rfl⟩)
    · exact .inl ⟨_, rfl⟩
  | none =>
    dsimp only
    have looked : known? environment word.text before = (.ok (before.binding? environment word.text), before) := rfl
    rw [bind_of_ok looked]
    cases known : before.binding? environment word.text with
    | some binding =>
      cases binding with
      | function function =>
        dsimp only
        split
        · exact .inr (.inl ⟨.inr (.inl rfl), _, userCall_plain function arguments, rfl⟩)
        · exact .inl ⟨_, rfl⟩
      | scalar | string | vector => exact .inr (.inl ⟨.inr (.inl rfl), _, failed_plain rfl _, rfl⟩)
    | none =>
      dsimp only
      rw [view_bind]
      split
      · next contained => exact .inr (.inl ⟨.inr (.inr (List.contains_iff_mem.mp contained)), _, .pure _, rfl⟩)
      · next missing => exact .inr (.inr ⟨rfl, rfl, mt List.contains_iff_mem.mpr missing, rfl⟩)

theorem call_surveys (word : Lexeme) (arguments : List (Place × AnyNode)) (rest : List Lexeme) :
    Surveys environment table [.applied word.text] (call environment word arguments rest) := by
  intro before value after done symbolic
  change _ ∧ ∀ survey : Survey, _ → after.Fits environment table (survey.note table (.applied word.text))
  rcases call_cases environment word arguments rest before with ⟨halt, halted⟩ | ⟨known, computation, isPlain, same⟩ |
    ⟨noBuiltin, unknown, new, same⟩
  · rw [halted] at done
    cases done
  · rw [same] at done
    obtain ⟨symbolicBefore, fits⟩ := (Surveys.plain isPlain : Surveys environment table [] _) done symbolic
    refine ⟨symbolicBefore, fun survey fitsBefore => ?_⟩
    have noted : survey.note table (.applied word.text) = survey := by
      rw [Survey.note_applied]
      split
      · rfl
      · next noBuiltin => exact require_of_known fitsBefore (known.resolve_left noBuiltin)
    rw [noted]
    exact fits survey fitsBefore
  · rw [same] at done
    simp only [Survey.note_applied, noBuiltin, Option.isSome_none, Bool.false_eq_true, if_false]
    exact surveys_reportName (.inr rfl) unknown new done symbolic

/-! ## Declarations -/

theorem fits_declared {before : Progress} {survey : Survey} (fits : before.Fits environment table survey)
    (name : String) (binding : Binding) :
    Progress.Fits environment table (survey.note table (.declared name))
      { before with locals := before.locals.insert name binding } where
  table := fits.table
  declared other := by
    change ((before.locals.insert name binding).lookup other).isSome = (name :: survey.declared).contains other
    rw [List.contains_cons]
    by_cases same : other = name
    · rw [same, NameMap.lookup_insert_same, beq_self_eq_true]
      rfl
    · rw [NameMap.lookup_insert_other same, fits.declared, beq_eq_false_iff_ne.mpr same, Bool.false_or]
  reported := fits.reported
  reports := fits.reports

/-- A declaration that finds no problem with kinds makes its name known. -/
theorem surveys_declaring (word : Lexeme) {occurrences : List Occurrence} {initializer : Compile α}
    (surveys : Surveys environment table occurrences initializer) {finish : Bool → α → Compile β}
    (declares : ∀ allowed value, (finish allowed value).Declares allowed word.text) :
    Surveys environment table (.declaring word.text :: occurrences ++ [.declared word.text])
      (do
        let allowed ← mayDeclare environment word
        let value ← initializer
        finish allowed value) := by
  intro before result after done symbolic
  obtain ⟨allowed, early, asked, done⟩ := bind_eq_ok done
  obtain ⟨value, late, initialized, done⟩ := bind_eq_ok done
  obtain ⟨_, middle, _, same, quiet, outcome⟩ := declares allowed value late
  rw [done] at same
  obtain ⟨-, rfl⟩ := Prod.mk.inj same
  have symbolicMiddle : middle.IsSymbolic := by
    rcases outcome with ⟨-, binding, -, rfl⟩ | ⟨rfl, -⟩
    · exact symbolic
    · exact symbolic
  obtain ⟨symbolicEarly, fitsLate⟩ := surveys initialized (isSymbolic_of_quiet quiet symbolicMiddle)
  obtain ⟨symbolicBefore, fitsEarly⟩ :=
    (Surveys.plain (mayDeclare_plain word) : Surveys environment table [] _) asked symbolicEarly
  refine ⟨symbolicBefore, fun survey fits => ?_⟩
  have fitsMiddle := fits_of_quiet quiet symbolicMiddle (fitsLate survey (fitsEarly survey fits))
  rcases outcome with ⟨-, binding, -, rfl⟩ | ⟨rfl, refused⟩
  · have known : survey.behind table (.declaring word.text :: occurrences ++ [.declared word.text]) =
        (survey.behind table occurrences).note table (.declared word.text) := by
      rw [Survey.behind, List.foldl_append]
      rfl
    rw [known]
    exact fits_declared fitsMiddle word.text binding
  · cases allowed with
    | true => exact absurd symbolicMiddle (not_isSymbolic (refused rfl))
    | false => exact absurd symbolicEarly (not_isSymbolic (mayDeclare_refused asked))

/-! ## Trees -/

mutual

/-- A tree takes note of its occurrences of names, and of nothing else. -/
theorem tree_surveys (unaided : environment.resolver = none) :
    (tree : Tree) → Surveys environment table tree.occurrences (tree.compile environment)
  | .number _ | .text _ => .plain (.pure _)
  | .stop _ _ => .halt _ _ _
  | .name word rest => (resolve_surveys unaided word).bind fun binding => reference_surveys _ word rest binding
  | .call word arguments rest => by
    refine (surveys_called (placed_surveys unaided arguments) word.text).bind fun arguments => ?_
    exact call_surveys word arguments rest
  | .negation sign operand => (tree_surveys unaided operand).behind fun operand => negation_plain _ sign operand
  | .affirmation sign operand => (tree_surveys unaided operand).behind fun operand => affirmation_plain sign operand
  | .denial start operand => (tree_surveys unaided operand).behind fun operand => denial_plain _ start operand
  | .arithmetic first rest => (tree_surveys unaided first).bind fun first => arithmetic_surveys unaided rest first
  | .logical start first rest => (tree_surveys unaided first).bind fun first => logical_surveys unaided start rest first
  | .relation sign left right => by
    refine (tree_surveys unaided left).bind fun left => ?_
    exact (tree_surveys unaided right).behind fun right => relation_plain _ sign left right
  | .conditional start condition branch consequent alternative => by
    refine (tree_surveys unaided condition).bind fun condition => ?_
    refine .before (requireScalar_plain _ start condition) fun condition => ?_
    refine (tree_surveys unaided consequent).bind fun consequent => ?_
    exact (tree_surveys unaided alternative).behind fun alternative =>
      conditional_plain _ condition branch consequent alternative
  | .conditionalOnly start condition branch consequent => by
    refine (tree_surveys unaided condition).bind fun condition => ?_
    refine .before (requireScalar_plain _ start condition) fun condition => ?_
    exact (tree_surveys unaided consequent).behind fun consequent => conditionalOnly_plain _ condition branch consequent
  | .size bracket base => (tree_surveys unaided base).behind fun base => size_plain _ bracket base
  | .element bracket base start index => by
    refine (tree_surveys unaided base).bind fun base => ?_
    exact (tree_surveys unaided index).behind fun index => element_plain bracket base start index
  | .range bracket base firstStart first lastStart last => by
    refine (tree_surveys unaided base).bind fun base => ?_
    refine (tree_surveys unaided first).bind fun first => ?_
    exact (tree_surveys unaided last).behind fun last => range_plain _ bracket base firstStart first lastStart last
  | .block statements result => by
    refine (statements_surveys unaided statements).bind fun _ => ?_
    exact (tree_surveys unaided result).behind fun _ => .pure _
  | .loop initializer start condition step body => by
    refine (tree_surveys unaided initializer).bind fun _ => ?_
    refine (tree_surveys unaided condition).bind fun condition => ?_
    refine .before (requireScalar_plain _ start condition) fun _ => ?_
    refine (tree_surveys unaided step).bind fun _ => ?_
    exact (tree_surveys unaided body).behind fun _ => .pure _
  | .choice cases start otherwise => by
    refine (cases_surveys unaided cases).bind fun _ => ?_
    refine (tree_surveys unaided otherwise).behind fun otherwise => ?_
    exact (requireScalar_plain _ start otherwise).bind fun _ => .pure _
  | .assignment word sign start value => by
    refine (resolve_surveys unaided word).bind fun target => ?_
    exact (tree_surveys unaided value).behind fun value => assignment_plain word sign target start value
  | .elementAssignment word start index sign value => by
    refine (resolve_surveys unaided word).bind fun target => ?_
    refine (tree_surveys unaided index).bind fun index => ?_
    exact (tree_surveys unaided value).behind fun value => elementAssignment_plain word sign target start index value
  | .declaration word start value =>
    surveys_declaring word (tree_surveys unaided value) fun allowed value =>
      declaration_declares allowed word start value
  | .listedVector word size bracket elements =>
    surveys_declaring word (elements_surveys unaided elements) fun allowed elements =>
      listedVector_declares allowed word size bracket elements
  | .filledVector word size start value =>
    surveys_declaring word (tree_surveys unaided value) fun allowed value =>
      filledVector_declares allowed word size start value
  | .andThen done stopped => (tree_surveys unaided done).bind fun _ => tree_surveys unaided stopped

theorem placed_surveys (unaided : environment.resolver = none) : (trees : List (Place × Tree)) →
    Surveys environment table (occurrencesOfPlaced trees) (compilePlaced environment trees)
  | [] => .plain (.pure _)
  | (_, tree) :: rest => by
    refine (tree_surveys unaided tree).bind fun _ => ?_
    exact (placed_surveys unaided rest).behind fun _ => .pure _

theorem elements_surveys (unaided : environment.resolver = none) : (trees : List (Place × Tree)) →
    Surveys environment table (occurrencesOfPlaced trees) (compileElements environment trees)
  | [] => .plain (.pure _)
  | (start, tree) :: rest => by
    refine (tree_surveys unaided tree).bind fun node => ?_
    refine .before (requireScalar_plain _ start node) fun _ => ?_
    exact (elements_surveys unaided rest).behind fun _ => .pure _

theorem arithmetic_surveys (unaided : environment.resolver = none) :
    (run : List ((BinaryOperator × Lexeme) × Tree)) → (left : AnyNode) →
      Surveys environment table (occurrencesOfArithmetic run) (compileArithmetic environment left run)
  | [], _ => .plain (.pure _)
  | ((op, sign), tree) :: rest, left => by
    refine (tree_surveys unaided tree).bind fun right => ?_
    exact .before (arithmetic_plain _ op sign left right) fun left => arithmetic_surveys unaided rest left

theorem logical_surveys (unaided : environment.resolver = none) (start : Place) :
    (run : List ((BinaryOperator × Place) × Tree)) → (left : AnyNode) →
      Surveys environment table (occurrencesOfLogical run) (compileLogical environment start left run)
  | [], _ => .plain (.pure _)
  | ((op, rightStart), tree) :: rest, left => by
    refine (tree_surveys unaided tree).bind fun right => ?_
    exact .before (logical_plain _ op start left rightStart right) fun left => logical_surveys unaided start rest left

theorem statements_surveys (unaided : environment.resolver = none) : (trees : List Tree) →
    Surveys environment table (occurrencesOfStatements trees) (compileStatements environment trees)
  | [] => .plain (.pure _)
  | first :: rest => by
    refine (tree_surveys unaided first).bind fun _ => ?_
    exact (statements_surveys unaided rest).behind fun _ => .pure _

theorem cases_surveys (unaided : environment.resolver = none) : (cases : List ((Place × Tree) × (Place × Tree))) →
    Surveys environment table (occurrencesOfCases cases) (compileCases environment cases)
  | [] => .plain (.pure _)
  | ((start, condition), (resultStart, result)) :: rest => by
    refine (tree_surveys unaided condition).bind fun condition => ?_
    refine .before (requireScalar_plain _ start condition) fun _ => ?_
    refine (tree_surveys unaided result).bind fun result => ?_
    refine .before (requireScalar_plain _ resultStart result) fun _ => ?_
    exact (cases_surveys unaided rest).behind fun _ => .pure _

end

/-! ## Programs -/

theorem isGrammatical_of_isSymbolic {progress : Progress} (symbolic : progress.IsSymbolic) :
    progress.IsGrammatical := by
  intro report reported grammatical
  rw [symbolic report reported] at grammatical
  cases grammatical

theorem program_eq_statements {lexemes : List Lexeme} {before : Progress}
    (clean : (program environment lexemes before).2.IsGrammatical) :
    (program environment lexemes before).2 =
      (statements environment lexemes.length lexemes.length lexemes before).2 := by
  unfold program at clean ⊢
  dsimp only at clean ⊢
  split
  · rfl
  · next nothing =>
    rw [nothing] at clean
    dsimp only at clean
    split
    · next empty =>
      rw [if_pos empty] at clean
      exact absurd rfl (clean ⟨.emptyFormula, .ending⟩ (List.mem_singleton_self _))
    · rfl

theorem fits_start (environment : Environment) (world : World) :
    (Progress.start world).Fits environment (world.table environment.table) ⟨[], []⟩ :=
  ⟨rfl, fun _ => rfl, rfl, .nil⟩

/-- A program with problems with symbols only takes note of the occurrences of its trees. -/
theorem program_surveys (unaided : environment.resolver = none) {world : World} {lexemes : List Lexeme}
    (symbolic : (program environment lexemes (.start world)).2.IsSymbolic) :
    ∃ trees, Grammar.trees? environment.settings.maxDepth lexemes = some trees ∧
      (program environment lexemes (.start world)).2.Fits environment (world.table environment.table)
        (Survey.behind (world.table environment.table) ⟨[], []⟩ (occurrencesOfStatements trees)) := by
  have clean := isGrammatical_of_isSymbolic symbolic
  have same := program_eq_statements clean
  rw [same] at symbolic clean ⊢
  obtain ⟨trees, read, compiled⟩ := trees_of_statements .refl rfl clean
  obtain ⟨-, fits⟩ := statements_surveys unaided trees compiled symbolic
  exact ⟨trees, read, fits _ (fits_start environment world)⟩

end Compile

/-! ## Sources -/

namespace Compilation

/-- Whether what a compilation reports is that names are undefined, each of those that are so among the occurrences, and
each once; without such a name there is a graph. -/
structure ReportsUndefined (compilation : Compilation) (source : String) (table : SymbolTable)
    (occurrences : List Occurrence) : Prop where
  stated : List.Forall₂ Report.IsOfUndefined ((compilation.diagnostics source).map (·.tokenValue)) compilation.reports
  once : ((compilation.diagnostics source).map (·.tokenValue)).Nodup
  exact (name : String) :
    name ∈ (compilation.diagnostics source).map (·.tokenValue) ↔ IsUndefined table occurrences name
  succeeds : compilation.succeeded = true ↔ ∀ name, ¬IsUndefined table occurrences name

theorem map_tokenValue {names : List String} {reports : List Report}
    (stated : List.Forall₂ Report.IsOfUndefined names reports) (source : String) :
    (reports.map (Diagnostic.ofReport source)).map (·.tokenValue) = names := by
  induction stated with
  | nil => rfl
  | cons describes _ induction =>
    obtain ⟨-, word, place, rfl⟩ := describes
    rw [List.map_cons, List.map_cons, induction, Report.tokenValue_ofReport, Report.text, place]

theorem reportsUndefined {compilation : Compilation} {source : String} {table : SymbolTable}
    {occurrences : List Occurrence} {names : List String}
    (stated : List.Forall₂ Report.IsOfUndefined names compilation.reports) (once : names.Nodup)
    (undefined : ∀ name, name ∈ names ↔ IsUndefined table occurrences name)
    (compiled : compilation.succeeded = true ↔ compilation.reports = []) :
    compilation.ReportsUndefined source table occurrences := by
  have same : (compilation.diagnostics source).map (·.tokenValue) = names := map_tokenValue stated source
  refine ⟨?_, ?_, ?_, ?_⟩
  · rwa [same]
  · rwa [same]
  · rwa [same]
  · have none : compilation.reports = [] ↔ names = [] := by
      rw [← List.length_eq_zero_iff, ← stated.length_eq, List.length_eq_zero_iff]
    rw [compiled, none, List.eq_nil_iff_forall_not_mem]
    exact forall_congr' fun name => not_congr (undefined name)

variable {environment : Environment}

/-- Without a resolver, a compilation that finds problems with symbols only reports the names that are undefined
somewhere in the trees of the source, in which every name of the source has its place, and each of them once. It comes
to a graph if and only if there is no such name. -/
theorem ofSource_undefined (unaided : environment.resolver = none) (source : String) (world : World)
    (symbolic : ∀ report ∈ (ofSource environment source world).reports, report.problem.phase = .symbolic) :
    ∃ lexemes trees, tokenize source = .ok lexemes ∧
      Grammar.trees? environment.settings.maxDepth lexemes = some trees ∧
      spelledNames lexemes = (occurrencesOfStatements trees).filter Occurrence.isSpelled ∧
      (ofSource environment source world).ReportsUndefined source (world.table environment.table)
        (occurrencesOfStatements trees) := by
  cases tokenized : tokenize source with
  | error malformed =>
    unfold ofSource at symbolic
    rw [tokenized] at symbolic
    obtain ⟨first, rest, rfl⟩ := List.exists_cons_of_ne_nil (Correspondence.malformed_ne_nil tokenized)
    have lexical := symbolic (malformedReport first) List.mem_cons_self
    cases lexical
  | ok lexemes =>
    have reports : (ofSource environment source world).reports =
        (Compile.program environment lexemes (.start world)).2.reports.reverse := by
      unfold ofSource
      rw [tokenized]
    have onlySymbolic : (Compile.program environment lexemes (.start world)).2.IsSymbolic := by
      intro report reported
      rw [← List.mem_reverse, ← reports] at reported
      exact symbolic report reported
    obtain ⟨trees, read, fits⟩ := Compile.program_surveys unaided onlySymbolic
    have once : (Survey.behind (world.table environment.table) ⟨[], []⟩
        (occurrencesOfStatements trees)).undefined.Nodup :=
      Survey.nodup_behind List.nodup_nil _
    refine ⟨lexemes, trees, rfl, read, Grammar.spelled_trees? read, ?_⟩
    refine reportsUndefined ?_ (List.nodup_reverse.mpr once) (fun name => ?_)
      ((Correspondence.course environment world).ofSource_agrees rfl source).compiled
    · rw [reports]
      exact List.forall₂_reverse_iff.mpr fits.reports
    · rw [List.mem_reverse, Survey.mem_behind]
      simp only [List.not_mem_nil, not_false_eq_true, true_and, false_or]

theorem tokenize_undefined :
    tokenize "f(a);var b:=b;b" = .ok [⟨.name "f", "f", ⟨1, 1⟩⟩, ⟨.fixed .leftParen, "(", ⟨1, 2⟩⟩,
      ⟨.name "a", "a", ⟨1, 3⟩⟩, ⟨.fixed .rightParen, ")", ⟨1, 4⟩⟩, ⟨.fixed .semicolon, ";", ⟨1, 5⟩⟩,
      ⟨.fixed .varWord, "var", ⟨1, 6⟩⟩, ⟨.name "b", "b", ⟨1, 10⟩⟩, ⟨.fixed .assign, ":=", ⟨1, 11⟩⟩,
      ⟨.name "b", "b", ⟨1, 13⟩⟩, ⟨.fixed .semicolon, ";", ⟨1, 14⟩⟩, ⟨.name "b", "b", ⟨1, 15⟩⟩] := by
  with_unfolding_all rfl

/-- The arguments of a call come before it, and `b` is undefined in its own initializer, but not behind it. -/
theorem ofSource_undefined_initializer :
    let compilation := ofSource Compile.plainEnvironment "f(a);var b:=b;b" .empty
    Compile.plainEnvironment.resolver = none ∧
      (∀ report ∈ compilation.reports, report.problem.phase = .symbolic) ∧
      (compilation.diagnostics "f(a);var b:=b;b").map (·.tokenValue) = ["a", "f", "b"] ∧
      ∃ occurrences, compilation.ReportsUndefined "f(a);var b:=b;b" .empty occurrences := by
  intro compilation
  have reports : compilation.reports =
      [⟨.undefinedSymbol "a", .lexeme ⟨.name "a", "a", ⟨1, 3⟩⟩⟩,
        ⟨.undefinedFunction "f", .lexeme ⟨.name "f", "f", ⟨1, 1⟩⟩⟩,
        ⟨.undefinedSymbol "b", .lexeme ⟨.name "b", "b", ⟨1, 13⟩⟩⟩] := by
    subst compilation
    unfold ofSource
    rw [tokenize_undefined]
    rfl
  have symbolic : ∀ report ∈ compilation.reports, report.problem.phase = .symbolic := by
    rw [reports]
    decide
  obtain ⟨_, _, -, -, -, undefined⟩ := ofSource_undefined rfl "f(a);var b:=b;b" .empty symbolic
  refine ⟨rfl, symbolic, ?_, _, undefined⟩
  rw [diagnostics, reports]
  rfl

end Compilation

end LiveExpr
