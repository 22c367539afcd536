import LiveExpr.Proofs.Compile.Inquiry
import LiveExpr.Proofs.Compile.Undefined

/-!
What the resolver is asked. A compilation goes on by steps, of which each asks one question or none. A name that is
asked for is neither known nor reported before and is bound or reported ever after, so no question is repeated as long
as the resolver does not take bindings away. A resolver may remember what it was asked before, in a cell of the store
that it hands on.
-/

namespace LiveExpr

/-- Whether the resolver leaves every name bound in the table that is so. -/
def Resolver.Keeps (resolver : Resolver) (table : TableHandle) : Prop :=
  ∀ (name : String) (world : World) (other : String), ((world.table table).lookup other).isSome = true →
    (((resolver name table world).2.table table).lookup other).isSome = true

/-- Whether the problem lies with a symbol. -/
def Report.isSymbolic (report : Report) : Bool :=
  report.problem.phase == .symbolic

def Question.isAccepted (table : TableHandle) (resolver : Resolver) (question : Question) : Bool :=
  (question.answer table resolver).1 == .resolved

/-! ## Steps -/

namespace Progress

variable (environment : Environment)

def IsBound (progress : Progress) (name : String) : Prop :=
  ((progress.world.table environment.table).lookup name).isSome = true

/-- What a compilation may do to its state at once, with the questions that it asks for that. -/
inductive Move (source : List Lexeme) : Progress → List Question → Progress → Prop
  | quiet {before after : Progress} (quiet : before.Quiet after) : Move source before [] after
  | declare (progress : Progress) (name : String) (binding : Binding) :
      Move source progress [] { progress with locals := progress.locals.insert name binding }
  | halt (progress : Progress) {report : Report} (grammatical : report.problem.phase = .grammatical) :
      Move source progress [] { progress with reports := report :: progress.reports }
  | tell {progress : Progress} {word : Lexeme} (new : word.text ∉ progress.reported) {problem : Problem}
      (symbolic : problem.phase = .symbolic) :
      Move source progress []
        { progress with
          reports := ⟨problem, .lexeme word⟩ :: progress.reports
          reported := word.text :: progress.reported }
  | ask {resolver : Resolver} (installed : environment.resolver = some resolver) {progress : Progress} {word : Lexeme}
      (sought : word.IsSought source) (unknown : progress.binding? environment word.text = none)
      (new : word.text ∉ progress.reported) :
      Move source progress [⟨word, progress⟩]
        (Compile.askResolver environment resolver word.text (.lexeme word) progress).2

/-- What a compilation may do to its state. -/
inductive Moves (source : List Lexeme) : Progress → List Question → Progress → Prop
  | refl (progress : Progress) : Moves source progress [] progress
  | tail {before middle after : Progress} {asked more : List Question} (moves : Moves source before asked middle)
      (move : Move environment source middle more after) : Moves source before (asked ++ more) after

namespace Moves

variable {environment} {source : List Lexeme} {before middle after : Progress} {asked more : List Question}

theorem single (move : Move environment source before asked after) : Moves environment source before asked after :=
  .tail (.refl before) move

theorem trans (first : Moves environment source before asked middle)
    (second : Moves environment source middle more after) :
    Moves environment source before (asked ++ more) after := by
  induction second with
  | refl =>
    rw [List.append_nil]
    exact first
  | tail _ move induction =>
    rw [← List.append_assoc]
    exact induction.tail move

/-- What is asked for is a name that is not called. -/
theorem sought (moves : Moves environment source before asked after) :
    ∀ question ∈ asked, question.word.IsSought source := by
  induction moves with
  | refl => exact List.forall_mem_nil _
  | tail _ move induction =>
    refine List.forall_mem_append.mpr ⟨induction, ?_⟩
    cases move with
    | ask _ sought => exact List.forall_mem_singleton.mpr sought
    | _ => exact List.forall_mem_nil _

end Moves

end Progress

/-! ## Inquiries -/

/-- The environment with another resolver. -/
def Environment.asking (environment : Environment) (resolver : Resolver) : Environment :=
  { environment with resolver := some resolver }

namespace Inquiry

/-- Whether an outcome with notes is the one without, is moved to by steps that ask the questions noted, and would be
the same with another resolver that gives the same answers to them. -/
structure Noted {result : Type} (environment : Environment) (source : List Lexeme) (resolver other : Resolver)
    (before : Progress) (noted again : List Question × (result × Progress)) (outcome : result × Progress) : Prop where
  forget : noted.2 = outcome
  moves : before.Moves environment source noted.1 noted.2.2
  depends (alike : ∀ question ∈ noted.1,
    question.answer environment.table other = question.answer environment.table resolver) : again = noted

def Notes {α : Type} (environment : Environment) (source : List Lexeme) (resolver other : Resolver)
    (inquiry again : Inquiry α) (computation : Compile α) : Prop :=
  ∀ before, Noted environment source resolver other before (inquiry before) (again before) (computation before)

variable {environment : Environment} {source : List Lexeme} {resolver other : Resolver} {α β : Type}

namespace Notes

theorem pure (value : α) :
    Notes environment source resolver other (Pure.pure value) (Pure.pure value) (Pure.pure value) :=
  fun before => ⟨rfl, .refl before, fun _ => rfl⟩

theorem bind {first again : Inquiry α} {computation : Compile α} {next nextAgain : α → Inquiry β}
    {continuation : α → Compile β} (notes : Notes environment source resolver other first again computation)
    (continued : ∀ value,
      Notes environment source resolver other (next value) (nextAgain value) (continuation value)) :
    Notes environment source resolver other (first >>= next) (again >>= nextAgain) (computation >>= continuation) := by
  intro before
  obtain ⟨forget, moves, depends⟩ := notes before
  rcases done : first before with ⟨asked, halt | value, middle⟩
  · rw [done] at forget moves depends
    rw [bind_of_error done, Compile.bind_of_error forget.symm]
    exact ⟨rfl, moves, fun alike => bind_of_error (depends alike)⟩
  · rw [done] at forget moves depends
    rw [bind_of_ok done, Compile.bind_of_ok forget.symm]
    obtain ⟨laterForget, later, laterDepends⟩ := continued value middle
    refine ⟨laterForget, moves.trans later, fun alike => ?_⟩
    rw [List.forall_mem_append] at alike
    rw [bind_of_ok (depends alike.1), laterDepends alike.2]

/-- A computation that asks nothing. -/
theorem lift {computation : Compile α}
    (moves : ∀ before : Progress, before.Moves environment source [] (computation before).2) :
    Notes environment source resolver other (liftM computation) (liftM computation) computation :=
  fun before => ⟨rfl, moves before, fun _ => rfl⟩

theorem halt (problem : Problem) (place : Place) (rest : List Lexeme) :
    Notes environment source resolver other (liftM (Compile.halt problem place rest : Compile α))
      (liftM (Compile.halt problem place rest : Compile α)) (Compile.halt problem place rest) :=
  lift fun before => .refl before

theorem plain {computation : Compile α} (plain : computation.Plain) :
    Notes environment source resolver other (liftM computation) (liftM computation) computation := by
  refine lift fun before => ?_
  obtain ⟨value, after, done, quiet⟩ := plain before
  rw [done]
  exact .single (.quiet quiet)

theorem declares {computation : Compile α} {allowed : Bool} {name : String}
    (declares : computation.Declares allowed name) :
    Notes environment source resolver other (liftM computation) (liftM computation) computation := by
  refine lift fun before => ?_
  obtain ⟨value, middle, after, done, quiet, ⟨-, binding, -, rfl⟩ | ⟨rfl, -⟩⟩ := declares before
  · rw [done]
    exact .tail (.single (.quiet quiet)) (.declare middle name binding)
  · rw [done]
    exact .single (.quiet quiet)

end Notes

/-! ## Names -/

section Names

variable {before : Progress} {word : Lexeme}

variable (environment)

theorem resolve_of_known {binding : Binding} (known : before.binding? environment word.text = some binding) :
    resolve environment word before = ([], .ok (some binding), before) ∧
      Compile.resolve environment word before = (.ok (some binding), before) :=
  ⟨lift_bind_of_ok (Compile.known?_of_eq known), Compile.resolve_of_known known⟩

theorem resolve_of_reported (unknown : before.binding? environment word.text = none)
    (old : word.text ∈ before.reported) :
    resolve environment word before = ([], .ok none, before) ∧
      Compile.resolve environment word before = (.ok none, before) := by
  have contained := List.contains_iff_mem.mpr old
  constructor
  · refine (lift_bind_of_ok (Compile.known?_of_eq unknown)).trans ((view_bind _ _ before).trans ?_)
    rw [if_pos contained]
    rfl
  · refine (Compile.bind_of_ok (Compile.known?_of_eq unknown)).trans ((Compile.view_bind _ _ before).trans ?_)
    rw [if_pos contained]
    rfl

/-- A name that is neither known nor reported is left to the resolver. -/
theorem resolve_of_new (installed : environment.resolver = some resolver)
    (unknown : before.binding? environment word.text = none) (new : word.text ∉ before.reported) :
    resolve environment word before = ask environment resolver word before ∧
      Compile.resolve environment word before =
        Compile.askResolver environment resolver word.text (.lexeme word) before := by
  have missing := mt List.contains_iff_mem.mp new
  constructor
  · refine (lift_bind_of_ok (Compile.known?_of_eq unknown)).trans ((view_bind _ _ before).trans ?_)
    rw [if_neg missing, installed]
  · refine (Compile.bind_of_ok (Compile.known?_of_eq unknown)).trans ((Compile.view_bind _ _ before).trans ?_)
    rw [if_neg missing, installed]

variable {environment}

theorem ask_asking (alike : (Question.mk word before).answer environment.table other =
    (Question.mk word before).answer environment.table resolver) :
    ask (environment.asking other) other word before = ask environment resolver word before := by
  have same : other word.text environment.table before.world = resolver word.text environment.table before.world :=
    alike
  unfold ask Compile.askResolver Environment.asking
  dsimp only
  rw [same]
  rfl

theorem resolve_notes (installed : environment.resolver = some resolver) (sought : word.IsSought source) :
    Notes environment source resolver other (resolve environment word) (resolve (environment.asking other) word)
      (Compile.resolve environment word) := by
  intro before
  cases known : before.binding? environment word.text with
  | some binding =>
    obtain ⟨noted, resolved⟩ := resolve_of_known environment known
    obtain ⟨again, -⟩ := resolve_of_known (environment.asking other) known
    rw [noted, resolved, again]
    exact ⟨rfl, .refl before, fun _ => rfl⟩
  | none =>
    by_cases old : word.text ∈ before.reported
    · obtain ⟨noted, resolved⟩ := resolve_of_reported environment known old
      obtain ⟨again, -⟩ := resolve_of_reported (environment.asking other) known old
      rw [noted, resolved, again]
      exact ⟨rfl, .refl before, fun _ => rfl⟩
    · obtain ⟨noted, resolved⟩ := resolve_of_new environment installed known old
      obtain ⟨again, -⟩ := resolve_of_new (environment.asking other) rfl known old
      rw [noted, resolved, again]
      exact ⟨rfl, .single (.ask installed sought known old), fun alike => ask_asking (alike _ List.mem_cons_self)⟩

theorem reference_notes (word : Lexeme) (rest : List Lexeme) (binding : Option Binding) :
    Notes environment source resolver other (liftM (Compile.reference environment.settings word rest binding))
      (liftM (Compile.reference environment.settings word rest binding))
      (Compile.reference environment.settings word rest binding) := by
  rcases binding with _ | (_ | _ | _ | function)
  case some.function => exact .halt _ _ _
  all_goals exact .plain (Compile.reference_plain _ word rest nofun)

/-- A call asks nothing. -/
theorem call_notes (word : Lexeme) (arguments : List (Place × AnyNode)) (rest : List Lexeme) :
    Notes environment source resolver other (liftM (Compile.call environment word arguments rest))
      (liftM (Compile.call environment word arguments rest)) (Compile.call environment word arguments rest) := by
  refine .lift fun before => ?_
  rcases Compile.call_cases environment word arguments rest before with ⟨halt, halted⟩ |
    ⟨-, computation, isPlain, same⟩ | ⟨-, -, new, same⟩
  · rw [halted]
    exact .refl before
  · obtain ⟨value, after, done, quiet⟩ := isPlain before
    rw [same, done]
    exact .single (.quiet quiet)
  · rw [same]
    exact .single (.tell new rfl)

end Names

/-! ## Trees -/

section Trees

def NotesTree (environment : Environment) (source : List Lexeme) (resolver other : Resolver) (tree : Tree) : Prop :=
  Notes environment source resolver other (tree.inquire environment) (tree.inquire (environment.asking other))
    (tree.compile environment)

theorem placed_notes {trees : List (Place × Tree)}
    (notes : ∀ one ∈ trees, NotesTree environment source resolver other one.2) :
    Notes environment source resolver other (inquirePlaced environment trees)
      (inquirePlaced (environment.asking other) trees) (compilePlaced environment trees) := by
  induction trees with
  | nil => exact .pure _
  | cons first rest induction =>
    rw [List.forall_mem_cons] at notes
    exact Notes.bind notes.1 fun node => (induction notes.2).bind fun rest => .pure _

theorem elements_notes {trees : List (Place × Tree)}
    (notes : ∀ one ∈ trees, NotesTree environment source resolver other one.2) :
    Notes environment source resolver other (inquireElements environment trees)
      (inquireElements (environment.asking other) trees) (compileElements environment trees) := by
  induction trees with
  | nil => exact .pure _
  | cons first rest induction =>
    rw [List.forall_mem_cons] at notes
    refine Notes.bind notes.1 fun node => ?_
    refine (Notes.plain (Compile.requireScalar_plain _ _ node)).bind fun element => ?_
    exact (induction notes.2).bind fun rest => .pure _

theorem arithmetic_notes {run : List ((BinaryOperator × Lexeme) × Tree)}
    (notes : ∀ step ∈ run, NotesTree environment source resolver other step.2) (left : AnyNode) :
    Notes environment source resolver other (inquireArithmetic environment left run)
      (inquireArithmetic (environment.asking other) left run) (compileArithmetic environment left run) := by
  induction run generalizing left with
  | nil => exact .pure _
  | cons step rest induction =>
    rw [List.forall_mem_cons] at notes
    refine Notes.bind notes.1 fun right => ?_
    exact (Notes.plain (Compile.arithmetic_plain _ _ _ left right)).bind fun node => induction notes.2 node

theorem logical_notes (start : Place) {run : List ((BinaryOperator × Place) × Tree)}
    (notes : ∀ step ∈ run, NotesTree environment source resolver other step.2) (left : AnyNode) :
    Notes environment source resolver other (inquireLogical environment start left run)
      (inquireLogical (environment.asking other) start left run) (compileLogical environment start left run) := by
  induction run generalizing left with
  | nil => exact .pure _
  | cons step rest induction =>
    rw [List.forall_mem_cons] at notes
    refine Notes.bind notes.1 fun right => ?_
    exact (Notes.plain (Compile.logical_plain _ _ _ left _ right)).bind fun node => induction notes.2 node

theorem statements_notes {trees : List Tree}
    (notes : ∀ one ∈ trees, NotesTree environment source resolver other one) :
    Notes environment source resolver other (inquireStatements environment trees)
      (inquireStatements (environment.asking other) trees) (compileStatements environment trees) := by
  induction trees with
  | nil => exact .pure _
  | cons first rest induction =>
    rw [List.forall_mem_cons] at notes
    exact Notes.bind notes.1 fun node => (induction notes.2).bind fun rest => .pure _

theorem cases_notes {cases : List ((Place × Tree) × (Place × Tree))}
    (conditions : ∀ one ∈ cases, NotesTree environment source resolver other one.1.2)
    (results : ∀ one ∈ cases, NotesTree environment source resolver other one.2.2) :
    Notes environment source resolver other (inquireCases environment cases)
      (inquireCases (environment.asking other) cases) (compileCases environment cases) := by
  induction cases with
  | nil => exact .pure _
  | cons one rest induction =>
    rw [List.forall_mem_cons] at conditions results
    refine Notes.bind conditions.1 fun condition => ?_
    refine (Notes.plain (Compile.requireScalar_plain _ _ condition)).bind fun condition => ?_
    refine Notes.bind results.1 fun result => ?_
    refine (Notes.plain (Compile.requireScalar_plain _ _ result)).bind fun result => ?_
    exact (induction conditions.2 results.2).bind fun rest => .pure _

/-- Compiling a tree of a source asks for names that are not called there. -/
theorem tree_notes (installed : environment.resolver = some resolver) {tree : Tree} (proper : tree.Proper source) :
    NotesTree environment source resolver other tree := by
  induction proper with
  | number | text => exact .pure _
  | name word rest sought =>
    exact (resolve_notes installed sought).bind fun binding => reference_notes word rest binding
  | call word rest _ arguments =>
    exact (placed_notes arguments).bind fun nodes => call_notes word nodes rest
  | negation sign _ operand => exact Notes.bind operand fun node => .plain (Compile.negation_plain _ sign node)
  | affirmation sign _ operand => exact Notes.bind operand fun node => .plain (Compile.affirmation_plain sign node)
  | denial start _ operand => exact Notes.bind operand fun node => .plain (Compile.denial_plain _ start node)
  | arithmetic _ _ _ first operands => exact Notes.bind first fun node => arithmetic_notes operands node
  | logical start _ _ first operands => exact Notes.bind first fun node => logical_notes start operands node
  | relation isRelation _ _ left right =>
    refine Notes.bind left fun left => ?_
    exact Notes.bind right fun right => .plain (Compile.relation_plain _ _ left right)
  | conditional start branch _ _ _ condition consequent alternative =>
    refine Notes.bind condition fun node => ?_
    refine (Notes.plain (Compile.requireScalar_plain _ start node)).bind fun condition => ?_
    refine Notes.bind consequent fun consequent => ?_
    exact Notes.bind alternative fun alternative =>
      .plain (Compile.conditional_plain _ condition branch consequent alternative)
  | conditionalOnly start branch _ _ condition consequent =>
    refine Notes.bind condition fun node => ?_
    refine (Notes.plain (Compile.requireScalar_plain _ start node)).bind fun condition => ?_
    exact Notes.bind consequent fun consequent => .plain (Compile.conditionalOnly_plain _ condition branch consequent)
  | size bracket _ base => exact Notes.bind base fun base => .plain (Compile.size_plain _ bracket base)
  | element bracket start _ _ base index =>
    refine Notes.bind base fun base => ?_
    exact Notes.bind index fun index => .plain (Compile.element_plain bracket base start index)
  | range bracket firstStart lastStart _ _ _ base first last =>
    refine Notes.bind base fun base => ?_
    refine Notes.bind first fun first => ?_
    exact Notes.bind last fun last => .plain (Compile.range_plain _ bracket base firstStart first lastStart last)
  | block _ _ statements result =>
    refine (statements_notes statements).bind fun _ => ?_
    exact Notes.bind result fun _ => .pure _
  | loop start _ _ _ _ initializer condition step body =>
    refine Notes.bind initializer fun _ => ?_
    refine Notes.bind condition fun node => ?_
    refine (Notes.plain (Compile.requireScalar_plain _ start node)).bind fun _ => ?_
    refine Notes.bind step fun _ => ?_
    exact Notes.bind body fun _ => .pure _
  | choice start _ _ _ conditions results otherwise =>
    refine (cases_notes conditions results).bind fun _ => ?_
    refine Notes.bind otherwise fun node => ?_
    exact (Notes.plain (Compile.requireScalar_plain _ start node)).bind fun _ => .pure _
  | assignment word sign start sought _ value =>
    refine (resolve_notes installed sought).bind fun target => ?_
    exact Notes.bind value fun value => .plain (Compile.assignment_plain word sign target start value)
  | elementAssignment word start sign sought _ _ index value =>
    refine (resolve_notes installed sought).bind fun target => ?_
    refine Notes.bind index fun index => ?_
    exact Notes.bind value fun value => .plain (Compile.elementAssignment_plain word sign target start index value)
  | declaration word start _ value =>
    refine (Notes.plain (Compile.mayDeclare_plain word)).bind fun allowed => ?_
    exact Notes.bind value fun value => .declares (Compile.declaration_declares allowed word start value)
  | listedVector word size bracket _ elements =>
    refine (Notes.plain (Compile.mayDeclare_plain word)).bind fun allowed => ?_
    exact (elements_notes elements).bind fun elements =>
      .declares (Compile.listedVector_declares allowed word size bracket elements)
  | filledVector word size start _ value =>
    refine (Notes.plain (Compile.mayDeclare_plain word)).bind fun allowed => ?_
    exact Notes.bind value fun value => .declares (Compile.filledVector_declares allowed word size start value)
  | stop _ rest => exact .halt _ _ rest
  | andThen _ _ done stopped => exact Notes.bind done fun _ => stopped

end Trees

/-! ## Programs -/

section Programs

variable (installed : environment.resolver = some resolver)

include installed

theorem statement_notes (bound : Nat) {lexemes : List Lexeme} (ends : lexemes <:+ source) :
    Notes environment source resolver other (statement environment bound lexemes)
      (statement (environment.asking other) bound lexemes) (Compile.statement environment bound lexemes) := by
  have outcome := Grammar.endedStatement_outcome environment.settings.maxDepth bound ends
  cases read : Grammar.endedStatement (Grammar.outermost environment.settings.maxDepth bound) lexemes with
  | ok pair =>
    rw [read] at outcome
    have again := @statement_of_ok (environment.asking other) bound lexemes pair.2 pair.1 read
    rw [statement_of_ok read, again, Compile.statement_of_ok read]
    exact Notes.bind (tree_notes installed outcome.1) fun node => .pure _
  | error stopped =>
    rw [read] at outcome
    have again := @statement_of_error (environment.asking other) bound lexemes stopped read
    rw [statement_of_error read, again, Compile.statement_of_error read]
    exact Notes.bind (tree_notes installed outcome) fun node => .pure _

theorem statements_noted {world : World} (bound count : Nat) {lexemes : List Lexeme} (ends : lexemes <:+ source)
    {before : Progress} (reached : (Progress.start world).Reaches environment before) :
    Noted environment source resolver other before (statements environment bound count lexemes before)
      (statements (environment.asking other) bound count lexemes before)
      (Compile.statements environment bound count lexemes before) := by
  induction count generalizing lexemes before with
  | zero => exact ⟨rfl, .refl before, fun _ => rfl⟩
  | succ count induction =>
    cases lexemes with
    | nil => exact ⟨rfl, .refl before, fun _ => rfl⟩
    | cons first rest =>
      by_cases semicolon : first.is .semicolon = true
      · rw [statements, statements, Compile.statements, if_pos semicolon, if_pos semicolon, if_pos semicolon]
        exact induction (Reader.Yields.behind ends) reached
      · have noted : Noted environment source resolver other before _ _ _ :=
          statement_notes installed bound ends before
        obtain ⟨forget, moves, depends⟩ := noted
        have reaches := Compile.statement_reaches reached bound (first :: rest)
        rcases done : statement environment bound (first :: rest) before with ⟨asked, halt | ⟨node, behind⟩, middle⟩
        · rw [done] at forget moves depends
          rw [← forget] at reaches
          have recorded := reaches.tail (.report middle halt.report)
          have left := (Grammar.recover_suffix 0 ((first :: rest).length - halt.rest.length) (first :: rest)).trans ends
          obtain ⟨laterForget, later, laterDepends⟩ := induction left (reached.trans recorded)
          have passed := moves.tail (.halt middle (Compile.phase_of_halted reached forget.symm))
          rw [List.append_nil] at passed
          rw [statements_of_halted semicolon done rfl, Compile.statements, if_neg semicolon, ← forget]
          refine ⟨laterForget, passed.trans later, fun alike => ?_⟩
          rw [List.forall_mem_append] at alike
          exact statements_of_halted semicolon (depends alike.1) (laterDepends alike.2)
        · rw [done] at forget moves depends
          rw [← forget] at reaches
          obtain ⟨tree, read, -⟩ := Compile.tree_of_statement forget.symm
          have outcome := Grammar.endedStatement_outcome environment.settings.maxDepth bound ends
          rw [read] at outcome
          obtain ⟨laterForget, later, laterDepends⟩ := induction outcome.2 (reached.trans reaches)
          rw [statements_of_done semicolon done, Compile.statements, if_neg semicolon, ← forget]
          refine ⟨?_, moves.trans later, fun alike => ?_⟩
          · dsimp only
            rw [← laterForget]
          · rw [List.forall_mem_append] at alike
            rw [statements_of_done semicolon (depends alike.1), laterDepends alike.2]

theorem program_noted (world : World) (lexemes : List Lexeme) :
    Noted environment lexemes resolver other (.start world) (program environment lexemes (.start world))
      (program (environment.asking other) lexemes (.start world))
      (Compile.program environment lexemes (.start world)) := by
  have start : (Progress.start world).Reaches environment (.start world) := .refl
  have noted : Noted environment lexemes resolver other (.start world) _ _ _ :=
    statements_noted installed lexemes.length lexemes.length (List.suffix_refl lexemes) start
  obtain ⟨forget, moves, depends⟩ := noted
  unfold program Compile.program
  rcases done : statements environment lexemes.length lexemes.length lexemes (.start world) with
    ⟨asked, nodes, progress⟩
  rw [done] at forget moves depends
  rw [← forget]
  dsimp only at moves ⊢
  cases last : nodes.getLast? with
  | some result =>
    refine ⟨rfl, moves, fun alike => ?_⟩
    rw [depends alike]
    dsimp only
    rw [last]
  | none =>
    dsimp only
    split
    · next empty =>
      have passed := moves.tail (.halt progress (rfl : (Report.mk .emptyFormula .ending).problem.phase = .grammatical))
      rw [List.append_nil, List.isEmpty_iff.mp empty] at passed
      refine ⟨rfl, passed, fun alike => ?_⟩
      rw [depends alike]
      dsimp only
      rw [last]
      exact if_pos empty
    · next nonempty =>
      refine ⟨rfl, moves, fun alike => ?_⟩
      rw [depends alike]
      dsimp only
      rw [last]
      exact if_neg nonempty

end Programs

end Inquiry

/-! ## What is known of the questions -/

theorem World.isSome_lookup_of_createScalar {world after : World} {handle : TableHandle} {name other : String}
    {value : Float} {constant : Bool} (created : world.createScalar handle name value constant = .ok after)
    (bound : other = name ∨ ((world.table handle).lookup other).isSome = true) :
    ((after.table handle).lookup other).isSome = true := by
  rw [(World.createScalar_eq_ok created).2]
  by_cases same : other = name
  · rw [same, SymbolTable.lookup_insert_same (World.lookup_of_createScalar created)]
    rfl
  · rw [SymbolTable.lookup_insert_other same]
    exact bound.resolve_left same

namespace Progress

variable {environment : Environment} {source : List Lexeme} {resolver : Resolver}

/-- What asking the resolver for the name that a lexeme spells may do: nothing bound is lost, and the name is bound or a
problem with it is recorded. -/
structure Asked (environment : Environment) (resolver : Resolver) (word : Lexeme) (before after : Progress) : Prop where
  kept {name : String} (bound : before.IsBound environment name) : after.IsBound environment name
  accepted : after.accepted =
    if (resolver word.text environment.table before.world).1 = .resolved then word.text :: before.accepted
    else before.accepted
  settled : after.IsBound environment word.text ∧ after.reports = before.reports ∧ after.reported = before.reported ∨
    ∃ problem : Problem, problem.phase = .symbolic ∧ after.reports = ⟨problem, .lexeme word⟩ :: before.reports ∧
      after.reported = word.text :: before.reported

theorem askResolver_asked (keeps : resolver.Keeps environment.table) (word : Lexeme) (before : Progress) :
    before.Asked environment resolver word
      (Compile.askResolver environment resolver word.text (.lexeme word) before).2 := by
  have kept (name : String) (bound : before.IsBound environment name) := keeps word.text before.world name bound
  unfold Compile.askResolver
  dsimp only
  cases resolution : (resolver word.text environment.table before.world).1 with
  | failed reason => exact ⟨kept _, by rw [resolution, if_neg nofun]; rfl, .inr ⟨_, rfl, rfl, rfl⟩⟩
  | resolved =>
    dsimp only
    unfold Compile.bindAccepted
    dsimp only
    split
    · next binding bound =>
      exact ⟨kept _, by rw [resolution, if_pos rfl], .inl ⟨Option.isSome_of_eq_some bound, rfl, rfl⟩⟩
    · split
      · next world created =>
        refine ⟨fun {name} bound => ?_, by rw [resolution, if_pos rfl], .inl ⟨?_, rfl, rfl⟩⟩
        · exact World.isSome_lookup_of_createScalar created (.inr (kept name bound))
        · exact World.isSome_lookup_of_createScalar created (.inl rfl)
      · exact ⟨kept _, by rw [resolution, if_pos rfl]; rfl, .inr ⟨_, rfl, rfl, rfl⟩⟩

/-- Whether the reports of problems with symbols are those of the names that count as reported, each once. -/
def IsTold (progress : Progress) : Prop :=
  (progress.reports.filter Report.isSymbolic).map Report.text = progress.reported ∧ progress.reported.Nodup

/-- What holds of the questions asked so far, in the state that they have led to. -/
structure Recalls (environment : Environment) (source : List Lexeme) (resolver : Resolver) (asked : List Question)
    (progress : Progress) : Prop where
  once : (asked.map Question.name).Nodup
  unknown : ∀ question ∈ asked, question.progress.binding? environment question.name = none
  uncalled : ∀ question ∈ asked, question.word.IsUncalled source
  settled : ∀ question ∈ asked, progress.IsBound environment question.name ∨ question.name ∈ progress.reported
  accepted : progress.accepted.reverse = (asked.filter (·.isAccepted environment.table resolver)).map Question.name
  told : progress.IsTold

theorem recalls_start (environment : Environment) (source : List Lexeme) (resolver : Resolver) (world : World) :
    (start world).Recalls environment source resolver [] where
  once := List.nodup_nil
  unknown := List.forall_mem_nil _
  uncalled := List.forall_mem_nil _
  settled := List.forall_mem_nil _
  accepted := rfl
  told := ⟨rfl, List.nodup_nil⟩

variable {before after : Progress} {asked more : List Question}

theorem Recalls.on (recalls : before.Recalls environment source resolver asked)
    (kept : ∀ name, before.IsBound environment name → after.IsBound environment name)
    (accepted : after.accepted = before.accepted) (reported : ∀ name ∈ before.reported, name ∈ after.reported)
    (told : after.IsTold) : after.Recalls environment source resolver (asked ++ []) := by
  rw [List.append_nil]
  refine ⟨recalls.once, recalls.unknown, recalls.uncalled, fun question member => ?_, ?_, told⟩
  · exact (recalls.settled question member).imp (kept _) (reported _)
  · rw [accepted, recalls.accepted]

theorem binding?_eq_none {progress : Progress} {name : String} : progress.binding? environment name = none ↔
    progress.locals.lookup name = none ∧ (progress.world.table environment.table).lookup name = none := by
  unfold binding?
  cases progress.locals.lookup name <;> simp

theorem IsBound.ne_none {progress : Progress} {name : String} (bound : progress.IsBound environment name) :
    progress.binding? environment name ≠ none := by
  unfold binding?
  split
  · exact Option.some_ne_none _
  · exact Option.isSome_iff_ne_none.mp bound

/-- A name that is neither known nor reported has not been asked for. -/
theorem Recalls.not_mem (recalls : before.Recalls environment source resolver asked) {name : String}
    (unknown : before.binding? environment name = none) (new : name ∉ before.reported) :
    name ∉ asked.map Question.name := by
  intro member
  obtain ⟨question, listed, rfl⟩ := List.mem_map.mp member
  rcases recalls.settled question listed with bound | reported
  · exact bound.ne_none unknown
  · exact new reported

theorem IsTold.tell (told : before.IsTold) {word : Lexeme} (new : word.text ∉ before.reported) {problem : Problem}
    (symbolic : problem.phase = .symbolic) (reports : after.reports = ⟨problem, .lexeme word⟩ :: before.reports)
    (reported : after.reported = word.text :: before.reported) : after.IsTold := by
  refine ⟨?_, ?_⟩
  · rw [reports, reported, List.filter_cons_of_pos (by simp [Report.isSymbolic, symbolic]), List.map_cons, told.1]
    rfl
  · rw [reported]
    exact List.nodup_cons.mpr ⟨new, told.2⟩

theorem Recalls.ask (recalls : before.Recalls environment source resolver asked)
    (keeps : resolver.Keeps environment.table) {word : Lexeme} (uncalled : word.IsUncalled source)
    (unknown : before.binding? environment word.text = none) (new : word.text ∉ before.reported) :
    (Compile.askResolver environment resolver word.text (.lexeme word) before).2.Recalls environment source resolver
      (asked ++ [⟨word, before⟩]) := by
  have outcome := askResolver_asked keeps word before
  generalize (Compile.askResolver environment resolver word.text (.lexeme word) before).2 = after at outcome
  have fresh := recalls.not_mem unknown new
  have settled : (∀ name ∈ before.reported, name ∈ after.reported) ∧
      (after.IsBound environment word.text ∨ word.text ∈ after.reported) ∧ after.IsTold := by
    rcases outcome.settled with ⟨bound, reports, reported⟩ | ⟨problem, symbolic, reports, reported⟩
    · refine ⟨fun name => ?_, .inl bound, ?_⟩
      · rw [reported]
        exact id
      · rw [IsTold, reports, reported]
        exact recalls.told
    · refine ⟨fun name member => ?_, .inr ?_, recalls.told.tell new symbolic reports reported⟩
      · rw [reported]
        exact List.mem_cons_of_mem _ member
      · rw [reported]
        exact List.mem_cons_self
  obtain ⟨keepsReported, last, told⟩ := settled
  refine ⟨?_, ?_, ?_, ?_, ?_, told⟩
  · rw [List.map_append, List.nodup_append_comm]
    exact List.nodup_cons.mpr ⟨fresh, recalls.once⟩
  · exact List.forall_mem_append.mpr ⟨recalls.unknown, List.forall_mem_singleton.mpr unknown⟩
  · exact List.forall_mem_append.mpr ⟨recalls.uncalled, List.forall_mem_singleton.mpr uncalled⟩
  · refine List.forall_mem_append.mpr ⟨fun question member => ?_, List.forall_mem_singleton.mpr last⟩
    exact (recalls.settled question member).imp outcome.kept (keepsReported _)
  · rw [outcome.accepted, List.filter_append, List.map_append, ← recalls.accepted]
    split
    · next resolved =>
      have accepts : (Question.mk word before).isAccepted environment.table resolver = true := beq_iff_eq.mpr resolved
      rw [List.reverse_cons, List.filter_cons_of_pos accepts]
      rfl
    · next refused =>
      have refuses : ¬(Question.mk word before).isAccepted environment.table resolver = true :=
        mt beq_iff_eq.mp refused
      rw [List.filter_cons_of_neg refuses]
      exact (List.append_nil _).symm

theorem Recalls.move (recalls : before.Recalls environment source resolver asked)
    (installed : environment.resolver = some resolver) (keeps : resolver.Keeps environment.table)
    (move : before.Move environment source more after) :
    after.Recalls environment source resolver (asked ++ more) := by
  cases move with
  | quiet quiet =>
    obtain ⟨found, sameReports, kinds⟩ := quiet.reports
    have none : found.filter Report.isSymbolic = [] := by
      refine List.filter_eq_nil_iff.mpr fun report member => ?_
      simp [Report.isSymbolic, kinds report member]
    refine recalls.on (fun name bound => ?_) quiet.accepted (fun name reported => ?_) ⟨?_, ?_⟩
    · unfold IsBound World.table at bound ⊢
      rwa [quiet.tables]
    · rwa [quiet.reported]
    · rw [sameReports, List.filter_append, none, List.nil_append, quiet.reported]
      exact recalls.told.1
    · rw [quiet.reported]
      exact recalls.told.2
  | declare => exact recalls.on (fun _ => id) rfl (fun _ => id) recalls.told
  | halt _ grammatical =>
    refine recalls.on (fun _ => id) rfl (fun _ => id) ⟨?_, recalls.told.2⟩
    rw [List.filter_cons_of_neg (by simp [Report.isSymbolic, grammatical])]
    exact recalls.told.1
  | tell new symbolic =>
    exact recalls.on (fun _ => id) rfl (fun _ => List.mem_cons_of_mem _) (recalls.told.tell new symbolic rfl rfl)
  | ask same sought unknown new =>
    obtain rfl := Option.some.inj (installed.symm.trans same)
    exact recalls.ask keeps sought.uncalled unknown new

theorem Recalls.moves (recalls : before.Recalls environment source resolver asked)
    (installed : environment.resolver = some resolver) (keeps : resolver.Keeps environment.table)
    (moves : before.Moves environment source more after) :
    after.Recalls environment source resolver (asked ++ more) := by
  induction moves with
  | refl =>
    rw [List.append_nil]
    exact recalls
  | tail _ move induction =>
    rw [← List.append_assoc]
    exact induction.move installed keeps move

end Progress

/-! ## Sources -/

namespace Compilation

/-- The texts that the diagnostics of problems with symbols point at. -/
def symbols (compilation : Compilation) (source : String) : List String :=
  ((compilation.diagnostics source).filter (·.phase == .symbolic)).map (·.tokenValue)

theorem symbols_eq (compilation : Compilation) (source : String) :
    compilation.symbols source = (compilation.reports.filter Report.isSymbolic).map Report.text := by
  unfold symbols diagnostics
  rw [List.filter_map, List.map_map]
  have phase : ((·.phase == Phase.symbolic) ∘ Diagnostic.ofReport source) = Report.isSymbolic := by
    funext report
    rcases report with ⟨problem, lexeme | malformed | _⟩ <;> rfl
  rw [phase]
  exact List.map_congr_left fun report _ => report.tokenValue_ofReport source

/-- Whether a compilation asks for each name at most once, and only where it is neither declared nor bound and is not
called, accepts what is accepted among the answers, and reports each name at most once. -/
structure AsksOnce (compilation : Compilation) (environment : Environment) (resolver : Resolver) (source : String)
    (questions : List Question) : Prop where
  once : (questions.map Question.name).Nodup
  undeclared : ∀ question ∈ questions, question.progress.locals.lookup question.name = none
  unbound : ∀ question ∈ questions, (question.progress.world.table environment.table).lookup question.name = none
  uncalled : ∀ question ∈ questions, ∃ lexemes, tokenize source = .ok lexemes ∧ question.word.IsUncalled lexemes
  accepted : compilation.accepted =
    (questions.filter (·.isAccepted environment.table resolver)).map Question.name
  acceptedOnce : compilation.accepted.Nodup
  reportedOnce : (compilation.symbols source).Nodup

variable {environment : Environment} {resolver : Resolver}

theorem inquire_of_error {source : String} {malformed : List Malformed} (tokenized : tokenize source = .error malformed)
    (world : World) : inquire environment source world = ([], ofSource environment source world) := by
  unfold inquire ofSource
  rw [tokenized]

theorem inquire_of_ok {source : String} {lexemes : List Lexeme} (tokenized : tokenize source = .ok lexemes)
    (world : World) :
    let done := Inquiry.program environment lexemes (.start world)
    inquire environment source world =
      (done.1,
        { root := if done.2.2.reports.isEmpty then done.2.1 else none
          reports := done.2.2.reports.reverse
          accepted := done.2.2.accepted.reverse
          world := done.2.2.world }) := by
  unfold inquire
  rw [tokenized]

section

variable (installed : environment.resolver = some resolver) (source : String) (world : World)

include installed

/-- Without the notes, it is the compilation. -/
theorem inquire_forget : (inquire environment source world).2 = ofSource environment source world := by
  cases tokenized : tokenize source with
  | error malformed => rw [inquire_of_error tokenized]
  | ok lexemes =>
    have noted : Inquiry.Noted environment lexemes resolver resolver (.start world) _ _ _ :=
      Inquiry.program_noted installed world lexemes
    rw [inquire_of_ok tokenized]
    unfold ofSource
    rw [tokenized]
    dsimp only
    rw [← noted.forget]

theorem inquire_asking {other : Resolver} (alike : ∀ question ∈ (inquire environment source world).1,
    question.answer environment.table other = question.answer environment.table resolver) :
    inquire (environment.asking other) source world = inquire environment source world := by
  cases tokenized : tokenize source with
  | error malformed =>
    unfold inquire
    rw [tokenized]
  | ok lexemes =>
    rw [inquire_of_ok tokenized] at alike
    rw [inquire_of_ok tokenized, inquire_of_ok tokenized]
    dsimp only at alike ⊢
    rw [(Inquiry.program_noted installed world lexemes).depends alike]

/-- What is asked for is a name that the source has without calling it. -/
theorem sought_of_inquire {question : Question} (asked : question ∈ (inquire environment source world).1) :
    ∃ lexemes, tokenize source = .ok lexemes ∧ question.word.IsSought lexemes := by
  cases tokenized : tokenize source with
  | error malformed =>
    rw [inquire_of_error tokenized] at asked
    cases asked
  | ok lexemes =>
    have noted : Inquiry.Noted environment lexemes resolver resolver (.start world) _ _ _ :=
      Inquiry.program_noted installed world lexemes
    rw [inquire_of_ok tokenized] at asked
    exact ⟨lexemes, rfl, noted.moves.sought question asked⟩

theorem asksOnce_inquire (keeps : resolver.Keeps environment.table) :
    (ofSource environment source world).AsksOnce environment resolver source
      (inquire environment source world).1 := by
  rw [← inquire_forget installed]
  cases tokenized : tokenize source with
  | error malformed =>
    rw [inquire_of_error tokenized]
    have none : (ofSource environment source world).symbols source = [] := by
      rw [symbols_eq, List.map_eq_nil_iff, List.filter_eq_nil_iff, ofSource, tokenized]
      intro report member
      obtain ⟨one, -, rfl⟩ := List.mem_map.mp member
      exact Bool.false_ne_true
    have nothing : (ofSource environment source world).accepted = [] := by
      rw [ofSource, tokenized]
    refine ⟨List.nodup_nil, List.forall_mem_nil _, List.forall_mem_nil _, List.forall_mem_nil _, nothing, ?_, ?_⟩
    · rw [nothing]
      exact List.nodup_nil
    · rw [none]
      exact List.nodup_nil
  | ok lexemes =>
    have noted : Inquiry.Noted environment lexemes resolver resolver (.start world) _ _ _ :=
      Inquiry.program_noted installed world lexemes
    have recalls := (Progress.recalls_start environment lexemes resolver world).moves installed keeps noted.moves
    rw [inquire_of_ok tokenized]
    rw [List.nil_append] at recalls
    refine ⟨recalls.once, fun question member => ?_, fun question member => ?_, fun question member => ?_,
      recalls.accepted, ?_, ?_⟩
    · exact (Progress.binding?_eq_none.mp (recalls.unknown question member)).1
    · exact (Progress.binding?_eq_none.mp (recalls.unknown question member)).2
    · exact ⟨lexemes, tokenized, recalls.uncalled question member⟩
    · dsimp only
      rw [recalls.accepted]
      exact (List.filter_sublist.map _).nodup recalls.once
    · rw [symbols_eq]
      dsimp only
      rw [List.filter_reverse, List.map_reverse, List.nodup_reverse, recalls.told.1]
      exact recalls.told.2

/-- With a resolver that does not take bindings away, a compilation asks for each name at most once. With any other
resolver that gives the same answers to the questions it is the same, so these are all that are asked. -/
theorem ofSource_asks (keeps : resolver.Keeps environment.table) :
    ∃ questions, inquire environment source world = (questions, ofSource environment source world) ∧
      (∀ other : Resolver, (∀ question ∈ questions,
          question.answer environment.table other = question.answer environment.table resolver) →
        ofSource (environment.asking other) source world = ofSource environment source world) ∧
      (ofSource environment source world).AsksOnce environment resolver source questions := by
  have forget := inquire_forget installed source world
  have once := asksOnce_inquire installed source world keeps
  refine ⟨(inquire environment source world).1, ?_, fun other alike => ?_, once⟩
  · rw [← forget]
  · have again : (inquire (environment.asking other) source world).2 = _ := inquire_forget rfl source world
    rw [← again, inquire_asking installed source world alike, forget]

end

def acceptOnly (accepted : String) : Resolver :=
  fun name _ world => (if name = accepted then .resolved else .failed ("unknown: " ++ name), world)

def choosyEnvironment : Environment :=
  Compile.plainEnvironment.asking (acceptOnly "a")

/-- The resolver is asked for `a` and, in its own initializer, for `b`, but not for `f`, which is called. -/
theorem ofSource_asks_initializer :
    choosyEnvironment.resolver = some (acceptOnly "a") ∧ (acceptOnly "a").Keeps choosyEnvironment.table ∧
      ∃ questions, questions.map Question.name = ["a", "b"] ∧
        (ofSource choosyEnvironment "f(a);var b:=b;b" .empty).accepted = ["a"] ∧
        (ofSource choosyEnvironment "f(a);var b:=b;b" .empty).symbols "f(a);var b:=b;b" = ["f", "b"] ∧
        (ofSource choosyEnvironment "f(a);var b:=b;b" .empty).AsksOnce choosyEnvironment (acceptOnly "a")
          "f(a);var b:=b;b" questions := by
  have installed : choosyEnvironment.resolver = some (acceptOnly "a") := rfl
  have keeps : (acceptOnly "a").Keeps choosyEnvironment.table := fun _ _ _ bound => bound
  obtain ⟨questions, inquired, -, asks⟩ := ofSource_asks installed "f(a);var b:=b;b" .empty keeps
  have names : (inquire choosyEnvironment "f(a);var b:=b;b" .empty).1.map Question.name = ["a", "b"] := by
    rw [inquire_of_ok tokenize_undefined]
    rfl
  rw [inquired] at names
  refine ⟨installed, keeps, questions, names, ?_, ?_, asks⟩
  · unfold ofSource
    rw [tokenize_undefined]
    rfl
  · rw [symbols_eq]
    unfold ofSource
    rw [tokenize_undefined]
    rfl

end Compilation

end LiveExpr
