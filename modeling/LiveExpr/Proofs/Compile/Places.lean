import LiveExpr.Expression
import LiveExpr.Proofs.Compile.Recovery
import LiveExpr.Proofs.Text.Line
import LiveExpr.Proofs.Token.Layout

/-!
Where diagnostics point. Compilation does not look at the places of lexemes: where these are moved, it does the same and
reports it in the new places. So it can only report in places that it was given, which are those of the pieces of the
source, and at its end.
-/

namespace LiveExpr

/-! ## Moving lexemes -/

def Lexeme.moveTo (relocate : Lexeme → Position) (lexeme : Lexeme) : Lexeme :=
  { lexeme with position := relocate lexeme }

section Relocating

variable (relocate : Lexeme → Position)

theorem Grammar.assignsElement_moveTo (opened : Nat) (lexemes : List Lexeme) :
    assignsElement opened (lexemes.map (Lexeme.moveTo relocate)) = assignsElement opened lexemes := by
  induction lexemes generalizing opened with
  | nil => rfl
  | cons first rest induction =>
    have sign : startsWithAssignmentSign (rest.map (Lexeme.moveTo relocate)) = startsWithAssignmentSign rest := by
      cases rest <;> rfl
    rw [List.map_cons, assignsElement, induction, induction, induction, sign, assignsElement]
    rfl

theorem Grammar.recover_moveTo (depth : Int) (skip : Nat) (lexemes : List Lexeme) :
    recover depth skip (lexemes.map (Lexeme.moveTo relocate)) =
      (recover depth skip lexemes).map (Lexeme.moveTo relocate) := by
  induction lexemes generalizing depth skip with
  | nil => rfl
  | cons first rest induction =>
    rw [List.map_cons, recover, induction, induction, induction, recover]
    simp only [apply_ite (List.map (Lexeme.moveTo relocate))]
    rfl

def Transport.relocating (shift : Malformed → Malformed) (limit : Nat) : Transport where
  move := Lexeme.moveTo relocate
  token_move _ := rfl
  text_move _ := rfl
  shift := shift
  behind := []
  noElse_behind := rfl
  slack := 0
  Admits _ lexemes := lexemes.length ≤ limit
  behind_of_nil _ := rfl
  admits_plain admitted _ := Nat.le_of_succ_le admitted
  admits_opening admitted _ _ := Nat.le_of_succ_le admitted
  admits_closing admitted _ := Nat.le_of_succ_le admitted
  admits_semicolon admitted _ := Nat.le_of_succ_le admitted
  admits_else admitted _ _ := Nat.le_of_succ_le (Nat.le_of_succ_le admitted)
  assignsElement_eq _ := by rw [List.append_nil, Grammar.assignsElement_moveTo]

end Relocating

namespace Compile

variable (environment : Environment) (relocate : Lexeme → Position) (shift : Malformed → Malformed)
  {bound count : Nat} {lexemes : List Lexeme}

/-- A statement comes to the same wherever its lexemes are. -/
theorem statement_relocating (before : Progress) (room : lexemes.length ≤ bound) :
    let transport := Transport.relocating relocate shift bound
    settled environment bound (lexemes.map (Lexeme.moveTo relocate)) (before.moved transport []) =
        (settled environment bound lexemes before).moved transport [] ∧
      resumption environment bound (lexemes.map (Lexeme.moveTo relocate)) (before.moved transport []) =
        (resumption environment bound lexemes before).map (Lexeme.moveTo relocate) ∧
      (resumption environment bound lexemes before).length ≤ bound := by
  intro transport
  have outcome := @statement_carries transport environment bound lexemes room room [] before
  have carried (lexemes : List Lexeme) : transport.carry lexemes = lexemes.map (Lexeme.moveTo relocate) :=
    List.append_nil _
  rw [carried] at outcome
  change Carried transport _ _ _ (statement environment bound (lexemes.map (Lexeme.moveTo relocate)) _) at outcome
  unfold settled resumption
  generalize statement environment bound lexemes before = one at outcome
  generalize statement environment bound (lexemes.map _) _ = other at outcome
  cases outcome with
  | @done value _ progress same =>
    obtain ⟨rfl, ended⟩ := same
    refine ⟨rfl, carried _, ?_⟩
    rcases ended with ⟨-, none⟩ | ⟨semicolon, -, admitted⟩
    · dsimp only
      rw [none]
      exact Nat.zero_le bound
    · exact Nat.le_of_succ_le admitted
  | @halted halt halted progress halts =>
    refine ⟨?_, ?_, (Grammar.recover_suffix _ _ _).length_le.trans room⟩
    · dsimp only
      rw [halts.report]
      rfl
    · dsimp only
      rw [halts.rest, carried, List.length_map, List.length_map, Grammar.recover_moveTo]

/-- Statements come to the same wherever their lexemes are. -/
theorem statements_relocating (before : Progress) (room : lexemes.length ≤ bound) :
    let transport := Transport.relocating relocate shift bound
    (statements environment bound count (lexemes.map (Lexeme.moveTo relocate)) (before.moved transport [])).2 =
      (statements environment bound count lexemes before).2.moved transport [] := by
  intro transport
  induction count generalizing lexemes before with
  | zero => rfl
  | succ count induction =>
    cases lexemes with
    | nil => rfl
    | cons first rest =>
      have moved (terminal : Terminal) : (first.moveTo relocate).is terminal = first.is terminal := rfl
      by_cases separates : first.is .semicolon
      · rw [List.map_cons, statements_separated separates,
          statements_separated ((moved _).trans separates)]
        exact induction before (Nat.le_of_succ_le room)
      · have other : first.is .semicolon = false := Bool.eq_false_iff.mpr separates
        obtain ⟨settled, resumed, room⟩ := statement_relocating environment relocate shift before room
        rw [(statements_settled other).1, ← induction _ room, ← resumed, ← settled]
        exact (statements_settled ((moved _).trans other)).1

end Compile

/-! ## Places of reports -/

open Classical in
/-- Moves what is not among the given lexemes. -/
noncomputable def Lexeme.stray (lexemes : List Lexeme) (lexeme : Lexeme) : Position :=
  if lexeme ∈ lexemes then lexeme.position else lexeme.position.next '\n'

theorem Position.next_newline_ne (position : Position) : position.next '\n' ≠ position := fun same =>
  Nat.succ_ne_self position.line (congrArg Position.line same)

theorem Lexeme.moveTo_stray_eq_iff {lexemes : List Lexeme} {lexeme : Lexeme} :
    lexeme.moveTo (Lexeme.stray lexemes) = lexeme ↔ lexeme ∈ lexemes := by
  unfold moveTo stray
  constructor
  · intro same
    by_contra other
    rw [if_neg other] at same
    exact lexeme.position.next_newline_ne (congrArg Lexeme.position same)
  · intro member
    rw [if_pos member]

namespace Compile

variable {environment : Environment}

theorem place_of_statements {count : Nat} {lexemes : List Lexeme} {world : World} {report : Report}
    (member : report ∈ (statements environment lexemes.length count lexemes (.start world)).2.reports) :
    report.place = .ending ∨ ∃ lexeme ∈ lexemes, report.place = .lexeme lexeme := by
  let shift (malformed : Malformed) : Malformed := { malformed with position := malformed.position.next '\n' }
  have moved := @statements_relocating environment (Lexeme.stray lexemes) shift _ count lexemes (.start world)
    (Nat.le_refl _)
  have still : lexemes.map (Lexeme.moveTo (Lexeme.stray lexemes)) = lexemes :=
    (List.map_congr_left fun _ member => Lexeme.moveTo_stray_eq_iff.mpr member).trans (List.map_id _)
  change (statements _ _ _ _ (.start world)).2 = _ at moved
  rw [still] at moved
  have reports := congrArg Progress.reports moved
  change _ = List.map _ _ ++ [] at reports
  rw [List.append_nil] at reports
  have fixed : report = report.moved _ := (List.map_inj_left.mp ((List.map_id _).trans reports)) report member
  have stays := congrArg Report.place fixed
  obtain ⟨problem, place⟩ := report
  cases place with
  | lexeme word => exact .inr ⟨word, Lexeme.moveTo_stray_eq_iff.mp (Place.lexeme.inj stays).symm, rfl⟩
  | malformed piece =>
    have same := congrArg Malformed.position (Place.malformed.inj stays)
    exact absurd same.symm piece.position.next_newline_ne
  | ending => exact .inl rfl

theorem place_of_program {lexemes : List Lexeme} {world : World} {report : Report}
    (member : report ∈ (program environment lexemes (.start world)).2.reports) :
    report.place = .ending ∨ ∃ lexeme ∈ lexemes, report.place = .lexeme lexeme := by
  rw [program_eq] at member
  dsimp only at member
  split at member
  · exact .inl (congrArg Report.place (List.mem_singleton.mp member))
  · exact place_of_statements member

end Compile

def Piece.place : Piece → Place
  | .lexeme found => .lexeme found
  | .malformed found => .malformed found

namespace Compilation

variable {environment : Environment} {source : String} {world : World}

theorem place_of_report {report : Report} (member : report ∈ (ofSource environment source world).reports) :
    report.place = .ending ∨ ∃ piece ∈ scan source, report.place = piece.place := by
  unfold ofSource at member
  cases tokenized : tokenize source with
  | error malformed =>
    rw [tokenized] at member
    obtain ⟨found, among, rfl⟩ := List.mem_map.mp member
    rw [(malformed_of_tokenize tokenized).2] at among
    exact .inr ⟨_, Piece.mem_filterMap_malformed?.mp among, rfl⟩
  | ok lexemes =>
    rw [tokenized] at member
    rcases Compile.place_of_program (List.mem_reverse.mp member) with ending | ⟨lexeme, among, place⟩
    · exact .inl ending
    · rw [scan_of_tokenize tokenized]
      exact .inr ⟨_, List.mem_map_of_mem among, place⟩

theorem isLine_ofReport {front behind : List Char} (split : source.toList = front ++ behind) (report : Report)
    (placed : (Diagnostic.ofReport source report).position = .behind front) :
    let diagnostic := Diagnostic.ofReport source report
    Source.IsLine source.toList diagnostic.position.line diagnostic.sourceLine.toList := by
  intro diagnostic
  have shown : diagnostic.sourceLine = Source.line source diagnostic.position.line := by
    obtain ⟨problem, place⟩ := report
    cases place <;> rfl
  rw [shown, placed]
  exact Source.isLine_line split

/-- A diagnostic points at what it quotes. It quotes nothing and lies behind the last character of the source, or it
quotes one of the pieces of the source, which stands at its line and column; and it shows the text of that line. -/
theorem diagnostic_quotes (environment : Environment) (source : String) (world : World) {diagnostic : Diagnostic}
    (member : diagnostic ∈ (ofSource environment source world).diagnostics source) :
    (diagnostic.tokenType = "EOF" ∧ diagnostic.tokenValue = "" ∧ diagnostic.position = .behind source.toList ∨
      ∃ piece ∈ scan source, piece.text = diagnostic.tokenValue ∧ piece.position = diagnostic.position ∧
        ∃ front behind, source.toList = front ++ diagnostic.tokenValue.toList ++ behind ∧
          diagnostic.position = .behind front) ∧
      Source.IsLine source.toList diagnostic.position.line diagnostic.sourceLine.toList := by
  obtain ⟨report, reported, rfl⟩ := List.mem_map.mp member
  obtain ⟨problem, place⟩ := report
  rcases place_of_report reported with ending | ⟨piece, among, found⟩
  · obtain rfl : place = .ending := ending
    have position := Position.after_start source.toList
    exact ⟨.inl ⟨rfl, rfl, position⟩, isLine_ofReport (List.append_nil _).symm _ position⟩
  · obtain rfl : place = piece.place := found
    obtain ⟨front, behind, split, position⟩ := (layout_scan source).slice_of_mem among
    have quoted : (Diagnostic.ofReport source ⟨problem, piece.place⟩).tokenValue = piece.text := by cases piece <;> rfl
    have placed : (Diagnostic.ofReport source ⟨problem, piece.place⟩).position = piece.position := by
      cases piece <;> rfl
    rw [List.nil_append] at split
    refine ⟨.inr ⟨piece, among, quoted.symm, placed.symm, front, behind, ?_, placed.trans position⟩, ?_⟩
    · rw [quoted, split]
    · exact isLine_ofReport (split.trans (List.append_assoc ..)) _ (placed.trans position)

theorem tokenize_secondLine :
    tokenize "a;\r\n )" = .ok [⟨.name "a", "a", ⟨1, 1⟩⟩, ⟨.fixed .semicolon, ";", ⟨1, 2⟩⟩,
      ⟨.fixed .rightParen, ")", ⟨2, 2⟩⟩] := by
  with_unfolding_all rfl

/-- The bracket on the second line, behind a carriage return and a newline. -/
theorem diagnostic_quotes_secondLine :
    let diagnostic : Diagnostic :=
      ⟨.grammatical, "PUNCTUATION", ")", "unexpected token ')'", " )", ⟨2, 2⟩⟩
    diagnostic ∈ (ofSource Compile.plainEnvironment "a;\r\n )" .empty).diagnostics "a;\r\n )" ∧
      (∃ piece ∈ scan "a;\r\n )", piece.text = ")" ∧ piece.position = ⟨2, 2⟩) ∧
      Source.IsLine "a;\r\n )".toList 2 " )".toList := by
  intro diagnostic
  have reports : (ofSource Compile.plainEnvironment "a;\r\n )" .empty).reports =
      [⟨.undefinedSymbol "a", .lexeme ⟨.name "a", "a", ⟨1, 1⟩⟩⟩,
        ⟨.unexpected ")", .lexeme ⟨.fixed .rightParen, ")", ⟨2, 2⟩⟩⟩] := by
    unfold ofSource
    rw [tokenize_secondLine]
    rfl
  have worded : Diagnostic.ofReport "a;\r\n )" ⟨.unexpected ")", .lexeme ⟨.fixed .rightParen, ")", ⟨2, 2⟩⟩⟩ =
      diagnostic := by
    subst diagnostic
    decide
  have member : diagnostic ∈ (ofSource Compile.plainEnvironment "a;\r\n )" .empty).diagnostics "a;\r\n )" := by
    rw [diagnostics, reports, ← worded]
    exact List.mem_cons_of_mem _ (List.mem_cons_self ..)
  obtain ⟨⟨kind, -⟩ | ⟨piece, among, text, position, -⟩, isLine⟩ := diagnostic_quotes _ _ _ member
  · exact absurd kind (by decide)
  · exact ⟨member, ⟨piece, among, text, position⟩, isLine⟩

end Compilation

end LiveExpr
