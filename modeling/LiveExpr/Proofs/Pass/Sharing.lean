import LiveExpr.Proofs.Grammar.Proper
import LiveExpr.Proofs.Pass.Routine

/-!
Parsers that move over what readers take, and give the same, where nothing is compiled yet. A parser stands in front of
lexemes if the cursor has passed all but those.
-/

namespace LiveExpr.Pass

open LiveExpr.Pass.Parser

variable {α β : Type} {task : Task} {level : Nat}

/-! ## Places -/

/-- The state in front of the given lexemes, where so many more levels may be entered. -/
def Task.at (task : Task) (level : Nat) (lexemes : List Lexeme) (progress : Progress) : State :=
  ⟨task.lexemes.length - lexemes.length, task.settings.maxDepth - level, progress⟩

section At

variable {lexemes rest : List Lexeme} {first : Lexeme} (progress : Progress)

theorem drop_at (ends : lexemes <:+ task.lexemes) :
    task.lexemes.drop (task.at level lexemes progress).cursor = lexemes :=
  (List.suffix_iff_eq_drop.mp ends).symm

theorem head_at (ends : lexemes <:+ task.lexemes) :
    task.lexemes[(task.at level lexemes progress).cursor]? = lexemes.head? := by
  rw [← List.head?_drop, drop_at progress ends]

theorem second_at (ends : lexemes <:+ task.lexemes) :
    task.lexemes[(task.at level lexemes progress).cursor + 1]? = lexemes.tail.head? := by
  rw [← List.head?_drop, ← List.drop_drop, drop_at progress ends, List.drop_one]

theorem peek_at (ends : lexemes <:+ task.lexemes) :
    peek task (task.at level lexemes progress) = .done lexemes.head? (task.at level lexemes progress) := by
  rw [peek_apply, head_at progress ends]

theorem advance_at (ends : first :: rest <:+ task.lexemes) :
    (task.at level (first :: rest) progress).advance = task.at level rest progress := by
  have fits := ends.length_le
  rw [List.length_cons] at fits
  have moved : task.lexemes.length - (rest.length + 1) + 1 = task.lexemes.length - rest.length := by omega
  rw [Task.at, State.advance, List.length_cons, moved]
  rfl

end At

section At

variable {lexemes rest : List Lexeme} {first : Lexeme} {terminal : Terminal} (progress : Progress)

theorem place_at (ends : lexemes <:+ task.lexemes) :
    place task (task.at level lexemes progress) = .done (.ofNext lexemes) (task.at level lexemes progress) := by
  rw [place, bind_of_done (peek_at progress ends)]
  cases lexemes <;> rfl

theorem step_at (ends : first :: rest <:+ task.lexemes) :
    step task (task.at level (first :: rest) progress) = .done () (task.at level rest progress) := by
  rw [← advance_at progress ends]
  exact step_of_found (head_at progress ends)

theorem eat_of_not (ends : lexemes <:+ task.lexemes) (other : startsWith terminal lexemes = false) :
    eat terminal task (task.at level lexemes progress) = .done false (task.at level lexemes progress) := by
  rw [eat_apply, head_at progress ends]
  cases lexemes with
  | nil => rfl
  | cons first rest => exact if_neg (Bool.eq_false_iff.mp other)

theorem eat_of_is (ends : first :: rest <:+ task.lexemes) (spelled : first.is terminal = true) :
    eat terminal task (task.at level (first :: rest) progress) = .done true (task.at level rest progress) := by
  rw [eat_apply, head_at progress ends, ← advance_at progress ends]
  exact if_pos spelled

end At

/-! ## Sharing -/

/-- Whether a parser moves over what a reader takes, and gives the same, in front of the given lexemes. -/
def Shares (task : Task) (lexemes : List Lexeme) (read : Reader α) (parse : Parser α) : Prop :=
  ∃ value rest, read lexemes = .ok (value, rest) ∧ rest <:+ lexemes ∧
    ∀ level progress, parse task (task.at level lexemes progress) = .done value (task.at level rest progress)

def Stops (task : Task) (lexemes : List Lexeme) (read : Reader α) (parse : Parser α) : Prop :=
  ∃ report rest, read lexemes = .error (.stop report rest) ∧
    ∀ level progress, parse task (task.at level lexemes progress) = .failed report (task.at level rest progress)

/-- Whether a parser and a reader always share what they take and give. -/
def Matches (task : Task) (read : Reader α) (parse : Parser α) : Prop :=
  ∀ lexemes, lexemes <:+ task.lexemes → Shares task lexemes read parse

def Requires (task : Task) (read : Reader α) (parse : Parser α) : Prop :=
  ∀ lexemes, lexemes <:+ task.lexemes → Shares task lexemes read parse ∨ Stops task lexemes read parse

def Signs (task : Task) (read : Reader (Option α)) (parse : Parser (Option α)) : Prop :=
  ∀ lexemes, lexemes <:+ task.lexemes →
    (read lexemes = .ok (none, lexemes) ∧
      ∀ level progress, parse task (task.at level lexemes progress) = .done none (task.at level lexemes progress)) ∨
    ∃ use first rest, lexemes = first :: rest ∧ read lexemes = .ok (some use, rest) ∧
      ∀ level progress, parse task (task.at level lexemes progress) = .done (some use) (task.at level rest progress)

theorem Shares.of_eq {lexemes : List Lexeme} {read : Reader α} {parse other : Parser α}
    (shares : Shares task lexemes read parse)
    (same : ∀ level progress,
      other task (task.at level lexemes progress) = parse task (task.at level lexemes progress)) :
    Shares task lexemes read other := by
  obtain ⟨value, rest, reads, taken, ran⟩ := shares
  exact ⟨value, rest, reads, taken, fun level progress => (same level progress).trans (ran level progress)⟩

theorem Stops.of_eq {lexemes : List Lexeme} {read : Reader α} {parse other : Parser α}
    (stops : Stops task lexemes read parse)
    (same : ∀ level progress,
      other task (task.at level lexemes progress) = parse task (task.at level lexemes progress)) :
    Stops task lexemes read other := by
  obtain ⟨report, rest, reads, ran⟩ := stops
  exact ⟨report, rest, reads, fun level progress => (same level progress).trans (ran level progress)⟩

/-- The lexeme in front is passed. -/
theorem Shares.step {first : Lexeme} {rest : List Lexeme} {read : Reader α} {value : α}
    (reads : read (first :: rest) = .ok (value, rest)) (ends : first :: rest <:+ task.lexemes) :
    Shares task (first :: rest) read (Parser.step >>= fun _ => pure value) :=
  ⟨value, rest, reads, List.suffix_cons _ _, fun _ progress => bind_of_done (step_at progress ends) _⟩

theorem Stops.failAt {lexemes : List Lexeme} {read : Reader α} {problem : Problem} {place : Place}
    (stops : read lexemes = .error (.stop ⟨problem, place⟩ lexemes)) :
    Stops task lexemes read (Parser.failAt problem place) :=
  ⟨_, lexemes, stops, fun _ _ => rfl⟩

theorem Signs.same {read : Reader (Option α)} {parse : Parser (Option α)} (signs : Signs task read parse) :
    Matches task read parse := by
  intro lexemes ends
  obtain ⟨reads, ran⟩ | ⟨use, first, rest, rfl, reads, ran⟩ := signs lexemes ends
  · exact ⟨none, lexemes, reads, List.suffix_refl _, ran⟩
  · exact ⟨some use, rest, reads, List.suffix_cons first rest, ran⟩

theorem accept_signs (use? : Lexeme → Option α) : Signs task (Reader.accept use?) (accept use?) := by
  intro lexemes ends
  have looked (level : Nat) (progress : Progress) :=
    (accept_apply use? task (task.at level lexemes progress)).trans (by rw [head_at progress ends])
  cases lexemes with
  | nil => exact .inl ⟨rfl, looked⟩
  | cons first rest =>
    cases accepted : use? first with
    | none =>
      refine .inl ⟨by rw [Reader.accept, accepted], fun level progress => ?_⟩
      rw [looked, List.head?_cons, Option.bind_some, accepted]
    | some use =>
      refine .inr ⟨use, first, rest, rfl, Reader.accept_of_some accepted rest, fun level progress => ?_⟩
      rw [looked, List.head?_cons, Option.bind_some, accepted, ← advance_at progress ends]

theorem Matches.requires {read : Reader α} {parse : Parser α} (same : Matches task read parse) :
    Requires task read parse :=
  fun lexemes ends => .inl (same lexemes ends)

theorem Matches.pure (value : α) : Matches task (Pure.pure value) (Pure.pure value) :=
  fun lexemes _ => ⟨value, lexemes, rfl, List.suffix_refl _, fun _ _ => rfl⟩

/-- Looking at the lexeme in front, a parser goes on with it or at the end of the source. -/
theorem Requires.peeking {read : Reader α} {later : Option Lexeme → Parser α}
    (ended : Shares task [] read (later none) ∨ Stops task [] read (later none))
    (continued : ∀ first rest, first :: rest <:+ task.lexemes →
      Shares task (first :: rest) read (later (some first)) ∨ Stops task (first :: rest) read (later (some first))) :
    Requires task read (peek >>= later) := by
  intro lexemes ends
  have looked (level : Nat) (progress : Progress) :
      (peek >>= later) task (task.at level lexemes progress) =
        later lexemes.head? task (task.at level lexemes progress) := bind_of_done (peek_at progress ends) later
  cases lexemes with
  | nil => exact ended.imp (·.of_eq looked) (·.of_eq looked)
  | cons first rest => exact (continued first rest ends).imp (·.of_eq looked) (·.of_eq looked)

theorem Requires.bind {read : Reader α} {parse : Parser α} {next : α → Reader β} {later : α → Parser β}
    (requires : Requires task read parse) (continued : ∀ value, Requires task (next value) (later value)) :
    Requires task (read >>= next) (parse >>= later) := by
  intro lexemes ends
  obtain ⟨value, rest, reads, taken, ran⟩ | ⟨report, rest, stops, ran⟩ := requires lexemes ends
  · obtain ⟨result, last, ended, further, done⟩ | ⟨report, last, stops, failed⟩ :=
      continued value rest (taken.trans ends)
    · refine .inl ⟨result, last, (Reader.bind_of_ok reads next).trans ended, further.trans taken, ?_⟩
      exact fun level progress => (bind_of_done (ran level progress) later).trans (done level progress)
    · refine .inr ⟨report, last, (Reader.bind_of_ok reads next).trans stops, fun level progress => ?_⟩
      exact (bind_of_done (ran level progress) later).trans (failed level progress)
  · refine .inr ⟨report, rest, Reader.bind_eq_error.mpr (.inl stops), fun level progress => ?_⟩
    exact bind_of_failed (ran level progress) later

/-! ## Single lexemes -/

theorem place_matches : Matches task Reader.place place :=
  fun lexemes ends => ⟨.ofNext lexemes, lexemes, rfl, List.suffix_refl _, fun _ progress => place_at progress ends⟩

theorem takes_matches (terminal : Terminal) : Matches task (Reader.takes terminal) (eat terminal) := by
  intro lexemes ends
  cases starts : startsWith terminal lexemes with
  | false =>
    refine ⟨false, lexemes, Reader.takes_of_not starts, List.suffix_refl _, fun level progress => ?_⟩
    exact eat_of_not progress ends starts
  | true =>
    cases lexemes with
    | nil => cases starts
    | cons first rest =>
      refine ⟨true, rest, Reader.takes_of_is starts rest, List.suffix_cons _ _, fun level progress => ?_⟩
      exact eat_of_is progress ends starts

theorem sees_matches (terminal : Terminal) : Matches task (Reader.sees terminal) (check terminal) := by
  intro lexemes ends
  refine ⟨startsWith terminal lexemes, lexemes, rfl, List.suffix_refl _, fun level progress => ?_⟩
  rw [check, bind_of_done (peek_at progress ends)]
  cases lexemes <;> rfl

theorem require_requires (terminal : Terminal) (wanted : Expectation) :
    Requires task (Reader.require terminal wanted) (expect terminal wanted) := by
  refine .peeking (.inr (.failAt rfl)) fun first rest ends => ?_
  dsimp only
  by_cases spelled : first.is terminal
  · rw [if_pos spelled]
    exact .inl (.step (Reader.require_of_is spelled wanted rest) ends)
  · rw [if_neg spelled]
    exact .inr (.failAt (if_neg spelled))

end LiveExpr.Pass
