import LiveExpr.Proofs.Pass.Routine

/-!
The order that every routine of a pass keeps. With enough rounds and calls it comes to an end, in a value or in a
failure. It never moves the cursor back or behind the last lexeme, leaves as many levels entered as there were, and
takes no counter below zero. What makes a node moves over at least one lexeme.
-/

namespace LiveExpr.Pass

/-! ## Runs in good order -/

namespace Outcome

variable {α : Type}

/-- Whether a run from a state has come to an end in good order, and a value has cost the cursor `need` lexemes. -/
def Orderly (task : Task) (before : State) (need : Nat) : Outcome α → Prop
  | .done _ after =>
    before.cursor + need ≤ after.cursor ∧ after.cursor ≤ task.lexemes.length ∧ after.depth = before.depth
  | .failed _ after =>
    before.cursor ≤ after.cursor ∧ after.cursor ≤ task.lexemes.length ∧ after.depth = before.depth
  | .broken | .unfinished => False

/-- A run is in good order since an earlier state too, if what came between was. -/
theorem Orderly.since {task : Task} {before middle : State} {need price total : Nat} {outcome : Outcome α}
    (orderly : outcome.Orderly task middle need) (moved : before.cursor + price ≤ middle.cursor)
    (sameDepth : middle.depth = before.depth) (covered : total ≤ price + need) :
    outcome.Orderly task before total := by
  cases outcome with
  | done value after => exact ⟨by have := orderly.1; omega, orderly.2.1, orderly.2.2.trans sameDepth⟩
  | failed report after => exact ⟨by have := orderly.1; omega, orderly.2.1, orderly.2.2.trans sameDepth⟩
  | broken | unfinished => exact orderly

/-- What has cost lexemes has cost any smaller number of them. -/
theorem Orderly.weaken {task : Task} {before : State} {need : Nat} {outcome : Outcome α}
    (orderly : outcome.Orderly task before need) {less : Nat} (fewer : less ≤ need) :
    outcome.Orderly task before less :=
  orderly.since (Nat.le_refl (before.cursor + 0)) rfl (by omega)

end Outcome

namespace Parser

variable {α β : Type}

/-- Whether a parser keeps order from a state on, if the cursor is not behind the last lexeme, and in front of fewer
lexemes than `size`. -/
def OrderlyAt (task : Task) (state : State) (size need : Nat) (parser : Parser α) : Prop :=
  state.cursor ≤ task.lexemes.length → task.lexemes.length < state.cursor + size →
    (parser task state).Orderly task state need

/-- Whether a parser keeps order in front of fewer lexemes than `size`. -/
def Orderly (size need : Nat) (parser : Parser α) : Prop :=
  ∀ task state, parser.OrderlyAt task state size need

/-- Whether a parser gives a value and changes nothing. -/
def Looks (parser : Parser α) : Prop :=
  ∀ task state, ∃ value, parser task state = .done value state

def Accepts (parser : Parser (Option α)) : Prop :=
  ∀ task state, parser task state = .done none state ∨
    ∃ use, state.cursor < task.lexemes.length ∧ parser task state = .done (some use) state.advance

theorem cursor_lt {task : Task} {state : State} {lexeme : Lexeme}
    (found : task.lexemes[state.cursor]? = some lexeme) : state.cursor < task.lexemes.length :=
  (List.getElem?_eq_some_iff.mp found).1

theorem accept_accepts (use? : Lexeme → Option α) : (accept use?).Accepts := by
  intro task state
  rw [accept_apply]
  cases found : task.lexemes[state.cursor]?.bind use? with
  | none => exact .inl rfl
  | some use =>
    obtain ⟨lexeme, next, -⟩ := Option.bind_eq_some_iff.mp found
    exact .inr ⟨use, cursor_lt next, rfl⟩

namespace Looks

theorem pure (value : α) : (Pure.pure value : Parser α).Looks :=
  fun _ _ => ⟨value, rfl⟩

theorem bind {first : Parser α} {next : α → Parser β} (looks : first.Looks) (continued : ∀ value, (next value).Looks) :
    (first >>= next).Looks := by
  intro task state
  obtain ⟨value, done⟩ := looks task state
  rw [bind_of_done done]
  exact continued value task state

theorem peekAt (offset : Nat) : (peekAt offset).Looks :=
  fun _ _ => ⟨_, rfl⟩

theorem place : place.Looks := by
  refine (peekAt 0).bind fun found => ?_
  cases found <;> exact pure _

theorem previousPlace : previousPlace.Looks := by
  intro task state
  unfold Parser.previousPlace
  split <;> exact ⟨_, rfl⟩

theorem check (terminal : Terminal) : (check terminal).Looks :=
  (peekAt 0).bind fun _ => pure _

end Looks

namespace Orderly

variable {size need : Nat}

/-! ## Sequences -/

theorem mono {parser : Parser α} (orderly : parser.Orderly size need) {fewer : Nat} (few : fewer ≤ size) :
    parser.Orderly fewer need :=
  fun task state inside short => orderly task state inside (by omega)

theorem weaken {parser : Parser α} (orderly : parser.Orderly size 1) : parser.Orderly size 0 :=
  fun task state inside short => (orderly task state inside short).weaken (Nat.zero_le 1)

/-- In front of fewer lexemes than none, anything is in order. -/
theorem zero (parser : Parser α) : parser.Orderly 0 need :=
  fun task state inside short => by omega

/-- Behind a parser that takes lexemes, there are fewer of them. -/
theorem spending {first : Parser α} {next : α → Parser β} {price total fewer : Nat} (orderly : first.Orderly size price)
    (continued : ∀ value, (next value).Orderly fewer need) (enough : size ≤ fewer + price)
    (covered : total ≤ price + need) : (first >>= next).Orderly size total := by
  intro task state inside short
  have kept := orderly task state inside short
  rw [bind_apply]
  cases ran : first task state with
  | done value middle =>
    rw [ran] at kept
    obtain ⟨moved, within, sameDepth⟩ := kept
    exact (continued value task middle within (by omega)).since moved sameDepth covered
  | failed report after =>
    rw [ran] at kept
    exact kept
  | broken | unfinished =>
    rw [ran] at kept
    exact kept

theorem bind {first : Parser α} {next : α → Parser β} (orderly : first.Orderly size 0)
    (continued : ∀ value, (next value).Orderly size need) : (first >>= next).Orderly size need :=
  spending orderly continued (by omega) (by omega)

/-- Behind a parser that takes a lexeme, none has to be taken. -/
theorem after {first : Parser α} {next : α → Parser β} (orderly : first.Orderly size 1)
    (continued : ∀ value, (next value).Orderly size 0) : (first >>= next).Orderly size 1 :=
  spending orderly continued (by omega) (by omega)

/-- Behind a parser that takes a lexeme, there is one less, and none has to be taken. -/
theorem behind {first : Parser α} {next : α → Parser β} (orderly : first.Orderly (size + 1) 1)
    (continued : ∀ value, (next value).Orderly size 0) : (first >>= next).Orderly (size + 1) 1 :=
  spending orderly continued (by omega) (by omega)

/-! ## Looking, failing and computing -/

theorem look {parser : Parser α} (looks : parser.Looks) : parser.Orderly size 0 := by
  intro task state inside _
  obtain ⟨value, done⟩ := looks task state
  rw [done]
  exact ⟨Nat.le_refl _, inside, rfl⟩

theorem pure (value : α) : (Pure.pure value : Parser α).Orderly size 0 :=
  look (.pure value)

theorem place : place.Orderly size 0 :=
  look .place

theorem failAt (problem : Problem) (place : Place) : (failAt problem place : Parser α).Orderly size need :=
  fun _ _ inside _ => ⟨Nat.le_refl _, inside, rfl⟩

theorem fail (problem : Problem) : (fail problem : Parser α).Orderly size need :=
  place.bind fun _ => failAt problem _

theorem unexpected : (unexpected : Parser α).Orderly size need := by
  refine bind (look (.peekAt 0)) fun found => ?_
  cases found <;> exact failAt _ _

/-- A computation of the compiler moves no cursor, even where it halts. -/
theorem perform (computation : Environment → Compile α) : (perform computation).Orderly size 0 := by
  intro task state inside _
  unfold Parser.perform
  split <;> exact ⟨Nat.le_refl _, inside, rfl⟩

/-! ## Single lexemes -/

theorem advance {task : Task} {state : State} {lexeme : Lexeme} (found : task.lexemes[state.cursor]? = some lexeme)
    {parser : Parser α} (orderly : parser.Orderly size 0) (small : need ≤ 1)
    (short : task.lexemes.length < state.cursor + (size + 1)) :
    (parser task state.advance).Orderly task state need :=
  (orderly task state.advance (cursor_lt found) (by dsimp only [State.advance]; omega)).since (Nat.le_refl _) rfl small

theorem peeking {next : Option Lexeme → Parser α} (ended : (next none).Orderly size need)
    (continued : ∀ lexeme task state, task.lexemes[state.cursor]? = some lexeme →
      (next (some lexeme)).OrderlyAt task state size need) : (peek >>= next).Orderly size need := by
  intro task state
  unfold OrderlyAt
  rw [bind_of_done (peek_apply task state)]
  cases found : task.lexemes[state.cursor]? with
  | none => exact ended task state
  | some lexeme => exact continued lexeme task state found

/-- The lexeme at the cursor is passed. -/
theorem step {task : Task} {state : State} {lexeme : Lexeme} (found : task.lexemes[state.cursor]? = some lexeme)
    {next : Unit → Parser α} (continued : (next ()).Orderly size 0) :
    (Parser.step >>= next).OrderlyAt task state (size + 1) 1 := by
  intro _ short
  rw [bind_of_done (step_of_found found)]
  exact continued.advance found (Nat.le_refl 1) short

/-- Where a lexeme is of use, there is one less behind it. -/
theorem accepting {first : Parser (Option α)} (accepts : first.Accepts) {next : Option α → Parser β} (small : need ≤ 1)
    (taken : ∀ use, (next (some use)).Orderly size 0) (passed : (next none).Orderly (size + 1) need) :
    (first >>= next).Orderly (size + 1) need := by
  intro task state inside short
  obtain done | ⟨use, more, done⟩ := accepts task state
  · rw [bind_of_done done]
    exact passed task state inside short
  · rw [bind_of_done done]
    exact (taken use).advance (List.getElem?_eq_getElem more) small short

/-- Where the terminal is at the cursor, there is one lexeme less behind it. -/
theorem eating {terminal : Terminal} {taken passed : Parser α} (small : need ≤ 1) (there : taken.Orderly size 0)
    (absent : passed.Orderly (size + 1) need) :
    (eat terminal >>= fun found => if found then taken else passed).Orderly (size + 1) need := by
  intro task state inside short
  by_cases spelled : task.lexemes[state.cursor]?.any (·.is terminal)
  · obtain ⟨lexeme, found, -⟩ := (Option.any_eq_true _ _).mp spelled
    rw [bind_of_done ((eat_apply terminal task state).trans (if_pos spelled))]
    exact there.advance found small short
  · rw [bind_of_done ((eat_apply terminal task state).trans (if_neg spelled))]
    exact absent task state inside short

/-- Where nothing is lost on the way, it does not matter that there are fewer lexemes behind one. -/
theorem ofSucc {parser : Parser α} (orderly : ∀ fewer, fewer + 1 = size → parser.Orderly (fewer + 1) need) :
    parser.Orderly size need := by
  cases size with
  | zero => exact zero parser
  | succ fewer => exact orderly fewer rfl

theorem eat (terminal : Terminal) : (eat terminal).Orderly size 0 := by
  intro task state inside _
  rw [eat_apply]
  split
  · next spelled =>
    obtain ⟨lexeme, found, -⟩ := (Option.any_eq_true _ _).mp spelled
    exact ⟨Nat.le_succ _, cursor_lt found, rfl⟩
  · exact ⟨Nat.le_refl _, inside, rfl⟩

/-- Whichever way a parser goes on, it keeps order. -/
theorem either {first : Parser Bool} {taken passed : Parser α} (orderly : first.Orderly size 0)
    (there : taken.Orderly size need) (absent : passed.Orderly size need) :
    (first >>= fun found => if found then taken else passed).Orderly size need := by
  refine orderly.bind fun found => ?_
  cases found with
  | true => exact there
  | false => exact absent

theorem expect (terminal : Terminal) (wanted : Expectation) : (expect terminal wanted).Orderly size 1 := by
  refine ofSucc fun fewer _ => peeking (failAt _ _) fun lexeme task state found => ?_
  dsimp only
  split
  · exact step found (pure lexeme)
  · exact failAt _ _ task state

theorem anyLexeme : anyLexeme.Orderly size 1 := by
  refine ofSucc fun fewer _ => peeking (failAt _ _) fun lexeme task state found => ?_
  exact step found (pure lexeme)

/-! ## Levels -/

/-- A level that is entered is left again, however the parser ends. -/
theorem nested {parser : Parser α} (orderly : parser.Orderly size need) : (nested parser).Orderly size need := by
  intro task state inside short
  by_cases deep : task.settings.maxDepth ≤ state.depth
  · rw [nested_of_tooDeep deep]
    exact fail _ task state inside short
  · have kept := orderly task (state.atDepth (state.depth + 1)) inside short
    cases ran : parser task (state.atDepth (state.depth + 1)) with
    | done value after =>
      rw [ran] at kept
      rw [nested_of_done deep ran kept.2.2]
      exact ⟨kept.1, kept.2.1, rfl⟩
    | failed report after =>
      rw [ran] at kept
      rw [nested_of_failed deep ran kept.2.2]
      exact ⟨kept.1, kept.2.1, rfl⟩
    | broken | unfinished =>
      rw [ran] at kept
      exact kept.elim

end Orderly

end Parser

end LiveExpr.Pass
