import LiveExpr.Compile.Program

/-!
Compilation in a single pass: a cursor moves over the lexemes, and nodes are made of what it has passed while it moves.
A parser runs on the cursor, on the number of levels that are entered, and on the state of the compilation. All three
are still there when a statement does not fit the grammar.
-/

namespace LiveExpr.Pass

/-- What stays the same during a pass. -/
structure Task where
  environment : Environment
  lexemes : List Lexeme

namespace Task

def settings (task : Task) : Settings :=
  task.environment.settings

end Task

structure State where
  /-- How many lexemes are passed. -/
  cursor : Nat
  /-- How many levels are entered. -/
  depth : Nat
  progress : Progress

namespace State

def advance (state : State) : State :=
  { state with cursor := state.cursor + 1 }

/-- The state with so many levels entered. -/
def atDepth (state : State) (depth : Nat) : State :=
  { state with depth := depth }

end State

/-- How a run of a parser ends. -/
inductive Outcome (α : Type) where
  | done (value : α) (state : State)
  /-- The statement at hand does not fit the grammar. -/
  | failed (report : Report) (state : State)
  /-- A counter was to be taken below zero, or the cursor behind the last lexeme. -/
  | broken
  /-- The rounds or calls that were allowed did not suffice. -/
  | unfinished

def Parser (α : Type) : Type :=
  Task → State → Outcome α

namespace Parser

variable {α β : Type}

@[always_inline, inline]
instance : Monad Parser where
  pure value := fun _ state => .done value state
  bind first next := fun task state =>
    match first task state with
    | .done value state => next value task state
    | .failed report state => .failed report state
    | .broken => .broken
    | .unfinished => .unfinished

theorem bind_apply (first : Parser α) (next : α → Parser β) (task : Task) (state : State) :
    (first >>= next) task state =
      match first task state with
      | .done value state => next value task state
      | .failed report state => .failed report state
      | .broken => .broken
      | .unfinished => .unfinished := rfl

theorem bind_of_done {first : Parser α} {task : Task} {state after : State} {value : α}
    (done : first task state = .done value after) (next : α → Parser β) :
    (first >>= next) task state = next value task after := by
  rw [bind_apply, done]

theorem bind_of_failed {first : Parser α} {task : Task} {state after : State} {report : Report}
    (failed : first task state = .failed report after) (next : α → Parser β) :
    (first >>= next) task state = .failed report after := by
  rw [bind_apply, failed]

instance : LawfulMonad Parser :=
  LawfulMonad.mk' Parser
    (fun parser => by
      funext task state
      change (parser >>= fun value => pure value) task state = parser task state
      rw [bind_apply]
      cases parser task state <;> rfl)
    (fun _ _ => rfl)
    (fun first second third => by
      funext task state
      rw [bind_apply, bind_apply, bind_apply]
      cases first task state <;> rfl)

/-! ## The cursor -/

/-- How many lexemes are passed. -/
def cursor : Parser Nat :=
  fun _ state => .done state.cursor state

/-- The lexeme so many places behind the cursor. -/
def peekAt (offset : Nat) : Parser (Option Lexeme) :=
  fun task state => .done task.lexemes[state.cursor + offset]? state

theorem peekAt_apply (offset : Nat) (task : Task) (state : State) :
    peekAt offset task state = .done task.lexemes[state.cursor + offset]? state := rfl

def peek : Parser (Option Lexeme) :=
  peekAt 0

theorem peek_apply (task : Task) (state : State) : peek task state = .done task.lexemes[state.cursor]? state := rfl

def remaining : Parser (List Lexeme) :=
  fun task state => .done (task.lexemes.drop state.cursor) state

def place : Parser Place := do
  match ← peek with
  | some lexeme => pure (.lexeme lexeme)
  | none => pure .ending

def previousPlace : Parser Place :=
  fun task state =>
    match task.lexemes[state.cursor - 1]? with
    | some lexeme => .done (.lexeme lexeme) state
    | none => .done .ending state

/-- Moves the cursor over the lexeme that stands at it. -/
def step : Parser Unit :=
  fun task state => if state.cursor < task.lexemes.length then .done () state.advance else .broken

theorem step_of_found {task : Task} {state : State} {lexeme : Lexeme}
    (found : task.lexemes[state.cursor]? = some lexeme) : step task state = .done () state.advance :=
  if_pos (List.getElem?_eq_some_iff.mp found).1

/-! ## Failing -/

def failAt (problem : Problem) (place : Place) : Parser α :=
  fun _ state => .failed ⟨problem, place⟩ state

def fail (problem : Problem) : Parser α := do
  failAt problem (← place)

/-- Fails because the lexeme at the cursor does not fit, or because there is none. -/
def unexpected : Parser α := do
  match ← peek with
  | some lexeme => failAt (.unexpected lexeme.text) (.lexeme lexeme)
  | none => failAt .unexpectedEnd .ending

/-- Runs a parser and catches what it fails with. -/
def attempt (parser : Parser α) : Parser (Except Report α) :=
  fun task state =>
    match parser task state with
    | .done value state => .done (.ok value) state
    | .failed report state => .done (.error report) state
    | .broken => .broken
    | .unfinished => .unfinished

/-- Gives a result that was caught, or fails with it again. -/
def resume : Except Report α → Parser α
  | .ok value => pure value
  | .error report => fun _ state => .failed report state

/-- Stands where nothing more may be done. -/
def unfinished : Parser α :=
  fun _ _ => .unfinished

/-! ## Single lexemes -/

/-- Moves over the lexeme at the cursor if it is of some use, and says of which. -/
def accept (use? : Lexeme → Option α) : Parser (Option α) := do
  match (← peek).bind use? with
  | some use => do
    step
    pure (some use)
  | none => pure none

theorem accept_apply (use? : Lexeme → Option α) (task : Task) (state : State) :
    accept use? task state =
      match task.lexemes[state.cursor]?.bind use? with
      | some use => .done (some use) state.advance
      | none => .done none state := by
  unfold accept
  rw [bind_of_done (peek_apply task state)]
  cases taken : task.lexemes[state.cursor]?.bind use? with
  | none => rfl
  | some use =>
    obtain ⟨lexeme, found, -⟩ := Option.bind_eq_some_iff.mp taken
    exact bind_of_done (step_of_found found) _

def check (terminal : Terminal) : Parser Bool := do
  pure ((← peek).any (·.is terminal))

/-- Moves over the terminal if it is at the cursor, and says whether it was. -/
def eat (terminal : Terminal) : Parser Bool := do
  if ← check terminal then
    step
    pure true
  else pure false

theorem eat_apply (terminal : Terminal) (task : Task) (state : State) :
    eat terminal task state =
      if task.lexemes[state.cursor]?.any (·.is terminal) then .done true state.advance else .done false state := by
  change (if task.lexemes[state.cursor]?.any (·.is terminal) then _ else _ : Parser Bool) task state = _
  split
  · next spelled =>
    obtain ⟨lexeme, found, -⟩ := (Option.any_eq_true _ _).mp spelled
    exact bind_of_done (step_of_found found) _
  · rfl

/-- Moves over the terminal that the grammar requires here, or fails. -/
def expect (terminal : Terminal) (wanted : Expectation) : Parser Lexeme := do
  match ← peek with
  | some lexeme =>
    if lexeme.is terminal then
      step
      pure lexeme
    else failAt (.expected wanted (some lexeme.text)) (.lexeme lexeme)
  | none => failAt (.expected wanted none) .ending

/-! ## Levels -/

/-- How many levels are entered. -/
def depth : Parser Nat :=
  fun _ state => .done state.depth state

def setDepth (depth : Nat) : Parser Unit :=
  fun _ state => .done () (state.atDepth depth)

/-- One less, where that is not below zero. -/
def decrease : Nat → Parser Nat
  | 0 => fun _ _ => .broken
  | count + 1 => pure count

/-- The settings that the pass is made with. -/
def settings : Parser Settings :=
  fun task state => .done task.settings state

/-- Runs a parser one level further in, unless that is too deep. -/
def nested (parser : Parser α) : Parser α := do
  let limit := (← settings).maxDepth
  if limit ≤ (← depth) then fail (.tooDeep limit)
  else
    setDepth ((← depth) + 1)
    let result ← attempt parser
    setDepth (← decrease (← depth))
    resume result

section Nested

variable {parser : Parser α} {task : Task} {state after : State}

theorem nested_of_tooDeep (deep : task.settings.maxDepth ≤ state.depth) :
    nested parser task state = fail (.tooDeep task.settings.maxDepth) task state := by
  change (if task.settings.maxDepth ≤ state.depth then _ else _ : Parser α) task state = _
  rw [if_pos deep]

theorem nested_of_not (shallow : ¬task.settings.maxDepth ≤ state.depth) :
    nested parser task state =
      (do
        let result ← attempt parser
        setDepth (← decrease (← depth))
        resume result : Parser α) task (state.atDepth (state.depth + 1)) := by
  change (if task.settings.maxDepth ≤ state.depth then _ else _ : Parser α) task state = _
  rw [if_neg shallow]
  rfl

theorem nested_of_done {value : α} (shallow : ¬task.settings.maxDepth ≤ state.depth)
    (done : parser task (state.atDepth (state.depth + 1)) = .done value after)
    (sameDepth : after.depth = state.depth + 1) :
    nested parser task state = .done value (after.atDepth state.depth) := by
  obtain ⟨cursor, depth, progress⟩ := after
  cases sameDepth
  rw [nested_of_not shallow, bind_apply, attempt, done]
  rfl

theorem nested_of_failed {report : Report} (shallow : ¬task.settings.maxDepth ≤ state.depth)
    (failed : parser task (state.atDepth (state.depth + 1)) = .failed report after)
    (sameDepth : after.depth = state.depth + 1) :
    nested parser task state = .failed report (after.atDepth state.depth) := by
  obtain ⟨cursor, depth, progress⟩ := after
  cases sameDepth
  rw [nested_of_not shallow, bind_apply, attempt, failed]
  rfl

end Nested

/-! ## The state of the compilation -/

/-- Runs a computation of the compiler where the cursor stands. -/
def perform (computation : Environment → Compile α) : Parser α :=
  fun task state =>
    match computation task.environment state.progress with
    | (.ok value, progress) => .done value { state with progress := progress }
    | (.error halt, progress) => .failed halt.report { state with progress := progress }

section Perform

variable {computation : Environment → Compile α} {task : Task} {state : State} {after : Progress}

theorem perform_of_ok {value : α} (done : computation task.environment state.progress = (.ok value, after)) :
    perform computation task state = .done value { state with progress := after } := by
  rw [perform, done]

theorem perform_of_error {halt : Halt} (halted : computation task.environment state.progress = (.error halt, after)) :
    perform computation task state = .failed halt.report { state with progress := after } := by
  rw [perform, halted]

end Perform

end Parser

end LiveExpr.Pass
