import LiveExpr.Grammar.Tree

/-!
Readers of lexemes. A reader takes lexemes from the front of a list, or stops with the tree of what was read
until then.
-/

namespace LiveExpr

/-- A reader gives its result with the lexemes that it leaves, or the tree in which it stopped. -/
def Reader (α : Type) : Type :=
  List Lexeme → Except Tree (α × List Lexeme)

/-- Whether the lexeme is a terminal. -/
def Lexeme.is (lexeme : Lexeme) (terminal : Terminal) : Bool :=
  match lexeme.token with
  | .fixed found => found == terminal
  | _ => false

/-- Whether the lexeme is the sign of a comparison or of a test of strings. -/
def Lexeme.isRelation (sign : Lexeme) : Bool :=
  match sign.token with
  | .fixed terminal => terminal.isRelation
  | _ => false

def Lexeme.opens (lexeme : Lexeme) : Bool :=
  lexeme.is .leftParen || lexeme.is .leftBracket || lexeme.is .leftBrace

def Lexeme.closes (lexeme : Lexeme) : Bool :=
  lexeme.is .rightParen || lexeme.is .rightBracket || lexeme.is .rightBrace

def startsWith (terminal : Terminal) : List Lexeme → Bool
  | [] => false
  | first :: _ => first.is terminal

def nextText (lexemes : List Lexeme) : Option String :=
  lexemes.head?.map (·.text)

namespace Reader

@[always_inline, inline]
instance : Monad Reader where
  pure value := fun lexemes => .ok (value, lexemes)
  bind first next := fun lexemes =>
    match first lexemes with
    | .ok (value, rest) => next value rest
    | .error stopped => .error stopped

theorem pure_apply {α : Type} (value : α) (lexemes : List Lexeme) :
    (pure value : Reader α) lexemes = .ok (value, lexemes) := rfl

theorem bind_apply {α β : Type} (first : Reader α) (next : α → Reader β) (lexemes : List Lexeme) :
    (first >>= next) lexemes =
      match first lexemes with
      | .ok (value, rest) => next value rest
      | .error stopped => .error stopped := rfl

theorem bind_eq_ok {α β : Type} {first : Reader α} {next : α → Reader β} {lexemes rest : List Lexeme}
    {result : β} :
    (first >>= next) lexemes = .ok (result, rest) ↔
      ∃ value between, first lexemes = .ok (value, between) ∧ next value between = .ok (result, rest) := by
  rw [bind_apply]
  cases first lexemes with
  | error stopped => simp
  | ok pair =>
    constructor
    · exact fun done => ⟨pair.1, pair.2, rfl, done⟩
    · rintro ⟨_, _, equal, done⟩
      cases equal
      exact done

theorem bind_eq_error {α β : Type} {first : Reader α} {next : α → Reader β} {lexemes : List Lexeme}
    {stopped : Tree} :
    (first >>= next) lexemes = .error stopped ↔
      first lexemes = .error stopped ∨
        ∃ value between, first lexemes = .ok (value, between) ∧ next value between = .error stopped := by
  rw [bind_apply]
  cases first lexemes with
  | error tree => simp
  | ok pair =>
    constructor
    · exact fun done => .inr ⟨pair.1, pair.2, rfl, done⟩
    · rintro (impossible | ⟨_, _, equal, done⟩)
      · cases impossible
      · cases equal
        exact done

theorem bind_of_ok {α β : Type} {first : Reader α} {lexemes between : List Lexeme} {value : α}
    (read : first lexemes = .ok (value, between)) (next : α → Reader β) :
    (first >>= next) lexemes = next value between := by
  rw [bind_apply, read]

/-! ## Stopping -/

def stop {α : Type} (problem : Problem) : Reader α :=
  fun lexemes => .error (.stop ⟨problem, .ofNext lexemes⟩ lexemes)

/-- Stops because the next lexeme does not fit, or because there is none. -/
def stopUnexpected {α : Type} : Reader α
  | [] => stop .unexpectedEnd []
  | first :: rest => stop (.unexpected first.text) (first :: rest)

/-- Where the reader stops, puts its tree into the tree of what was read before. -/
def within {α : Type} (context : Tree → Tree) (reader : Reader α) : Reader α :=
  fun lexemes =>
    match reader lexemes with
    | .ok result => .ok result
    | .error stopped => .error (context stopped)

theorem within_eq_ok {α : Type} {reader : Reader α} {context : Tree → Tree} {lexemes : List Lexeme}
    {result : α × List Lexeme} : reader.within context lexemes = .ok result ↔ reader lexemes = .ok result := by
  unfold within
  cases reader lexemes <;> simp

theorem within_of_ok {α : Type} {reader : Reader α} {lexemes rest : List Lexeme} {value : α}
    (read : reader lexemes = .ok (value, rest)) (context : Tree → Tree) :
    reader.within context lexemes = .ok (value, rest) := by
  rw [within, read]

theorem within_of_error {α : Type} {reader : Reader α} {lexemes : List Lexeme} {stopped : Tree}
    (read : reader lexemes = .error stopped) (context : Tree → Tree) :
    reader.within context lexemes = .error (context stopped) := by
  rw [within, read]

/-! ## Single lexemes -/

def place : Reader Place :=
  fun lexemes => .ok (.ofNext lexemes, lexemes)

/-- The lexemes that are not read yet. -/
def remaining : Reader (List Lexeme) :=
  fun lexemes => .ok (lexemes, lexemes)

/-- Takes the next lexeme if it is of some use, and says of which. -/
def accept {α : Type} (use? : Lexeme → Option α) : Reader (Option α)
  | [] => .ok (none, [])
  | first :: rest =>
    match use? first with
    | some use => .ok (some use, rest)
    | none => .ok (none, first :: rest)

def acceptTerminal (terminal : Terminal) : Reader (Option Lexeme) :=
  accept fun first => if first.is terminal then some first else none

/-- Takes a terminal if it comes next, and says whether it did. -/
def takes (terminal : Terminal) : Reader Bool
  | [] => .ok (false, [])
  | first :: rest => if first.is terminal then .ok (true, rest) else .ok (false, first :: rest)

theorem accept_of_some {α : Type} {use? : Lexeme → Option α} {first : Lexeme} {use : α}
    (accepted : use? first = some use) (rest : List Lexeme) :
    accept use? (first :: rest) = .ok (some use, rest) := by
  rw [accept, accepted]

theorem accept_of_none {α : Type} {use? : Lexeme → Option α} {lexemes : List Lexeme}
    (refused : ∀ first ∈ lexemes.head?, use? first = none) : accept use? lexemes = .ok (none, lexemes) := by
  cases lexemes with
  | nil => rfl
  | cons first rest => rw [accept, refused first rfl]

theorem acceptTerminal_of_is {terminal : Terminal} {first : Lexeme} (spelled : first.is terminal = true)
    (rest : List Lexeme) : acceptTerminal terminal (first :: rest) = .ok (some first, rest) :=
  accept_of_some (if_pos spelled) rest

theorem acceptTerminal_of_not {terminal : Terminal} {lexemes : List Lexeme}
    (other : startsWith terminal lexemes = false) :
    acceptTerminal terminal lexemes = .ok (none, lexemes) := by
  refine accept_of_none fun first starts => ?_
  cases lexemes with
  | nil => cases starts
  | cons head rest =>
    cases starts
    exact if_neg (Bool.eq_false_iff.mp other)

theorem takes_of_is {terminal : Terminal} {first : Lexeme} (spelled : first.is terminal = true)
    (rest : List Lexeme) : takes terminal (first :: rest) = .ok (true, rest) := by
  rw [takes, if_pos spelled]

theorem takes_of_not {terminal : Terminal} {lexemes : List Lexeme}
    (other : startsWith terminal lexemes = false) : takes terminal lexemes = .ok (false, lexemes) := by
  cases lexemes with
  | nil => rfl
  | cons first rest => exact if_neg (Bool.eq_false_iff.mp other)

/-- Whether a terminal comes next. -/
def sees (terminal : Terminal) : Reader Bool :=
  fun lexemes => .ok (startsWith terminal lexemes, lexemes)

def require (terminal : Terminal) (wanted : Expectation) : Reader Lexeme
  | [] => stop (.expected wanted none) []
  | first :: rest =>
    if first.is terminal then .ok (first, rest)
    else stop (.expected wanted (some first.text)) (first :: rest)

theorem require_of_is {terminal : Terminal} {first : Lexeme} (spelled : first.is terminal = true)
    (wanted : Expectation) (rest : List Lexeme) :
    require terminal wanted (first :: rest) = .ok (first, rest) := by
  rw [require, if_pos spelled]

end Reader

end LiveExpr
