import LiveExpr.Grammar
import LiveExpr.Proofs.Compile.Halting

/-!
What is promised of readers. One promise relates what a reader takes to its result, however it ends; another says
where it comes to its end, and with what; the last one is about results alone.
-/

namespace LiveExpr

namespace Reader

variable {α β : Type}

/-! ## What is taken -/

/-- Whether what was taken from the lexemes is related to the result, or a tree was left that halts. -/
def Taken (relation : List Lexeme → α → Prop) (lexemes : List Lexeme) : Except Tree (α × List Lexeme) → Prop
  | .ok (value, rest) => ∃ taken, lexemes = taken ++ rest ∧ relation taken value
  | .error stopped => stopped.Halts

/-- Whether a reader always relates what it takes to its result, and stops in trees that halt. -/
def Reads (relation : List Lexeme → α → Prop) (reader : Reader α) : Prop :=
  ∀ lexemes, Taken relation lexemes (reader lexemes)

/-- What is taken behind a lexeme is taken together with it. -/
theorem Taken.behind {relation other : List Lexeme → α → Prop} (first : Lexeme) {rest : List Lexeme}
    {outcome : Except Tree (α × List Lexeme)} (taken : Taken relation rest outcome)
    (implies : ∀ taken value, relation taken value → other (first :: taken) value) :
    Taken other (first :: rest) outcome := by
  cases outcome with
  | error stopped => exact taken
  | ok pair =>
    rcases taken with ⟨taken, split, related⟩
    exact ⟨first :: taken, congrArg (first :: ·) split, implies _ _ related⟩

/-- What a reader does that takes a terminal if it comes next. -/
def Accepts (terminal : Terminal) (taken : List Lexeme) : Option Lexeme → Prop
  | some lexeme => taken = [lexeme] ∧ lexeme.is terminal = true
  | none => taken = []

/-- What a reader does that takes a terminal if it comes next, and says only whether it did. -/
def Skips (terminal : Terminal) (taken : List Lexeme) : Bool → Prop
  | true => ∃ lexeme, taken = [lexeme] ∧ lexeme.is terminal = true
  | false => taken = []

namespace Reads

variable {relation : List Lexeme → α → Prop} {next : List Lexeme → β → Prop}

theorem pure {value : α} (related : relation [] value) : (Pure.pure value : Reader α).Reads relation :=
  fun _ => ⟨[], rfl, related⟩

theorem bind {first : Reader α} {continuation : α → Reader β} (reads : first.Reads relation)
    (continued : ∀ taken value, relation taken value →
      (continuation value).Reads fun more result => next (taken ++ more) result) :
    (first >>= continuation).Reads next := by
  intro lexemes
  have outcome := reads lexemes
  rw [Reader.bind_apply]
  cases read : first lexemes with
  | error stopped =>
    rw [read] at outcome
    exact outcome
  | ok pair =>
    rw [read] at outcome
    rcases pair with ⟨value, between⟩
    rcases outcome with ⟨taken, split, related⟩
    have after := continued taken value related between
    dsimp only
    cases done : continuation value between with
    | error stopped =>
      rw [done] at after
      exact after
    | ok pair =>
      rw [done] at after
      rcases after with ⟨more, splitMore, holds⟩
      refine ⟨taken ++ more, ?_, holds⟩
      rw [split, splitMore, List.append_assoc]

theorem within {reader : Reader α} {context : Tree → Tree} (reads : reader.Reads relation)
    (halts : ∀ stopped : Tree, stopped.Halts → (context stopped).Halts) :
    (reader.within context).Reads relation := by
  intro lexemes
  have outcome := reads lexemes
  unfold Reader.within
  cases read : reader lexemes with
  | error stopped =>
    rw [read] at outcome
    exact halts stopped outcome
  | ok pair =>
    rw [read] at outcome
    exact outcome

theorem imp {reader : Reader α} {other : List Lexeme → α → Prop} (reads : reader.Reads relation)
    (implies : ∀ taken value, relation taken value → other taken value) : reader.Reads other := by
  intro lexemes
  have outcome := reads lexemes
  cases read : reader lexemes with
  | error stopped =>
    rw [read] at outcome
    exact outcome
  | ok pair =>
    rw [read] at outcome
    rcases outcome with ⟨taken, split, related⟩
    exact ⟨taken, split, implies _ _ related⟩

/-! ### Single lexemes -/

theorem stop (problem : Problem) : (Reader.stop problem : Reader α).Reads relation :=
  fun _ => .stop _ _

theorem stopUnexpected : (Reader.stopUnexpected : Reader α).Reads relation
  | [] => .stop _ _
  | _ :: _ => .stop _ _

theorem place : Reader.place.Reads fun taken _ => taken = [] :=
  fun _ => ⟨[], rfl, rfl⟩

theorem remaining : Reader.remaining.Reads fun taken _ => taken = [] :=
  fun _ => ⟨[], rfl, rfl⟩

theorem sees (terminal : Terminal) : (Reader.sees terminal).Reads fun taken _ => taken = [] :=
  fun _ => ⟨[], rfl, rfl⟩

theorem accept (use? : Lexeme → Option α) :
    (Reader.accept use?).Reads fun taken found =>
      (found = none ∧ taken = []) ∨ ∃ lexeme use, found = some use ∧ use? lexeme = some use ∧ taken = [lexeme] := by
  intro lexemes
  unfold Reader.accept
  split
  · exact ⟨[], rfl, .inl ⟨rfl, rfl⟩⟩
  · next first rest =>
    split
    · next use accepted => exact ⟨[first], rfl, .inr ⟨first, use, rfl, accepted, rfl⟩⟩
    · exact ⟨[], rfl, .inl ⟨rfl, rfl⟩⟩

theorem acceptTerminal (terminal : Terminal) : (Reader.acceptTerminal terminal).Reads (Accepts terminal) := by
  refine (accept _).imp ?_
  rintro taken _ (⟨rfl, rfl⟩ | ⟨lexeme, use, rfl, accepted, rfl⟩)
  · rfl
  · split at accepted
    · next spelled =>
      cases accepted
      exact ⟨rfl, spelled⟩
    · cases accepted

theorem takes (terminal : Terminal) : (Reader.takes terminal).Reads (Skips terminal) := by
  intro lexemes
  unfold Reader.takes
  split
  · exact ⟨[], rfl, rfl⟩
  · next first rest =>
    split
    · next spelled => exact ⟨[first], rfl, first, rfl, spelled⟩
    · exact ⟨[], rfl, rfl⟩

theorem require (terminal : Terminal) (wanted : Expectation) :
    (Reader.require terminal wanted).Reads fun taken lexeme =>
      taken = [lexeme] ∧ lexeme.is terminal = true := by
  intro lexemes
  unfold Reader.require
  split
  · exact .stop _ _
  · next first rest =>
    split
    · next spelled => exact ⟨[first], rfl, rfl, spelled⟩
    · exact .stop _ _

end Reads

/-! ## What is given -/

/-- Whether a reader comes from the first lexemes to the second ones, to a value with a property. -/
def Gives (property : α → Prop) (reader : Reader α) (lexemes rest : List Lexeme) : Prop :=
  ∃ value, reader lexemes = .ok (value, rest) ∧ property value

namespace Gives

variable {property : α → Prop} {next : β → Prop} {lexemes between rest : List Lexeme}

theorem pure {value : α} (holds : property value) : (Pure.pure value : Reader α).Gives property lexemes lexemes :=
  ⟨value, rfl, holds⟩

theorem imp {reader : Reader α} (gives : reader.Gives property lexemes rest) {weaker : α → Prop}
    (implies : ∀ value, property value → weaker value) : reader.Gives weaker lexemes rest := by
  rcases gives with ⟨value, read, holds⟩
  exact ⟨value, read, implies value holds⟩

theorem of_eq {reader other : Reader α} (same : reader lexemes = other lexemes)
    (gives : other.Gives property lexemes rest) : reader.Gives property lexemes rest := by
  unfold Gives
  rw [same]
  exact gives

theorem bind {first : Reader α} {continuation : α → Reader β} (gives : first.Gives property lexemes between)
    (continued : ∀ value, property value → (continuation value).Gives next between rest) :
    (first >>= continuation).Gives next lexemes rest := by
  rcases gives with ⟨value, read, holds⟩
  rcases continued value holds with ⟨result, readOn, holdsOn⟩
  exact ⟨result, (bind_of_ok read continuation).trans readOn, holdsOn⟩

theorem within {reader : Reader α} (gives : reader.Gives property lexemes rest) (context : Tree → Tree) :
    (reader.within context).Gives property lexemes rest := by
  rcases gives with ⟨value, read, holds⟩
  exact ⟨value, within_of_ok read context, holds⟩

theorem place : Reader.place.Gives (fun _ => True) lexemes lexemes :=
  ⟨_, rfl, trivial⟩

theorem remaining : Reader.remaining.Gives (fun _ => True) lexemes lexemes :=
  ⟨_, rfl, trivial⟩

theorem sees (terminal : Terminal) :
    (Reader.sees terminal).Gives (· = startsWith terminal lexemes) lexemes lexemes :=
  ⟨_, rfl, rfl⟩

theorem takes {terminal : Terminal} {first : Lexeme} (spelled : first.is terminal = true) :
    (Reader.takes terminal).Gives (· = true) (first :: rest) rest :=
  ⟨true, takes_of_is spelled rest, rfl⟩

theorem skips {terminal : Terminal} (other : startsWith terminal lexemes = false) :
    (Reader.takes terminal).Gives (· = false) lexemes lexemes :=
  ⟨false, takes_of_not other, rfl⟩

/-- Where the terminal comes next, a reader that asks for it goes on behind it. -/
theorem taking {terminal : Terminal} {first : Lexeme} (spelled : first.is terminal = true) {present absent : Reader α}
    (gives : present.Gives property lexemes rest) :
    (Reader.takes terminal >>= fun taken => if taken then present else absent).Gives property
      (first :: lexemes) rest := by
  refine (takes spelled).bind ?_
  rintro _ rfl
  exact gives

theorem skipping {terminal : Terminal} (other : startsWith terminal lexemes = false) {present absent : Reader α}
    (gives : absent.Gives property lexemes rest) :
    (Reader.takes terminal >>= fun taken => if taken then present else absent).Gives property lexemes rest := by
  refine (skips other).bind ?_
  rintro _ rfl
  exact gives

theorem accepting {terminal : Terminal} {first : Lexeme} (spelled : first.is terminal = true) :
    (Reader.acceptTerminal terminal).Gives (· = some first) (first :: rest) rest :=
  ⟨some first, acceptTerminal_of_is spelled rest, rfl⟩

theorem refusing {terminal : Terminal} (other : startsWith terminal lexemes = false) :
    (Reader.acceptTerminal terminal).Gives (· = none) lexemes lexemes :=
  ⟨none, acceptTerminal_of_not other, rfl⟩

theorem require {terminal : Terminal} {first : Lexeme} (spelled : first.is terminal = true)
    (wanted : Expectation) : (Reader.require terminal wanted).Gives (fun _ => True) (first :: rest) rest :=
  ⟨first, require_of_is spelled wanted rest, trivial⟩

end Gives

/-! ## What is made -/

def Makes (property : α → Prop) (reader : Reader α) : Prop :=
  ∀ lexemes value rest, reader lexemes = .ok (value, rest) → property value

namespace Makes

variable {property : α → Prop} {next : β → Prop}

theorem pure {value : α} (holds : property value) : (Pure.pure value : Reader α).Makes property := by
  rintro lexemes _ _ ⟨⟩
  exact holds

theorem bind {first : Reader α} {continuation : α → Reader β} (makes : first.Makes property)
    (continued : ∀ value, property value → (continuation value).Makes next) :
    (first >>= continuation).Makes next := by
  intro lexemes result rest read
  obtain ⟨value, between, readFirst, readNext⟩ := Reader.bind_eq_ok.mp read
  exact continued value (makes lexemes value between readFirst) between result rest readNext

/-- Where nothing depends on the first result. -/
theorem later (first : Reader α) {continuation : α → Reader β} (makes : ∀ value, (continuation value).Makes next) :
    (first >>= continuation).Makes next :=
  bind (fun _ _ _ _ => trivial : first.Makes fun _ => True) fun value _ => makes value

theorem within {reader : Reader α} (makes : reader.Makes property) (context : Tree → Tree) :
    (reader.within context).Makes property :=
  fun lexemes value rest read => makes lexemes value rest (Reader.within_eq_ok.mp read)

theorem imp {reader : Reader α} {other : α → Prop} (makes : reader.Makes property)
    (implies : ∀ value, property value → other value) : reader.Makes other :=
  fun lexemes value rest read => implies value (makes lexemes value rest read)

theorem stop (problem : Problem) : (Reader.stop problem : Reader α).Makes property :=
  nofun

theorem stopUnexpected : (Reader.stopUnexpected : Reader α).Makes property
  | [], _, _, read => nomatch read
  | _ :: _, _, _, read => nomatch read

end Makes

end Reader

end LiveExpr
