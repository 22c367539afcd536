import LiveExpr.Diagnostic
import LiveExpr.World

/-!
The state of one compilation, and computations on it. Problems with symbols and kinds are recorded and
compilation goes on; a problem with the grammar halts the statement at hand. What was recorded and bound
before a halt stays.
-/

namespace LiveExpr

/-- The choices that a compilation is made with. -/
structure Settings where
  /-- Whether what is constant is worked out, and constants are replaced by their values. -/
  folding : Bool
  /-- How many levels of nesting a formula may have. -/
  maxDepth : Nat
  /-- How many rounds an entry into a loop may take. -/
  loopLimit : Option Nat
deriving DecidableEq, Repr

namespace Settings

/-- Folding, forty levels, and loops without a limit. -/
def standard : Settings := ⟨true, 40, none⟩

end Settings

/-- The answer of a resolver. -/
inductive Resolution where
  /-- The name may be used. Unless the resolver has bound it, a scalar is created for it. -/
  | resolved
  | failed (reason : String)
deriving DecidableEq, Repr

/-- Decides what becomes of a name that is not bound in the table at hand, which it may change. -/
abbrev Resolver := String → TableHandle → World → Resolution × World

/-- What a compilation is made against. -/
structure Environment where
  table : TableHandle
  resolver : Option Resolver
  settings : Settings

/-- The state of a compilation. The lists have their latest element first. -/
structure Progress where
  world : World
  /-- The variables that the formula itself has declared. -/
  locals : NameMap Binding
  reports : List Report
  /-- The names that the resolver has accepted. -/
  accepted : List String
  /-- The names that a symbol problem has been reported for. -/
  reported : List String

def Progress.start (world : World) : Progress :=
  ⟨world, .empty, [], [], []⟩

/-- The end of a statement that does not fit the grammar: why, and the lexemes in front of which it ended. -/
structure Halt where
  report : Report
  rest : List Lexeme

def Compile (α : Type) : Type :=
  Progress → Except Halt α × Progress

namespace Compile

@[always_inline, inline]
instance : Monad Compile where
  pure value := fun progress => (.ok value, progress)
  bind first next := fun progress =>
    match first progress with
    | (.ok value, progress) => next value progress
    | (.error halt, progress) => (.error halt, progress)

theorem pure_apply {α : Type} (value : α) (progress : Progress) :
    (pure value : Compile α) progress = (.ok value, progress) := rfl

theorem bind_apply {α β : Type} (first : Compile α) (next : α → Compile β) (progress : Progress) :
    (first >>= next) progress =
      match first progress with
      | (.ok value, progress) => next value progress
      | (.error halt, progress) => (.error halt, progress) := rfl

theorem bind_of_ok {α β : Type} {first : Compile α} {next : α → Compile β} {before after : Progress} {value : α}
    (done : first before = (.ok value, after)) : (first >>= next) before = next value after := by
  rw [bind_apply, done]

theorem bind_of_error {α β : Type} {first : Compile α} {next : α → Compile β} {before after : Progress}
    {halt : Halt} (halted : first before = (.error halt, after)) :
    (first >>= next) before = (.error halt, after) := by
  rw [bind_apply, halted]

@[inline]
def view {α : Type} (look : Progress → α) : Compile α :=
  fun progress => (.ok (look progress), progress)

theorem view_bind {α β : Type} (look : Progress → α) (next : α → Compile β) (progress : Progress) :
    (view look >>= next) progress = next (look progress) progress := rfl

@[inline]
def change (effect : Progress → Progress) : Compile Unit :=
  fun progress => (.ok (), effect progress)

def halt {α : Type} (problem : Problem) (place : Place) (rest : List Lexeme) : Compile α :=
  fun progress => (.error ⟨⟨problem, place⟩, rest⟩, progress)

def report (problem : Problem) (place : Place) : Compile Unit :=
  change fun progress => { progress with reports := ⟨problem, place⟩ :: progress.reports }

/-- Records a problem with a symbol, and that the name need not be reported again. -/
def reportName (name : String) (problem : Problem) (place : Place) : Compile Unit :=
  change fun progress =>
    { progress with
      reports := ⟨problem, place⟩ :: progress.reports
      reported := name :: progress.reported }

def allocate {α : Type} (new : Store → α × Store) : Compile α :=
  fun progress =>
    let (cell, store) := new progress.world.store
    (.ok cell, { progress with world := { progress.world with store := store } })

end Compile

end LiveExpr
