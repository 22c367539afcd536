import LiveExpr.Compile.Progress

/-!
What the names in a formula stand for: what the formula has declared, then what the table binds, then what
the resolver makes of them.
-/

namespace LiveExpr.Compile

variable (environment : Environment)

/-- The binding of a name among the declared variables or in the table. -/
def known? (name : String) : Compile (Option Binding) :=
  view fun progress =>
    match progress.locals.lookup name with
    | some binding => some binding
    | none => (progress.world.table environment.table).lookup name

/-- The binding of a name that the resolver has accepted: its own, or else a new scalar. -/
def bindAccepted (name : String) (place : Place) : Compile (Option Binding) := fun progress =>
  let progress := { progress with accepted := name :: progress.accepted }
  match (progress.world.table environment.table).lookup name with
  | some binding => (.ok (some binding), progress)
  | none =>
    match progress.world.createScalar environment.table name 0.0 false with
    | .ok world =>
      (.ok ((world.table environment.table).lookup name), { progress with world := world })
    | .error error => (do reportName name (.rejected error) place; pure none : Compile _) progress

def askResolver (resolver : Resolver) (name : String) (place : Place) : Compile (Option Binding) :=
  fun progress =>
    let (resolution, world) := resolver name environment.table progress.world
    let progress := { progress with world := world }
    match resolution with
    | .resolved => bindAccepted environment name place progress
    | .failed reason => (do reportName name (.refused reason) place; pure none : Compile _) progress

/-- The binding of the name that a lexeme spells. A name without one is reported once. -/
def resolve (word : Lexeme) : Compile (Option Binding) := do
  match ← known? environment word.text with
  | some binding => pure (some binding)
  | none =>
    if (← view (·.reported)).contains word.text then pure none
    else
      match environment.resolver with
      | some resolver => askResolver environment resolver word.text (.lexeme word)
      | none =>
        reportName word.text (.undefinedSymbol word.text) (.lexeme word)
        pure none

def mayDeclare (word : Lexeme) : Compile Bool := do
  if Name.isReserved word.text then
    report (.reservedName word.text) (.lexeme word)
    pure false
  else if (← known? environment word.text).isSome then
    report (.alreadyDefined word.text) (.lexeme word)
    pure false
  else pure true

def declare (allowed : Bool) (name : String) (binding : Binding) : Compile Unit :=
  if allowed then
    change fun progress => { progress with locals := progress.locals.insert name binding }
  else pure ()

end LiveExpr.Compile
