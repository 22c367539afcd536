import LiveExpr.Expression
import LiveExpr.File
import LiveExpr.Text.Blank

/-!
The command that evaluates one formula. Its arguments bind variables and give the formula, or a file to read
it from; its outcome is a status, a text for the standard output and one for the standard error.
-/

namespace LiveExpr

/-! ## Arguments -/

/-- The options that have a value. -/
inductive Parameter where
  | file | scalar | string | vector
deriving DecidableEq, Repr

/-- What the arguments ask for. -/
structure Command where
  constants : Bool
  file : Option String
  expression : Option String
  scalars : List (String × Float)
  strings : List (String × String)
  vectors : List (String × List Float)

namespace Command

def empty : Command :=
  ⟨false, none, none, [], [], []⟩

/-- A name and a text, separated by the first equals sign. -/
def assignment? (text : String) : Option (String × String) :=
  let characters := text.toList
  match characters.dropWhile (· != '=') with
  | [] => none
  | _ :: value => some (String.ofList (characters.takeWhile (· != '=')), String.ofList value)

/-- A number, with blank characters around it. -/
def number? (text : String) : Option Float :=
  Number.read? (Text.trim text)

def scalar? (text : String) : Option (String × Float) := do
  let (name, value) ← assignment? text
  let value ← number? value
  pure (name, value)

def vector? (text : String) : Option (String × List Float) := do
  let (name, values) ← assignment? text
  let values ← (Text.separated ',' values.toList).mapM fun part => number? (String.ofList part)
  pure (name, values)

/-- Gives a parameter a value, if it accepts the text. There is one file at most, and its path is not
empty. -/
def assign (command : Command) : Parameter → String → Option Command
  | .file, path =>
    if path.isEmpty || command.file.isSome then none else some { command with file := some path }
  | .scalar, text => (scalar? text).map fun pair => { command with scalars := command.scalars ++ [pair] }
  | .string, text => (assignment? text).map fun pair => { command with strings := command.strings ++ [pair] }
  | .vector, text => (vector? text).map fun pair => { command with vectors := command.vectors ++ [pair] }

def express (command : Command) (text : String) : Option Command :=
  if command.expression.isSome then none else some { command with expression := some text }

/-- Asks for the constants, at most once. -/
def withConstants (command : Command) : Option Command :=
  if command.constants then none else some { command with constants := true }

/-! ## Options -/

/-- The content of one argument with options: how often it asks for the constants, and the parameter at its
end with the value that is attached. -/
structure Options where
  constants : Nat
  parameter : Option (Parameter × Option String)

/-- The value attached to a short option. An equals sign before it is not a part of it. -/
def attached : List Char → Option String
  | [] => none
  | '=' :: value => some (String.ofList value)
  | value => some (String.ofList value)

def shortOptions? : List Char → Option Options
  | [] => some ⟨0, none⟩
  | 'c' :: rest => (shortOptions? rest).map fun more => { more with constants := more.constants + 1 }
  | 'f' :: rest => some ⟨0, some (.file, attached rest)⟩
  | _ => none

def longOption? (text : String) : Option Options :=
  let (name, value) := match assignment? text with
    | some (name, value) => (name, some value)
    | none => (text, none)
  match name with
  | "constants" => if value.isSome then none else some ⟨1, none⟩
  | "file" => some ⟨0, some (.file, value)⟩
  | "var" => some ⟨0, some (.scalar, value)⟩
  | "string" => some ⟨0, some (.string, value)⟩
  | "vector" => some ⟨0, some (.vector, value)⟩
  | _ => none

/-- Whether an argument is taken as it is: a hyphen marks options, unless it stands alone. -/
def isOperand (argument : String) : Bool :=
  argument == "-" || argument.toList.head? != some '-'

def options? (argument : String) : Option Options :=
  match argument.toList with
  | '-' :: '-' :: name => longOption? (String.ofList name)
  | '-' :: letters => shortOptions? letters
  | _ => none

/-- Asks for the constants as often as an argument does. -/
def withConstantsTimes (command : Command) : Nat → Option Command
  | 0 => some command
  | times + 1 => command.withConstants.bind (withConstantsTimes · times)

/-! ## Reading the arguments -/

/-- Reads the arguments. Behind two hyphens that stand alone, none is an option. -/
def read (command : Command) : List String → Option Command
  | [] => some command
  | argument :: rest =>
    if argument == "--" then rest.foldlM express command
    else if isOperand argument then (command.express argument).bind (read · rest)
    else
      match options? argument with
      | none => none
      | some options =>
        match command.withConstantsTimes options.constants with
        | none => none
        | some command =>
          match options.parameter with
          | none => read command rest
          | some (parameter, some value) => (command.assign parameter value).bind (read · rest)
          | some (parameter, none) =>
            match rest with
            | [] => none
            | value :: rest =>
              if isOperand value then (command.assign parameter value).bind (read · rest) else none

/-- The command that the arguments spell. It has an expression or a file, and not both. -/
def ofArguments? (arguments : List String) : Option Command := do
  let command ← read empty arguments
  if command.expression.isSome != command.file.isSome then some command else none

end Command

/-! ## Outcomes -/

/-- What the command leaves behind. -/
structure Outcome where
  status : Nat
  output : String
  errors : String
deriving DecidableEq, Repr

namespace Outcome

def success (line : String) : Outcome :=
  ⟨0, line ++ "\n", ""⟩

def failure (lines : List String) : Outcome :=
  ⟨1, "", String.join (lines.map (· ++ "\n"))⟩

/-- The arguments are not those of the command. -/
def misuse : Outcome :=
  ⟨2, "", "usage: [-c] [--var NAME=VALUE] [--string NAME=TEXT] [--vector NAME=LIST] (-f PATH | EXPRESSION)\n"⟩

end Outcome

namespace Command

/-- Binds what the arguments ask for. The first binding that is refused ends this. -/
def bind (command : Command) (table : TableHandle) (world : World) : Bound := do
  let world := if command.constants then (world.addConstants table).2 else world
  let world ← command.scalars.foldlM
    (fun world (name, value) => world.createScalar table name value false) world
  let world ← command.strings.foldlM
    (fun world (name, text) => world.createString table name (Bytes.ofString text) false) world
  command.vectors.foldlM (fun world (name, values) => world.createVector table name values) world

/-- Evaluates a source. There is no outcome if an entry into a loop takes more than `fuel` rounds. -/
def evaluate (fuel : Nat) (command : Command) (source : String) : Option Outcome :=
  let (table, world) := World.empty.newTable
  match command.bind table world with
  | .error error => some (.failure [error.message])
  | .ok world =>
    match Expression.ofSource source table none world with
    | (.error diagnostics, _) => some (.failure (diagnostics.map (·.text)))
    | (.ok (expression, _), world) =>
      (expression.evaluate fuel world.store).map fun (value, _) => .success value.display

def sourceOf : Except Unreadable Bytes → Except Unreadable String
  | .error cause => .error cause
  | .ok content =>
    match Bytes.text? content with
    | some source => .ok source
    | none => .error .notText

/-- Runs the command. The content of a file, or why it cannot be had, comes from `contentOf`. -/
def run (fuel : Nat) (contentOf : String → Except Unreadable Bytes) (command : Command) : Option Outcome :=
  match command.file, command.expression with
  | some path, _ =>
    match sourceOf (contentOf path) with
    | .ok source => command.evaluate fuel source
    | .error cause =>
      some (.failure ["Failed to read the input file '" ++ path ++ "': " ++ cause.reason])
  | none, some source => command.evaluate fuel source
  | none, none => some (.failure [])

end Command

end LiveExpr
