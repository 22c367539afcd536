import LiveExpr.Compile.Formula
import LiveExpr.Grammar

/-!
Compiling whole sources. A source is a program: statements separated by semicolons, whose result is that of
the last one. A statement that does not fit the grammar is reported and left out, and compilation goes on
behind it, so one compilation finds the problems of all statements.
-/

namespace LiveExpr

namespace Compile

def statement (environment : Environment) (bound : Nat) (lexemes : List Lexeme) :
    Compile (AnyNode × List Lexeme) :=
  match Grammar.endedStatement (Grammar.outermost environment.settings.maxDepth bound) lexemes with
  | .ok (tree, rest) => do
    let node ← tree.compile environment
    pure (node, rest)
  | .error stopped => do
    let node ← stopped.compile environment
    pure (node, [])

/-- Compiles the statements of a program, at most `count` of them and of the semicolons that stand alone. -/
def statements (environment : Environment) (bound : Nat) : (count : Nat) → List Lexeme → Progress →
    List AnyNode × Progress
  | 0, _, progress => ([], progress)
  | _ + 1, [], progress => ([], progress)
  | count + 1, first :: rest, progress =>
    if first.is .semicolon then statements environment bound count rest progress
    else
      match statement environment bound (first :: rest) progress with
      | (.ok (node, after), progress) =>
        let (nodes, progress) := statements environment bound count after progress
        (node :: nodes, progress)
      | (.error halt, progress) =>
        let progress := { progress with reports := halt.report :: progress.reports }
        let skip := (first :: rest).length - halt.rest.length
        statements environment bound count (Grammar.recover 0 skip (first :: rest)) progress

/-- Compiles a program. Without a single statement there must be something to report. -/
def program (environment : Environment) (lexemes : List Lexeme) (progress : Progress) :
    Option AnyNode × Progress :=
  let (nodes, progress) := statements environment lexemes.length lexemes.length lexemes progress
  match nodes.getLast? with
  | some result => (some (AnyNode.sequence nodes.dropLast result), progress)
  | none =>
    if progress.reports.isEmpty then
      (none, { progress with reports := [⟨.emptyFormula, .ending⟩] })
    else (none, progress)

end Compile

/-! ## Outcomes -/

/-- The outcome of a compilation. -/
structure Compilation where
  /-- The graph, if nothing was reported. -/
  root : Option AnyNode
  /-- What was reported, in order. -/
  reports : List Report
  /-- The names that the resolver has accepted, in order. -/
  accepted : List String
  world : World

namespace Compilation

/-- Whether the compilation has come to a graph. -/
def succeeded (compilation : Compilation) : Bool :=
  compilation.root.isSome

def malformedReport (malformed : Malformed) : Report :=
  ⟨.malformed malformed.cause, .malformed malformed⟩

/-- Compiles a source text. If any text in it is no token, only that is reported. -/
def ofSource (environment : Environment) (source : String) (world : World) : Compilation :=
  match tokenize source with
  | .error malformed => ⟨none, malformed.map malformedReport, [], world⟩
  | .ok lexemes =>
    let (root, progress) := Compile.program environment lexemes (.start world)
    { root := if progress.reports.isEmpty then root else none
      reports := progress.reports.reverse
      accepted := progress.accepted.reverse
      world := progress.world }

end Compilation

end LiveExpr
