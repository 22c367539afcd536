import LiveExpr.Compile.Program
import LiveExpr.Value

/-!
Expressions: what the host holds on to. An expression is compiled against the table that is registered with
it, and keeps its graph until it is released or compiled again, even if another table is registered.
-/

namespace LiveExpr

/-- A graph with the source and the settings that it was compiled from. -/
structure Compiled where
  source : String
  settings : Settings
  root : AnyNode

structure Expression where
  table : TableHandle
  compiled : Option Compiled

/-- Makes expressions, and keeps what the last compilation had to say. -/
structure Compiler where
  settings : Settings
  diagnostics : List Diagnostic
  /-- The names that the resolver has accepted. -/
  resolved : List String

/-- The diagnostics of a compilation. -/
def Compilation.diagnostics (compilation : Compilation) (source : String) : List Diagnostic :=
  compilation.reports.map (Diagnostic.ofReport source)

namespace Expression

def new (world : World) : Expression × World :=
  let (table, world) := world.newTable
  (⟨table, none⟩, world)

def register (expression : Expression) (table : TableHandle) : Expression :=
  { expression with table := table }

/-- Drops the graph and keeps the table. -/
def release (expression : Expression) : Expression :=
  { expression with compiled := none }

def isCompiled (expression : Expression) : Bool :=
  expression.compiled.isSome

/-- The source of the graph; empty if there is none. -/
def source (expression : Expression) : String :=
  (expression.compiled.map (·.source)).getD ""

/-- The kind of the values. -/
def kind (expression : Expression) : Option Kind :=
  expression.compiled.map (·.root.kind)

/-! ## Compiling -/

/-- Compiles a source against the registered table. If anything is reported, the expression is not compiled
afterwards. -/
def compile (expression : Expression) (settings : Settings) (resolver : Option Resolver)
    (source : String) (world : World) : Expression × Compilation :=
  let compilation := Compilation.ofSource ⟨expression.table, resolver, settings⟩ source world
  ({ expression with compiled := compilation.root.map (⟨source, settings, ·⟩) }, compilation)

/-- Compiles the source of an expression once more, against its table. The copy has variables of its own for
what the source declares, and is not compiled if the table no longer has every name. -/
def clone (expression : Expression) (world : World) : Expression × World :=
  match expression.compiled with
  | none => (expression, world)
  | some compiled =>
    let (copy, compilation) := expression.compile compiled.settings none compiled.source world
    (copy, compilation.world)

/-- A resolver that accepts every name. -/
def acceptAll : Resolver :=
  fun _ _ world => (.resolved, world)

/-- An expression with standard settings and the names that the resolver has accepted, or diagnostics. -/
def ofSource (source : String) (table : TableHandle) (resolver : Option Resolver) (world : World) :
    Except (List Diagnostic) (Expression × List String) × World :=
  let (expression, compilation) := (Expression.mk table none).compile .standard resolver source world
  (if compilation.succeeded then .ok (expression, compilation.accepted)
    else .error (compilation.diagnostics source), compilation.world)

/-! ## Evaluating -/

/-- The value as a number: NaN if the expression is not compiled, or if it is no scalar, which is evaluated
for its effects. -/
def value (fuel : Nat) (expression : Expression) : Eval Float :=
  match expression.compiled with
  | some compiled => evalScalar fuel compiled.root
  | none => pure Number.nan

/-- The value; NaN if the expression is not compiled. -/
def evaluate (fuel : Nat) (expression : Expression) : Eval Value :=
  match expression.compiled with
  | some compiled => compiled.root.evaluate fuel
  | none => pure (.number Number.nan)

end Expression

namespace Compiler

def withSettings (settings : Settings) : Compiler :=
  ⟨settings, [], []⟩

/-- Compiles a source into an expression. -/
def compile (compiler : Compiler) (source : String) (resolver : Option Resolver)
    (expression : Expression) (world : World) : Compiler × Expression × World :=
  let (expression, compilation) := expression.compile compiler.settings resolver source world
  ({ compiler with
      diagnostics := compilation.diagnostics source
      resolved := compilation.accepted },
    expression, compilation.world)

end Compiler

/-- Compiles a source with the three constants at hand, and evaluates it. There is no value if an entry into
a loop takes more than `fuel` rounds. -/
def evaluate (fuel : Nat) (source : String) : Except (List Diagnostic) (Option Value) :=
  let (table, world) := World.empty.newTable
  let (_, world) := world.addConstants table
  match Expression.ofSource source table none world with
  | (.error diagnostics, _) => .error diagnostics
  | (.ok (expression, _), world) => .ok ((expression.evaluate fuel world.store).map (·.1))

end LiveExpr
