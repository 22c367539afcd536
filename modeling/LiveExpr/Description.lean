import LiveExpr.Expression
import LiveExpr.Text.Quoted

/-!
Descriptions for developers: texts that show what a cell holds, what a name is bound to, what a table binds
and what an expression is. Strings are quoted, and the elements of vectors always show a point or an
exponent.
-/

namespace LiveExpr.Description

/-- Texts between brackets, separated by commas. -/
def bracketed (items : List String) : String :=
  "[" ++ ", ".intercalate items ++ "]"

def pair (first second : String) : String :=
  "(" ++ first ++ ", " ++ second ++ ")"

/-- A name followed by its fields, between braces. -/
def fields (name : String) (items : List (String × String)) : String :=
  name ++ " \x7b " ++ ", ".intercalate (items.map fun (field, text) => field ++ ": " ++ text) ++ " \x7d"

def content (bytes : Bytes) : String :=
  Text.quote (Bytes.decode bytes)

def elements (values : List Float) : String :=
  bracketed (values.map Number.pointed)

/-! ## Cells -/

def number (store : Store) (cell : NumberCell) : String :=
  "Variable(" ++ Number.plain (store.number cell) ++ ")"

def string (store : Store) (cell : StringCell) : String :=
  "StringVar(" ++ content (store.string cell) ++ ")"

def vector (store : Store) (cell : VectorCell) : String :=
  "VectorVar(" ++ elements (store.vector cell) ++ ")"

/-! ## Bindings and tables -/

def truth (value : Bool) : String :=
  if value then "true" else "false"

def binding (store : Store) : Binding → String
  | .scalar cell constant =>
    fields "Scalar" [("variable", number store cell), ("constant", truth constant)]
  | .string cell constant =>
    fields "String" [("variable", string store cell), ("constant", truth constant)]
  | .vector cell => "Vector(" ++ vector store cell ++ ")"
  | .function handle => "Function(Function(arity " ++ toString handle.arity ++ "))"

/-- What may be missing. -/
def optional : Option String → String
  | some text => "Some(" ++ text ++ ")"
  | none => "None"

def entries (table : SymbolTable) (describe : String → Binding → Option String) : String :=
  bracketed (table.entries.filterMap fun (name, binding) => describe name binding)

def table (store : Store) (table : SymbolTable) : String :=
  fields "SymbolTable" [
    ("variables", entries table fun name binding =>
      match binding with
      | .scalar cell _ => some (pair (Text.quote name) (Number.pointed (store.number cell)))
      | _ => none),
    ("strings", entries table fun name binding =>
      match binding with
      | .string cell _ => some (pair (Text.quote name) (content (store.string cell)))
      | _ => none),
    ("vectors", entries table fun name binding =>
      match binding with
      | .vector cell => some (pair (Text.quote name) (elements (store.vector cell)))
      | _ => none),
    ("functions", bracketed ((table.names .function).map Text.quote))]

/-! ## Expressions -/

def kind : Kind → String
  | .scalar => "Scalar"
  | .string => "String"
  | .vector => "Vector"

def expression (world : World) (expression : Expression) : String :=
  "Expression \x7b source: " ++ Text.quote expression.source ++ ", symbols: " ++
    table world.store (world.table expression.table) ++ ", kind: " ++
    optional (expression.kind.map kind) ++ ", .. \x7d"

end LiveExpr.Description
