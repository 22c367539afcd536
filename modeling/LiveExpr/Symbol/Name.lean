import LiveExpr.Builtin

/-!
Names of symbols. A symbol may carry any name of identifier shape that is neither a keyword nor a built-in
function.
-/

namespace LiveExpr

/-- The kinds of symbols that a table binds. -/
inductive SymbolKind where
  | scalar | string | vector | function
deriving DecidableEq, Repr

def SymbolKind.label : SymbolKind → String
  | scalar => "variable"
  | string => "string variable"
  | vector => "vector"
  | function => "function"

/-- The reasons for which a table refuses an operation. -/
inductive BindingError where
  | invalidName (name : String)
  | reservedName (name : String)
  | duplicateName (name : String)
  | notFound (name : String) (kind : SymbolKind)
  | invalidArity (name : String) (arity : Nat)
  | emptyVector (name : String)
deriving DecidableEq, Repr

def BindingError.message : BindingError → String
  | invalidName name => "'" ++ name ++ "' is not a valid symbol name"
  | reservedName name => "'" ++ name ++ "' is reserved"
  | duplicateName name => "symbol '" ++ name ++ "' already exists"
  | notFound name kind => "no " ++ kind.label ++ " named '" ++ name ++ "'"
  | invalidArity name arity =>
    "function '" ++ name ++ "' takes " ++ toString arity ++ " arguments, expected between 1 and 4"
  | emptyVector name => "vector '" ++ name ++ "' must have at least one element"

namespace Name

/-- An ASCII letter or underscore, then any number of these and digits. -/
def isIdentifier (name : String) : Bool :=
  match name.toList with
  | [] => false
  | first :: rest => (first.isAlpha || first == '_') && rest.all fun c => c.isAlphanum || c == '_'

def isReserved (name : String) : Bool :=
  (Terminal.keyword? name).isSome || (Builtin.find? name).isSome

/-- Accepts the names that a symbol may carry. -/
def validate (name : String) : Except BindingError Unit :=
  if !isIdentifier name then .error (.invalidName name)
  else if isReserved name then .error (.reservedName name)
  else .ok ()

end Name

end LiveExpr
