import LiveExpr.Proofs.Grammar.Proper

/-!
What formulas do with names, in the order in which they do it: names are looked up, and names are declared. The
mentions of a tree are those that stand in its lexemes.
-/

namespace LiveExpr

/-- A name in a formula that is not called. -/
inductive Mention where
  /-- It stands for a value, or for what is assigned to. -/
  | sought (name : String)
  | declared (name : String)
deriving DecidableEq

namespace Mention

/-- The name, if it is looked up. -/
def sought? : Mention → Option String
  | sought name => some name
  | declared _ => none

def declared? : Mention → Option String
  | sought _ => none
  | declared name => some name

end Mention

/-- What is done with names, in order. -/
inductive Usage where
  | nothing
  /-- A name stands for a value, or for what is assigned to. -/
  | seek (name : String) (rest : Usage)
  /-- A name is declared. It is known behind its initializer only. -/
  | declare (name : String) (initializer rest : Usage)

namespace Usage

/-- The first and then the second. -/
def append : Usage → Usage → Usage
  | nothing, second => second
  | seek name rest, second => seek name (rest.append second)
  | declare name initializer rest, second => declare name initializer (rest.append second)

instance : Append Usage := ⟨append⟩

@[simp] theorem nothing_append (usage : Usage) : nothing ++ usage = usage := rfl

@[simp] theorem seek_append (name : String) (rest usage : Usage) :
    seek name rest ++ usage = seek name (rest ++ usage) := rfl

@[simp] theorem declare_append (name : String) (initializer rest usage : Usage) :
    declare name initializer rest ++ usage = declare name initializer (rest ++ usage) := rfl

@[simp] theorem append_nothing (usage : Usage) : usage ++ nothing = usage := by
  induction usage with
  | nothing => rfl
  | seek name rest induction => rw [seek_append, induction]
  | declare name initializer rest _ induction => rw [declare_append, induction]

/-- The names that are declared, in the order of their declarations. -/
def declared : Usage → List String
  | nothing => []
  | seek _ rest => rest.declared
  | declare name initializer rest => name :: (initializer.declared ++ rest.declared)

/-- The names that are looked up, in order. -/
def sought : Usage → List String
  | nothing => []
  | seek name rest => name :: rest.sought
  | declare _ initializer rest => initializer.sought ++ rest.sought

/-- The names that are looked up or declared, in the order in which they stand in the formula. -/
def mentions : Usage → List Mention
  | nothing => []
  | seek name rest => .sought name :: rest.mentions
  | declare name initializer rest => .declared name :: (initializer.mentions ++ rest.mentions)

theorem filterMap_sought?_mentions (usage : Usage) : usage.mentions.filterMap Mention.sought? = usage.sought := by
  induction usage with
  | nothing => rfl
  | seek name rest induction => exact congrArg _ induction
  | declare name initializer rest inside behind =>
    rw [sought, ← inside, ← behind, ← List.filterMap_append]
    rfl

theorem filterMap_declared?_mentions (usage : Usage) :
    usage.mentions.filterMap Mention.declared? = usage.declared := by
  induction usage with
  | nothing => rfl
  | seek name rest induction => exact induction
  | declare name initializer rest inside behind =>
    rw [declared, ← inside, ← behind, ← List.filterMap_append]
    rfl

@[simp] theorem mentions_append (first second : Usage) :
    (first ++ second).mentions = first.mentions ++ second.mentions := by
  induction first with
  | nothing => rfl
  | seek name rest induction => exact congrArg _ induction
  | declare name initializer rest _ induction => simp [mentions, induction]

@[simp] theorem declared_append (first second : Usage) :
    (first ++ second).declared = first.declared ++ second.declared := by
  induction first with
  | nothing => rfl
  | seek name rest induction => exact induction
  | declare name initializer rest _ induction => simp [declared, induction]

/-- Whether a declaration of the name is among what is done, with the initializer. -/
inductive Declares (name : String) : Usage → Usage → Prop
  | here (initializer rest : Usage) : Declares name (declare name initializer rest) initializer
  | inside (other : String) {content : Usage} (rest : Usage) {initializer : Usage}
      (declares : Declares name content initializer) : Declares name (declare other content rest) initializer
  | afterDeclaration (other : String) (content : Usage) {rest initializer : Usage}
      (declares : Declares name rest initializer) : Declares name (declare other content rest) initializer
  | afterName (other : String) {rest initializer : Usage} (declares : Declares name rest initializer) :
      Declares name (seek other rest) initializer

end Usage

/-! ## Trees -/

mutual

def Tree.usage : Tree → Usage
  | .number _ | .text _ | .stop _ _ => .nothing
  | .name word _ => .seek word.text .nothing
  | .call _ arguments _ => usageOfPlaced arguments
  | .negation _ operand | .affirmation _ operand | .denial _ operand | .size _ operand => operand.usage
  | .arithmetic first rest => first.usage ++ usageOfArithmetic rest
  | .logical _ first rest => first.usage ++ usageOfLogical rest
  | .relation _ left right => left.usage ++ right.usage
  | .conditional _ condition _ consequent alternative => condition.usage ++ (consequent.usage ++ alternative.usage)
  | .conditionalOnly _ condition _ consequent => condition.usage ++ consequent.usage
  | .element _ base _ index => base.usage ++ index.usage
  | .range _ base _ first _ last => base.usage ++ (first.usage ++ last.usage)
  | .block statements result => usageOfStatements statements ++ result.usage
  | .loop initializer _ condition step body =>
    initializer.usage ++ (condition.usage ++ (step.usage ++ body.usage))
  | .choice cases _ otherwise => usageOfCases cases ++ otherwise.usage
  | .assignment word _ _ value => .seek word.text value.usage
  | .elementAssignment word _ index _ value => .seek word.text (index.usage ++ value.usage)
  | .declaration word _ value | .filledVector word _ _ value => .declare word.text value.usage .nothing
  | .listedVector word _ _ elements => .declare word.text (usageOfPlaced elements) .nothing
  | .andThen done stopped => done.usage ++ stopped.usage

def usageOfPlaced : List (Place × Tree) → Usage
  | [] => .nothing
  | (_, tree) :: rest => tree.usage ++ usageOfPlaced rest

def usageOfArithmetic : List ((BinaryOperator × Lexeme) × Tree) → Usage
  | [] => .nothing
  | (_, tree) :: rest => tree.usage ++ usageOfArithmetic rest

def usageOfLogical : List ((BinaryOperator × Place) × Tree) → Usage
  | [] => .nothing
  | (_, tree) :: rest => tree.usage ++ usageOfLogical rest

def usageOfStatements : List Tree → Usage
  | [] => .nothing
  | first :: rest => first.usage ++ usageOfStatements rest

def usageOfCases : List ((Place × Tree) × (Place × Tree)) → Usage
  | [] => .nothing
  | ((_, condition), (_, result)) :: rest => condition.usage ++ (result.usage ++ usageOfCases rest)

end

end LiveExpr
