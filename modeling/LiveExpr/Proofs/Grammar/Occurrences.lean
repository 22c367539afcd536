import LiveExpr.Proofs.Grammar.Usage

/-!
Where names occur in formulas. The occurrences of a tree are in the order in which a formula is worked through: a name
is called where its arguments have come to their end, and is declared where its initializer has. The places where the
two names stand are among the occurrences too, so those that are spelled follow one another as they do in the lexemes.
-/

namespace LiveExpr

/-- What a name has to do with a place in a formula. -/
inductive Occurrence where
  /-- It stands for a value, or for what is assigned to. -/
  | sought (name : String)
  /-- It stands in front of the arguments of a call. -/
  | called (name : String)
  /-- The arguments of a call of it have come to their end. -/
  | applied (name : String)
  /-- It stands behind the keyword of a declaration. -/
  | declaring (name : String)
  /-- Its declaration has come to its end. -/
  | declared (name : String)
deriving DecidableEq

namespace Occurrence

/-- Whether the name is spelled at the place. -/
def isSpelled : Occurrence → Bool
  | sought _ | called _ | declaring _ => true
  | applied _ | declared _ => false

section Filter

variable (name : String) (rest : List Occurrence)

@[simp] theorem filter_sought : (sought name :: rest).filter isSpelled = sought name :: rest.filter isSpelled := rfl

@[simp] theorem filter_called : (called name :: rest).filter isSpelled = called name :: rest.filter isSpelled := rfl

@[simp] theorem filter_applied : (applied name :: rest).filter isSpelled = rest.filter isSpelled := rfl

@[simp] theorem filter_declaring :
    (declaring name :: rest).filter isSpelled = declaring name :: rest.filter isSpelled := rfl

@[simp] theorem filter_declared : (declared name :: rest).filter isSpelled = rest.filter isSpelled := rfl

end Filter

def mention? : Occurrence → Option Mention
  | sought name => some (.sought name)
  | declaring name => some (.declared name)
  | called _ | applied _ | declared _ => none

theorem filterMap_mention?_spelled (occurrences : List Occurrence) :
    (occurrences.filter isSpelled).filterMap mention? = occurrences.filterMap mention? := by
  induction occurrences with
  | nil => rfl
  | cons first rest induction => cases first <;> simp [List.filterMap_cons, mention?, induction]

end Occurrence

/-! ## Trees -/

mutual

def Tree.occurrences : Tree → List Occurrence
  | .number _ | .text _ | .stop _ _ => []
  | .name word _ => [.sought word.text]
  | .call word arguments _ => .called word.text :: occurrencesOfPlaced arguments ++ [.applied word.text]
  | .negation _ operand | .affirmation _ operand | .denial _ operand | .size _ operand => operand.occurrences
  | .arithmetic first rest => first.occurrences ++ occurrencesOfArithmetic rest
  | .logical _ first rest => first.occurrences ++ occurrencesOfLogical rest
  | .relation _ left right => left.occurrences ++ right.occurrences
  | .conditional _ condition _ consequent alternative =>
    condition.occurrences ++ (consequent.occurrences ++ alternative.occurrences)
  | .conditionalOnly _ condition _ consequent => condition.occurrences ++ consequent.occurrences
  | .element _ base _ index => base.occurrences ++ index.occurrences
  | .range _ base _ first _ last => base.occurrences ++ (first.occurrences ++ last.occurrences)
  | .block statements result => occurrencesOfStatements statements ++ result.occurrences
  | .loop initializer _ condition step body =>
    initializer.occurrences ++ (condition.occurrences ++ (step.occurrences ++ body.occurrences))
  | .choice cases _ otherwise => occurrencesOfCases cases ++ otherwise.occurrences
  | .assignment word _ _ value => .sought word.text :: value.occurrences
  | .elementAssignment word _ index _ value => .sought word.text :: (index.occurrences ++ value.occurrences)
  | .declaration word _ value | .filledVector word _ _ value =>
    .declaring word.text :: value.occurrences ++ [.declared word.text]
  | .listedVector word _ _ elements =>
    .declaring word.text :: occurrencesOfPlaced elements ++ [.declared word.text]
  | .andThen done stopped => done.occurrences ++ stopped.occurrences

def occurrencesOfPlaced : List (Place × Tree) → List Occurrence
  | [] => []
  | (_, tree) :: rest => tree.occurrences ++ occurrencesOfPlaced rest

def occurrencesOfArithmetic : List ((BinaryOperator × Lexeme) × Tree) → List Occurrence
  | [] => []
  | (_, tree) :: rest => tree.occurrences ++ occurrencesOfArithmetic rest

def occurrencesOfLogical : List ((BinaryOperator × Place) × Tree) → List Occurrence
  | [] => []
  | (_, tree) :: rest => tree.occurrences ++ occurrencesOfLogical rest

def occurrencesOfStatements : List Tree → List Occurrence
  | [] => []
  | first :: rest => first.occurrences ++ occurrencesOfStatements rest

def occurrencesOfCases : List ((Place × Tree) × (Place × Tree)) → List Occurrence
  | [] => []
  | ((_, condition), (_, result)) :: rest =>
    condition.occurrences ++ (result.occurrences ++ occurrencesOfCases rest)

end

/-! ## Spelled names -/

def Tree.spelled (tree : Tree) : List Occurrence :=
  tree.occurrences.filter Occurrence.isSpelled

theorem spelled_occurrencesOfPlaced (trees : List (Place × Tree)) :
    (occurrencesOfPlaced trees).filter Occurrence.isSpelled = trees.flatMap (·.2.spelled) := by
  induction trees with
  | nil => rfl
  | cons first rest induction =>
    rw [occurrencesOfPlaced, List.filter_append, induction]
    rfl

theorem spelled_arithmetic (first : Tree) (rest : List ((BinaryOperator × Lexeme) × Tree)) :
    (Tree.arithmetic first rest).spelled = first.spelled ++ rest.flatMap (·.2.spelled) := by
  rw [Tree.spelled, Tree.occurrences, List.filter_append]
  refine congrArg (first.spelled ++ ·) ?_
  induction rest with
  | nil => rfl
  | cons step rest induction =>
    rw [occurrencesOfArithmetic, List.filter_append, induction]
    rfl

theorem spelled_logical (start : Place) (first : Tree) (rest : List ((BinaryOperator × Place) × Tree)) :
    (Tree.logical start first rest).spelled = first.spelled ++ rest.flatMap (·.2.spelled) := by
  rw [Tree.spelled, Tree.occurrences, List.filter_append]
  refine congrArg (first.spelled ++ ·) ?_
  induction rest with
  | nil => rfl
  | cons step rest induction =>
    rw [occurrencesOfLogical, List.filter_append, induction]
    rfl

theorem spelled_occurrencesOfStatements (trees : List Tree) :
    (occurrencesOfStatements trees).filter Occurrence.isSpelled = trees.flatMap (·.spelled) := by
  induction trees with
  | nil => rfl
  | cons first rest induction =>
    rw [occurrencesOfStatements, List.filter_append, induction]
    rfl

theorem spelled_occurrencesOfCases (cases : List ((Place × Tree) × (Place × Tree))) :
    (occurrencesOfCases cases).filter Occurrence.isSpelled =
      cases.flatMap fun one => one.1.2.spelled ++ one.2.2.spelled := by
  induction cases with
  | nil => rfl
  | cons first rest induction =>
    rw [occurrencesOfCases, List.filter_append, List.filter_append, induction, List.flatMap_cons, List.append_assoc]
    rfl

/-! ## Mentions -/

mutual

/-- The names that are looked up or declared are among the occurrences. -/
theorem Tree.mentions_usage : (tree : Tree) → tree.usage.mentions = tree.occurrences.filterMap Occurrence.mention?
  | .number _ | .text _ | .stop _ _ | .name _ _ => rfl
  | .call _ arguments _ => by
    simp [Tree.usage, Tree.occurrences, mentions_usageOfPlaced arguments, List.filterMap_cons, Occurrence.mention?]
  | .negation _ operand | .affirmation _ operand | .denial _ operand | .size _ operand => operand.mentions_usage
  | .arithmetic first rest => by
    simp [Tree.usage, Tree.occurrences, first.mentions_usage, mentions_usageOfArithmetic rest]
  | .logical _ first rest => by
    simp [Tree.usage, Tree.occurrences, first.mentions_usage, mentions_usageOfLogical rest]
  | .relation _ left right => by simp [Tree.usage, Tree.occurrences, left.mentions_usage, right.mentions_usage]
  | .conditional _ condition _ consequent alternative => by
    simp [Tree.usage, Tree.occurrences, condition.mentions_usage, consequent.mentions_usage, alternative.mentions_usage]
  | .conditionalOnly _ condition _ consequent => by
    simp [Tree.usage, Tree.occurrences, condition.mentions_usage, consequent.mentions_usage]
  | .element _ base _ index => by simp [Tree.usage, Tree.occurrences, base.mentions_usage, index.mentions_usage]
  | .range _ base _ first _ last => by
    simp [Tree.usage, Tree.occurrences, base.mentions_usage, first.mentions_usage, last.mentions_usage]
  | .block statements result => by
    simp [Tree.usage, Tree.occurrences, mentions_usageOfStatements statements, result.mentions_usage]
  | .loop initializer _ condition step body => by
    simp [Tree.usage, Tree.occurrences, initializer.mentions_usage, condition.mentions_usage, step.mentions_usage,
      body.mentions_usage]
  | .choice cases _ otherwise => by
    simp [Tree.usage, Tree.occurrences, mentions_usageOfCases cases, otherwise.mentions_usage]
  | .assignment _ _ _ value => by
    simp [Tree.usage, Tree.occurrences, Usage.mentions, value.mentions_usage, Occurrence.mention?]
  | .elementAssignment _ _ index _ value => by
    simp [Tree.usage, Tree.occurrences, Usage.mentions, index.mentions_usage, value.mentions_usage, Occurrence.mention?]
  | .declaration _ _ value | .filledVector _ _ _ value => by
    simp [Tree.usage, Tree.occurrences, Usage.mentions, value.mentions_usage, Occurrence.mention?]
  | .listedVector _ _ _ elements => by
    simp [Tree.usage, Tree.occurrences, Usage.mentions, mentions_usageOfPlaced elements, Occurrence.mention?]
  | .andThen done stopped => by simp [Tree.usage, Tree.occurrences, done.mentions_usage, stopped.mentions_usage]

theorem mentions_usageOfPlaced : (trees : List (Place × Tree)) →
    (usageOfPlaced trees).mentions = (occurrencesOfPlaced trees).filterMap Occurrence.mention?
  | [] => rfl
  | (_, tree) :: rest => by
    simp [usageOfPlaced, occurrencesOfPlaced, tree.mentions_usage, mentions_usageOfPlaced rest]

theorem mentions_usageOfArithmetic : (rest : List ((BinaryOperator × Lexeme) × Tree)) →
    (usageOfArithmetic rest).mentions = (occurrencesOfArithmetic rest).filterMap Occurrence.mention?
  | [] => rfl
  | (_, tree) :: rest => by
    simp [usageOfArithmetic, occurrencesOfArithmetic, tree.mentions_usage, mentions_usageOfArithmetic rest]

theorem mentions_usageOfLogical : (rest : List ((BinaryOperator × Place) × Tree)) →
    (usageOfLogical rest).mentions = (occurrencesOfLogical rest).filterMap Occurrence.mention?
  | [] => rfl
  | (_, tree) :: rest => by
    simp [usageOfLogical, occurrencesOfLogical, tree.mentions_usage, mentions_usageOfLogical rest]

theorem mentions_usageOfStatements : (trees : List Tree) →
    (usageOfStatements trees).mentions = (occurrencesOfStatements trees).filterMap Occurrence.mention?
  | [] => rfl
  | first :: rest => by
    simp [usageOfStatements, occurrencesOfStatements, first.mentions_usage, mentions_usageOfStatements rest]

theorem mentions_usageOfCases : (cases : List ((Place × Tree) × (Place × Tree))) →
    (usageOfCases cases).mentions = (occurrencesOfCases cases).filterMap Occurrence.mention?
  | [] => rfl
  | ((_, condition), (_, result)) :: rest => by
    simp [usageOfCases, occurrencesOfCases, condition.mentions_usage, result.mentions_usage,
      mentions_usageOfCases rest]

end

end LiveExpr
