import LiveExpr.Compile.Formula

/-!
What compiling a tree does, apart from the node that it gives. Trees that agree in what stands in front are compiled
alike until that ends, whatever stands behind it.
-/

namespace LiveExpr

namespace Compile

variable {α β γ : Type}

instance : LawfulMonad Compile :=
  LawfulMonad.mk' Compile
    (fun computation => by
      funext before
      change (computation >>= fun value => pure value) before = computation before
      rw [bind_apply]
      rcases computation before with ⟨_ | _, _⟩ <;> rfl)
    (fun _ _ => rfl)
    (fun first second third => by
      funext before
      rw [bind_apply, bind_apply, bind_apply]
      rcases first before with ⟨_ | _, _⟩ <;> rfl)

/-- Whether one computation leads to another: wherever the first one halts, the second one halts alike. -/
def LeadsTo (first : Compile α) (second : Compile β) : Prop :=
  ∀ (before after : Progress) (halt : Halt),
    first before = (.error halt, after) → second before = (.error halt, after)

namespace LeadsTo

theorem refl (computation : Compile α) : computation.LeadsTo computation :=
  fun _ _ _ halted => halted

theorem trans {first : Compile α} {second : Compile β} {third : Compile γ} (one : first.LeadsTo second)
    (other : second.LeadsTo third) : first.LeadsTo third :=
  fun before after halt halted => other before after halt (one before after halt halted)

/-- Where nothing is done, nothing halts. -/
theorem pure (value : α) (second : Compile β) : (Pure.pure value : Compile α).LeadsTo second := by
  intro before after halt halted
  rw [pure_apply] at halted
  cases halted

theorem bind (computation : Compile γ) {first : γ → Compile α} {second : γ → Compile β}
    (continued : ∀ value, (first value).LeadsTo (second value)) :
    (computation >>= first).LeadsTo (computation >>= second) := by
  intro before after halt halted
  cases done : computation before with
  | mk outcome middle =>
    cases outcome with
    | error other =>
      rw [bind_of_error done] at halted ⊢
      cases halted
      rfl
    | ok value =>
      rw [bind_of_ok done] at halted ⊢
      exact continued value middle after halt halted

end LeadsTo

end Compile

open Compile

/-! ## Works -/

/-- What a computation does, whatever it gives. -/
def Work : Type :=
  Environment → Compile Unit

namespace Work

def of {α : Type} (computation : Environment → Compile α) : Work :=
  fun environment => do
    let _ ← computation environment
    pure ()

def none : Work :=
  fun _ => pure ()

def andThen (first second : Work) : Work :=
  fun environment => do
    first environment
    second environment

def LeadsTo (first second : Work) : Prop :=
  ∀ environment, (first environment).LeadsTo (second environment)

variable {first second third : Work}

theorem LeadsTo.refl (work : Work) : work.LeadsTo work :=
  fun environment => .refl (work environment)

theorem LeadsTo.trans (one : first.LeadsTo second) (other : second.LeadsTo third) : first.LeadsTo third :=
  fun environment => (one environment).trans (other environment)

theorem LeadsTo.none (work : Work) : Work.none.LeadsTo work :=
  fun _ => .pure _ _

theorem LeadsTo.andThen (leads : second.LeadsTo third) (first : Work) :
    (first.andThen second).LeadsTo (first.andThen third) :=
  fun environment => .bind _ fun _ => leads environment

theorem andThen_none (work : Work) : work.andThen none = work :=
  funext fun _ => bind_pure_unit

/-- A work leads to all that goes on behind it. -/
theorem LeadsTo.behind (first second : Work) : first.LeadsTo (first.andThen second) := by
  have leads := (LeadsTo.none second).andThen first
  rwa [andThen_none] at leads

theorem andThen_assoc (first second third : Work) :
    (first.andThen second).andThen third = first.andThen (second.andThen third) :=
  funext fun _ => bind_assoc ..

end Work

def Tree.work (tree : Tree) : Work :=
  .of fun environment => tree.compile environment

section

variable {tree : Tree} {environment : Environment} {before after : Progress} {halt : Halt}

theorem Tree.work_of_halted (halted : tree.compile environment before = (.error halt, after)) :
    tree.work environment before = (.error halt, after) :=
  bind_of_error halted

theorem Tree.halted_of_work (halted : tree.work environment before = (.error halt, after)) :
    tree.compile environment before = (.error halt, after) := by
  cases done : tree.compile environment before with
  | mk outcome middle =>
    cases outcome with
    | error other =>
      rw [work_of_halted done] at halted
      cases halted
      rfl
    | ok value =>
      unfold Tree.work Work.of at halted
      rw [bind_of_ok done] at halted
      cases halted

end

namespace Work

/-- The work of compiling a tree to a scalar. -/
def scalar (role : Role) (start : Place) (tree : Tree) : Work :=
  .of fun environment => do
    let node ← tree.compile environment
    requireScalar role start node

def seeking (word : Lexeme) : Work :=
  .of fun environment => resolve environment word

/-- The work of finding out whether a name may be declared. -/
def declaring (word : Lexeme) : Work :=
  .of fun environment => mayDeclare environment word

def arguments (trees : List (Place × Tree)) : Work :=
  .of fun environment => compilePlaced environment trees

def elements (word : Lexeme) (trees : List (Place × Tree)) : Work :=
  (declaring word).andThen (.of fun environment => compileElements environment trees)

def statements (trees : List Tree) : Work :=
  .of fun environment => compileStatements environment trees

def cases (cases : List ((Place × Tree) × (Place × Tree))) : Work :=
  .of fun environment => compileCases environment cases

/-- The work in front of the first round of a loop. -/
def entry (initializer : Tree) (start : Place) (condition : Tree) : Work :=
  initializer.work.andThen (scalar .loopCondition start condition)

/-- A tree is compiled before it is asked for as a scalar. -/
theorem LeadsTo.scalar (role : Role) (start : Place) (tree : Tree) :
    tree.work.LeadsTo (Work.scalar role start tree) := by
  intro environment
  simp only [Tree.work, Work.scalar, of, bind_assoc]
  exact .bind _ fun _ => .pure _ _

end Work

/-! ## Lists of trees -/

section Append

variable (environment : Environment)

theorem compilePlaced_append (first second : List (Place × Tree)) :
    compilePlaced environment (first ++ second) = (do
      let front ← compilePlaced environment first
      let back ← compilePlaced environment second
      pure (front ++ back)) := by
  induction first with
  | nil => simp
  | cons one rest induction => simp [induction]

theorem compileElements_append (first second : List (Place × Tree)) :
    compileElements environment (first ++ second) = (do
      let front ← compileElements environment first
      let back ← compileElements environment second
      pure (front ++ back)) := by
  induction first with
  | nil => simp
  | cons one rest induction => simp [induction]

theorem compileArithmetic_append (left : AnyNode) (first second : List ((BinaryOperator × Lexeme) × Tree)) :
    compileArithmetic environment left (first ++ second) = (do
      let left ← compileArithmetic environment left first
      compileArithmetic environment left second) := by
  induction first generalizing left with
  | nil => simp
  | cons one rest induction => simp [induction]

theorem compileLogical_append (start : Place) (left : AnyNode) (first second : List ((BinaryOperator × Place) × Tree)) :
    compileLogical environment start left (first ++ second) = (do
      let left ← compileLogical environment start left first
      compileLogical environment start left second) := by
  induction first generalizing left with
  | nil => simp
  | cons one rest induction => simp [induction]

theorem compileStatements_append (first second : List Tree) :
    compileStatements environment (first ++ second) = (do
      let front ← compileStatements environment first
      let back ← compileStatements environment second
      pure (front ++ back)) := by
  induction first with
  | nil => simp
  | cons one rest induction => simp [induction]

theorem compileCases_append (first second : List ((Place × Tree) × (Place × Tree))) :
    compileCases environment (first ++ second) = (do
      let front ← compileCases environment first
      let back ← compileCases environment second
      pure (front ++ back)) := by
  induction first with
  | nil => simp
  | cons one rest induction => simp [induction]

end Append

/-! ## Contexts -/

namespace Work

/-- Whether a work opens a context: compiling what the context makes of a tree begins with it and goes on with the
tree. -/
def Opens (done : Work) (context : Tree → Tree) : Prop :=
  ∀ tree, (done.andThen tree.work).LeadsTo (context tree).work

namespace Opens

theorem leadsTo {done : Work} {context : Tree → Tree} (opens : done.Opens context) (tree : Tree) :
    done.LeadsTo (context tree).work :=
  (LeadsTo.behind done tree.work).trans (opens tree)

theorem id : none.Opens fun tree => tree :=
  fun _ => .refl _

theorem within {done more : Work} {context inner : Tree → Tree} (opens : done.Opens context)
    (opensInner : more.Opens inner) : (done.andThen more).Opens fun tree => context (inner tree) := by
  intro tree
  rw [andThen_assoc]
  exact ((opensInner tree).andThen done).trans (opens (inner tree))

theorem andThen (done : Tree) : done.work.Opens (.andThen done) := by
  intro tree environment
  simp only [Work.andThen, Tree.work, of, Tree.compile, bind_assoc, pure_bind]
  exact .bind _ fun _ => .bind _ fun _ => .pure _ _

/-! ### What is compiled in front

Nothing, one thing or two things are compiled in front of the tree, and anything may be compiled behind it.
-/

section Front

variable {α β : Type} {context : Tree → Tree}

theorem first {next : Environment → Tree → AnyNode → Compile AnyNode}
    (compiled : ∀ tree environment, (context tree).compile environment = (do
      let node ← tree.compile environment
      next environment tree node)) : none.Opens context := by
  intro tree environment
  simp only [Work.andThen, Tree.work, none, of, compiled, bind_assoc, pure_bind]
  exact .bind _ fun _ => .pure _ _

theorem second {done : Environment → Compile α} {next : Environment → Tree → α → AnyNode → Compile AnyNode}
    (compiled : ∀ tree environment, (context tree).compile environment = (do
      let front ← done environment
      let node ← tree.compile environment
      next environment tree front node)) : (of done).Opens context := by
  intro tree environment
  simp only [Work.andThen, Tree.work, of, compiled, bind_assoc, pure_bind]
  exact .bind _ fun _ => .bind _ fun _ => .pure _ _

theorem third {done : Environment → Compile α} {more : Environment → Compile β}
    {next : Environment → Tree → α → β → AnyNode → Compile AnyNode}
    (compiled : ∀ tree environment, (context tree).compile environment = (do
      let front ← done environment
      let middle ← more environment
      let node ← tree.compile environment
      next environment tree front middle node)) : ((of done).andThen (of more)).Opens context := by
  intro tree environment
  simp only [Work.andThen, Tree.work, of, compiled, bind_assoc, pure_bind]
  exact .bind _ fun _ => .bind _ fun _ => .bind _ fun _ => .pure _ _

end Front

/-! ### Operators -/

theorem negation (sign : Lexeme) : none.Opens (.negation sign) :=
  first fun _ _ => by rw [Tree.compile]

theorem affirmation (sign : Lexeme) : none.Opens (.affirmation sign) :=
  first fun _ _ => by rw [Tree.compile]

theorem denial (start : Place) : none.Opens (.denial start) :=
  first fun _ _ => by rw [Tree.compile]

theorem arithmetic (first : Tree) (found : List ((BinaryOperator × Lexeme) × Tree))
    (sign : BinaryOperator × Lexeme) :
    (Tree.arithmetic first found).work.Opens fun tree => .arithmetic first (found ++ [(sign, tree)]) :=
  second fun _ _ => by
    simp only [Tree.compile, compileArithmetic_append, compileArithmetic, bind_assoc]
    rfl

theorem logical (start : Place) (first : Tree) (found : List ((BinaryOperator × Place) × Tree))
    (sign : BinaryOperator × Place) :
    (Tree.logical start first found).work.Opens fun tree => .logical start first (found ++ [(sign, tree)]) :=
  second fun _ _ => by
    simp only [Tree.compile, compileLogical_append, compileLogical, bind_assoc]
    rfl

theorem relation (sign : Lexeme) (left : Tree) : left.work.Opens (.relation sign left) :=
  second fun _ _ => by rw [Tree.compile]

/-! ### Conditionals, loops and choices

Where two parts of a tree are left open, only the first of them matters.
-/

theorem consequent (start : Place) (condition : Tree) (branch : Place) (alternative : Tree → Tree) :
    (scalar .condition start condition).Opens fun tree =>
      .conditional start condition branch tree (alternative tree) :=
  second fun _ _ => by rw [Tree.compile, bind_assoc]

theorem alternative (start : Place) (condition : Tree) (branch : Place) (consequent : Tree) :
    ((scalar .condition start condition).andThen consequent.work).Opens
      (.conditional start condition branch consequent) :=
  third fun _ _ => by rw [Tree.compile, bind_assoc]

theorem conditionalOnly (start : Place) (condition : Tree) (branch : Place) :
    (scalar .condition start condition).Opens (.conditionalOnly start condition branch) :=
  second fun _ _ => by rw [Tree.compile, bind_assoc]

theorem loopStep (initializer : Tree) (start : Place) (condition : Tree) (body : Tree → Tree) :
    (entry initializer start condition).Opens fun tree => .loop initializer start condition tree (body tree) :=
  third fun _ _ => by
    simp only [Tree.compile, bind_assoc]
    rfl

theorem loopBody (initializer : Tree) (start : Place) (condition step : Tree) :
    ((entry initializer start condition).andThen step.work).Opens (.loop initializer start condition step) := by
  intro tree environment
  simp only [Work.andThen, Tree.work, entry, scalar, of, Tree.compile, bind_assoc, pure_bind]
  exact .bind _ fun _ => .bind _ fun _ => .bind _ fun _ => .bind _ fun _ => .bind _ fun _ => .pure _ _

theorem choice (found : List ((Place × Tree) × (Place × Tree))) (start : Place) :
    (cases found).Opens (.choice found start) :=
  second fun _ _ => by rw [Tree.compile]

theorem caseResult (found : List ((Place × Tree) × (Place × Tree))) (start : Place) (condition : Tree)
    (resultStart otherwiseStart : Place) (otherwise : Tree → Tree) :
    ((cases found).andThen (scalar .caseCondition start condition)).Opens fun tree =>
      .choice (found ++ [((start, condition), (resultStart, tree))]) otherwiseStart (otherwise tree) :=
  third fun _ _ => by
    simp only [Tree.compile, compileCases_append, compileCases, bind_assoc]
    rfl

theorem block (found : List Tree) : (statements found).Opens (.block found) :=
  second fun _ _ => by rw [Tree.compile]

/-! ### Subscripts -/

theorem size (bracket : Lexeme) : none.Opens (.size bracket) :=
  first fun _ _ => by rw [Tree.compile]

theorem element (bracket : Lexeme) (base : Tree) (start : Place) : base.work.Opens (.element bracket base start) :=
  second fun _ _ => by rw [Tree.compile]

theorem range (bracket : Lexeme) (base : Tree) (firstStart : Place) (first : Tree) (lastStart : Place) :
    (base.work.andThen first.work).Opens (.range bracket base firstStart first lastStart) :=
  third fun _ _ => by rw [Tree.compile]

/-! ### Calls, assignments and declarations -/

theorem call (word : Lexeme) (found : List (Place × Tree)) (start : Place) (rest : List Lexeme) :
    (arguments found).Opens fun tree => .call word (found ++ [(start, tree)]) rest :=
  second fun _ _ => by
    simp only [Tree.compile, compilePlaced_append, compilePlaced, bind_assoc]
    rfl

theorem listedVector (word : Lexeme) (size : Nat) (bracket : Lexeme) (found : List (Place × Tree)) (start : Place) :
    (elements word found).Opens fun tree => .listedVector word size bracket (found ++ [(start, tree)]) :=
  third fun _ _ => by
    simp only [Tree.compile, compileElements_append, compileElements, bind_assoc]
    rfl

theorem filledVector (word : Lexeme) (size : Nat) (start : Place) :
    (declaring word).Opens (.filledVector word size start) :=
  second fun _ _ => by rw [Tree.compile]

theorem declaration (word : Lexeme) (start : Place) : (declaring word).Opens (.declaration word start) :=
  second fun _ _ => by rw [Tree.compile]

theorem assignment (word sign : Lexeme) (start : Place) : (seeking word).Opens (.assignment word sign start) :=
  second fun _ _ => by rw [Tree.compile]

theorem assignedIndex (word : Lexeme) (start : Place) (sign : Lexeme) {done : Work} {inner : Tree → Tree}
    (opens : done.Opens inner) (value : Tree → Tree) :
    ((seeking word).andThen done).Opens fun tree => .elementAssignment word start (inner tree) sign (value tree) := by
  intro tree
  rw [andThen_assoc]
  apply ((opens tree).andThen (seeking word)).trans
  intro environment
  simp only [Work.andThen, Tree.work, seeking, of, Tree.compile, bind_assoc, pure_bind]
  exact .bind _ fun _ => .bind _ fun _ => .pure _ _

theorem assignedElement (word : Lexeme) (start : Place) (index : Tree) (sign : Lexeme) :
    ((seeking word).andThen index.work).Opens (.elementAssignment word start index sign) :=
  third fun _ _ => by rw [Tree.compile]

end Opens

/-! ## Finished lists -/

namespace LeadsTo

theorem arguments (found : List (Place × Tree)) (one : Place × Tree) :
    ((Work.arguments found).andThen one.2.work).LeadsTo (Work.arguments (found ++ [one])) := by
  intro environment
  simp only [Work.andThen, Tree.work, Work.arguments, of, compilePlaced_append, compilePlaced, bind_assoc, pure_bind]
  exact .bind _ fun _ => .bind _ fun _ => .pure _ _

theorem call (word : Lexeme) (found : List (Place × Tree)) (rest : List Lexeme) :
    (Work.arguments found).LeadsTo (Tree.call word found rest).work := by
  intro environment
  simp only [Tree.work, Work.arguments, of, Tree.compile, bind_assoc]
  exact .bind _ fun _ => .pure _ _

theorem elements (word : Lexeme) (found : List (Place × Tree)) (one : Place × Tree) :
    ((Work.elements word found).andThen one.2.work).LeadsTo (Work.elements word (found ++ [one])) := by
  intro environment
  simp only [Work.andThen, Tree.work, Work.elements, declaring, of, compileElements_append, compileElements, bind_assoc,
    pure_bind]
  exact .bind _ fun _ => .bind _ fun _ => .bind _ fun _ => .pure _ _

theorem listedVector (word : Lexeme) (size : Nat) (bracket : Lexeme) (found : List (Place × Tree)) :
    (Work.elements word found).LeadsTo (Tree.listedVector word size bracket found).work := by
  intro environment
  simp only [Work.andThen, Tree.work, Work.elements, declaring, of, Tree.compile, bind_assoc, pure_bind]
  exact .bind _ fun _ => .bind _ fun _ => .pure _ _

theorem statements (found : List Tree) (one : Tree) :
    ((Work.statements found).andThen one.work).LeadsTo (Work.statements (found ++ [one])) := by
  intro environment
  simp only [Work.andThen, Tree.work, Work.statements, of, compileStatements_append, compileStatements, bind_assoc,
    pure_bind]
  exact .bind _ fun _ => .bind _ fun _ => .pure _ _

theorem statement (only : Tree) : (Work.statements [only]).LeadsTo only.work := by
  intro environment
  simp only [Tree.work, Work.statements, of, compileStatements, bind_assoc, pure_bind]
  exact .refl _

theorem block (found : List Tree) (result : Tree) :
    (Work.statements (found ++ [result])).LeadsTo (Tree.block found result).work := by
  intro environment
  simp only [Tree.work, Work.statements, of, Tree.compile, compileStatements_append, compileStatements, bind_assoc,
    pure_bind]
  exact .refl _

theorem cases (found : List ((Place × Tree) × (Place × Tree))) (one : (Place × Tree) × (Place × Tree)) :
    (((Work.cases found).andThen (Work.scalar .caseCondition one.1.1 one.1.2)).andThen one.2.2.work).LeadsTo
      (Work.cases (found ++ [one])) := by
  intro environment
  simp only [Work.andThen, Tree.work, Work.cases, Work.scalar, of, compileCases_append, compileCases, bind_assoc,
    pure_bind]
  exact .bind _ fun _ => .bind _ fun _ => .bind _ fun _ => .bind _ fun _ => .pure _ _

end LeadsTo

end Work

end LiveExpr
