import LiveExpr.Proofs.Precedence.Reading

/-!
Calls of functions that a table binds. The arguments are written formulas with commas between them; they are evaluated
from left to right, and then the function is called with their values.
-/

namespace LiveExpr

open Grammar (Bounds Derives Dialect)

namespace Formula

def evalAll (cell : String → NumberCell) : List Formula → StateM Store (List Float)
  | [] => pure []
  | first :: rest => do
    let value ← first.eval cell
    let values ← evalAll cell rest
    pure (value :: values)

/-- What calling a function with the values of formulas does. -/
def callWith (cell : String → NumberCell) (function : FunctionHandle) (formulas : List Formula) :
    StateM Store Float := do
  let values ← evalAll cell formulas
  fun store => store.call function values

inductive WritesAll : List Formula → List Lexeme → Prop
  | last {formula : Formula} {lexemes : List Lexeme} (writes : Writes .assignment formula lexemes) :
      WritesAll [formula] lexemes
  | next {formula : Formula} {formulas : List Formula} {comma : Lexeme} {first rest : List Lexeme}
      (writes : Writes .assignment formula first) (separated : comma.is .comma = true)
      (more : WritesAll formulas rest) : WritesAll (formula :: formulas) (first ++ comma :: rest)

variable {bounds : Bounds} {scope : Scope} {formulas : List Formula} {lexemes : List Lexeme}

/-! ## Reading -/

theorem takes_of_writes {formula : Formula} (written : Writes .assignment formula lexemes)
    (usable : ∀ name ∈ formula.names, Usable scope name) :
    bounds.Takes .documented (scope.Means formula) .assignment lexemes :=
  (takenAs_of_writes written usable).takes

theorem WritesAll.length_pos (written : WritesAll formulas lexemes) : 0 < formulas.length := by
  cases written <;> exact Nat.succ_pos _

variable (bounds scope) in
structure TakesAll (formulas : List Formula) (lexemes : List Lexeme) : Prop where
  derived : Derives .documented (.list formulas.length) lexemes
  begins : Grammar.Begins Token.startsFormula lexemes
  gives (level count : Nat) (found : List (Place × Tree)) (soFar : List (Place × Tree) → Tree) {bracket : Lexeme}
    (closed : bracket.is .rightParen = true) (rest : List Lexeme) (deep : lexemes.length ≤ level)
    (short : lexemes.length ≤ bounds.bound) (rounds : lexemes.length ≤ count) :
    (Grammar.items (bounds.inner level) .rightParen soFar count found).Gives
      (fun items => ∃ trees, items = found.reverse ++ trees ∧
        List.Forall₂ (fun formula item => scope.Means formula item.2) formulas trees)
      (lexemes ++ bracket :: rest) rest

theorem takesAll_of_writes (written : WritesAll formulas lexemes)
    (usable : ∀ formula ∈ formulas, ∀ name ∈ formula.names, Usable scope name) :
    TakesAll bounds scope formulas lexemes := by
  induction written with
  | last writes =>
    have takes : bounds.Takes _ _ _ _ := takes_of_writes writes (usable _ List.mem_cons_self)
    refine ⟨.lastItem takes.derived, takes.derived.begins, ?_⟩
    intro level count found soFar bracket closed rest deep short rounds
    have some := Grammar.Begins.length_pos takes.derived.begins
    cases count with
    | zero => omega
    | succ count =>
      rw [Grammar.items]
      refine Reader.Gives.place.bind fun start _ => ?_
      refine ((takes.assignmentWithin deep short (Grammar.stops_closer (.inl rfl) closed rest)).within _).bind
        fun item means => ?_
      refine .skipping (Grammar.startsWith_closer (.inl rfl) closed (by decide) rest) ?_
      refine ((Reader.Gives.require closed _).within _).bind fun _ _ => .pure ⟨[(start, item)], ?_, .cons means .nil⟩
      rw [List.reverse_cons]
  | @next formula formulas comma first rest writes separated more induction =>
    rw [List.forall_mem_cons] at usable
    have takes : bounds.Takes _ _ _ _ := takes_of_writes writes usable.1
    have others := induction usable.2
    obtain ⟨count, length⟩ := Nat.exists_eq_succ_of_ne_zero (Nat.ne_of_gt more.length_pos)
    refine ⟨?_, takes.derived.begins.append _, ?_⟩
    · have derived := others.derived
      rw [length] at derived
      rw [List.length_cons, length]
      exact .nextItem takes.derived separated derived
    · intro level count found soFar bracket closed behind deep short rounds
      simp only [List.length_append, List.length_cons] at deep short rounds
      rw [List.append_assoc, List.cons_append]
      cases count with
      | zero => omega
      | succ count =>
        rw [Grammar.items]
        refine Reader.Gives.place.bind fun start _ => ?_
        have stops : Grammar.Stops 9 (comma :: (rest ++ bracket :: behind)) :=
          .terminal separated (by decide) (by decide) _
        refine ((takes.assignmentWithin (by omega) (by omega) stops).within _).bind fun item means => ?_
        refine .taking separated ?_
        refine (others.gives level count _ soFar closed behind (by omega) (by omega) (by omega)).imp ?_
        rintro items ⟨trees, rfl, meanAll⟩
        refine ⟨(start, item) :: trees, ?_, .cons means meanAll⟩
        rw [List.reverse_cons, List.append_assoc]
        rfl

def CallsWith (scope : Scope) (word : Lexeme) (formulas : List Formula) (tree : Tree) : Prop :=
  ∃ arguments behind, tree = .call word arguments behind ∧
    List.Forall₂ (fun formula item => scope.Means formula item.2) formulas arguments

theorem TakesAll.call {word opening closing : Lexeme} (takes : TakesAll bounds scope formulas lexemes)
    (isName : word.token.isName = true) (opened : opening.is .leftParen = true)
    (closed : closing.is .rightParen = true) :
    bounds.Takes .documented (CallsWith scope word formulas) .primary (word :: opening :: (lexemes ++ [closing])) where
  derived := .call isName opened takes.derived closed trivial
  gives level rest deep short _ := by
    simp only [List.length_cons, List.length_append, List.length_nil, Grammar.Phrase.slack] at deep short
    rw [List.cons_append, List.cons_append, List.append_assoc]
    refine Grammar.gives_nameForm isName fun name same => .taking opened ?_
    have other : startsWith .rightParen (lexemes ++ closing :: rest) = false :=
      takes.begins.startsWith_eq_false rfl _
    refine Reader.Gives.bind (.skipping other (takes.gives level bounds.bound [] _ closed rest (by omega) (by omega)
      (by omega))) ?_
    rintro arguments ⟨_, rfl, mean⟩
    exact Reader.Gives.remaining.bind fun behind _ => .pure ⟨arguments, behind, rfl, mean⟩

end Formula

/-! ## Compiling -/

namespace Compile

variable {scope : Scope} {formulas : List Formula} {items : List (Place × Tree)}

theorem compilePlaced_of_means (mean : List.Forall₂ (fun formula item => scope.Means formula item.2) formulas items) :
    ∃ nodes : List (Place × Node .scalar),
      compilePlaced scope.environment items (.start scope.world) =
        (.ok (nodes.map fun node => (node.1, .scalar node.2)), .start scope.world) ∧
      nodes.length = formulas.length ∧
      ∀ fuel, evalAll fuel (nodes.map (·.2)) = Eval.ofState (Formula.evalAll scope.cell formulas) := by
  induction mean with
  | nil => exact ⟨[], rfl, rfl, fun _ => rfl⟩
  | @cons formula item formulas items means _ induction =>
    obtain ⟨node, compiled, computes⟩ := means
    obtain ⟨nodes, others, length, evaluate⟩ := induction
    refine ⟨(item.1, node) :: nodes, ?_, congrArg Nat.succ length, fun fuel => ?_⟩
    · rw [compilePlaced, bind_of_ok compiled, bind_of_ok others]
      rfl
    · rw [List.map_cons, evalAll, computes, evaluate]
      rfl

theorem requireScalars_scalar (role : Role) (nodes : List (Place × Node .scalar)) (progress : Progress) :
    requireScalars role (nodes.map fun node => (node.1, .scalar node.2)) progress =
      (.ok (nodes.map (·.2)), progress) := by
  induction nodes with
  | nil => rfl
  | cons node nodes induction =>
    have first : requireScalar role node.1 (.scalar node.2) progress = (.ok node.2, progress) := rfl
    rw [List.map_cons, requireScalars, bind_of_ok first, bind_of_ok induction]
    rfl

theorem call_comesTo {word : Lexeme} {function : FunctionHandle} {tree : Tree}
    (bound : (scope.world.table scope.environment.table).lookup word.text = some (.function function))
    (other : Builtin.find? word.text = none) (count : formulas.length = function.arity)
    (calls : Formula.CallsWith scope word formulas tree) :
    (tree.compile scope.environment).ComesTo scope.world (Formula.callWith scope.cell function formulas) := by
  obtain ⟨items, behind, rfl, mean⟩ := calls
  obtain ⟨nodes, compiled, length, evaluate⟩ := compilePlaced_of_means mean
  have known : known? scope.environment word.text (.start scope.world) =
      (.ok (some (.function function)), .start scope.world) :=
    congrArg (fun found => (Except.ok found, Progress.start scope.world)) bound
  refine ⟨.userCall function (nodes.map (·.2)), ?_, fun fuel => ?_⟩
  · rw [Tree.compile, bind_of_ok compiled]
    unfold Compile.call
    dsimp only
    rw [other]
    dsimp only
    rw [bind_of_ok known]
    dsimp only
    rw [if_pos (by rw [List.length_map, length, count]), userCall, bind_of_ok (requireScalars_scalar _ _ _)]
    rfl
  · rw [Node.eval, evaluate]
    rfl

end Compile

end LiveExpr
