import LiveExpr.Compile.Program
import LiveExpr.Proofs.Compile.Halting
import LiveExpr.Proofs.Grammar.Nested
import Mathlib.Data.List.Forall2

/-!
Formulas in other sources. The lexemes of a formula may be carried over into a source in which they stand in other
places and in which more lexemes follow. What is compiled there is the same, and the same is reported, in the places
to which the lexemes have been moved.
-/

namespace LiveExpr

/-- A way of carrying lexemes over to another source. -/
structure Transport where
  /-- The lexeme in the other source. -/
  move : Lexeme → Lexeme
  token_move (lexeme : Lexeme) : (move lexeme).token = lexeme.token
  text_move (lexeme : Lexeme) : (move lexeme).text = lexeme.text
  /-- The malformed text in the other source. -/
  shift : Malformed → Malformed
  /-- The lexemes that follow in the other source only. -/
  behind : List Lexeme
  noElse_behind : startsWith .elseWord behind = false
  /-- How many more rounds of a repetition the other source allows. -/
  slack : Nat
  /-- Whether lexemes are read inside brackets with these closing ones without a look at what is behind them. -/
  Admits : (brackets : List Terminal) → List Lexeme → Prop
  behind_of_nil {brackets : List Terminal} (admitted : Admits brackets []) : behind = []
  admits_plain {brackets : List Terminal} {first : Lexeme} {rest : List Lexeme}
    (admitted : Admits brackets (first :: rest)) (plain : first.token.isPlain = true) : Admits brackets rest
  admits_opening {brackets : List Terminal} {first : Lexeme} {rest : List Lexeme} {opening closing : Terminal}
    (admitted : Admits brackets (first :: rest)) (opens : first.is opening = true)
    (closes : opening.closing? = some closing) : Admits (closing :: brackets) rest
  admits_closing {closing : Terminal} {brackets : List Terminal} {first : Lexeme} {rest : List Lexeme}
    (admitted : Admits (closing :: brackets) (first :: rest)) (closes : first.is closing = true) :
    Admits brackets rest
  admits_semicolon {closing : Terminal} {brackets : List Terminal} {first : Lexeme} {rest : List Lexeme}
    (admitted : Admits (closing :: brackets) (first :: rest)) (separates : first.is .semicolon = true) :
    Admits (closing :: brackets) rest
  admits_else {brackets : List Terminal} {first second : Lexeme} {rest : List Lexeme}
    (admitted : Admits brackets (first :: second :: rest)) (separates : first.is .semicolon = true)
    (otherwise : second.is .elseWord = true) : Admits brackets rest
  /-- The search for the bracket that closes an index ends in front of what follows. -/
  assignsElement_eq {brackets : List Terminal} {lexemes : List Lexeme}
    (admitted : Admits (.rightBracket :: brackets) lexemes) :
    Grammar.assignsElement 1 (lexemes.map move ++ behind) = Grammar.assignsElement 1 lexemes

namespace Transport

/-- The lexemes in the other source. -/
def carry (transport : Transport) (lexemes : List Lexeme) : List Lexeme :=
  lexemes.map transport.move ++ transport.behind

end Transport

section Moved

variable (transport : Transport)

def Place.moved : Place → Place
  | .lexeme word => .lexeme (transport.move word)
  | .malformed piece => .malformed (transport.shift piece)
  | .ending => .ending

def Report.moved (report : Report) : Report :=
  ⟨report.problem, report.place.moved transport⟩

/-- The state in the other source, with reports that were made there before. -/
def Progress.moved (earlier : List Report) (progress : Progress) : Progress :=
  { progress with reports := progress.reports.map (Report.moved transport) ++ earlier }

theorem Transport.ofNext_carry {brackets : List Terminal} {lexemes : List Lexeme}
    (admitted : transport.Admits brackets lexemes) :
    Place.ofNext (transport.carry lexemes) = (Place.ofNext lexemes).moved transport := by
  cases lexemes with
  | nil =>
    rw [Transport.carry, transport.behind_of_nil admitted]
    rfl
  | cons => rfl

/-- Whether the second halt is the first one in the other source. -/
structure Halt.Carried (halt other : Halt) : Prop where
  report : other.report = halt.report.moved transport
  rest : other.rest = transport.carry halt.rest
  admitted : ∃ brackets, transport.Admits brackets halt.rest

end Moved

namespace Compile

variable (transport : Transport) {α β γ δ : Type}

/-- Whether the second outcome is the first one in the other source. -/
inductive Carried (earlier : List Report) (related : α → β → Prop) :
    Except Halt α × Progress → Except Halt β × Progress → Prop
  | done {value : α} {other : β} (progress : Progress) (same : related value other) :
      Carried earlier related (.ok value, progress) (.ok other, progress.moved transport earlier)
  | halted {halt other : Halt} (progress : Progress) (carried : halt.Carried transport other) :
      Carried earlier related (.error halt, progress) (.error other, progress.moved transport earlier)

/-- Whether the second computation does in the other source what the first one does. -/
def Carries (related : α → β → Prop) (first : Compile α) (second : Compile β) : Prop :=
  ∀ earlier before, Carried transport earlier related (first before) (second (before.moved transport earlier))

namespace Carries

variable {transport} {related : α → β → Prop} {next : γ → δ → Prop}

theorem pure {value : α} {other : β} (same : related value other) :
    Carries transport related (Pure.pure value) (Pure.pure other) :=
  fun _ before => .done before same

theorem bind {first : Compile α} {second : Compile β} {firstNext : α → Compile γ} {secondNext : β → Compile δ}
    (carries : Carries transport related first second)
    (continued : ∀ value other, related value other → Carries transport next (firstNext value) (secondNext other)) :
    Carries transport next (first >>= firstNext) (second >>= secondNext) := by
  intro earlier before
  have outcome := carries earlier before
  rw [bind_apply, bind_apply]
  generalize first before = one, second (before.moved transport earlier) = two at outcome
  cases outcome with
  | done progress same => exact continued _ _ same earlier progress
  | halted progress carried => exact .halted progress carried

theorem bind_same {first second : Compile α} {firstNext : α → Compile γ} {secondNext : α → Compile δ}
    (carries : Carries transport Eq first second)
    (continued : ∀ value, Carries transport next (firstNext value) (secondNext value)) :
    Carries transport next (first >>= firstNext) (second >>= secondNext) := by
  refine carries.bind ?_
  rintro value _ rfl
  exact continued value

/-- Where the first computation halts, what would follow is not looked at. -/
theorem bind_of_halts {first : Compile α} {second : Compile β} (carries : Carries transport related first second)
    (halts : first.Halts) (firstNext : α → Compile γ) (secondNext : β → Compile δ) :
    Carries transport next (first >>= firstNext) (second >>= secondNext) := by
  intro earlier before
  have outcome := carries earlier before
  rcases halts before with ⟨halt, after, halted⟩
  rw [bind_apply, bind_apply, halted]
  rw [halted] at outcome
  generalize second (before.moved transport earlier) = two at outcome
  cases outcome with
  | halted _ carried => exact .halted after carried

/-- What is seen of the state does not depend on the reports. -/
theorem view {look : Progress → α}
    (blind : ∀ (progress : Progress) (reports : List Report),
      look { progress with reports := reports } = look progress) :
    Carries transport Eq (Compile.view look) (Compile.view look) := by
  intro earlier before
  have seen : look (before.moved transport earlier) = look before := blind before _
  rw [Compile.view, Compile.view, seen]
  exact .done before rfl

theorem halt (problem : Problem) {place : Place} {rest : List Lexeme} {brackets : List Terminal}
    (admitted : transport.Admits brackets rest) :
    Carries transport related (Compile.halt problem place rest)
      (Compile.halt problem (place.moved transport) (transport.carry rest)) :=
  fun _ before => .halted before ⟨rfl, rfl, _, admitted⟩

theorem report (problem : Problem) (place : Place) :
    Carries transport Eq (Compile.report problem place) (Compile.report problem (place.moved transport)) :=
  fun _ before => .done { before with reports := ⟨problem, place⟩ :: before.reports } rfl

theorem reportName (name : String) (problem : Problem) (place : Place) :
    Carries transport Eq (Compile.reportName name problem place)
      (Compile.reportName name problem (place.moved transport)) :=
  fun _ before => .done
    { before with reports := ⟨problem, place⟩ :: before.reports, reported := name :: before.reported } rfl

theorem allocate (new : Store → α × Store) :
    Carries transport Eq (Compile.allocate new) (Compile.allocate new) :=
  fun _ before => .done { before with world := { before.world with store := (new before.world.store).2 } } rfl

end Carries

variable {transport} (settings : Settings)

/-! ## Making nodes -/

theorem scalar_carries (node : Node .scalar) : Carries transport Eq (scalar settings node) (scalar settings node) :=
  .view fun _ _ => rfl

theorem string_carries (node : Node .string) : Carries transport Eq (string settings node) (string settings node) :=
  .view fun _ _ => rfl

theorem failed_carries (problem : Problem) (place : Place) :
    Carries transport Eq (failed problem place) (failed problem (place.moved transport)) :=
  (Carries.report problem place).bind_same fun _ => .pure rfl

theorem requireScalar_carries (role : Role) (place : Place) (node : AnyNode) :
    Carries transport Eq (requireScalar role place node) (requireScalar role (place.moved transport) node) := by
  rcases node with ⟨_ | _ | _, node⟩
  · exact .pure rfl
  · exact (Carries.report _ place).bind_same fun _ => .pure rfl
  · exact (Carries.report _ place).bind_same fun _ => .pure rfl

theorem requireString_carries (role : Role) (place : Place) (node : AnyNode) :
    Carries transport Eq (requireString role place node) (requireString role (place.moved transport) node) := by
  rcases node with ⟨_ | _ | _, node⟩
  · exact (Carries.report _ place).bind_same fun _ => .pure rfl
  · exact .pure rfl
  · exact (Carries.report _ place).bind_same fun _ => .pure rfl

/-- Nodes with the places where they start in the other source. -/
def placedElsewhere (transport : Transport) (nodes : List (Place × AnyNode)) : List (Place × AnyNode) :=
  nodes.map fun one => (one.1.moved transport, one.2)

theorem length_placedElsewhere (nodes : List (Place × AnyNode)) :
    (placedElsewhere transport nodes).length = nodes.length :=
  List.length_map _

theorem requireScalars_carries (role : Role) (nodes : List (Place × AnyNode)) :
    Carries transport Eq (requireScalars role nodes) (requireScalars role (placedElsewhere transport nodes)) := by
  induction nodes with
  | nil => exact .pure rfl
  | cons first rest induction =>
    exact (requireScalar_carries role first.1 first.2).bind_same fun _ => induction.bind_same fun _ => .pure rfl

theorem negation_carries (sign : Lexeme) (node : AnyNode) :
    Carries transport Eq (negation settings sign node) (negation settings (transport.move sign) node) := by
  rcases node with ⟨_ | _ | _, node⟩
  · exact scalar_carries settings _
  · exact failed_carries _ (.lexeme sign)
  · exact .pure rfl

theorem affirmation_carries (sign : Lexeme) (node : AnyNode) :
    Carries transport Eq (affirmation sign node) (affirmation (transport.move sign) node) := by
  rcases node with ⟨_ | _ | _, node⟩
  · exact .pure rfl
  · exact failed_carries _ (.lexeme sign)
  · exact .pure rfl

theorem denial_carries (start : Place) (node : AnyNode) :
    Carries transport Eq (denial settings start node) (denial settings (start.moved transport) node) :=
  (requireScalar_carries _ start node).bind_same fun _ => scalar_carries settings _

theorem arithmetic_carries (op : BinaryOperator) (sign : Lexeme) (left right : AnyNode) :
    Carries transport Eq (arithmetic settings op sign left right)
      (arithmetic settings op (transport.move sign) left right) := by
  unfold arithmetic
  split
  · exact scalar_carries settings _
  · exact .pure rfl
  · exact .pure rfl
  · exact .pure rfl
  · split
    · exact string_carries settings _
    · exact failed_carries _ (.lexeme sign)
  · exact failed_carries _ (.lexeme sign)

theorem logical_carries (op : BinaryOperator) (leftStart : Place) (left : AnyNode) (rightStart : Place)
    (right : AnyNode) :
    Carries transport Eq (logical settings op leftStart left rightStart right)
      (logical settings op (leftStart.moved transport) left (rightStart.moved transport) right) := by
  refine (requireScalar_carries _ leftStart left).bind_same fun _ => ?_
  exact (requireScalar_carries _ rightStart right).bind_same fun _ => scalar_carries settings _

theorem comparison_carries (op : BinaryOperator) (sign : Lexeme) (left right : AnyNode) :
    Carries transport Eq (comparison settings op sign left right)
      (comparison settings op (transport.move sign) left right) := by
  unfold comparison
  split
  · exact scalar_carries settings _
  · exact scalar_carries settings _
  · exact failed_carries _ (.lexeme sign)

theorem stringTest_carries (op : StringOperator) (sign : Lexeme) (left right : AnyNode) :
    Carries transport Eq (stringTest settings op sign left right)
      (stringTest settings op (transport.move sign) left right) := by
  unfold stringTest
  rw [transport.text_move]
  split
  · exact scalar_carries settings _
  · exact failed_carries _ (.lexeme sign)

theorem relation_carries (sign : Lexeme) (left right : AnyNode) :
    Carries transport Eq (relation settings sign left right)
      (relation settings (transport.move sign) left right) := by
  unfold relation
  rw [transport.token_move]
  split
  · exact stringTest_carries settings _ sign left right
  · exact comparison_carries settings _ sign left right
  · exact .pure rfl

theorem conditional_carries (condition : Node .scalar) (branch : Place) (consequent alternative : AnyNode) :
    Carries transport Eq (conditional settings condition branch consequent alternative)
      (conditional settings condition (branch.moved transport) consequent alternative) := by
  unfold conditional
  split
  · exact scalar_carries settings _
  · exact string_carries settings _
  all_goals exact failed_carries _ branch

theorem conditionalOnly_carries (condition : Node .scalar) (branch : Place) (consequent : AnyNode) :
    Carries transport Eq (conditionalOnly settings condition branch consequent)
      (conditionalOnly settings condition (branch.moved transport) consequent) := by
  rcases consequent with ⟨_ | _ | _, consequent⟩
  · exact scalar_carries settings _
  · exact string_carries settings _
  · exact failed_carries _ branch

theorem size_carries (bracket : Lexeme) (base : AnyNode) :
    Carries transport Eq (size settings bracket base) (size settings (transport.move bracket) base) := by
  rcases base with ⟨_ | _ | _, base⟩
  · exact failed_carries _ (.lexeme bracket)
  · exact scalar_carries settings _
  · exact scalar_carries settings _

theorem element_carries (bracket : Lexeme) (base : AnyNode) (start : Place) (index : AnyNode) :
    Carries transport Eq (element bracket base start index)
      (element (transport.move bracket) base (start.moved transport) index) := by
  refine (requireScalar_carries _ start index).bind_same fun _ => ?_
  rcases base with ⟨_ | _ | _, base⟩
  · exact failed_carries _ (.lexeme bracket)
  · exact failed_carries _ (.lexeme bracket)
  · exact .pure rfl

theorem range_carries (bracket : Lexeme) (base : AnyNode) (firstStart : Place) (first : AnyNode) (lastStart : Place)
    (last : AnyNode) :
    Carries transport Eq (range settings bracket base firstStart first lastStart last)
      (range settings (transport.move bracket) base (firstStart.moved transport) first (lastStart.moved transport)
        last) := by
  refine (requireScalar_carries _ firstStart first).bind_same fun _ => ?_
  refine (requireScalar_carries _ lastStart last).bind_same fun _ => ?_
  rcases base with ⟨_ | _ | _, base⟩
  · exact (Carries.report _ (.lexeme bracket)).bind_same fun _ => .pure rfl
  · exact string_carries settings _
  · exact (Carries.report _ (.lexeme bracket)).bind_same fun _ => .pure rfl

/-! ## Calls -/

theorem builtinCall_carries (word : Lexeme) (function : Builtin) (arguments : List (Place × AnyNode)) :
    Carries transport Eq (builtinCall settings word function arguments)
      (builtinCall settings (transport.move word) function (placedElsewhere transport arguments)) := by
  have scalars : Carries transport Eq
      (do
        let arguments ← requireScalars .argument arguments
        scalar settings (.builtin function arguments))
      (do
        let arguments ← requireScalars .argument (placedElsewhere transport arguments)
        scalar settings (.builtin function arguments)) :=
    (requireScalars_carries .argument arguments).bind_same fun _ => scalar_carries settings _
  match arguments with
  | [] | (_, ⟨.scalar, _⟩) :: _ | (_, ⟨.string, _⟩) :: _ | (_, ⟨.vector, _⟩) :: _ :: _ => exact scalars
  | [(place, ⟨.vector, vector⟩)] =>
    change Carries transport Eq (builtinCall settings word function [(place, ⟨.vector, vector⟩)])
      (builtinCall settings (transport.move word) function [(place.moved transport, ⟨.vector, vector⟩)])
    unfold builtinCall
    cases function.computation with
    | unary | aggregate => exact .pure rfl
    | binary | ternary => exact failed_carries _ (.lexeme word)

theorem userCall_carries (function : FunctionHandle) (arguments : List (Place × AnyNode)) :
    Carries transport Eq (userCall function arguments) (userCall function (placedElsewhere transport arguments)) :=
  (requireScalars_carries .argument arguments).bind_same fun _ => .pure rfl

/-! ## Names -/

variable {environment : Environment}

theorem known?_carries (name : String) :
    Carries transport Eq (known? environment name) (known? environment name) :=
  .view fun _ _ => rfl

theorem bindAccepted_carries (name : String) (place : Place) :
    Carries transport Eq (bindAccepted environment name place)
      (bindAccepted environment name (place.moved transport)) := by
  intro earlier before
  unfold bindAccepted
  dsimp only [Progress.moved]
  split
  · exact .done { before with accepted := name :: before.accepted } rfl
  · split
    · next world _ => exact .done { before with accepted := name :: before.accepted, world := world } rfl
    · exact ((Carries.reportName name _ place).bind_same fun _ => .pure rfl) earlier
        { before with accepted := name :: before.accepted }

theorem askResolver_carries (resolver : Resolver) (name : String) (place : Place) :
    Carries transport Eq (askResolver environment resolver name place)
      (askResolver environment resolver name (place.moved transport)) := by
  intro earlier before
  unfold askResolver
  dsimp only [Progress.moved]
  split
  · exact bindAccepted_carries name place earlier
      { before with world := (resolver name environment.table before.world).2 }
  · exact ((Carries.reportName name _ place).bind_same fun _ => .pure rfl) earlier
      { before with world := (resolver name environment.table before.world).2 }

theorem resolve_carries (word : Lexeme) :
    Carries transport Eq (resolve environment word) (resolve environment (transport.move word)) := by
  unfold resolve
  rw [transport.text_move]
  refine (known?_carries word.text).bind_same fun known => ?_
  cases known with
  | some binding => exact .pure rfl
  | none =>
    refine (Carries.view fun _ _ => rfl).bind_same fun reported => ?_
    split
    · exact .pure rfl
    · split
      · exact askResolver_carries _ word.text (.lexeme word)
      · exact (Carries.reportName _ _ (.lexeme word)).bind_same fun _ => .pure rfl

theorem mayDeclare_carries (word : Lexeme) :
    Carries transport Eq (mayDeclare environment word) (mayDeclare environment (transport.move word)) := by
  unfold mayDeclare
  rw [transport.text_move]
  split
  · exact (Carries.report _ (.lexeme word)).bind_same fun _ => .pure rfl
  · refine (known?_carries word.text).bind_same fun known => ?_
    split
    · exact (Carries.report _ (.lexeme word)).bind_same fun _ => .pure rfl
    · exact .pure rfl

theorem declare_carries (allowed : Bool) (name : String) (binding : Binding) :
    Carries transport Eq (declare allowed name binding) (declare allowed name binding) := by
  intro earlier before
  cases allowed with
  | true => exact .done { before with locals := before.locals.insert name binding } rfl
  | false => exact .done before rfl

/-! ## References, assignments and declarations -/

theorem reference_carries (word : Lexeme) {rest : List Lexeme} {brackets : List Terminal}
    (admitted : transport.Admits brackets rest) (binding : Option Binding) :
    Carries transport Eq (reference settings word rest binding)
      (reference settings (transport.move word) (transport.carry rest) binding) := by
  match binding with
  | none => exact .pure rfl
  | some (.scalar cell constant) => exact .view fun _ _ => rfl
  | some (.string cell constant) => exact .view fun _ _ => rfl
  | some (.vector cell) => exact .pure rfl
  | some (.function _) =>
    unfold reference
    rw [transport.text_move, transport.ofNext_carry admitted]
    exact .halt _ admitted

theorem compound_move (transport : Transport) (sign : Lexeme) : compound (transport.move sign) = compound sign := by
  unfold compound
  rw [transport.token_move]

theorem assignment_carries (word sign : Lexeme) (target : Option Binding) (start : Place) (value : AnyNode) :
    Carries transport Eq (assignment word sign target start value)
      (assignment (transport.move word) (transport.move sign) target (start.moved transport) value) := by
  unfold assignment
  rw [transport.text_move, transport.text_move, compound_move]
  dsimp only
  split
  · exact .pure rfl
  · exact failed_carries _ (.lexeme word)
  · exact failed_carries _ (.lexeme word)
  · exact (requireScalar_carries _ start value).bind_same fun _ => .pure rfl
  · split
    · exact failed_carries _ (.lexeme sign)
    · exact (requireString_carries _ start value).bind_same fun _ => .pure rfl
  · split
    · exact .pure rfl
    · exact .pure rfl
    · exact failed_carries _ start
  · exact failed_carries _ (.lexeme word)

theorem elementAssignment_carries (word sign : Lexeme) (target : Option Binding) (start : Place)
    (index value : AnyNode) :
    Carries transport Eq (elementAssignment word sign target start index value)
      (elementAssignment (transport.move word) (transport.move sign) target (start.moved transport) index value) := by
  unfold elementAssignment
  rw [transport.text_move, compound_move]
  split
  · exact .pure rfl
  · refine (requireScalar_carries _ start index).bind_same fun _ => ?_
    exact (requireScalar_carries _ (.lexeme word) value).bind_same fun _ => .pure rfl
  · exact failed_carries _ (.lexeme word)

theorem declaration_carries (allowed : Bool) (word : Lexeme) (start : Place) (value : AnyNode) :
    Carries transport Eq (declaration allowed word start value)
      (declaration allowed (transport.move word) (start.moved transport) value) := by
  unfold declaration
  rw [transport.text_move]
  split
  · exact (Carries.allocate _).bind_same fun _ => (declare_carries _ _ _).bind_same fun _ => .pure rfl
  · exact (Carries.allocate _).bind_same fun _ => (declare_carries _ _ _).bind_same fun _ => .pure rfl
  · exact failed_carries _ start

theorem listedVector_carries (allowed : Bool) (word : Lexeme) (size : Nat) (bracket : Lexeme)
    (elements : List (Node .scalar)) :
    Carries transport Eq (listedVector allowed word size bracket elements)
      (listedVector allowed (transport.move word) size (transport.move bracket) elements) := by
  have vector : Carries transport Eq
      (do
        let cell ← Compile.allocate (·.newVector (List.replicate size 0.0))
        declare allowed word.text (.vector cell)
        pure (AnyNode.vector (.reset cell elements false)))
      (do
        let cell ← Compile.allocate (·.newVector (List.replicate size 0.0))
        declare allowed word.text (.vector cell)
        pure (AnyNode.vector (.reset cell elements false))) :=
    (Carries.allocate _).bind_same fun _ => (declare_carries _ _ _).bind_same fun _ => .pure rfl
  unfold listedVector
  rw [transport.text_move]
  split
  · exact (Carries.report _ (.lexeme bracket)).bind_same fun _ => vector
  · exact vector

theorem filledVector_carries (allowed : Bool) (word : Lexeme) (size : Nat) (start : Place) (value : AnyNode) :
    Carries transport Eq (filledVector allowed word size start value)
      (filledVector allowed (transport.move word) size (start.moved transport) value) := by
  have filled (cell : VectorCell) : Carries transport Eq (filling word cell start value)
      (filling (transport.move word) cell (start.moved transport) value) := by
    unfold filling
    rw [transport.text_move]
    split
    · exact .pure rfl
    · exact .pure rfl
    · exact (Carries.report _ start).bind_same fun _ => .pure rfl
  unfold filledVector
  rw [transport.text_move]
  refine (Carries.allocate _).bind_same fun cell => (filled cell).bind_same fun _ => ?_
  exact (declare_carries _ _ _).bind_same fun _ => .pure rfl

theorem call_carries (word : Lexeme) (arguments : List (Place × AnyNode)) {rest : List Lexeme}
    {brackets : List Terminal} (admitted : transport.Admits brackets rest) :
    Carries transport Eq (call environment word arguments rest)
      (call environment (transport.move word) (placedElsewhere transport arguments) (transport.carry rest)) := by
  unfold call
  rw [transport.text_move, length_placedElsewhere]
  dsimp only
  split
  · split
    · exact builtinCall_carries _ word _ arguments
    · exact .halt _ admitted
  · refine (known?_carries word.text).bind_same fun known => ?_
    split
    · split
      · exact userCall_carries _ arguments
      · exact .halt _ admitted
    · exact failed_carries _ (.lexeme word)
    · refine (Carries.view fun _ _ => rfl).bind_same fun reported => ?_
      split
      · exact .pure rfl
      · exact (Carries.reportName _ _ (.lexeme word)).bind_same fun _ => .pure rfl

end Compile

end LiveExpr
