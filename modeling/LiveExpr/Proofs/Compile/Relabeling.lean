import LiveExpr.Compile.Program
import LiveExpr.Proofs.Node.Relabeling

/-!
Making nodes goes together with relabeling: what is made of relabeled nodes is the relabeled result, unless a problem
is found. Making a node does not change the state of a compilation.
-/

namespace LiveExpr

/-- The binding with other cells. -/
def Binding.relabel (relabeling : Relabeling) : Binding → Binding
  | .scalar cell constant => .scalar (relabeling.number cell) constant
  | .string cell constant => .string (relabeling.string cell) constant
  | .vector cell => .vector (relabeling.vector cell)
  | .function handle => .function handle

namespace Compile

variable {α β γ δ : Type}

/-- Whether a computation that finds no problem leaves the state as it is, and another one, in whatever state, then
does so too and comes to the renamed result. -/
def Commutes (rename : α → β) (first : Compile α) (second : Compile β) : Prop :=
  ∀ (before other after : Progress) (value : α), first before = (.ok value, after) → after.reports = [] →
    after = before ∧ second other = (.ok (rename value), other)

namespace Commutes

variable {rename : α → β} {renameNext : γ → δ}

theorem pure {value : α} {other : β} (renamed : rename value = other) :
    Commutes rename (Pure.pure value) (Pure.pure other) := by
  intro before state after found done _
  cases done
  exact ⟨rfl, congrArg (fun result => (Except.ok result, state)) renamed.symm⟩

theorem bind {first : Compile α} {second : Compile β} {next : α → Compile γ} {otherNext : β → Compile δ}
    (commutes : Commutes rename first second)
    (continued : ∀ value, Commutes renameNext (next value) (otherNext (rename value))) :
    Commutes renameNext (first >>= next) (second >>= otherNext) := by
  intro before other after result done clear
  rw [bind_apply] at done
  split at done
  · next value middle firstDone =>
    obtain ⟨rfl, secondDone⟩ := continued value _ other _ _ done clear
    obtain ⟨rfl, otherDone⟩ := commutes _ other _ _ firstDone clear
    exact ⟨rfl, by rw [bind_of_ok otherDone, secondDone]⟩
  · cases done

theorem reporting (problem : Problem) (place : Place) (value : α) (second : Compile β) :
    Commutes rename (do report problem place; Pure.pure value) second := by
  intro before other after found done clear
  cases done
  cases clear

end Commutes

variable (relabeling : Relabeling) (settings : Settings)

/-! ## Operations -/

theorem scalar_relabel {node : Node .scalar} {before other after : Progress} {value : AnyNode}
    (lengths : ∀ cell, node.sized? = some cell →
      (other.world.store.vector (relabeling.vector cell)).length = (before.world.store.vector cell).length)
    (done : scalar settings node before = (.ok value, after)) :
    after = before ∧ scalar settings (node.relabel relabeling) other = (.ok (value.relabel relabeling), other) := by
  have folded := Node.relabel_fold lengths
  cases done
  refine ⟨rfl, ?_⟩
  unfold scalar view
  dsimp only
  split
  · rw [← folded]
    rfl
  · rfl

theorem scalar_commutes {node : Node .scalar} (unsized : node.sized? = none) :
    Commutes (AnyNode.relabel relabeling) (scalar settings node) (scalar settings (node.relabel relabeling)) :=
  fun _ _ _ _ done _ => scalar_relabel relabeling settings (by rw [unsized]; nofun) done

theorem string_commutes (node : Node .string) :
    Commutes (AnyNode.relabel relabeling) (string settings node) (string settings (node.relabel relabeling)) := by
  intro before other after value done _
  cases done
  have folded : (node.foldString before.world.store).relabel relabeling = _ :=
    Node.relabel_foldString node before.world.store other.world.store
  refine ⟨rfl, ?_⟩
  unfold string view
  dsimp only
  split
  · rw [← folded]
    rfl
  · rfl

theorem failed_commutes (problem : Problem) (place : Place) (second : Compile AnyNode) :
    Commutes (AnyNode.relabel relabeling) (failed problem place) second :=
  .reporting problem place placeholder second

theorem requireScalar_commutes (role : Role) (place : Place) (node : AnyNode) :
    Commutes (Node.relabel relabeling) (requireScalar role place node)
      (requireScalar role place (node.relabel relabeling)) := by
  rcases node with ⟨_ | _ | _, node⟩
  · exact .pure rfl
  · exact .reporting _ _ _ _
  · exact .reporting _ _ _ _

theorem requireString_commutes (role : Role) (place : Place) (node : AnyNode) :
    Commutes (Node.relabel relabeling) (requireString role place node)
      (requireString role place (node.relabel relabeling)) := by
  rcases node with ⟨_ | _ | _, node⟩
  · exact .reporting _ _ _ _
  · exact .pure rfl
  · exact .reporting _ _ _ _

def relabelPlaced (nodes : List (Place × AnyNode)) : List (Place × AnyNode) :=
  nodes.map fun one => (one.1, one.2.relabel relabeling)

theorem requireScalars_commutes (role : Role) (nodes : List (Place × AnyNode)) :
    Commutes (relabelAll relabeling) (requireScalars role nodes)
      (requireScalars role (relabelPlaced relabeling nodes)) := by
  induction nodes with
  | nil => exact .pure rfl
  | cons first rest induction =>
    refine (requireScalar_commutes relabeling role first.1 first.2).bind fun node => ?_
    exact induction.bind fun nodes => .pure rfl

theorem negation_commutes (sign : Lexeme) (node : AnyNode) :
    Commutes (AnyNode.relabel relabeling) (negation settings sign node)
      (negation settings sign (node.relabel relabeling)) := by
  rcases node with ⟨_ | _ | _, node⟩
  · exact scalar_commutes relabeling settings rfl
  · exact failed_commutes relabeling _ _ _
  · exact .pure rfl

theorem affirmation_commutes (sign : Lexeme) (node : AnyNode) :
    Commutes (AnyNode.relabel relabeling) (affirmation sign node) (affirmation sign (node.relabel relabeling)) := by
  rcases node with ⟨_ | _ | _, node⟩
  · exact .pure rfl
  · exact failed_commutes relabeling _ _ _
  · exact .pure rfl

theorem denial_commutes (start : Place) (node : AnyNode) :
    Commutes (AnyNode.relabel relabeling) (denial settings start node)
      (denial settings start (node.relabel relabeling)) :=
  (requireScalar_commutes relabeling _ start node).bind fun _ => scalar_commutes relabeling settings rfl

theorem operation_commutes (op : BinaryOperator) (left right : Node .scalar) :
    Commutes (AnyNode.relabel relabeling) (scalar settings (.operation op left right))
      (scalar settings (.operation op (left.relabel relabeling) (right.relabel relabeling))) := by
  rw [← Node.relabel_operation]
  exact scalar_commutes relabeling settings (Node.sized?_operation op left right)

theorem arithmetic_commutes (op : BinaryOperator) (sign : Lexeme) (left right : AnyNode) :
    Commutes (AnyNode.relabel relabeling) (arithmetic settings op sign left right)
      (arithmetic settings op sign (left.relabel relabeling) (right.relabel relabeling)) := by
  have spread (left right : Operand) :
      Commutes (AnyNode.relabel relabeling) (pure (.vector (.elementOperation op left right)))
        (pure (.vector (.elementOperation op (left.relabel relabeling) (right.relabel relabeling)))) :=
    .pure (congrArg AnyNode.vector (Node.relabel_elementOperation op left right))
  rcases left with ⟨_ | _ | _, left⟩ <;> rcases right with ⟨_ | _ | _, right⟩
  case scalar.scalar => exact operation_commutes relabeling settings op left right
  case scalar.vector => exact spread (.scalar left) (.vector right)
  case vector.scalar => exact spread (.vector left) (.scalar right)
  case vector.vector => exact spread (.vector left) (.vector right)
  case string.string =>
    change Commutes _ (if op = .add then string settings (.joined left right) else _)
      (if op = .add then string settings (.joined (left.relabel relabeling) (right.relabel relabeling)) else _)
    split
    · rw [← Node.relabel_joined]
      exact string_commutes relabeling settings _
    · exact failed_commutes relabeling _ _ _
  all_goals exact failed_commutes relabeling _ _ _

theorem logical_commutes (op : BinaryOperator) (leftStart : Place) (left : AnyNode) (rightStart : Place)
    (right : AnyNode) :
    Commutes (AnyNode.relabel relabeling) (logical settings op leftStart left rightStart right)
      (logical settings op leftStart (left.relabel relabeling) rightStart (right.relabel relabeling)) := by
  refine (requireScalar_commutes relabeling _ leftStart left).bind fun left => ?_
  refine (requireScalar_commutes relabeling _ rightStart right).bind fun right => ?_
  exact operation_commutes relabeling settings op left right

theorem comparison_commutes (op : BinaryOperator) (sign : Lexeme) (left right : AnyNode) :
    Commutes (AnyNode.relabel relabeling) (comparison settings op sign left right)
      (comparison settings op sign (left.relabel relabeling) (right.relabel relabeling)) := by
  rcases left with ⟨_ | _ | _, left⟩ <;> rcases right with ⟨_ | _ | _, right⟩
  case scalar.scalar => exact operation_commutes relabeling settings op left right
  case string.string => exact scalar_commutes relabeling settings rfl
  all_goals exact failed_commutes relabeling _ _ _

theorem stringTest_commutes (op : StringOperator) (sign : Lexeme) (left right : AnyNode) :
    Commutes (AnyNode.relabel relabeling) (stringTest settings op sign left right)
      (stringTest settings op sign (left.relabel relabeling) (right.relabel relabeling)) := by
  rcases left with ⟨_ | _ | _, left⟩ <;> rcases right with ⟨_ | _ | _, right⟩
  case string.string => exact scalar_commutes relabeling settings rfl
  all_goals exact failed_commutes relabeling _ _ _

theorem relation_commutes (sign : Lexeme) (left right : AnyNode) :
    Commutes (AnyNode.relabel relabeling) (relation settings sign left right)
      (relation settings sign (left.relabel relabeling) (right.relabel relabeling)) := by
  unfold relation
  split
  · exact stringTest_commutes relabeling settings _ sign left right
  · exact comparison_commutes relabeling settings _ sign left right
  · exact .pure rfl

theorem conditional_commutes (condition : Node .scalar) (branch : Place) (consequent alternative : AnyNode) :
    Commutes (AnyNode.relabel relabeling) (conditional settings condition branch consequent alternative)
      (conditional settings (condition.relabel relabeling) branch (consequent.relabel relabeling)
        (alternative.relabel relabeling)) := by
  rcases consequent with ⟨_ | _ | _, consequent⟩ <;> rcases alternative with ⟨_ | _ | _, alternative⟩
  case scalar.scalar => exact scalar_commutes relabeling settings rfl
  case string.string => exact string_commutes relabeling settings _
  all_goals exact failed_commutes relabeling _ _ _

theorem conditionalOnly_commutes (condition : Node .scalar) (branch : Place) (consequent : AnyNode) :
    Commutes (AnyNode.relabel relabeling) (conditionalOnly settings condition branch consequent)
      (conditionalOnly settings (condition.relabel relabeling) branch (consequent.relabel relabeling)) := by
  rcases consequent with ⟨_ | _ | _, consequent⟩
  · exact scalar_commutes relabeling settings rfl
  · exact string_commutes relabeling settings _
  · exact failed_commutes relabeling _ _ _

theorem size_relabel (bracket : Lexeme) {base : AnyNode} {before other after : Progress} {value : AnyNode}
    (lengths : ∀ cell, base = AnyNode.vector (.vectorVariable cell) →
      (other.world.store.vector (relabeling.vector cell)).length = (before.world.store.vector cell).length)
    (done : size settings bracket base before = (.ok value, after)) (clear : after.reports = []) :
    after = before ∧
      size settings bracket (base.relabel relabeling) other = (.ok (value.relabel relabeling), other) := by
  rcases base with ⟨_ | _ | _, base⟩
  · exact failed_commutes relabeling _ _ _ before other after value done clear
  · exact scalar_relabel relabeling settings (fun _ sized => by cases sized) done
  · refine scalar_relabel relabeling settings (fun cell sized => lengths cell ?_) done
    cases Node.eq_of_sized? sized
    rfl

theorem element_commutes (bracket : Lexeme) (base : AnyNode) (start : Place) (index : AnyNode) :
    Commutes (AnyNode.relabel relabeling) (element bracket base start index)
      (element bracket (base.relabel relabeling) start (index.relabel relabeling)) := by
  refine (requireScalar_commutes relabeling _ start index).bind fun index => ?_
  rcases base with ⟨_ | _ | _, base⟩
  · exact failed_commutes relabeling _ _ _
  · exact failed_commutes relabeling _ _ _
  · exact .pure rfl

theorem range_commutes (bracket : Lexeme) (base : AnyNode) (firstStart : Place) (first : AnyNode)
    (lastStart : Place) (last : AnyNode) :
    Commutes (AnyNode.relabel relabeling) (range settings bracket base firstStart first lastStart last)
      (range settings bracket (base.relabel relabeling) firstStart (first.relabel relabeling) lastStart
        (last.relabel relabeling)) := by
  refine (requireScalar_commutes relabeling _ firstStart first).bind fun first => ?_
  refine (requireScalar_commutes relabeling _ lastStart last).bind fun last => ?_
  rcases base with ⟨_ | _ | _, base⟩
  · exact .reporting _ _ _ _
  · exact string_commutes relabeling settings _
  · exact .reporting _ _ _ _

/-! ## Calls -/

theorem builtinCall_commutes (word : Lexeme) (function : Builtin) (arguments : List (Place × AnyNode)) :
    Commutes (AnyNode.relabel relabeling) (builtinCall settings word function arguments)
      (builtinCall settings word function (relabelPlaced relabeling arguments)) := by
  have scalars : Commutes (AnyNode.relabel relabeling)
      (do
        let arguments ← requireScalars .argument arguments
        scalar settings (.builtin function arguments))
      (do
        let arguments ← requireScalars .argument (relabelPlaced relabeling arguments)
        scalar settings (.builtin function arguments)) :=
    (requireScalars_commutes relabeling .argument arguments).bind fun _ => scalar_commutes relabeling settings rfl
  match arguments with
  | [] | (_, ⟨.scalar, _⟩) :: _ | (_, ⟨.string, _⟩) :: _ | (_, ⟨.vector, _⟩) :: _ :: _ => exact scalars
  | [(place, ⟨.vector, vector⟩)] =>
    change Commutes _ (builtinCall settings word function [(place, ⟨.vector, vector⟩)])
      (builtinCall settings word function [(place, ⟨.vector, vector.relabel relabeling⟩)])
    unfold builtinCall
    cases function.computation with
    | unary apply => exact .pure rfl
    | aggregate op => exact .pure rfl
    | binary | ternary => exact failed_commutes relabeling _ _ _

theorem userCall_commutes (function : FunctionHandle) (arguments : List (Place × AnyNode)) :
    Commutes (AnyNode.relabel relabeling) (userCall function arguments)
      (userCall function (relabelPlaced relabeling arguments)) :=
  (requireScalars_commutes relabeling .argument arguments).bind fun _ => .pure rfl

/-! ## Assignments -/

theorem assignment_commutes (word sign : Lexeme) (target : Binding) (start : Place) (value : AnyNode) :
    Commutes (AnyNode.relabel relabeling) (assignment word sign (some target) start value)
      (assignment word sign (some (target.relabel relabeling)) start (value.relabel relabeling)) := by
  match target with
  | .scalar _ true | .string _ true | .function _ => exact failed_commutes relabeling _ _ _
  | .scalar cell false => exact (requireScalar_commutes relabeling _ start value).bind fun _ => .pure rfl
  | .string cell false =>
    change Commutes _ (if (compound sign).any (· != .add) then _ else _)
      (if (compound sign).any (· != .add) then _ else _)
    split
    · exact failed_commutes relabeling _ _ _
    · exact (requireString_commutes relabeling _ start value).bind fun _ => .pure rfl
  | .vector cell =>
    rcases value with ⟨_ | _ | _, value⟩
    · exact .pure rfl
    · exact failed_commutes relabeling _ _ _
    · exact .pure rfl

theorem elementAssignment_commutes (word sign : Lexeme) (target : Binding) (start : Place) (index value : AnyNode) :
    Commutes (AnyNode.relabel relabeling) (elementAssignment word sign (some target) start index value)
      (elementAssignment word sign (some (target.relabel relabeling)) start (index.relabel relabeling)
        (value.relabel relabeling)) := by
  cases target with
  | vector cell =>
    refine (requireScalar_commutes relabeling _ start index).bind fun index => ?_
    exact (requireScalar_commutes relabeling _ _ value).bind fun value => .pure rfl
  | scalar | string | function => exact failed_commutes relabeling _ _ _

end Compile

end LiveExpr
