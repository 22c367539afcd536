import LiveExpr.Proofs.Node.Trace
import Mathlib.Data.List.Forall2

/-!
Computations that agree on all stores of one sort, and leave such a store behind. The sort is given by a store, of
which some cells are frozen: their contents, and the lengths of all vectors, are those of the given store. One of the
two computations keeps a log, and they agree wherever the log says that no frozen cell has been written.
-/

namespace LiveExpr

/-- A cell that is written as a whole. -/
inductive Target where
  | number (cell : NumberCell)
  | string (cell : StringCell)

def Target.cell : Target → Cell
  | number cell => .number cell
  | string cell => .string cell

/-- Whether a store has the contents of another in all frozen cells, and its lengths of vectors. -/
structure Store.Resembles (frozen : Target → Prop) (store reference : Store) : Prop where
  numbers (cell : NumberCell) (isFrozen : frozen (.number cell)) :
    store.number cell = reference.number cell
  strings (cell : StringCell) (isFrozen : frozen (.string cell)) :
    store.string cell = reference.string cell
  lengths (cell : VectorCell) : (store.vector cell).length = (reference.vector cell).length

namespace Store

variable {frozen : Target → Prop} {store reference : Store}

theorem resembles_refl : store.Resembles frozen store :=
  ⟨fun _ _ => rfl, fun _ _ => rfl, fun _ => rfl⟩

namespace Resembles

theorem setNumber (resembles : store.Resembles frozen reference) {cell : NumberCell}
    (free : ¬ frozen (.number cell)) (value : Float) :
    (store.setNumber cell value).Resembles frozen reference := by
  refine ⟨fun other isFrozen => ?_, resembles.strings, resembles.lengths⟩
  have different : other.index ≠ cell.index := by
    intro equal
    have same : other = cell := congrArg NumberCell.mk equal
    exact free (same ▸ isFrozen)
  rw [← resembles.numbers other isFrozen]
  exact Cells.get_set_other store.numbers different value

theorem setString (resembles : store.Resembles frozen reference) {cell : StringCell}
    (free : ¬ frozen (.string cell)) (value : Bytes) :
    (store.setString cell value).Resembles frozen reference := by
  refine ⟨resembles.numbers, fun other isFrozen => ?_, resembles.lengths⟩
  have different : other.index ≠ cell.index := by
    intro equal
    have same : other = cell := congrArg StringCell.mk equal
    exact free (same ▸ isFrozen)
  rw [← resembles.strings other isFrozen]
  exact Cells.get_set_other store.strings different value

theorem setVectorCell (resembles : store.Resembles frozen reference) (cell : VectorCell)
    {values : List Float} (sameLength : values.length = (store.vector cell).length) :
    ({ store with vectors := store.vectors.set cell.index values } : Store).Resembles frozen reference := by
  refine ⟨resembles.numbers, resembles.strings, fun other => ?_⟩
  rw [← resembles.lengths other]
  by_cases equal : other.index = cell.index
  · have same : other = cell := congrArg VectorCell.mk equal
    rw [same, ← sameLength]
    exact congrArg List.length (Cells.get_set_same store.vectors cell.index values)
  · exact congrArg List.length (Cells.get_set_other store.vectors equal values)

theorem setVector (resembles : store.Resembles frozen reference) (cell : VectorCell)
    (values : List Float) : (store.setVector cell values).Resembles frozen reference :=
  resembles.setVectorCell cell (Store.length_overwrite _ _)

theorem setElement (resembles : store.Resembles frozen reference) (cell : VectorCell) (index : Nat)
    (value : Float) : (store.setElement cell index value).Resembles frozen reference :=
  resembles.setVectorCell cell (List.length_set)

theorem call (resembles : store.Resembles frozen reference) (function : FunctionHandle)
    (arguments : List Float) : (store.call function arguments).2.Resembles frozen reference :=
  ⟨resembles.numbers, resembles.strings, resembles.lengths⟩

end Resembles

end Store

def Event.Spare (frozen : Target → Prop) (log : List Event) : Prop :=
  ∀ target, frozen target → .writes target.cell ∉ log

theorem Event.spare_append {frozen : Target → Prop} {first second : List Event}
    (spared : Spare frozen (first ++ second)) : Spare frozen first ∧ Spare frozen second :=
  ⟨fun target isFrozen written => spared target isFrozen (List.mem_append_left _ written),
    fun target isFrozen written => spared target isFrozen (List.mem_append_right _ written)⟩

theorem Traced.mem_replaces (cell : Cell) (compound : Bool) : .writes cell ∈ replaces cell compound := by
  cases compound <;> simp [replaces]

namespace Eval

variable {α β : Type} (keeps : Store → Prop) (frozen : Target → Prop)

/-- Whether a computation does what one with a log does, to every store that keeps the property and from which no
frozen cell is written, and both leave such a store. -/
def Agree (one : Eval α) (other : Traced α) : Prop :=
  ∀ store, keeps store → Event.Spare frozen (other store).1 →
    one store = (other store).2 ∧ ∀ value after, (other store).2 = some (value, after) → keeps after

variable {keeps frozen}

namespace Agree

theorem pure (value : α) : Agree keeps frozen (Pure.pure value) (Pure.pure value) := by
  intro store kept _
  refine ⟨rfl, fun _ _ done => ?_⟩
  cases done
  exact kept

theorem bind {one : Eval α} {other : Traced α} {next : α → Eval β} {otherNext : α → Traced β}
    (agree : Agree keeps frozen one other) (continued : ∀ value, Agree keeps frozen (next value) (otherNext value)) :
    Agree keeps frozen (one >>= next) (other >>= otherNext) := by
  intro store kept spared
  have first := agree store kept
  rcases ran : other store with ⟨log, _ | ⟨value, middle⟩⟩
  · rw [Traced.bind_of_none ran] at spared ⊢
    rw [ran] at first
    rw [bind_apply, (first spared).1]
    exact ⟨rfl, nofun⟩
  · rw [Traced.bind_of_some ran] at spared ⊢
    rw [ran] at first
    obtain ⟨here, further⟩ := Event.spare_append spared
    rw [bind_apply, (first here).1]
    exact continued value middle ((first here).2 value middle rfl) further

theorem noting {events : Store → List Event} {computation : Eval α}
    (kept : ∀ store, keeps store → Event.Spare frozen (events store) →
      ∀ value after, computation store = some (value, after) → keeps after) :
    Agree keeps frozen computation (Traced.noting events computation) :=
  fun store before spared => ⟨rfl, kept store before spared⟩

theorem read {events : Store → List Event} (view : Store → α) :
    Agree keeps frozen (Eval.read view) (Traced.noting events (Eval.read view)) := by
  refine noting fun store kept _ _ _ done => ?_
  cases done
  exact kept

theorem assignElement {target : VectorCell} {index value : Float} {op : Option BinaryOperator} {one : Eval Float}
    (erased : (Traced.assignElement target index op value).erase = one)
    (kept : ∀ store index value, keeps store → keeps (store.setElement target index value)) :
    Agree keeps frozen one (Traced.assignElement target index op value) := by
  subst erased
  intro store before _
  refine ⟨rfl, fun _ _ done => ?_⟩
  unfold Traced.assignElement at done
  split at done
  · cases done
    exact before
  · cases done
    exact kept store _ _ before

theorem discard {one : Eval α} {other : Traced α} (agree : Agree keeps frozen one other) :
    Agree keeps frozen one.discard other.discard :=
  agree.bind fun _ => .pure ()

theorem ite {condition : Prop} [Decidable condition] {one one₁ : Eval α} {other other₁ : Traced α}
    (first : Agree keeps frozen one other) (second : Agree keeps frozen one₁ other₁) :
    Agree keeps frozen (if condition then one else one₁) (if condition then other else other₁) := by
  split
  · exact first
  · exact second

theorem repeatWhile {condition body : Eval Float} {otherCondition otherBody : Traced Float} {step : Eval Unit}
    {otherStep : Traced Unit} (first : Agree keeps frozen condition otherCondition)
    (second : Agree keeps frozen body otherBody) (third : Agree keeps frozen step otherStep) (limited : Bool)
    (rounds done : Nat) (last : Float) :
    Agree keeps frozen (Eval.repeatWhile condition body step limited rounds last)
      (Traced.repeatWhile otherCondition otherBody otherStep limited rounds done last) := by
  have ending (done : Nat) (last : Float) :
      Agree keeps frozen (Pure.pure last) (Traced.noting (fun _ => [.rounds done]) (Pure.pure last)) := by
    refine noting fun store kept _ _ _ ended => ?_
    cases ended
    exact kept
  induction rounds generalizing done last with
  | zero =>
    intro store kept spared
    cases limited with
    | true => exact ending done last store kept spared
    | false => exact ⟨rfl, nofun⟩
  | succ rounds induction =>
    exact first.bind fun value => ite
      (second.bind fun value => third.bind fun _ => induction (done + 1) value) (ending done last)

theorem continueWith (op : BinaryOperator) (left : Float) {one : Eval Float} {other : Traced Float}
    (agree : Agree keeps frozen one other) :
    Agree keeps frozen (op.continueWith left one) (Traced.continueWith op left other) := by
  unfold BinaryOperator.continueWith Traced.continueWith
  cases op.settled? left with
  | some value => exact pure value
  | none => exact agree.bind fun _ => pure _

end Agree

end Eval

end LiveExpr
