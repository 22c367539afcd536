import LiveExpr.Proofs.Node.Initialization

/-!
What is known after a computation. A computation that reads what is known, and writes more, may be followed by one that
reads what is known then. A graph of which all cells are known reads nothing else.
-/

namespace LiveExpr

open AnyNode (Everywhere)

/-! ## Logs -/

namespace Event

variable {known more : Cell → Prop} {log : List Event}

theorem learned_mono (implies : ∀ cell, known cell → more cell) {cell : Cell} (isKnown : learned known log cell) :
    learned more log cell := by
  induction log generalizing known more with
  | nil => exact implies cell isKnown
  | cons event log induction =>
    cases event with
    | writes => exact induction (fun other => Or.imp_left (implies other)) isKnown
    | reads | alters | rounds => exact induction implies isKnown

theorem IsSettled.mono (implies : ∀ cell, known cell → more cell) (settled : IsSettled known log) :
    IsSettled more log := by
  induction log generalizing known more with
  | nil => trivial
  | cons event log induction =>
    cases event with
    | reads cell => exact ⟨implies cell settled.1, induction implies settled.2⟩
    | writes => exact induction (fun other => Or.imp_left (implies other)) settled
    | alters | rounds => exact induction implies settled

end Event

/-! ## Computations -/

namespace Traced

variable {α β : Type} {known middle later other : Cell → Prop}

/-- Whether a computation, from every store, reads only what is known, and what is to be known later is known where it
comes to an end. -/
def Teaches (known later : Cell → Prop) (computation : Traced α) : Prop :=
  ∀ store, Event.IsSettled known (computation store).1 ∧
    ((computation store).2.isSome = true → ∀ cell, later cell → Event.learned known (computation store).1 cell)

namespace Teaches

theorem of_settled {computation : Traced α} (settled : ∀ store, Event.IsSettled known (computation store).1) :
    Teaches known known computation :=
  fun store => ⟨settled store, fun _ _ isKnown => Event.learned_of_known isKnown _⟩

theorem pure (value : α) : Teaches known known (Pure.pure value : Traced α) :=
  of_settled fun _ => trivial

/-- More may be known before, and is known later too. -/
theorem adapt {computation : Traced α} (teaches : Teaches known later computation)
    (implies : ∀ cell, known cell → middle cell) (covers : ∀ cell, other cell → later cell ∨ middle cell) :
    Teaches middle other computation := by
  intro store
  rcases teaches store with ⟨settled, learns⟩
  refine ⟨settled.mono implies, ?_⟩
  intro returned cell wanted
  rcases covers cell wanted with isLater | isKnown
  · exact Event.learned_mono implies (learns returned cell isLater)
  · exact Event.learned_of_known isKnown _

theorem bind {first : Traced α} {next : α → Traced β} (teaches : Teaches known middle first)
    (continued : ∀ value, Teaches middle later (next value)) : Teaches known later (first >>= next) := by
  intro store
  rcases teaches store with ⟨settled, learns⟩
  rcases done : first store with ⟨log, _ | ⟨value, after⟩⟩
  · rw [done] at settled
    rw [bind_of_none done]
    exact ⟨settled, nofun⟩
  · rw [done] at settled learns
    have learned := learns rfl
    rcases continued value after with ⟨nextSettled, nextLearns⟩
    rw [bind_of_some done, Event.isSettled_append, Event.learned_append]
    refine ⟨⟨settled, nextSettled.mono learned⟩, ?_⟩
    intro returned cell isLater
    exact Event.learned_mono learned (nextLearns returned cell isLater)

theorem discard {computation : Traced α} (teaches : Teaches known later computation) :
    Teaches known later computation.discard :=
  teaches.bind fun _ => .pure ()

theorem repeatWhile {condition body : Traced Float} {step : Traced Unit} (first : Teaches known known condition)
    (second : Teaches known known body) (third : Teaches known known step) (limited : Bool) (rounds done : Nat)
    (last : Float) : Teaches known known (repeatWhile condition body step limited rounds done last) := by
  induction rounds generalizing done last with
  | zero =>
    apply of_settled
    intro store
    cases limited <;> trivial
  | succ rounds induction =>
    apply first.bind
    intro value
    split
    · exact second.bind fun value => third.bind fun _ => induction (done + 1) value
    · exact of_settled fun _ => trivial

end Teaches

/-! ## Accesses -/

theorem IsAccess.teaches {cell : Cell} {computation : Traced α} (isAccess : computation.IsAccess cell)
    (isKnown : known cell) : Teaches known known computation := by
  apply Teaches.of_settled
  intro store
  cases isAccess with
  | number | string | vector => exact ⟨isKnown, trivial⟩
  | assign _ op =>
    cases op with
    | none => trivial
    | some => exact ⟨isKnown, trivial⟩
  | assignString _ append =>
    cases append with
    | false => trivial
    | true => exact ⟨isKnown, trivial⟩
  | assignElement _ _ op =>
    unfold Traced.assignElement
    split
    · trivial
    · cases op with
      | none => trivial
      | some => exact ⟨isKnown, trivial⟩
  | assignVector _ op value =>
    cases op with
    | none =>
      cases value with
      | each => exact ⟨isKnown, trivial⟩
      | same => exact ⟨.inr rfl, trivial⟩
    | some => exact ⟨isKnown, isKnown, trivial⟩
  | reset => exact ⟨.inr rfl, trivial⟩

/-- A variable is known once it is declared. -/
theorem teaches_assign (target : NumberCell) (value : Float) :
    Teaches known (fun cell => known cell ∨ cell = .number target) (assign target none value) :=
  fun _ => ⟨trivial, fun _ _ learned => learned⟩

theorem teaches_assignString (target : StringCell) (value : Bytes) :
    Teaches known (fun cell => known cell ∨ cell = .string target) (assignString target false value) :=
  fun _ => ⟨trivial, fun _ _ learned => learned⟩

theorem teaches_reset (target : VectorCell) (values : List Float) (fill : Bool) :
    Teaches known (fun cell => known cell ∨ cell = .vector target) (reset target values fill) :=
  fun _ => ⟨⟨.inr rfl, trivial⟩, fun _ _ learned => learned⟩

/-- The evaluation of a graph of which all cells are known. -/
def knowing (known : Cell → Prop) (fuel : Nat) : Relation fuel fuel id where
  Holds one _ := Teaches known known one
  accessible := known
  callable _ := True
  bounded _ := True
  pure := .pure
  bind := .bind
  access := IsAccess.teaches
  call _ _ := .of_settled fun _ => trivial
  loop _ _ _ _ _ _ _ first second third := first.repeatWhile second third _ _ _ _

end Traced

/-! ## Graphs -/

namespace AnyNode

theorem teaches_trace {known : Cell → Prop} {node : AnyNode}
    (within : node.Everywhere fun inner => ∀ cell ∈ inner.cell?, known cell) (fuel : Nat) :
    Traced.Teaches known known (node.2.trace fuel) := by
  have admitted : node.Everywhere (Traced.knowing known fuel).Admits := by
    apply within.imp
    intro inner here
    rcases inner with ⟨k, inner⟩
    cases inner <;> first | exact here | trivial
  exact Traced.Relation.of_everywhere admitted

variable {known later : Cell → Prop} {node : AnyNode} {fuel : Nat}
  (teaches : Traced.Teaches known later (node.2.trace fuel))

include teaches

theorem teaches_traceStatement : Traced.Teaches known later (traceStatement fuel node) := by
  rcases node with ⟨k, node⟩
  exact teaches.discard

theorem teaches_traceScalar : Traced.Teaches known later (traceScalar fuel node) := by
  rcases node with ⟨k, node⟩
  cases k with
  | scalar => exact teaches
  | string | vector => exact teaches.discard.bind fun _ => .pure _

end AnyNode

end LiveExpr
