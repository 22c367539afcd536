import LiveExpr.Proofs.Node.TraceRelation

/-!
Loops with a limit. A graph whose loops all have a limit comes to its end, in the same way whatever rounds other loops
may take, and no entry into a loop takes more rounds than the limit. It does what the graph without limits does where
that takes fewer.
-/

namespace LiveExpr

open AnyNode (Everywhere everywhere_iff)

namespace Traced

variable {α β : Type} {limit : Nat}

/-- What sets a computation with limited loops apart from one without: it always comes to an end, after no more rounds
than the limit, and it is the same where the other comes to an end after fewer. -/
structure Limits (limit : Nat) (plain limited : Traced α) : Prop where
  returns (store : Store) : (limited store).2.isSome = true
  rounds (store : Store) {count : Nat} (taken : .rounds count ∈ (limited store).1) : count ≤ limit
  same {store : Store} (returned : (plain store).2.isSome = true)
    (fewer : ∀ count, .rounds count ∈ (plain store).1 → count < limit) : limited store = plain store

namespace Limits

theorem pure (value : α) : Limits limit (Pure.pure value) (Pure.pure value) :=
  ⟨fun _ => rfl, fun _ _ taken => (nomatch taken), fun _ _ => rfl⟩

theorem straight {events : Store → List Event} {computation : Eval α}
    (returns : ∀ store, (computation store).isSome = true)
    (straight : ∀ store count, .rounds count ∉ events store) :
    Limits limit (noting events computation) (noting events computation) :=
  ⟨returns, fun store _ taken => absurd taken (straight store _), fun _ _ => rfl⟩

theorem bind {plain limited : Traced α} {next limitedNext : α → Traced β} (first : Limits limit plain limited)
    (second : ∀ value, Limits limit (next value) (limitedNext value)) :
    Limits limit (plain >>= next) (limited >>= limitedNext) := by
  have ends (store : Store) : ∃ log value middle, limited store = (log, some (value, middle)) := by
    obtain ⟨⟨value, middle⟩, returned⟩ := Option.isSome_iff_exists.mp (first.returns store)
    exact ⟨(limited store).1, value, middle, Prod.ext rfl returned⟩
  refine ⟨fun store => ?_, fun store count taken => ?_, fun {store} returned fewer => ?_⟩
  · obtain ⟨log, value, middle, done⟩ := ends store
    rw [bind_of_some done]
    exact (second value).returns middle
  · obtain ⟨log, value, middle, done⟩ := ends store
    rw [bind_of_some done] at taken
    rcases List.mem_append.mp taken with early | late
    · exact first.rounds store (by rw [done]; exact early)
    · exact (second value).rounds middle late
  · obtain ⟨log, value, middle, done, returned⟩ := returned_of_bind returned
    rw [bind_of_some done] at fewer
    have firstSame : limited store = plain store := by
      refine first.same (by rw [done]; rfl) fun count taken => ?_
      rw [done] at taken
      exact fewer count (List.mem_append_left _ taken)
    have secondSame := (second value).same returned fun count taken => fewer count (List.mem_append_right _ taken)
    rw [bind_of_some done, bind_of_some (firstSame.trans done), secondSame]

/-- What has not come to an end says nothing of the limited computation. -/
theorem of_stopped {plain stopped limited : Traced α} (limits : Limits limit plain limited)
    (none : ∀ store, (stopped store).2 = none) : Limits limit stopped limited := by
  refine ⟨limits.returns, limits.rounds, fun {store} returned => ?_⟩
  rw [none store] at returned
  cases returned

theorem ite {condition : Prop} [Decidable condition] {one other one₁ other₁ : Traced α}
    (first : Limits limit one other) (second : Limits limit one₁ other₁) :
    Limits limit (if condition then one else one₁) (if condition then other else other₁) := by
  split
  · exact first
  · exact second

end Limits

/-- A loop without a limit that comes to its end has then taken as many rounds as it has done before, at least. -/
theorem rounds_of_repeatWhile {condition body : Traced Float} {step : Traced Unit} {rounds done : Nat} {last : Float}
    {store : Store} (returned : (repeatWhile condition body step false rounds done last store).2.isSome = true) :
    ∃ count, done ≤ count ∧ .rounds count ∈ (repeatWhile condition body step false rounds done last store).1 := by
  induction rounds generalizing done last store with
  | zero => cases returned
  | succ rounds induction =>
    unfold repeatWhile at returned ⊢
    obtain ⟨log, value, middle, tested, returned⟩ := returned_of_bind returned
    rw [bind_of_some tested]
    by_cases goesOn : Number.isTrue value = true
    · rw [if_pos goesOn] at returned ⊢
      obtain ⟨more, result, middle, ran, returned⟩ := returned_of_bind returned
      obtain ⟨rest, _, middle, stepped, returned⟩ := returned_of_bind returned
      obtain ⟨count, enough, taken⟩ := induction returned
      rw [bind_of_some ran, bind_of_some stepped]
      refine ⟨count, by omega, ?_⟩
      simp [taken]
    · rw [if_neg goesOn]
      exact ⟨done, Nat.le_refl _, List.mem_append_right _ (List.mem_singleton_self _)⟩

section

variable {condition limitedCondition body limitedBody : Traced Float} {step limitedStep : Traced Unit}
  (first : Limits limit condition limitedCondition) (second : Limits limit body limitedBody)
  (third : Limits limit step limitedStep)

include first second third

theorem limits_repeatWhile (fuel rounds done : Nat) (last : Float) (all : done + rounds = limit) :
    Limits limit (repeatWhile condition body step false fuel done last)
      (repeatWhile limitedCondition limitedBody limitedStep true rounds done last) := by
  induction rounds generalizing fuel done last with
  | zero =>
    refine ⟨fun _ => rfl, fun store count taken => ?_, fun {store} returned fewer => ?_⟩
    · cases List.mem_singleton.mp taken
      omega
    · obtain ⟨count, enough, taken⟩ := rounds_of_repeatWhile returned
      have few := fewer count taken
      omega
  | succ rounds induction =>
    have goesOn (fuel : Nat) : Limits limit (repeatWhile condition body step false (fuel + 1) done last)
        (repeatWhile limitedCondition limitedBody limitedStep true (rounds + 1) done last) := by
      refine first.bind fun value => .ite (second.bind fun value => third.bind fun _ => ?_) ?_
      · exact induction fuel (done + 1) value (by omega)
      · refine ⟨fun _ => rfl, fun store count taken => ?_, fun _ _ => rfl⟩
        cases List.mem_singleton.mp taken
        omega
    cases fuel with
    | zero => exact (goesOn 0).of_stopped fun _ => rfl
    | succ fuel => exact goesOn fuel

end

theorem IsAccess.limits {cell : Cell} {computation : Traced α} (isAccess : computation.IsAccess cell) :
    Limits limit computation computation := by
  cases isAccess with
  | number | string | vector | reset => exact .straight (fun _ => rfl) (by simp)
  | assign | assignString => exact .straight (fun _ => rfl) (by simp [replaces]; split <;> simp)
  | assignVector target op value =>
    refine .straight (fun _ => rfl) fun store count => ?_
    split <;> simp
  | assignElement target index op value =>
    refine ⟨fun store => ?_, fun store count taken => ?_, fun _ _ => rfl⟩
    · unfold Traced.assignElement
      split <;> rfl
    · unfold Traced.assignElement at taken
      split at taken
      · cases taken
      · cases op <;> simp at taken

/-- The evaluations of a graph without limits and of the one in which every loop has the limit. -/
def limiting (limit fuel otherFuel : Nat) : Relation fuel otherFuel fun _ => some limit where
  Holds := Limits limit
  accessible _ := True
  callable _ := True
  bounded bound := bound = none
  pure := .pure
  bind := .bind
  access isAccess _ := isAccess.limits
  call _ _ := .straight (fun _ => rfl) fun _ _ => List.not_mem_nil
  loop admitted _ _ _ _ _ _ first second third := by
    subst admitted
    exact limits_repeatWhile first second third fuel limit 0 Number.nan (Nat.zero_add limit)

/-- Evaluations of one graph whose loops all have limits, with different rounds for other loops. -/
def refueling (fuel otherFuel : Nat) : Relation fuel otherFuel id where
  Holds := Eq
  accessible _ := True
  callable _ := True
  bounded bound := bound.isSome = true
  pure _ := rfl
  bind first second := by rw [first, funext second]
  access _ _ := rfl
  call _ _ := rfl
  loop admitted _ _ _ _ _ _ first second third := by
    obtain ⟨rounds, rfl⟩ := Option.isSome_iff_exists.mp admitted
    rw [first, second, third]
    rfl

end Traced

/-! ## Graphs -/

namespace AnyNode

def HasLimit (limit : Option Nat) : AnyNode → Prop
  | ⟨_, .loop _ _ _ _ bound⟩ => bound = limit
  | _ => True

/-- The graph in which every loop has the limit. -/
def limited (limit : Nat) (node : AnyNode) : AnyNode :=
  node.relabel (.onLimits fun _ => some limit)

theorem everywhere_limited (limit : Nat) (node : AnyNode) :
    (node.limited limit).Everywhere (HasLimit (some limit)) := by
  refine everywhere_relabel (everywhere_of_forall ?_ node)
  rintro ⟨k, node⟩
  cases node <;> first | rfl | trivial

variable {node : AnyNode} {limit : Nat}

/-- A graph whose loops all have limits is evaluated alike whatever rounds other loops may take. -/
theorem trace_eq_of_hasLimit (has : node.Everywhere (HasLimit (some limit))) (fuel otherFuel : Nat) :
    node.trace fuel = node.trace otherFuel := by
  have admitted : node.Everywhere (Traced.refueling fuel otherFuel).Admits := by
    refine has.imp ?_
    rintro ⟨k, node⟩ has
    cases node with
    | loop =>
      obtain rfl : _ = some limit := has
      rfl
    | userCall => trivial
    | _ => exact fun _ _ => trivial
  have relates : node.2.trace fuel = (node.2.relabel .none).trace otherFuel :=
    Traced.Relation.of_everywhere admitted
  rw [trace, trace, relates, node.2.relabel_none]

theorem limits_trace (has : node.Everywhere (HasLimit none)) (limit fuel otherFuel : Nat) :
    Traced.Limits limit (node.trace fuel) ((node.limited limit).trace otherFuel) := by
  have admitted : node.Everywhere (Traced.limiting limit fuel otherFuel).Admits := by
    refine has.imp ?_
    rintro ⟨k, node⟩ has
    cases node <;> first | exact has | exact fun _ _ => trivial
  have related : (Traced.limiting limit fuel otherFuel).Relates node := Traced.Relation.of_everywhere admitted
  obtain ⟨k, node⟩ := node
  exact Traced.Limits.bind related fun _ => .pure _

end AnyNode

end LiveExpr
