import LiveExpr.Proofs.Compile.Plain
import LiveExpr.Proofs.Compile.Work

/-!
Computations that come to a value from every state, and those that halt nowhere but in front of given lexemes. What a
name stands for is always found out, and calls and references halt behind what they are spelled with.
-/

namespace LiveExpr

namespace Compile

variable {α β γ : Type}

def Lasts (computation : Compile α) : Prop :=
  ∀ before, ∃ value after, computation before = (.ok value, after)

/-- Whether a computation halts nowhere but in front of the given lexemes. -/
def HaltsAt (rest : List Lexeme) (computation : Compile α) : Prop :=
  ∀ before halt after, computation before = (.error halt, after) → halt.rest = rest

theorem Plain.lasts {computation : Compile α} (plain : computation.Plain) : computation.Lasts := by
  intro before
  obtain ⟨value, after, done, -⟩ := plain before
  exact ⟨value, after, done⟩

theorem Declares.lasts {allowed : Bool} {name : String} {computation : Compile α}
    (declares : Declares allowed name computation) : computation.Lasts := by
  intro before
  obtain ⟨value, -, after, done, -⟩ := declares before
  exact ⟨value, after, done⟩

theorem Lasts.haltsAt {computation : Compile α} (lasts : computation.Lasts) (rest : List Lexeme) :
    computation.HaltsAt rest := by
  intro before halt after halted
  obtain ⟨value, _, done⟩ := lasts before
  rw [done] at halted
  cases halted

theorem Lasts.bind {first : Compile α} {next : α → Compile β} (lasts : first.Lasts)
    (continued : ∀ value, (next value).Lasts) : (first >>= next).Lasts := by
  intro before
  obtain ⟨value, middle, done⟩ := lasts before
  rw [bind_of_ok done]
  exact continued value middle

theorem HaltsAt.bind {first : Compile α} {next : α → Compile β} {rest : List Lexeme} (lasts : first.Lasts)
    (halts : ∀ value, (next value).HaltsAt rest) : (first >>= next).HaltsAt rest := by
  intro before halt after halted
  obtain ⟨value, middle, done⟩ := lasts before
  rw [bind_of_ok done] at halted
  exact halts value middle halt after halted

theorem HaltsAt.halt (problem : Problem) (place : Place) (rest : List Lexeme) :
    (Compile.halt problem place rest : Compile α).HaltsAt rest := by
  intro before halt after halted
  cases halted
  rfl

/-! ## Names -/

theorem bindAccepted_lasts (environment : Environment) (name : String) (place : Place) :
    (bindAccepted environment name place).Lasts := by
  intro before
  unfold bindAccepted
  dsimp only
  split
  · exact ⟨_, _, rfl⟩
  · split <;> exact ⟨_, _, rfl⟩

theorem askResolver_lasts (environment : Environment) (resolver : Resolver) (name : String) (place : Place) :
    (askResolver environment resolver name place).Lasts := by
  intro before
  unfold askResolver
  dsimp only
  split
  · exact bindAccepted_lasts environment name place _
  · exact ⟨none, _, rfl⟩

theorem resolve_lasts (environment : Environment) (word : Lexeme) : (resolve environment word).Lasts := by
  refine (Plain.view _).lasts.bind fun known => ?_
  cases known with
  | some binding => exact (Plain.pure _).lasts
  | none =>
    refine (Plain.view _).lasts.bind fun reported => ?_
    split
    · exact (Plain.pure _).lasts
    · split
      · exact askResolver_lasts environment _ _ _
      · exact fun before => ⟨none, _, rfl⟩

theorem reference_haltsAt (settings : Settings) (word : Lexeme) (rest : List Lexeme) (binding : Option Binding) :
    (reference settings word rest binding).HaltsAt rest := by
  match binding with
  | some (.function _) => exact .halt _ _ rest
  | none => exact (Plain.pure _).lasts.haltsAt rest
  | some (.scalar ..) => exact (Plain.view _).lasts.haltsAt rest
  | some (.string ..) => exact (Plain.view _).lasts.haltsAt rest
  | some (.vector _) => exact (Plain.pure _).lasts.haltsAt rest

theorem call_haltsAt (environment : Environment) (word : Lexeme) (arguments : List (Place × AnyNode))
    (rest : List Lexeme) : (Compile.call environment word arguments rest).HaltsAt rest := by
  unfold Compile.call
  dsimp only
  split
  · split
    · exact (builtinCall_plain _ word _ arguments).lasts.haltsAt rest
    · exact .halt _ _ rest
  · refine .bind (Plain.view _).lasts fun known => ?_
    match known with
    | some (.function function) =>
      dsimp only
      split
      · exact (userCall_plain function arguments).lasts.haltsAt rest
      · exact .halt _ _ rest
    | some (.scalar ..) => exact (failed_plain rfl _).lasts.haltsAt rest
    | some (.string ..) => exact (failed_plain rfl _).lasts.haltsAt rest
    | some (.vector _) => exact (failed_plain rfl _).lasts.haltsAt rest
    | none =>
      refine .bind (Plain.view _).lasts fun reported => ?_
      split
      · exact (Plain.pure _).lasts.haltsAt rest
      · exact Lasts.haltsAt (fun before => ⟨_, _, rfl⟩) rest

/-! ## Computations one after another -/

/-- One computation and another one behind it, with the values of both. -/
def both (first : Compile α) (second : α → Compile β) : Compile (α × β) := do
  let value ← first
  let other ← second value
  pure (value, other)

section Both

variable {first : Compile α} {second : α → Compile β} {before middle after : Progress} {value : α}

theorem both_of_ok {other : β} (done : first before = (.ok value, middle))
    (ended : second value middle = (.ok other, after)) : both first second before = (.ok (value, other), after) := by
  rw [both, bind_of_ok done, bind_of_ok ended, pure_apply]

theorem both_of_error {halt : Halt} (done : first before = (.ok value, middle))
    (halted : second value middle = (.error halt, after)) : both first second before = (.error halt, after) := by
  rw [both, bind_of_ok done, bind_of_error halted]

end Both

theorem LeadsTo.first (computation : Compile α) (next : α → Compile β) : computation.LeadsTo (computation >>= next) :=
  fun _ _ _ halted => bind_of_error halted

end Compile

end LiveExpr
