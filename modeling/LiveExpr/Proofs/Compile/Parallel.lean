import LiveExpr.Proofs.Compile.Course
import Mathlib.Data.List.Forall2

/-!
Two compilations side by side. They start from one state and have to end in one state; only their results may
differ, and they differ by a relation that can depend on the state reached.
-/

namespace LiveExpr.Compile

inductive Outcomes {α β : Type} (relation : α → β → Prop) : Except Halt α → Except Halt β → Prop
  | done {first : α} {second : β} (related : relation first second) :
      Outcomes relation (.ok first) (.ok second)
  | halted {halt : Halt} (grammatical : halt.report.problem.phase = .grammatical) :
      Outcomes relation (.error halt) (.error halt)

variable (environment : Environment) {α β γ δ : Type}

/-- Whether two computations go together from a state. -/
structure Parallel (relation : Progress → α → β → Prop) (before : Progress) (first : Compile α)
    (second : Compile β) : Prop where
  same : (second before).2 = (first before).2
  reaches : before.Reaches environment (first before).2
  outcomes : Outcomes (relation (first before).2) (first before).1 (second before).1

namespace Parallel

variable {environment} {relation : Progress → α → β → Prop} {next : Progress → γ → δ → Prop}
  {before : Progress}

theorem pure {first : α} {second : β} (related : relation before first second) :
    Parallel environment relation before (Pure.pure first) (Pure.pure second) :=
  ⟨rfl, .refl, .done related⟩

theorem view {first : Progress → α} {second : Progress → β}
    (related : relation before (first before) (second before)) :
    Parallel environment relation before (Compile.view first) (Compile.view second) :=
  ⟨rfl, .refl, .done related⟩

theorem halt {problem : Problem} (grammatical : problem.phase = .grammatical) (place : Place)
    (rest : List Lexeme) :
    Parallel environment relation before (Compile.halt problem place rest)
      (Compile.halt problem place rest) :=
  ⟨rfl, .refl, .halted grammatical⟩

theorem bind {first : Compile α} {second : Compile β} {firstNext : α → Compile γ}
    {secondNext : β → Compile δ} (parallel : Parallel environment relation before first second)
    (continued : ∀ {middle : Progress} {a : α} {b : β}, before.Reaches environment middle →
      relation middle a b → Parallel environment next middle (firstNext a) (secondNext b)) :
    Parallel environment next before (first >>= firstNext) (second >>= secondNext) := by
  obtain ⟨same, reaches, outcomes⟩ := parallel
  cases firstDone : first before with
  | mk firstOutcome middle =>
    cases secondDone : second before with
    | mk secondOutcome other =>
      rw [firstDone] at reaches outcomes same
      rw [secondDone] at outcomes same
      dsimp only at same reaches outcomes
      subst same
      cases outcomes with
      | done related =>
        have firstRun : (first >>= firstNext) before = firstNext _ other := bind_of_ok firstDone
        have secondRun : (second >>= secondNext) before = secondNext _ other := bind_of_ok secondDone
        have after := continued reaches related
        refine ⟨?_, ?_, ?_⟩
        · rw [firstRun, secondRun]
          exact after.same
        · rw [firstRun]
          exact reaches.trans after.reaches
        · rw [firstRun, secondRun]
          exact after.outcomes
      | @halted halt grammatical =>
        have firstRun : (first >>= firstNext) before = (.error halt, other) := bind_of_error firstDone
        have secondRun : (second >>= secondNext) before = (.error halt, other) := bind_of_error secondDone
        refine ⟨?_, ?_, ?_⟩
        · rw [firstRun, secondRun]
        · rw [firstRun]
          exact reaches
        · rw [firstRun, secondRun]
          exact .halted grammatical

/-- A computation that does not look at what differs goes together with itself. -/
theorem unchanged {computation : Compile α} {property : Progress → α → Prop}
    (reaches : before.Reaches environment (computation before).2) {value : α}
    (done : (computation before).1 = .ok value) (established : property (computation before).2 value) :
    Parallel environment (fun progress first second => first = second ∧ property progress first) before
      computation computation := by
  refine ⟨rfl, reaches, ?_⟩
  rw [done]
  exact .done ⟨rfl, established⟩

/-- After a report, both go on from a state with a report over the same world. -/
theorem report {problem : Problem} {place : Place} {first : Compile γ} {second : Compile δ}
    (continued : ∀ {middle : Progress}, before.Reaches environment middle → middle.reports ≠ [] →
      middle.world = before.world → Parallel environment next middle first second) :
    Parallel environment next before (Compile.report problem place >>= fun _ => first)
      (Compile.report problem place >>= fun _ => second) := by
  have reached : before.Reaches environment (Compile.report problem place before).2 :=
    .single (.report before _)
  have after := continued reached (List.cons_ne_nil _ _) rfl
  exact ⟨after.same, reached.trans after.reaches, after.outcomes⟩

theorem reportName {name : String} {problem : Problem} {place : Place} {first : Compile γ}
    {second : Compile δ}
    (continued : ∀ {middle : Progress}, before.Reaches environment middle → middle.reports ≠ [] →
      Parallel environment next middle first second) :
    Parallel environment next before (Compile.reportName name problem place >>= fun _ => first)
      (Compile.reportName name problem place >>= fun _ => second) := by
  have reached : before.Reaches environment (Compile.reportName name problem place before).2 :=
    .single (.reportName before name _)
  have after := continued reached (List.cons_ne_nil _ _)
  exact ⟨after.same, reached.trans after.reaches, after.outcomes⟩

/-- Both declare one variable, and find the same problems with it. -/
theorem declared (allowed : Bool) (name : String) (found : List Report) {binding : Binding} {world : World}
    (allocates : before.world.Allocates binding world) {first : Compile γ} {second : Compile δ} {a : γ} {b : δ}
    (firstDone : first before = (.ok a, before.declared allowed name found binding world))
    (secondDone : second before = (.ok b, before.declared allowed name found binding world))
    (related : next (before.declared allowed name found binding world) a b) :
    Parallel environment next before first second := by
  refine ⟨by rw [firstDone, secondDone], ?_, ?_⟩
  · rw [firstDone]
    exact Progress.reaches_declared allowed name found allocates
  · rw [firstDone, secondDone]
    exact .done related

end Parallel

/-! ## Names -/

variable {environment}

theorem resolve_parallel {world : World} {before : Progress}
    (reached : (Progress.start world).Reaches environment before) (word : Lexeme) :
    Parallel environment
      (fun progress first second => first = second ∧
        (∀ binding, first = some binding → progress.Binds environment binding) ∧
        (first = none → progress.reports ≠ [])) before
      (resolve environment word) (resolve environment word) := by
  have resolved := resolve_resolved reached word
  rcases resolved.found with ⟨binding, done, established⟩
  exact Parallel.unchanged resolved.reaches done established

theorem mayDeclare_parallel {before : Progress} (word : Lexeme) :
    Parallel environment (fun _ first second => first = second ∧ True) before
      (mayDeclare environment word) (mayDeclare environment word) := by
  rcases mayDeclare_reaches word before with ⟨reaches, _, done⟩
  exact Parallel.unchanged reaches done trivial

end LiveExpr.Compile
