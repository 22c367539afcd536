import LiveExpr.Proofs.Compile.Course

/-!
Joining nodes without halting. All that may happen to the state of the compilation is that cells are allocated and that
problems with kinds are recorded, so every name stands for what it stood for; a declaration makes its own name known
besides.
-/

namespace LiveExpr

/-- What joining nodes may do to the state of a compilation. -/
structure Progress.Quiet (before after : Progress) : Prop where
  tables : after.world.tables = before.world.tables
  locals : after.locals = before.locals
  accepted : after.accepted = before.accepted
  reported : after.reported = before.reported
  reports : ∃ found, after.reports = found ++ before.reports ∧ ∀ report ∈ found, report.problem.phase = .kinds

namespace Progress.Quiet

theorem refl (progress : Progress) : progress.Quiet progress :=
  ⟨rfl, rfl, rfl, rfl, [], rfl, List.forall_mem_nil _⟩

theorem trans {before middle after : Progress} (first : before.Quiet middle) (second : middle.Quiet after) :
    before.Quiet after := by
  obtain ⟨found, sameReports, kinds⟩ := first.reports
  obtain ⟨more, sameMore, moreKinds⟩ := second.reports
  refine ⟨second.tables.trans first.tables, second.locals.trans first.locals, second.accepted.trans first.accepted,
    second.reported.trans first.reported, more ++ found, ?_, List.forall_mem_append.mpr ⟨moreKinds, kinds⟩⟩
  rw [sameMore, sameReports, List.append_assoc]

theorem report (progress : Progress) {report : Report} (kinds : report.problem.phase = .kinds) :
    progress.Quiet { progress with reports := report :: progress.reports } :=
  ⟨rfl, rfl, rfl, rfl, [report], rfl, List.forall_mem_singleton.mpr kinds⟩

end Progress.Quiet

namespace Compile

variable {α β : Type}

/-- Whether a computation comes to a value and does no more than joining nodes may do. -/
def Plain (computation : Compile α) : Prop :=
  ∀ before, ∃ value after, computation before = (.ok value, after) ∧ before.Quiet after

namespace Plain

theorem pure (value : α) : (Pure.pure value : Compile α).Plain :=
  fun before => ⟨value, before, rfl, .refl before⟩

theorem view (look : Progress → α) : (Compile.view look).Plain :=
  fun before => ⟨look before, before, rfl, .refl before⟩

theorem bind {first : Compile α} {continuation : α → Compile β} (plain : first.Plain)
    (continued : ∀ value, (continuation value).Plain) : (first >>= continuation).Plain := by
  intro before
  obtain ⟨value, middle, done, quiet⟩ := plain before
  obtain ⟨result, after, ended, further⟩ := continued value middle
  refine ⟨result, after, ?_, quiet.trans further⟩
  rw [bind_of_ok done, ended]

theorem report {problem : Problem} (kinds : problem.phase = .kinds) (place : Place) :
    (Compile.report problem place).Plain :=
  fun before => ⟨(), _, rfl, .report before kinds⟩

theorem allocate (new : Store → α × Store) : (Compile.allocate new).Plain :=
  fun _ => ⟨_, _, rfl, rfl, rfl, rfl, rfl, [], rfl, List.forall_mem_nil _⟩

end Plain

/-! ## Making nodes -/

theorem scalar_plain (settings : Settings) (node : Node .scalar) : (scalar settings node).Plain :=
  .view _

theorem string_plain (settings : Settings) (node : Node .string) : (string settings node).Plain :=
  .view _

theorem failed_plain {problem : Problem} (kinds : problem.phase = .kinds) (place : Place) :
    (failed problem place).Plain :=
  (Plain.report kinds place).bind fun _ => .pure _

theorem requireScalar_plain (role : Role) (place : Place) (node : AnyNode) : (requireScalar role place node).Plain := by
  rcases node with ⟨_ | _ | _, node⟩
  · exact .pure _
  · exact (Plain.report rfl place).bind fun _ => .pure _
  · exact (Plain.report rfl place).bind fun _ => .pure _

theorem requireString_plain (role : Role) (place : Place) (node : AnyNode) : (requireString role place node).Plain := by
  rcases node with ⟨_ | _ | _, node⟩
  · exact (Plain.report rfl place).bind fun _ => .pure _
  · exact .pure _
  · exact (Plain.report rfl place).bind fun _ => .pure _

theorem requireScalars_plain (role : Role) (nodes : List (Place × AnyNode)) : (requireScalars role nodes).Plain := by
  induction nodes with
  | nil => exact .pure _
  | cons first rest induction =>
    exact (requireScalar_plain role first.1 first.2).bind fun _ => induction.bind fun _ => .pure _

variable (settings : Settings)

theorem negation_plain (sign : Lexeme) (node : AnyNode) : (negation settings sign node).Plain := by
  rcases node with ⟨_ | _ | _, node⟩
  · exact scalar_plain settings _
  · exact failed_plain rfl _
  · exact .pure _

theorem affirmation_plain (sign : Lexeme) (node : AnyNode) : (affirmation sign node).Plain := by
  rcases node with ⟨_ | _ | _, node⟩
  · exact .pure _
  · exact failed_plain rfl _
  · exact .pure _

theorem denial_plain (start : Place) (node : AnyNode) : (denial settings start node).Plain :=
  (requireScalar_plain _ start node).bind fun _ => scalar_plain settings _

theorem arithmetic_plain (op : BinaryOperator) (sign : Lexeme) (left right : AnyNode) :
    (arithmetic settings op sign left right).Plain := by
  unfold arithmetic
  split
  · exact scalar_plain settings _
  · exact .pure _
  · exact .pure _
  · exact .pure _
  · split
    · exact string_plain settings _
    · exact failed_plain rfl _
  · exact failed_plain rfl _

theorem logical_plain (op : BinaryOperator) (leftStart : Place) (left : AnyNode) (rightStart : Place)
    (right : AnyNode) : (logical settings op leftStart left rightStart right).Plain := by
  refine (requireScalar_plain _ leftStart left).bind fun _ => ?_
  exact (requireScalar_plain _ rightStart right).bind fun _ => scalar_plain settings _

theorem relation_plain (sign : Lexeme) (left right : AnyNode) : (relation settings sign left right).Plain := by
  unfold relation
  split
  · unfold stringTest
    split
    · exact scalar_plain settings _
    · exact failed_plain rfl _
  · unfold comparison
    split
    · exact scalar_plain settings _
    · exact scalar_plain settings _
    · exact failed_plain rfl _
  · exact .pure _

theorem conditional_plain (condition : Node .scalar) (branch : Place) (consequent alternative : AnyNode) :
    (conditional settings condition branch consequent alternative).Plain := by
  unfold conditional
  split
  · exact scalar_plain settings _
  · exact string_plain settings _
  · exact failed_plain rfl _
  · exact failed_plain rfl _
  · exact failed_plain rfl _

theorem conditionalOnly_plain (condition : Node .scalar) (branch : Place) (consequent : AnyNode) :
    (conditionalOnly settings condition branch consequent).Plain := by
  rcases consequent with ⟨_ | _ | _, consequent⟩
  · exact scalar_plain settings _
  · exact string_plain settings _
  · exact failed_plain rfl _

theorem size_plain (bracket : Lexeme) (base : AnyNode) : (size settings bracket base).Plain := by
  rcases base with ⟨_ | _ | _, base⟩
  · exact failed_plain rfl _
  · exact scalar_plain settings _
  · exact scalar_plain settings _

theorem element_plain (bracket : Lexeme) (base : AnyNode) (start : Place) (index : AnyNode) :
    (element bracket base start index).Plain := by
  refine (requireScalar_plain _ start index).bind fun _ => ?_
  rcases base with ⟨_ | _ | _, base⟩
  · exact failed_plain rfl _
  · exact failed_plain rfl _
  · exact .pure _

theorem range_plain (bracket : Lexeme) (base : AnyNode) (firstStart : Place) (first : AnyNode) (lastStart : Place)
    (last : AnyNode) : (range settings bracket base firstStart first lastStart last).Plain := by
  refine (requireScalar_plain _ firstStart first).bind fun _ => ?_
  refine (requireScalar_plain _ lastStart last).bind fun _ => ?_
  rcases base with ⟨_ | _ | _, base⟩
  · exact (Plain.report rfl _).bind fun _ => .pure _
  · exact string_plain settings _
  · exact (Plain.report rfl _).bind fun _ => .pure _

theorem builtinCall_plain (word : Lexeme) (function : Builtin) (arguments : List (Place × AnyNode)) :
    (builtinCall settings word function arguments).Plain := by
  unfold builtinCall
  split
  · split
    · exact .pure _
    · exact .pure _
    · exact failed_plain rfl _
    · exact failed_plain rfl _
  · exact (requireScalars_plain _ arguments).bind fun _ => scalar_plain settings _

theorem userCall_plain (function : FunctionHandle) (arguments : List (Place × AnyNode)) :
    (userCall function arguments).Plain :=
  (requireScalars_plain _ arguments).bind fun _ => .pure _

/-! ## References and assignments -/

theorem reference_plain (word : Lexeme) (rest : List Lexeme) {binding : Option Binding}
    (value : ∀ function, binding ≠ some (.function function)) : (reference settings word rest binding).Plain := by
  match binding with
  | none => exact .pure _
  | some (.scalar cell constant) => exact .view _
  | some (.string cell constant) => exact .view _
  | some (.vector cell) => exact .pure _
  | some (.function function) => exact absurd rfl (value function)

theorem assignment_plain (word sign : Lexeme) (target : Option Binding) (start : Place) (value : AnyNode) :
    (assignment word sign target start value).Plain := by
  match target with
  | none => exact .pure _
  | some (.scalar _ true) => exact failed_plain rfl _
  | some (.string _ true) => exact failed_plain rfl _
  | some (.scalar cell false) => exact (requireScalar_plain _ start value).bind fun _ => .pure _
  | some (.string cell false) =>
    dsimp only [assignment]
    split
    · exact failed_plain rfl _
    · exact (requireString_plain _ start value).bind fun _ => .pure _
  | some (.vector cell) =>
    rcases value with ⟨_ | _ | _, value⟩
    · exact .pure _
    · exact failed_plain rfl _
    · exact .pure _
  | some (.function _) => exact failed_plain rfl _

theorem elementAssignment_plain (word sign : Lexeme) (target : Option Binding) (start : Place)
    (index value : AnyNode) : (elementAssignment word sign target start index value).Plain := by
  match target with
  | none => exact .pure _
  | some (.vector cell) =>
    refine (requireScalar_plain _ start index).bind fun _ => ?_
    exact (requireScalar_plain _ (.lexeme word) value).bind fun _ => .pure _
  | some (.scalar ..) => exact failed_plain rfl _
  | some (.string ..) => exact failed_plain rfl _
  | some (.function _) => exact failed_plain rfl _

/-! ## Declarations -/

variable {environment : Environment}

theorem mayDeclare_plain (word : Lexeme) : (mayDeclare environment word).Plain := by
  unfold mayDeclare
  split
  · exact (Plain.report rfl _).bind fun _ => .pure _
  · refine Plain.bind (.view _) fun found => ?_
    split
    · exact (Plain.report rfl _).bind fun _ => .pure _
    · exact .pure _

theorem mayDeclare_refused {word : Lexeme} {before after : Progress}
    (refused : mayDeclare environment word before = (.ok false, after)) :
    ∃ report ∈ after.reports, report.problem.phase = .kinds := by
  unfold mayDeclare at refused
  split at refused
  · cases refused
    exact ⟨_, List.mem_cons_self, rfl⟩
  · obtain ⟨found, middle, looked, refused⟩ := bind_eq_ok refused
    split at refused
    · cases refused
      exact ⟨_, List.mem_cons_self, rfl⟩
    · cases refused

/-- Whether a computation comes to a value and makes a name known as a variable, if that is allowed; otherwise it finds
a problem with kinds, or does no more than joining nodes may do. -/
def Declares (allowed : Bool) (name : String) (computation : Compile α) : Prop :=
  ∀ before, ∃ value middle after, computation before = (.ok value, after) ∧ before.Quiet middle ∧
    (allowed = true ∧ (∃ binding, (∀ function, binding ≠ .function function) ∧
        after = { middle with locals := middle.locals.insert name binding }) ∨
      after = middle ∧ (allowed = true → ∃ report ∈ middle.reports, report.problem.phase = .kinds))

theorem declares_declare {next : Unit → Compile α} (allowed : Bool) (name : String) {binding : Binding}
    (value : ∀ function, binding ≠ .function function) {result : α} (last : next () = pure result) :
    Declares allowed name (declare allowed name binding >>= next) := by
  intro before
  cases allowed with
  | true =>
    refine ⟨result, before, { before with locals := before.locals.insert name binding }, ?_, .refl before,
      .inl ⟨rfl, binding, value, rfl⟩⟩
    change next () _ = _
    rw [last, pure_apply]
  | false =>
    refine ⟨result, before, before, ?_, .refl before, .inr ⟨rfl, nofun⟩⟩
    change next () _ = _
    rw [last, pure_apply]

theorem Plain.declares {allowed : Bool} {name : String} {first : Compile α} {continuation : α → Compile β}
    (plain : first.Plain) (declares : ∀ value, (continuation value).Declares allowed name) :
    (first >>= continuation).Declares allowed name := by
  intro before
  obtain ⟨value, early, done, quiet⟩ := plain before
  obtain ⟨result, middle, after, ended, further, outcome⟩ := declares value early
  refine ⟨result, middle, after, ?_, quiet.trans further, outcome⟩
  rw [bind_of_ok done, ended]

theorem declaration_declares (allowed : Bool) (word : Lexeme) (start : Place) (value : AnyNode) :
    (declaration allowed word start value).Declares allowed word.text := by
  rcases value with ⟨_ | _ | _, value⟩
  · exact (Plain.allocate _).declares fun _ => declares_declare allowed word.text nofun rfl
  · exact (Plain.allocate _).declares fun _ => declares_declare allowed word.text nofun rfl
  · intro before
    exact ⟨_, _, _, rfl, .report before rfl, .inr ⟨rfl, fun _ => ⟨_, List.mem_cons_self, rfl⟩⟩⟩

theorem listedVector_declares (allowed : Bool) (word : Lexeme) (size : Nat) (bracket : Lexeme)
    (elements : List (Node .scalar)) :
    (listedVector allowed word size bracket elements).Declares allowed word.text := by
  have vector : Declares allowed word.text (do
      let cell ← Compile.allocate (·.newVector (List.replicate size 0.0))
      declare allowed word.text (.vector cell)
      pure (AnyNode.vector (.reset cell elements false))) :=
    (Plain.allocate _).declares fun _ => declares_declare allowed word.text nofun rfl
  unfold listedVector
  split
  · exact (Plain.report rfl _).declares fun _ => vector
  · exact vector

theorem filledVector_declares (allowed : Bool) (word : Lexeme) (size : Nat) (start : Place) (value : AnyNode) :
    (filledVector allowed word size start value).Declares allowed word.text := by
  refine (Plain.allocate _).declares fun cell => ?_
  have filled : (filling word cell start value).Plain := by
    rcases value with ⟨_ | _ | _, value⟩
    · exact .pure _
    · exact (Plain.report rfl _).bind fun _ => .pure _
    · exact .pure _
  exact filled.declares fun _ => declares_declare allowed word.text nofun rfl

end Compile

end LiveExpr
