import LiveExpr.Proofs.Compile.Course
import LiveExpr.Proofs.Grammar.Usage
import LiveExpr.Proofs.Store.Allocation

/-!
What becomes of names while a formula is compiled without a problem: every name that is looked up is known or supplied
by the resolver, every name that is declared is not known in front of its declaration, and nothing else changes what is
known.
-/

namespace LiveExpr

namespace Progress

variable (environment : Environment)

def binding? (progress : Progress) (name : String) : Option Binding :=
  match progress.locals.lookup name with
  | some binding => some binding
  | none => (progress.world.table environment.table).lookup name

/-- Whether there has been no problem. -/
structure IsClear (progress : Progress) : Prop where
  reports : progress.reports = []
  reported : progress.reported = []

/-- Whether the resolver has accepted a name, for which there is a binding now: its own, or else a new scalar. -/
inductive Supplies (name : String) (before : Progress) : Progress → Prop
  | found {resolver : Resolver} (installed : environment.resolver = some resolver) {binding : Binding}
      (bound : ((resolver name environment.table before.world).2.table environment.table).lookup name =
        some binding) :
      Supplies name before
        { before with
          world := (resolver name environment.table before.world).2
          accepted := name :: before.accepted }
  | created {resolver : Resolver} (installed : environment.resolver = some resolver) {world : World}
      (created : (resolver name environment.table before.world).2.createScalar environment.table name 0.0 false =
        .ok world) :
      Supplies name before { before with world := world, accepted := name :: before.accepted }

def declare (progress : Progress) (name : String) (content : Value) : Progress :=
  { progress with
    world := { progress.world with store := (progress.world.store.allocate content).2 }
    locals := progress.locals.insert name (progress.world.store.allocate content).1.binding }

/-- Whether a compilation that does this with names can get from the first state to the second, with these cells for
what it declares. -/
inductive Runs : Progress → Usage → List Cell → Progress → Prop
  | done (progress : Progress) : Runs progress .nothing [] progress
  | known {before after : Progress} {name : String} {rest : Usage} {cells : List Cell} {binding : Binding}
      (found : before.binding? environment name = some binding) (others : Runs before rest cells after) :
      Runs before (.seek name rest) cells after
  | supplied {before middle after : Progress} {name : String} {rest : Usage} {cells : List Cell}
      (unknown : before.binding? environment name = none) (supplies : before.Supplies environment name middle)
      (others : Runs middle rest cells after) : Runs before (.seek name rest) cells after
  | declared {before middle after : Progress} {name : String} {initializer rest : Usage} {inner cells : List Cell}
      (unknown : before.binding? environment name = none) (initialized : Runs before initializer inner middle)
      (content : Value) (others : Runs (middle.declare name content) rest cells after) :
      Runs before (.declare name initializer rest) (inner ++ (middle.world.store.allocate content).1 :: cells) after

variable {environment} {before middle after : Progress}

theorem Runs.append {first second : Usage} {cells others : List Cell} (one : Runs environment before first cells middle)
    (other : Runs environment middle second others after) :
    Runs environment before (first ++ second) (cells ++ others) after := by
  induction one with
  | done => exact other
  | known found _ induction => exact .known found (induction other)
  | supplied unknown supplies _ induction => exact .supplied unknown supplies (induction other)
  | declared unknown initialized content _ _ induction =>
    rw [List.append_assoc]
    exact .declared unknown initialized content (induction other)

end Progress

namespace Compile

open Progress (IsClear)

variable {environment : Environment} {before after : Progress}

theorem known?_eq_ok {name : String} {found : Option Binding}
    (done : known? environment name before = (.ok found, after)) :
    before = after ∧ before.binding? environment name = found := by
  cases done
  exact ⟨rfl, rfl⟩

theorem known?_of_eq {name : String} {found : Option Binding} (known : before.binding? environment name = found) :
    known? environment name before = (.ok found, before) := by
  rw [← known]
  rfl

/-- A name that is known is not looked for any further. -/
theorem resolve_of_known {word : Lexeme} {binding : Binding}
    (known : before.binding? environment word.text = some binding) :
    resolve environment word before = (.ok (some binding), before) := by
  rw [resolve, bind_of_ok (known?_of_eq known)]
  rfl

theorem bindAccepted_eq_ok {resolver : Resolver} (installed : environment.resolver = some resolver) {name : String}
    {place : Place} {found : Option Binding} (undeclared : before.locals.lookup name = none)
    (done : bindAccepted environment name place
      { before with world := (resolver name environment.table before.world).2 } = (.ok found, after))
    (clear : after.IsClear) :
    before.IsClear ∧ ∃ binding, found = some binding ∧ after.binding? environment name = some binding ∧
      before.Supplies environment name after := by
  unfold bindAccepted at done
  dsimp only at done
  split at done
  · next binding bound =>
    cases done
    refine ⟨⟨clear.reports, clear.reported⟩, binding, rfl, ?_, .found installed bound⟩
    rw [Progress.binding?, undeclared]
    exact bound
  · split at done
    · next world created =>
      cases done
      have bound := SymbolTable.lookup_insert_same (World.lookup_of_createScalar created)
        (.scalar ((resolver name environment.table before.world).2.store.newNumber 0.0).1 false)
      rw [← (World.createScalar_eq_ok created).2] at bound
      refine ⟨⟨clear.reports, clear.reported⟩, _, bound, ?_, .created installed created⟩
      rw [Progress.binding?, undeclared]
      exact bound
    · cases done
      cases clear.reports

theorem askResolver_eq_ok {resolver : Resolver} (installed : environment.resolver = some resolver) {name : String}
    {place : Place} {found : Option Binding} (undeclared : before.locals.lookup name = none)
    (done : askResolver environment resolver name place before = (.ok found, after)) (clear : after.IsClear) :
    before.IsClear ∧ ∃ binding, found = some binding ∧ after.binding? environment name = some binding ∧
      before.Supplies environment name after := by
  unfold askResolver at done
  dsimp only at done
  split at done
  · exact bindAccepted_eq_ok installed undeclared done clear
  · cases done
    cases clear.reports

/-- Resolving a name without a problem: it is known, or the resolver supplies it. -/
theorem resolve_eq_ok {word : Lexeme} {found : Option Binding}
    (done : resolve environment word before = (.ok found, after)) (clear : after.IsClear) :
    before.IsClear ∧ ∃ binding, found = some binding ∧ after.binding? environment word.text = some binding ∧
      (after = before ∨
        before.binding? environment word.text = none ∧ before.Supplies environment word.text after) := by
  obtain ⟨known, middle, looked, done⟩ := bind_eq_ok done
  obtain ⟨rfl, rfl⟩ := known?_eq_ok looked
  cases known : before.binding? environment word.text with
  | some binding =>
    rw [known] at done
    cases done
    exact ⟨clear, binding, rfl, known, .inl rfl⟩
  | none =>
    rw [known] at done
    dsimp only at done
    rw [view_bind] at done
    split at done
    · next contained =>
      cases done
      rw [clear.reported] at contained
      cases contained
    · cases installed : environment.resolver with
      | none =>
        rw [installed] at done
        cases done
        cases clear.reports
      | some resolver =>
        have undeclared : before.locals.lookup word.text = none := by
          unfold Progress.binding? at known
          split at known
          · cases known
          · assumption
        rw [installed] at done
        obtain ⟨clearBefore, binding, rfl, bound, supplies⟩ := askResolver_eq_ok installed undeclared done clear
        exact ⟨clearBefore, binding, rfl, bound, .inr ⟨rfl, supplies⟩⟩

theorem mayDeclare_eq_ok {word : Lexeme} {allowed : Bool}
    (done : mayDeclare environment word before = (.ok allowed, after)) (clear : after.IsClear) :
    allowed = true ∧ after = before ∧ before.binding? environment word.text = none ∧
      Name.isReserved word.text = false := by
  unfold mayDeclare at done
  split at done
  · cases done
    cases clear.reports
  · next free =>
    obtain ⟨known, middle, looked, done⟩ := bind_eq_ok done
    obtain ⟨rfl, rfl⟩ := known?_eq_ok looked
    split at done
    · cases done
      cases clear.reports
    · next unknown =>
      cases done
      exact ⟨rfl, rfl, Option.not_isSome_iff_eq_none.mp unknown, Bool.eq_false_iff.mpr free⟩

end Compile

end LiveExpr
