import LiveExpr.Proofs.Transport.Grammar

/-!
Statements of programs in other sources: what is compiled of a statement does not depend on where it stands.
-/

namespace LiveExpr.Compile

variable {transport : Transport}

theorem statement_carries (environment : Environment) {bound : Nat} {lexemes : List Lexeme}
    (admitted : transport.Admits [] lexemes) (room : lexemes.length ≤ bound) :
    Carries transport (fun one other => other = (one.1, transport.carry one.2) ∧ Grammar.Ended transport [] one.2)
      (statement environment bound lexemes)
      (statement environment (bound + transport.slack) (transport.carry lexemes)) := by
  let outermost := Grammar.outermost environment.settings.maxDepth
  have carries : (outermost bound).Carries transport (outermost (bound + transport.slack)) :=
    Grammar.innerAt_carries _ bound _
  have outcome := Grammar.endedStatement_carries carries [] room lexemes ⟨admitted, Nat.le_refl _⟩
  unfold statement
  generalize read : Grammar.endedStatement (outermost bound) lexemes = one at outcome
  generalize Grammar.endedStatement (outermost (bound + transport.slack)) (transport.carry lexemes) = other at outcome
  cases outcome with
  | read carried ended => exact (carried environment).bind_same fun _ => .pure ⟨rfl, ended⟩
  | stopped carried =>
    have halts := Grammar.endedStatement_halts carries.sound read
    exact (carried environment).bind_of_halts (halts environment) _ _

end LiveExpr.Compile
