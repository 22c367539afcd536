import LiveExpr.Compile.Formula

/-!
What holds of every result of a computation that may report problems, and of what stands in for a result where it does.
-/

namespace LiveExpr

namespace Compile

def Makes {α : Type} (property : α → Prop) (computation : Compile α) : Prop :=
  ∀ before value after, computation before = (.ok value, after) → property value

namespace Makes

variable {α β : Type} {property : α → Prop} {next : β → Prop}

theorem pure {value : α} (holds : property value) : (Pure.pure value : Compile α).Makes property := by
  rintro before _ _ ⟨⟩
  exact holds

theorem halt (problem : Problem) (place : Place) (rest : List Lexeme) :
    (Compile.halt problem place rest : Compile α).Makes property :=
  nofun

theorem view {look : Progress → α} (holds : ∀ progress, property (look progress)) :
    (Compile.view look).Makes property := by
  rintro before _ _ ⟨⟩
  exact holds before

theorem bind {first : Compile α} {continuation : α → Compile β} (makes : first.Makes property)
    (continued : ∀ value, property value → (continuation value).Makes next) :
    (first >>= continuation).Makes next := by
  intro before result after done
  rw [bind_apply] at done
  split at done
  next value middle made => exact continued value (makes before value middle made) middle result after done
  next => cases done

/-- Where nothing depends on the first result. -/
theorem later (first : Compile α) {continuation : α → Compile β} (makes : ∀ value, (continuation value).Makes next) :
    (first >>= continuation).Makes next :=
  bind (fun _ _ _ _ => trivial : first.Makes fun _ => True) fun value _ => makes value

theorem imp {computation : Compile α} {other : α → Prop} (makes : computation.Makes property)
    (implies : ∀ value, property value → other value) : computation.Makes other :=
  fun before value after done => implies value (makes before value after done)

end Makes

theorem failed_makes {property : AnyNode → Prop} (holds : property placeholder) (problem : Problem) (place : Place) :
    (failed problem place).Makes property :=
  .later _ fun _ => .pure holds

theorem requireScalar_makes (property : Node .scalar → Prop) (missing : property .missing) {node : AnyNode}
    (holds : ∀ scalar, node = .scalar scalar → property scalar) (role : Role) (place : Place) :
    (requireScalar role place node).Makes property := by
  rcases node with ⟨_ | _ | _, node⟩
  · exact .pure (holds node rfl)
  · exact .later _ fun _ => .pure missing
  · exact .later _ fun _ => .pure missing

end Compile

end LiveExpr
