import LiveExpr.Proofs.Compile.Law

/-!
What the graph of a formula assigns to: variables and vectors that a name has stood for during the compilation, and the
cells that have been allocated for declared variables. It assigns to nothing else.
-/

namespace LiveExpr

open AnyNode (Everywhere)

def AnyNode.AssignsWithin (assignable : Binding → Prop) : AnyNode → Prop
  | ⟨_, .assign target _ _⟩ => assignable (.scalar target false)
  | ⟨_, .stringAssign target _ _⟩ => assignable (.string target false)
  | ⟨_, .assignElement target _ _ _⟩ | ⟨_, .vectorAssign target _ _⟩ | ⟨_, .reset target _ _⟩ =>
    assignable (.vector target)
  | _ => True

theorem AnyNode.AssignsWithin.imp {assignable other : Binding → Prop} {node : AnyNode}
    (assigns : node.AssignsWithin assignable) (implies : ∀ binding, assignable binding → other binding) :
    node.AssignsWithin other := by
  obtain ⟨k, node⟩ := node
  cases node <;> first | exact implies _ assigns | trivial

/-- All nodes assign to what has been assignable during the compilation. -/
def assigningLaw (environment : Environment) (world : World) : GraphLaw environment world where
  Holds progress node := node.AssignsWithin (progress.Assignable environment world)
  later reached _ assigns := assigns.imp fun _ assignable => assignable.later reached
  number _ _ _ _ := trivial
  text _ _ _ _ := trivial
  vector _ _ _ := trivial
  constant _ := trivial
  literal _ := trivial
  binary _ _ _ := trivial
  chain _ _ := trivial
  concat _ := trivial
  loop _ _ _ _ _ := trivial
  elementOperation _ _ _ _ _ := by
    unfold Node.elementOperation
    split <;> trivial
  alike alike := by
    cases alike with
    | assign _ _ target | stringAssign _ _ target | assignElement _ _ _ target | vectorAssign _ _ target
    | reset _ _ target => exact target
    | _ => trivial

/-- What a compilation stores assigns to nothing but what has been assignable during the compilation. -/
theorem Compilation.root_assigns {environment : Environment} {source : String} {world : World} {root : AnyNode}
    (compiled : (ofSource environment source world).root = some root) :
    ∃ progress, (Progress.start world).Reaches environment progress ∧
      progress.world = (ofSource environment source world).world ∧
      Everywhere (AnyNode.AssignsWithin (progress.Assignable environment world)) root :=
  (assigningLaw environment world).everywhere_root compiled

end LiveExpr
