import LiveExpr.Proofs.Compile.Fundamental

/-!
Whole sources: what a correspondence says of two compilations of one source with settings of equal depth.
-/

namespace LiveExpr

namespace Compile

variable {environment : Environment} {bound : Nat} {lexemes rest : List Lexeme} {tree : Tree}

theorem statement_of_ok
    (read : Grammar.endedStatement (Grammar.outermost environment.settings.maxDepth bound) lexemes =
      .ok (tree, rest)) :
    statement environment bound lexemes = (do
      let node ← tree.compile environment
      pure (node, rest)) := by
  unfold statement
  rw [read]

theorem statement_of_error
    (read : Grammar.endedStatement (Grammar.outermost environment.settings.maxDepth bound) lexemes =
      .error tree) :
    statement environment bound lexemes = (do
      let node ← tree.compile environment
      pure (node, [])) := by
  unfold statement
  rw [read]

end Compile

namespace Correspondence

open Compile

variable {environment : Environment} {left right : Settings} {world : World}
  (kept : Correspondence environment left right world) (sameDepth : left.maxDepth = right.maxDepth)

section Statements

variable {before : Progress} (reached : (Progress.start world).Reaches environment before)

include kept sameDepth reached

theorem statement_parallel (bound : Nat) (lexemes : List Lexeme) :
    Parallel environment
      (fun progress one other => kept.Nodes progress one.1 other.1 ∧ one.2 = other.2) before
      (Compile.statement (environment.under left) bound lexemes)
      (Compile.statement (environment.under right) bound lexemes) := by
  have sameReader : Grammar.outermost (environment.under right).settings.maxDepth bound =
      Grammar.outermost (environment.under left).settings.maxDepth bound := by
    change Grammar.outermost right.maxDepth bound = Grammar.outermost left.maxDepth bound
    rw [sameDepth]
  have outcome := Grammar.endedStatement_outcome (environment.under left).settings.maxDepth bound
    (List.suffix_refl lexemes)
  cases read : Grammar.endedStatement (Grammar.outermost (environment.under left).settings.maxDepth bound)
      lexemes with
  | ok pair =>
    rw [read] at outcome
    rw [statement_of_ok read, statement_of_ok (sameReader ▸ read)]
    exact (compile_parallel outcome.1 reached).bind fun _ node => .pure ⟨node, rfl⟩
  | error stopped =>
    rw [read] at outcome
    rw [statement_of_error read, statement_of_error (sameReader ▸ read)]
    exact (compile_parallel outcome reached).bind fun _ node => .pure ⟨node, rfl⟩

theorem statements_related (bound count : Nat) (lexemes : List Lexeme) :
    let one := Compile.statements (environment.under left) bound count lexemes before
    let other := Compile.statements (environment.under right) bound count lexemes before
    one.2 = other.2 ∧ before.Reaches environment one.2 ∧
      List.Forall₂ (kept.Nodes one.2) one.1 other.1 := by
  induction count generalizing lexemes before with
  | zero => exact ⟨rfl, .refl, .nil⟩
  | succ count induction =>
    cases lexemes with
    | nil => exact ⟨rfl, .refl, .nil⟩
    | cons first rest =>
      unfold Compile.statements
      by_cases alone : first.is .semicolon = true
      · rw [if_pos alone, if_pos alone]
        exact induction reached rest
      · rw [if_neg alone, if_neg alone]
        have parallel := kept.statement_parallel sameDepth reached bound (first :: rest)
        rcases parallel with ⟨same, middle, outcomes⟩
        cases done : Compile.statement (environment.under left) bound (first :: rest) before with
        | mk outcome progress =>
        cases otherDone : Compile.statement (environment.under right) bound (first :: rest) before with
        | mk otherOutcome otherProgress =>
        rw [done] at same middle outcomes
        rw [otherDone] at same outcomes
        dsimp only at same middle outcomes ⊢
        subst same
        cases outcomes with
        | @done pair otherPair related =>
          rcases pair with ⟨node, after⟩
          rcases otherPair with ⟨other, _⟩
          obtain ⟨related, rfl⟩ := related
          obtain ⟨same, last, others⟩ := induction (reached.trans middle) after
          exact ⟨same, middle.trans last, .cons (nodes_later last related) others⟩
        | @halted halt grammatical =>
          have reported := middle.tail (.report otherProgress halt.report)
          obtain ⟨same, last, others⟩ := induction (reached.trans reported)
            (Grammar.recover 0 ((first :: rest).length - halt.rest.length) (first :: rest))
          exact ⟨same, reported.trans last, others⟩

end Statements

/-! ## Programs -/

/-- What two compilations of one source have in common, and how their graphs are related. -/
structure Agrees (one other : Compilation) : Prop where
  reports : one.reports = other.reports
  accepted : one.accepted = other.accepted
  sameWorld : one.world = other.world
  root : Option.Rel
    (fun node counterpart => ∃ progress, (Progress.start world).Reaches environment progress ∧
      progress.world = one.world ∧ progress.reports = [] ∧ kept.Nodes progress node counterpart)
    one.root other.root
  /-- There is a graph if and only if nothing is reported. -/
  compiled : one.root.isSome = true ↔ one.reports = []

theorem getLast?_related {α : Type} {relation : α → α → Prop} {first second : List α}
    (related : List.Forall₂ relation first second) : Option.Rel relation first.getLast? second.getLast? := by
  have reversed := List.forall₂_reverse_iff.mpr related
  rw [List.getLast?_eq_head?_reverse, List.getLast?_eq_head?_reverse]
  revert reversed
  generalize first.reverse = first
  generalize second.reverse = second
  rintro (_ | ⟨last, _⟩)
  · exact .none
  · exact .some last

theorem dropLast_related {α : Type} {relation : α → α → Prop} {first second : List α}
    (related : List.Forall₂ relation first second) :
    List.Forall₂ relation first.dropLast second.dropLast := by
  rw [List.dropLast_eq_take, List.dropLast_eq_take, related.length_eq]
  exact List.forall₂_take _ related

include sameDepth

theorem program_related (lexemes : List Lexeme) :
    let one := Compile.program (environment.under left) lexemes (.start world)
    let other := Compile.program (environment.under right) lexemes (.start world)
    one.2 = other.2 ∧ (Progress.start world).Reaches environment one.2 ∧
      Option.Rel (kept.Nodes one.2) one.1 other.1 ∧ (one.2.reports = [] → one.1.isSome = true) := by
  have related := kept.statements_related sameDepth .refl lexemes.length lexemes.length lexemes
  unfold Compile.program
  cases done : Compile.statements (environment.under left) lexemes.length lexemes.length lexemes
    (.start world) with
  | mk nodes progress =>
  cases otherDone : Compile.statements (environment.under right) lexemes.length lexemes.length lexemes
    (.start world) with
  | mk others otherProgress =>
  rw [done, otherDone] at related
  obtain ⟨rfl, reached, related⟩ := related
  have statements := dropLast_related related
  have result := getLast?_related related
  dsimp only at statements result ⊢
  revert result
  generalize nodes.getLast? = node
  generalize others.getLast? = other
  rintro (last | _)
  · exact ⟨rfl, reached, .some (sequence_related statements last), fun _ => rfl⟩
  · dsimp only
    split
    · next empty =>
      rw [List.isEmpty_iff] at empty
      have reported := reached.tail (.report progress ⟨.emptyFormula, .ending⟩)
      rw [empty] at reported
      exact ⟨rfl, reported, .none, fun impossible => nomatch impossible⟩
    · next nonempty => exact ⟨rfl, reached, .none, fun empty => absurd (List.isEmpty_iff.mpr empty) nonempty⟩

omit sameDepth in
theorem malformed_ne_nil {source : String} {malformed : List Malformed}
    (tokenized : tokenize source = .error malformed) : malformed ≠ [] := by
  unfold tokenize at tokenized
  dsimp only at tokenized
  split at tokenized
  · cases tokenized
  · next nonempty =>
    cases tokenized
    exact fun empty => nonempty (List.isEmpty_iff.mpr empty)

theorem ofSource_agrees (source : String) :
    kept.Agrees (Compilation.ofSource (environment.under left) source world)
      (Compilation.ofSource (environment.under right) source world) := by
  unfold Compilation.ofSource
  cases tokenized : tokenize source with
  | error malformed =>
    exact ⟨rfl, rfl, rfl, .none, by simp [malformed_ne_nil tokenized]⟩
  | ok lexemes =>
    have related := kept.program_related sameDepth lexemes
    cases done : Compile.program (environment.under left) lexemes (.start world) with
    | mk root progress =>
    cases otherDone : Compile.program (environment.under right) lexemes (.start world) with
    | mk otherRoot otherProgress =>
    rw [done, otherDone] at related
    dsimp only
    rw [done, otherDone]
    obtain ⟨rfl, reached, related, compiled⟩ := related
    dsimp only at reached related compiled ⊢
    cases empty : progress.reports with
    | nil =>
      refine ⟨rfl, rfl, rfl, ?_, by simp [compiled empty]⟩
      cases related with
      | none => exact .none
      | some related => exact .some ⟨progress, reached, rfl, empty, related⟩
    | cons report reports => exact ⟨rfl, rfl, rfl, .none, by simp⟩

end Correspondence

theorem isSome_eq_of_related {α β : Type} {relation : α → β → Prop} {one : Option α} {other : Option β}
    (related : Option.Rel relation one other) : one.isSome = other.isSome := by
  cases related <;> rfl

end LiveExpr
