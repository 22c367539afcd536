import LiveExpr.Proofs.Compile.Grammar
import LiveExpr.Proofs.Grammar.Mentions

/-!
Compilations that succeed. Their sources are read as wholes: no statement stops, so the trees of the statements depend
on the lexemes alone, and the graph comes from compiling these trees one after another.
-/

namespace LiveExpr

/-! ## Reading programs -/

namespace Grammar

/-- The trees of the statements of a program, at most `count` of them and of the semicolons that stand alone, if all
statements fit the grammar. -/
def program? (inner : Inner) : (count : Nat) → List Lexeme → Option (List Tree)
  | 0, _ => some []
  | _ + 1, [] => some []
  | count + 1, first :: rest =>
    if first.is .semicolon then program? inner count rest
    else
      match endedStatement inner (first :: rest) with
      | .ok (tree, behind) => (program? inner count behind).map (tree :: ·)
      | .error _ => none

/-- The trees of the statements of a source, of which `limit` levels may be entered. -/
def trees? (limit : Nat) (lexemes : List Lexeme) : Option (List Tree) :=
  program? (outermost limit lexemes.length) lexemes.length lexemes

variable {inner : Inner} {count : Nat} {lexemes : List Lexeme} {trees : List Tree}

/-- A program is empty, begins with a semicolon, or begins with a statement. -/
theorem program?_cases (read : program? inner (count + 1) lexemes = some trees) :
    (lexemes = [] ∧ trees = []) ∨
    (∃ first rest, lexemes = first :: rest ∧ first.is .semicolon = true ∧ program? inner count rest = some trees) ∨
    ∃ first rest tree behind others, lexemes = first :: rest ∧ first.is .semicolon = false ∧
      endedStatement inner lexemes = .ok (tree, behind) ∧ program? inner count behind = some others ∧
      trees = tree :: others := by
  cases lexemes with
  | nil =>
    cases read
    exact .inl ⟨rfl, rfl⟩
  | cons first rest =>
    rw [program?] at read
    split at read
    · next semicolon => exact .inr (.inl ⟨first, rest, rfl, semicolon, read⟩)
    · next other =>
      split at read
      · next tree behind statement =>
        obtain ⟨others, more, rfl⟩ := Option.map_eq_some_iff.mp read
        exact .inr (.inr ⟨first, rest, tree, behind, others, rfl, Bool.eq_false_iff.mpr other, statement, more, rfl⟩)
      · cases read

theorem length_endedStatement (sound : inner.Sound) {tree : Tree} {behind : List Lexeme} (some : 0 < lexemes.length)
    (read : endedStatement inner lexemes = .ok (tree, behind)) : behind.length < lexemes.length := by
  obtain ⟨taken, -, ⟨-, rfl⟩ | ⟨semicolon, split, -⟩⟩ := endedStatement_sound sound read
  · exact some
  · rw [split, List.length_append, List.length_cons]
    omega

theorem program?_proper {source : List Lexeme} (proper : inner.Proper source) (ends : lexemes <:+ source)
    (read : program? inner count lexemes = some trees) : ∀ tree ∈ trees, tree.Proper source := by
  induction count generalizing lexemes trees with
  | zero =>
    cases read
    exact List.forall_mem_nil _
  | succ count induction =>
    rcases program?_cases read with ⟨-, rfl⟩ | ⟨first, rest, rfl, -, more⟩ |
      ⟨first, rest, tree, behind, others, -, -, statement, more, rfl⟩
    · exact List.forall_mem_nil _
    · exact induction (Reader.Yields.behind ends) more
    · have outcome := endedStatement_yields proper lexemes ends
      rw [statement] at outcome
      exact List.forall_mem_cons.mpr ⟨outcome.1, induction outcome.2 more⟩

theorem spelled_program? (accounts : inner.Accounts) (enough : lexemes.length ≤ count)
    (read : program? inner count lexemes = some trees) :
    spelledNames lexemes = (occurrencesOfStatements trees).filter Occurrence.isSpelled := by
  induction count generalizing lexemes trees with
  | zero =>
    cases read
    rw [List.length_eq_zero_iff.mp (Nat.le_zero.mp enough)]
    rfl
  | succ count induction =>
    rcases program?_cases read with ⟨rfl, rfl⟩ | ⟨first, rest, rfl, semicolon, more⟩ |
      ⟨first, rest, tree, behind, others, rfl, -, statement, more, rfl⟩
    · rfl
    · rw [spelledNames_cons (Lexeme.isInert_of_is semicolon (by decide))]
      exact induction (Nat.le_of_succ_le_succ enough) more
    · have some : 0 < (first :: rest).length := Nat.succ_pos rest.length
      have shorter := length_endedStatement accounts.sound some statement
      have here := endedStatement_accounts accounts [] _ _ _ statement
      rw [occurrencesOfStatements, List.filter_append, ← induction (by omega) more]
      exact here

theorem trees?_proper {limit : Nat} (read : trees? limit lexemes = some trees) :
    ∀ tree ∈ trees, tree.Proper lexemes :=
  program?_proper (innerAt_proper limit lexemes.length limit) (List.suffix_refl lexemes) read

theorem spelled_trees? {limit : Nat} (read : trees? limit lexemes = some trees) :
    spelledNames lexemes = (occurrencesOfStatements trees).filter Occurrence.isSpelled :=
  spelled_program? (innerAt_accounts limit lexemes.length limit) (Nat.le_refl _) read

theorem mentions_trees? {limit : Nat} (read : trees? limit lexemes = some trees) :
    mentions lexemes = (usageOfStatements trees).mentions := by
  rw [mentions, mentionsFrom_eq, ← spelledNames, spelled_trees? read, Occurrence.filterMap_mention?_spelled,
    mentions_usageOfStatements]

theorem declared_trees? {limit : Nat} (read : trees? limit lexemes = some trees) :
    declaredNames lexemes = (usageOfStatements trees).declared := by
  rw [← filterMap_declared?_mentions, mentions_trees? read, Usage.filterMap_declared?_mentions]

end Grammar

/-! ## Compiling programs -/

namespace Compile

variable {environment : Environment} {world : World} {bound count : Nat} {lexemes : List Lexeme} {trees : List Tree}
  {nodes : List AnyNode} {before after : Progress}

theorem statements_of_trees
    (read : Grammar.program? (Grammar.outermost environment.settings.maxDepth bound) count lexemes = some trees)
    (compiled : compileStatements environment trees before = (.ok nodes, after)) :
    statements environment bound count lexemes before = (nodes, after) := by
  induction count generalizing lexemes trees nodes before with
  | zero =>
    cases read
    cases compiled
    rfl
  | succ count induction =>
    rcases Grammar.program?_cases read with ⟨rfl, rfl⟩ | ⟨first, rest, rfl, semicolon, more⟩ |
      ⟨first, rest, tree, behind, others, rfl, other, statementRead, more, rfl⟩
    · cases compiled
      rfl
    · rw [statements, if_pos semicolon]
      exact induction more compiled
    · obtain ⟨node, middle, first, compiled⟩ := bind_eq_ok compiled
      obtain ⟨rest, last, behind, compiled⟩ := bind_eq_ok compiled
      cases compiled
      rw [statements, if_neg (Bool.eq_false_iff.mp other), statement_of_ok statementRead, bind_of_ok first]
      change (node :: (statements environment bound count _ middle).1, _) = _
      rw [induction more behind]

/-- A statement that does not halt is read as a whole. -/
theorem tree_of_statement {node : AnyNode} {behind : List Lexeme}
    (done : statement environment bound lexemes before = (.ok (node, behind), after)) :
    ∃ tree, Grammar.endedStatement (Grammar.outermost environment.settings.maxDepth bound) lexemes =
      .ok (tree, behind) ∧ tree.compile environment before = (.ok node, after) := by
  cases read : Grammar.endedStatement (Grammar.outermost environment.settings.maxDepth bound) lexemes with
  | ok pair =>
    rw [statement_of_ok read] at done
    obtain ⟨found, middle, compiled, done⟩ := bind_eq_ok done
    cases done
    exact ⟨pair.1, rfl, compiled⟩
  | error stopped =>
    have sound : (Grammar.outermost environment.settings.maxDepth bound).Sound :=
      Grammar.innerAt_sound environment.settings.maxDepth bound environment.settings.maxDepth
    obtain ⟨halt, middle, halted⟩ := Grammar.endedStatement_halts sound read environment before
    rw [statement_of_error read, bind_of_error halted] at done
    cases done

/-- Where no problem with the grammar is reported, the program is read as a whole. -/
theorem trees_of_statements (reached : (Progress.start world).Reaches environment before)
    (compiled : statements environment bound count lexemes before = (nodes, after)) (clean : after.IsGrammatical) :
    ∃ trees, Grammar.program? (Grammar.outermost environment.settings.maxDepth bound) count lexemes = some trees ∧
      compileStatements environment trees before = (.ok nodes, after) := by
  induction count generalizing lexemes nodes before with
  | zero =>
    cases compiled
    exact ⟨[], rfl, rfl⟩
  | succ count induction =>
    cases lexemes with
    | nil =>
      cases compiled
      exact ⟨[], rfl, rfl⟩
    | cons first rest =>
      by_cases semicolon : first.is .semicolon = true
      · rw [statements, if_pos semicolon] at compiled
        rw [Grammar.program?, if_pos semicolon]
        exact induction reached compiled
      · have reaches := statement_reaches reached bound (first :: rest)
        cases done : statement environment bound (first :: rest) before with
        | mk outcome middle =>
          cases outcome with
          | error halt =>
            have stained := @not_isGrammatical_of_halted _ _ _ _ reached _ count _ _ _ semicolon done
            rw [compiled] at stained
            exact absurd clean stained
          | ok pair =>
            obtain ⟨node, behind⟩ := pair
            rw [statements, if_neg semicolon, done] at compiled
            rw [done] at reaches
            rw [Grammar.program?, if_neg semicolon]
            obtain ⟨tree, read, compiledTree⟩ := tree_of_statement done
            obtain ⟨rfl, rfl⟩ := Prod.mk.inj compiled
            obtain ⟨trees, readRest, compiledRest⟩ := induction (reached.trans reaches) rfl
            refine ⟨tree :: trees, ?_, ?_⟩
            · rw [read]
              exact congrArg (Option.map (tree :: ·)) readRest
            · rw [compileStatements, bind_of_ok compiledTree, bind_of_ok compiledRest]
              rfl

end Compile

namespace Compilation

/-- What a compilation goes through that succeeds. -/
structure Success (environment : Environment) (source : String) (world : World) where
  lexemes : List Lexeme
  trees : List Tree
  nodes : List AnyNode
  result : AnyNode
  final : Progress
  tokenized : tokenize source = .ok lexemes
  read : Grammar.trees? environment.settings.maxDepth lexemes = some trees
  compiled : compileStatements environment trees (.start world) = (.ok nodes, final)
  clear : final.reports = []
  last : nodes.getLast? = some result

variable {environment : Environment} {source : String} {world : World}

theorem Success.eq (success : Success environment source world) :
    ofSource environment source world =
      ⟨some (AnyNode.sequence success.nodes.dropLast success.result), [], success.final.accepted.reverse,
        success.final.world⟩ := by
  have program : Compile.program environment success.lexemes (.start world) =
      (some (AnyNode.sequence success.nodes.dropLast success.result), success.final) := by
    unfold Compile.program
    rw [Compile.statements_of_trees success.read success.compiled]
    dsimp only
    rw [success.last]
  unfold ofSource
  rw [success.tokenized]
  simp only [program, success.clear, List.isEmpty_nil, if_true, List.reverse_nil]

theorem exists_success {root : AnyNode} (compiled : (ofSource environment source world).root = some root) :
    Nonempty (Success environment source world) := by
  unfold ofSource at compiled
  cases tokenized : tokenize source with
  | error malformed =>
    rw [tokenized] at compiled
    cases compiled
  | ok lexemes =>
    rw [tokenized] at compiled
    dsimp only at compiled
    split at compiled
    · next clear =>
      rw [List.isEmpty_iff] at clear
      cases done : Compile.statements environment lexemes.length lexemes.length lexemes (.start world) with
      | mk nodes final =>
        unfold Compile.program at compiled clear
        rw [done] at compiled clear
        dsimp only at compiled clear
        cases last : nodes.getLast? with
        | some result =>
          rw [last] at clear
          have clean : final.IsGrammatical := by
            rw [Progress.IsGrammatical, clear]
            exact List.forall_mem_nil _
          obtain ⟨trees, read, compiledTrees⟩ := Compile.trees_of_statements .refl done clean
          exact ⟨⟨lexemes, trees, nodes, result, final, tokenized, read, compiledTrees, clear, last⟩⟩
        | none =>
          rw [last] at compiled
          dsimp only at compiled
          split at compiled <;> cases compiled
    · cases compiled

end Compilation

end LiveExpr
