import LiveExpr.Proofs.Pass.Following

/-!
The routines of a pass follow the readers of the grammar. What a routine calls further in is to follow what is read on
every deeper level, in front of fewer lexemes.
-/

namespace LiveExpr.Pass

open LiveExpr.Grammar
open LiveExpr.Compile
open LiveExpr.Pass.Parser

def Task.inner (task : Task) (level : Nat) : Inner :=
  innerAt task.settings.maxDepth task.lexemes.length level

/-- Whether what is called further in follows the readers of every level in front of fewer lexemes than `size`. -/
structure Calls.Follow (calls : Calls) (task : Task) (size : Nat) : Prop where
  assignment (level : Nat) (within : level ≤ task.settings.maxDepth) :
    Follows task level size (task.inner level).assignment calls.assignment
  operand (level : Nat) (within : level ≤ task.settings.maxDepth) :
    Follows task level size (task.inner level).operand calls.operand
  enough : size < calls.rounds
  small : size ≤ task.lexemes.length

variable {task : Task} {level size : Nat}

/-! ## Lists -/

/-- Whether items are gathered one after another, each made of its node, and behind what was computed before. -/
structure Gathers {γ α : Type} (task : Task) (before : Compile γ) (make : List (Place × Tree) → Tree)
    (convert : Place → AnyNode → Compile α) (gather : List (Place × Tree) → Compile (List α)) : Prop where
  none : gather [] = pure []
  append (found : List (Place × Tree)) (start : Place) (tree : Tree) :
    gather (found ++ [(start, tree)]) = do
      let front ← gather found
      let node ← tree.compile task.environment
      let one ← convert start node
      pure (front ++ [one])
  lasts (start : Place) (node : AnyNode) : (convert start node).Lasts
  opened (found : List (Place × Tree)) (start : Place) :
    Opened task (fun tree => make (found ++ [(start, tree)])) (both before fun _ => gather found)

section

variable {γ α : Type} {calls : Calls} {before : Compile γ} {make : List (Place × Tree) → Tree}
  {convert : Place → AnyNode → Compile α} {gather : List (Place × Tree) → Compile (List α)}

theorem items_performs (follow : calls.Follow task size) (gathers : Gathers task before make convert gather)
    (within : level ≤ task.settings.maxDepth) (closing : Terminal) {fewer bound rounds : Nat} (few : fewer ≤ size)
    (bounded : fewer ≤ bound) (enough : fewer ≤ rounds) (found : List (Place × Tree)) :
    Performs task level fewer (fun tree => tree) (both before fun _ => gather found.reverse)
      (fun list => before >>= fun _ => gather list) (Grammar.items (task.inner level) closing make bound found)
      fun done => items closing (item calls convert) rounds done.2 := by
  induction fewer generalizing bound rounds found with
  | zero => exact nofun
  | succ fewer induction =>
    cases bound with
    | zero => omega
    | succ bound =>
    cases rounds with
    | zero => omega
    | succ rounds =>
    simp only [Grammar.items, items, item, bind_assoc]
    refine .scan place_matches fun start => ?_
    have opened (found : List (Place × Tree)) :
        Opened task (fun tree => make ((start, tree) :: found).reverse)
          (both before fun _ => gather found.reverse) := by
      simp only [List.reverse_cons]
      exact gathers.opened found.reverse start
    refine .bind (.within (.entered ((follow.assignment level within).mono few) (opened found))) fun tree => ?_
    have grown : (both before fun _ => gather ((start, tree) :: found).reverse) =
        both (both (both before fun _ => gather found.reverse) fun _ => tree.compile task.environment)
          (fun done => convert start done.2) >>= fun done => pure (done.1.1.1, done.1.1.2 ++ [done.2]) := by
      simp only [both, List.reverse_cons, gathers.append, bind_assoc, pure_bind]
    refine .performing (fun _ => gathers.lasts _ _) (.taking ?_ ?_)
    · have more := induction (Nat.le_of_succ_le few) (Nat.le_of_succ_le_succ bounded) (Nat.le_of_succ_le_succ enough)
        ((start, tree) :: found)
      exact more.formed _ grown
    · refine .pass (.within (.required (require_requires closing .listEnd) ((opened _).formed grown))) fun _ => ?_
      exact .pure (by simp only [both, List.reverse_cons, gathers.append, bind_assoc, pure_bind])

theorem list_performs (follow : calls.Follow task size) (gathers : Gathers task before make convert gather)
    (within : level ≤ task.settings.maxDepth) (closing : Terminal) :
    Performs task level size (fun tree => tree) before (fun list => before >>= fun _ => gather list)
      (Grammar.list (task.inner level) closing make) fun _ => list calls closing (item calls convert) := by
  refine .either (takes_matches closing) (.pure (by rw [gathers.none])) ?_
  have items :=
    items_performs follow gathers within closing (Nat.le_refl size) follow.small (Nat.le_of_lt follow.enough) []
  refine items.formed (fun found => (found, [])) ?_
  simp only [both, List.reverse_nil, gathers.none, pure_bind]

end

variable {calls : Calls}

/-! ## Declarations -/

theorem vectorSize_requires : Requires task Grammar.vectorSize vectorSize := by
  refine .peeking (.inr (.failAt rfl)) fun first rest ends => ?_
  dsimp only
  cases sized : Grammar.vectorSize? first.token with
  | none =>
    refine .inr (.failAt ?_)
    rw [Grammar.vectorSize, sized]
    rfl
  | some size =>
    refine .inl (.step ?_ ends)
    rw [Grammar.vectorSize, sized]

theorem closedVectorSize_requires : Requires task Grammar.closedVectorSize closedVectorSize :=
  vectorSize_requires.bind fun size =>
    (require_requires .rightBracket .sizeEnd).bind fun _ => (Matches.pure size).requires

theorem elements_gather (word : Lexeme) (size : Nat) (bracket : Lexeme) :
    Gathers task (mayDeclare task.environment word) (.listedVector word size bracket) (requireScalar .vectorElement)
      (compileElements task.environment) where
  none := rfl
  append found start tree := by
    simp only [compileElements_append, compileElements, bind_assoc, pure_bind]
  lasts start node := (requireScalar_plain _ start node).lasts
  opened found start := by
    refine .of_opens (Work.Opens.listedVector word size bracket found start) ?_
    simp only [Work.elements, Work.andThen, Work.declaring, Work.of, both, bind_assoc, pure_bind]

theorem vectorDeclaration_performs (follow : calls.Follow task size) (within : level ≤ task.settings.maxDepth)
    (word : Lexeme) :
    Performs task level size (fun tree => tree) (mayDeclare task.environment word)
      (fun tree => tree.compile task.environment) (Grammar.vectorDeclaration (task.inner level) word)
      (vectorDeclaration calls word) := by
  have opened : Opened task (.declaration word .ending) (mayDeclare task.environment word) :=
    .of_opens (.declaration word .ending) rfl
  refine .pass (.within (.required closedVectorSize_requires opened)) fun size => ?_
  refine .either (takes_matches .assign) ?_ ?_
  · refine .scan (accept_signs _).same fun bracket => ?_
    cases bracket with
    | some bracket =>
      refine .bind (list_performs follow (elements_gather word size bracket) within .rightBrace) fun elements => ?_
      refine .finish (fun done => (listedVector_declares done.1 word size bracket done.2).lasts) ?_
      simp only [Tree.compile, both, bind_assoc, pure_bind]
    | none =>
      refine .scan place_matches fun start => ?_
      have opened : Opened task (.filledVector word size start) (mayDeclare task.environment word) :=
        .of_opens (.filledVector word size start) rfl
      refine .bind (.within (.entered (follow.assignment level within) opened)) fun tree => ?_
      refine .finish (fun done => (filledVector_declares done.1 word size start done.2).lasts) ?_
      simp only [Tree.compile, both, bind_assoc, pure_bind]
  · refine .finish (fun allowed => (listedVector_declares allowed word size word []).lasts) ?_
    simp only [Tree.compile, compileElements, pure_bind]

theorem declarationOf_follows (follow : calls.Follow task size) (within : level ≤ task.settings.maxDepth)
    (word : Lexeme) :
    Follows task level size (Grammar.declarationOf (task.inner level) word) (declarationOf calls word) := by
  refine .computing (mayDeclare_plain word).lasts ?_
  refine .either (takes_matches .leftBracket) (vectorDeclaration_performs follow within word) ?_
  refine .either (takes_matches .assign) (.scan place_matches fun start => ?_) ?_
  · have opened : Opened task (.declaration word start) (mayDeclare task.environment word) :=
      .of_opens (.declaration word start) rfl
    refine .bind (.within (.entered (follow.assignment level within) opened)) fun tree => ?_
    refine .finish (fun done => (declaration_declares done.1 word start done.2).lasts) ?_
    simp only [Tree.compile, both, bind_assoc, pure_bind]
  · refine .finish (fun allowed => (declaration_declares allowed word .ending _).lasts) ?_
    simp only [Tree.compile, pure_bind]

theorem declaration_follows (follow : calls.Follow task size) (within : level ≤ task.settings.maxDepth) :
    Follows task level (size + 1) (Grammar.declaration (task.inner level)) (declaration calls) := by
  refine .peeking (.stop .alone _ []) fun word rest ends short => ?_
  have behind := (List.suffix_cons word rest).trans ends
  dsimp only
  rcases word with ⟨token, text, position⟩
  cases token with
  | name name => exact .step (declarationOf_follows follow within _ rest behind short) ends
  | number | text | fixed => exact .stop .alone _ _

/-! ## Blocks -/

/-- A statement may be an assignment, and is in front of as many lexemes as that. -/
theorem statement_follows (follow : calls.Follow task size) (within : level ≤ task.settings.maxDepth) {larger : Nat}
    (assignment : Follows task level larger (task.inner level).assignment calls.assignment) (few : larger ≤ size + 2) :
    Follows task level larger (Grammar.statement (task.inner level)) (statement calls) := by
  cases larger with
  | zero => exact nofun
  | succ larger =>
    exact .taking ((declaration_follows follow within).mono (Nat.le_of_succ_le_succ few)) assignment

theorem previousPlace_at {closing : Lexeme} {rest : List Lexeme} (progress : Progress)
    (ends : closing :: rest <:+ task.lexemes) :
    previousPlace task (task.at level rest progress) = .done (.lexeme closing) (task.at level rest progress) := by
  have found : task.lexemes[task.lexemes.length - (closing :: rest).length]? = some closing := by
    rw [← List.head?_drop, ← List.suffix_iff_eq_drop.mp ends, List.head?_cons]
  unfold previousPlace
  dsimp only [Task.at]
  rw [Nat.sub_sub, ← List.length_cons, found]

theorem blockOf_performs {closing : Lexeme} {rest : List Lexeme} (ends : closing :: rest <:+ task.lexemes)
    (found : List Tree) :
    Performs.On task level (fun tree => tree) (compileStatements task.environment found.reverse)
      (fun tree => tree.compile task.environment) rest blockOf (Grammar.blockOf closing found rest) := by
  cases found with
  | nil =>
    refine ⟨.pure _ _, fun start found progress done => ⟨_, _, rfl, ?_⟩⟩
    cases done
    exact bind_of_done (previousPlace_at start ends) _
  | cons result earlier =>
    obtain ⟨tree, reads, compiled⟩ : ∃ tree : Tree,
        Grammar.blockOf closing (result :: earlier) rest = .ok (tree, rest) ∧ tree.compile task.environment =
          both (compileStatements task.environment earlier.reverse) (fun _ => result.compile task.environment) >>=
            fun done => pure (AnyNode.sequence done.1 done.2) := by
      cases earlier with
      | nil =>
        refine ⟨result, rfl, ?_⟩
        simp only [both, List.reverse_nil, compileStatements, bind_assoc, pure_bind]
        exact (bind_pure _).symm
      | cons second others =>
        refine ⟨.block (second :: others).reverse result, rfl, ?_⟩
        simp only [Tree.compile, both, bind_assoc, pure_bind]
    have gathered : compileStatements task.environment (result :: earlier).reverse =
        both (compileStatements task.environment earlier.reverse) (fun _ => result.compile task.environment) >>=
          fun done => pure (done.1 ++ [done.2]) := by
      simp only [both, List.reverse_cons, compileStatements_append, compileStatements, bind_assoc, pure_bind]
    rw [reads, gathered]
    refine ⟨List.suffix_refl _, ?_, fun start found progress done => ?_⟩
    · dsimp only
      rw [compiled]
      exact .bind _ fun _ => .pure _ _
    · obtain ⟨pair, _, computed, formed⟩ := Compile.bind_eq_ok done
      cases formed
      have whole : tree.compile task.environment start = (.ok (AnyNode.sequence pair.1 pair.2), progress) := by
        rw [compiled, bind_of_ok computed, Compile.pure_apply]
      have made : blockOf (pair.1 ++ [pair.2]) = pure (AnyNode.sequence pair.1 pair.2) := by
        rw [blockOf, List.getLast?_concat, List.dropLast_concat]
      rw [made]
      exact (congrArg (task.ended level rest) whole).symm

theorem require_eq_ok {terminal : Terminal} {wanted : Expectation} {lexemes rest : List Lexeme} {taken : Lexeme}
    (read : Reader.require terminal wanted lexemes = .ok (taken, rest)) : lexemes = taken :: rest := by
  unfold Reader.require at read
  split at read
  · cases read
  · split at read
    · cases read
      rfl
    · cases read

theorem statements_performs (follow : calls.Follow task size) (within : level ≤ task.settings.maxDepth)
    (closing : Terminal) {fewer bound rounds : Nat} (few : fewer ≤ size) (bounded : fewer ≤ bound)
    (enough : fewer ≤ rounds) (found : List Tree) :
    Performs task level fewer (fun tree => tree) (compileStatements task.environment found.reverse)
      (fun tree => tree.compile task.environment) (Grammar.statements (task.inner level) closing bound found)
      (statements calls closing rounds) := by
  induction fewer generalizing bound rounds found with
  | zero => exact nofun
  | succ fewer induction =>
    cases bound with
    | zero => omega
    | succ bound =>
    cases rounds with
    | zero => omega
    | succ rounds =>
    have next : Performs task level (fewer + 1) (fun tree => tree) (compileStatements task.environment found.reverse)
        (fun tree => tree.compile task.environment) (Grammar.statements.next (task.inner level) closing bound found)
        (fun found => do
          let node ← statement calls
          if ← eat .semicolon then statements calls closing rounds (found ++ [node])
          else
            let _ ← expect closing .blockEnd
            blockOf (found ++ [node])) := by
      have one := (statement_follows follow within (follow.assignment level within) (by omega)).mono few
      have opened (found : List Tree) :
          Opened task (.block found.reverse) (compileStatements task.environment found.reverse) :=
        .of_opens (.block found.reverse) rfl
      unfold Grammar.statements.next
      refine .bind (.within (.entered one (opened found))) fun tree => ?_
      have grown : compileStatements task.environment (tree :: found).reverse =
          both (compileStatements task.environment found.reverse) (fun _ => tree.compile task.environment) >>=
            fun done => pure (done.1 ++ [done.2]) := by
        simp only [both, List.reverse_cons, compileStatements_append, compileStatements, bind_assoc, pure_bind]
      refine .taking ?_ fun lexemes ends short => .pass (Performs.within ?_ lexemes ends short) ?_
      · have more := induction (Nat.le_of_succ_le few) (Nat.le_of_succ_le_succ bounded) (Nat.le_of_succ_le_succ enough)
          (tree :: found)
        exact more.formed _ grown
      · exact .required (require_requires closing .blockEnd) ((opened (tree :: found)).formed grown)
      · intro last rest read taken
        obtain rfl := require_eq_ok (Reader.within_eq_ok.mp read)
        exact (blockOf_performs ends (tree :: found)).formed _ grown
    intro lexemes ends short
    rw [Grammar.statements]
    cases lexemes with
    | nil =>
      refine (next [] ends short).behind (List.suffix_refl _) fun start found progress _ => ?_
      exact bind_of_done (eat_of_not progress ends rfl) _
    | cons first rest =>
      dsimp only
      by_cases closes : first.is closing
      · rw [if_pos closes]
        refine (blockOf_performs ends found).behind (List.suffix_cons first rest) fun start found progress _ => ?_
        exact bind_of_done (eat_of_is progress ends closes) _
      · rw [if_neg closes]
        refine (next (first :: rest) ends short).behind (List.suffix_refl _) fun start found progress _ => ?_
        exact bind_of_done (eat_of_not progress ends (Bool.eq_false_iff.mpr closes)) _

theorem block_follows (follow : calls.Follow task size) (within : level ≤ task.settings.maxDepth) (closing : Terminal) :
    Follows task level size (Grammar.block (task.inner level) closing) (block calls closing) := by
  have statements := statements_performs follow within closing (Nat.le_refl size) follow.small
    (Nat.le_of_lt follow.enough) []
  exact statements.formed (fun _ => []) rfl

theorem body_follows (follow : calls.Follow task size) (within : level ≤ task.settings.maxDepth) :
    Follows task level size (Grammar.body (task.inner level)) (body calls) := by
  refine .either (takes_matches .leftBrace) (block_follows follow within .rightBrace) ?_
  exact statement_follows follow within (follow.assignment level within) (by omega)

end LiveExpr.Pass
