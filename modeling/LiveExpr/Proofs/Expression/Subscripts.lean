import LiveExpr.Proofs.Compile.Copy
import LiveExpr.Proofs.Expression.Height
import LiveExpr.Proofs.Precedence.Reading
import LiveExpr.Proofs.Token.Naming
import LiveExpr.Proofs.World.Operation

/-!
Subscripts along the paths of the graphs that are stored. The levels that subscripts enter are left again behind the
last of them. So where parentheses are subscripted that end in subscripts themselves, the levels of both are counted
one beside the other, but their nodes stand one inside the other, and a path has more of them than there are levels.
-/

namespace LiveExpr

/-! ## Graphs -/

namespace Node

/-- All of a string, from its beginning to its end. -/
def whole (string : Node .string) : Node .string :=
  .substring string (.constant 0.0) (.constant Number.infinity)

/-- A variable with one subscript around it, two around that, and so on. -/
def nested (cell : StringCell) : (depth : Nat) → Node .string
  | 0 => .stringVariable cell
  | depth + 1 => whole^[depth + 1] (nested cell depth)

theorem isLiteral_nested (cell : StringCell) (depth : Nat) : (nested cell depth).isLiteral = false := by
  cases depth with
  | zero => rfl
  | succ depth =>
    rw [nested, Function.iterate_succ_apply']
    rfl

/-- What is not constant is not worked out. -/
theorem foldString_whole {string : Node .string} (other : string.isLiteral = false) (store : Store) :
    string.whole.foldString store = string.whole := by
  refine if_neg ?_
  rw [whole, isFoldableString, other]
  decide

end Node

namespace AnyNode

theorem subscripts_constant (value : Float) : (scalar (.constant value)).subscripts = 0 := by
  rw [subscripts]
  rfl

theorem subscripts_whole (node : Node .string) : (string node.whole).subscripts = (string node).subscripts + 1 := by
  rw [subscripts, List.attach_map_val]
  change max (string node).subscripts (max (scalar (.constant 0.0)).subscripts
    (max (scalar (.constant Number.infinity)).subscripts 0)) + 1 = _
  rw [subscripts_constant, subscripts_constant, Nat.max_self, Nat.max_self, Nat.max_zero]

theorem subscripts_iterate_whole (node : Node .string) (count : Nat) :
    (string (Node.whole^[count] node)).subscripts = (string node).subscripts + count := by
  induction count with
  | zero => rfl
  | succ count induction => rw [Function.iterate_succ_apply', subscripts_whole, induction, Nat.add_assoc]

/-- The nested node has as many subscripts on a path as a graph may have that is read one level further out. -/
theorem subscripts_nested (cell : StringCell) (depth : Nat) :
    (string (Node.nested cell depth)).subscripts = Grammar.weightAt .subscripts (depth + 1) := by
  induction depth with
  | zero =>
    rw [subscripts]
    rfl
  | succ depth induction =>
    rw [Node.nested, subscripts_iterate_whole, induction, Grammar.weightAt]
    rfl

end AnyNode

/-! ## Trees -/

def Tree.Yields (environment : Environment) (world : World) (string : Node .string) (tree : Tree) : Prop :=
  tree.compile environment (.start world) = (.ok (.string string), .start world)

namespace Tree.Yields

variable {environment : Environment} {world : World}

theorem name {word : Lexeme} {name : String} {cell : StringCell} (spelled : word.text = name)
    (bound : (world.table environment.table).lookup name = some (.string cell false)) (behind : List Lexeme) :
    (Tree.name word behind).Yields environment world (.stringVariable cell) := by
  have known : (Progress.start world).binding? environment name = some (.string cell false) := bound
  subst spelled
  unfold Yields
  rw [Tree.compile, Compile.bind_of_ok (Compile.resolve_of_known known)]
  rfl

theorem whole {base : Tree} {string : Node .string} (yields : base.Yields environment world string)
    (other : string.isLiteral = false) (bracket : Lexeme) (firstStart lastStart : Place) :
    (Tree.range bracket base firstStart (.number 0.0) lastStart (.number Number.infinity)).Yields environment world
      string.whole := by
  unfold Yields at yields ⊢
  rw [Tree.compile, Compile.bind_of_ok yields]
  change (Except.ok (AnyNode.string (if environment.settings.folding then string.whole.foldString world.store
    else string.whole)), Progress.start world) = _
  rw [Node.foldString_whole other, ite_self]

end Tree.Yields

/-! ## Reading -/

namespace Grammar

/-- So many subscripts without a beginning and an end. -/
def wholes : (count : Nat) → List Lexeme
  | 0 => []
  | count + 1 => Formula.spelled .leftBracket :: Formula.spelled .colon :: Formula.spelled .rightBracket :: wholes count

/-- A name in parentheses with one subscript behind them, in parentheses with two behind them, and so on. -/
def nested (name : String) : (depth : Nat) → List Lexeme
  | 0 => [lexemeOf (.name name) name]
  | depth + 1 =>
    Formula.spelled .leftParen :: (nested name depth ++ Formula.spelled .rightParen :: wholes (depth + 1))

variable {environment : Environment} {world : World} {limit bound : Nat} {lexemes rest : List Lexeme}

/-- Each subscript enters a level behind the one before it. -/
theorem gives_wholes {count level : Nat} (deep : count ≤ level)
    (same : lexemes.map Lexeme.token = (wholes count).map Lexeme.token) {base : Tree} {string : Node .string}
    (yields : base.Yields environment world string) (isLiteral : string.isLiteral = false)
    (other : startsWith .leftBracket rest = false) :
    ((innerAt limit bound level).subscripts base).Gives (Tree.Yields environment world (Node.whole^[count] string))
      (lexemes ++ rest) rest := by
  induction count generalizing level lexemes base string with
  | zero =>
    obtain rfl := List.map_eq_nil_iff.mp same
    exact gives_noSubscript limit bound level yields other
  | succ count induction =>
    obtain ⟨level, rfl⟩ := Nat.exists_eq_succ_of_ne_zero (Nat.ne_of_gt (Nat.lt_of_lt_of_le (Nat.succ_pos _) deep))
    obtain ⟨opening, lexemes, rfl, opened, same⟩ := List.map_eq_cons_iff.mp same
    obtain ⟨colon, lexemes, rfl, separated, same⟩ := List.map_eq_cons_iff.mp same
    obtain ⟨closing, lexemes, rfl, closed, same⟩ := List.map_eq_cons_iff.mp same
    replace separated : colon.is .colon = true := Lexeme.is_of_token separated
    have noSize : startsWith .rightBracket (colon :: closing :: (lexemes ++ rest)) = false :=
      startsWith_cons_eq_false separated (by decide) _
    have one : (subscript (assignmentAt limit bound level) opening base).Gives
        (Tree.Yields environment world string.whole) (colon :: closing :: (lexemes ++ rest)) (lexemes ++ rest) :=
      .skipping noSize (.taking separated (.taking (Lexeme.is_of_token closed)
        (.pure (yields.whole isLiteral opening _ _))))
    refine (Reader.Gives.accepting (Lexeme.is_of_token opened)).bind ?_
    rintro _ rfl
    exact one.bind fun base yields => induction (Nat.le_of_succ_le_succ deep) same yields rfl

theorem begins_nested {name : String} {depth : Nat}
    (same : lexemes.map Lexeme.token = (nested name depth).map Lexeme.token) :
    Begins Token.startsFormula lexemes := by
  cases depth with
  | zero =>
    obtain ⟨word, lexemes, rfl, spelled, -⟩ := List.map_eq_cons_iff.mp same
    exact .cons (by rw [spelled]; rfl) lexemes
  | succ depth =>
    obtain ⟨opening, lexemes, rfl, opened, -⟩ := List.map_eq_cons_iff.mp same
    exact .terminal (Lexeme.is_of_token opened) rfl lexemes

/-- The parentheses of every depth are read one level further out than what stands in them. -/
theorem gives_nested {name : String} {cell : StringCell} (some : 0 < bound) (other : Builtin.find? name = none)
    (known : (world.table environment.table).lookup name = Option.some (.string cell false)) {depth : Nat}
    (same : lexemes.map Lexeme.token = (nested name depth).map Lexeme.token)
    (named : ∀ word ∈ lexemes, word.token = .name name → word.text = name) (stops : Stops 9 rest) :
    (assignment (innerAt limit bound depth)).Gives (Tree.Yields environment world (Node.nested cell depth))
      (lexemes ++ rest) rest := by
  induction depth generalizing lexemes rest with
  | zero =>
    obtain ⟨word, lexemes, rfl, spelled, same⟩ := List.map_eq_cons_iff.mp same
    obtain rfl := List.map_eq_nil_iff.mp same
    have text := named word List.mem_cons_self spelled
    have takes : Bounds.Takes ⟨limit, bound⟩ .documented (Tree.Yields environment world (.stringVariable cell))
        .primary [word] := by
      refine .name (Formula.isName_of_name spelled) trivial (fun found same => ?_) (.name text known)
      cases spelled.symm.trans same
      exact other
    exact takes.alone.gives 0 rest (Nat.le_refl 1) some stops
  | succ depth induction =>
    obtain ⟨opening, lexemes, rfl, opened, same⟩ := List.map_eq_cons_iff.mp same
    rw [List.map_append] at same
    obtain ⟨inside, lexemes, rfl, sameInside, same⟩ := List.map_eq_append_iff.mp same
    obtain ⟨closing, behind, rfl, closed, sameBehind⟩ := List.map_eq_cons_iff.mp same
    replace opened : opening.is .leftParen = true := Lexeme.is_of_token opened
    replace closed : closing.is .rightParen = true := Lexeme.is_of_token closed
    have formula := induction sameInside (fun word member => named word (by simp [member]))
      (stops_closer (.inl rfl) closed (behind ++ rest))
    have primary := @gives_parenthesized _ _ (innerAt limit bound (depth + 1)) _ _ opened closed some
      (begins_nested sameInside) _ formula
    have power := gives_base (stops.mono (by decide)) primary fun base yields =>
      gives_wholes (Nat.le_refl _) sameBehind yields (Node.isLiteral_nested cell depth)
        (stops.startsWith_eq_false (by decide))
    have unassigned : startsAssignment (opening :: (inside ++ closing :: behind) ++ rest) = false := by
      rw [List.cons_append, startsAssignment_cons, Lexeme.token_of_is opened]
      rfl
    refine gives_alone (.terminal opened rfl _) unassigned stops ?_
    rw [List.cons_append, List.append_assoc, List.cons_append]
    exact power

/-- The lexemes that the parentheses are written with stand for themselves. -/
theorem stands_nested (depth : Nat) : ∀ lexeme ∈ nested "s" depth, Scan.Stands lexeme := by
  have tokenized : tokenize "s()[:]" = .ok [⟨.name "s", "s", ⟨1, 1⟩⟩, ⟨.fixed .leftParen, "(", ⟨1, 2⟩⟩,
      ⟨.fixed .rightParen, ")", ⟨1, 3⟩⟩, ⟨.fixed .leftBracket, "[", ⟨1, 4⟩⟩, ⟨.fixed .colon, ":", ⟨1, 5⟩⟩,
      ⟨.fixed .rightBracket, "]", ⟨1, 6⟩⟩] := by with_unfolding_all rfl
  have stand := stands_of_tokenize tokenized
  simp only [List.forall_mem_cons] at stand
  obtain ⟨name, leftParen, rightParen, leftBracket, colon, rightBracket, -⟩ := stand
  have behind (count : Nat) : ∀ lexeme ∈ wholes count, Scan.Stands lexeme := by
    induction count with
    | zero => exact List.forall_mem_nil _
    | succ count induction =>
      simp only [wholes, List.forall_mem_cons]
      exact ⟨leftBracket, colon, rightBracket, induction⟩
  induction depth with
  | zero => exact List.forall_mem_singleton.mpr name
  | succ depth induction =>
    simp only [nested, List.forall_mem_cons, List.forall_mem_append]
    exact ⟨leftParen, induction, rightParen, behind _⟩

end Grammar

/-! ## Stored graphs -/

namespace Expression

def oneString : World :=
  (World.empty.perform .newTable).perform (.request ⟨0⟩ "s" (.createString [0x61, 0x62, 0x63] false))

/-- The parentheses are compiled that enter one level less than there are, however they are laid out. -/
theorem compile_nested {settings : Settings} {depth : Nat} (levels : settings.maxDepth = depth + 1) {source : String}
    {lexemes : List Lexeme} (tokenized : tokenize source = .ok lexemes)
    (same : lexemes.map Lexeme.token = (Grammar.nested "s" depth).map Lexeme.token) :
    ((Expression.mk ⟨0⟩ none).compile settings none source oneString).1.compiled =
      some ⟨source, settings, .string (Node.nested ⟨0⟩ depth)⟩ := by
  let environment : Environment := ⟨⟨0⟩, none, settings⟩
  have begins := Grammar.begins_nested same
  have named : ∀ word ∈ lexemes, word.token = .name "s" → word.text = "s" :=
    fun word member spelled => ((stands_of_tokenize tokenized word member).spells_name spelled).1
  have bound : (oneString.table environment.table).lookup "s" = some (.string ⟨0⟩ false) := rfl
  have gives : (Grammar.statement (Grammar.outermost settings.maxDepth lexemes.length)).Gives
      (Tree.Yields environment oneString (Node.nested ⟨0⟩ depth)) lexemes [] := by
    have read : (Grammar.assignment (Grammar.innerAt settings.maxDepth lexemes.length depth)).Gives
        (Tree.Yields environment oneString (Node.nested ⟨0⟩ depth)) (lexemes ++ []) [] :=
      Grammar.gives_nested begins.length_pos (by decide) bound same named trivial
    have formula := @Grammar.gives_formula _ _ (Grammar.innerAt settings.maxDepth lexemes.length (depth + 1)) _
      begins read
    rw [List.append_nil, ← levels] at formula
    exact formula
  obtain ⟨tree, yields, comes⟩ := @Compile.program_of_gives environment oneString _ _
    (begins.imp fun _ => Token.startsStatement_of_startsFormula) gives
  have compiled := Compilation.ofSource_of_program tokenized (comes _ yields)
  change (Compilation.ofSource environment source oneString).root.map _ = _
  rw [compiled]
  rfl

/-- For every number of levels there is a source that uses them up. -/
theorem exists_compile_nested {settings : Settings} {depth : Nat} (levels : settings.maxDepth = depth + 1) :
    ∃ source, ((Expression.mk ⟨0⟩ none).compile settings none source oneString).1.compiled =
      some ⟨source, settings, .string (Node.nested ⟨0⟩ depth)⟩ := by
  obtain ⟨source, lexemes, tokenized, same⟩ := exists_tokenize (Grammar.stands_nested depth)
  exact ⟨source, compile_nested levels tokenized same⟩

/-- Subscripts and levels. A path of a stored graph has at most as many subscripts as there are pairs of levels,
whatever names stand for, whatever the resolver does and whether constants are folded or not; and for every number of
levels there is a source with so many. -/
theorem subscripts_compile (settings : Settings) :
    (∀ (expression : Expression) (resolver : Option Resolver) (source : String) (world : World) (compiled : Compiled),
      (expression.compile settings resolver source world).1.compiled = some compiled →
        compiled.root.subscripts ≤ settings.maxDepth * (settings.maxDepth - 1) / 2) ∧
      (0 < settings.maxDepth → ∃ (expression : Expression) (source : String) (world : World) (compiled : Compiled),
        (expression.compile settings none source world).1.compiled = some compiled ∧
          compiled.root.subscripts = settings.maxDepth * (settings.maxDepth - 1) / 2) := by
  constructor
  · intro expression resolver source world compiled stored
    obtain ⟨root, made, rfl⟩ := Option.map_eq_some_iff.mp stored
    exact Compilation.subscripts_root_le made
  · intro some
    obtain ⟨depth, levels⟩ := Nat.exists_eq_succ_of_ne_zero (Nat.ne_of_gt some)
    obtain ⟨source, stored⟩ := exists_compile_nested levels
    refine ⟨_, source, oneString, _, stored, ?_⟩
    rw [levels, ← Grammar.weightAt_subscripts]
    exact AnyNode.subscripts_nested ⟨0⟩ depth

/-- With four levels, six subscripts may stand one inside the other. -/
theorem subscripts_compile_six :
    ∃ compiled,
      ((Expression.mk ⟨0⟩ none).compile ⟨true, 4, none⟩ none "(((s)[:])[:][:])[:][:][:]" oneString).1.compiled =
        some compiled ∧
      compiled.root.subscripts = 6 ∧ compiled.root.subscripts ≤ 4 * (4 - 1) / 2 := by
  have scanned : (tokenize "(((s)[:])[:][:])[:][:][:]").map (List.map Lexeme.token) =
      .ok ((Grammar.nested "s" 3).map Lexeme.token) := by with_unfolding_all rfl
  cases tokenized : tokenize "(((s)[:])[:][:])[:][:][:]" with
  | error malformed =>
    rw [tokenized] at scanned
    cases scanned
  | ok lexemes =>
    rw [tokenized] at scanned
    have stored := @compile_nested ⟨true, 4, none⟩ 3 rfl _ _ tokenized (Except.ok.inj scanned)
    exact ⟨_, stored, AnyNode.subscripts_nested ⟨0⟩ 3, (subscripts_compile ⟨true, 4, none⟩).1 _ _ _ _ _ stored⟩

theorem maxDepth_lt_subscripts {settings : Settings} (four : 4 ≤ settings.maxDepth) :
    ∃ source compiled, ((Expression.mk ⟨0⟩ none).compile settings none source oneString).1.compiled = some compiled ∧
      settings.maxDepth < compiled.root.subscripts := by
  obtain ⟨depth, levels⟩ := Nat.exists_eq_succ_of_ne_zero (Nat.ne_of_gt (Nat.lt_of_lt_of_le (by decide) four))
  obtain ⟨source, stored⟩ := exists_compile_nested levels
  refine ⟨source, _, stored, ?_⟩
  have three : 3 ≤ depth := by omega
  have product : (depth + 1) * 3 ≤ (depth + 1) * depth := Nat.mul_le_mul_left _ three
  rw [levels, AnyNode.subscripts_nested, Grammar.weightAt_subscripts, Nat.add_sub_cancel]
  exact (Nat.le_div_iff_mul_le Nat.two_pos).mpr (by omega)

end Expression

end LiveExpr
