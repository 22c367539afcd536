import LiveExpr.Expression
import LiveExpr.Proofs.Compile.Questions
import LiveExpr.Proofs.Node.Locality
import LiveExpr.Proofs.Precedence.Call
import LiveExpr.Proofs.Token.Naming
import LiveExpr.Proofs.World.Regularity

/-!
Names in symbol tables and in sources. Whatever name a table has come to bind is one token of a source, so a formula can
read it or call it; and the tables refuse no name that a formula can look up but those of built-in functions.
-/

namespace LiveExpr

/-! ## Bound names -/

namespace SymbolTable

variable {table : SymbolTable} {store : Store} {name : String}

theorem IsRegular.isSpelling (regular : table.IsRegular store) {kind : SymbolKind} {binding : Binding}
    (bound : (table.ofKind kind).lookup name = some binding) : Name.IsSpelling name ∧ Builtin.find? name = none := by
  obtain ⟨identifier, noKeyword, other⟩ := Name.validate_eq_ok_iff.mp (regular.valid bound)
  exact ⟨⟨identifier, noKeyword⟩, other⟩

theorem ofKind_of_function? {function : FunctionHandle} (bound : table.function? name = some function) :
    (table.ofKind .function).lookup name = some (.function function) := by
  rw [ofKind, NameMap.lookup_map]
  exact congrArg _ bound

end SymbolTable

/-! ## Reading a name -/

def Binding.IsConstant : Binding → Prop
  | scalar _ constant | string _ constant => constant = true
  | vector _ | function _ => False

namespace World

/-- Whether compiling the source with standard settings against the table comes to a graph and does nothing else, with
or without a resolver, and the graph evaluates as the computation does in the stores that fit. -/
def Gives (world : World) (handle : TableHandle) (source : String) (fits : Store → Prop)
    (computation : StateM Store Value) : Prop :=
  ∀ resolver, ∃ root,
    Compilation.ofSource ⟨handle, resolver, .standard⟩ source world = ⟨some root, [], [], world⟩ ∧
      ∀ fuel store, fits store → root.evaluate fuel store = some (computation store)

/-- A source of one formula is read to a tree, and comes to what the tree is compiled to. -/
theorem ofSource_of_takes {environment : Environment} {world : World} {source : String} {lexemes : List Lexeme}
    {dialect : Grammar.Dialect} {good : Tree → Prop} (tokenized : tokenize source = .ok lexemes)
    (takes : Grammar.Bounds.Takes ⟨environment.settings.maxDepth, lexemes.length⟩ dialect good .assignment lexemes)
    (deep : lexemes.length ≤ environment.settings.maxDepth) :
    ∃ tree, good tree ∧ ∀ root, tree.compile environment (.start world) = (.ok root, .start world) →
      Compilation.ofSource environment source world = ⟨some root, [], [], world⟩ := by
  obtain ⟨tree, holds, comes⟩ := @Compile.program_of_compile environment world _ _ _ takes deep
  exact ⟨tree, holds, fun root compiled => Compilation.ofSource_of_program tokenized (comes root compiled)⟩

end World

/-- The node that reads what a name is bound to, as long as a constant has the value that it was compiled with. -/
theorem Compile.reference_evaluates (environment : Environment) (world : World) (word : Lexeme) (rest : List Lexeme)
    {binding : Binding} {cell : Cell} (holds : binding.cell? = some cell) :
    ∃ root, reference environment.settings word rest (some binding) (.start world) = (.ok root, .start world) ∧
      ∀ fuel store, (binding.IsConstant → store.content cell = world.store.content cell) →
        root.evaluate fuel store = some (store.content cell, store) := by
  cases binding with
  | function => cases holds
  | vector =>
    cases holds
    exact ⟨_, rfl, fun _ _ _ => rfl⟩
  | scalar target constant | string target constant =>
    cases holds
    refine ⟨_, rfl, fun fuel store kept => ?_⟩
    split
    · next folded =>
      rw [Bool.and_eq_true] at folded
      rw [kept folded.1]
      rfl
    · rfl

namespace World

variable {world : World} {handle : TableHandle} {name : String}

theorem gives_name {binding : Binding} {cell : Cell} (spelling : Name.IsSpelling name)
    (other : Builtin.find? name = none) (bound : (world.table handle).lookup name = some binding)
    (holds : binding.cell? = some cell) :
    world.Gives handle name (fun store => binding.IsConstant → store.content cell = world.store.content cell)
      (fun store => (store.content cell, store)) := by
  have tokenized := tokenize_eq_name_iff.mpr spelling
  have takes : Grammar.Bounds.Takes ⟨40, 1⟩ .documented
      (fun tree => ∃ behind, tree = .name ⟨.name name, name, .start⟩ behind) .primary [⟨.name name, name, .start⟩] := by
    refine .name rfl trivial (fun found same => ?_) fun behind => ⟨behind, rfl⟩
    cases same
    exact other
  intro resolver
  obtain ⟨tree, ⟨behind, rfl⟩, comes⟩ := @ofSource_of_takes ⟨handle, resolver, .standard⟩ world _ _ _ _ tokenized
    takes.alone (show 1 ≤ 40 by decide)
  obtain ⟨root, compiled, evaluates⟩ := Compile.reference_evaluates ⟨handle, resolver, .standard⟩ world
    ⟨.name name, name, .start⟩ behind holds
  refine ⟨root, comes root ?_, evaluates⟩
  have known : (Progress.start world).binding? ⟨handle, resolver, .standard⟩ name = some binding := bound
  rw [Tree.compile, Compile.bind_of_ok (Compile.resolve_of_known known), compiled]

end World

/-! ## Calling a name -/

/-- Whether the source is a call of the name with written formulas, of at most forty lexemes. -/
def IsCall (source name : String) (formulas : List Formula) : Prop :=
  ∃ word opening inside closing, tokenize source = .ok (word :: opening :: (inside ++ [closing])) ∧
    word.token = .name name ∧ opening.is .leftParen = true ∧ closing.is .rightParen = true ∧
      Formula.WritesAll formulas inside ∧ inside.length + 3 ≤ 40

def trueArguments : Nat → List Lexeme
  | 0 => []
  | 1 => [Formula.spelled .trueWord]
  | count + 2 => Formula.spelled .trueWord :: Formula.spelled .comma :: trueArguments (count + 1)

def trueCall (name : String) (count : Nat) : List Lexeme :=
  lexemeOf (.name name) name :: Formula.spelled .leftParen :: (trueArguments count ++ [Formula.spelled .rightParen])

theorem stands_trueCall {name : String} (spelling : Name.IsSpelling name) (count : Nat) :
    ∀ lexeme ∈ trueCall name count, Scan.Stands lexeme := by
  have tokenized : tokenize "(true,)" = .ok [⟨.fixed .leftParen, "(", ⟨1, 1⟩⟩, ⟨.fixed .trueWord, "true", ⟨1, 2⟩⟩,
      ⟨.fixed .comma, ",", ⟨1, 6⟩⟩, ⟨.fixed .rightParen, ")", ⟨1, 7⟩⟩] := by with_unfolding_all rfl
  have stand := stands_of_tokenize tokenized
  simp only [List.forall_mem_cons] at stand
  obtain ⟨opening, isTrue, comma, closing, -⟩ := stand
  have arguments : ∀ lexeme ∈ trueArguments count, Scan.Stands lexeme := by
    fun_induction trueArguments count with
    | case1 => exact List.forall_mem_nil _
    | case2 => exact List.forall_mem_singleton.mpr isTrue
    | case3 count induction => exact List.forall_mem_cons.mpr ⟨isTrue, List.forall_mem_cons.mpr ⟨comma, induction⟩⟩
  refine List.forall_mem_cons.mpr ⟨Scan.stands_name spelling _, List.forall_mem_cons.mpr ⟨opening, ?_⟩⟩
  exact List.forall_mem_append.mpr ⟨arguments, List.forall_mem_singleton.mpr closing⟩

theorem writesAll_trueArguments {count : Nat} (some : 0 < count) {inside : List Lexeme}
    (same : inside.map Lexeme.token = (trueArguments count).map Lexeme.token) :
    Formula.WritesAll (List.replicate count (.constant 1.0)) inside ∧ inside.length + 1 = 2 * count := by
  have writes {word : Lexeme} (spelled : word.token = .fixed .trueWord) :
      Formula.Writes .assignment (.constant 1.0) [word] := by
    have primary : Formula.Writes (Formula.phrase 0) (.constant 1.0) [word] := .constant (by rw [spelled]; rfl)
    exact primary.looser (Nat.zero_le 10)
  fun_induction trueArguments count generalizing inside with
  | case1 => omega
  | case2 =>
    obtain ⟨word, rest, rfl, spelled, more⟩ := List.map_eq_cons_iff.mp same
    obtain rfl := List.map_eq_nil_iff.mp more
    exact ⟨.last (writes spelled), rfl⟩
  | case3 count induction =>
    obtain ⟨word, rest, rfl, spelled, more⟩ := List.map_eq_cons_iff.mp same
    obtain ⟨comma, rest, rfl, separated, others⟩ := List.map_eq_cons_iff.mp more
    obtain ⟨written, length⟩ := induction (Nat.succ_pos count) others
    refine ⟨.next (writes spelled) (Lexeme.is_of_token separated) written, ?_⟩
    simp only [List.length_cons]
    omega

/-- A name can be called with any number of arguments from one to four. -/
theorem exists_isCall {name : String} (spelling : Name.IsSpelling name) {count : Nat} (some : 0 < count)
    (few : count ≤ 4) : ∃ source, IsCall source name (List.replicate count (.constant 1.0)) := by
  obtain ⟨source, again, tokenized, tokens⟩ := exists_tokenize (stands_trueCall spelling count)
  obtain ⟨word, rest, rfl, spelled, more⟩ := List.map_eq_cons_iff.mp tokens
  obtain ⟨opening, rest, rfl, opened, more⟩ := List.map_eq_cons_iff.mp more
  rw [List.map_append] at more
  obtain ⟨inside, last, rfl, same, more⟩ := List.map_eq_append_iff.mp more
  obtain ⟨closing, rest, rfl, closed, more⟩ := List.map_eq_cons_iff.mp more
  obtain rfl := List.map_eq_nil_iff.mp more
  obtain ⟨written, length⟩ := writesAll_trueArguments some same
  exact ⟨source, word, opening, inside, closing, tokenized, spelled, Lexeme.is_of_token opened,
    Lexeme.is_of_token closed, written, by omega⟩

namespace World

variable {world : World} {handle : TableHandle} {name : String}

theorem gives_call {source : String} {formulas : List Formula} {function : FunctionHandle} {cell : String → NumberCell}
    (isCall : IsCall source name formulas) (other : Builtin.find? name = none)
    (bound : (world.table handle).lookup name = some (.function function)) (count : formulas.length = function.arity)
    (usable : ∀ formula ∈ formulas, ∀ found ∈ formula.names,
      (world.table handle).lookup found = some (.scalar (cell found) false) ∧ Builtin.find? found = none) :
    world.Gives handle source (fun _ => True) (Value.number <$> Formula.callWith cell function formulas) := by
  obtain ⟨word, opening, inside, closing, tokenized, spelled, opened, closed, written, deep⟩ := isCall
  obtain rfl : word.text = name := ((stands_of_tokenize tokenized word List.mem_cons_self).spells_name spelled).1
  intro resolver
  let scope : Scope := ⟨⟨handle, resolver, .standard⟩, world, cell⟩
  have takes : Formula.TakesAll ⟨40, (word :: opening :: (inside ++ [closing])).length⟩ scope formulas inside :=
    Formula.takesAll_of_writes written usable
  have isName : word.token.isName = true := Formula.isName_of_name spelled
  have short : (word :: opening :: (inside ++ [closing])).length ≤ 40 := by
    simpa [Nat.add_assoc] using deep
  obtain ⟨tree, calls, comes⟩ := @ofSource_of_takes scope.environment world _ _ _ _ tokenized
    (takes.call isName opened closed).alone short
  obtain ⟨node, compiled, computes⟩ := Compile.call_comesTo bound other count calls
  refine ⟨.scalar node, comes _ compiled, fun fuel store _ => ?_⟩
  unfold AnyNode.evaluate
  rw [show (AnyNode.scalar node).2.eval fuel = _ from computes fuel]
  rfl

end World

/-! ## Creating a variable -/

/-- Whether the resolver accepts the name without binding it. -/
def Question.IsLeftOpen (table : TableHandle) (resolver : Resolver) (question : Question) : Prop :=
  (question.answer table resolver).1 = .resolved ∧
    ((question.answer table resolver).2.table table).lookup question.name = none

/-- A free name that a source can spell is refused just if it is that of a function that is built in. -/
theorem SymbolTable.add_of_isSpelling {table : SymbolTable} {name : String} (spelling : Name.IsSpelling name)
    (free : table.lookup name = none) (binding : Binding) :
    table.add name binding =
      if (Builtin.find? name).isSome then .error (.reservedName name) else .ok (table.insert name binding) := by
  have available : table.contains name = false := by
    rw [contains, free]
    rfl
  rw [add, checkName, Name.validate_of_isSpelling spelling, available]
  cases (Builtin.find? name).isSome <;> rfl

theorem World.createScalar_eq_error_iff {world : World} {handle : TableHandle} {name : String} {value : Float}
    {constant : Bool} {error : BindingError} (spelling : Name.IsSpelling name)
    (free : (world.table handle).lookup name = none) :
    world.createScalar handle name value constant = .error error ↔
      error = .reservedName name ∧ (Builtin.find? name).isSome = true := by
  let grown : World := { world with store := (world.store.newNumber value).2 }
  have added : (grown.table handle).add name (.scalar (world.store.newNumber value).1 constant) = _ :=
    SymbolTable.add_of_isSpelling spelling free _
  change grown.add handle name (.scalar (world.store.newNumber value).1 constant) = _ ↔ _
  rw [World.add, added]
  cases (Builtin.find? name).isSome with
  | true => simp [eq_comm]
  | false => simp

/-- Names in symbol tables and in sources. A table accepts just those names that are one token and not built in. So
in whatever table a host comes to, a bound name is a formula that reads what the name is bound to, and every bound
function can be called, with formulas of variables for its arguments; and when a name is looked up that the resolver
accepts without binding it, then no variable is created for it only if it is built in. -/
theorem World.names_usable :
    (∀ name, Name.validate name = .ok () ↔
      tokenize name = .ok [⟨.name name, name, .start⟩] ∧ Builtin.find? name = none) ∧
    (∀ world, World.empty.Runs world → ∀ handle,
      (∀ kind name binding cell, ((world.table handle).ofKind kind).lookup name = some binding →
        binding.cell? = some cell →
        world.Gives handle name (fun store => binding.IsConstant → store.content cell = world.store.content cell)
          (fun store => (store.content cell, store))) ∧
      ∀ name function, (world.table handle).function? name = some function →
        (∃ source, IsCall source name (List.replicate function.arity (.constant 1.0))) ∧
        ∀ source formulas cell, IsCall source name formulas → formulas.length = function.arity →
          (∀ formula ∈ formulas, ∀ found ∈ formula.names,
            (world.table handle).lookup found = some (.scalar (cell found) false)) →
          world.Gives handle source (fun _ => True) (Value.number <$> Formula.callWith cell function formulas)) ∧
    ∀ environment resolver source world, environment.resolver = some resolver →
      ∀ question ∈ (Compilation.inquire environment source world).1,
        question.IsLeftOpen environment.table resolver → ∀ error,
          (question.answer environment.table resolver).2.createScalar environment.table question.name 0.0 false =
              .error error ↔
            error = .reservedName question.name ∧ (Builtin.find? question.name).isSome = true := by
  refine ⟨fun name => ?_, fun world run handle => ⟨fun kind name binding cell bound holds => ?_,
    fun name function bound => ⟨?_, fun source formulas cell isCall count usable => ?_⟩⟩,
    fun environment resolver source world installed question asked leftOpen error => ?_⟩
  · rw [Name.validate_eq_ok_iff, tokenize_eq_name_iff]
    exact and_assoc.symm
  · have regular := run.isRegular isRegular_empty handle
    obtain ⟨spelling, other⟩ := regular.isSpelling bound
    exact gives_name spelling other (regular.lookup_of_ofKind bound) holds
  · have regular := run.isRegular isRegular_empty handle
    have found := SymbolTable.ofKind_of_function? bound
    have arity : 1 ≤ function.arity ∧ function.arity ≤ 4 := regular.admissible found
    exact exists_isCall (regular.isSpelling found).1 arity.1 arity.2
  · have regular := run.isRegular isRegular_empty handle
    have found := SymbolTable.ofKind_of_function? bound
    refine gives_call isCall (regular.isSpelling found).2 (regular.lookup_of_ofKind found) count ?_
    intro formula member variableName mentioned
    have scalar := usable formula member variableName mentioned
    exact ⟨scalar, (regular.isSpelling (SymbolTable.lookup_ofKind scalar)).2⟩
  · obtain ⟨lexemes, tokenized, sought⟩ := Compilation.sought_of_inquire installed source world asked
    obtain ⟨rest, ends, -⟩ := sought.uncalled
    have listed : question.word ∈ lexemes := ends.subset List.mem_cons_self
    exact createScalar_eq_error_iff ((stands_of_tokenize tokenized _ listed).isSpelling sought.isName) leftOpen.2

/-- A vector is read by its name. A resolver may accept the name of a function that is built in where it is assigned to,
but no variable is created for it. -/
theorem World.names_usable_vector :
    let world := (World.empty.perform .newTable).perform (.request ⟨0⟩ "v" (.createVector [1.0, 2.0]))
    let environment : Environment := ⟨⟨0⟩, some Expression.acceptAll, .standard⟩
    (∃ root, Compilation.ofSource environment "v" world = ⟨some root, [], [], world⟩ ∧
      ∀ fuel, root.evaluate fuel world.store = some (.vector [1.0, 2.0], world.store)) ∧
    (Compilation.inquire environment "sin:=true" world).1.map Question.name = ["sin"] ∧
    world.createScalar ⟨0⟩ "sin" 0.0 false = .error (.reservedName "sin") := by
  intro world environment
  obtain ⟨-, bound, leftOpen⟩ := World.names_usable
  have run : World.empty.Runs world := ((Runs.refl _).perform _).perform _
  have tokenized : tokenize "sin:=true" =
      .ok [⟨.name "sin", "sin", ⟨1, 1⟩⟩, ⟨.fixed .assign, ":=", ⟨1, 4⟩⟩, ⟨.fixed .trueWord, "true", ⟨1, 6⟩⟩] := by with_unfolding_all rfl
  have asked : (Compilation.inquire environment "sin:=true" world).1 =
      [⟨⟨.name "sin", "sin", ⟨1, 1⟩⟩, .start world⟩] := by
    rw [Compilation.inquire_of_ok tokenized]
    rfl
  refine ⟨?_, ?_, ?_⟩
  · obtain ⟨root, compiled, evaluates⟩ :=
      (bound world run ⟨0⟩).1 .vector "v" (.vector ⟨0⟩) (.vector ⟨0⟩) rfl rfl (some Expression.acceptAll)
    exact ⟨root, compiled, fun fuel => evaluates fuel world.store False.elim⟩
  · rw [asked]
    rfl
  · have member : ⟨⟨.name "sin", "sin", ⟨1, 1⟩⟩, .start world⟩ ∈
        (Compilation.inquire environment "sin:=true" world).1 := by
      rw [asked]
      exact List.mem_cons_self
    exact (leftOpen environment _ "sin:=true" world rfl _ member ⟨rfl, rfl⟩ _).mpr ⟨rfl, by decide⟩

end LiveExpr
