import LiveExpr.Proofs.Compile.Law
import LiveExpr.Proofs.Compile.Repetition
import LiveExpr.Proofs.Compile.Work
import LiveExpr.Proofs.Node.Learning

/-!
Declarations that no evaluation passes by. Where a source declares its variables in statements and in the beginnings of
loops, and not in branches, every evaluation gives them their contents before it reads them. So the evaluations of such
a source carry no state from one time to the next.
-/

namespace LiveExpr

/-- Whether no evaluation passes by a declaration in the tree: declarations are statements, initializers of others, or
begin a loop. -/
inductive Tree.IsStraight : Tree → Prop
  | undeclared {tree : Tree} (none : tree.usage.declared = []) : IsStraight tree
  | declaration (word : Lexeme) (start : Place) {value : Tree} (straight : IsStraight value) :
      IsStraight (.declaration word start value)
  | listedVector (word : Lexeme) (size : Nat) (bracket : Lexeme) {elements : List (Place × Tree)}
      (straight : ∀ one ∈ elements, IsStraight one.2) : IsStraight (.listedVector word size bracket elements)
  | filledVector (word : Lexeme) (size : Nat) (start : Place) {value : Tree} (straight : IsStraight value) :
      IsStraight (.filledVector word size start value)
  | block {statements : List Tree} {result : Tree} (straight : ∀ one ∈ statements, IsStraight one)
      (last : IsStraight result) : IsStraight (.block statements result)
  | loop {initializer : Tree} (start : Place) {condition step body : Tree} (straight : IsStraight initializer)
      (first : condition.usage.declared = []) (second : step.usage.declared = []) (third : body.usage.declared = []) :
      IsStraight (.loop initializer start condition step body)

/-! ## Known cells -/

section Unaided

variable {environment : Environment} (unaided : environment.resolver = none) {world : World}

include unaided

theorem World.Passes.grows {before after : World} (passes : before.Passes environment after) :
    before.store.Grows after.store ∧ after.table environment.table = before.table environment.table := by
  induction passes with
  | refl => exact ⟨.refl _, rfl⟩
  | tail _ step induction =>
    rcases induction with ⟨grown, same⟩
    cases step with
    | ask installed | create installed =>
      rw [unaided] at installed
      cases installed
    | number => exact ⟨grown.trans (.newNumber _ _), same⟩
    | string => exact ⟨grown.trans (.newString _ _), same⟩
    | vector => exact ⟨grown.trans (.newVector _ _), same⟩

end Unaided

namespace Progress

/-- Whether the table binds the cell, or it has come into use since the compilation began in the world. -/
def Knows (table : TableHandle) (world : World) (progress : Progress) (cell : Cell) : Prop :=
  world.Shares table cell ∨ ¬cell.IsInUse world.store ∧ cell.IsInUse progress.world.store

section Unaided

variable {environment : Environment} (unaided : environment.resolver = none) {world : World}
  {before after progress : Progress} {binding : Binding} {cell : Cell}

include unaided

theorem extends_of_reaches (reached : before.Reaches environment after) :
    before.world.store.Extends after.world.store :=
  (reached.world_passes.grows unaided).1.extends

theorem Knows.later (knows : before.Knows environment.table world cell) (reached : before.Reaches environment after) :
    after.Knows environment.table world cell := by
  apply knows.imp_right
  rintro ⟨unused, inUse⟩
  exact ⟨unused, inUse.extend (extends_of_reaches unaided reached)⟩

theorem knows_of_allocates {middle : World} (reached : (start world).Reaches environment before)
    (allocates : before.world.Allocates binding middle) (holds : binding.cell? = some cell) :
    ¬cell.IsInUse world.store ∧ cell.IsInUse middle.store := by
  rcases allocates.isFresh_cell holds with ⟨unused, inUse⟩
  exact ⟨fun earlier => unused (earlier.extend (extends_of_reaches unaided reached)), inUse⟩

/-- The names that the formula has declared stand for cells that have come into use. -/
theorem knows_of_local (reached : (start world).Reaches environment progress) {name : String}
    (isLocal : progress.locals.lookup name = some binding) (holds : binding.cell? = some cell) :
    ¬cell.IsInUse world.store ∧ cell.IsInUse progress.world.store := by
  induction reached with
  | refl => cases isLocal
  | @tail middle last reached step induction =>
    have grown := extends_of_reaches unaided (.single step)
    cases step with
    | report | reportName | accept => exact induction isLocal
    | world => exact (induction isLocal).imp_right (·.extend grown)
    | declare declared found allocates =>
      rcases NameMap.lookup_insert_cases isLocal with ⟨-, rfl⟩ | earlier
      · exact knows_of_allocates unaided reached allocates holds
      · exact (induction earlier).imp_right (·.extend grown)

theorem knows_of_binds (reached : (start world).Reaches environment progress)
    (binds : progress.Binds environment binding) (holds : binding.cell? = some cell) :
    progress.Knows environment.table world cell := by
  rcases binds with ⟨name, isLocal | bound⟩
  · exact .inr (knows_of_local unaided reached isLocal holds)
  · rw [(reached.world_passes.grows unaided).2] at bound
    exact .inl ⟨name, binding, bound, holds⟩

theorem knows_of_assignable (assignable : progress.Assignable environment world binding)
    (holds : binding.cell? = some cell) : progress.Knows environment.table world cell := by
  cases assignable with
  | bound reached binds later => exact (knows_of_binds unaided reached binds holds).later unaided later
  | allocated reached allocates later =>
    rcases knows_of_allocates unaided reached allocates holds with ⟨unused, inUse⟩
    exact .inr ⟨unused, inUse.extend (extends_of_reaches unaided later)⟩

/-- What does not declare anything changes nothing. -/
theorem Runs.eq_of_undeclared {usage : Usage} {cells : List Cell} (runs : Runs environment before usage cells after)
    (none : usage.declared = []) : after = before := by
  induction runs with
  | done => rfl
  | known _ _ induction => exact induction none
  | supplied _ supplies =>
    cases supplies with
    | found installed | created installed =>
      rw [unaided] at installed
      cases installed
  | declared => cases none

end Unaided

/-- A declaration makes one cell known. -/
theorem knows_declare {table : TableHandle} {world : World} {progress : Progress} {name : String} {content : Value}
    {cell : Cell} (knows : (progress.declare name content).Knows table world cell) :
    progress.Knows table world cell ∨ cell = (progress.world.store.allocate content).1 := by
  rcases knows with shared | ⟨unused, inUse⟩
  · exact .inl (.inl shared)
  · by_cases earlier : cell.IsInUse progress.world.store
    · exact .inl (.inr ⟨unused, earlier⟩)
    · exact .inr (progress.world.store.eq_of_isInUse_allocate content earlier inUse)

end Progress

/-- All cells in a graph are known. -/
def knowingLaw {environment : Environment} (unaided : environment.resolver = none) (world : World) :
    GraphLaw environment world where
  Holds progress node := ∀ cell ∈ node.cell?, progress.Knows environment.table world cell
  later reached _ knows cell named := (knows cell named).later unaided reached
  number reached _ _ binds _ named := Progress.knows_of_binds unaided reached binds named
  text reached _ _ binds _ named := Progress.knows_of_binds unaided reached binds named
  vector reached _ binds _ named := Progress.knows_of_binds unaided reached binds named
  constant _ := nofun
  literal _ := nofun
  binary _ _ _ := nofun
  chain _ _ := nofun
  concat _ := nofun
  loop _ _ _ _ _ := nofun
  elementOperation _ _ _ := by
    unfold Node.elementOperation
    split <;> nofun
  alike alike := by
    cases alike with
    | assign _ _ target | stringAssign _ _ target | assignElement _ _ _ target | vectorAssign _ _ target
    | reset _ _ target => exact fun cell named => Progress.knows_of_assignable unaided target named
    | _ => nofun

/-! ## Compiled trees -/

namespace Compile

variable {α γ : Type} {β : α → Type} {δ : γ → Type}

/-- Whether the evaluation of what a computation makes without a report, in a compilation from the world, reads what is
known before, and makes known what is known after. -/
def Teaches (environment : Environment) (world : World) (computation : Compile α)
    (run : Nat → (value : α) → Traced (β value)) : Prop :=
  ∀ ⦃before : Progress⦄ ⦃value : α⦄ ⦃after : Progress⦄, (Progress.start world).Reaches environment before →
    computation before = (.ok value, after) → after.IsClear →
    (Progress.start world).Reaches environment after ∧
      ∀ fuel, Traced.Teaches (before.Knows environment.table world) (after.Knows environment.table world)
        (run fuel value)

abbrev TeachesNode (environment : Environment) (world : World) (computation : Compile AnyNode) : Prop :=
  Teaches environment world computation fun fuel node => node.2.trace fuel

variable {environment : Environment} {world : World} {lexemes : List Lexeme} {before after : Progress}

theorem requireScalar_eq_ok {role : Role} {place : Place} {node : AnyNode} {scalar : Node .scalar}
    (done : requireScalar role place node before = (.ok scalar, after)) (clear : after.IsClear) :
    node = .scalar scalar ∧ after = before := by
  rcases node with ⟨k, node⟩
  cases k with
  | scalar =>
    cases done
    exact ⟨rfl, rfl⟩
  | string | vector =>
    cases done
    cases clear.reports

theorem clear_of_compile {tree : Tree} (proper : tree.Proper lexemes) {node : AnyNode}
    (compiled : tree.compile environment before = (.ok node, after)) (clear : after.IsClear) : before.IsClear :=
  (@compile_copies environment .empty _ _ proper _ _ _ compiled clear).1

theorem clear_of_compileElements {trees : List (Place × Tree)} (proper : ∀ one ∈ trees, one.2.Proper lexemes)
    {nodes : List (Node .scalar)} (compiled : compileElements environment trees before = (.ok nodes, after))
    (clear : after.IsClear) : before.IsClear := by
  have copies := @compileElements_copies environment .empty trees fun one listed => compile_copies (proper one listed)
  exact (copies compiled clear).1

theorem clear_of_compileStatements {trees : List Tree} (proper : ∀ tree ∈ trees, tree.Proper lexemes)
    {nodes : List AnyNode} (compiled : compileStatements environment trees before = (.ok nodes, after))
    (clear : after.IsClear) : before.IsClear := by
  have copies := @compileStatements_copies environment .empty trees fun one listed =>
    compile_copies (proper one listed)
  exact (copies compiled clear).1

/-! ## Parts without declarations -/

section Undeclared

variable {tree : Tree} (proper : tree.Proper lexemes) (undeclared : tree.usage.declared = [])
  (unaided : environment.resolver = none)

include proper undeclared unaided

/-- What declares nothing leaves the state as it is. -/
theorem compile_undeclared {node : AnyNode} (compiled : tree.compile environment before = (.ok node, after))
    (clear : after.IsClear) : after = before := by
  rcases @compile_copies environment .empty _ _ proper _ _ _ compiled clear with ⟨-, cells, runs, -⟩
  exact runs.eq_of_undeclared unaided undeclared

theorem teaches_of_undeclared : TeachesNode environment world (tree.compile environment) := by
  intro before node after reached compiled clear
  have within := (knowingLaw unaided world).everywhere_tree proper reached compiled clear.reports
  rcases compile_undeclared proper undeclared unaided compiled clear with rfl
  exact ⟨reached, fun fuel => AnyNode.teaches_trace within fuel⟩

end Undeclared

/-! ## Lists of trees -/

theorem compileElements_teaches {trees : List (Place × Tree)} (proper : ∀ one ∈ trees, one.2.Proper lexemes)
    (teaches : ∀ one ∈ trees, TeachesNode environment world (one.2.compile environment)) :
    Teaches environment world (compileElements environment trees) traceAll := by
  induction trees with
  | nil =>
    intro before nodes after reached compiled clear
    cases compiled
    exact ⟨reached, fun fuel => .pure []⟩
  | cons first rest induction =>
    have restProper := (List.forall_mem_cons.mp proper).2
    rcases List.forall_mem_cons.mp teaches with ⟨here, behind⟩
    intro before nodes after reached compiled clear
    rcases bind_eq_ok compiled with ⟨node, middle, firstCompiled, compiled⟩
    rcases bind_eq_ok compiled with ⟨scalar, _, required, compiled⟩
    rcases bind_eq_ok compiled with ⟨others, _, restCompiled, compiled⟩
    cases compiled
    have clearRest := clear_of_compileElements restProper restCompiled clear
    rcases requireScalar_eq_ok required clearRest with ⟨rfl, rfl⟩
    rcases here reached firstCompiled clearRest with ⟨reachedMiddle, learns⟩
    rcases induction restProper behind reachedMiddle restCompiled clear with ⟨reachedAfter, learnsRest⟩
    refine ⟨reachedAfter, fun fuel => ?_⟩
    exact (learns fuel).bind fun _ => (learnsRest fuel).bind fun _ => .pure _

theorem compileStatements_teaches {trees : List Tree} (proper : ∀ tree ∈ trees, tree.Proper lexemes)
    (teaches : ∀ tree ∈ trees, TeachesNode environment world (tree.compile environment)) :
    Teaches environment world (compileStatements environment trees) traceStatements := by
  induction trees with
  | nil =>
    intro before nodes after reached compiled clear
    cases compiled
    exact ⟨reached, fun fuel => .pure ()⟩
  | cons first rest induction =>
    have restProper := (List.forall_mem_cons.mp proper).2
    rcases List.forall_mem_cons.mp teaches with ⟨here, behind⟩
    intro before nodes after reached compiled clear
    rcases bind_eq_ok compiled with ⟨node, middle, firstCompiled, compiled⟩
    rcases bind_eq_ok compiled with ⟨others, _, restCompiled, compiled⟩
    cases compiled
    have clearRest := clear_of_compileStatements restProper restCompiled clear
    rcases here reached firstCompiled clearRest with ⟨reachedMiddle, learns⟩
    rcases induction restProper behind reachedMiddle restCompiled clear with ⟨reachedAfter, learnsRest⟩
    refine ⟨reachedAfter, fun fuel => ?_⟩
    exact (AnyNode.teaches_traceStatement (learns fuel)).bind fun _ => learnsRest fuel

/-! ## Declarations -/

/-- Whether the end of a declaration that finds no problem makes a node that goes through the initializer and leaves the
cell of the name written. -/
def Introduces (name : String) (finish : Compile AnyNode) {α : Type} (initializer : Nat → Traced α) : Prop :=
  ∀ ⦃before : Progress⦄ ⦃node : AnyNode⦄ ⦃after : Progress⦄, finish before = (.ok node, after) → after.IsClear →
    ∃ content, after = before.declare name content ∧
      ∀ fuel {known later : Cell → Prop}, Traced.Teaches known later (initializer fuel) →
        Traced.Teaches known (fun cell => later cell ∨ cell = (before.world.store.allocate content).1)
          (node.2.trace fuel)

theorem declaration_introduces (word : Lexeme) (start : Place) (value : AnyNode) :
    Introduces word.text (declaration true word start value) value.2.trace := by
  intro before node after done clear
  rcases value with ⟨k, value⟩
  cases k with
  | scalar =>
    cases done
    refine ⟨.number 0.0, rfl, fun fuel _ _ teaches => ?_⟩
    exact teaches.bind fun _ => Traced.teaches_assign _ _
  | string =>
    cases done
    refine ⟨.text [], rfl, fun fuel _ _ teaches => ?_⟩
    exact teaches.bind fun _ => Traced.teaches_assignString _ _
  | vector =>
    cases done
    cases clear.reports

theorem listedVector_introduces (word : Lexeme) (size : Nat) (bracket : Lexeme) (elements : List (Node .scalar)) :
    Introduces word.text (listedVector true word size bracket elements) fun fuel => traceAll fuel elements := by
  intro before node after done clear
  unfold listedVector at done
  by_cases tooMany : size < elements.length
  · rw [if_pos tooMany] at done
    cases done
    cases clear.reports
  · rw [if_neg tooMany] at done
    cases done
    refine ⟨.vector (List.replicate size 0.0), rfl, fun fuel _ _ teaches => ?_⟩
    exact teaches.bind fun _ => Traced.teaches_reset _ _ _

theorem filledVector_introduces (word : Lexeme) (size : Nat) (start : Place) (value : AnyNode) :
    Introduces word.text (filledVector true word size start value) value.2.trace := by
  intro before node after done clear
  rcases value with ⟨k, value⟩
  cases k with
  | scalar =>
    cases done
    refine ⟨.vector (List.replicate size 0.0), rfl, fun fuel _ _ teaches => ?_⟩
    have values := teaches.bind fun value => (Traced.Teaches.pure []).bind fun rest => .pure (value :: rest)
    exact values.bind fun _ => Traced.teaches_reset _ _ _
  | vector =>
    cases done
    refine ⟨.vector (List.replicate size 0.0), rfl, fun fuel known later teaches => ?_⟩
    let target := (before.world.store.newVector (List.replicate size 0.0)).1
    -- The vector is set to zeros first, and then it is assigned to.
    have cleared : Traced.Teaches known (fun cell => known cell ∨ cell = .vector target)
        (traceStatements fuel [AnyNode.vector (.reset target [] false)]) := by
      have values : Traced.Teaches known known (traceAll fuel []) := .pure []
      exact (values.bind fun _ => Traced.teaches_reset target _ false).discard.bind fun _ => .pure ()
    have assigned : Traced.Teaches (fun cell => known cell ∨ cell = .vector target)
        (fun cell => later cell ∨ cell = .vector target) (value.trace fuel) :=
      teaches.adapt (fun _ => .inl) fun _ => Or.imp_right .inr
    refine cleared.bind fun _ => ?_
    have operand : Traced.Teaches (fun cell => known cell ∨ cell = .vector target)
        (fun cell => later cell ∨ cell = .vector target) ((Operand.vector value).trace fuel) :=
      assigned.bind fun values => .pure (Broadcast.each values)
    exact operand.bind fun values => (Traced.IsAccess.assignVector target none values).teaches (.inr rfl)
  | string =>
    cases done
    cases clear.reports

theorem teaches_declare {α : Type} {β : α → Type} {word : Lexeme} {initializer : Compile α}
    {run : Nat → (value : α) → Traced (β value)} {finish : Bool → α → Compile AnyNode}
    (clears : ∀ {allowed : Bool} {value : α} {before after : Progress} {node : AnyNode},
      finish allowed value before = (.ok node, after) → after.IsClear → before.IsClear)
    (clearsBefore : ∀ {before after : Progress} {value : α}, initializer before = (.ok value, after) →
      after.IsClear → before.IsClear)
    (teaches : Teaches environment world initializer run)
    (introduces : ∀ value, Introduces word.text (finish true value) fun fuel => run fuel value) :
    TeachesNode environment world (do
      let allowed ← mayDeclare environment word
      let value ← initializer
      finish allowed value) := by
  intro before node after reached compiled clear
  rcases bind_eq_ok compiled with ⟨allowed, first, asked, compiled⟩
  rcases bind_eq_ok compiled with ⟨value, middle, initialized, finished⟩
  have clearMiddle := clears finished clear
  rcases mayDeclare_eq_ok asked (clearsBefore initialized clearMiddle) with ⟨rfl, rfl, -⟩
  rcases teaches reached initialized clearMiddle with ⟨reachedMiddle, learns⟩
  rcases introduces value finished clear with ⟨content, rfl, written⟩
  refine ⟨?_, fun fuel => ?_⟩
  · exact reachedMiddle.tail (.declare word.text [] (middle.world.allocates_allocate content))
  · exact (written fuel (learns fuel)).adapt (fun _ => id) fun cell knows => .inl (Progress.knows_declare knows)

/-! ## Trees -/

theorem teaches_sequence {statements : List AnyNode} {result : AnyNode} {fuel : Nat} {known middle later : Cell → Prop}
    (first : Traced.Teaches known middle (traceStatements fuel statements))
    (second : Traced.Teaches middle later (result.2.trace fuel)) :
    Traced.Teaches known later ((AnyNode.sequence statements result).2.trace fuel) := by
  unfold AnyNode.sequence
  cases statements with
  | nil => exact first.bind fun _ => second
  | cons => exact first.bind fun _ => second

theorem teaches_block {statements : List Tree} {result : Tree}
    (statementsProper : ∀ tree ∈ statements, tree.Proper lexemes) (resultProper : result.Proper lexemes)
    (first : ∀ tree ∈ statements, TeachesNode environment world (tree.compile environment))
    (second : TeachesNode environment world (result.compile environment)) :
    TeachesNode environment world ((Tree.block statements result).compile environment) := by
  intro before node after reached compiled clear
  rw [Tree.compile] at compiled
  rcases bind_eq_ok compiled with ⟨nodes, middle, statementsCompiled, compiled⟩
  rcases bind_eq_ok compiled with ⟨last, _, resultCompiled, compiled⟩
  cases compiled
  have clearMiddle := clear_of_compile resultProper resultCompiled clear
  obtain ⟨reachedMiddle, learns⟩ :=
    compileStatements_teaches statementsProper first reached statementsCompiled clearMiddle
  rcases second reachedMiddle resultCompiled clear with ⟨reachedAfter, learnsMore⟩
  exact ⟨reachedAfter, fun fuel => teaches_sequence (learns fuel) (learnsMore fuel)⟩

theorem teaches_loop {initializer : Tree} (start : Place) {condition step body : Tree}
    (unaided : environment.resolver = none) (conditionProper : condition.Proper lexemes)
    (stepProper : step.Proper lexemes) (bodyProper : body.Proper lexemes)
    (teaches : TeachesNode environment world (initializer.compile environment))
    (first : condition.usage.declared = []) (second : step.usage.declared = []) (third : body.usage.declared = []) :
    TeachesNode environment world ((Tree.loop initializer start condition step body).compile environment) := by
  intro before node after reached compiled clear
  rw [Tree.compile] at compiled
  rcases bind_eq_ok compiled with ⟨begun, middle, initialized, compiled⟩
  rcases bind_eq_ok compiled with ⟨tested, _, conditionCompiled, compiled⟩
  rcases bind_eq_ok compiled with ⟨scalar, _, required, compiled⟩
  rcases bind_eq_ok compiled with ⟨stepped, _, stepCompiled, compiled⟩
  rcases bind_eq_ok compiled with ⟨repeated, _, bodyCompiled, compiled⟩
  cases compiled
  -- Nothing happens to the state once the loop has begun.
  rcases compile_undeclared bodyProper third unaided bodyCompiled clear with rfl
  rcases compile_undeclared stepProper second unaided stepCompiled clear with rfl
  rcases requireScalar_eq_ok required clear with ⟨rfl, rfl⟩
  rcases compile_undeclared conditionProper first unaided conditionCompiled clear with rfl
  rcases teaches reached initialized clear with ⟨reachedAfter, learns⟩
  have tests := (teaches_of_undeclared conditionProper first unaided reachedAfter conditionCompiled clear).2
  have steps := (teaches_of_undeclared stepProper second unaided reachedAfter stepCompiled clear).2
  have repeats := (teaches_of_undeclared bodyProper third unaided reachedAfter bodyCompiled clear).2
  refine ⟨reachedAfter, fun fuel => ?_⟩
  have whole := (tests fuel).repeatWhile (AnyNode.teaches_traceScalar (repeats fuel))
    (AnyNode.teaches_traceStatement (steps fuel))
  exact (AnyNode.teaches_traceStatement (learns fuel)).bind fun _ => whole _ _ _ _

/-- What is made of a tree that is straight reads nothing before it is known. -/
theorem teaches_of_isStraight {tree : Tree} (straight : tree.IsStraight) (proper : tree.Proper lexemes)
    (unaided : environment.resolver = none) : TeachesNode environment world (tree.compile environment) := by
  induction straight with
  | undeclared none => exact teaches_of_undeclared proper none unaided
  | declaration word start _ induction =>
    cases proper with
    | declaration _ _ valueProper =>
      rw [Tree.compile]
      exact teaches_declare (fun done => (declaration_finishes word start _).clear done)
        (clear_of_compile valueProper) (induction valueProper) (declaration_introduces word start)
  | listedVector word size bracket _ induction =>
    cases proper with
    | listedVector _ _ _ elementsProper =>
      rw [Tree.compile]
      have teaches := compileElements_teaches elementsProper fun one listed =>
        induction one listed (elementsProper one listed)
      exact teaches_declare (fun done => (listedVector_finishes word size bracket _).clear done)
        (clear_of_compileElements elementsProper) teaches (listedVector_introduces word size bracket)
  | filledVector word size start _ induction =>
    cases proper with
    | filledVector _ _ _ valueProper =>
      rw [Tree.compile]
      exact teaches_declare (fun done => (filledVector_finishes word size start _).clear done)
        (clear_of_compile valueProper) (induction valueProper) (filledVector_introduces word size start)
  | block _ _ statements result =>
    cases proper with
    | block statementsProper resultProper =>
      exact teaches_block statementsProper resultProper
        (fun tree listed => statements tree listed (statementsProper tree listed)) (result resultProper)
  | loop start _ first second third induction =>
    cases proper with
    | loop _ initializerProper conditionProper stepProper bodyProper =>
      exact teaches_loop start unaided conditionProper stepProper bodyProper (induction initializerProper) first second
        third

/-- The last statement is compiled after the others. -/
theorem compileStatements_concat {trees : List Tree} {tree : Tree} {nodes : List AnyNode}
    (compiled : compileStatements environment (trees ++ [tree]) before = (.ok nodes, after)) :
    ∃ others middle node, compileStatements environment trees before = (.ok others, middle) ∧
      tree.compile environment middle = (.ok node, after) ∧ nodes = others ++ [node] := by
  rw [compileStatements_append] at compiled
  rcases bind_eq_ok compiled with ⟨others, middle, othersMade, compiled⟩
  rcases bind_eq_ok compiled with ⟨_, _, lastMade, compiled⟩
  cases compiled
  rcases bind_eq_ok lastMade with ⟨node, _, made, lastMade⟩
  cases lastMade
  exact ⟨others, middle, node, othersMade, made, rfl⟩

theorem knows_start {table : TableHandle} {cell : Cell} (knows : (Progress.start world).Knows table world cell) :
    world.Shares table cell :=
  knows.resolve_right fun fresh => fresh.1 fresh.2

theorem teaches_program {trees : List Tree} (proper : ∀ tree ∈ trees, tree.Proper lexemes)
    (straight : ∀ tree ∈ trees, tree.IsStraight) (unaided : environment.resolver = none) {nodes : List AnyNode}
    {result : AnyNode} (compiled : compileStatements environment trees (.start world) = (.ok nodes, after))
    (clear : after.IsClear) (last : nodes.getLast? = some result) (fuel : Nat) :
    Traced.Teaches (world.Shares environment.table) (after.Knows environment.table world)
      ((AnyNode.sequence nodes.dropLast result).2.trace fuel) := by
  rcases List.eq_nil_or_concat' trees with rfl | ⟨rest, tree, rfl⟩
  · cases compiled
    cases last
  rcases compileStatements_concat compiled with ⟨others, middle, node, othersMade, made, rfl⟩
  rw [List.getLast?_concat] at last
  cases last
  rw [List.dropLast_concat]
  have block : (Tree.block rest tree).compile environment (.start world) =
      (.ok (AnyNode.sequence others result), after) := by
    rw [Tree.compile, bind_of_ok othersMade, bind_of_ok made]
    rfl
  rw [List.forall_mem_append, List.forall_mem_singleton] at proper straight
  have blockStraight : (Tree.block rest tree).IsStraight := .block straight.1 straight.2
  have blockProper : (Tree.block rest tree).Proper lexemes := .block proper.1 proper.2
  have teaches := (teaches_of_isStraight blockStraight blockProper unaided .refl block clear).2 fuel
  exact teaches.adapt (fun _ => knows_start) fun _ => .inl

end Compile

/-! ## Expressions -/

namespace Expression

variable {expression : Expression} {settings : Settings} {source : String} {world : World} {lexemes : List Lexeme}
  {trees : List Tree} (tokenized : tokenize source = .ok lexemes)
  (read : Grammar.trees? settings.maxDepth lexemes = some trees) (straight : ∀ tree ∈ trees, tree.IsStraight)

include tokenized read straight

/-- The evaluations of a source without declarations in branches read nothing but what the host has bound before they
have written it. -/
theorem isSettled_log (fuel : Nat) (store : Store) :
    Event.IsSettled (world.Shares expression.table)
      ((expression.compile settings none source world).1.log fuel store) := by
  unfold log trace compile
  dsimp only
  cases made : (Compilation.ofSource ⟨expression.table, none, settings⟩ source world).root with
  | none => trivial
  | some root =>
    rcases Compilation.exists_success made with ⟨success⟩
    have sameLexemes : success.lexemes = lexemes := Except.ok.inj (success.tokenized.symm.trans tokenized)
    have sameTrees : success.trees = trees := by
      have sameRead := success.read
      rw [sameLexemes, read] at sameRead
      exact (Option.some.inj sameRead).symm
    rw [success.eq] at made
    cases made
    have proper := Grammar.trees?_proper success.read
    rw [sameTrees] at proper
    have compiled := success.compiled
    rw [sameTrees] at compiled
    have teaches := Compile.teaches_program proper straight rfl compiled success.isClear success.last fuel
    exact ((teaches.bind fun content => .pure _) store).1

/-- A source without declarations in branches carries no state from one evaluation to the next. If it calls no function
of the host, two evaluations from the same contents of what the host has bound give the same value and leave the same
contents, whatever the other cells hold. -/
theorem evaluate_of_isStraight
    (callFree : ∀ compiled, (expression.compile settings none source world).1.compiled = some compiled →
      compiled.root.Everywhere AnyNode.IsCallFree)
    {store other : Store} (same : store.Matches (world.Shares expression.table) other) (fuel : Nat) :
    Option.Rel
      (fun result another => result.1 = another.1 ∧ result.2.Matches (world.Shares expression.table) another.2)
      ((expression.compile settings none source world).1.evaluate fuel store)
      ((expression.compile settings none source world).1.evaluate fuel other) := by
  rw [← erase_trace]
  exact (settles_trace _ callFree fuel).erased same (isSettled_log tokenized read straight fuel store)

end Expression

/-- Every evaluation of a loop passes the declaration of its variable. -/
example : ∃ lexemes trees, tokenize "for(var i:=c;i;i-=true)i" = .ok lexemes ∧
    Grammar.trees? 40 lexemes = some trees ∧ ∀ tree ∈ trees, tree.IsStraight := by
  refine ⟨_, _, by cbv, rfl, List.forall_mem_singleton.mpr ?_⟩
  exact .loop _ (.declaration _ _ (.undeclared rfl)) rfl rfl rfl

end LiveExpr
