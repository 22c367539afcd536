import LiveExpr.Proofs.Compile.Repetition

/-!
Declared names. A name that is known is not declared again, and a declared variable hides nothing that the table binds.
Both are found out in front of the initializer though, and the name becomes known behind it: what the initializer itself
declares, or has the resolver bind, is not taken into account.
-/

namespace LiveExpr

namespace Progress

variable {environment : Environment} {before after : Progress} {usage : Usage} {cells : List Cell} {name other : String}

/-! ## Supplied names -/

namespace Supplies

theorem accepted_eq (supplies : before.Supplies environment name after) :
    after.accepted = name :: before.accepted := by
  cases supplies <;> rfl

theorem locals_eq (supplies : before.Supplies environment name after) : after.locals = before.locals := by
  cases supplies <;> rfl

theorem isSome_lookup (supplies : before.Supplies environment name after) :
    ((after.world.table environment.table).lookup name).isSome = true := by
  cases supplies with
  | found _ bound => exact Option.isSome_of_eq_some bound
  | created _ created =>
    rw [(World.createScalar_eq_ok created).2,
      SymbolTable.lookup_insert_same (World.lookup_of_createScalar created)]
    rfl

theorem lookup_other (supplies : before.Supplies environment name after) (asked : environment.BindsOnlyAsked)
    (different : other ≠ name) :
    (after.world.table environment.table).lookup other = (before.world.table environment.table).lookup other := by
  cases supplies with
  | found installed => exact asked _ installed name before.world other different
  | created installed created =>
    rw [(World.createScalar_eq_ok created).2, SymbolTable.lookup_insert_other different]
    exact asked _ installed name before.world other different

end Supplies

/-! ## What stays known -/

theorem isSome_binding?_iff :
    (before.binding? environment name).isSome = true ↔ (before.locals.lookup name).isSome = true ∨
      ((before.world.table environment.table).lookup name).isSome = true := by
  unfold binding?
  cases before.locals.lookup name <;> simp

theorem isSome_locals_declare (content : Value) (isLocal : (before.locals.lookup name).isSome = true) (other : String) :
    ((before.declare other content).locals.lookup name).isSome = true := by
  by_cases same : name = other
  · subst same
    rw [declare, NameMap.lookup_insert_same]
    rfl
  · rwa [declare, NameMap.lookup_insert_other same]

namespace Runs

theorem accepted_kept (runs : Runs environment before usage cells after) (accepted : name ∈ before.accepted) :
    name ∈ after.accepted := by
  induction runs with
  | done => exact accepted
  | known _ _ induction => exact induction accepted
  | supplied _ supplies _ induction =>
    refine induction ?_
    rw [supplies.accepted_eq]
    exact List.mem_cons_of_mem _ accepted
  | declared _ _ _ _ inner induction => exact induction (inner accepted)

theorem local_kept (runs : Runs environment before usage cells after)
    (isLocal : (before.locals.lookup name).isSome = true) : (after.locals.lookup name).isSome = true := by
  induction runs with
  | done => exact isLocal
  | known _ _ induction => exact induction isLocal
  | supplied _ supplies _ induction =>
    refine induction ?_
    rwa [supplies.locals_eq]
  | declared _ _ content _ inner induction => exact induction (isSome_locals_declare content (inner isLocal) _)

theorem isSome_locals (runs : Runs environment before usage cells after) (declares : name ∈ usage.declared) :
    (after.locals.lookup name).isSome = true := by
  induction runs with
  | done => cases declares
  | known _ _ induction | supplied _ _ _ induction => exact induction declares
  | @declared _ middle _ declared _ _ _ _ _ _ content others inner induction =>
    rcases List.mem_cons.mp declares with rfl | declares
    · refine others.local_kept ?_
      rw [declare, NameMap.lookup_insert_same]
      rfl
    · rcases List.mem_append.mp declares with declares | declares
      · exact others.local_kept (isSome_locals_declare content (inner declares) declared)
      · exact induction declares

section Asked

variable (asked : environment.BindsOnlyAsked)

include asked

/-- The binding of a name in the table does not change while it stands for a declared variable. -/
theorem lookup_of_local (runs : Runs environment before usage cells after)
    (isLocal : (before.locals.lookup name).isSome = true) :
    (after.world.table environment.table).lookup name = (before.world.table environment.table).lookup name := by
  induction runs with
  | done => rfl
  | known _ _ induction => exact induction isLocal
  | @supplied _ _ _ sought _ _ unknown supplies _ induction =>
    have different : name ≠ sought := by
      rintro rfl
      rw [(lookup_of_unknown unknown).1] at isLocal
      cases isLocal
    rw [← supplies.lookup_other asked different]
    refine induction ?_
    rwa [supplies.locals_eq]
  | @declared _ middle _ declared _ _ _ _ _ initialized content _ inner induction =>
    exact (induction (isSome_locals_declare content (initialized.local_kept isLocal) declared)).trans (inner isLocal)

/-- The binding of a name in the table does not change unless the name is looked up. -/
theorem lookup_of_not_sought (runs : Runs environment before usage cells after) (unsought : name ∉ usage.sought) :
    (after.world.table environment.table).lookup name = (before.world.table environment.table).lookup name := by
  induction runs with
  | done => rfl
  | known _ _ induction => exact induction fun sought => unsought (List.mem_cons_of_mem _ sought)
  | supplied _ supplies _ induction =>
    rw [← supplies.lookup_other asked (List.ne_of_not_mem_cons unsought)]
    exact induction (List.not_mem_of_not_mem_cons unsought)
  | declared _ _ content _ inner induction =>
    have others := induction fun sought => unsought (List.mem_append_right _ sought)
    exact others.trans (inner fun sought => unsought (List.mem_append_left _ sought))

theorem bound_kept (runs : Runs environment before usage cells after)
    (bound : ((before.world.table environment.table).lookup name).isSome = true) :
    ((after.world.table environment.table).lookup name).isSome = true := by
  induction runs with
  | done => exact bound
  | known _ _ induction => exact induction bound
  | @supplied _ _ _ sought _ _ _ supplies _ induction =>
    refine induction ?_
    by_cases same : name = sought
    · exact same ▸ supplies.isSome_lookup
    · rwa [supplies.lookup_other asked same]
  | declared _ _ _ _ inner induction => exact induction (inner bound)

theorem accepted_of_bound (runs : Runs environment before usage cells after)
    (unbound : (before.world.table environment.table).lookup name = none)
    (bound : ((after.world.table environment.table).lookup name).isSome = true) : name ∈ after.accepted := by
  induction runs with
  | done =>
    rw [unbound] at bound
    cases bound
  | known _ _ induction => exact induction unbound bound
  | @supplied _ _ _ sought _ _ _ supplies others induction =>
    by_cases same : name = sought
    · refine others.accepted_kept ?_
      rw [supplies.accepted_eq, same]
      exact List.mem_cons_self ..
    · refine induction ?_ bound
      rwa [supplies.lookup_other asked same]
  | @declared _ middle _ _ _ _ _ _ _ _ _ others inner induction =>
    cases here : (middle.world.table environment.table).lookup name with
    | some binding => exact others.accepted_kept (inner unbound (Option.isSome_of_eq_some here))
    | none => exact induction here bound

theorem bound_of_accepted (runs : Runs environment before usage cells after) (accepted : name ∈ after.accepted) :
    name ∈ before.accepted ∨ ((after.world.table environment.table).lookup name).isSome = true := by
  induction runs with
  | done => exact .inl accepted
  | known _ _ induction => exact induction accepted
  | supplied _ supplies others induction =>
    rcases induction accepted with earlier | bound
    · rw [supplies.accepted_eq] at earlier
      rcases List.mem_cons.mp earlier with rfl | earlier
      · exact .inr (others.bound_kept asked supplies.isSome_lookup)
      · exact .inl earlier
    · exact .inr bound
  | declared _ _ _ others inner induction =>
    rcases induction accepted with earlier | bound
    · exact (inner earlier).imp_right fun bound => others.bound_kept asked bound
    · exact .inr bound

theorem known_kept (runs : Runs environment before usage cells after)
    (known : (before.binding? environment name).isSome = true) : (after.binding? environment name).isSome = true := by
  rw [isSome_binding?_iff] at known ⊢
  exact known.imp runs.local_kept (runs.bound_kept asked)

theorem not_declared_of_known (runs : Runs environment before usage cells after)
    (known : (before.binding? environment name).isSome = true) : name ∉ usage.declared := by
  induction runs with
  | done => exact List.not_mem_nil
  | known _ _ induction => exact induction known
  | supplied unknown supplies _ induction =>
    have here : Runs environment _ (.seek _ .nothing) [] _ := .supplied unknown supplies (.done _)
    exact induction (here.known_kept asked known)
  | declared unknown initialized content _ inner induction =>
    have here : Runs environment _ (.declare _ _ .nothing) _ _ := .declared unknown initialized content (.done _)
    intro declares
    rcases List.mem_cons.mp declares with rfl | declares
    · rw [unknown] at known
      cases known
    · rcases List.mem_append.mp declares with declares | declares
      · exact inner known declares
      · exact induction (here.known_kept asked known) declares

theorem accepted_of_declared (runs : Runs environment before usage cells after) (declares : name ∈ usage.declared)
    (bound : ((after.world.table environment.table).lookup name).isSome = true) : name ∈ after.accepted := by
  refine runs.accepted_of_bound asked (Classical.byContradiction fun earlier => ?_) bound
  have known := isSome_binding?_iff.mpr (.inr (Option.isSome_iff_ne_none.mpr earlier))
  exact runs.not_declared_of_known asked known declares

theorem count_declared_le_one (runs : Runs environment before usage cells after)
    (once : ∀ initializer, usage.Declares name initializer → name ∉ initializer.declared) :
    usage.declared.count name ≤ 1 := by
  induction runs with
  | done => exact Nat.zero_le 1
  | known _ _ induction | supplied _ _ _ induction =>
    exact induction fun initializer inside => once initializer (.afterName _ inside)
  | @declared _ middle _ declared initializer rest _ _ unknown initialized content others inner induction =>
    have behind (isLocal : ((middle.declare declared content).locals.lookup name).isSome = true) :
        rest.declared.count name = 0 :=
      List.count_eq_zero.mpr (others.not_declared_of_known asked (isSome_binding?_iff.mpr (.inl isLocal)))
    have first := inner fun _ inside => once _ (.inside declared rest inside)
    have second := induction fun _ inside => once _ (.afterDeclaration declared initializer inside)
    rw [Usage.declared, List.count_cons, List.count_append]
    by_cases same : declared = name
    · subst same
      have inside := List.count_eq_zero.mpr (once _ (.here initializer rest))
      have later := behind (by rw [declare, NameMap.lookup_insert_same]; rfl)
      rw [inside, later]
      split <;> omega
    · rw [if_neg (fun equal => same (beq_iff_eq.mp equal))]
      by_cases inside : name ∈ initializer.declared
      · have later := behind (isSome_locals_declare content (initialized.isSome_locals inside) declared)
        omega
      · have none := List.count_eq_zero.mpr inside
        omega

theorem lookup_eq_none_of_declared (runs : Runs environment before usage cells after)
    (unsought : ∀ initializer, usage.Declares name initializer → name ∉ initializer.sought)
    (declares : name ∈ usage.declared) : (after.world.table environment.table).lookup name = none := by
  induction runs with
  | done => cases declares
  | known _ _ induction | supplied _ _ _ induction =>
    exact induction (fun initializer inside => unsought initializer (.afterName _ inside)) declares
  | @declared _ middle _ declared _ _ _ _ unknown initialized content others inner induction =>
    rcases List.mem_cons.mp declares with rfl | declares
    · have isLocal : ((middle.declare name content).locals.lookup name).isSome = true := by
        rw [declare, NameMap.lookup_insert_same]
        rfl
      have untouched := initialized.lookup_of_not_sought asked (unsought _ (.here _ _))
      rw [others.lookup_of_local asked isLocal]
      exact untouched.trans (lookup_of_unknown unknown).2
    · rcases List.mem_append.mp declares with declares | declares
      · have unbound := inner (fun initializer inside => unsought initializer (.inside declared _ inside)) declares
        have isLocal := isSome_locals_declare content (initialized.isSome_locals declares) declared
        exact (others.lookup_of_local asked isLocal).trans unbound
      · exact induction (fun initializer inside => unsought initializer (.afterDeclaration declared _ inside)) declares

end Asked

end Runs

end Progress

/-! ## Sources -/

namespace Compilation

/-- What becomes of the names that a source declares, if it is compiled without a problem and the resolver binds at
most the names that it is asked for. A declared name is bound in the table in the end just if the resolver has accepted
it. It is declared once, if no declaration of it stands in the initializer of another, and it is not bound in the end,
if none of its initializers looks it up. -/
theorem ofSource_declares {environment : Environment} {source : String} {world : World} {root : AnyNode}
    (asked : environment.BindsOnlyAsked) (compiled : (ofSource environment source world).root = some root) :
    ∃ lexemes trees, tokenize source = .ok lexemes ∧
      Grammar.trees? environment.settings.maxDepth lexemes = some trees ∧
      declaredNames lexemes = (usageOfStatements trees).declared ∧
      ∀ name ∈ declaredNames lexemes,
        let compilation := ofSource environment source world
        let bound := (compilation.world.table environment.table).lookup name
        (bound.isSome = true ↔ name ∈ compilation.accepted) ∧
        ((∀ initializer, (usageOfStatements trees).Declares name initializer → name ∉ initializer.declared) →
          (declaredNames lexemes).count name = 1) ∧
        ((∀ initializer, (usageOfStatements trees).Declares name initializer → name ∉ initializer.sought) →
          bound = none) := by
  obtain ⟨success⟩ := exists_success compiled
  obtain ⟨cells, runs, -⟩ := success.copies world
  have declared := Grammar.declared_trees? success.read
  refine ⟨success.lexemes, success.trees, success.tokenized, success.read, declared, fun name declares => ?_⟩
  rw [success.eq]
  rw [declared] at declares ⊢
  dsimp only
  refine ⟨⟨fun bound => ?_, fun accepted => ?_⟩, fun once => ?_, fun unsought => ?_⟩
  · exact List.mem_reverse.mpr (runs.accepted_of_declared asked declares bound)
  · exact (runs.bound_of_accepted asked (List.mem_reverse.mp accepted)).resolve_left List.not_mem_nil
  · exact Nat.le_antisymm (runs.count_declared_le_one asked once) (List.count_pos_iff.mpr declares)
  · exact runs.lookup_eq_none_of_declared asked unsought declares

def acceptingEnvironment : Environment :=
  ⟨⟨0⟩, some Expression.acceptAll, .standard⟩

theorem tokenize_supplied :
    tokenize "var x:=y;x" = .ok [⟨.fixed .varWord, "var", ⟨1, 1⟩⟩, ⟨.name "x", "x", ⟨1, 5⟩⟩,
      ⟨.fixed .assign, ":=", ⟨1, 6⟩⟩, ⟨.name "y", "y", ⟨1, 8⟩⟩, ⟨.fixed .semicolon, ";", ⟨1, 9⟩⟩,
      ⟨.name "x", "x", ⟨1, 10⟩⟩] := by
  with_unfolding_all rfl

/-- With `y` accepted by the resolver, `var x:=y;x` declares `x` once, and `x` is not bound. -/
theorem ofSource_declares_supplied :
    let compilation := ofSource acceptingEnvironment "var x:=y;x" .empty
    acceptingEnvironment.BindsOnlyAsked ∧ compilation.root.isSome = true ∧
      ∃ lexemes, tokenize "var x:=y;x" = .ok lexemes ∧ (declaredNames lexemes).count "x" = 1 ∧
        (compilation.world.table acceptingEnvironment.table).lookup "x" = none := by
  intro compilation
  have asked : acceptingEnvironment.BindsOnlyAsked := by
    rintro _ ⟨⟩ name world other _
    rfl
  have compiled : compilation.root =
      some (AnyNode.scalar (.sequence [AnyNode.scalar (.assign ⟨1⟩ none (.variable ⟨0⟩))] (.variable ⟨1⟩))) := by
    change (ofSource acceptingEnvironment "var x:=y;x" .empty).root = _
    unfold ofSource
    rw [tokenize_supplied]
    rfl
  obtain ⟨lexemes, trees, tokenized, read, -, names⟩ := ofSource_declares asked compiled
  refine ⟨asked, Option.isSome_of_eq_some compiled, lexemes, tokenized, ?_⟩
  rw [tokenize_supplied] at tokenized
  cases tokenized
  cases read
  obtain ⟨-, once, unbound⟩ := names "x" (List.mem_singleton_self _)
  refine ⟨once ?_, unbound ?_⟩
  all_goals
    intro initializer declares
    change Usage.Declares "x" (.declare "x" (.seek "y" .nothing) (.seek "x" .nothing)) initializer at declares
    cases declares with
    | here => decide
    | inside _ _ nested => cases nested with | afterName _ nested => cases nested
    | afterDeclaration _ _ later => cases later with | afterName _ later => cases later

theorem tokenize_nested :
    tokenize "var x:=if(true)var x:=true;x" = .ok [⟨.fixed .varWord, "var", ⟨1, 1⟩⟩, ⟨.name "x", "x", ⟨1, 5⟩⟩,
      ⟨.fixed .assign, ":=", ⟨1, 6⟩⟩, ⟨.fixed .ifWord, "if", ⟨1, 8⟩⟩, ⟨.fixed .leftParen, "(", ⟨1, 10⟩⟩,
      ⟨.fixed .trueWord, "true", ⟨1, 11⟩⟩, ⟨.fixed .rightParen, ")", ⟨1, 15⟩⟩, ⟨.fixed .varWord, "var", ⟨1, 16⟩⟩,
      ⟨.name "x", "x", ⟨1, 20⟩⟩, ⟨.fixed .assign, ":=", ⟨1, 21⟩⟩, ⟨.fixed .trueWord, "true", ⟨1, 23⟩⟩,
      ⟨.fixed .semicolon, ";", ⟨1, 27⟩⟩, ⟨.name "x", "x", ⟨1, 28⟩⟩] := by
  with_unfolding_all rfl

/-- A name can be declared twice: once more in the initializer of its own declaration. -/
theorem ofSource_declares_nested :
    (ofSource Compile.plainEnvironment "var x:=if(true)var x:=true;x" .empty).root.isSome = true ∧
      ∃ lexemes, tokenize "var x:=if(true)var x:=true;x" = .ok lexemes ∧ declaredNames lexemes = ["x", "x"] := by
  refine ⟨?_, _, tokenize_nested, rfl⟩
  unfold ofSource
  rw [tokenize_nested]
  rfl

end Compilation

end LiveExpr
