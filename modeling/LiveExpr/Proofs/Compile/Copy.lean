import LiveExpr.Proofs.Compile.Confinement
import LiveExpr.Proofs.Compile.Variable
import LiveExpr.Proofs.Grammar.Proper

/-!
Compiling once more. What has been compiled without a problem can be compiled again without the resolver, against the
bindings that there are at the end: it comes to the same nodes, but for the cells of declared variables.
-/

namespace LiveExpr

def Environment.withoutResolver (environment : Environment) : Environment :=
  { environment with resolver := none }

/-! ## The copy -/

/-- Whether a later world has all bindings of a table, to cells in use that are not relabeled, with what a compilation
knows of their contents. -/
def World.IsCovered (table : TableHandle) (relabeling : Relabeling) (world later : World) : Prop :=
  ∀ name binding, (world.table table).lookup name = some binding →
    (later.table table).lookup name = some binding ∧ binding.relabel relabeling = binding ∧
      binding.Agrees relabeling world.store later.store ∧ binding.IsInUse later.store

theorem World.IsCovered.earlier {table : TableHandle} {relabeling : Relabeling} {later before after : World}
    (covered : after.IsCovered table relabeling later) (keeps : before.Keeps table after) :
    before.IsCovered table relabeling later := by
  intro name binding bound
  obtain ⟨stillBound, agrees⟩ := keeps name binding bound
  obtain ⟨found, fixed, same, inUse⟩ := covered name binding stillBound
  exact ⟨found, fixed, agrees.trans same, inUse⟩

/-- Whether a binding and the relabeled one are those of declared variables, one of each compilation. -/
structure Binding.IsTwin (relabeling : Relabeling) (store copy : Store) (binding : Binding) : Prop where
  isLocal : binding.IsLocal store
  copied : (binding.relabel relabeling).IsLocal copy
  agrees : binding.Agrees relabeling store copy

theorem Binding.IsTwin.grow {relabeling : Relabeling} {before after copy copied : Store} {binding : Binding}
    (twin : binding.IsTwin relabeling before copy) (grown : before.Extends after) (copyGrown : copy.Extends copied) :
    binding.IsTwin relabeling after copied where
  isLocal := twin.isLocal.extend grown
  copied := twin.copied.extend copyGrown
  agrees := by
    cases binding with
    | scalar | string =>
      intro constant
      rw [twin.isLocal.1] at constant
      cases constant
    | vector cell =>
      have same : (copy.vector (relabeling.vector cell)).length = (before.vector cell).length := twin.agrees
      exact (copyGrown.lengths _ twin.copied).trans (same.trans (grown.lengths cell twin.isLocal).symm)
    | function => trivial

theorem isTwin_allocate {relabeling : Relabeling} {store copy : Store} {content : Value}
    (fits : relabeling.cell (store.allocate content).1 = (copy.allocate content).1) :
    (store.allocate content).1.binding.IsTwin relabeling (store.allocate content).2 (copy.allocate content).2 := by
  refine ⟨(World.allocates_allocate ⟨store, default⟩ content).isLocal, ?_, ?_⟩
  · rw [Relabeling.binding_relabel, fits]
    exact (World.allocates_allocate ⟨copy, default⟩ content).isLocal
  · cases content with
    | number | text => exact nofun
    | vector values =>
      have cell := Cell.vector.inj fits
      change ((copy.newVector values).2.vector (relabeling.vector (store.newVector values).1)).length = _
      rw [cell]
      exact congrArg List.length ((Cells.get_push_same copy.vectors values).trans
        (Cells.get_push_same store.vectors values).symm)

/-- The state of a compilation and that of its copy, made against a later world, when the pending cells are yet to be
allocated. -/
structure Mirrors (relabeling : Relabeling) (later : World) (pending : List Cell) (progress copy : Progress) :
    Prop where
  limit : relabeling.limit = id
  clear : copy.IsClear
  tables : copy.world.tables = later.tables
  grown : later.store.Grows copy.world.store
  fits : relabeling.Fits copy.world.store.frontier pending
  unknown {name : String} (undeclared : progress.locals.lookup name = none) : copy.locals.lookup name = none
  known {name : String} {binding : Binding} (declared : progress.locals.lookup name = some binding) :
    copy.locals.lookup name = some (binding.relabel relabeling) ∧
      binding.IsTwin relabeling progress.world.store copy.world.store

namespace Mirrors

variable {environment : Environment} {relabeling : Relabeling} {later : World} {pending rest : List Cell}
  {progress after copy : Progress} {name : String} {binding : Binding}

theorem table (mirrors : Mirrors relabeling later pending progress copy) (handle : TableHandle) :
    copy.world.table handle = later.table handle := by
  unfold World.table
  rw [mirrors.tables]

theorem binding? (mirrors : Mirrors relabeling later pending progress copy)
    (covered : progress.world.IsCovered environment.table relabeling later)
    (known : progress.binding? environment name = some binding) :
    copy.binding? environment.withoutResolver name = some (binding.relabel relabeling) ∧
      binding.Agrees relabeling progress.world.store copy.world.store := by
  unfold Progress.binding? at known ⊢
  split at known
  · next declared =>
    cases known
    obtain ⟨copied, twin⟩ := mirrors.known declared
    rw [copied]
    exact ⟨rfl, twin.agrees⟩
  · next undeclared =>
    obtain ⟨bound, fixed, agrees, inUse⟩ := covered name binding known
    rw [mirrors.unknown undeclared, mirrors.table, fixed]
    refine ⟨bound, agrees.grow mirrors.grown ?_⟩
    rwa [fixed]

theorem binding?_eq_none (mirrors : Mirrors relabeling later pending progress copy)
    (unknown : progress.binding? environment name = none)
    (unbound : (later.table environment.table).lookup name = none) :
    copy.binding? environment.withoutResolver name = none := by
  unfold Progress.binding?
  rw [mirrors.unknown (Progress.lookup_of_unknown unknown).1, mirrors.table]
  exact unbound

theorem supply (mirrors : Mirrors relabeling later pending progress copy)
    (supplies : progress.Supplies environment name after)
    (grown : progress.world.store.Extends after.world.store) : Mirrors relabeling later pending after copy := by
  have sameLocals : after.locals = progress.locals := by
    cases supplies <;> rfl
  refine { mirrors with unknown := ?_, known := ?_ } <;> rw [sameLocals]
  · exact mirrors.unknown
  · intro name binding declared
    obtain ⟨copied, twin⟩ := mirrors.known declared
    exact ⟨copied, twin.grow grown (.refl _)⟩

theorem cell_allocate {content : Value}
    (mirrors : Mirrors relabeling later ((progress.world.store.allocate content).1 :: rest) progress copy) :
    relabeling.cell (progress.world.store.allocate content).1 = (copy.world.store.allocate content).1 :=
  mirrors.fits.1.trans (Store.allocate_cell _ _ content).symm

theorem declare {content : Value}
    (mirrors : Mirrors relabeling later ((progress.world.store.allocate content).1 :: rest) progress copy)
    (name : String) : Mirrors relabeling later rest (progress.declare name content) (copy.declare name content) := by
  have cell := mirrors.cell_allocate
  have grown := progress.world.store.grows_allocate content
  have copyGrown := copy.world.store.grows_allocate content
  refine ⟨mirrors.limit, ⟨mirrors.clear.reports, mirrors.clear.reported⟩, mirrors.tables,
    mirrors.grown.trans copyGrown, ?_, fun {other} undeclared => ?_, fun {other binding} declared => ?_⟩
  · have behind := mirrors.fits.2
    rwa [← Store.frontier_allocate] at behind
  · by_cases same : other = name
    · subst same
      rw [Progress.declare, NameMap.lookup_insert_same] at undeclared
      cases undeclared
    · rw [Progress.declare, NameMap.lookup_insert_other same] at undeclared ⊢
      exact mirrors.unknown undeclared
  · by_cases same : other = name
    · subst same
      rw [Progress.declare, NameMap.lookup_insert_same] at declared
      cases declared
      rw [Progress.declare, NameMap.lookup_insert_same, Relabeling.binding_relabel, cell]
      exact ⟨rfl, isTwin_allocate cell⟩
    · rw [Progress.declare, NameMap.lookup_insert_other same] at declared
      obtain ⟨copied, twin⟩ := mirrors.known declared
      rw [Progress.declare, NameMap.lookup_insert_other same]
      exact ⟨copied, twin.grow grown.extends copyGrown.extends⟩

end Mirrors

/-! ## Computations -/

namespace Compile

variable (environment : Environment) (later : World) {α β γ δ : Type}

/-- Whether a computation of the copy comes to a result wherever it starts from a mirrored state. -/
def Repeats (usage : Usage) (cells : List Cell) (before after : Progress) (second : Relabeling → Compile β)
    (result : Relabeling → β) : Prop :=
  ∀ ⦃start : Store⦄ ⦃relabeling : Relabeling⦄ ⦃rest : List Cell⦄ ⦃copy : Progress⦄, environment.IsConfined start →
    before.world.IsSound environment.table → after.world.IsCovered environment.table relabeling later →
    (∀ name ∈ usage.declared, (later.table environment.table).lookup name = none) →
    Mirrors relabeling later (cells ++ rest) before copy →
    ∃ copied, second relabeling copy = (.ok (result relabeling), copied) ∧ Mirrors relabeling later rest after copied

/-- Whether a computation, where it finds no problem, does this with names, and another one repeats it with the renamed
result. -/
def Copies (usage : Usage) (rename : Relabeling → α → β) (first : Compile α) (second : Relabeling → Compile β) :
    Prop :=
  ∀ ⦃before : Progress⦄ ⦃value : α⦄ ⦃after : Progress⦄, first before = (.ok value, after) → after.IsClear →
    before.IsClear ∧ ∃ cells, Progress.Runs environment before usage cells after ∧
      Repeats environment later usage cells before after second fun relabeling => rename relabeling value

variable {environment later}

namespace Copies

variable {rename : Relabeling → α → β} {renameNext : Relabeling → γ → δ} {usage others : Usage}

theorem bind {first : Compile α} {second : Relabeling → Compile β} {next : α → Compile γ}
    {otherNext : Relabeling → β → Compile δ} (copies : Copies environment later usage rename first second)
    (continued : ∀ value, Copies environment later others renameNext (next value) fun relabeling =>
      otherNext relabeling (rename relabeling value)) :
    Copies environment later (usage ++ others) renameNext (first >>= next) fun relabeling =>
      second relabeling >>= otherNext relabeling := by
  intro before result after done clear
  obtain ⟨value, middle, firstDone, nextDone⟩ := bind_eq_ok done
  obtain ⟨clearMiddle, cellsNext, runsNext, repeatsNext⟩ := continued value nextDone clear
  obtain ⟨clearBefore, cells, runs, repeats⟩ := copies firstDone clearMiddle
  refine ⟨clearBefore, cells ++ cellsNext, runs.append runsNext, ?_⟩
  intro start relabeling rest copy confined sound covered undeclared mirrors
  rw [Usage.declared_append, List.forall_mem_append] at undeclared
  rw [List.append_assoc] at mirrors
  have leads := runs.leads confined sound
  have behind := runsNext.leads confined leads.sound
  obtain ⟨copyMiddle, secondDone, mirrorsMiddle⟩ :=
    repeats confined sound (covered.earlier behind.keeps) undeclared.1 mirrors
  obtain ⟨copied, otherDone, mirrorsAfter⟩ := repeatsNext confined leads.sound covered undeclared.2 mirrorsMiddle
  exact ⟨copied, (bind_of_ok secondDone).trans otherDone, mirrorsAfter⟩

/-- Nothing is done behind the last use of a name. -/
theorem last {first : Compile α} {second : Relabeling → Compile β} {next : α → Compile γ}
    {otherNext : Relabeling → β → Compile δ} (copies : Copies environment later usage rename first second)
    (continued : ∀ value, Copies environment later .nothing renameNext (next value) fun relabeling =>
      otherNext relabeling (rename relabeling value)) :
    Copies environment later usage renameNext (first >>= next) fun relabeling =>
      second relabeling >>= otherNext relabeling := by
  have both := copies.bind continued
  rwa [Usage.append_nothing] at both

theorem pure {value : α} {other : Relabeling → β}
    (renamed : ∀ relabeling, relabeling.limit = id → rename relabeling value = other relabeling) :
    Copies environment later .nothing rename (Pure.pure value) fun relabeling => Pure.pure (other relabeling) := by
  intro before result after done clear
  cases done
  refine ⟨clear, [], .done _, ?_⟩
  intro start relabeling rest copy confined sound covered undeclared mirrors
  exact ⟨copy, congrArg (fun result => (Except.ok result, copy)) (renamed relabeling mirrors.limit).symm, mirrors⟩

/-- What leaves the state as it is does nothing with names. -/
theorem of_commutes {first : Compile α} {second : Relabeling → Compile β}
    (commutes : ∀ relabeling, Commutes (rename relabeling) first (second relabeling)) :
    Copies environment later .nothing rename first second := by
  intro before value after done clear
  obtain ⟨rfl, -⟩ := commutes .none before before after value done clear.reports
  refine ⟨clear, [], .done _, ?_⟩
  intro start relabeling rest copy confined sound covered undeclared mirrors
  exact ⟨copy, (commutes relabeling _ copy _ value done clear.reports).2, mirrors⟩

end Copies

/-! ## Names -/

theorem mayDeclare_of_unknown {word : Lexeme} {progress : Progress} (free : Name.isReserved word.text = false)
    (unknown : progress.binding? environment word.text = none) :
    mayDeclare environment word progress = (.ok true, progress) := by
  rw [mayDeclare, if_neg (Bool.eq_false_iff.mp free), bind_of_ok (known?_of_eq unknown)]
  rfl

theorem resolve_copies (word : Lexeme) :
    Copies environment later (.seek word.text .nothing) (fun relabeling => Option.map (Binding.relabel relabeling))
      (resolve environment word) fun _ => resolve environment.withoutResolver word := by
  intro before found after done clear
  obtain ⟨clearBefore, binding, rfl, known, steps⟩ := resolve_eq_ok done clear
  rcases steps with rfl | ⟨unknown, supplies⟩
  · refine ⟨clearBefore, [], .known known (.done _), ?_⟩
    intro start relabeling rest copy confined sound covered undeclared mirrors
    have copied := (mirrors.binding? covered known).1
    exact ⟨copy, resolve_of_known copied, mirrors⟩
  · refine ⟨clearBefore, [], .supplied unknown supplies (.done _), ?_⟩
    intro start relabeling rest copy confined sound covered undeclared mirrors
    have mirrorsAfter := mirrors.supply supplies (supplies.leads confined sound unknown).grown
    have copied := (mirrorsAfter.binding? covered known).1
    exact ⟨copy, resolve_of_known copied, mirrorsAfter⟩

theorem reference_relabel (settings : Settings) (word : Lexeme) (rest : List Lexeme) {relabeling : Relabeling}
    {binding : Binding} {before copy after : Progress} {node : AnyNode}
    (agrees : binding.Agrees relabeling before.world.store copy.world.store)
    (done : reference settings word rest (some binding) before = (.ok node, after)) :
    after = before ∧ reference settings word rest (some (binding.relabel relabeling)) copy =
      (.ok (node.relabel relabeling), copy) := by
  match binding with
  | .scalar cell constant =>
    cases done
    refine ⟨rfl, congrArg (fun node => (Except.ok (AnyNode.scalar node), copy)) ?_⟩
    split
    · next folded =>
      rw [agrees (Bool.and_eq_true_iff.mp folded).1]
      rfl
    · rfl
  | .string cell constant =>
    cases done
    refine ⟨rfl, congrArg (fun node => (Except.ok (AnyNode.string node), copy)) ?_⟩
    split
    · next folded =>
      rw [agrees (Bool.and_eq_true_iff.mp folded).1]
      rfl
    · rfl
  | .vector cell =>
    cases done
    exact ⟨rfl, rfl⟩
  | .function _ => cases done

theorem name_copies (word : Lexeme) (rest : List Lexeme) :
    Copies environment later (.seek word.text .nothing) AnyNode.relabel
      (resolve environment word >>= reference environment.settings word rest)
      (fun _ => resolve environment.withoutResolver word >>= reference environment.settings word rest) := by
  intro before node after done clear
  obtain ⟨found, middle, resolved, done⟩ := bind_eq_ok done
  cases found with
  | none =>
    cases done
    obtain ⟨-, binding, same, -⟩ := resolve_eq_ok resolved clear
    cases same
  | some binding =>
    obtain ⟨rfl, -⟩ := reference_relabel environment.settings word rest (.refl _ binding) done
    obtain ⟨-, _, same, known, -⟩ := resolve_eq_ok resolved clear
    cases same
    obtain ⟨clearBefore, cells, runs, repeats⟩ :=
      @resolve_copies environment later word _ _ _ resolved clear
    refine ⟨clearBefore, cells, runs, ?_⟩
    intro start relabeling rest copy confined sound covered undeclared mirrors
    obtain ⟨copied, resolvedCopy, mirrorsAfter⟩ := repeats confined sound covered undeclared mirrors
    obtain ⟨-, referred⟩ :=
      reference_relabel environment.settings word _ (mirrorsAfter.binding? covered known).2 done
    exact ⟨copied, (bind_of_ok resolvedCopy).trans referred, mirrorsAfter⟩

/-! ## Declarations -/

/-- Whether the end of a declaration that finds no problem allocates a cell for the name, and the other one does so
with the relabeled cell. -/
structure Finishes (name : String) (first : Bool → Compile AnyNode) (second : Relabeling → Compile AnyNode) :
    Prop where
  clear ⦃allowed : Bool⦄ ⦃before : Progress⦄ ⦃node : AnyNode⦄ ⦃after : Progress⦄
    (done : first allowed before = (.ok node, after)) (clear : after.IsClear) : before.IsClear
  declares ⦃before : Progress⦄ ⦃node : AnyNode⦄ ⦃after : Progress⦄ (done : first true before = (.ok node, after))
    (clear : after.IsClear) :
    ∃ content, after = before.declare name content ∧ ∀ ⦃relabeling : Relabeling⦄ ⦃copy : Progress⦄,
      relabeling.cell (before.world.store.allocate content).1 = (copy.world.store.allocate content).1 →
      second relabeling copy = (.ok (node.relabel relabeling), copy.declare name content)

theorem Finishes.of_reported {name : String} {first : Bool → Compile AnyNode} {second : Relabeling → Compile AnyNode}
    (reported : ∀ ⦃allowed : Bool⦄ ⦃before : Progress⦄ ⦃node : AnyNode⦄ ⦃after : Progress⦄,
      first allowed before = (.ok node, after) → after.reports ≠ []) : Finishes name first second :=
  ⟨fun _ _ _ _ done clear => absurd clear.reports (reported done),
    fun _ _ _ done clear => absurd clear.reports (reported done)⟩

theorem declaration_finishes (word : Lexeme) (start : Place) (value : AnyNode) :
    Finishes word.text (fun allowed => declaration allowed word start value) fun relabeling =>
      declaration true word start (value.relabel relabeling) := by
  rcases value with ⟨_ | _ | _, value⟩
  · refine ⟨fun allowed before node after done clear => ?_, fun before node after done clear => ?_⟩
    · cases allowed <;> cases done <;> exact ⟨clear.reports, clear.reported⟩
    · cases done
      refine ⟨.number 0.0, rfl, fun relabeling copy cell => ?_⟩
      exact congrArg (fun target => (Except.ok (AnyNode.scalar (.assign target none (value.relabel relabeling))),
        copy.declare word.text (.number 0.0))) (Cell.number.inj cell).symm
  · refine ⟨fun allowed before node after done clear => ?_, fun before node after done clear => ?_⟩
    · cases allowed <;> cases done <;> exact ⟨clear.reports, clear.reported⟩
    · cases done
      refine ⟨.text [], rfl, fun relabeling copy cell => ?_⟩
      exact congrArg (fun target => (Except.ok (AnyNode.string (.stringAssign target false (value.relabel relabeling))),
        copy.declare word.text (.text []))) (Cell.string.inj cell).symm
  · refine .of_reported fun allowed before node after done => ?_
    cases done
    exact List.cons_ne_nil _ _

theorem listedVector_finishes (word : Lexeme) (size : Nat) (bracket : Lexeme) (elements : List (Node .scalar)) :
    Finishes word.text (fun allowed => listedVector allowed word size bracket elements) fun relabeling =>
      listedVector true word size bracket (relabelAll relabeling elements) := by
  unfold listedVector
  by_cases tooMany : size < elements.length
  · refine .of_reported fun allowed before node after done => ?_
    rw [if_pos tooMany] at done
    cases allowed <;> cases done <;> exact List.cons_ne_nil _ _
  · refine ⟨fun allowed before node after done clear => ?_, fun before node after done clear => ?_⟩
    · rw [if_neg tooMany] at done
      cases allowed <;> cases done <;> exact ⟨clear.reports, clear.reported⟩
    · rw [if_neg tooMany] at done
      cases done
      refine ⟨.vector (List.replicate size 0.0), rfl, fun relabeling copy cell => ?_⟩
      have fits : ¬size < (relabelAll relabeling elements).length := by
        rwa [relabelAll_eq_map, List.length_map]
      rw [if_neg fits]
      exact congrArg (fun target => (Except.ok (AnyNode.vector (.reset target (relabelAll relabeling elements) false)),
        copy.declare word.text (.vector (List.replicate size 0.0)))) (Cell.vector.inj cell).symm

theorem filledVector_finishes (word : Lexeme) (size : Nat) (start : Place) (value : AnyNode) :
    Finishes word.text (fun allowed => filledVector allowed word size start value) fun relabeling =>
      filledVector true word size start (value.relabel relabeling) := by
  rcases value with ⟨_ | _ | _, value⟩
  · refine ⟨fun allowed before node after done clear => ?_, fun before node after done clear => ?_⟩
    · cases allowed <;> cases done <;> exact ⟨clear.reports, clear.reported⟩
    · cases done
      refine ⟨.vector (List.replicate size 0.0), rfl, fun relabeling copy cell => ?_⟩
      exact congrArg (fun target => (Except.ok (AnyNode.vector (.reset target [value.relabel relabeling] true)),
        copy.declare word.text (.vector (List.replicate size 0.0)))) (Cell.vector.inj cell).symm
  · refine .of_reported fun allowed before node after done => ?_
    cases allowed <;> cases done <;> exact List.cons_ne_nil _ _
  · refine ⟨fun allowed before node after done clear => ?_, fun before node after done clear => ?_⟩
    · cases allowed <;> cases done <;> exact ⟨clear.reports, clear.reported⟩
    · cases done
      refine ⟨.vector (List.replicate size 0.0), rfl, fun relabeling copy cell => ?_⟩
      exact congrArg (fun target => (Except.ok (AnyNode.vector (.sequence [AnyNode.vector (.reset target [] false)]
        (.vectorAssign target none (.vector (value.relabel relabeling))))),
        copy.declare word.text (.vector (List.replicate size 0.0)))) (Cell.vector.inj cell).symm

namespace Copies

variable {usage : Usage}

/-- The name is known behind what is done for its initializer. -/
theorem declare {word : Lexeme} {rename : Relabeling → α → α} {initializer : Compile α}
    {second : Relabeling → Compile α} {finish : Bool → α → Compile AnyNode}
    (copies : Copies environment later usage rename initializer second)
    (finishes : ∀ value, Finishes word.text (fun allowed => finish allowed value) fun relabeling =>
      finish true (rename relabeling value)) :
    Copies environment later (.declare word.text usage .nothing) AnyNode.relabel
      (do
        let allowed ← mayDeclare environment word
        let value ← initializer
        finish allowed value)
      (fun relabeling => do
        let allowed ← mayDeclare environment.withoutResolver word
        let value ← second relabeling
        finish allowed value) := by
  intro before node last done clear
  obtain ⟨allowed, start, asked, done⟩ := bind_eq_ok done
  obtain ⟨value, middle, initialized, finished⟩ := bind_eq_ok done
  obtain ⟨clearStart, cells, runs, repeats⟩ := copies initialized ((finishes value).clear finished clear)
  obtain ⟨rfl, rfl, unknown, free⟩ := mayDeclare_eq_ok asked clearStart
  obtain ⟨content, rfl, repeated⟩ := (finishes value).declares finished clear
  refine ⟨clearStart, _, .declared unknown runs content (.done _), ?_⟩
  intro origin relabeling rest copy confined sound covered undeclared mirrors
  rw [List.append_assoc] at mirrors
  have leads := runs.leads confined sound
  have unbound := undeclared word.text (List.mem_cons_self ..)
  have asks := mayDeclare_of_unknown free (mirrors.binding?_eq_none unknown unbound)
  have inner (name : String) (inside : name ∈ usage.declared) :=
    undeclared name (List.mem_cons_of_mem _ (List.mem_append_left _ inside))
  have coveredMiddle := covered.earlier (Progress.leads_declare origin leads.sound word.text content).keeps
  obtain ⟨copyMiddle, copied, mirrorsMiddle⟩ := repeats confined sound coveredMiddle inner mirrors
  refine ⟨copyMiddle.declare word.text content, ?_, mirrorsMiddle.declare word.text⟩
  exact (bind_of_ok asks).trans ((bind_of_ok copied).trans (repeated mirrorsMiddle.cell_allocate))

end Copies

/-! ## Calls and sizes -/

theorem call_of_builtin {word : Lexeme} {arguments : List (Place × AnyNode)} {function : Builtin} (rest : List Lexeme)
    (found : Builtin.find? word.text = some function) (accepted : function.arity.accepts arguments.length = true) :
    Compile.call environment word arguments rest = builtinCall environment.settings word function arguments := by
  unfold Compile.call
  dsimp only
  rw [found]
  exact if_pos accepted

theorem call_of_known {word : Lexeme} {arguments : List (Place × AnyNode)} {progress : Progress}
    {function : FunctionHandle} (rest : List Lexeme) (other : Builtin.find? word.text = none)
    (known : progress.binding? environment word.text = some (.function function))
    (counted : arguments.length = function.arity) :
    Compile.call environment word arguments rest progress = userCall function arguments progress := by
  unfold Compile.call
  dsimp only
  rw [other]
  dsimp only
  rw [bind_of_ok (known?_of_eq known)]
  dsimp only
  rw [if_pos counted]

theorem call_eq_ok {word : Lexeme} {arguments : List (Place × AnyNode)} {rest : List Lexeme} {before after : Progress}
    {node : AnyNode} (other : Builtin.find? word.text = none)
    (done : Compile.call environment word arguments rest before = (.ok node, after)) (clear : after.IsClear) :
    ∃ function, before.binding? environment word.text = some (.function function) ∧
      arguments.length = function.arity ∧ userCall function arguments before = (.ok node, after) := by
  unfold Compile.call at done
  dsimp only at done
  rw [other] at done
  obtain ⟨known, middle, looked, done⟩ := bind_eq_ok done
  obtain ⟨rfl, rfl⟩ := known?_eq_ok looked
  cases binding : before.binding? environment word.text with
  | none =>
    rw [binding] at done
    dsimp only at done
    rw [view_bind] at done
    split at done
    · next contained =>
      cases done
      rw [clear.reported] at contained
      cases contained
    · cases done
      cases clear.reports
  | some target =>
    rw [binding] at done
    match target with
    | .function function =>
      dsimp only at done
      split at done
      · next counted => exact ⟨function, rfl, counted, done⟩
      · cases done
    | .scalar _ _ | .string _ _ | .vector _ =>
      cases done
      cases clear.reports

theorem call_copies (word : Lexeme) (arguments : List (Place × AnyNode)) (rest : List Lexeme) :
    Copies environment later .nothing AnyNode.relabel (Compile.call environment word arguments rest)
      (fun relabeling =>
        Compile.call environment.withoutResolver word (relabelPlaced relabeling arguments) rest) := by
  have sameLength (relabeling : Relabeling) : (relabelPlaced relabeling arguments).length = arguments.length :=
    List.length_map _
  cases found : Builtin.find? word.text with
  | some function =>
    by_cases accepted : function.arity.accepts arguments.length = true
    · have copied (relabeling : Relabeling) : Compile.call environment.withoutResolver word
          (relabelPlaced relabeling arguments) rest =
          builtinCall environment.settings word function (relabelPlaced relabeling arguments) :=
        call_of_builtin rest found (by rwa [sameLength])
      rw [call_of_builtin rest found accepted, funext copied]
      exact .of_commutes fun relabeling => builtinCall_commutes relabeling _ word function arguments
    · intro before node after done
      unfold Compile.call at done
      dsimp only at done
      rw [found] at done
      dsimp only at done
      rw [if_neg accepted] at done
      cases done
  | none =>
    intro before node after done clear
    obtain ⟨function, known, counted, done⟩ := call_eq_ok found done clear
    have commutes (relabeling : Relabeling) := userCall_commutes relabeling function arguments before
    obtain ⟨rfl, -⟩ := commutes .none before after node done clear.reports
    refine ⟨clear, [], .done _, ?_⟩
    intro start relabeling rest copy confined sound covered undeclared mirrors
    refine ⟨copy, ?_, mirrors⟩
    have knownCopy := (mirrors.binding? covered known).1
    refine (call_of_known _ found knownCopy ?_).trans (commutes relabeling copy _ node done clear.reports).2
    rwa [sameLength]

theorem size_copies {usage : Usage} (bracket : Lexeme) {base : Compile AnyNode} {second : Compile AnyNode}
    (copies : Copies environment later usage AnyNode.relabel base fun _ => second) (names : Names environment base) :
    Copies environment later usage AnyNode.relabel (base >>= size environment.settings bracket)
      (fun _ => second >>= size environment.settings bracket) := by
  intro before node after done clear
  obtain ⟨found, middle, made, done⟩ := bind_eq_ok done
  have sameLengths (cell : VectorCell) (_ : found = AnyNode.vector (.vectorVariable cell)) :
      (middle.world.store.vector (Relabeling.none.vector cell)).length = (middle.world.store.vector cell).length := rfl
  obtain ⟨rfl, -⟩ := size_relabel .none environment.settings bracket sameLengths done clear.reports
  obtain ⟨clearBefore, cells, runs, repeats⟩ := copies made clear
  refine ⟨clearBefore, cells, runs, ?_⟩
  intro start relabeling rest copy confined sound covered undeclared mirrors
  obtain ⟨copied, repeated, mirrorsAfter⟩ := repeats confined sound covered undeclared mirrors
  refine ⟨copied, (bind_of_ok repeated).trans ?_, mirrorsAfter⟩
  refine (size_relabel relabeling environment.settings bracket (fun cell isVariable => ?_) done clear.reports).2
  obtain ⟨name, known⟩ := names made clear cell isVariable
  exact (mirrorsAfter.binding? covered known).2

end Compile

end LiveExpr
