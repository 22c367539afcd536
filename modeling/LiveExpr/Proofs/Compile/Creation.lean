import LiveExpr.Expression
import LiveExpr.Proofs.Compile.Declarations

/-!
Names that come into being. Where every name is accepted, a formula that compiles has a new scalar created for each name
that it looks up before it knows it, and nothing else happens to the table.
-/

namespace LiveExpr

namespace Usage

/-- The names that are looked up, in order, each with those whose declarations are complete by then. -/
def lookups (declared : List String) : Usage → List (String × List String)
  | nothing => []
  | seek name rest => (name, declared) :: rest.lookups declared
  | declare name initializer rest =>
    initializer.lookups declared ++ rest.lookups (name :: (initializer.declared ++ declared))

/-- The names that are looked up while they are neither declared nor bound in the table, in order. -/
def unknown (table : SymbolTable) (declared : List String) (usage : Usage) : List String :=
  ((usage.lookups declared).filter fun one => (table.lookup one.1).isNone && !one.2.contains one.1).map Prod.fst

theorem map_lookups (declared : List String) (usage : Usage) :
    (usage.lookups declared).map Prod.fst = usage.sought := by
  induction usage generalizing declared with
  | nothing => rfl
  | seek name rest induction => exact congrArg _ (induction declared)
  | declare name initializer rest inside behind => rw [lookups, List.map_append, inside, behind, sought]

section Unknown

variable (table : SymbolTable) (declared : List String)

theorem unknown_seek (name : String) (rest : Usage) :
    (seek name rest).unknown table declared =
      if (table.lookup name).isNone && !declared.contains name then name :: rest.unknown table declared
      else rest.unknown table declared := by
  unfold unknown
  rw [lookups, List.filter_cons]
  split <;> rfl

theorem unknown_declare (name : String) (initializer rest : Usage) :
    (declare name initializer rest).unknown table declared = initializer.unknown table declared ++
      rest.unknown table (name :: (initializer.declared ++ declared)) := by
  unfold unknown
  rw [lookups, List.filter_append, List.map_append]

theorem unknown_of_lookup {table later : SymbolTable} {names : List String}
    (bound : ∀ name, (later.lookup name).isNone = (!names.contains name && (table.lookup name).isNone))
    (usage : Usage) : usage.unknown later declared = (usage.unknown table declared).removeAll names := by
  unfold unknown List.removeAll
  rw [List.filter_map, List.filter_filter]
  congr 2
  funext one
  rw [bound, Bool.and_assoc]
  rfl

end Unknown

end Usage

/-! ## The table -/

namespace World

variable {table : TableHandle} {names more : List String} {before middle after : World}

/-- Whether a name has come to stand for a new scalar, which is no constant and holds zero. -/
structure IsCreated (table : TableHandle) (before after : World) (name : String) (cell : NumberCell) : Prop where
  unbound : (before.table table).lookup name = none
  bound : (after.table table).lookup name = some (.scalar cell false)
  new : before.store.numbers.size ≤ cell.index
  inUse : cell.index < after.store.numbers.size
  zero : after.store.number cell = 0.0

/-- Whether nothing has happened but that each of the names has come to stand for a new scalar of its own in a table,
and that cells have been allocated. -/
structure Creates (table : TableHandle) (names : List String) (before after : World) : Prop where
  store : before.store.Grows after.store
  others (handle : TableHandle) (other : handle ≠ table) : after.table handle = before.table handle
  kept {kind : SymbolKind} {name : String} (other : name ∉ names ∨ kind ≠ .scalar) :
    ((after.table table).ofKind kind).lookup name = ((before.table table).ofKind kind).lookup name
  distinct : names.Nodup
  created {name : String} (among : name ∈ names) : ∃ cell, IsCreated table before after name cell
  own {one other : String} (among : one ∈ names) (amongToo : other ∈ names)
    (same : (after.table table).lookup one = (after.table table).lookup other) : one = other

namespace Creates

theorem allocated {store : Store} (grown : before.store.Grows store) :
    before.Creates table [] { before with store := store } where
  store := grown
  others _ _ := rfl
  kept _ := rfl
  distinct := .nil
  created := nofun
  own := nofun

theorem single {name : String} (created : before.createScalar table name 0.0 false = .ok after) :
    before.Creates table [name] after := by
  have free := lookup_of_createScalar created
  have changed : after.table table =
      (before.table table).insert name (.scalar (before.store.newNumber 0.0).1 false) := (createScalar_eq_ok created).2
  have store := (createScalar_eq_ok created).1
  have bound : (after.table table).lookup name = some (.scalar (before.store.newNumber 0.0).1 false) := by
    rw [changed, SymbolTable.lookup_insert_same free]
  refine ⟨?_, fun handle other => ?_, fun {kind found} other => ?_, List.nodup_singleton name,
    fun {found} among => ⟨(before.store.newNumber 0.0).1, ?_⟩, fun {one other} among amongToo _ => ?_⟩
  · rw [store]
    exact .newNumber _ _
  · rw [add_eq_ok created]
    exact table_setTable_other _ other _
  · rw [changed, SymbolTable.lookup_ofKind_insert_other (other.imp_left List.ne_of_not_mem_cons)]
  · obtain rfl := List.mem_singleton.mp among
    refine ⟨free, bound, Nat.le_refl _, ?_, ?_⟩
    · rw [store]
      exact Nat.lt_of_lt_of_eq (Nat.lt_succ_self _) (Cells.size_push _ _).symm
    · rw [store]
      exact Cells.get_push_same _ _
  · rw [List.mem_singleton.mp among, List.mem_singleton.mp amongToo]

theorem lookup_other (creates : before.Creates table names after) {name : String} (other : name ∉ names) :
    (after.table table).lookup name = (before.table table).lookup name := by
  simp only [SymbolTable.lookup, creates.kept (.inl other)]

/-- What was bound and what has been created is bound, and nothing else is. -/
theorem isNone_lookup (creates : before.Creates table names after) (name : String) :
    ((after.table table).lookup name).isNone = (!names.contains name && ((before.table table).lookup name).isNone) := by
  by_cases among : name ∈ names
  · obtain ⟨cell, isCreated⟩ := creates.created among
    simp [isCreated.bound, among]
  · simp [creates.lookup_other among, among]

section Trans

variable (first : before.Creates table names middle) (second : middle.Creates table more after)

include first second

theorem not_mem_later {name : String} (among : name ∈ names) : name ∉ more := by
  intro again
  obtain ⟨_, isCreated⟩ := first.created among
  obtain ⟨_, isCreatedAgain⟩ := second.created again
  exact absurd (isCreated.bound.symm.trans isCreatedAgain.unbound) nofun

theorem isCreated_trans {name : String} (among : name ∈ names ++ more) :
    ∃ cell, IsCreated table before after name cell := by
  rcases List.mem_append.mp among with among | among
  · obtain ⟨cell, isCreated⟩ := first.created among
    refine ⟨cell, isCreated.unbound, ?_, isCreated.new, ?_, ?_⟩
    · rw [second.lookup_other (first.not_mem_later second among), isCreated.bound]
    · exact Nat.lt_of_lt_of_le isCreated.inUse second.store.numbers.size
    · rw [second.store.number isCreated.inUse, isCreated.zero]
  · obtain ⟨cell, isCreated⟩ := second.created among
    have unbound : ((before.table table).lookup name).isNone = true := by
      have later := first.isNone_lookup name
      rw [isCreated.unbound, Option.isNone_none] at later
      exact (Bool.and_eq_true_iff.mp later.symm).2
    exact ⟨cell, Option.isNone_iff_eq_none.mp unbound, isCreated.bound,
      Nat.le_trans first.store.numbers.size isCreated.new, isCreated.inUse, isCreated.zero⟩

/-- A cell that is new later is not one that was in use before. -/
theorem lookup_ne_later {one other : String} (among : one ∈ names) (amongLater : other ∈ more) :
    (after.table table).lookup one ≠ (after.table table).lookup other := by
  obtain ⟨cell, isCreated⟩ := first.created among
  obtain ⟨later, isCreatedLater⟩ := second.created amongLater
  intro same
  rw [second.lookup_other (first.not_mem_later second among), isCreated.bound, isCreatedLater.bound] at same
  cases same
  exact Nat.not_lt_of_le isCreatedLater.new isCreated.inUse

theorem trans : before.Creates table (names ++ more) after where
  store := first.store.trans second.store
  others handle other := (second.others handle other).trans (first.others handle other)
  kept other := by
    refine (second.kept (other.imp_left fun neither => ?_)).trans (first.kept (other.imp_left fun neither => ?_))
    · exact fun created => neither (List.mem_append_right _ created)
    · exact fun created => neither (List.mem_append_left _ created)
  distinct := List.nodup_append.mpr ⟨first.distinct, second.distinct, fun name among _ again same =>
    first.not_mem_later second among (same ▸ again)⟩
  created := isCreated_trans first second
  own {one other} among amongToo same := by
    rcases List.mem_append.mp among with among | among <;> rcases List.mem_append.mp amongToo with amongToo | amongToo
    · rw [second.lookup_other (first.not_mem_later second among),
        second.lookup_other (first.not_mem_later second amongToo)] at same
      exact first.own among amongToo same
    · exact absurd same (first.lookup_ne_later second among amongToo)
    · exact absurd same.symm (first.lookup_ne_later second amongToo among)
    · exact second.own among amongToo same

end Trans

end Creates

end World

/-! ## Runs -/

theorem Usage.unknown_later {table : TableHandle} {created : List String} {before after : World}
    (creates : before.Creates table created.eraseDups after) (declared : List String) (usage : Usage) :
    usage.unknown (after.table table) declared = (usage.unknown (before.table table) declared).removeAll created := by
  refine unknown_of_lookup declared (fun name => ?_) usage
  have same : created.eraseDups.contains name = created.contains name := by
    rw [Bool.eq_iff_iff, List.contains_iff_mem, List.contains_iff_mem, List.mem_eraseDups]
  rw [creates.isNone_lookup, same]

namespace Progress

variable {environment : Environment} {before after : Progress} {usage : Usage} {cells : List Cell} {name : String}

/-- Where every name is accepted, a name that is not known comes to stand for a new scalar. -/
theorem Supplies.creates (accepting : environment.resolver = some Expression.acceptAll)
    (unknown : before.binding? environment name = none) (supplies : before.Supplies environment name after) :
    before.world.Creates environment.table [name] after.world := by
  cases supplies with
  | found installed bound =>
    obtain rfl := Option.some.inj (accepting.symm.trans installed)
    exact absurd (bound.symm.trans (lookup_of_unknown unknown).2) nofun
  | created installed created =>
    obtain rfl := Option.some.inj (accepting.symm.trans installed)
    exact .single created

theorem isSome_lookup_declare (content : Value) (other : String) :
    ((before.declare name content).locals.lookup other).isSome =
      (decide (other = name) || (before.locals.lookup other).isSome) := by
  by_cases same : other = name
  · subst same
    rw [declare, NameMap.lookup_insert_same]
    simp
  · rw [declare, NameMap.lookup_insert_other same]
    simp [same]

theorem isNone_binding? {declared : List String}
    (known : ∀ name, (before.locals.lookup name).isSome = declared.contains name) (name : String) :
    (((before.world.table environment.table).lookup name).isNone && !declared.contains name) =
      (before.binding? environment name).isNone := by
  rw [← known, binding?]
  cases before.locals.lookup name <;> simp

theorem Runs.creates (accepting : environment.resolver = some Expression.acceptAll)
    (runs : Runs environment before usage cells after) {declared : List String}
    (known : ∀ name, (before.locals.lookup name).isSome = declared.contains name) :
    let names := (usage.unknown (before.world.table environment.table) declared).eraseDups
    before.world.Creates environment.table names after.world ∧
      after.accepted = names.reverse ++ before.accepted ∧
      ∀ name, (after.locals.lookup name).isSome = (usage.declared ++ declared).contains name := by
  induction runs generalizing declared with
  | done progress => exact ⟨.allocated (.refl _), rfl, known⟩
  | @known before after name rest cells binding found others induction =>
    rw [Usage.unknown_seek, isNone_binding? known, found]
    exact induction known
  | @supplied before middle after name rest cells unknown supplies others induction =>
    have single := supplies.creates accepting unknown
    have knownLater : ∀ name, (middle.locals.lookup name).isSome = declared.contains name := by
      rwa [supplies.locals_eq]
    have later : rest.unknown (middle.world.table environment.table) declared =
        (rest.unknown (before.world.table environment.table) declared).removeAll [name] :=
      Usage.unknown_later single declared rest
    have names : (name :: rest.unknown (before.world.table environment.table) declared).eraseDups =
        [name] ++ (rest.unknown (middle.world.table environment.table) declared).eraseDups := by
      rw [later]
      exact @List.eraseDups_append _ _ _ [name] _
    rw [Usage.unknown_seek, isNone_binding? known, unknown, if_pos Option.isNone_none, names]
    obtain ⟨creates, accepted, declares⟩ := induction knownLater
    refine ⟨single.trans creates, ?_, declares⟩
    rw [accepted, supplies.accepted_eq, List.reverse_append, List.append_assoc]
    rfl
  | @declared before middle after name initializer rest inner cells unknown initialized content others first second =>
    obtain ⟨creates, accepted, declares⟩ := first known
    have knownLater : ∀ other, ((middle.declare name content).locals.lookup other).isSome =
        (name :: (initializer.declared ++ declared)).contains other := by
      intro other
      rw [isSome_lookup_declare, declares]
      simp
    have later := Usage.unknown_later creates (name :: (initializer.declared ++ declared)) rest
    rw [Usage.unknown_declare, List.eraseDups_append, ← later]
    obtain ⟨createsLater, acceptedLater, declaresLater⟩ := second knownLater
    have allocated : middle.world.Creates environment.table [] (middle.declare name content).world :=
      .allocated (middle.world.store.grows_allocate content)
    refine ⟨creates.trans (allocated.trans createsLater), ?_, fun other => ?_⟩
    · have sameAccepted : (middle.declare name content).accepted = middle.accepted := rfl
      rw [acceptedLater, sameAccepted, accepted, List.reverse_append, List.append_assoc]
      rfl
    · rw [declaresLater, Usage.declared, Bool.eq_iff_iff]
      simp only [List.contains_iff_mem, List.mem_append, List.mem_cons]
      tauto

end Progress

/-! ## Sources -/

namespace Expression

/-- The names that come with an expression, where every name is accepted. They are those that the source mentions, but
for declarations and calls, while they are neither bound in the table nor declared by a declaration that is complete, in
order and each of them once. Each of them stands for a new scalar of its own, and nothing else happens to the bindings
and cells that exist. -/
theorem ofSource_creates {source : String} {table : TableHandle} {world after : World} {expression : Expression}
    {names : List String}
    (compiled : ofSource source table (some acceptAll) world = (.ok (expression, names), after)) :
    ∃ lexemes trees, tokenize source = .ok lexemes ∧ Grammar.trees? Settings.standard.maxDepth lexemes = some trees ∧
      mentions lexemes = (usageOfStatements trees).mentions ∧
      (mentions lexemes).filterMap Mention.sought? = ((usageOfStatements trees).lookups []).map Prod.fst ∧
      names = ((usageOfStatements trees).unknown (world.table table) []).eraseDups ∧
      world.Creates table names after := by
  unfold ofSource compile at compiled
  obtain ⟨result, rfl⟩ := Prod.mk.inj compiled
  dsimp only at result ⊢
  split at result
  · next succeeded =>
    obtain ⟨root, found⟩ := Option.isSome_iff_exists.mp succeeded
    obtain ⟨success⟩ := Compilation.exists_success found
    obtain ⟨cells, runs, -⟩ := success.copies world
    obtain ⟨creates, accepted, -⟩ := @Progress.Runs.creates _ _ _ _ _ rfl runs [] fun _ => rfl
    have mentioned := Grammar.mentions_trees? success.read
    rw [success.eq] at result ⊢
    refine ⟨success.lexemes, success.trees, success.tokenized, success.read, mentioned, ?_, ?_⟩
    · rw [mentioned, Usage.filterMap_sought?_mentions, Usage.map_lookups]
    · obtain rfl : success.final.accepted.reverse = names := (Prod.mk.inj (Except.ok.inj result)).2
      rw [accepted, List.reverse_append, List.reverse_reverse]
      exact ⟨rfl, creates⟩
  · cases result

theorem tokenize_initializer :
    tokenize "a;var b:=b;b" = .ok [⟨.name "a", "a", ⟨1, 1⟩⟩, ⟨.fixed .semicolon, ";", ⟨1, 2⟩⟩,
      ⟨.fixed .varWord, "var", ⟨1, 3⟩⟩, ⟨.name "b", "b", ⟨1, 7⟩⟩, ⟨.fixed .assign, ":=", ⟨1, 8⟩⟩,
      ⟨.name "b", "b", ⟨1, 10⟩⟩, ⟨.fixed .semicolon, ";", ⟨1, 11⟩⟩, ⟨.name "b", "b", ⟨1, 12⟩⟩] := by
  with_unfolding_all rfl

/-- In the initializer of its declaration `b` is unknown, so it is created, and behind it `b` is declared. -/
theorem ofSource_creates_initializer :
    ∃ expression after, ofSource "a;var b:=b;b" ⟨0⟩ (some acceptAll) .empty = (.ok (expression, ["a", "b"]), after) ∧
      World.empty.Creates ⟨0⟩ ["a", "b"] after := by
  have compiled : ∃ expression after,
      ofSource "a;var b:=b;b" ⟨0⟩ (some acceptAll) .empty = (.ok (expression, ["a", "b"]), after) := by
    unfold ofSource compile Compilation.ofSource
    rw [tokenize_initializer]
    exact ⟨_, _, rfl⟩
  obtain ⟨expression, after, compiled⟩ := compiled
  obtain ⟨_, _, _, _, _, _, _, creates⟩ := ofSource_creates compiled
  exact ⟨expression, after, compiled, creates⟩

end Expression

end LiveExpr
