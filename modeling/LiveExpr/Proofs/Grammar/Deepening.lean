import LiveExpr.Proofs.Compile.Work
import LiveExpr.Proofs.Grammar.Contracts

/-!
Readers that may enter more levels. Either they read the same, or the reader with fewer levels stops in a tree that is
cut short: compiling it does what compiling the other tree does, until too many levels are entered.
-/

namespace LiveExpr

/-- Whether it is reported that too many levels are entered. -/
def Report.IsNesting (report : Report) : Prop :=
  ∃ limit, report.problem = .tooDeep limit

/-- Whether compiling a tree halts where the work does, or because too many levels are entered. -/
def Tree.CutShort (stopped : Tree) (work : Work) : Prop :=
  ∀ environment before, ∃ halt after, stopped.compile environment before = (.error halt, after) ∧
    (halt.report.IsNesting ∨ work environment before = (.error halt, after))

namespace Tree.CutShort

variable {stopped : Tree} {work other : Work}

theorem stop (limit : Nat) (place : Place) (rest : List Lexeme) (work : Work) :
    (Tree.stop ⟨.tooDeep limit, place⟩ rest).CutShort work :=
  fun _ before => ⟨_, before, rfl, .inl ⟨limit, rfl⟩⟩

theorem trans (short : stopped.CutShort work) (leads : work.LeadsTo other) : stopped.CutShort other := by
  intro environment before
  obtain ⟨halt, after, halted, deep | same⟩ := short environment before
  · exact ⟨halt, after, halted, .inl deep⟩
  · exact ⟨halt, after, halted, .inr (leads environment before after halt same)⟩

/-- What stands in front is compiled first, alike. -/
theorem within (short : stopped.CutShort work) {done : Work} {context : Tree → Tree} (opens : done.Opens context) :
    (context stopped).CutShort (done.andThen work) := by
  intro environment before
  have leads := opens stopped environment before
  cases front : done environment before with
  | mk outcome middle =>
    cases outcome with
    | error halt =>
      have halted := Tree.halted_of_work (leads middle halt (Compile.bind_of_error front))
      exact ⟨halt, middle, halted, .inr (Compile.bind_of_error front)⟩
    | ok value =>
      obtain ⟨halt, after, halted, reason⟩ := short environment middle
      have behind : done.andThen stopped.work environment before = (.error halt, after) :=
        (Compile.bind_of_ok front).trans (Tree.work_of_halted halted)
      refine ⟨halt, after, Tree.halted_of_work (leads after halt behind), reason.imp_right fun same => ?_⟩
      exact (Compile.bind_of_ok front).trans same

/-- Where too many levels are entered, what stands in front has been compiled. -/
theorem tooDeep {done : Work} {context : Tree → Tree} (opens : done.Opens context) (limit : Nat) (place : Place)
    (rest : List Lexeme) : (context (.stop ⟨.tooDeep limit, place⟩ rest)).CutShort done := by
  have short := (stop limit place rest .none).within opens
  rwa [Work.andThen_none] at short

end Tree.CutShort

namespace Reader

variable {α β : Type}

/-- The work of compiling what a reader has come to: that of its result, or that of the tree in which it stopped, put
into the context. -/
def outcomeWork (context : Tree → Tree) (after : α → Work) : Except Tree (α × List Lexeme) → Work
  | .ok (value, _) => after value
  | .error stopped => (context stopped).work

/-- What is promised of two outcomes of reading the lexemes, the second one with more levels to enter. The work `before`
is that of what had been read when reading began. -/
structure Extends (context : Tree → Tree) (before : Work) (after : α → Work) (lexemes : List Lexeme)
    (shallow deep : Except Tree (α × List Lexeme)) : Prop where
  /-- What had been read is compiled in front of what is read now. -/
  leads : before.LeadsTo (outcomeWork context after deep)
  shrinks (value : α) (rest : List Lexeme) (read : deep = .ok (value, rest)) : rest.length ≤ lexemes.length
  /-- Either nothing differs, or the first outcome is cut short. -/
  agrees : shallow = deep ∨
    ∃ stopped, shallow = .error stopped ∧ (context stopped).CutShort (outcomeWork context after deep)

/-- Whether the second reader extends the first one on all lists of fewer lexemes than `size`. Repetitions need this
bound, since one that had exhausted its own would stop and drop what it had read. -/
def Deepens (size : Nat) (context : Tree → Tree) (before : Work) (after : α → Work) (shallow deep : Reader α) : Prop :=
  ∀ lexemes, lexemes.length < size → Extends context before after lexemes (shallow lexemes) (deep lexemes)

/-- Whether the second of two readers of trees extends the first one, where nothing stands in front. -/
abbrev DeepensTree (size : Nat) (shallow deep : Reader Tree) : Prop :=
  Deepens size (fun tree => tree) .none Tree.work shallow deep

/-- What is promised of lexemes behind another one is promised with it too. -/
theorem Extends.behind {context : Tree → Tree} {before : Work} {after : α → Work} {lexemes : List Lexeme}
    {shallow deep : Except Tree (α × List Lexeme)} (outcome : Extends context before after lexemes shallow deep)
    (first : Lexeme) : Extends context before after (first :: lexemes) shallow deep :=
  ⟨outcome.leads, fun value rest read => Nat.le_succ_of_le (outcome.shrinks value rest read), outcome.agrees⟩

theorem takes_ne_error (terminal : Terminal) (lexemes : List Lexeme) (stopped : Tree) :
    takes terminal lexemes ≠ .error stopped := by
  unfold takes
  split
  · nofun
  · split <;> nofun

theorem Extends.ofCutShort {context : Tree → Tree} {before : Work} {after : α → Work} {lexemes : List Lexeme}
    {shallow deep : Except Tree (α × List Lexeme)} (outcome : Extends context before after lexemes shallow deep)
    {stopped : Tree} (short : (context stopped).CutShort before) :
    Extends context before after lexemes (.error stopped) deep :=
  ⟨outcome.leads, outcome.shrinks, .inr ⟨stopped, rfl, short.trans outcome.leads⟩⟩

namespace Deepens

variable {size : Nat} {context : Tree → Tree} {before first : Work} {between : α → Work} {after : β → Work}

/-- Less may have been done when reading began. -/
theorem since {shallow deep : Reader β} (leads : first.LeadsTo before)
    (deepens : Deepens size context before after shallow deep) : Deepens size context first after shallow deep := by
  intro lexemes short
  obtain ⟨later, shrinks, agrees⟩ := deepens lexemes short
  exact ⟨leads.trans later, shrinks, agrees⟩

theorem mono {shallow deep : Reader β} {fewer : Nat} (deepens : Deepens size context before after shallow deep)
    (few : fewer ≤ size) : Deepens fewer context before after shallow deep :=
  fun lexemes short => deepens lexemes (Nat.lt_of_lt_of_le short few)

theorem pure {value : β} (leads : before.LeadsTo (after value)) :
    Deepens size context before after (Pure.pure value) (Pure.pure value) := by
  intro lexemes short
  refine ⟨leads, ?_, .inl rfl⟩
  rintro _ _ ⟨⟩
  exact Nat.le_refl _

theorem bind {one other : Reader α} {next otherNext : α → Reader β}
    (deepens : Deepens size context before between one other)
    (continued : ∀ value, Deepens size context (between value) after (next value) (otherNext value)) :
    Deepens size context before after (one >>= next) (other >>= otherNext) := by
  intro lexemes short
  obtain ⟨leads, shrinks, agrees⟩ := deepens lexemes short
  cases read : other lexemes with
  | error stopped =>
    rw [read] at leads agrees
    rw [bind_eq_error.mpr (.inl read)]
    refine ⟨leads, nofun, ?_⟩
    obtain same | ⟨tree, stops, cut⟩ := agrees
    · exact .inl (bind_eq_error.mpr (.inl same))
    · exact .inr ⟨tree, bind_eq_error.mpr (.inl stops), cut⟩
  | ok pair =>
    obtain ⟨value, rest⟩ := pair
    rw [read] at leads agrees
    have few := shrinks value rest read
    have later := continued value rest (Nat.lt_of_le_of_lt few short)
    rw [bind_of_ok read]
    refine ⟨leads.trans later.leads, fun result behind done => ?_, ?_⟩
    · exact Nat.le_trans (later.shrinks result behind done) few
    obtain same | ⟨tree, stops, cut⟩ := agrees
    · rw [bind_of_ok same]
      exact later.agrees
    · exact .inr ⟨tree, bind_eq_error.mpr (.inl stops), cut.trans later.leads⟩

theorem within {inner : Tree → Tree} {shallow deep : Reader β}
    (deepens : Deepens size (fun tree => context (inner tree)) before after shallow deep) :
    Deepens size context before after (shallow.within inner) (deep.within inner) := by
  intro lexemes short
  obtain ⟨leads, shrinks, agrees⟩ := deepens lexemes short
  cases read : deep lexemes with
  | ok pair =>
    rw [read] at leads shrinks agrees
    rw [within_of_ok read]
    refine ⟨leads, shrinks, ?_⟩
    obtain same | ⟨tree, stops, cut⟩ := agrees
    · exact .inl (within_of_ok same inner)
    · exact .inr ⟨inner tree, within_of_error stops inner, cut⟩
  | error stopped =>
    rw [read] at leads agrees
    rw [within_of_error read]
    refine ⟨leads, nofun, ?_⟩
    obtain same | ⟨tree, stops, cut⟩ := agrees
    · exact .inl (within_of_error same inner)
    · exact .inr ⟨inner tree, within_of_error stops inner, cut⟩

theorem nested {shallow deep : Reader Tree} {done : Work} (deepens : DeepensTree size shallow deep)
    (opens : done.Opens context) :
    Deepens size context done (fun tree => done.andThen tree.work) shallow deep := by
  intro lexemes short
  obtain ⟨-, shrinks, agrees⟩ := deepens lexemes short
  have leads : (done.andThen (outcomeWork (fun tree => tree) Tree.work (deep lexemes))).LeadsTo
      (outcomeWork context (fun tree => done.andThen tree.work) (deep lexemes)) := by
    cases deep lexemes with
    | ok pair => exact .refl _
    | error stopped => exact opens stopped
  refine ⟨(Work.LeadsTo.behind done _).trans leads, shrinks, agrees.imp_right ?_⟩
  rintro ⟨stopped, read, cut⟩
  exact ⟨stopped, read, (cut.within opens).trans leads⟩

/-! ### Single lexemes -/

/-- A reader that enters no level and takes what it takes from the front. -/
theorem same {reader : Reader β} {relation : List Lexeme → β → Prop} (reads : reader.Reads relation)
    (leads : ∀ lexemes stopped, reader lexemes = .error stopped → before.LeadsTo (context stopped).work) :
    Deepens size context before (fun _ => before) reader reader := by
  intro lexemes short
  refine ⟨?_, ?_, .inl rfl⟩
  · cases read : reader lexemes with
    | ok pair => exact .refl _
    | error stopped => exact leads lexemes stopped read
  · intro value rest read
    have taken := reads lexemes
    rw [read] at taken
    obtain ⟨front, split, -⟩ := taken
    rw [split, List.length_append]
    exact Nat.le_add_left _ _

theorem place : Deepens size context before (fun _ => before) Reader.place Reader.place :=
  same .place nofun

theorem remaining : Deepens size context before (fun _ => before) Reader.remaining Reader.remaining :=
  same .remaining nofun

theorem sees (terminal : Terminal) :
    Deepens size context before (fun _ => before) (Reader.sees terminal) (Reader.sees terminal) :=
  same (.sees terminal) nofun

theorem accept (use? : Lexeme → Option α) :
    Deepens size context before (fun _ => before) (Reader.accept use?) (Reader.accept use?) := by
  apply same (.accept use?)
  intro lexemes stopped read
  unfold Reader.accept at read
  split at read
  · cases read
  · split at read <;> cases read

theorem takes (terminal : Terminal) :
    Deepens size context before (fun _ => before) (Reader.takes terminal) (Reader.takes terminal) :=
  same (.takes terminal) fun lexemes stopped read => absurd read (takes_ne_error terminal lexemes stopped)

theorem stop (leads : ∀ tree, before.LeadsTo (context tree).work) (problem : Problem) :
    Deepens size context before after (Reader.stop problem) (Reader.stop problem) :=
  fun _ _ => ⟨leads _, nofun, .inl rfl⟩

theorem require (opens : before.Opens context) (terminal : Terminal) (wanted : Expectation) :
    Deepens size context before (fun _ => before) (Reader.require terminal wanted) (Reader.require terminal wanted) :=
  same (.require terminal wanted) fun _ stopped _ => opens.leadsTo stopped

/-- Behind a terminal that is taken, there are fewer lexemes. -/
theorem taking {terminal : Terminal} {present otherPresent absent otherAbsent : Reader β}
    (taken : Deepens size context before after present otherPresent)
    (passed : Deepens (size + 1) context before after absent otherAbsent) :
    Deepens (size + 1) context before after
      (Reader.takes terminal >>= fun found => if found then present else absent)
      (Reader.takes terminal >>= fun found => if found then otherPresent else otherAbsent) := by
  intro lexemes short
  cases starts : startsWith terminal lexemes with
  | false =>
    rw [bind_of_ok (takes_of_not starts), bind_of_ok (takes_of_not starts)]
    exact passed lexemes short
  | true =>
    cases lexemes with
    | nil => cases starts
    | cons head rest =>
      rw [bind_of_ok (takes_of_is starts rest), bind_of_ok (takes_of_is starts rest)]
      exact (taken rest (Nat.lt_of_succ_lt_succ short)).behind head

end Deepens

end Reader

end LiveExpr
