import LiveExpr.Proofs.Compile.Lasting
import LiveExpr.Proofs.Pass.Sharing

/-!
Parsers that follow readers. The one moves over what the other takes, and while it moves it computes what compiling the
tree of the other computes. Where the reader stops, and where compiling its tree halts, the parser fails with the cursor
at the same place.
-/

namespace LiveExpr

namespace Reader

variable {α β : Type}

instance : LawfulMonad Reader :=
  LawfulMonad.mk' Reader
    (fun reader => by
      funext lexemes
      change (reader >>= fun value => pure value) lexemes = reader lexemes
      rw [bind_apply]
      cases reader lexemes <;> rfl)
    (fun _ _ => rfl)
    (fun first second third => by
      funext lexemes
      rw [bind_apply, bind_apply, bind_apply]
      cases first lexemes <;> rfl)

theorem bind_within (context : Tree → Tree) (first : Reader α) (next : α → Reader β) :
    (first >>= next).within context = first.within context >>= fun value => (next value).within context := by
  funext lexemes
  rw [within, bind_apply, bind_apply, within]
  cases first lexemes <;> rfl

theorem pure_within (context : Tree → Tree) (value : α) : (pure value : Reader α).within context = pure value :=
  rfl

theorem place_within (context : Tree → Tree) : place.within context = place :=
  rfl

end Reader

end LiveExpr

namespace LiveExpr.Pass

open LiveExpr.Compile
open LiveExpr.Pass.Parser

variable {α β γ δ : Type} {task : Task} {level : Nat}

/-! ## Following -/

/-- Whether compiling what a context makes of a tree begins with the given computation and goes on with the tree. -/
def Opened (task : Task) (context : Tree → Tree) (before : Compile γ) : Prop :=
  ∀ tree : Tree, (before >>= fun _ => tree.compile task.environment).LeadsTo
    ((context tree).compile task.environment)

theorem Opened.alone : Opened task (fun tree => tree) (pure () : Compile Unit) :=
  fun _ => .refl _

theorem Opened.of_opens {done : Work} {context : Tree → Tree} (opens : done.Opens context) {before : Compile γ}
    (same : done task.environment = before >>= fun _ => pure ()) : Opened task context before := by
  intro tree start after halt halted
  refine Tree.halted_of_work (opens tree task.environment start after halt ?_)
  change (done task.environment >>= fun _ => tree.work task.environment) start = _
  rw [same, bind_assoc]
  have leads : (tree.compile task.environment).LeadsTo (tree.work task.environment) := .first _ _
  exact LeadsTo.bind before (fun _ => leads) start after halt halted

theorem Opened.formed {context : Tree → Tree} {before : Compile γ} (opened : Opened task context before)
    {earlier : Compile δ} {form : δ → γ} (same : before = earlier >>= fun found => pure (form found)) :
    Opened task context earlier := by
  intro tree
  have leads := opened tree
  rw [same, bind_assoc] at leads
  exact leads

/-- A whole tree may stand in front of the one that is compiled last. -/
theorem Opened.andThen {context : Tree → Tree} {before : Compile γ} (opened : Opened task context before)
    (done : Tree) :
    Opened task (fun tree => context (.andThen done tree)) (both before fun _ => done.compile task.environment) := by
  intro tree
  have leads := opened (.andThen done tree)
  simpa only [both, Tree.compile, bind_assoc, pure_bind] using leads

/-- How a parser ends in front of the lexemes that are left, if what it computes ends so. -/
def Task.ended (task : Task) (level : Nat) (rest : List Lexeme) : Except Halt β × Progress → Outcome β
  | (.ok value, progress) => .done value (task.at level rest progress)
  | (.error halt, progress) => .failed halt.report (task.at level halt.rest progress)

/-- What is promised of a parser if a reader comes to the given outcome in front of the lexemes. The computation
`before` is that of what had been read, and `whole` is all that is computed by the end. -/
def Performs.On (task : Task) (level : Nat) (context : Tree → Tree) (before : Compile γ) (whole : α → Compile β)
    (lexemes : List Lexeme) (parse : γ → Parser β) : Except Tree (α × List Lexeme) → Prop
  | .ok (value, rest) =>
    rest <:+ lexemes ∧ before.LeadsTo (whole value) ∧
      ∀ start found progress, before start = (.ok found, progress) →
        parse found task (task.at level lexemes progress) = task.ended level rest (whole value start)
  | .error stopped =>
    before.LeadsTo ((context stopped).compile task.environment) ∧
      ∀ start found progress, before start = (.ok found, progress) →
        ∃ halt after, (context stopped).compile task.environment start = (.error halt, after) ∧
          parse found task (task.at level lexemes progress) = .failed halt.report (task.at level halt.rest after)

/-- Whether a parser follows a reader in front of fewer lexemes than `size`. -/
def Performs (task : Task) (level size : Nat) (context : Tree → Tree) (before : Compile γ) (whole : α → Compile β)
    (read : Reader α) (parse : γ → Parser β) : Prop :=
  ∀ lexemes, lexemes <:+ task.lexemes → lexemes.length < size →
    Performs.On task level context before whole lexemes parse (read lexemes)

def Follows (task : Task) (level size : Nat) (read : Reader Tree) (parse : Parser AnyNode) : Prop :=
  Performs task level size (fun tree => tree) (pure ()) (fun tree => tree.compile task.environment) read fun _ => parse

namespace Performs

variable {size : Nat} {context : Tree → Tree} {before : Compile γ} {whole : α → Compile β}

/-! ## Sequences -/

theorem mono {fewer : Nat} {read : Reader α} {parse : γ → Parser β}
    (performs : Performs task level size context before whole read parse) (few : fewer ≤ size) :
    Performs task level fewer context before whole read parse :=
  fun lexemes ends short => performs lexemes ends (Nat.lt_of_lt_of_le short few)

/-- What is promised of the lexemes behind others is promised of all of them, where the parser has moved over those. -/
theorem On.behind {lexemes middle : List Lexeme} {parse later : γ → Parser β} {outcome : Except Tree (α × List Lexeme)}
    (on : On task level context before whole middle later outcome) (taken : middle <:+ lexemes)
    (moved : ∀ start found progress, before start = (.ok found, progress) →
      parse found task (task.at level lexemes progress) = later found task (task.at level middle progress)) :
    On task level context before whole lexemes parse outcome := by
  cases outcome with
  | ok pair =>
    obtain ⟨ends, leads, runs⟩ := on
    exact ⟨ends.trans taken, leads, fun start found progress done =>
      (moved start found progress done).trans (runs start found progress done)⟩
  | error stopped =>
    obtain ⟨leads, runs⟩ := on
    refine ⟨leads, fun start found progress done => ?_⟩
    obtain ⟨halt, after, halted, ran⟩ := runs start found progress done
    exact ⟨halt, after, halted, (moved start found progress done).trans ran⟩

theorem bind {source target : Type} {read : Reader source} {parse : γ → Parser target}
    {middle : source → γ → Compile target} {next : source → Reader α} {later : γ → target → Parser β}
    (head : Performs task level size context before (fun value => before >>= middle value) read parse)
    (tail : ∀ value, Performs task level size context (both before (middle value)) whole (next value)
      fun found => later found.1 found.2) :
    Performs task level size context before whole (read >>= next) fun found => parse found >>= later found := by
  intro lexemes ends short
  have reading := head lexemes ends short
  cases outcome : read lexemes with
  | error stopped =>
    rw [outcome] at reading
    rw [Reader.bind_eq_error.mpr (.inl outcome)]
    obtain ⟨leads, runs⟩ := reading
    refine ⟨leads, fun start found progress done => ?_⟩
    obtain ⟨halt, after, halted, ran⟩ := runs start found progress done
    exact ⟨halt, after, halted, bind_of_failed ran _⟩
  | ok pair =>
    obtain ⟨value, rest⟩ := pair
    rw [outcome] at reading
    rw [Reader.bind_of_ok outcome]
    obtain ⟨taken, -, runs⟩ := reading
    have ran {start found progress} (done : before start = (.ok found, progress)) :
        parse found task (task.at level lexemes progress) = task.ended level rest (middle value found progress) :=
      (runs start found progress done).trans (congrArg _ (bind_of_ok done))
    have reading := tail value rest (taken.trans ends) (Nat.lt_of_le_of_lt taken.length_le short)
    cases outcome : next value rest with
    | ok pair =>
      rw [outcome] at reading
      obtain ⟨further, leads, continued⟩ := reading
      refine ⟨further.trans taken, (LeadsTo.first _ _).trans leads, fun start found progress done => ?_⟩
      have ran := ran done
      cases ended : middle value found progress with
      | mk result after =>
        rw [ended] at ran
        cases result with
        | ok other => exact (bind_of_done ran _).trans (continued start (found, other) after (both_of_ok done ended))
        | error halt =>
          rw [leads start after halt (both_of_error done ended)]
          exact bind_of_failed ran _
    | error stopped =>
      rw [outcome] at reading
      obtain ⟨leads, continued⟩ := reading
      refine ⟨(LeadsTo.first _ _).trans leads, fun start found progress done => ?_⟩
      have ran := ran done
      cases ended : middle value found progress with
      | mk result after =>
        rw [ended] at ran
        cases result with
        | ok other =>
          obtain ⟨halt, last, halted, failed⟩ := continued start (found, other) after (both_of_ok done ended)
          exact ⟨halt, last, halted, (bind_of_done ran _).trans failed⟩
        | error halt => exact ⟨halt, after, leads start after halt (both_of_error done ended), bind_of_failed ran _⟩

/-- What is read first may be passed on another level, where the parser comes back to its own level for the rest. -/
theorem On.continued {source target : Type} {inner : Nat} {read : Reader source} {next : source → Reader α}
    {middle : source → Compile target} {lexemes rest : List Lexeme} {parse : γ → Parser target}
    {whole : α → Compile β} {parser : γ → Parser β} {later : target → Parser β}
    (head : On task inner context before middle rest parse (read rest)) (behind : rest <:+ lexemes)
    (tail : ∀ value last, read rest = .ok (value, last) → last <:+ rest →
      On task level context (middle value) whole last later (next value last))
    (goes : ∀ found progress value last after,
      parse found task (task.at inner rest progress) = .done value (task.at inner last after) →
        parser found task (task.at level lexemes progress) = later value task (task.at level last after))
    (fails : ∀ found progress report last after,
      parse found task (task.at inner rest progress) = .failed report (task.at inner last after) →
        parser found task (task.at level lexemes progress) = .failed report (task.at level last after)) :
    On task level context before whole lexemes parser ((read >>= next) rest) := by
  cases outcome : read rest with
  | error stopped =>
    rw [outcome] at head
    rw [Reader.bind_eq_error.mpr (.inl outcome)]
    obtain ⟨leads, runs⟩ := head
    refine ⟨leads, fun start found progress done => ?_⟩
    obtain ⟨halt, after, halted, ran⟩ := runs start found progress done
    exact ⟨halt, after, halted, fails _ _ _ _ _ ran⟩
  | ok pair =>
    obtain ⟨value, last⟩ := pair
    have on := tail value last outcome
    rw [outcome] at head
    rw [Reader.bind_of_ok outcome]
    obtain ⟨taken, leads, runs⟩ := head
    have on := on taken
    have ran {start found progress} (done : before start = (.ok found, progress)) :
        (∃ node after, middle value start = (.ok node, after) ∧
          parser found task (task.at level lexemes progress) = later node task (task.at level last after)) ∨
        ∃ halt after, middle value start = (.error halt, after) ∧
          parser found task (task.at level lexemes progress) = .failed halt.report (task.at level halt.rest after) := by
      have moved := runs start found progress done
      cases ended : middle value start with
      | mk result after =>
        rw [ended] at moved
        cases result with
        | ok node => exact .inl ⟨node, after, rfl, goes _ _ _ _ _ moved⟩
        | error halt => exact .inr ⟨halt, after, rfl, fails _ _ _ _ _ moved⟩
    cases result : next value last with
    | ok pair =>
      rw [result] at on
      obtain ⟨further, leadsOn, runsOn⟩ := on
      refine ⟨(further.trans taken).trans behind, leads.trans leadsOn, fun start found progress done => ?_⟩
      obtain ⟨node, after, ended, ran⟩ | ⟨halt, after, halted, ran⟩ := ran done
      · exact ran.trans (runsOn start node after ended)
      · rw [leadsOn start after halt halted]
        exact ran
    | error stopped =>
      rw [result] at on
      obtain ⟨leadsOn, runsOn⟩ := on
      refine ⟨leads.trans leadsOn, fun start found progress done => ?_⟩
      obtain ⟨node, after, ended, ran⟩ | ⟨halt, after, halted, ran⟩ := ran done
      · obtain ⟨halt, last, halted, failed⟩ := runsOn start node after ended
        exact ⟨halt, last, halted, ran.trans failed⟩
      · exact ⟨halt, after, leadsOn start after halt halted, ran⟩

/-- What has been computed may be given in another form. -/
theorem On.formed {earlier : Compile δ} {lexemes : List Lexeme} {parse : γ → Parser β}
    {outcome : Except Tree (α × List Lexeme)} (on : On task level context before whole lexemes parse outcome)
    (form : δ → γ) (same : before = earlier >>= fun found => pure (form found)) :
    On task level context earlier whole lexemes (fun found => parse (form found)) outcome := by
  subst same
  have given {start found progress} (done : earlier start = (.ok found, progress)) :
      (earlier >>= fun found => (pure (form found) : Compile γ)) start = (.ok (form found), progress) :=
    (bind_of_ok done).trans (pure_apply ..)
  cases outcome with
  | ok pair =>
    obtain ⟨taken, leads, runs⟩ := on
    exact ⟨taken, (LeadsTo.first _ _).trans leads, fun start found progress done => runs _ _ _ (given done)⟩
  | error stopped =>
    obtain ⟨leads, runs⟩ := on
    exact ⟨(LeadsTo.first _ _).trans leads, fun start found progress done => runs _ _ _ (given done)⟩

theorem formed {earlier : Compile δ} {read : Reader α} {parse : γ → Parser β}
    (performs : Performs task level size context before whole read parse) (form : δ → γ)
    (same : before = earlier >>= fun found => pure (form found)) :
    Performs task level size context earlier whole read fun found => parse (form found) :=
  fun lexemes ends short => (performs lexemes ends short).formed form same

theorem within {inner : Tree → Tree} {read : Reader α} {parse : γ → Parser β}
    (performs : Performs task level size (fun tree => context (inner tree)) before whole read parse) :
    Performs task level size context before whole (read.within inner) parse := by
  intro lexemes ends short
  have reading := performs lexemes ends short
  cases outcome : read lexemes with
  | ok pair =>
    rw [outcome] at reading
    rw [Reader.within_of_ok outcome]
    exact reading
  | error stopped =>
    rw [outcome] at reading
    rw [Reader.within_of_error outcome]
    exact reading

theorem entered {read : Reader Tree} {parse : Parser AnyNode} (follows : Follows task level size read parse)
    (opened : Opened task context before) :
    Performs task level size context before (fun tree => before >>= fun _ => tree.compile task.environment) read
      fun _ => parse := by
  intro lexemes ends short
  have reading := follows lexemes ends short
  cases outcome : read lexemes with
  | ok pair =>
    rw [outcome] at reading
    obtain ⟨taken, -, runs⟩ := reading
    refine ⟨taken, .first _ _, fun start found progress done => ?_⟩
    have same : (before >>= fun _ => pair.1.compile task.environment) start =
        pair.1.compile task.environment progress := bind_of_ok done
    exact (runs progress () progress (pure_apply ..)).trans (congrArg _ same.symm)
  | error stopped =>
    rw [outcome] at reading
    obtain ⟨-, runs⟩ := reading
    refine ⟨(LeadsTo.first _ _).trans (opened stopped), fun start found progress done => ?_⟩
    obtain ⟨halt, after, halted, ran⟩ := runs progress () progress (pure_apply ..)
    exact ⟨halt, after, opened stopped start after halt ((bind_of_ok done).trans halted), ran⟩

/-! ## What needs no compiling -/

theorem required {read : Reader α} {parse : Parser α} (requires : Requires task read parse)
    (opened : Opened task context before) :
    Performs task level size context before (fun value => before >>= fun _ => pure value) read fun _ => parse := by
  intro lexemes ends short
  obtain ⟨value, rest, reads, taken, ran⟩ | ⟨report, rest, reads, ran⟩ := requires lexemes ends
  · rw [reads]
    refine ⟨taken, .first _ _, fun start found progress done => ?_⟩
    have same : (before >>= fun _ => (pure value : Compile α)) start = (.ok value, progress) :=
      (bind_of_ok done).trans (Compile.pure_apply ..)
    exact (ran level progress).trans (congrArg (task.ended level rest) same.symm)
  · rw [reads]
    refine ⟨(LeadsTo.first _ _).trans (opened _), fun start found progress done => ?_⟩
    exact ⟨⟨report, rest⟩, progress, opened _ start progress _ (bind_of_ok done), ran level progress⟩

/-- What both give alike may be used on either side. -/
theorem On.pass {source : Type} {lexemes : List Lexeme} {read : Reader source} {parse : Parser source}
    {next : source → Reader α} {later : γ → source → Parser β}
    (head : On task level context before (fun value => before >>= fun _ => pure value) lexemes (fun _ => parse)
      (read lexemes))
    (tail : ∀ value rest, read lexemes = .ok (value, rest) → rest <:+ lexemes →
      On task level context before whole rest (fun found => later found value) (next value rest)) :
    On task level context before whole lexemes (fun found => parse >>= later found) ((read >>= next) lexemes) := by
  cases outcome : read lexemes with
  | error stopped =>
    rw [outcome] at head
    rw [Reader.bind_eq_error.mpr (.inl outcome)]
    obtain ⟨leads, runs⟩ := head
    refine ⟨leads, fun start found progress done => ?_⟩
    obtain ⟨halt, after, halted, ran⟩ := runs start found progress done
    exact ⟨halt, after, halted, bind_of_failed ran _⟩
  | ok pair =>
    obtain ⟨value, rest⟩ := pair
    rw [outcome] at head
    rw [Reader.bind_of_ok outcome]
    obtain ⟨taken, -, runs⟩ := head
    refine (tail value rest outcome taken).behind taken fun start found progress done => ?_
    have same : (before >>= fun _ => (pure value : Compile source)) start = (.ok value, progress) :=
      (bind_of_ok done).trans (Compile.pure_apply ..)
    exact bind_of_done ((runs start found progress done).trans (congrArg (task.ended level rest) same)) _

theorem pass {source : Type} {read : Reader source} {parse : Parser source} {next : source → Reader α}
    {later : γ → source → Parser β}
    (head : Performs task level size context before (fun value => before >>= fun _ => pure value) read fun _ => parse)
    (tail : ∀ value, Performs task level size context before whole (next value) fun found => later found value) :
    Performs task level size context before whole (read >>= next) fun found => parse >>= later found :=
  fun lexemes ends short => .pass (head lexemes ends short) fun value rest _ taken =>
    tail value rest (taken.trans ends) (Nat.lt_of_le_of_lt taken.length_le short)

theorem scan {source : Type} {read : Reader source} {parse : Parser source} (same : Matches task read parse)
    {next : source → Reader α} {later : γ → source → Parser β}
    (tail : ∀ value, Performs task level size context before whole (next value) fun found => later found value) :
    Performs task level size context before whole (read >>= next) fun found => parse >>= later found := by
  intro lexemes ends short
  obtain ⟨value, rest, reads, taken, ran⟩ := same lexemes ends
  rw [Reader.bind_of_ok reads]
  refine (tail value rest (taken.trans ends) (Nat.lt_of_le_of_lt taken.length_le short)).behind taken ?_
  exact fun start found progress _ => bind_of_done (ran level progress) _

/-- Where a terminal is taken, there are fewer lexemes behind it. -/
theorem taking {terminal : Terminal} {present absent : Reader α} {taken passed : γ → Parser β}
    (there : Performs task level size context before whole present taken)
    (missing : Performs task level (size + 1) context before whole absent passed) :
    Performs task level (size + 1) context before whole
      (Reader.takes terminal >>= fun found => if found then present else absent)
      fun found => eat terminal >>= fun eaten => if eaten then taken found else passed found := by
  intro lexemes ends short
  cases starts : startsWith terminal lexemes with
  | false =>
    rw [Reader.bind_of_ok (Reader.takes_of_not starts)]
    exact (missing lexemes ends short).behind (List.suffix_refl _) fun start found progress _ =>
      bind_of_done (eat_of_not progress ends starts) _
  | true =>
    cases lexemes with
    | nil => cases starts
    | cons head rest =>
      rw [Reader.bind_of_ok (Reader.takes_of_is starts rest)]
      have behind := List.suffix_cons head rest
      exact (there rest (behind.trans ends) (Nat.lt_of_succ_lt_succ short)).behind behind fun start found progress _ =>
        bind_of_done (eat_of_is progress ends starts) _

/-- Where a lexeme is of use, there are fewer lexemes behind it. -/
theorem accepting {source : Type} {read : Reader (Option source)} {parse : Parser (Option source)}
    (signs : Signs task read parse) {next : Option source → Reader α} {later : γ → Option source → Parser β}
    (there : ∀ use, Performs task level size context before whole (next (some use)) fun found => later found (some use))
    (missing : Performs task level (size + 1) context before whole (next none) fun found => later found none) :
    Performs task level (size + 1) context before whole (read >>= next) fun found => parse >>= later found := by
  intro lexemes ends short
  obtain ⟨reads, ran⟩ | ⟨use, first, rest, rfl, reads, ran⟩ := signs lexemes ends
  · rw [Reader.bind_of_ok reads]
    exact (missing lexemes ends short).behind (List.suffix_refl _) fun start found progress _ =>
      bind_of_done (ran level progress) _
  · rw [Reader.bind_of_ok reads]
    have behind := List.suffix_cons first rest
    exact (there use rest (behind.trans ends) (Nat.lt_of_succ_lt_succ short)).behind behind
      fun start found progress _ => bind_of_done (ran level progress) _

theorem either {read : Reader Bool} {parse : Parser Bool} (same : Matches task read parse) {present absent : Reader α}
    {taken passed : γ → Parser β} (there : Performs task level size context before whole present taken)
    (missing : Performs task level size context before whole absent passed) :
    Performs task level size context before whole (read >>= fun found => if found then present else absent)
      fun found => parse >>= fun answer => if answer then taken found else passed found := by
  refine scan same fun answer => ?_
  cases answer with
  | true => exact there
  | false => exact missing

theorem stop (opened : Opened task context before) (problem : Problem) :
    Performs task level size context before whole (Reader.stop problem) fun _ => fail problem := by
  intro lexemes ends short
  refine ⟨(LeadsTo.first _ _).trans (opened _), fun start found progress done => ?_⟩
  exact ⟨_, progress, opened _ start progress _ (bind_of_ok done), bind_of_done (place_at progress ends) _⟩

/-! ## The lexeme in front -/

theorem peeking {read : Reader α} {later : γ → Option Lexeme → Parser β}
    (ended : On task level context before whole [] (fun found => later found none) (read []))
    (continued : ∀ first rest, first :: rest <:+ task.lexemes → rest.length < size →
      On task level context before whole (first :: rest) (fun found => later found (some first))
        (read (first :: rest))) :
    Performs task level (size + 1) context before whole read fun found => peek >>= later found := by
  intro lexemes ends short
  cases lexemes with
  | nil => exact ended.behind (List.suffix_refl _) fun start found progress _ => bind_of_done (peek_at progress ends) _
  | cons first rest =>
    exact (continued first rest ends (Nat.lt_of_succ_lt_succ short)).behind (List.suffix_refl _)
      fun start found progress _ => bind_of_done (peek_at progress ends) _

/-- Where a parser has moved over the lexeme in front, it goes on behind it. -/
theorem On.step {first : Lexeme} {rest : List Lexeme} {outcome : Except Tree (α × List Lexeme)} {later : γ → Parser β}
    (on : On task level context before whole rest later outcome) (ends : first :: rest <:+ task.lexemes) :
    On task level context before whole (first :: rest) (fun found => Parser.step >>= fun _ => later found) outcome := by
  exact on.behind (List.suffix_cons first rest) fun start found progress _ => bind_of_done (step_at progress ends) _

theorem On.stop (opened : Opened task context before) (problem : Problem) (lexemes : List Lexeme) :
    On task level context before whole lexemes (fun _ => failAt problem (.ofNext lexemes))
      (Reader.stop problem lexemes) := by
  refine ⟨(LeadsTo.first _ _).trans (opened _), fun start found progress done => ?_⟩
  exact ⟨_, progress, opened _ start progress _ (bind_of_ok done), rfl⟩

theorem On.unexpected (opened : Opened task context before) {lexemes : List Lexeme} (ends : lexemes <:+ task.lexemes) :
    On task level context before whole lexemes (fun _ => unexpected) (Reader.stopUnexpected lexemes) := by
  cases lexemes with
  | nil => exact (On.stop opened .unexpectedEnd []).behind (List.suffix_refl _) fun start found progress _ =>
      bind_of_done (peek_at progress ends) _
  | cons first rest =>
    exact (On.stop opened _ (first :: rest)).behind (List.suffix_refl _) fun start found progress _ =>
      bind_of_done (peek_at progress ends) _

/-! ## Computing -/

theorem performing {computation : γ → Environment → Compile δ}
    (lasts : ∀ found, (computation found task.environment).Lasts) {read : Reader α} {later : γ → δ → Parser β}
    (tail : Performs task level size context (both before fun found => computation found task.environment) whole read
      fun found => later found.1 found.2) :
    Performs task level size context before whole read fun found => perform (computation found) >>= later found := by
  intro lexemes ends short
  have reading := tail lexemes ends short
  have computed {start found progress} (done : before start = (.ok found, progress)) :
      ∃ value after, both before (fun found => computation found task.environment) start = (.ok (found, value), after) ∧
        perform (computation found) task (task.at level lexemes progress) =
          .done value (task.at level lexemes after) := by
    obtain ⟨value, after, ended⟩ := lasts found progress
    refine ⟨value, after, both_of_ok done ended, ?_⟩
    exact perform_of_ok ended
  cases outcome : read lexemes with
  | ok pair =>
    rw [outcome] at reading
    obtain ⟨taken, leads, runs⟩ := reading
    refine ⟨taken, (LeadsTo.first _ _).trans leads, fun start found progress done => ?_⟩
    obtain ⟨value, after, ended, ran⟩ := computed done
    exact (bind_of_done ran _).trans (runs start (found, value) after ended)
  | error stopped =>
    rw [outcome] at reading
    obtain ⟨leads, runs⟩ := reading
    refine ⟨(LeadsTo.first _ _).trans leads, fun start found progress done => ?_⟩
    obtain ⟨value, after, ended, ran⟩ := computed done
    obtain ⟨halt, last, halted, failed⟩ := runs start (found, value) after ended
    exact ⟨halt, last, halted, (bind_of_done ran _).trans failed⟩

theorem On.finish {computation : γ → Environment → Compile β} {value : α} {rest : List Lexeme}
    (halts : ∀ found, (computation found task.environment).HaltsAt rest)
    (same : whole value = before >>= fun found => computation found task.environment) :
    On task level context before whole rest (fun found => perform (computation found)) (.ok (value, rest)) := by
  refine ⟨List.suffix_refl _, same ▸ LeadsTo.first _ _, fun start found progress done => ?_⟩
  rw [same, bind_of_ok done]
  cases ended : computation found task.environment progress with
  | mk result after =>
    cases result with
    | ok value => exact perform_of_ok ended
    | error halt =>
      rw [Task.ended, halts found progress halt after ended]
      exact perform_of_error ended

theorem finish {computation : γ → Environment → Compile β} {value : α}
    (lasts : ∀ found, (computation found task.environment).Lasts)
    (same : whole value = before >>= fun found => computation found task.environment) :
    Performs task level size context before whole (pure value) fun found => perform (computation found) :=
  fun lexemes _ _ => .finish (fun found => (lasts found).haltsAt lexemes) same

theorem pure {value : α} {result : γ → β} (same : whole value = before >>= fun found => Pure.pure (result found)) :
    Performs task level size context before whole (Pure.pure value) fun found => Pure.pure (result found) := by
  intro lexemes ends short
  refine ⟨List.suffix_refl _, same ▸ LeadsTo.first _ _, fun start found progress done => ?_⟩
  rw [same, bind_of_ok done]
  rfl

theorem finishing {computation : List Lexeme → γ → Environment → Compile β} {value : List Lexeme → α}
    (halts : ∀ rest found, (computation rest found task.environment).HaltsAt rest)
    (same : ∀ rest, whole (value rest) = before >>= fun found => computation rest found task.environment) :
    Performs task level size context before whole (Reader.remaining >>= fun rest => Pure.pure (value rest))
      fun found => remaining >>= fun rest => perform (computation rest found) := by
  intro lexemes ends short
  refine (On.finish (halts lexemes) (same lexemes)).behind (List.suffix_refl _) fun start found progress _ => ?_
  refine bind_of_done ?_ _
  rw [remaining, drop_at progress ends]

/-- What is read may be made into something else that is computed alike. -/
theorem mapped {result : Type} {read : Reader α} {parse : γ → Parser β} {make : α → result}
    {other : result → Compile β} (performs : Performs task level size context before whole read parse)
    (same : ∀ value, other (make value) = whole value) :
    Performs task level size context before other (read >>= fun value => Pure.pure (make value)) parse := by
  intro lexemes ends short
  have reading := performs lexemes ends short
  cases outcome : read lexemes with
  | ok pair =>
    rw [outcome] at reading
    rw [Reader.bind_of_ok outcome]
    obtain ⟨taken, leads, runs⟩ := reading
    refine ⟨taken, ?_, fun start found progress done => ?_⟩
    · rw [same]
      exact leads
    · rw [same]
      exact runs start found progress done
  | error stopped =>
    rw [outcome] at reading
    rw [Reader.bind_eq_error.mpr (.inl outcome)]
    exact reading

/-- Of what was found and what is computed from it, only the latter may be needed. -/
theorem through {computation : γ → Environment → Compile δ}
    (lasts : ∀ found, (computation found task.environment).Lasts) {read : Reader α} {later : δ → Parser β}
    (tail : Performs task level size context (before >>= fun found => computation found task.environment) whole read
      later) :
    Performs task level size context before whole read fun found => perform (computation found) >>= later := by
  refine performing lasts (tail.formed Prod.snd ?_)
  simp only [both, bind_assoc, pure_bind, bind_pure]

/-! ## At the start -/

section Start

variable {whole : α → Compile β}

theorem computing {computation : Environment → Compile δ} (lasts : (computation task.environment).Lasts)
    {read : Reader α} {later : δ → Parser β}
    (tail : Performs task level size context (computation task.environment) whole read later) :
    Performs task level size context (Pure.pure ()) whole read fun _ => perform computation >>= later :=
  through (fun _ => lasts) tail

theorem entering {source target : Type} {first : source → Compile target} {read : Reader source} {parse : Parser target}
    (head : Performs task level size context (Pure.pure ()) first read fun _ => parse) {next : source → Reader α}
    {later : target → Parser β}
    (tail : ∀ value, Performs task level size context (first value) whole (next value) later) :
    Performs task level size context (Pure.pure ()) whole (read >>= next) fun _ => parse >>= later := by
  have head : Performs task level size context (Pure.pure ()) (fun value => Pure.pure () >>= fun _ => first value) read
      fun _ => parse := head
  refine bind head fun value => (tail value).formed Prod.snd ?_
  simp only [both, bind_assoc, pure_bind, bind_pure]

end Start

end Performs

end LiveExpr.Pass
