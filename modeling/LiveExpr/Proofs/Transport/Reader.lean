import LiveExpr.Proofs.Grammar.Soundness
import LiveExpr.Proofs.Transport.Tree

/-!
Readers in other sources. Two readers go side by side through the lexemes and the carried ones, take the same of them,
and stop at the same place.
-/

namespace LiveExpr

theorem Lexeme.isPlain_of_is {terminal : Terminal} {first : Lexeme} (plain : (Token.fixed terminal).isPlain = true)
    (spelled : first.is terminal = true) : first.token.isPlain = true :=
  of_is spelled plain

namespace Transport

variable (transport : Transport)

theorem is_move (lexeme : Lexeme) (terminal : Terminal) :
    (transport.move lexeme).is terminal = lexeme.is terminal := by
  rw [Lexeme.is, transport.token_move]
  rfl

variable {transport} {rounds : Nat} {brackets inside : List Terminal} {lexemes : List Lexeme}

theorem carry_nil (admitted : transport.Admits brackets []) : transport.carry [] = [] :=
  transport.behind_of_nil admitted

theorem carry_cons (transport : Transport) (first : Lexeme) (rest : List Lexeme) :
    transport.carry (first :: rest) = transport.move first :: transport.carry rest := rfl

theorem startsWith_carry (admitted : transport.Admits brackets lexemes) (terminal : Terminal) :
    startsWith terminal (transport.carry lexemes) = startsWith terminal lexemes := by
  cases lexemes with
  | nil => rw [carry_nil admitted]
  | cons first rest => exact transport.is_move first terminal

/-! ## Rounds

A repetition takes a lexeme in each round, so it has enough rounds if there are no more lexemes than those.
-/

def Fits (transport : Transport) (rounds : Nat) (brackets : List Terminal) (lexemes : List Lexeme) : Prop :=
  transport.Admits brackets lexemes ∧ lexemes.length ≤ rounds

/-- Whether lexemes inside some brackets are admitted, and fewer than there are rounds. -/
def Spares (transport : Transport) (rounds : Nat) (brackets : List Terminal) (lexemes : List Lexeme) : Prop :=
  transport.Admits brackets lexemes ∧ lexemes.length < rounds

theorem Spares.fits (spares : transport.Spares rounds brackets lexemes) : transport.Fits rounds brackets lexemes :=
  ⟨spares.1, Nat.le_of_lt spares.2⟩

theorem Fits.le {more : Nat} (fits : transport.Fits rounds brackets lexemes) (enough : rounds ≤ more) :
    transport.Fits more brackets lexemes :=
  ⟨fits.1, Nat.le_trans fits.2 enough⟩

theorem Fits.rest {first : Lexeme} {rest : List Lexeme} (fits : transport.Fits rounds brackets (first :: rest))
    (admitted : transport.Admits inside rest) : transport.Spares rounds inside rest :=
  ⟨admitted, fits.2⟩

theorem Fits.plain {first : Lexeme} {rest : List Lexeme} (fits : transport.Fits rounds brackets (first :: rest))
    (plain : first.token.isPlain = true) : transport.Spares rounds brackets rest :=
  fits.rest (transport.admits_plain fits.1 plain)

/-! ## Taking a terminal -/

/-- Whether taking a terminal leads from inside some brackets into others. -/
def Passes (transport : Transport) (terminal : Terminal) (brackets inside : List Terminal) : Prop :=
  ∀ first rest, transport.Admits brackets (first :: rest) → first.is terminal = true →
    transport.Admits inside rest

variable {terminal closing : Terminal}

theorem passes_plain (plain : (Token.fixed terminal).isPlain = true) : transport.Passes terminal brackets brackets :=
  fun _ _ admitted spelled => transport.admits_plain admitted (Lexeme.isPlain_of_is plain spelled)

theorem passes_opening (closes : terminal.closing? = some closing) :
    transport.Passes terminal brackets (closing :: brackets) :=
  fun _ _ admitted spelled => transport.admits_opening admitted spelled closes

theorem passes_closing : transport.Passes closing (closing :: brackets) brackets :=
  fun _ _ admitted spelled => transport.admits_closing admitted spelled

theorem passes_semicolon : transport.Passes .semicolon (closing :: brackets) (closing :: brackets) :=
  fun _ _ admitted spelled => transport.admits_semicolon admitted spelled

/-- What is left behind a terminal, or where it has not been taken. -/
def Past (transport : Transport) (rounds : Nat) (brackets inside : List Terminal) : Bool → List Lexeme → Prop
  | true => transport.Spares rounds inside
  | false => transport.Fits rounds brackets

end Transport

namespace Reader

variable {α β γ δ : Type}

/-- Whether the second outcome is the first one in the other source. -/
inductive Carried (transport : Transport) (related : α → β → Prop) (after : α → List Lexeme → Prop) :
    Except Tree (α × List Lexeme) → Except Tree (β × List Lexeme) → Prop
  | read {value : α} {other : β} {rest : List Lexeme} (same : related value other) (left : after value rest) :
      Carried transport related after (.ok (value, rest)) (.ok (other, transport.carry rest))
  | stopped {tree other : Tree} (carried : tree.Carried transport other) :
      Carried transport related after (.error tree) (.error other)

namespace Carried

variable {transport : Transport} {related : α → β → Prop} {after : α → List Lexeme → Prop}
  {brackets : List Terminal}

theorem read_nil {value : α} {other : β} (same : related value other) (admitted : transport.Admits brackets [])
    (left : after value []) : Carried transport related after (.ok (value, [])) (.ok (other, [])) := by
  have outcome : Carried transport related after (.ok (value, [])) (.ok (other, transport.carry [])) := .read same left
  rwa [Transport.carry_nil admitted] at outcome

theorem stop (problem : Problem) {lexemes : List Lexeme} (admitted : transport.Admits brackets lexemes) :
    Carried transport related after (Reader.stop problem lexemes) (Reader.stop problem (transport.carry lexemes)) :=
  .stopped (.stop problem (transport.ofNext_carry admitted) admitted)

theorem stop_nil (problem : Problem) (admitted : transport.Admits brackets []) :
    Carried transport related after (Reader.stop problem []) (Reader.stop problem []) := by
  have stopped : Carried transport related after _ _ := stop problem admitted
  rwa [Transport.carry_nil admitted] at stopped

end Carried

def Carries (transport : Transport) (before : List Lexeme → Prop) (related : α → β → Prop)
    (after : α → List Lexeme → Prop) (first : Reader α) (second : Reader β) : Prop :=
  ∀ lexemes, before lexemes → Carried transport related after (first lexemes) (second (transport.carry lexemes))

abbrev CarriesFrom (transport : Transport) (rounds : Nat) (brackets inside : List Terminal)
    (first second : Reader Tree) : Prop :=
  Carries transport (transport.Fits rounds brackets) (Tree.Carried transport)
    (fun _ => transport.Fits rounds inside) first second

abbrev CarriesTree (transport : Transport) (bound : Nat) (first second : Reader Tree) : Prop :=
  ∀ rounds ≤ bound, ∀ brackets, CarriesFrom transport rounds brackets brackets first second

namespace Carries

variable {transport : Transport} {before middle : List Lexeme → Prop} {related : α → β → Prop}
  {after : α → List Lexeme → Prop} {next : γ → δ → Prop} {last : γ → List Lexeme → Prop}

theorem pure {value : α} {other : β} (same : related value other)
    (left : ∀ lexemes, before lexemes → after value lexemes) :
    Carries transport before related after (Pure.pure value) (Pure.pure other) :=
  fun lexemes admitted => .read same (left lexemes admitted)

theorem bind {first : Reader α} {second : Reader β} {firstNext : α → Reader γ} {secondNext : β → Reader δ}
    (carries : Carries transport before related after first second)
    (continued : ∀ value other, related value other →
      Carries transport (after value) next last (firstNext value) (secondNext other)) :
    Carries transport before next last (first >>= firstNext) (second >>= secondNext) := by
  intro lexemes admitted
  have outcome := carries lexemes admitted
  rw [Reader.bind_apply, Reader.bind_apply]
  generalize first lexemes = one, second (transport.carry lexemes) = two at outcome
  cases outcome with
  | read same left => exact continued _ _ same _ left
  | stopped carried => exact .stopped carried

theorem bind_change {change : α → β} {first : Reader α} {second : Reader β} {firstNext : α → Reader γ}
    {secondNext : β → Reader δ}
    (carries : Carries transport before (fun value other => other = change value) after first second)
    (continued : ∀ value, Carries transport (after value) next last (firstNext value) (secondNext (change value))) :
    Carries transport before next last (first >>= firstNext) (second >>= secondNext) := by
  refine carries.bind ?_
  rintro value _ rfl
  exact continued value

theorem bind_same {first second : Reader α} {firstNext : α → Reader γ} {secondNext : α → Reader δ}
    (carries : Carries transport before Eq after first second)
    (continued : ∀ value, Carries transport (after value) next last (firstNext value) (secondNext value)) :
    Carries transport before next last (first >>= firstNext) (second >>= secondNext) := by
  refine carries.bind ?_
  rintro value _ rfl
  exact continued value

theorem also {first : Reader α} {second : Reader β} {more : α → List Lexeme → Prop}
    (carries : Carries transport before related after first second)
    (known : ∀ lexemes value rest, middle lexemes → first lexemes = .ok (value, rest) → more value rest) :
    Carries transport (fun lexemes => before lexemes ∧ middle lexemes) related
      (fun value rest => after value rest ∧ more value rest) first second := by
  intro lexemes admitted
  have outcome := carries lexemes admitted.1
  have known := known lexemes
  generalize first lexemes = one, second (transport.carry lexemes) = two at outcome known
  cases outcome with
  | read same left => exact .read same ⟨left, known _ _ admitted.2 rfl⟩
  | stopped carried => exact .stopped carried

/-- Where reading stops, the trees that go together do so in their contexts, too. -/
theorem within_of_halts {first : Reader α} {second : Reader β} {relation : List Lexeme → α → Prop}
    {context otherContext : Tree → Tree} (carries : Carries transport before related after first second)
    (reads : first.Reads relation)
    (contexts : ∀ tree other, tree.Halts → tree.Carried transport other →
      (context tree).Carried transport (otherContext other)) :
    Carries transport before related after (first.within context) (second.within otherContext) := by
  intro lexemes admitted
  have outcome := carries lexemes admitted
  have taken := reads lexemes
  unfold Reader.within
  generalize first lexemes = one, second (transport.carry lexemes) = two at outcome taken
  cases outcome with
  | read same left => exact .read same left
  | stopped carried => exact .stopped (contexts _ _ taken carried)

theorem within {first : Reader α} {second : Reader β} {context otherContext : Tree → Tree}
    (carries : Carries transport before related after first second)
    (contexts : ∀ tree other, tree.Carried transport other →
      (context tree).Carried transport (otherContext other)) :
    Carries transport before related after (first.within context) (second.within otherContext) := by
  intro lexemes admitted
  have outcome := carries lexemes admitted
  unfold Reader.within
  generalize first lexemes = one, second (transport.carry lexemes) = two at outcome
  cases outcome with
  | read same left => exact .read same left
  | stopped carried => exact .stopped (contexts _ _ carried)

/-- It is enough to look at lexemes that leave a round to spare. -/
theorem spare {rounds : Nat} {brackets inside : List Terminal} {first : Reader α} {second : Reader β}
    (carries : ∀ fewer < rounds, Carries transport (transport.Fits fewer brackets) related
      (fun _ => transport.Fits fewer inside) first second) :
    Carries transport (transport.Spares rounds brackets) related (fun _ => transport.Fits rounds inside) first
      second := by
  intro lexemes spares
  have outcome := carries lexemes.length spares.2 lexemes ⟨spares.1, Nat.le_refl _⟩
  generalize first lexemes = one, second (transport.carry lexemes) = two at outcome
  cases outcome with
  | read same left => exact .read same (left.le (Nat.le_of_lt spares.2))
  | stopped carried => exact .stopped carried

theorem fit {rounds : Nat} {brackets : List Terminal} {first : Reader α} {second : Reader β}
    (carries : Carries transport (transport.Fits rounds brackets) related after first second) :
    Carries transport (transport.Spares rounds brackets) related after first second :=
  fun lexemes spares => carries lexemes spares.fits

/-! ## Single lexemes -/

variable {rounds : Nat} {brackets inside : List Terminal} {terminal : Terminal}

theorem stop (problem : Problem) :
    Carries transport (transport.Fits rounds brackets) related after (Reader.stop problem) (Reader.stop problem) :=
  fun _ fits => .stop problem fits.1

theorem stopUnexpected :
    Carries transport (transport.Fits rounds brackets) related after Reader.stopUnexpected Reader.stopUnexpected := by
  intro lexemes fits
  cases lexemes with
  | nil =>
    rw [Transport.carry_nil fits.1]
    exact .stop_nil .unexpectedEnd fits.1
  | cons first rest =>
    rw [transport.carry_cons, Reader.stopUnexpected, Reader.stopUnexpected, transport.text_move]
    exact .stop (.unexpected first.text) fits.1

theorem placeOf (implies : ∀ lexemes, before lexemes → transport.Fits rounds brackets lexemes) :
    Carries transport before (fun start other => other = start.moved transport) (fun _ => before) Reader.place
      Reader.place :=
  fun lexemes holds => .read (transport.ofNext_carry (implies lexemes holds).1) holds

theorem place :
    Carries transport (transport.Fits rounds brackets) (fun start other => other = start.moved transport)
      (fun _ => transport.Fits rounds brackets) Reader.place Reader.place :=
  placeOf fun _ => id

theorem sees (terminal : Terminal) :
    Carries transport (transport.Fits rounds brackets) Eq (fun _ => transport.Fits rounds brackets)
      (Reader.sees terminal) (Reader.sees terminal) :=
  fun _ fits => .read (transport.startsWith_carry fits.1 terminal).symm fits

theorem accept {use? : Lexeme → Option α} {other? : Lexeme → Option β} {change : α → β}
    (moved : ∀ sign, other? (transport.move sign) = (use? sign).map change)
    (taken : ∀ sign use rest, use? sign = some use → transport.Admits brackets (sign :: rest) →
      transport.Admits inside rest) :
    Carries transport (transport.Fits rounds brackets) (fun found other => other = found.map change)
      (fun found => transport.Past rounds brackets inside found.isSome) (Reader.accept use?)
      (Reader.accept other?) := by
  intro lexemes fits
  cases lexemes with
  | nil =>
    rw [Transport.carry_nil fits.1]
    exact .read_nil rfl fits.1 fits
  | cons first rest =>
    rw [transport.carry_cons, Reader.accept, Reader.accept, moved]
    cases accepted : use? first with
    | none => exact .read rfl fits
    | some use => exact .read rfl (fits.rest (taken first use rest accepted fits.1))

theorem acceptPlain {use? : Lexeme → Option α} {other? : Lexeme → Option β} {change : α → β}
    (moved : ∀ sign, other? (transport.move sign) = (use? sign).map change)
    (plain : ∀ sign use, use? sign = some use → sign.token.isPlain = true) :
    Carries transport (transport.Fits rounds brackets) (fun found other => other = found.map change)
      (fun found => transport.Past rounds brackets brackets found.isSome) (Reader.accept use?)
      (Reader.accept other?) :=
  accept moved fun sign use _ accepted admitted => transport.admits_plain admitted (plain sign use accepted)

theorem acceptTerminal (passes : transport.Passes terminal brackets inside) :
    Carries transport (transport.Fits rounds brackets) (fun found other => other = found.map transport.move)
      (fun found => transport.Past rounds brackets inside found.isSome) (Reader.acceptTerminal terminal)
      (Reader.acceptTerminal terminal) := by
  refine accept (fun sign => ?_) fun sign use rest accepted admitted => ?_
  · rw [transport.is_move]
    split <;> rfl
  · split at accepted
    · next spelled => exact passes sign rest admitted spelled
    · cases accepted

theorem takes (passes : transport.Passes terminal brackets inside) :
    Carries transport (transport.Fits rounds brackets) Eq (transport.Past rounds brackets inside)
      (Reader.takes terminal) (Reader.takes terminal) := by
  intro lexemes fits
  cases spelled : startsWith terminal lexemes with
  | false =>
    rw [Reader.takes_of_not spelled, Reader.takes_of_not ((transport.startsWith_carry fits.1 terminal).trans spelled)]
    exact .read rfl fits
  | true =>
    cases lexemes with
    | nil => cases spelled
    | cons first rest =>
      rw [Reader.takes_of_is spelled, transport.carry_cons,
        Reader.takes_of_is ((transport.is_move first terminal).trans spelled)]
      exact .read rfl (fits.rest (passes first rest fits.1 spelled))

theorem require (passes : transport.Passes terminal brackets inside) (wanted : Expectation) :
    Carries transport (transport.Fits rounds brackets) (fun found other => other = transport.move found)
      (fun _ => transport.Fits rounds inside) (Reader.require terminal wanted) (Reader.require terminal wanted) := by
  intro lexemes fits
  cases lexemes with
  | nil =>
    rw [Transport.carry_nil fits.1]
    exact .stop_nil (.expected wanted none) fits.1
  | cons first rest =>
    rw [transport.carry_cons, Reader.require, Reader.require, transport.is_move, transport.text_move]
    split
    · next spelled => exact .read rfl (fits.rest (passes first rest fits.1 spelled)).fits
    · exact .stop (.expected wanted (some first.text)) fits.1

end Carries

end Reader

end LiveExpr
