import LiveExpr.Proofs.Token.Layout
import LiveExpr.Proofs.Token.Literal

/-!
Tokens apart from one another. The scan finds a token by looking at its spelling and at what follows it, and a blank or
the end behind the spelling changes nothing. So the spellings of a source, written one behind the other with blanks of
any kind in between, are found again as the same tokens.
-/

namespace LiveExpr

namespace Scan

/-! ## Spellings in front of blanks -/

/-- Whether some text is empty or begins with a blank. -/
def IsApart (others : List Char) : Prop :=
  ∀ c ∈ others.head?, isBlank c = true

section IsApart

variable {others : List Char} {c : Char}

theorem isApart_nil : IsApart [] := nofun

theorem isApart_cons (blank : isBlank c = true) (others : List Char) : IsApart (c :: others) := by
  rintro _ ⟨⟩
  exact blank

theorem eq_of_isBlank (blank : isBlank c = true) : c = ' ' ∨ c = '\t' ∨ c = '\r' ∨ c = '\x0c' ∨ c = '\n' := by
  simpa [isBlank, or_assoc] using blank

/-- No blank has a property that none of the five has. -/
theorem IsApart.head?_eq_false (apart : IsApart others) (property : Char → Bool)
    (none : [' ', '\t', '\r', '\x0c', '\n'].all (!property ·) = true) :
    ∀ c ∈ others.head?, property c = false := by
  intro c starts
  simp only [List.all_cons, List.all_nil, Bool.and_eq_true, Bool.not_eq_true'] at none
  obtain ⟨space, tab, carriage, feed, newline, -⟩ := none
  rcases eq_of_isBlank (apart c starts) with rfl | rfl | rfl | rfl | rfl <;> assumption

/-- A run of characters ends where it ended when something else follows that does not continue it. -/
theorem takeWhile_append_stops {property : Char → Bool} {run : List Char} (inside : ∀ c ∈ run, property c = true)
    (stops : ∀ c ∈ others.head?, property c = false) : (run ++ others).takeWhile property = run := by
  rw [List.takeWhile_append_of_pos inside]
  cases others with
  | nil => simp
  | cons c more => simp [stops c rfl]

theorem dropWhile_append_stops {property : Char → Bool} {run : List Char} (inside : ∀ c ∈ run, property c = true)
    (stops : ∀ c ∈ others.head?, property c = false) : (run ++ others).dropWhile property = others := by
  rw [List.dropWhile_append_of_pos inside]
  cases others with
  | nil => rfl
  | cons c more => simp [stops c rfl]

end IsApart

variable {first : Char} {rest others : List Char} {token : Token} {extra : Nat}

/-- Whether something holds of the characters that belong to a piece, as many as are counted, in front of everything
that is apart from them. -/
def IsSettled (extra : Nat) (rest : List Char) (holds : List Char → Prop) : Prop :=
  ∃ more behind, rest = more ++ behind ∧ more.length = extra ∧ ∀ others, IsApart others → holds (more ++ others)

theorem IsSettled.imp {holds other : List Char → Prop} (settled : IsSettled extra rest holds)
    (weaker : ∀ again, holds again → other again) : IsSettled extra rest other := by
  obtain ⟨more, behind, split, length, again⟩ := settled
  exact ⟨more, behind, split, length, fun others apart => weaker _ (again others apart)⟩

/-! ## Words -/

theorem word_settled (found : word first rest = (.token token, extra)) :
    IsSettled extra rest fun again => word first again = (.token token, extra) := by
  have inside : ∀ c ∈ rest.takeWhile continuesName, continuesName c = true := fun c => List.mem_takeWhile_imp
  have length : (rest.takeWhile continuesName).length = extra := congrArg Prod.snd found
  refine ⟨_, _, List.takeWhile_append_dropWhile.symm, length, fun others apart => ?_⟩
  have same := takeWhile_append_stops inside (apart.head?_eq_false _ (by decide))
  dsimp only
  rw [← found, word, same, word]

/-! ## Numbers -/

/-- Whether a number begins with a character that others follow. -/
abbrev StartsNumber (first : Char) (rest : List Char) : Prop :=
  (first.isDigit || first == '.' && rest.head?.any Char.isDigit) = true

theorem mantissa_prefix (characters : List Char) : mantissa characters <+: characters := by
  unfold mantissa
  have split := @List.takeWhile_append_dropWhile _ Char.isDigit characters
  conv_rhs => rw [← split]
  rw [List.prefix_append_right_inj]
  split
  · next more pointed =>
    rw [pointed]
    exact List.cons_prefix_cons.mpr ⟨rfl, List.takeWhile_prefix _⟩
  · exact List.nil_prefix

/-- What is neither a digit nor a point does not lengthen a mantissa. -/
theorem mantissa_append {characters : List Char}
    (stops : ∀ c ∈ others.head?, c.isDigit = false ∧ c ≠ '.') :
    mantissa (mantissa characters ++ others) = mantissa characters := by
  have noDigit : ∀ c ∈ others.head?, c.isDigit = false := fun c starts => (stops c starts).1
  have whole : ∀ c ∈ characters.takeWhile Char.isDigit, c.isDigit = true := fun c => List.mem_takeWhile_imp
  unfold mantissa
  split
  · next more pointed =>
    have fraction : ∀ c ∈ more.takeWhile Char.isDigit, c.isDigit = true := fun c => List.mem_takeWhile_imp
    have point : ∀ c ∈ ('.' :: (more.takeWhile Char.isDigit ++ others)).head?, c.isDigit = false := by
      rintro _ ⟨⟩
      decide
    rw [List.append_assoc, List.cons_append, takeWhile_append_stops whole point, dropWhile_append_stops whole point]
    simp only [takeWhile_append_stops fraction noDigit]
  · rw [List.append_nil, takeWhile_append_stops whole noDigit, dropWhile_append_stops whole noDigit]
    split
    · next more => exact absurd rfl (stops '.' rfl).2
    · rw [List.append_nil]

/-- The mantissa takes in the first character, and with it what makes it the beginning of a number. -/
theorem exists_of_mantissa (starts : StartsNumber first rest) :
    ∃ inner tail, rest = inner ++ tail ∧ mantissa (first :: rest) = first :: inner ∧
      ∀ behind, StartsNumber first (inner ++ behind) := by
  obtain ⟨tail, split⟩ := mantissa_prefix (first :: rest)
  by_cases digit : first.isDigit
  · have shape : ∃ inner, mantissa (first :: rest) = first :: inner := by
      unfold mantissa
      rw [List.takeWhile_cons_of_pos digit]
      exact ⟨_, List.cons_append⟩
    obtain ⟨inner, shape⟩ := shape
    rw [shape] at split
    exact ⟨inner, tail, (List.cons.inj split).2.symm, shape, fun _ => by simp [digit]⟩
  · rw [StartsNumber, Bool.eq_false_iff.mpr digit, Bool.false_or, Bool.and_eq_true, beq_iff_eq] at starts
    obtain ⟨rfl, behind⟩ := starts
    cases rest with
    | nil => cases behind
    | cons c more =>
      have behind : c.isDigit = true := behind
      have shape : mantissa ('.' :: c :: more) = '.' :: c :: more.takeWhile Char.isDigit := by
        simp [mantissa, behind]
      rw [shape] at split
      exact ⟨_, tail, (List.cons.inj split).2.symm, shape, fun _ => by simp [behind]⟩

def numberToken (text : List Char) : Finding :=
  .token (.number (((Number.decimal? text).getD ⟨0, 0⟩).toFloat false))

def numberBehind (mantissa : List Char) : List Char → Finding × Nat
  | mark :: more =>
    if mark == 'e' || mark == 'E' then
      let sign := (more.take 1).filter fun c => c == '+' || c == '-'
      let digits := (more.drop sign.length).takeWhile Char.isDigit
      if digits.isEmpty then (.fault .numberWithoutExponent, mantissa.length + sign.length)
      else (numberToken (mantissa ++ mark :: (sign ++ digits)), mantissa.length + sign.length + digits.length)
    else (numberToken mantissa, mantissa.length - 1)
  | [] => (numberToken mantissa, mantissa.length - 1)

theorem number_eq {inner tail : List Char} (ends : mantissa (first :: (inner ++ tail)) = first :: inner) :
    number first (inner ++ tail) = numberBehind (first :: inner) tail := by
  have behind : (first :: (inner ++ tail)).drop (first :: inner).length = tail := List.drop_left
  unfold number
  dsimp only
  rw [ends, behind]
  rfl

theorem number_append {inner tail : List Char} (ends : mantissa (first :: (inner ++ tail)) = first :: inner)
    (stops : ∀ c ∈ others.head?, c.isDigit = false ∧ c ≠ '.') :
    number first (inner ++ others) = numberBehind (first :: inner) others := by
  refine number_eq ?_
  have same : mantissa (mantissa (first :: (inner ++ tail)) ++ others) = mantissa (first :: (inner ++ tail)) :=
    mantissa_append stops
  rwa [ends] at same

theorem numberBehind_of_plain {tail : List Char} (plain : ∀ c ∈ tail.head?, (c == 'e' || c == 'E') = false)
    (whole : List Char) : numberBehind whole tail = (numberToken whole, whole.length - 1) := by
  cases tail with
  | nil => rfl
  | cons c more => exact if_neg (Bool.eq_false_iff.mp (plain c rfl))

/-- The sign of an exponent is at its beginning. -/
theorem take_sign (characters : List Char) (isSign : Char → Bool) :
    characters.take ((characters.take 1).filter isSign).length = (characters.take 1).filter isSign := by
  cases characters with
  | nil => rfl
  | cons c more =>
    by_cases sign : isSign c <;> simp [sign]

/-- An exponent ends with its digits. -/
theorem exponent_settled {whole more : List Char} {mark : Char} (marked : (mark == 'e' || mark == 'E') = true)
    (found : numberBehind whole (mark :: more) = (.token token, extra)) :
    ∃ power, whole.length + power = extra ∧
      IsSettled power more fun again => numberBehind whole (mark :: again) = (.token token, extra) := by
  rw [numberBehind, if_pos marked] at found
  dsimp only at found
  split at found
  · cases found
  next some =>
  generalize signs : (more.take 1).filter (fun c => c == '+' || c == '-') = sign at found some
  generalize digits : (more.drop sign.length).takeWhile Char.isDigit = power at found some
  have inside : ∀ c ∈ power, c.isDigit = true := by
    rw [← digits]
    exact fun c => List.mem_takeWhile_imp
  have split : more = (sign ++ power) ++ (more.drop sign.length).dropWhile Char.isDigit := by
    have signed : more.take sign.length = sign := by
      rw [← signs]
      exact take_sign more _
    calc
      more = more.take sign.length ++ more.drop sign.length := (List.take_append_drop _ _).symm
      _ = sign ++ (power ++ (more.drop sign.length).dropWhile Char.isDigit) := by
        rw [signed, ← digits, List.takeWhile_append_dropWhile]
      _ = _ := (List.append_assoc _ _ _).symm
  have length : whole.length + sign.length + power.length = extra := congrArg Prod.snd found
  refine ⟨(sign ++ power).length, ?_, sign ++ power, _, split, rfl, fun others apart => ?_⟩
  · rw [List.length_append, ← length, Nat.add_assoc]
  have signsAgain : ((((sign ++ power) ++ others).take 1).filter fun c => c == '+' || c == '-') = sign := by
    have nonempty : sign ++ power ≠ [] := fun none => some (List.isEmpty_iff.mpr (List.append_eq_nil_iff.mp none).2)
    obtain ⟨leading, following, shape⟩ := List.exists_cons_of_ne_nil nonempty
    rw [split, shape] at signs
    rw [shape, ← signs]
    rfl
  have digitsAgain : (((sign ++ power) ++ others).drop sign.length).takeWhile Char.isDigit = power := by
    rw [List.append_assoc, List.drop_left]
    exact takeWhile_append_stops inside (apart.head?_eq_false _ (by decide))
  dsimp only
  rw [numberBehind, if_pos marked]
  dsimp only
  rw [signsAgain, digitsAgain, if_neg some]
  exact found

theorem number_settled (starts : StartsNumber first rest) (found : number first rest = (.token token, extra)) :
    IsSettled extra rest fun again => StartsNumber first again ∧ number first again = (.token token, extra) := by
  obtain ⟨inner, tail, rfl, ends, startsAgain⟩ := exists_of_mantissa starts
  rw [number_eq ends] at found
  by_cases plain : ∀ c ∈ tail.head?, (c == 'e' || c == 'E') = false
  · rw [numberBehind_of_plain plain] at found
    refine ⟨inner, tail, rfl, congrArg Prod.snd found, fun others apart => ⟨startsAgain others, ?_⟩⟩
    rw [number_append ends fun c begins => ⟨apart.head?_eq_false _ (by decide) c begins, ?_⟩]
    · rw [numberBehind_of_plain (apart.head?_eq_false _ (by decide)), found]
    · rintro rfl
      exact absurd (apart '.' begins) (by decide)
  · cases tail with
    | nil => exact absurd (fun _ => nofun) plain
    | cons mark more =>
      have marked : (mark == 'e' || mark == 'E') = true := by
        rw [← Bool.not_eq_false]
        exact fun unmarked => plain fun c begins => Option.some.inj begins ▸ unmarked
      obtain ⟨power, length, digits, behind, rfl, rfl, again⟩ := exponent_settled marked found
      refine ⟨inner ++ mark :: digits, behind, by simp, ?_, fun others apart => ?_⟩
      · rw [← length]
        simp
        omega
      · rw [List.append_assoc, List.cons_append]
        refine ⟨startsAgain _, ?_⟩
        rw [number_append ends, again others apart]
        rintro _ ⟨⟩
        rw [Bool.or_eq_true, beq_iff_eq, beq_iff_eq] at marked
        rcases marked with rfl | rfl <;> decide

/-! ## Strings -/

/-- A text ends at the quote behind its inside, whatever follows the quote. -/
theorem text_of_isInside {inside : List Char} (isInside : Literal.IsInside inside) (behind : List Char) :
    text (inside ++ '\x27' :: behind) =
      (match Literal.decode? inside with
        | some content => .token (.text content)
        | none => .fault .badEscape, inside.length + 1) := by
  unfold text
  rw [isInside.extent, Nat.zero_add]
  dsimp only
  rw [if_pos rfl, List.take_left]
  cases Literal.decode? inside <;> rfl

theorem exists_of_text (found : text rest = (.token token, extra)) :
    ∃ inside behind content, rest = inside ++ '\x27' :: behind ∧ extra = inside.length + 1 ∧
      token = .text content ∧ Literal.IsInside inside ∧ Literal.decode? inside = some content := by
  rcases closing : Literal.extent 0 rest with ⟨last, closed⟩
  cases closed with
  | false =>
    rw [text, closing] at found
    cases found
  | true =>
    obtain ⟨inside, behind, rfl, -, isInside⟩ := Literal.exists_of_extent closing
    rw [text_of_isInside isInside] at found
    cases decoded : Literal.decode? inside with
    | none =>
      rw [decoded] at found
      cases found
    | some content =>
      rw [decoded] at found
      cases found
      exact ⟨inside, behind, content, rfl, rfl, rfl, isInside, decoded⟩

theorem text_settled (found : text rest = (.token token, extra)) :
    IsSettled extra rest fun again => text again = (.token token, extra) := by
  obtain ⟨inside, behind, content, rfl, rfl, rfl, isInside, decoded⟩ := exists_of_text found
  refine ⟨inside ++ ['\x27'], behind, by simp, by simp, fun others _ => ?_⟩
  dsimp only
  rw [List.append_assoc, List.singleton_append, text_of_isInside isInside, decoded]

/-! ## Operators and punctuation -/

/-- No blank is the second character of an operator. -/
theorem pair?_eq_none (apart : IsApart others) : others.head?.bind (pair? first) = none := by
  cases others with
  | nil => rfl
  | cons c more =>
    rcases eq_of_isBlank (apart c rfl) with rfl | rfl | rfl | rfl | rfl <;> (unfold Option.bind pair?; simp)

/-- An operator is found again, and what follows its first character is the same or a blank. -/
theorem symbol_settled (found : symbol first rest = (.token token, extra)) :
    IsSettled extra rest fun again =>
      symbol first again = (.token token, extra) ∧ (again.head? = rest.head? ∨ IsApart again) := by
  unfold symbol at found
  split at found
  · next terminal spelled =>
    cases found
    cases rest with
    | nil => cases spelled
    | cons second more =>
      have again (others : List Char) : ([second] ++ others).head?.bind (pair? first) = some terminal := spelled
      refine ⟨[second], more, rfl, rfl, fun others _ => ⟨?_, .inl rfl⟩⟩
      rw [symbol, again]
  · split at found
    · next single =>
      cases found
      refine ⟨[], rest, rfl, rfl, fun others apart => ⟨?_, .inr apart⟩⟩
      rw [List.nil_append, symbol, pair?_eq_none apart]
      dsimp only
      rw [single]
    · cases found

/-- No operator begins with a point. -/
theorem ne_point_of_symbol (found : symbol first rest = (.token token, extra)) : first ≠ '.' := by
  rintro rfl
  unfold symbol at found
  have none : rest.head?.bind (pair? '.') = none := by cases rest <;> rfl
  rw [none] at found
  cases found

/-! ## Pieces -/

theorem number_token (found : number first rest = (.token token, extra)) : ∃ value, token = .number value := by
  unfold number at found
  dsimp only at found
  split at found
  · split at found
    · split at found
      · cases found
      · cases found
        exact ⟨_, rfl⟩
    · cases found
      exact ⟨_, rfl⟩
  · cases found
    exact ⟨_, rfl⟩

theorem symbol_token (found : symbol first rest = (.token token, extra)) : ∃ terminal, token = .fixed terminal := by
  unfold symbol at found
  split at found
  · cases found
    exact ⟨_, rfl⟩
  · split at found
    · cases found
      exact ⟨_, rfl⟩
    · cases found

/-- The first character of a token says whether it is a word or a text; it is a number or fixed otherwise. -/
theorem token_of_longest (found : longest first rest = (.token token, extra)) :
    startsName first = true ∧ word first rest = (.token token, extra) ∨
      first = '\x27' ∧ text rest = (.token token, extra) ∨
      (∃ value, token = .number value) ∨ ∃ terminal, token = .fixed terminal := by
  unfold longest at found
  split at found
  · cases found
  split at found
  · next starts => exact .inl ⟨starts, found⟩
  split at found
  · exact .inr (.inr (.inl (number_token found)))
  split at found
  · next quote => exact .inr (.inl ⟨beq_iff_eq.mp quote, found⟩)
  split at found
  · cases found
  split at found
  · cases found
  split at found
  · unfold blockComment at found
    split at found <;> cases found
  · exact .inr (.inr (.inr (symbol_token found)))

theorem longest_settled (found : longest first rest = (.token token, extra)) :
    IsSettled extra rest fun again => longest first again = (.token token, extra) := by
  unfold longest at found
  split at found
  · cases found
  next noBlank =>
  split at found
  · next startsWord =>
    refine (word_settled found).imp fun again same => ?_
    unfold longest
    rwa [if_neg noBlank, if_pos startsWord]
  next noWord =>
  split at found
  · next startsNumber =>
    refine (number_settled startsNumber found).imp fun again same => ?_
    unfold longest
    rw [if_neg noBlank, if_neg noWord, if_pos same.1]
    exact same.2
  next noNumber =>
  have noDigit : first.isDigit = false := by
    rw [Bool.or_eq_true, not_or] at noNumber
    exact Bool.eq_false_iff.mpr noNumber.1
  have noNumber (noPoint : first ≠ '.') (again : List Char) : ¬StartsNumber first again := by
    simp [StartsNumber, noDigit, noPoint]
  split at found
  · next quote =>
    refine (text_settled found).imp fun again same => ?_
    have noPoint : first ≠ '.' := by
      rw [beq_iff_eq.mp quote]
      decide
    unfold longest
    rwa [if_neg noBlank, if_neg noWord, if_neg (noNumber noPoint again), if_pos quote]
  next noQuote =>
  split at found
  · cases found
  next noHash =>
  split at found
  · cases found
  next noLine =>
  split at found
  · unfold blockComment at found
    split at found <;> cases found
  next noBlock =>
  refine (symbol_settled found).imp fun again ⟨same, head⟩ => ?_
  -- A blank behind a slash opens no comment either.
  have stays (sign : Char) (noBlank : [' ', '\t', '\r', '\x0c', '\n'].all (!(· == sign) ·) = true)
      (other : ¬(first == '/' && rest.head? == some sign) = true) :
      ¬(first == '/' && again.head? == some sign) = true := by
    rcases head with head | apart
    · rwa [head]
    · intro starts
      rw [Bool.and_eq_true, beq_iff_eq, beq_iff_eq] at starts
      have differs := apart.head?_eq_false (· == sign) noBlank sign starts.2
      simp at differs
  unfold longest
  rwa [if_neg noBlank, if_neg noWord, if_neg (noNumber (ne_point_of_symbol found) again), if_neg noQuote,
    if_neg noHash, if_neg (stays '/' rfl noLine), if_neg (stays '*' rfl noBlock)]

def Stands (lexeme : Lexeme) : Prop :=
  ∃ first more, lexeme.text = String.ofList (first :: more) ∧
    ∀ others, IsApart others → longest first (more ++ others) = (.token lexeme.token, more.length)

/-- The lexemes that the scan finds stand for themselves. -/
theorem stands_of_mem (found : List Piece) (position : Position) (characters : List Char)
    (known : ∀ lexeme, .lexeme lexeme ∈ found → Stands lexeme) :
    ∀ lexeme, .lexeme lexeme ∈ pieces found position characters → Stands lexeme := by
  fun_induction pieces found position characters with
  | case1 found position => exact fun lexeme member => known lexeme (List.mem_reverse.mp member)
  | case2 found position first rest finding extra here text more induction =>
    refine induction fun lexeme member => ?_
    cases finding with
    | blank => exact known lexeme member
    | fault =>
      rcases List.mem_cons.mp member with same | member
      · cases same
      · exact known lexeme member
    | token token =>
      rcases List.mem_cons.mp member with same | member
      · cases same
        obtain ⟨spelling, behind, rfl, rfl, again⟩ := longest_settled here
        exact ⟨first, spelling, congrArg (String.ofList <| first :: ·) List.take_left, again⟩
      · exact known lexeme member

theorem pieces_nil (found : List Piece) (position : Position) : pieces found position [] = found.reverse := by
  rw [pieces]

/-- Blanks are passed over. -/
theorem pieces_blanks {separator : List Char} (blank : ∀ c ∈ separator, isBlank c = true) (found : List Piece)
    (position : Position) (characters : List Char) :
    pieces found position (separator ++ characters) = pieces found (position.after separator) characters := by
  induction separator generalizing position with
  | nil => rfl
  | cons c separator induction =>
    have passed : longest c (separator ++ characters) = (.blank, 0) := by
      unfold longest
      rw [if_pos (blank c List.mem_cons_self)]
    rw [List.cons_append, pieces, passed]
    exact induction (fun other member => blank other (List.mem_cons_of_mem c member)) _

theorem pieces_lexeme {lexeme : Lexeme} (stands : Stands lexeme) {others : List Char} (apart : IsApart others)
    (found : List Piece) (position : Position) :
    pieces found position (lexeme.text.toList ++ others) =
      pieces (.lexeme { lexeme with position := position } :: found) (position.after lexeme.text.toList) others := by
  obtain ⟨first, more, spelled, finds⟩ := stands
  rw [spelled, String.toList_ofList, List.cons_append, pieces, finds others apart]
  dsimp only
  rw [List.take_left, List.drop_left]

/-! ## Spaced lexemes -/

def behindSeparators (separators : List String) (lexemes : List Lexeme) : String :=
  String.join (List.zipWith (fun separator lexeme => separator ++ lexeme.text) separators lexemes)

/-- Whether a text keeps lexemes apart: it is a run of blanks, at least one. -/
def Separates (separator : String) : Prop :=
  separator ≠ "" ∧ ∀ c ∈ separator.toList, c ∈ [' ', '\t', '\r', '\x0c', '\n']

theorem Separates.isBlank {separator : String} (separates : Separates separator) :
    ∀ c ∈ separator.toList, Scan.isBlank c = true := by
  intro c member
  simpa [Scan.isBlank, or_assoc] using separates.2 c member

theorem toList_behindSeparators_cons (separator : String) (separators : List String) (lexeme : Lexeme)
    (lexemes : List Lexeme) :
    (behindSeparators (separator :: separators) (lexeme :: lexemes)).toList =
      separator.toList ++ (lexeme.text.toList ++ (behindSeparators separators lexemes).toList) := by
  unfold behindSeparators
  rw [List.zipWith_cons_cons, String.join_cons, String.toList_append, String.toList_append, List.append_assoc]

theorem isApart_behindSeparators {separators : List String} (separate : ∀ separator ∈ separators, Separates separator)
    (lexemes : List Lexeme) : IsApart (behindSeparators separators lexemes).toList := by
  cases separators with
  | nil => exact isApart_nil
  | cons separator separators =>
    cases lexemes with
    | nil => exact isApart_nil
    | cons lexeme lexemes =>
      have separates := separate separator List.mem_cons_self
      rw [toList_behindSeparators_cons]
      cases shape : separator.toList with
      | nil => exact absurd (String.toList_eq_nil_iff.mp shape) separates.1
      | cons c more =>
        have blank : isBlank c = true := separates.isBlank c (by simp [shape])
        exact isApart_cons blank _

theorem pieces_behindSeparators {lexemes : List Lexeme} (stand : ∀ lexeme ∈ lexemes, Stands lexeme)
    {separators : List String} (count : separators.length = lexemes.length)
    (separate : ∀ separator ∈ separators, Separates separator) (found : List Piece) (position : Position) :
    ∃ again : List Lexeme,
      pieces found position (behindSeparators separators lexemes).toList = found.reverse ++ again.map .lexeme ∧
      again.map Lexeme.token = lexemes.map Lexeme.token ∧ again.map Lexeme.text = lexemes.map Lexeme.text := by
  induction lexemes generalizing separators found position with
  | nil =>
    obtain rfl := List.length_eq_zero_iff.mp count
    refine ⟨[], ?_, rfl, rfl⟩
    rw [show (behindSeparators [] []).toList = [] from rfl, pieces_nil]
    exact (List.append_nil _).symm
  | cons lexeme lexemes induction =>
    cases separators with
    | nil => cases count
    | cons separator separators =>
      have behind := (List.forall_mem_cons.mp separate).2
      have apart := isApart_behindSeparators behind lexemes
      obtain ⟨again, scanned, tokens, texts⟩ := induction (List.forall_mem_cons.mp stand).2 (Nat.succ.inj count) behind
        (.lexeme { lexeme with position := position.after separator.toList } :: found)
        ((position.after separator.toList).after lexeme.text.toList)
      refine ⟨{ lexeme with position := position.after separator.toList } :: again, ?_, ?_, ?_⟩
      · rw [toList_behindSeparators_cons, pieces_blanks (separate separator List.mem_cons_self).isBlank,
          pieces_lexeme (stand lexeme List.mem_cons_self) apart, scanned]
        simp
      · rw [List.map_cons, tokens, List.map_cons]
      · rw [List.map_cons, texts, List.map_cons]

end Scan

/-- The texts of lexemes, with one of the separators between each of them and the next. -/
def spaced (separators : List String) : List Lexeme → String
  | [] => ""
  | first :: rest => first.text ++ Scan.behindSeparators separators rest

theorem stands_of_tokenize {source : String} {lexemes : List Lexeme} (tokenized : tokenize source = .ok lexemes) :
    ∀ lexeme ∈ lexemes, Scan.Stands lexeme := by
  intro lexeme member
  have found : Piece.lexeme lexeme ∈ scan source := by
    rw [scan_of_tokenize tokenized]
    exact List.mem_map_of_mem member
  exact Scan.stands_of_mem [] .start source.toList nofun lexeme found

theorem tokenize_of_scan {source : String} {lexemes : List Lexeme} (scanned : scan source = lexemes.map .lexeme) :
    tokenize source = .ok lexemes := by
  have proper : (lexemes.map Piece.lexeme).filterMap Piece.malformed? = [] := by
    simp [Piece.malformed?]
  have all : (lexemes.map Piece.lexeme).filterMap Piece.lexeme? = lexemes := by
    rw [List.filterMap_map]
    exact List.filterMap_some
  rw [tokenize_eq, scanned, proper, all]
  rfl

theorem exists_tokenize {lexemes : List Lexeme} (stand : ∀ lexeme ∈ lexemes, Scan.Stands lexeme) :
    ∃ source again, tokenize source = .ok again ∧ again.map Lexeme.token = lexemes.map Lexeme.token := by
  have separate : ∀ separator ∈ List.replicate lexemes.length " ", Scan.Separates separator := by
    intro separator member
    obtain rfl := List.eq_of_mem_replicate member
    simp [Scan.Separates]
  obtain ⟨again, scanned, tokens, -⟩ :=
    Scan.pieces_behindSeparators stand List.length_replicate separate [] .start
  exact ⟨_, again, tokenize_of_scan scanned, tokens⟩

/-- The texts of the tokens of a source are the same tokens again when they are written one behind the other with
blanks between them, however many and of whatever kind. -/
theorem tokenize_spaced {source : String} {lexemes : List Lexeme} (tokenized : tokenize source = .ok lexemes)
    {separators : List String} (count : separators.length = lexemes.length - 1)
    (separate : ∀ separator ∈ separators, Scan.Separates separator) :
    ∃ again, tokenize (spaced separators lexemes) = .ok again ∧
      again.map Lexeme.token = lexemes.map Lexeme.token ∧ again.map Lexeme.text = lexemes.map Lexeme.text := by
  have stand := stands_of_tokenize tokenized
  cases lexemes with
  | nil =>
    have scanned : scan "" = [] := Scan.pieces_nil [] .start
    exact ⟨[], tokenize_of_scan scanned, rfl, rfl⟩
  | cons first rest =>
    obtain ⟨again, scanned, tokens, texts⟩ := Scan.pieces_behindSeparators (List.forall_mem_cons.mp stand).2 count
      separate [.lexeme { first with position := .start }] (Position.start.after first.text.toList)
    refine ⟨{ first with position := .start } :: again, tokenize_of_scan ?_, ?_, ?_⟩
    · have apart := Scan.isApart_behindSeparators separate rest
      rw [scan, spaced, String.toList_append, Scan.pieces_lexeme (stand first List.mem_cons_self) apart, scanned]
      rfl
    · rw [List.map_cons, tokens, List.map_cons]
    · rw [List.map_cons, texts, List.map_cons]

theorem tokenize_dense :
    tokenize "s<>'\\''in/*,*/t/u" = .ok [⟨.name "s", "s", ⟨1, 1⟩⟩, ⟨.fixed .lessGreater, "<>", ⟨1, 2⟩⟩,
      ⟨.text [39], "'\\''", ⟨1, 4⟩⟩, ⟨.fixed .inWord, "in", ⟨1, 8⟩⟩, ⟨.name "t", "t", ⟨1, 15⟩⟩,
      ⟨.fixed .slash, "/", ⟨1, 16⟩⟩, ⟨.name "u", "u", ⟨1, 17⟩⟩] := by
  with_unfolding_all rfl

/-- A string with a quote inside, a keyword in front of a comment, and a division sign, with a separator of each
kind. -/
theorem tokenize_spaced_dense :
    ∃ lexemes again, tokenize "s<>'\\''in/*,*/t/u" = .ok lexemes ∧
      tokenize "s <>\t'\\''\n\nin\rt\x0c /\nu" = .ok again ∧
      again.map Lexeme.token = [.name "s", .fixed .lessGreater, .text [39], .fixed .inWord, .name "t", .fixed .slash,
        .name "u"] := by
  have separate : ∀ separator ∈ [" ", "\t", "\n\n", "\r", "\x0c ", "\n"], Scan.Separates separator := by
    simp [Scan.Separates]
  obtain ⟨again, tokenized, tokens, -⟩ := tokenize_spaced tokenize_dense rfl separate
  exact ⟨_, again, tokenize_dense, tokenized, tokens⟩

end LiveExpr
