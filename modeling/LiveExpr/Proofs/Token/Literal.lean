import LiveExpr.Token.Literal
import Mathlib.Data.Nat.Digits.Defs
import Mathlib.Tactic.IntervalCases
import Mathlib.Tactic.SplitIfs

/-!
What stands between the quotes of a string literal. The scan takes each backslash with the character behind it and looks
for the closing quote; the decoder takes each escape as a whole, which may be longer. Both take the same characters,
since no hexadecimal digit is a quote or a backslash.
-/

namespace LiveExpr.Literal

/-! ## Insides of literals -/

def IsPlain (c : Char) : Prop :=
  c ≠ '\x27' ∧ c ≠ '\\' ∧ c ≠ '\n'

/-- Whether the characters may stand between the quotes of a literal: every other one is plain, or has a backslash in
front of it and is on the same line. -/
inductive IsInside : List Char → Prop
  | nil : IsInside []
  | plain {c : Char} {rest : List Char} (plain : IsPlain c) (more : IsInside rest) : IsInside (c :: rest)
  | pair {c : Char} {rest : List Char} (sameLine : c ≠ '\n') (more : IsInside rest) : IsInside ('\\' :: c :: rest)

theorem extent_plain {c : Char} (plain : IsPlain c) (taken : Nat) (rest : List Char) :
    extent taken (c :: rest) = extent (taken + 1) rest := by
  obtain ⟨noQuote, noEscape, sameLine⟩ := plain
  rw [extent.eq_def]
  split
  · next same => cases same
  · next same => exact absurd (List.cons.inj same).1 noEscape
  · next same => exact absurd (List.cons.inj same).1 noEscape
  · next same =>
    cases same
    rw [if_neg noQuote, if_neg sameLine]

theorem IsInside.extent {inside : List Char} (isInside : IsInside inside) (taken : Nat) (behind : List Char) :
    Literal.extent taken (inside ++ '\x27' :: behind) = (taken + inside.length, true) := by
  induction isInside generalizing taken with
  | nil => simp [Literal.extent]
  | plain plain _ induction =>
    rw [List.cons_append, extent_plain plain, induction, List.length_cons, Nat.add_assoc, Nat.add_comm 1]
  | pair sameLine _ induction =>
    rw [List.cons_append, List.cons_append, Literal.extent, if_neg sameLine, induction]
    simp only [List.length_cons, Prod.mk.injEq, and_true]
    omega

/-- What is taken up to a quote is the inside of a literal. -/
theorem exists_of_extent {taken last : Nat} {characters : List Char} (closed : extent taken characters = (last, true)) :
    ∃ inside behind, characters = inside ++ '\x27' :: behind ∧ last = taken + inside.length ∧ IsInside inside := by
  fun_induction extent taken characters with
  | case1 | case2 | case4 | case6 => cases closed
  | case3 taken c rest sameLine induction =>
    obtain ⟨inside, behind, rfl, rfl, isInside⟩ := induction closed
    refine ⟨'\\' :: c :: inside, behind, rfl, ?_, .pair sameLine isInside⟩
    simp only [List.length_cons]
    omega
  | case5 taken rest =>
    cases closed
    exact ⟨[], rest, rfl, rfl, .nil⟩
  | case7 taken c rest noPair noEscapeAtEnd noQuote sameLine induction =>
    obtain ⟨inside, behind, rfl, rfl, isInside⟩ := induction closed
    have noEscape : c ≠ '\\' := by
      rintro rfl
      cases shape : inside ++ '\x27' :: behind with
      | nil => exact noEscapeAtEnd rfl shape
      | cons second more => exact noPair second more rfl shape
    refine ⟨c :: inside, behind, rfl, ?_, .plain ⟨noQuote, noEscape, sameLine⟩ isInside⟩
    simp only [List.length_cons]
    omega

section Rest

variable {c : Char} {rest : List Char}

theorem IsInside.of_plain (isInside : IsInside (c :: rest)) (plain : IsPlain c) : IsInside rest := by
  cases isInside with
  | plain _ more => exact more
  | pair => exact absurd rfl plain.2.1

theorem IsInside.of_pair (isInside : IsInside ('\\' :: c :: rest)) : IsInside rest := by
  cases isInside with
  | plain plain => exact absurd rfl plain.2.1
  | pair _ more => exact more

end Rest

/-! ## Spellings -/

def escapes : List (Char × UInt8) :=
  [('\\', 92), ('\x27', 39), ('n', 10), ('t', 9), ('r', 13), ('0', 0)]

def IsHexDigit (value : Nat) (c : Char) : Prop :=
  value < 16 ∧ (c = Nat.digitChar value ∨ c = (Nat.digitChar value).toUpper)

/-- Whether the characters spell the bytes when they stand between quotes. -/
inductive Spells : List Char → Bytes → Prop
  | nil : Spells [] []
  | plain {c : Char} {rest : List Char} {bytes : Bytes} (plain : IsPlain c) (more : Spells rest bytes) :
      Spells (c :: rest) (String.utf8EncodeChar c ++ bytes)
  | escape {c : Char} {byte : UInt8} {rest : List Char} {bytes : Bytes} (listed : (c, byte) ∈ escapes)
      (more : Spells rest bytes) : Spells ('\\' :: c :: rest) (byte :: bytes)
  | hex {high low : Nat} {first second : Char} {rest : List Char} {bytes : Bytes} (leading : IsHexDigit high first)
      (following : IsHexDigit low second) (more : Spells rest bytes) :
      Spells ('\\' :: 'x' :: first :: second :: rest) (UInt8.ofNat (16 * high + low) :: bytes)

instance (value : Nat) (c : Char) : Decidable (IsHexDigit value c) :=
  inferInstanceAs (Decidable (_ ∧ _))

theorem IsHexDigit.isPlain {value : Nat} {c : Char} (digit : IsHexDigit value c) : IsPlain c := by
  obtain ⟨bound, spelled⟩ := digit
  unfold IsPlain
  interval_cases value <;> rcases spelled with rfl | rfl <;> decide

theorem Spells.isInside {inside : List Char} {bytes : Bytes} (spells : Spells inside bytes) : IsInside inside := by
  induction spells with
  | nil => exact .nil
  | plain plain _ induction => exact .plain plain induction
  | @escape c _ _ _ listed _ induction =>
    refine .pair ?_ induction
    rintro rfl
    simp [escapes] at listed
  | hex leading following _ induction =>
    exact .pair (by decide) (.plain leading.isPlain (.plain following.isPlain induction))

theorem exists_spells (bytes : Bytes) : ∃ inside, Spells inside bytes := by
  induction bytes with
  | nil => exact ⟨[], .nil⟩
  | cons byte bytes induction =>
    obtain ⟨inside, spells⟩ := induction
    have bound := byte.toNat_lt
    have high : IsHexDigit (byte.toNat / 16) (Nat.digitChar (byte.toNat / 16)) := ⟨by omega, .inl rfl⟩
    have low : IsHexDigit (byte.toNat % 16) (Nat.digitChar (byte.toNat % 16)) := ⟨by omega, .inl rfl⟩
    have same : UInt8.ofNat (16 * (byte.toNat / 16) + byte.toNat % 16) = byte := by
      rw [Nat.div_add_mod, UInt8.ofNat_toNat]
    have spelled := Spells.hex high low spells
    rw [same] at spelled
    exact ⟨_, spelled⟩

/-! ## Decoding -/

theorem escape?_eq_some_iff {c : Char} {byte : UInt8} : escape? c = some byte ↔ (c, byte) ∈ escapes := by
  unfold escape? escapes
  split_ifs <;> simp_all [eq_comm]

theorem hexDigit?_of_isHexDigit {value : Nat} {c : Char} (digit : IsHexDigit value c) :
    hexDigit? c = some (UInt8.ofNat value) := by
  obtain ⟨bound, spelled⟩ := digit
  interval_cases value <;> rcases spelled with rfl | rfl <;> decide

theorem between_iff {first last c : Char} :
    (decide (first ≤ c) && decide (c ≤ last)) = true ↔ first.toNat ≤ c.toNat ∧ c.toNat ≤ last.toNat := by
  rw [Bool.and_eq_true, decide_eq_true_eq, decide_eq_true_eq]
  rfl

/-- A range of characters is hexadecimal digits if each number in it is that of one. -/
theorem isHexDigit_of_between {first last c : Char} (least : Nat)
    (digits : ∀ number < last.toNat + 1, first.toNat ≤ number →
      IsHexDigit (number - first.toNat + least) (Char.ofNat number))
    (between : first.toNat ≤ c.toNat ∧ c.toNat ≤ last.toNat) : IsHexDigit (c.toNat - first.toNat + least) c := by
  have digit := digits c.toNat (Nat.lt_succ_of_le between.2) between.1
  rwa [Char.ofNat_toNat] at digit

theorem exists_of_hexDigit? {c : Char} {digit : UInt8} (read : hexDigit? c = some digit) :
    ∃ value, IsHexDigit value c ∧ digit = UInt8.ofNat value := by
  unfold hexDigit? at read
  simp only [between_iff] at read
  split_ifs at read with decimal lower upper
  · exact ⟨_, isHexDigit_of_between 0 (by decide) decimal, (Option.some.inj read).symm⟩
  · exact ⟨_, isHexDigit_of_between 10 (by decide) lower, (Option.some.inj read).symm⟩
  · exact ⟨_, isHexDigit_of_between 10 (by decide) upper, (Option.some.inj read).symm⟩

theorem ofNat_pair (high low : Nat) :
    UInt8.ofNat (16 * high + low) = UInt8.ofNat high * 16 + UInt8.ofNat low := by
  rw [UInt8.ofNat_add, UInt8.ofNat_mul, UInt8.mul_comm]
  rfl

theorem decode?_plain {c : Char} (plain : IsPlain c) (rest : List Char) :
    decode? (c :: rest) = (decode? rest).map (String.utf8EncodeChar c ++ ·) := by
  rw [decode?.eq_def]
  split
  · next same => cases same
  · next same => exact absurd (List.cons.inj same).1 plain.2.1
  · next same => exact absurd (List.cons.inj same).1 plain.2.1
  · next same => exact absurd (List.cons.inj same).1 plain.2.1
  · next same =>
    cases same
    rfl

theorem Spells.decode? {inside : List Char} {bytes : Bytes} (spells : Spells inside bytes) :
    Literal.decode? inside = some bytes := by
  induction spells with
  | nil => rw [Literal.decode?]
  | plain plain _ induction => rw [decode?_plain plain, induction, Option.map_some]
  | @escape c byte rest bytes listed _ induction =>
    have noHex : c ≠ 'x' := by
      rintro rfl
      simp [escapes] at listed
    rw [Literal.decode?, escape?_eq_some_iff.mpr listed, induction]
    · rfl
    · exact fun _ _ _ same => absurd same noHex
  | hex leading following _ induction =>
    rw [Literal.decode?, hexDigit?_of_isHexDigit leading, hexDigit?_of_isHexDigit following, induction, ofNat_pair]
    rfl

theorem IsInside.spells {inside : List Char} (isInside : IsInside inside) {bytes : Bytes}
    (decoded : Literal.decode? inside = some bytes) : Spells inside bytes := by
  fun_induction Literal.decode? inside generalizing bytes with
  | case1 =>
    cases decoded
    exact .nil
  | case2 high low rest induction =>
    simp only [Option.bind_eq_bind, Option.bind_eq_some_iff, Option.some.injEq] at decoded
    obtain ⟨_, first, _, second, more, rest, rfl⟩ := decoded
    obtain ⟨high, leading, rfl⟩ := exists_of_hexDigit? first
    obtain ⟨low, following, rfl⟩ := exists_of_hexDigit? second
    rw [← ofNat_pair]
    have behind := (isInside.of_pair.of_plain leading.isPlain).of_plain following.isPlain
    exact .hex leading following (induction behind rest)
  | case3 c rest _ induction =>
    simp only [Option.bind_eq_bind, Option.bind_eq_some_iff, Option.some.injEq] at decoded
    obtain ⟨byte, escaped, more, rest, rfl⟩ := decoded
    exact .escape (escape?_eq_some_iff.mp escaped) (induction isInside.of_pair rest)
  | case4 => cases decoded
  | case5 c rest _ noPair noEscapeAtEnd induction =>
    obtain ⟨more, rest, rfl⟩ := Option.map_eq_some_iff.mp decoded
    cases isInside with
    | plain plain isInside => exact .plain plain (induction isInside rest)
    | pair => exact absurd rfl (noPair _ _ rfl)

end LiveExpr.Literal
