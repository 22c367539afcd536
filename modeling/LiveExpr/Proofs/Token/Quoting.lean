import LiveExpr.Proofs.Token.Spacing

/-!
String literals in a source. Every byte string can be written between quotes, each spelling of it is one token that
stands for it, and no other token stands for a byte string. What is quoted but spells nothing is malformed.
-/

namespace LiveExpr

/-- The characters between quotes. -/
def quoted (inside : List Char) : String :=
  String.ofList ('\x27' :: (inside ++ ['\x27']))

theorem toList_quoted (inside : List Char) : (quoted inside).toList = '\x27' :: (inside ++ ['\x27']) :=
  String.toList_ofList

theorem quoted_injective {inside other : List Char} (same : quoted inside = quoted other) : inside = other := by
  have characters := congrArg String.toList same
  rw [toList_quoted, toList_quoted] at characters
  exact List.append_cancel_right (List.cons.inj characters).2

namespace Scan

open Literal

/-- The piece that the characters between quotes make. -/
def quotedPiece (inside : List Char) (position : Position) : Piece :=
  match decode? inside with
  | some content => .lexeme ⟨.text content, quoted inside, position⟩
  | none => .malformed ⟨.badEscape, quoted inside, position⟩

theorem longest_quote (rest : List Char) : longest '\x27' rest = text rest :=
  rfl

/-- The inside of a literal between quotes is one piece, whatever follows it. -/
theorem pieces_quoted {inside : List Char} (isInside : IsInside inside) (behind : List Char) (found : List Piece)
    (position : Position) :
    pieces found position ((quoted inside).toList ++ behind) =
      pieces (quotedPiece inside position :: found) (position.after (quoted inside).toList) behind := by
  have split : inside ++ ['\x27'] ++ behind = inside ++ '\x27' :: behind := by
    rw [List.append_assoc, List.singleton_append]
  have taken : (inside ++ ['\x27'] ++ behind).take (inside.length + 1) = inside ++ ['\x27'] := List.take_left' (by simp)
  have left : (inside ++ ['\x27'] ++ behind).drop (inside.length + 1) = behind := List.drop_left' (by simp)
  have here := text_of_isInside isInside behind
  rw [← split] at here
  rw [toList_quoted, List.cons_append, pieces, longest_quote, here]
  dsimp only
  rw [taken, left]
  unfold quotedPiece
  cases decode? inside <;> rfl

theorem Stands.exists_quoted {lexeme : Lexeme} (stands : Stands lexeme) {bytes : Bytes}
    (isText : lexeme.token = .text bytes) : ∃ inside, lexeme.text = quoted inside ∧ Spells inside bytes := by
  obtain ⟨first, more, spelled, finds⟩ := stands
  have found := finds [] isApart_nil
  rw [isText, List.append_nil] at found
  obtain ⟨-, word⟩ | ⟨rfl, text⟩ | ⟨_, number⟩ | ⟨_, fixed⟩ := token_of_longest found
  · rw [Scan.word] at word
    split at word <;> cases word
  · obtain ⟨inside, behind, content, rfl, length, same, isInside, decoded⟩ := exists_of_text text
    cases same
    -- The lexeme ends with the quote, so nothing is behind it.
    obtain rfl : behind = [] := by
      rw [List.length_append, List.length_cons] at length
      exact List.length_eq_zero_iff.mp (by omega)
    exact ⟨inside, spelled, isInside.spells decoded⟩
  · cases number
  · cases fixed

end Scan

theorem scan_quoted {inside : List Char} (isInside : Literal.IsInside inside) :
    scan (quoted inside) = [Scan.quotedPiece inside .start] := by
  have scanned := Scan.pieces_quoted isInside [] [] .start
  rwa [List.append_nil, Scan.pieces_nil] at scanned

theorem tokenize_of_spells {inside : List Char} {bytes : Bytes} (spells : Literal.Spells inside bytes) :
    tokenize (quoted inside) = .ok [⟨.text bytes, quoted inside, .start⟩] := by
  have scanned := scan_quoted spells.isInside
  rw [Scan.quotedPiece, spells.decode?] at scanned
  exact tokenize_of_scan scanned

/-- String literals stand for every byte string and for nothing else. Each byte string has a spelling; a spelling
between quotes is one token, which stands for the bytes, and so is nothing else between quotes; every token that stands
for a byte string is quoted and spells it; and what is quoted without spelling anything is malformed for its escape,
alone and at any place of a source. -/
theorem tokenize_quoted :
    (∀ bytes, ∃ inside, Literal.Spells inside bytes) ∧
      (∀ inside bytes, Literal.Spells inside bytes ↔
        tokenize (quoted inside) = .ok [⟨.text bytes, quoted inside, .start⟩]) ∧
      (∀ source lexemes, tokenize source = .ok lexemes → ∀ lexeme ∈ lexemes, ∀ bytes, lexeme.token = .text bytes →
        ∃ inside, lexeme.text = quoted inside ∧ Literal.Spells inside bytes) ∧
      ∀ inside, Literal.IsInside inside → (∀ bytes, ¬ Literal.Spells inside bytes) →
        tokenize (quoted inside) = .error [⟨.badEscape, quoted inside, .start⟩] ∧
          ∀ found position behind, Scan.pieces found position ((quoted inside).toList ++ behind) =
            Scan.pieces (.malformed ⟨.badEscape, quoted inside, position⟩ :: found)
              (position.after (quoted inside).toList) behind := by
  have ofText (source : String) (lexemes : List Lexeme) (tokenized : tokenize source = .ok lexemes) (lexeme : Lexeme)
      (member : lexeme ∈ lexemes) (bytes : Bytes) (isText : lexeme.token = .text bytes) :
      ∃ inside, lexeme.text = quoted inside ∧ Literal.Spells inside bytes :=
    (stands_of_tokenize tokenized lexeme member).exists_quoted isText
  refine ⟨Literal.exists_spells, fun inside bytes => ⟨tokenize_of_spells, fun tokenized => ?_⟩, ofText,
    fun inside isInside spellsNone => ?_⟩
  · obtain ⟨other, same, spells⟩ := ofText _ _ tokenized _ List.mem_cons_self bytes rfl
    rwa [quoted_injective same]
  · have undecoded : Literal.decode? inside = none :=
      Option.eq_none_iff_forall_ne_some.mpr fun bytes decoded => spellsNone bytes (isInside.spells decoded)
    have scanned := scan_quoted isInside
    rw [Scan.quotedPiece, undecoded] at scanned
    refine ⟨?_, fun found position behind => ?_⟩
    · rw [tokenize_eq, scanned]
      rfl
    · rw [Scan.pieces_quoted isInside, Scan.quotedPiece, undecoded]

/-- A character of two bytes, a hexadecimal escape and an escaped quote are one token. After an escape without its
second digit a quote still closes the literal, which is malformed. -/
theorem tokenize_quoted_escapes :
    tokenize "'é\\x4a\\''" = .ok [⟨.text [0xc3, 0xa9, 0x4a, 0x27], "'é\\x4a\\''", .start⟩] ∧
      tokenize "'\\x4'" = .error [⟨.badEscape, "'\\x4'", .start⟩] := by
  obtain ⟨-, spelled, -, unspelled⟩ := tokenize_quoted
  have accented : Literal.IsPlain 'é' := by unfold Literal.IsPlain; decide
  have digit : Literal.IsPlain '4' := by unfold Literal.IsPlain; decide
  have four : Literal.IsHexDigit 4 '4' := by decide
  have ten : Literal.IsHexDigit 10 'a' := by decide
  have spells : Literal.Spells ['é', '\\', 'x', '4', 'a', '\\', '\x27'] [0xc3, 0xa9, 0x4a, 0x27] :=
    .plain accented (.hex four ten (.escape (by decide) .nil))
  have isInside : Literal.IsInside ['\\', 'x', '4'] := .pair (by decide) (.plain digit .nil)
  have escapes : quoted ['é', '\\', 'x', '4', 'a', '\\', '\x27'] = "'é\\x4a\\''" := rfl
  have unfinished : quoted ['\\', 'x', '4'] = "'\\x4'" := rfl
  rw [← escapes, ← unfinished]
  refine ⟨(spelled _ _).mp spells, (unspelled _ isInside fun bytes spells => ?_).1⟩
  cases spells.decode?

end LiveExpr
