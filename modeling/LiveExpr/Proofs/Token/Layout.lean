import LiveExpr.Token.Scan
import Mathlib.Data.List.DropRight
import Mathlib.Data.List.Infix
import Mathlib.Data.List.TakeWhile

/-!
How a source is laid out. The pieces that the scan reports stand in the source one behind the other, each at the line
and column that one gets by counting the characters in front of it, and what stands between them are blanks and
complete comments.
-/

namespace LiveExpr

/-! ## Positions -/

namespace Position

/-- The place behind the given beginning of a source: the line counts its newlines, the column the characters behind
the last of them. -/
def behind (characters : List Char) : Position :=
  ⟨1 + characters.count '\n', 1 + (characters.rtakeWhile (· != '\n')).length⟩

theorem behind_concat (characters : List Char) (c : Char) :
    behind (characters ++ [c]) = (behind characters).next c := by
  unfold behind next
  by_cases newline : c = '\n'
  · subst newline
    simp [Nat.add_assoc]
  · have counted : (characters ++ [c]).count '\n' = characters.count '\n' := by
      simp [List.count_append, newline]
    rw [if_neg newline, counted]
    rw [List.rtakeWhile_concat_pos _ _ _ (by simpa using newline)]
    simp [Nat.add_assoc]

theorem after_append (position : Position) (first second : List Char) :
    position.after (first ++ second) = (position.after first).after second :=
  List.foldl_append

/-- To go on from place to place comes to the same as to count from the start. -/
theorem behind_append (first second : List Char) : behind (first ++ second) = (behind first).after second := by
  induction second using List.reverseRecOn with
  | nil => rw [List.append_nil]; rfl
  | append_singleton second c induction => rw [← List.append_assoc, behind_concat, induction, after_append]; rfl

theorem after_start (characters : List Char) : start.after characters = behind characters :=
  (behind_append [] characters).symm

end Position

/-! ## Pieces -/

namespace Piece

/-- The slice of the source that a piece quotes. -/
def text : Piece → String
  | .lexeme found => found.text
  | .malformed found => found.text

def position : Piece → Position
  | .lexeme found => found.position
  | .malformed found => found.position

/-- The piece as one that is no token. -/
def malformed? : Piece → Option Malformed
  | .lexeme _ => none
  | .malformed found => some found

end Piece

namespace Scan

/-- What is passed over in front of `rest`: a blank, a comment to the end of the line, or a comment up to the first
star and slash behind its opening. -/
inductive Skipped (rest : List Char) : List Char → Prop
  | blank {c : Char} (blank : c ∈ [' ', '\t', '\r', '\x0c', '\n']) : Skipped rest [c]
  | line {opening content : List Char} (opens : opening = ['#'] ∨ opening = ['/', '/'])
      (oneLine : ∀ c ∈ content, c ≠ '\n' ∧ c ≠ '\r') (ends : ∀ c ∈ rest.head?, c = '\n' ∨ c = '\r') :
      Skipped rest (opening ++ content)
  | block {content : List Char} (first : ¬ ['*', '/'] <:+: content ++ ['*']) :
      Skipped rest (['/', '*'] ++ content ++ ['*', '/'])

/-- What may stand in front of `rest` between two pieces. -/
inductive Gap (rest : List Char) : List Char → Prop
  | nil : Gap rest []
  | cons {first gap : List Char} (skipped : Skipped (gap ++ rest) first) (more : Gap rest gap) :
      Gap rest (first ++ gap)

/-- How the pieces lie in the characters that follow those in `before`: each is a slice at its position, and what is no
piece is a gap. -/
inductive Layout : (before characters : List Char) → List Piece → Prop
  | ending {before gap : List Char} (last : Gap [] gap) : Layout before gap []
  | piece {before gap slice rest : List Char} {piece : Piece} {pieces : List Piece} (between : Gap (slice ++ rest) gap)
      (nonempty : slice ≠ []) (quoted : piece.text = String.ofList slice)
      (placed : piece.position = .behind (before ++ gap))
      (more : Layout (before ++ gap ++ slice) rest pieces) :
      Layout before (gap ++ (slice ++ rest)) (piece :: pieces)

namespace Layout

variable {before characters first rest : List Char} {pieces : List Piece}

/-- What is passed over in front of the first gap belongs to it. -/
theorem skip (skipped : Skipped rest first) (layout : Layout (before ++ first) rest pieces) :
    Layout before (first ++ rest) pieces := by
  cases layout with
  | ending last =>
    refine .ending (.cons ?_ last)
    rwa [List.append_nil]
  | piece between nonempty quoted placed more =>
    rw [← List.append_assoc]
    refine .piece (.cons skipped between) nonempty quoted ?_ ?_
    · rwa [← List.append_assoc]
    · rwa [← List.append_assoc]

theorem slice_of_mem (layout : Layout before characters pieces) {piece : Piece} (member : piece ∈ pieces) :
    ∃ front behind, before ++ characters = front ++ piece.text.toList ++ behind ∧
      piece.position = .behind front := by
  induction layout with
  | ending => cases member
  | @piece before gap slice rest head others between nonempty quoted placed more induction =>
    rcases List.mem_cons.mp member with rfl | member
    · refine ⟨before ++ gap, rest, ?_, placed⟩
      rw [quoted, String.toList_ofList]
      simp only [List.append_assoc]
    · obtain ⟨front, behind, split, position⟩ := induction member
      refine ⟨front, behind, ?_, position⟩
      rw [← split]
      simp only [List.append_assoc]

end Layout

/-! ## Blanks and comments -/

theorem skipped_of_isBlank {c : Char} {rest : List Char} (blank : isBlank c = true) : Skipped rest [c] := by
  refine .blank ?_
  simpa [isBlank, or_assoc] using blank

/-- What the end of a line stops. -/
def staysOnLine (c : Char) : Bool :=
  c != '\n' && c != '\r'

theorem skipped_lineComment {opening : List Char} (opens : opening = ['#'] ∨ opening = ['/', '/'])
    (rest : List Char) :
    Skipped (rest.drop (rest.takeWhile staysOnLine).length)
      (opening ++ rest.take (rest.takeWhile staysOnLine).length) := by
  have split := List.takeWhile_append_dropWhile (p := staysOnLine) (l := rest)
  have taking : rest.take (rest.takeWhile staysOnLine).length = rest.takeWhile staysOnLine :=
    calc rest.take (rest.takeWhile staysOnLine).length
      _ = (rest.takeWhile staysOnLine ++ rest.dropWhile staysOnLine).take (rest.takeWhile staysOnLine).length := by
        rw [split]
      _ = rest.takeWhile staysOnLine := List.take_left
  have dropping : rest.drop (rest.takeWhile staysOnLine).length = rest.dropWhile staysOnLine :=
    calc rest.drop (rest.takeWhile staysOnLine).length
      _ = (rest.takeWhile staysOnLine ++ rest.dropWhile staysOnLine).drop (rest.takeWhile staysOnLine).length := by
        rw [split]
      _ = rest.dropWhile staysOnLine := List.drop_left
  rw [taking, dropping]
  refine .line opens (fun c member => ?_) (fun c starts => ?_)
  · have stays := List.mem_takeWhile_imp member
    simpa [staysOnLine] using stays
  · have stops := List.head?_dropWhile_not staysOnLine rest
    rw [Option.mem_def.mp starts] at stops
    simpa [staysOnLine, or_iff_not_imp_left] using stops

/-- A comment comes to its end at the first star with a slash behind it. -/
theorem exists_of_blockEnd? {taken length : Nat} {characters : List Char}
    (found : blockEnd? taken characters = some length) :
    ∃ content rest, characters = content ++ ['*', '/'] ++ rest ∧ length = taken + (content.length + 2) ∧
      ¬ ['*', '/'] <:+: content ++ ['*'] := by
  induction characters generalizing taken with
  | nil => cases found
  | cons first rest induction =>
    unfold blockEnd? at found
    split at found
    · next rest same =>
      cases found
      cases same
      refine ⟨[], rest, rfl, rfl, ?_⟩
      decide
    · next first more noEnd same =>
      cases same
      obtain ⟨content, behind, rfl, rfl, noneInside⟩ := induction found
      refine ⟨first :: content, behind, rfl, ?_, ?_⟩
      · rw [List.length_cons]
        omega
      · intro inside
        rcases List.infix_cons_iff.mp inside with starts | inside
        · cases content with
          | nil => simp at starts
          | cons second content =>
            obtain ⟨rfl, rfl, -⟩ : '*' = first ∧ '/' = second ∧ True := by simpa using starts
            exact noEnd _ rfl rfl
        · exact noneInside inside
    · next same => cases same

theorem skipped_blockComment {rest : List Char} {extra : Nat} (found : blockComment ('*' :: rest) = (.blank, extra)) :
    Skipped (('*' :: rest).drop extra) ('/' :: ('*' :: rest).take extra) := by
  unfold blockComment at found
  split at found
  · next length ended =>
    obtain rfl : length = extra := congrArg Prod.snd found
    obtain ⟨content, behind, same, rfl, noneInside⟩ := exists_of_blockEnd? ended
    obtain rfl : rest = content ++ ['*', '/'] ++ behind := same
    have taking : ('*' :: (content ++ ['*', '/'] ++ behind)).take (1 + (content.length + 2)) =
        '*' :: (content ++ ['*', '/']) := by
      rw [Nat.add_comm 1, List.take_succ_cons]
      exact congrArg _ (List.take_left' (by simp))
    have dropping : ('*' :: (content ++ ['*', '/'] ++ behind)).drop (1 + (content.length + 2)) = behind := by
      rw [Nat.add_comm 1, List.drop_succ_cons]
      exact List.drop_left' (by simp)
    rw [taking, dropping]
    exact .block noneInside
  · cases found

theorem number_ne_blank (first : Char) (rest : List Char) : (number first rest).1 ≠ .blank := by
  unfold number
  dsimp only
  split
  · split
    · split <;> exact nofun
    · exact nofun
  · exact nofun

theorem text_ne_blank (rest : List Char) : (text rest).1 ≠ .blank := by
  unfold text
  dsimp only
  split
  · split <;> exact nofun
  · exact nofun

theorem symbol_ne_blank (first : Char) (rest : List Char) : (symbol first rest).1 ≠ .blank := by
  unfold symbol
  split
  · exact nofun
  · split <;> exact nofun

/-- What the scan takes for a blank is passed over. -/
theorem skipped_of_longest {first : Char} {rest : List Char} {extra : Nat}
    (found : longest first rest = (.blank, extra)) : Skipped (rest.drop extra) (first :: rest.take extra) := by
  have taken (pair : Finding × Nat) (same : pair = (.blank, extra)) : pair.1 = .blank := congrArg Prod.fst same
  unfold longest at found
  split at found
  · next blank =>
    cases found
    exact skipped_of_isBlank blank
  split at found
  · cases found
  split at found
  · exact absurd (taken _ found) (number_ne_blank first rest)
  split at found
  · exact absurd (taken _ found) (text_ne_blank rest)
  split at found
  · next hash =>
    rw [beq_iff_eq] at hash
    obtain rfl : (rest.takeWhile staysOnLine).length = extra := congrArg Prod.snd found
    rw [hash]
    exact skipped_lineComment (.inl rfl) rest
  split at found
  · next slashes =>
    rw [Bool.and_eq_true, beq_iff_eq, beq_iff_eq] at slashes
    obtain ⟨rfl, starts⟩ := slashes
    obtain ⟨more, rfl⟩ := List.head?_eq_some_iff.mp starts
    obtain rfl : (('/' :: more).takeWhile staysOnLine).length = extra := congrArg Prod.snd found
    exact skipped_lineComment (.inr rfl) more
  split at found
  · next opens =>
    rw [Bool.and_eq_true, beq_iff_eq, beq_iff_eq] at opens
    obtain ⟨rfl, starts⟩ := opens
    obtain ⟨more, rfl⟩ := List.head?_eq_some_iff.mp starts
    exact skipped_blockComment found
  · exact absurd (taken _ found) (symbol_ne_blank first rest)

/-! ## The whole text -/

theorem exists_layout (found : List Piece) (position : Position) (characters : List Char) :
    ∀ before, position = .behind before →
      ∃ later, pieces found position characters = found.reverse ++ later ∧ Layout before characters later := by
  fun_induction pieces found position characters with
  | case1 found position => exact fun before _ => ⟨[], (List.append_nil _).symm, .ending .nil⟩
  | case2 found position first rest finding extra here text more induction =>
    intro before starts
    have reached : position.after text = .behind (before ++ text) := by rw [Position.behind_append, starts]
    obtain ⟨later, all, layout⟩ := induction _ reached
    have split : first :: rest = text ++ rest.drop extra := by
      rw [List.cons_append, List.take_append_drop]
    -- A piece begins where the scan is, so no gap is in front of it.
    have placed (piece : Piece) (quoted : piece.text = String.ofList text) (stands : piece.position = position) :
        Layout before (text ++ rest.drop extra) (piece :: later) := by
      refine .piece .nil (List.cons_ne_nil _ _) quoted ?_ ?_
      · rw [stands, starts, List.append_nil]
      · rwa [List.append_nil]
    have extended (piece : Piece) : (piece :: found).reverse ++ later = found.reverse ++ piece :: later := by
      rw [List.reverse_cons, ← List.append_cons]
    rw [split, all]
    cases finding with
    | blank => exact ⟨later, rfl, layout.skip (skipped_of_longest here)⟩
    | token token => exact ⟨_, extended (.lexeme ⟨token, _, position⟩), placed _ rfl rfl⟩
    | fault cause => exact ⟨_, extended (.malformed ⟨cause, _, position⟩), placed _ rfl rfl⟩

end Scan

theorem layout_scan (source : String) : Scan.Layout [] source.toList (scan source) := by
  obtain ⟨later, all, layout⟩ := Scan.exists_layout [] .start source.toList [] rfl
  rwa [scan, all]

/-! ## Tokens -/

namespace Piece

def lexeme? : Piece → Option Lexeme
  | .lexeme found => some found
  | .malformed _ => none

theorem map_lexeme_of_filterMap {pieces : List Piece} (proper : pieces.filterMap malformed? = []) :
    pieces = (pieces.filterMap lexeme?).map lexeme := by
  induction pieces with
  | nil => rfl
  | cons first rest induction =>
    cases first with
    | malformed => cases proper
    | lexeme => exact congrArg _ (induction proper)

theorem mem_filterMap_malformed? {pieces : List Piece} {found : Malformed} :
    found ∈ pieces.filterMap malformed? ↔ malformed found ∈ pieces := by
  rw [List.mem_filterMap]
  constructor
  · rintro ⟨_ | _, member, same⟩
    · cases same
    · cases same
      exact member
  · exact fun member => ⟨_, member, rfl⟩

end Piece

theorem tokenize_eq (source : String) :
    tokenize source = if ((scan source).filterMap Piece.malformed?).isEmpty then
      .ok ((scan source).filterMap Piece.lexeme?) else .error ((scan source).filterMap Piece.malformed?) := by
  unfold tokenize
  dsimp only
  congr <;> funext piece <;> cases piece <;> rfl

theorem scan_of_tokenize {source : String} {lexemes : List Lexeme} (tokenized : tokenize source = .ok lexemes) :
    scan source = lexemes.map Piece.lexeme := by
  rw [tokenize_eq] at tokenized
  split at tokenized
  · next proper =>
    cases tokenized
    exact Piece.map_lexeme_of_filterMap (List.isEmpty_iff.mp proper)
  · cases tokenized

theorem malformed_of_tokenize {source : String} {malformed : List Malformed}
    (tokenized : tokenize source = .error malformed) :
    malformed ≠ [] ∧ malformed = (scan source).filterMap Piece.malformed? := by
  rw [tokenize_eq] at tokenized
  split at tokenized
  · cases tokenized
  · next improper =>
    cases tokenized
    exact ⟨fun none => improper (List.isEmpty_iff.mpr none), rfl⟩

/-- How a source is split up. The pieces are slices of it, one behind the other and each at its line and column, with
only blanks and complete comments around them. The result is a list of tokens just if no piece is malformed, and then
these are all pieces; else it is what is malformed among them. -/
theorem tokenize_layout (source : String) :
    Scan.Layout [] source.toList (scan source) ∧
      ((∃ lexemes, tokenize source = .ok lexemes) ↔ ∀ malformed, Piece.malformed malformed ∉ scan source) ∧
      match tokenize source with
      | .ok lexemes => scan source = lexemes.map Piece.lexeme
      | .error malformed => malformed ≠ [] ∧ malformed = (scan source).filterMap Piece.malformed? := by
  refine ⟨layout_scan source, ?_⟩
  cases tokenized : tokenize source with
  | ok lexemes =>
    have all := scan_of_tokenize tokenized
    refine ⟨⟨fun _ malformed member => ?_, fun _ => ⟨lexemes, rfl⟩⟩, all⟩
    rw [all] at member
    obtain ⟨_, _, same⟩ := List.mem_map.mp member
    cases same
  | error malformed =>
    obtain ⟨nonempty, all⟩ := malformed_of_tokenize tokenized
    refine ⟨⟨nofun, fun proper => absurd ?_ nonempty⟩, nonempty, all⟩
    refine List.eq_nil_iff_forall_not_mem.mpr fun found member => proper found ?_
    rw [all] at member
    exact Piece.mem_filterMap_malformed?.mp member

/-- A comment hides what stands on its line, and the name behind it is counted from the newline. -/
example : (scan "# a\n  x").map Piece.position = [⟨2, 3⟩] := by with_unfolding_all rfl

end LiveExpr
