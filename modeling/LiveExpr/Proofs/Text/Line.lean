import LiveExpr.Diagnostic
import Mathlib.Data.List.TakeWhile

/-!
The lines of a source. The text of a line stands in the source behind as many newlines as its number says, and is
followed by the end of the source or by a newline, which may have a carriage return in front of it.
-/

namespace LiveExpr.Source

/-- What may follow a line, with what is behind it: the end of the source, or a newline, alone or with a carriage
return in front of it. -/
inductive Ends : (line ending behind : List Char) → Prop
  | source (line : List Char) : Ends line [] []
  | newline {line : List Char} (noReturn : line.getLast? ≠ some '\r') (behind : List Char) : Ends line ['\n'] behind
  | returned (line behind : List Char) : Ends line ['\r', '\n'] behind

/-- Whether the text is that of the line with the number. Lines begin at the start of the source and behind newlines. -/
def IsLine (source : List Char) (number : Nat) (line : List Char) : Prop :=
  ∃ front ending behind, source = front ++ line ++ ending ++ behind ∧ number = 1 + front.count '\n' ∧
    (front = [] ∨ front.getLast? = some '\n') ∧ '\n' ∉ line ∧ Ends line ending behind

/-- What the newlines of a text end are whole lines; behind them comes what is left of it, with what follows. -/
theorem skipLines_append {count : Nat} {front : List Char} (counted : front.count '\n' = count) (behind : List Char) :
    ∃ lines rest, front = lines ++ rest ∧ lines.count '\n' = count ∧ (lines = [] ∨ lines.getLast? = some '\n') ∧
      skipLines count (front ++ behind) = rest ++ behind := by
  induction count generalizing front with
  | zero => exact ⟨[], front, rfl, rfl, .inl rfl, rfl⟩
  | succ count induction =>
    have some : '\n' ∈ front := List.count_pos_iff.mp (by omega)
    obtain ⟨first, others, rfl, noneBefore⟩ := List.eq_append_cons_of_mem some
    have countedFirst : first.count '\n' = 0 := List.count_eq_zero.mpr noneBefore
    have countedOthers : others.count '\n' = count := by
      rw [List.count_append, List.count_cons_self] at counted
      omega
    obtain ⟨lines, rest, rfl, countedLines, starts, skipped⟩ := induction countedOthers
    refine ⟨first ++ '\n' :: lines, rest, by simp, ?_, .inr ?_, ?_⟩
    · rw [List.count_append, List.count_cons_self, countedLines]
      omega
    · rcases starts with rfl | last
      · exact List.getLast?_concat
      · rw [List.getLast?_append, List.getLast?_cons, last]
        rfl
    · have inside : ∀ c ∈ first, (c != '\n') = true := fun c member =>
        bne_iff_ne.mpr fun newline => noneBefore (newline ▸ member)
      rw [skipLines, List.append_assoc, List.dropWhile_append_of_pos inside]
      exact skipped

/-- Up to the next newline the text is a line, without the carriage return that may stand in front of that. -/
theorem isLine_takeWhile {front : List Char} (starts : front = [] ∨ front.getLast? = some '\n') (rest : List Char) :
    IsLine (front ++ rest) (1 + front.count '\n')
      (if (rest.takeWhile (· != '\n')).length < rest.length then withoutReturn (rest.takeWhile (· != '\n'))
        else rest.takeWhile (· != '\n')) := by
  have noNewline : '\n' ∉ rest.takeWhile (· != '\n') := fun member => by
    have other := List.mem_takeWhile_imp member
    cases other
  have split := List.takeWhile_append_dropWhile (p := (· != '\n')) (l := rest)
  have next := List.head?_dropWhile_not (· != '\n') rest
  revert noNewline split next
  generalize rest.takeWhile (· != '\n') = line, rest.dropWhile (· != '\n') = others
  rintro noNewline rfl next
  cases others with
  | nil =>
    rw [List.append_nil, if_neg (Nat.lt_irrefl _)]
    exact ⟨front, [], [], by simp, rfl, starts, noNewline, .source line⟩
  | cons newline behind =>
    obtain rfl : newline = '\n' := by simpa using next
    rw [if_pos (by simp), withoutReturn]
    split
    · next returned =>
      obtain ⟨text, rfl⟩ := List.getLast?_eq_some_iff.mp returned
      rw [List.dropLast_concat]
      refine ⟨front, ['\r', '\n'], behind, by simp, rfl, starts, ?_, .returned text behind⟩
      exact fun member => noNewline (List.mem_append_left _ member)
    · next noReturn => exact ⟨front, ['\n'], behind, by simp, rfl, starts, noNewline, .newline noReturn behind⟩

/-- The text of the line on which some beginning of the source ends. -/
theorem isLine_line {source : String} {front behind : List Char} (split : source.toList = front ++ behind) :
    IsLine source.toList (1 + front.count '\n') (line source (1 + front.count '\n')).toList := by
  obtain ⟨lines, rest, same, counted, starts, skipped⟩ := skipLines_append (Eq.refl (front.count '\n')) behind
  have found := isLine_takeWhile starts (rest ++ behind)
  rw [← List.append_assoc, ← same, ← split, counted] at found
  unfold line
  dsimp only
  rw [String.toList_ofList, Nat.add_sub_cancel_left, split, skipped]
  rwa [split] at found

end LiveExpr.Source
