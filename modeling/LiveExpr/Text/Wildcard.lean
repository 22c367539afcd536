import LiveExpr.Text.Bytes

/-!
Wildcard patterns over bytes: `*` stands for any run, `?` for any single byte, and every other byte for
itself. A text is matched from left to right. A `*` takes nothing at first; where the pattern does not go on, the
`*` that was met last takes one byte more, and what follows it starts again. No earlier `*` is ever tried again.
-/

namespace LiveExpr.Wildcard

def anyRun : UInt8 := 42

/-- The byte of a pattern that stands for any single byte. -/
def anyByte : UInt8 := 63

/-- The lower-case form of an ASCII letter; other bytes stay. -/
def lower (b : UInt8) : UInt8 :=
  if 65 ≤ b && b ≤ 90 then b + 32 else b

/-- Whether a byte of the pattern other than `*` stands for a byte of the text. -/
def accepts (ignoreCase : Bool) (wanted b : UInt8) : Bool :=
  wanted == anyByte || (if ignoreCase then lower wanted == lower b else wanted == b)

/-- A `*` that was met: the pattern behind it, and the text behind the bytes that it takes. -/
structure Star where
  pattern : Bytes
  text : Bytes

/-- A match under way: what is left of the text and of the pattern, and the `*` that was met last. -/
structure Attempt where
  text : Bytes
  pattern : Bytes
  star : Option Star

namespace Attempt

/-- The `*` that was met last takes one byte more, if there is one. -/
def retry (attempt : Attempt) : Option Attempt :=
  match attempt.star with
  | some ⟨pattern, _ :: text⟩ => some ⟨text, pattern, some ⟨pattern, text⟩⟩
  | _ => none

/-- One step of a match, or nothing if the match has failed. -/
def step (ignoreCase : Bool) (attempt : Attempt) : Option Attempt :=
  match attempt.text, attempt.pattern with
  | b :: text, wanted :: pattern =>
    if wanted == anyRun then some ⟨b :: text, pattern, some ⟨pattern, b :: text⟩⟩
    else if accepts ignoreCase wanted b then some ⟨text, pattern, attempt.star⟩
    else attempt.retry
  | _, _ => attempt.retry

/-- How much text the `*` that was met last can still take. One that will be met cannot take more. -/
def room (attempt : Attempt) : Nat :=
  match attempt.star with
  | some star => max star.text.length attempt.text.length
  | none => attempt.text.length + 1

theorem step_decreases {ignoreCase : Bool} {attempt next : Attempt} (stepped : attempt.step ignoreCase = some next) :
    Prod.Lex (· < ·) (· < ·) (next.room, next.text.length + next.pattern.length)
      (attempt.room, attempt.text.length + attempt.pattern.length) := by
  obtain ⟨text, pattern, star⟩ := attempt
  have retried (again : retry ⟨text, pattern, star⟩ = some next) : next.room < room ⟨text, pattern, star⟩ := by
    unfold retry at again
    split at again
    · next left _ rest equal =>
      cases again
      cases equal
      simp only [room, List.length_cons]
      omega
    · cases again
  unfold step at stepped
  split at stepped
  · next b rest wanted pattern sameText samePattern =>
    dsimp only at sameText samePattern
    subst sameText samePattern
    split at stepped
    · cases stepped
      cases star with
      | none => exact .left _ _ (by simp [room])
      | some star =>
        rw [Prod.lex_def]
        simp only [room, List.length_cons]
        omega
    · split at stepped
      · cases stepped
        rw [Prod.lex_def]
        cases star <;>
        · simp only [room, List.length_cons]
          omega
      · exact .left _ _ (retried stepped)
  · exact .left _ _ (retried stepped)

/-- Goes on until the text is used up, and then accepts if nothing but `*` is left of the pattern. -/
def run (ignoreCase : Bool) (attempt : Attempt) : Bool :=
  if attempt.text.isEmpty then attempt.pattern.all (· == anyRun)
  else
    match _ : attempt.step ignoreCase with
    | some next => run ignoreCase next
    | none => false
termination_by (attempt.room, attempt.text.length + attempt.pattern.length)
decreasing_by exact step_decreases ‹_›

end Attempt

/-- Whether the pattern matches the whole text. -/
def isMatch (text pattern : Bytes) (ignoreCase : Bool) : Bool :=
  Attempt.run ignoreCase ⟨text, pattern, none⟩

example : isMatch (Bytes.ofString "aXbXc") (Bytes.ofString "a*x?") true = true := by cbv
example : isMatch (Bytes.ofString "abc") (Bytes.ofString "a?") false = false := by cbv

end LiveExpr.Wildcard
