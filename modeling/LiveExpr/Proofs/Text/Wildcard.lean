import LiveExpr.Text.Wildcard
import Mathlib.Order.WellFounded

/-!
Matching against wildcard patterns comes to an end, and it accepts exactly the texts that the pattern matches by its
definition. A `*` that was met earlier is never tried again; that loses nothing, since what stands between two `*` has
been found as early in the text as it can be.
-/

namespace LiveExpr.Wildcard

/-! ## What a pattern matches -/

def AreCases (upper small : UInt8) : Prop :=
  65 ≤ upper ∧ upper ≤ 90 ∧ small = upper + 32

/-- Whether a byte of the text is equal to a byte of the pattern, except for the case of a letter where that does not
count. -/
def IsAlike (ignoreCase : Bool) (wanted b : UInt8) : Prop :=
  b = wanted ∨ ignoreCase = true ∧ (AreCases wanted b ∨ AreCases b wanted)

/-- Whether a pattern matches a text. -/
inductive Matches (ignoreCase : Bool) : (pattern text : Bytes) → Prop
  | empty : Matches ignoreCase [] []
  | run {pattern text behind : Bytes} (isSuffix : behind <:+ text) (rest : Matches ignoreCase pattern behind) :
      Matches ignoreCase (anyRun :: pattern) text
  | byte (b : UInt8) {pattern text : Bytes} (rest : Matches ignoreCase pattern text) :
      Matches ignoreCase (anyByte :: pattern) (b :: text)
  | itself {wanted b : UInt8} {pattern text : Bytes} (noRun : wanted ≠ anyRun) (noByte : wanted ≠ anyByte)
      (alike : IsAlike ignoreCase wanted b) (rest : Matches ignoreCase pattern text) :
      Matches ignoreCase (wanted :: pattern) (b :: text)

theorem lower_eq_iff {wanted b : UInt8} :
    lower wanted = lower b ↔ b = wanted ∨ AreCases wanted b ∨ AreCases b wanted := by
  unfold lower AreCases
  grind

theorem accepts_iff {ignoreCase : Bool} {wanted b : UInt8} :
    accepts ignoreCase wanted b = true ↔ wanted = anyByte ∨ IsAlike ignoreCase wanted b := by
  cases ignoreCase with
  | false =>
    have same : wanted = b ↔ b = wanted := eq_comm
    simp [accepts, IsAlike, same]
  | true => simp [accepts, IsAlike, lower_eq_iff]

variable {ignoreCase : Bool} {wanted b : UInt8} {pattern text : Bytes}

theorem matches_nil : Matches ignoreCase [] text ↔ text = [] := by
  constructor
  · intro matched
    cases matched
    rfl
  · rintro rfl
    exact .empty

theorem matches_run :
    Matches ignoreCase (anyRun :: pattern) text ↔ ∃ behind, behind <:+ text ∧ Matches ignoreCase pattern behind := by
  constructor
  · intro matched
    generalize same : anyRun :: pattern = whole at matched
    cases matched with
    | empty => cases same
    | run isSuffix rest =>
      cases same
      exact ⟨_, isSuffix, rest⟩
    | byte => cases (List.cons.inj same).1
    | itself noRun => exact absurd (List.cons.inj same).1.symm noRun
  · rintro ⟨behind, isSuffix, rest⟩
    exact .run isSuffix rest

theorem not_matches_nil (noRun : wanted ≠ anyRun) : ¬Matches ignoreCase (wanted :: pattern) [] := by
  intro matched
  cases matched
  exact noRun rfl

theorem matches_cons (noRun : wanted ≠ anyRun) :
    Matches ignoreCase (wanted :: pattern) (b :: text) ↔
      accepts ignoreCase wanted b = true ∧ Matches ignoreCase pattern text := by
  rw [accepts_iff]
  constructor
  · intro matched
    cases matched with
    | run => exact absurd rfl noRun
    | byte _ rest => exact ⟨.inl rfl, rest⟩
    | itself _ _ alike rest => exact ⟨.inr alike, rest⟩
  · rintro ⟨accepted, rest⟩
    by_cases isByte : wanted = anyByte
    · subst isByte
      exact .byte b rest
    · exact .itself noRun isByte (accepted.resolve_left isByte) rest

/-- Of the patterns, those that consist of `*` alone match the empty text. -/
theorem matches_empty : Matches ignoreCase pattern [] ↔ pattern.all (· == anyRun) = true := by
  induction pattern with
  | nil => simp [matches_nil]
  | cons wanted pattern induction =>
    by_cases isRun : wanted = anyRun
    · subst isRun
      simp [matches_run, induction]
    · simp [not_matches_nil isRun, isRun]

/-- The beginning of a pattern takes as many bytes as it has, as long as there is no `*` in it. -/
theorem exists_of_matches_append {tried : Bytes} (plain : ∀ c ∈ tried, c ≠ anyRun)
    (matched : Matches ignoreCase (tried ++ pattern) text) :
    ∃ taken rest, text = taken ++ rest ∧ taken.length = tried.length ∧ Matches ignoreCase pattern rest := by
  induction tried generalizing text with
  | nil => exact ⟨[], text, rfl, rfl, matched⟩
  | cons wanted tried induction =>
    obtain ⟨noRun, plain⟩ := List.forall_mem_cons.mp plain
    cases text with
    | nil => exact absurd matched (not_matches_nil noRun)
    | cons b text =>
      obtain ⟨-, matched⟩ := (matches_cons noRun).mp matched
      obtain ⟨taken, rest, rfl, sameLength, matched⟩ := induction plain matched
      exact ⟨b :: taken, rest, rfl, by simp [sameLength], matched⟩

/-! ## Steps -/

theorem exists_suffix_iff {property : Bytes → Prop} :
    (∃ behind, behind <:+ text ∧ property behind) ↔
      property text ∨ ∃ behind, behind <:+ text.tail ∧ property behind := by
  cases text with
  | nil => simp
  | cons b text => simp [List.suffix_cons_iff, or_and_right, exists_or]

/-- Whether a `*` can bring a match to a good end by taking more bytes than it does. -/
def Star.Succeeds (ignoreCase : Bool) (star : Star) : Prop :=
  ∃ behind, behind <:+ star.text.tail ∧ Matches ignoreCase star.pattern behind

namespace Attempt

/-- Whether a match under way can be brought to a good end, with what the last `*` takes now or with more. -/
def Succeeds (ignoreCase : Bool) (attempt : Attempt) : Prop :=
  Matches ignoreCase attempt.pattern attempt.text ∨ ∃ star ∈ attempt.star, star.Succeeds ignoreCase

/-- What has been passed since the last `*` is a part of the pattern without `*`, and as many bytes of the text. -/
def IsCoherent (attempt : Attempt) : Prop :=
  ∀ star ∈ attempt.star, ∃ tried taken, star.pattern = tried ++ attempt.pattern ∧ star.text = taken ++ attempt.text ∧
    taken.length = tried.length ∧ ∀ c ∈ tried, c ≠ anyRun

theorem isCoherent_behind (text pattern : Bytes) : IsCoherent ⟨text, pattern, some ⟨pattern, text⟩⟩ := by
  rintro star ⟨⟩
  exact ⟨[], [], rfl, rfl, rfl, List.forall_mem_nil _⟩

theorem IsCoherent.pass {text pattern : Bytes} {star : Option Star}
    (coherent : IsCoherent ⟨b :: text, wanted :: pattern, star⟩) (noRun : wanted ≠ anyRun) :
    IsCoherent ⟨text, pattern, star⟩ := by
  intro last isLast
  obtain ⟨tried, taken, samePattern, sameText, sameLength, plain⟩ := coherent last isLast
  refine ⟨tried ++ [wanted], taken ++ [b], ?_, ?_, ?_, ?_⟩
  · simp [samePattern]
  · simp [sameText]
  · simp [sameLength]
  · simpa [or_imp, forall_and] using ⟨plain, noRun⟩

/-- Where the last `*` can bring a match to a good end by taking more, what is left of the pattern matches a part of the
text behind. What has been passed since would be passed again there, with as many bytes, from a later start. -/
theorem exists_of_star {attempt : Attempt} (coherent : attempt.IsCoherent)
    (succeeds : ∃ star ∈ attempt.star, star.Succeeds ignoreCase) :
    ∃ behind, behind <:+ attempt.text ∧ Matches ignoreCase attempt.pattern behind := by
  obtain ⟨star, isStar, later, isSuffix, matched⟩ := succeeds
  obtain ⟨tried, taken, samePattern, sameText, sameLength, plain⟩ := coherent star isStar
  rw [samePattern] at matched
  obtain ⟨others, behind, rfl, othersLength, matched⟩ := exists_of_matches_append plain matched
  have inStar : behind <:+ taken ++ attempt.text := by
    rw [← sameText]
    exact (List.suffix_append others behind).trans (isSuffix.trans (List.tail_suffix _))
  have short : behind.length ≤ attempt.text.length := by
    have lengths := isSuffix.length_le
    rw [List.length_tail, sameText, List.length_append, List.length_append] at lengths
    omega
  exact ⟨behind, List.suffix_of_suffix_length_le inStar (List.suffix_append taken attempt.text) short, matched⟩

/-- With a new `*`, a match has the chances that it had before: the earlier one can do nothing that the new one cannot
do by taking more. -/
theorem succeeds_run {star : Option Star} (coherent : IsCoherent ⟨text, anyRun :: pattern, star⟩) :
    Succeeds ignoreCase ⟨text, anyRun :: pattern, star⟩ ↔
      Succeeds ignoreCase ⟨text, pattern, some ⟨pattern, text⟩⟩ := by
  have fromHere : Succeeds ignoreCase ⟨text, pattern, some ⟨pattern, text⟩⟩ ↔
      ∃ behind, behind <:+ text ∧ Matches ignoreCase pattern behind := by
    rw [exists_suffix_iff]
    simp [Succeeds, Star.Succeeds]
  rw [fromHere]
  constructor
  · rintro (matched | earlier)
    · exact matches_run.mp matched
    · obtain ⟨later, laterSuffix, matched⟩ := exists_of_star coherent earlier
      obtain ⟨behind, isSuffix, matched⟩ := matches_run.mp matched
      exact ⟨behind, isSuffix.trans laterSuffix, matched⟩
  · intro found
    exact .inl (matches_run.mpr found)

/-- What becomes of the chances of a match in a step: they stay as they are, or there have been none. -/
def Decides (ignoreCase : Bool) (attempt : Attempt) : Option Attempt → Prop
  | some next => next.IsCoherent ∧ (attempt.Succeeds ignoreCase ↔ next.Succeeds ignoreCase)
  | none => ¬attempt.Succeeds ignoreCase

theorem decides_retry {attempt : Attempt} (coherent : attempt.IsCoherent) (more : attempt.text ≠ [])
    (stuck : ¬Matches ignoreCase attempt.pattern attempt.text) : attempt.Decides ignoreCase attempt.retry := by
  obtain ⟨text, pattern, star⟩ := attempt
  dsimp only at more stuck
  rcases star with _ | ⟨starPattern, starText⟩
  · simp [retry, Decides, Succeeds, stuck]
  obtain ⟨tried, taken, -, sameText, -⟩ := coherent _ rfl
  cases starText with
  | nil => simp_all
  | cons c starText =>
    refine ⟨isCoherent_behind starText starPattern, ?_⟩
    have chances := @exists_suffix_iff starText (Matches ignoreCase starPattern)
    simpa [Succeeds, Star.Succeeds, stuck] using chances

/-- A step keeps the chances of a match, and a match that cannot go on has had none. -/
theorem decides_step {attempt : Attempt} (coherent : attempt.IsCoherent) (more : attempt.text ≠ []) :
    attempt.Decides ignoreCase (attempt.step ignoreCase) := by
  obtain ⟨text, pattern, star⟩ := attempt
  cases text with
  | nil => exact absurd rfl more
  | cons b text =>
    cases pattern with
    | nil => exact decides_retry coherent more fun matched => more (matches_nil.mp matched)
    | cons wanted pattern =>
      unfold step
      dsimp only
      split
      next isRun =>
        obtain rfl := eq_of_beq isRun
        exact ⟨isCoherent_behind _ _, succeeds_run coherent⟩
      next noRun =>
        have noRun : wanted ≠ anyRun := ne_of_beq_false (Bool.eq_false_of_not_eq_true noRun)
        split
        next accepted =>
          refine ⟨coherent.pass noRun, ?_⟩
          simp [Succeeds, matches_cons noRun, accepted]
        next refused =>
          apply decides_retry coherent more
          intro matched
          exact refused ((matches_cons noRun).mp matched).1

/-- Where the text is used up, the last `*` cannot bring off what the match as it is cannot. -/
theorem succeeds_of_empty {attempt : Attempt} (coherent : attempt.IsCoherent) (atEnd : attempt.text = []) :
    attempt.Succeeds ignoreCase ↔ attempt.pattern.all (· == anyRun) = true := by
  rw [Succeeds, atEnd, matches_empty, or_iff_left_iff_imp]
  intro earlier
  obtain ⟨behind, isSuffix, matched⟩ := exists_of_star coherent earlier
  rw [atEnd, List.suffix_nil] at isSuffix
  exact matches_empty.mp (isSuffix ▸ matched)

theorem run_eq_true_iff {attempt : Attempt} (coherent : attempt.IsCoherent) :
    attempt.run ignoreCase = true ↔ attempt.Succeeds ignoreCase := by
  fun_induction run ignoreCase attempt with
  | case1 attempt atEnd => exact (succeeds_of_empty coherent (List.isEmpty_iff.mp atEnd)).symm
  | case2 attempt more next stepped induction =>
    have decided := @decides_step ignoreCase _ coherent (mt List.isEmpty_iff.mpr more)
    rw [stepped] at decided
    rw [induction decided.1, decided.2]
  | case3 attempt more stopped =>
    have decided := @decides_step ignoreCase _ coherent (mt List.isEmpty_iff.mpr more)
    rw [stopped] at decided
    exact iff_of_false Bool.false_ne_true decided

/-- No match goes on forever. -/
theorem wellFounded_step (ignoreCase : Bool) :
    WellFounded fun next attempt : Attempt => attempt.step ignoreCase = some next := by
  let measure (attempt : Attempt) := (attempt.room, attempt.text.length + attempt.pattern.length)
  have ordered : WellFounded (InvImage (Prod.Lex (· < ·) (· < ·)) measure) :=
    InvImage.wf measure (WellFounded.prod_lex Nat.lt_wfRel.wf Nat.lt_wfRel.wf)
  exact Subrelation.wf step_decreases ordered

end Attempt

/-- Wildcard matching. From no state on can a match take steps forever, and it accepts a text exactly if the pattern
matches the whole of it: `*` any run of bytes, `?` any single byte, and another byte itself, in either case if the case
of letters does not count. -/
theorem isMatch_iff (ignoreCase : Bool) :
    (WellFounded fun next attempt : Attempt => attempt.step ignoreCase = some next) ∧
      ∀ text pattern, isMatch text pattern ignoreCase = true ↔ Matches ignoreCase pattern text := by
  refine ⟨Attempt.wellFounded_step ignoreCase, fun text pattern => ?_⟩
  have coherent : Attempt.IsCoherent ⟨text, pattern, none⟩ := nofun
  rw [isMatch, Attempt.run_eq_true_iff coherent]
  simp [Attempt.Succeeds]

end LiveExpr.Wildcard
