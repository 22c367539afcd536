import LiveExpr.Proofs.Grammar.Derivation
import LiveExpr.Proofs.Token.Spacing
import LiveExpr.Symbol.Name

/-!
Names as the scan finds them, and as the symbol tables accept them. The one takes a run of characters and looks for
keywords, the other looks at a whole text; they take the same texts for names, but that tables also refuse the names of
functions that are built in.
-/

namespace LiveExpr

namespace Name

def IsSpelling (name : String) : Prop :=
  isIdentifier name = true ∧ Terminal.keyword? name = none

/-- A spelling that is refused is that of a function that is built in. -/
theorem validate_of_isSpelling {name : String} (spelling : IsSpelling name) :
    validate name = if (Builtin.find? name).isSome then .error (.reservedName name) else .ok () := by
  unfold validate isReserved
  rw [spelling.1, spelling.2]
  simp

theorem isIdentifier_ofList (first : Char) (rest : List Char) :
    isIdentifier (String.ofList (first :: rest)) = (Scan.startsName first && rest.all Scan.continuesName) := by
  unfold isIdentifier
  rw [String.toList_ofList]
  rfl

end Name

namespace Scan

theorem isBlank_of_startsName {c : Char} (starts : startsName c = true) : isBlank c = false := by
  refine Bool.eq_false_iff.mpr fun blank => ?_
  rcases eq_of_isBlank blank with rfl | rfl | rfl | rfl | rfl <;> cases starts

/-- A name is one token in front of anything that is apart from it. -/
theorem stands_name {name : String} (spelling : Name.IsSpelling name) (position : Position) :
    Stands ⟨.name name, name, position⟩ := by
  obtain ⟨identifier, noKeyword⟩ := spelling
  cases characters : name.toList with
  | nil =>
    rw [Name.isIdentifier, characters] at identifier
    cases identifier
  | cons first rest =>
    have spelled : name = String.ofList (first :: rest) := by rw [← characters, String.ofList_toList]
    rw [spelled, Name.isIdentifier_ofList, Bool.and_eq_true, List.all_eq_true] at identifier
    obtain ⟨starts, continues⟩ := identifier
    refine ⟨first, rest, spelled, fun others apart => ?_⟩
    have run : (rest ++ others).takeWhile continuesName = rest :=
      takeWhile_append_stops continues (apart.head?_eq_false _ (by decide))
    rw [longest, isBlank_of_startsName starts, if_neg Bool.false_ne_true, if_pos starts, word, run, ← spelled,
      noKeyword]

theorem Stands.spells_name {lexeme : Lexeme} (stands : Stands lexeme) {name : String}
    (isName : lexeme.token = .name name) : lexeme.text = name ∧ Name.IsSpelling name := by
  obtain ⟨first, more, spelled, finds⟩ := stands
  have found := finds [] isApart_nil
  rw [isName, List.append_nil] at found
  obtain ⟨starts, found⟩ | ⟨-, text⟩ | ⟨_, number⟩ | ⟨_, fixed⟩ := token_of_longest found
  · have all : more.takeWhile continuesName = more :=
      (List.takeWhile_prefix _).eq_of_length (congrArg Prod.snd found)
    rw [word, all, ← spelled] at found
    cases noKeyword : Terminal.keyword? lexeme.text with
    | some terminal =>
      rw [noKeyword] at found
      cases found
    | none =>
      rw [noKeyword] at found
      cases found
      refine ⟨rfl, ?_, noKeyword⟩
      rw [spelled, Name.isIdentifier_ofList, starts, Bool.true_and]
      exact List.all_eq_true.mpr (List.takeWhile_eq_self_iff.mp all)
  · obtain ⟨_, _, _, _, _, other, _⟩ := exists_of_text text
    cases other
  · cases number
  · cases fixed

theorem Stands.isSpelling {lexeme : Lexeme} (stands : Stands lexeme) (isName : lexeme.token.isName = true) :
    Name.IsSpelling lexeme.text := by
  cases spelled : lexeme.token with
  | name name =>
    obtain ⟨same, spelling⟩ := stands.spells_name spelled
    rwa [same]
  | _ =>
    rw [spelled] at isName
    cases isName

end Scan

/-- What the scan takes for a name, and for nothing but a name. -/
theorem tokenize_eq_name_iff {name : String} :
    tokenize name = .ok [⟨.name name, name, .start⟩] ↔ Name.IsSpelling name := by
  constructor
  · intro tokenized
    exact ((stands_of_tokenize tokenized _ List.mem_cons_self).spells_name rfl).2
  · intro spelling
    have scanned := Scan.pieces_lexeme (Scan.stands_name spelling .start) Scan.isApart_nil [] .start
    rw [List.append_nil, Scan.pieces_nil] at scanned
    exact tokenize_of_scan scanned

end LiveExpr
