import LiveExpr.Proofs.Token.Spacing

/-!
Places without a count of all characters. A pass by bytes keeps the number of the line that it is in and the byte at
which that line starts. Both change only where a newline or a comment over several lines is passed over. The column of a
piece is counted from the piece before it, if that is in the same line. The pieces have the same places as those of the
scan, which counts every character.
-/

namespace LiveExpr

namespace Scan

/-! ## Bytes -/

def byteCount (characters : List Char) : Nat :=
  (characters.map Char.utf8Size).sum

/-- What follows so many bytes, unless they end inside of a character. -/
def dropBytes? : Nat → List Char → Option (List Char)
  | 0, characters => some characters
  | _ + 1, [] => none
  | count + 1, c :: rest => if c.utf8Size ≤ count + 1 then dropBytes? (count + 1 - c.utf8Size) rest else none

def takeBytes? : Nat → List Char → Option (List Char)
  | 0, _ => some []
  | _ + 1, [] => none
  | count + 1, c :: rest =>
    if c.utf8Size ≤ count + 1 then (takeBytes? (count + 1 - c.utf8Size) rest).map (c :: ·) else none

/-- The characters from one byte up to another, if characters start at both. -/
def between? (source : List Char) (first last : Nat) : Option (List Char) :=
  if first ≤ last then (dropBytes? first source).bind (takeBytes? (last - first)) else none

@[simp] theorem byteCount_nil : byteCount [] = 0 := rfl

@[simp] theorem byteCount_cons (c : Char) (rest : List Char) : byteCount (c :: rest) = c.utf8Size + byteCount rest :=
  List.sum_cons

@[simp] theorem byteCount_append (front behind : List Char) :
    byteCount (front ++ behind) = byteCount front + byteCount behind := by
  simp [byteCount]

theorem eq_nil_of_byteCount {characters : List Char} (none : byteCount characters = 0) : characters = [] := by
  cases characters with
  | nil => rfl
  | cons c rest =>
    have size := c.utf8Size_pos
    rw [byteCount_cons] at none
    omega

theorem exists_byteCount_cons (c : Char) (rest : List Char) :
    ∃ count, byteCount (c :: rest) = count + 1 ∧ c.utf8Size ≤ count + 1 ∧ count + 1 - c.utf8Size = byteCount rest := by
  have size := c.utf8Size_pos
  refine ⟨c.utf8Size - 1 + byteCount rest, ?_, ?_, ?_⟩
  · rw [byteCount_cons]
    omega
  · omega
  · omega

theorem dropBytes?_append (front behind : List Char) :
    dropBytes? (byteCount front) (front ++ behind) = some behind := by
  induction front with
  | nil => cases behind <;> rfl
  | cons c rest induction =>
    rcases exists_byteCount_cons c rest with ⟨count, same, fits, left⟩
    rw [same, List.cons_append, dropBytes?, if_pos fits, left, induction]

theorem takeBytes?_append (front behind : List Char) :
    takeBytes? (byteCount front) (front ++ behind) = some front := by
  induction front with
  | nil => cases behind <;> rfl
  | cons c rest induction =>
    rcases exists_byteCount_cons c rest with ⟨count, same, fits, left⟩
    rw [same, List.cons_append, takeBytes?, if_pos fits, left, induction]
    rfl

theorem between?_append (front inner behind : List Char) :
    between? (front ++ (inner ++ behind)) (byteCount front) (byteCount (front ++ inner)) = some inner := by
  have ordered : byteCount front ≤ byteCount (front ++ inner) := by simp
  have length : byteCount (front ++ inner) - byteCount front = byteCount inner := by simp
  rw [between?, if_pos ordered, dropBytes?_append, length]
  exact takeBytes?_append inner behind

/-- Of two beginnings of a source, the one with fewer bytes is a beginning of the other. -/
theorem prefix_of_byteCount {front behind other behindOther : List Char}
    (same : front ++ behind = other ++ behindOther) (fewer : byteCount front ≤ byteCount other) :
    ∃ inner, other = front ++ inner := by
  rcases List.append_eq_append_iff.mp same with ⟨inner, split, -⟩ | ⟨inner, split, -⟩
  · exact ⟨inner, split⟩
  · rw [split, byteCount_append] at fewer
    have empty : inner = [] := eq_nil_of_byteCount (by omega)
    exact ⟨[], by rw [split, empty, List.append_nil, List.append_nil]⟩

/-! ## Lines -/

/-- A line, by its number and the byte at which it starts. -/
structure Line where
  number : Nat
  start : Nat

namespace Line

def first : Line :=
  ⟨1, 0⟩

/-- The byte of the last newline. -/
def lastNewline? : List Char → Option Nat
  | [] => none
  | c :: rest =>
    match lastNewline? rest with
    | some offset => some (c.utf8Size + offset)
    | none => if c = '\n' then some 0 else none

/-- The line behind a comment that starts at a byte. -/
def comment (line : Line) (offset : Nat) (text : List Char) : Line :=
  match lastNewline? text with
  | some last => ⟨line.number + text.count '\n', offset + last + 1⟩
  | none => line

/-- The line behind what is passed over from a byte on. -/
def skip (line : Line) (offset : Nat) (text : List Char) : Line :=
  match text with
  | ['\n'] => ⟨line.number + 1, offset + byteCount ['\n']⟩
  | '/' :: '*' :: _ => line.comment offset text
  | _ => line

/-- Whether the given beginning of a source ends in the line. -/
def EndsIn (line : Line) (before : List Char) : Prop :=
  ∃ earlier here, before = earlier ++ here ∧ line.start = byteCount earlier ∧
    Position.behind before = ⟨line.number, 1 + here.length⟩

theorem endsIn_first : first.EndsIn [] :=
  ⟨[], [], rfl, rfl, rfl⟩

theorem after_of_oneLine (position : Position) {text : List Char} (oneLine : '\n' ∉ text) :
    position.after text = ⟨position.line, position.column + text.length⟩ := by
  induction text generalizing position with
  | nil => rfl
  | cons c rest induction =>
    rw [List.mem_cons, not_or] at oneLine
    have stays : position.next c = ⟨position.line, position.column + 1⟩ := if_neg (Ne.symm oneLine.1)
    change (position.next c).after rest = _
    rw [stays, induction _ oneLine.2, List.length_cons, Nat.add_assoc, Nat.add_comm 1]

/-- Within a line, the beginning of a source can go on. -/
theorem EndsIn.append {line : Line} {before text : List Char} (ends : line.EndsIn before) (oneLine : '\n' ∉ text) :
    line.EndsIn (before ++ text) := by
  rcases ends with ⟨earlier, here, rfl, start, place⟩
  refine ⟨earlier, here ++ text, List.append_assoc .., start, ?_⟩
  rw [Position.behind_append, place, after_of_oneLine _ oneLine, List.length_append, Nat.add_assoc]

theorem lastNewline?_eq_none {text : List Char} (none : lastNewline? text = none) : '\n' ∉ text := by
  induction text with
  | nil => exact List.not_mem_nil
  | cons c rest induction =>
    unfold lastNewline? at none
    split at none
    · cases none
    · next noMore =>
      split at none
      · cases none
      · next other =>
        rw [List.mem_cons, not_or]
        exact ⟨Ne.symm other, induction noMore⟩

theorem lastNewline?_eq_some {text : List Char} {last : Nat} (found : lastNewline? text = some last) :
    ∃ front here, text = front ++ '\n' :: here ∧ last = byteCount front ∧ '\n' ∉ here := by
  induction text generalizing last with
  | nil => cases found
  | cons c rest induction =>
    unfold lastNewline? at found
    split at found
    · next offset later =>
      cases found
      rcases induction later with ⟨front, here, rfl, rfl, oneLine⟩
      exact ⟨c :: front, here, rfl, (byteCount_cons c front).symm, oneLine⟩
    · next noMore =>
      split at found
      · next newline =>
        cases found
        rw [newline]
        exact ⟨[], rest, rfl, rfl, lastNewline?_eq_none noMore⟩
      · cases found

/-- Behind a newline, a line starts at its first byte. -/
theorem EndsIn.newline {line : Line} {before : List Char} (ends : line.EndsIn before) (front : List Char)
    {here : List Char} (oneLine : '\n' ∉ here) :
    EndsIn ⟨line.number + (front ++ '\n' :: here).count '\n', byteCount before + byteCount front + 1⟩
      (before ++ (front ++ '\n' :: here)) := by
  rcases ends with ⟨earlier, begun, split, -, place⟩
  have number : 1 + before.count '\n' = line.number := congrArg Position.line place
  have fresh : Position.behind (before ++ front ++ ['\n']) = ⟨line.number + (front ++ ['\n']).count '\n', 1⟩ := by
    rw [Position.behind_concat, Position.next, if_pos rfl, ← number]
    simp [Position.behind, Nat.add_assoc]
  have none : here.count '\n' = 0 := List.count_eq_zero.mpr oneLine
  have start : byteCount before + byteCount front + 1 = byteCount (before ++ front ++ ['\n']) := by
    rw [byteCount_append, byteCount_append]
    rfl
  refine ⟨before ++ front ++ ['\n'], here, by simp, start, ?_⟩
  rw [show before ++ (front ++ '\n' :: here) = before ++ front ++ ['\n'] ++ here by simp, Position.behind_append, fresh,
    after_of_oneLine _ oneLine]
  simp [none]

theorem EndsIn.comment {line : Line} {before : List Char} (ends : line.EndsIn before) (text : List Char) :
    (line.comment (byteCount before) text).EndsIn (before ++ text) := by
  unfold Line.comment
  split
  · next last found =>
    rcases lastNewline?_eq_some found with ⟨front, here, rfl, rfl, oneLine⟩
    exact ends.newline front oneLine
  · next noNewline => exact ends.append (lastNewline?_eq_none noNewline)

/-- The line is that in which the source goes on behind what is passed over. -/
theorem EndsIn.skip {line : Line} {before text rest : List Char} (ends : line.EndsIn before)
    (skipped : Skipped rest text) : (line.skip (byteCount before) text).EndsIn (before ++ text) := by
  cases skipped with
  | @blank c blank =>
    by_cases newline : c = '\n'
    · subst newline
      exact ends.newline [] List.not_mem_nil
    · have same : line.skip (byteCount before) [c] = line := by
        unfold Line.skip
        split
        · next equal => exact absurd (List.cons.inj equal).1 newline
        · next equal => cases (List.cons.inj equal).2
        · rfl
      rw [same]
      exact ends.append fun member => newline (List.mem_singleton.mp member).symm
  | @line opening content opens oneLine _ =>
    have noNewline : '\n' ∉ opening ++ content := by
      rw [List.mem_append]
      rintro (member | member)
      · rcases opens with rfl | rfl <;> revert member <;> decide
      · exact (oneLine _ member).1 rfl
    have same : line.skip (byteCount before) (opening ++ content) = line := by
      rcases opens with rfl | rfl <;> rfl
    rw [same]
    exact ends.append noNewline
  | @block content _ => exact ends.comment _

end Line

/-! ## Columns -/

/-- The column at a byte of the line that starts at another byte. -/
structure Columns where
  lineStart : Nat
  offset : Nat
  column : Nat

namespace Columns

def first : Columns :=
  ⟨0, 0, 1⟩

/-- Goes on to a byte of a line. In another line, and in front of where the count stands, it starts anew. -/
def advance (columns : Columns) (source : List Char) (lineStart offset : Nat) : Columns :=
  let counted := if lineStart ≠ columns.lineStart ∨ offset < columns.offset then ⟨lineStart, lineStart, 1⟩ else columns
  ⟨counted.lineStart, offset, counted.column + ((between? source counted.offset offset).map List.length).getD 0⟩

/-- Whether the column is right in the source. -/
def IsCount (columns : Columns) (source : List Char) : Prop :=
  ∃ earlier here behind, source = earlier ++ (here ++ behind) ∧ columns.lineStart = byteCount earlier ∧
    columns.offset = byteCount (earlier ++ here) ∧ columns.column = 1 + here.length

theorem isCount_first (source : List Char) : first.IsCount source :=
  ⟨[], [], source, rfl, rfl, rfl, rfl⟩

theorem advance_eq {columns : Columns} {earlier here behind : List Char}
    (counts : columns.IsCount (earlier ++ (here ++ behind))) :
    columns.advance (earlier ++ (here ++ behind)) (byteCount earlier) (byteCount (earlier ++ here)) =
      ⟨byteCount earlier, byteCount (earlier ++ here), 1 + here.length⟩ := by
  unfold advance
  by_cases anew : byteCount earlier ≠ columns.lineStart ∨ byteCount (earlier ++ here) < columns.offset
  · rw [if_pos anew]
    dsimp only
    rw [between?_append]
    rfl
  · rw [if_neg anew]
    simp only [not_or, Classical.not_not, Nat.not_lt] at anew
    rcases counts with ⟨other, counted, rest, same, start, offset, column⟩
    have begins : other = earlier := by
      rcases prefix_of_byteCount same (by omega) with ⟨more, longer⟩
      rw [longer, byteCount_append] at start
      rw [longer, eq_nil_of_byteCount (by omega : byteCount more = 0), List.append_nil]
    subst begins
    have shorter : byteCount counted ≤ byteCount here := by
      rw [offset, byteCount_append, byteCount_append] at anew
      omega
    rcases prefix_of_byteCount (List.append_cancel_left same).symm shorter with ⟨passed, rfl⟩
    have skipped := between?_append (other ++ counted) passed behind
    simp only [List.append_assoc] at skipped offset ⊢
    rw [offset, skipped, start, column]
    simp [Nat.add_assoc]

end Columns

/-! ## Pieces in one line -/

section Pieces

variable {first : Char} {rest : List Char} {finding : Finding} {extra : Nat}

theorem oneLine_of_forall {property : Char → Bool} {characters : List Char}
    (every : ∀ c ∈ characters, property c = true) (apart : property '\n' = false) : '\n' ∉ characters := by
  intro member
  rw [every _ member] at apart
  cases apart

theorem oneLine_word (starts : startsName first = true) (found : word first rest = (finding, extra)) :
    '\n' ∉ first :: rest.take extra := by
  have length : (rest.takeWhile continuesName).length = extra := congrArg Prod.snd found
  have taken : rest.take extra = rest.takeWhile continuesName := by
    rw [← length]
    exact List.prefix_iff_eq_take.mp (List.takeWhile_prefix _) |>.symm
  rw [taken, List.mem_cons, not_or]
  constructor
  · rintro rfl
    cases starts
  · exact oneLine_of_forall (fun c => List.mem_takeWhile_imp) (by decide)

theorem oneLine_mantissa (characters : List Char) : '\n' ∉ mantissa characters := by
  have digits (characters : List Char) : '\n' ∉ characters.takeWhile Char.isDigit :=
    oneLine_of_forall (fun c => List.mem_takeWhile_imp) (by decide)
  unfold mantissa
  rw [List.mem_append, not_or]
  refine ⟨digits characters, ?_⟩
  split
  · rw [List.mem_cons, not_or]
    exact ⟨by decide, digits _⟩
  · exact List.not_mem_nil

/-- The sign and the digits of an exponent, each of which may be missing, are on one line. -/
theorem exists_of_exponent (more : List Char) :
    let sign := (more.take 1).filter fun c => c == '+' || c == '-'
    let digits := (more.drop sign.length).takeWhile Char.isDigit
    ∃ behind, more = sign ++ (digits ++ behind) ∧ '\n' ∉ sign ∧ '\n' ∉ digits := by
  intro sign digits
  refine ⟨(more.drop sign.length).dropWhile Char.isDigit, ?_, ?_, ?_⟩
  · have signed : more.take sign.length = sign := take_sign more _
    rw [List.takeWhile_append_dropWhile]
    conv_lhs => rw [← List.take_append_drop sign.length more, signed]
  · exact oneLine_of_forall (fun c member => (List.mem_filter.mp member).2) (by decide)
  · exact oneLine_of_forall (fun c => List.mem_takeWhile_imp) (by decide)

/-- What follows a mantissa as its exponent, whether complete or not, is on the same line. -/
theorem exists_of_numberBehind {inner tail : List Char}
    (found : numberBehind (first :: inner) tail = (finding, extra)) :
    ∃ power behind, tail = power ++ behind ∧ '\n' ∉ power ∧ extra = inner.length + power.length := by
  cases tail with
  | nil =>
    cases found
    exact ⟨[], [], rfl, List.not_mem_nil, rfl⟩
  | cons mark more =>
    rw [numberBehind] at found
    by_cases marked : (mark == 'e' || mark == 'E') = true
    · rw [if_pos marked] at found
      dsimp only at found
      have oneLineMark : '\n' ≠ mark := by
        rintro rfl
        revert marked
        decide
      rcases exists_of_exponent more with ⟨behind, split, oneLineSign, oneLineDigits⟩
      generalize (more.take 1).filter (fun c => c == '+' || c == '-') = sign at *
      generalize (more.drop sign.length).takeWhile Char.isDigit = digits at *
      subst split
      by_cases none : digits.isEmpty = true
      · rw [if_pos none] at found
        have length : (first :: inner).length + sign.length = extra := congrArg Prod.snd found
        refine ⟨mark :: sign, digits ++ behind, rfl, ?_, ?_⟩
        · rw [List.mem_cons, not_or]
          exact ⟨oneLineMark, oneLineSign⟩
        · rw [List.length_cons] at length ⊢
          omega
      · rw [if_neg none] at found
        have length : (first :: inner).length + sign.length + digits.length = extra := congrArg Prod.snd found
        refine ⟨mark :: (sign ++ digits), behind, ?_, ?_, ?_⟩
        · rw [List.cons_append, List.append_assoc]
        · rw [List.mem_cons, List.mem_append, not_or, not_or]
          exact ⟨oneLineMark, oneLineSign, oneLineDigits⟩
        · rw [List.length_cons] at length ⊢
          rw [List.length_append]
          omega
    · rw [if_neg marked] at found
      cases found
      exact ⟨[], mark :: more, rfl, List.not_mem_nil, rfl⟩

theorem oneLine_number (starts : StartsNumber first rest) (found : number first rest = (finding, extra)) :
    '\n' ∉ first :: rest.take extra := by
  rcases exists_of_mantissa starts with ⟨inner, tail, rfl, ends, -⟩
  have mantissa : '\n' ∉ first :: inner := ends ▸ oneLine_mantissa _
  rw [number_eq ends] at found
  rcases exists_of_numberBehind found with ⟨power, behind, rfl, oneLine, length⟩
  have taken : (inner ++ (power ++ behind)).take extra = inner ++ power := by
    rw [← List.append_assoc]
    exact List.take_left' (by rw [List.length_append, length])
  rw [taken, ← List.cons_append, List.mem_append, not_or]
  exact ⟨mantissa, oneLine⟩

theorem exists_of_literalExtent {taken last : Nat} {closed : Bool} {characters : List Char}
    (found : Literal.extent taken characters = (last, closed)) :
    ∃ inside behind, characters = inside ++ behind ∧ '\n' ∉ inside ∧ last = taken + inside.length ∧
      (closed = true → ∃ more, behind = '\x27' :: more) := by
  fun_induction Literal.extent taken characters with
  | case1 | case2 | case4 | case6 =>
    cases found
    exact ⟨[], _, rfl, List.not_mem_nil, rfl, fun closed => absurd closed Bool.false_ne_true⟩
  | case3 taken c rest sameLine induction =>
    rcases induction found with ⟨inside, behind, rfl, oneLine, rfl, closes⟩
    refine ⟨'\\' :: c :: inside, behind, rfl, ?_, ?_, closes⟩
    · simp only [List.mem_cons, not_or]
      exact ⟨by decide, Ne.symm sameLine, oneLine⟩
    · simp only [List.length_cons]
      omega
  | case5 taken rest =>
    cases found
    exact ⟨[], _, rfl, List.not_mem_nil, rfl, fun _ => ⟨rest, rfl⟩⟩
  | case7 taken c rest _ _ _ sameLine induction =>
    rcases induction found with ⟨inside, behind, rfl, oneLine, rfl, closes⟩
    refine ⟨c :: inside, behind, rfl, ?_, ?_, closes⟩
    · simp only [List.mem_cons, not_or]
      exact ⟨Ne.symm sameLine, oneLine⟩
    · rw [List.length_cons]
      omega

theorem oneLine_text (found : text rest = (finding, extra)) : '\n' ∉ '\x27' :: rest.take extra := by
  rw [List.mem_cons, not_or]
  refine ⟨by decide, ?_⟩
  unfold text at found
  dsimp only at found
  cases ended : Literal.extent 0 rest with
  | mk last closed =>
    rcases exists_of_literalExtent ended with ⟨inside, behind, rfl, oneLine, length, closes⟩
    rw [Nat.zero_add] at length
    rw [ended] at found
    cases closed with
    | false =>
      have taken : last = extra := congrArg Prod.snd found
      rw [← taken, length, List.take_left]
      exact oneLine
    | true =>
      rcases closes rfl with ⟨more, rfl⟩
      have taken : inside.length + 1 = extra := by
        rw [← length]
        dsimp only at found
        rw [if_pos rfl] at found
        split at found <;> exact congrArg Prod.snd found
      rw [← taken, List.append_cons, List.take_left' (by simp), List.mem_append, not_or]
      exact ⟨oneLine, by decide⟩

theorem oneLine_symbol (visible : isBlank first = false) (found : symbol first rest = (finding, extra)) :
    '\n' ∉ first :: rest.take extra := by
  have here : '\n' ≠ first := by
    rintro rfl
    cases visible
  rw [List.mem_cons, not_or]
  refine ⟨here, ?_⟩
  unfold symbol at found
  split at found
  · next terminal spelled =>
    cases found
    cases rest with
    | nil => cases spelled
    | cons second more =>
      rw [List.take_succ_cons, List.take_zero, List.mem_singleton]
      rintro rfl
      rw [pair?_eq_none (isApart_cons rfl more)] at spelled
      cases spelled
  · split at found
    all_goals
      cases found
      exact List.not_mem_nil

/-- A piece is on one line, but for a comment that never ends, behind which there is nothing. -/
theorem oneLine_of_longest (found : longest first rest = (finding, extra)) (piece : finding ≠ .blank) :
    '\n' ∉ first :: rest.take extra ∨ rest.drop extra = [] := by
  have apart {pair : Finding × Nat} (same : pair = (finding, extra)) : pair.1 ≠ .blank := by
    rw [same]
    exact piece
  unfold longest at found
  split at found
  · exact absurd rfl (apart found)
  split at found
  · next starts => exact .inl (oneLine_word starts found)
  split at found
  · next starts => exact .inl (oneLine_number starts found)
  split at found
  · next quote =>
    rw [beq_iff_eq] at quote
    subst quote
    exact .inl (oneLine_text found)
  split at found
  · exact absurd rfl (apart found)
  split at found
  · exact absurd rfl (apart found)
  split at found
  · unfold blockComment at found
    split at found
    · exact absurd rfl (apart found)
    · cases found
      exact .inr (List.drop_length ..)
  · next visible _ _ _ _ _ _ => exact .inl (oneLine_symbol (Bool.eq_false_iff.mpr visible) found)

end Pieces

/-! ## The whole text -/

/-- The pieces of the characters from the byte `offset` of a source on, in front of which come those of `found` in
reverse. -/
def piecesByBytes (source : List Char) (found : List Piece) (line : Line) (columns : Columns) (offset : Nat)
    (characters : List Char) : List Piece :=
  match characters with
  | [] => found.reverse
  | first :: rest =>
    let (finding, extra) := longest first rest
    let text := first :: rest.take extra
    let here := columns.advance source line.start offset
    let position : Position := ⟨line.number, here.column⟩
    let behind := offset + byteCount text
    match finding with
    | .blank => piecesByBytes source found (line.skip offset text) columns behind (rest.drop extra)
    | .token token =>
      let piece := .lexeme ⟨token, String.ofList text, position⟩
      piecesByBytes source (piece :: found) line here behind (rest.drop extra)
    | .fault cause =>
      let piece := .malformed ⟨cause, String.ofList text, position⟩
      piecesByBytes source (piece :: found) line here behind (rest.drop extra)
termination_by characters.length

theorem piecesByBytes_nil (source : List Char) (found : List Piece) (line : Line) (columns : Columns) (offset : Nat) :
    piecesByBytes source found line columns offset [] = found.reverse := by
  rw [piecesByBytes]

/-- Where the line and the column are right, the pass by bytes goes on as the scan does. -/
theorem piecesByBytes_eq (found : List Piece) (position : Position) (characters : List Char) {source before : List Char}
    (split : source = before ++ characters) {line : Line} (ends : line.EndsIn before) {columns : Columns}
    (counts : columns.IsCount source) (place : position = .behind before) :
    piecesByBytes source found line columns (byteCount before) characters = pieces found position characters := by
  fun_induction pieces found position characters generalizing before line columns with
  | case1 => exact piecesByBytes_nil ..
  | case2 found position first rest finding extra longest text more =>
    rename_i induction
    have rejoined : before ++ first :: rest = before ++ text ++ rest.drop extra := by
      rw [List.append_assoc, List.cons_append, List.take_append_drop]
    have reached : position.after text = .behind (before ++ text) := by rw [place, Position.behind_append]
    have stands := ends
    have countsBefore := counts
    rcases ends with ⟨earlier, here, rfl, start, counted⟩
    have advanced : columns.advance source line.start (byteCount (earlier ++ here)) =
        ⟨line.start, byteCount (earlier ++ here), 1 + here.length⟩ := by
      rw [split, List.append_assoc, start]
      rw [split, List.append_assoc] at counts
      exact Columns.advance_eq counts
    have counts : Columns.IsCount ⟨line.start, byteCount (earlier ++ here), 1 + here.length⟩ source :=
      ⟨earlier, here, first :: rest, by rw [split, List.append_assoc], start, rfl, rfl⟩
    have same : position = ⟨line.number, 1 + here.length⟩ := place.trans counted
    rw [piecesByBytes, longest]
    dsimp only
    rw [advanced, ← byteCount_append]
    -- Behind a piece with a newline in it the source ends, and no place is asked for again.
    have onward (piece : finding ≠ .blank) :
        piecesByBytes source more line ⟨line.start, byteCount (earlier ++ here), 1 + here.length⟩
            (byteCount (earlier ++ here ++ text)) (rest.drop extra) =
          pieces more (position.after text) (rest.drop extra) := by
      rcases oneLine_of_longest longest piece with oneLine | nothing
      · exact induction (split.trans rejoined) (stands.append oneLine) counts reached
      · rw [nothing, piecesByBytes_nil, pieces_nil]
    cases finding with
    | blank => exact induction (split.trans rejoined) (stands.skip (skipped_of_longest longest)) countsBefore reached
    | token token =>
      rw [← same]
      apply onward
      intro blank
      cases blank
    | fault cause =>
      rw [← same]
      apply onward
      intro blank
      cases blank

end Scan

/-- The pieces of a source text, in order, with the places that come of its lines and bytes. -/
def scanByBytes (source : String) : List Piece :=
  Scan.piecesByBytes source.toList [] .first .first 0 source.toList

/-- It comes to the same whether the characters are counted or the bytes of the lines are kept. -/
theorem scanByBytes_eq_scan (source : String) : scanByBytes source = scan source :=
  Scan.piecesByBytes_eq [] .start source.toList rfl Scan.Line.endsIn_first (Scan.Columns.isCount_first _) rfl

example : (scanByBytes "a /* é\n */ b").map Piece.position = [⟨1, 1⟩, ⟨2, 5⟩] := by with_unfolding_all rfl

end LiveExpr
