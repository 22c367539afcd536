/-!
Text values are byte strings. They need not be valid UTF-8; shown to a reader they are decoded with a
replacement character in place of what is not.
-/

namespace LiveExpr

/-- The content of a string value. -/
abbrev Bytes := List UInt8

namespace Bytes

def ofString (text : String) : Bytes :=
  text.toList.flatMap String.utf8EncodeChar

/-! ## Decoding -/

/-- A character under way: how many bytes it still lacks, the bits read so far, and the range in which its
next byte has to lie. -/
structure Unfinished where
  missing : Nat
  bits : Nat
  low : UInt8
  high : UInt8

/-- Stands for a run of bytes that begins no character. -/
def replacement : Char := '\ufffd'

/-- What a byte means where a character may start. The range of the second byte excludes overlong forms,
surrogates and what lies beyond the last code point. -/
def lead (b : UInt8) : List Char × Option Unfinished :=
  if b < 0x80 then ([Char.ofNat b.toNat], none)
  else if b < 0xC2 then ([replacement], none)
  else if b < 0xE0 then ([], some ⟨1, b.toNat - 0xC0, 0x80, 0xBF⟩)
  else if b < 0xF0 then
    ([], some ⟨2, b.toNat - 0xE0, if b == 0xE0 then 0xA0 else 0x80, if b == 0xED then 0x9F else 0xBF⟩)
  else if b < 0xF5 then
    ([], some ⟨3, b.toNat - 0xF0, if b == 0xF0 then 0x90 else 0x80, if b == 0xF4 then 0x8F else 0xBF⟩)
  else ([replacement], none)

/-- Reads one byte. One that cannot continue the character under way ends it with a replacement and is
read again as a start. -/
def readByte (state : Option Unfinished) (b : UInt8) : List Char × Option Unfinished :=
  match state with
  | none => lead b
  | some now =>
    if now.low ≤ b && b ≤ now.high then
      let bits := now.bits * 64 + (b.toNat - 0x80)
      match now.missing with
      | 0 | 1 => ([Char.ofNat bits], none)
      | missing + 1 => ([], some ⟨missing, bits, 0x80, 0xBF⟩)
    else
      let (characters, state) := lead b
      (replacement :: characters, state)

def decodeFrom (state : Option Unfinished) : Bytes → List Char
  | [] => if state.isSome then [replacement] else []
  | b :: rest =>
    let (characters, state) := readByte state b
    characters ++ decodeFrom state rest

/-- The text of the bytes read as UTF-8, with one replacement character for every longest run that begins a
character without finishing it. -/
def decode (bytes : Bytes) : String :=
  String.ofList (decodeFrom none bytes)

/-- The text of valid UTF-8. Decoding anything else does not lead back to it. -/
def text? (bytes : Bytes) : Option String :=
  let text := decode bytes
  if ofString text = bytes then some text else none

/-! ## Comparison and search -/

/-- The lexicographic order; a proper beginning comes first. -/
def order : Bytes → Bytes → Ordering
  | [], [] => .eq
  | [], _ :: _ => .lt
  | _ :: _, [] => .gt
  | a :: left, b :: right =>
    if a < b then .lt else if b < a then .gt else order left right

/-- Whether `part` occurs in the whole as a consecutive run. The empty run occurs everywhere. -/
def contains (part : Bytes) : (whole : Bytes) → Bool
  | [] => part.isEmpty
  | b :: rest => part.isPrefixOf (b :: rest) || contains part rest

end Bytes

end LiveExpr
