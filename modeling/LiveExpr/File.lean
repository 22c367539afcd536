import LiveExpr.Text.Bytes
import LiveExpr.Text.Separated

/-!
Files. A path is followed name by name through a tree of directories. It leads to a file with its content,
or there is a reason for which it does not; the first name that cannot be followed gives the reason.
-/

namespace LiveExpr

/-- Why a path gives no text. -/
inductive Unreadable where
  | missing
  | forbidden
  /-- A part of the path leads through what is no directory. -/
  | throughFile
  | directory
  | nameTooLong
  | notText
  | other (reason : String)
deriving DecidableEq, Repr

def Unreadable.reason : Unreadable → String
  | missing => "No such file or directory (os error 2)"
  | forbidden => "Permission denied (os error 13)"
  | throughFile => "Not a directory (os error 20)"
  | directory => "Is a directory (os error 21)"
  | nameTooLong => "File name too long (os error 36)"
  | notText => "stream did not contain valid UTF-8"
  | other reason => reason

inductive FileTree where
  | file (content : Bytes)
  | directory (entries : List (String × FileTree))

/-- A place in a tree: what is there, and the directories above it, the nearest first. -/
structure FilePlace where
  here : FileTree
  above : List FileTree

namespace FilePlace

def longestName : Nat := 255

/-- How many bytes a path may have. -/
def longestPath : Nat := 4095

/-- The top of the tree. -/
def root (place : FilePlace) : FilePlace :=
  ⟨place.above.getLastD place.here, []⟩

/-- The place above; the top is above itself. -/
def parent (place : FilePlace) : FilePlace :=
  match place.above with
  | [] => place
  | nearest :: rest => ⟨nearest, rest⟩

/-- Follows one name. A single dot and the empty name stay at a directory, and two dots lead above it. -/
def enter (place : FilePlace) (name : String) : Except Unreadable FilePlace :=
  match place.here with
  | .file _ => .error .throughFile
  | .directory entries =>
    if name = "" || name = "." then .ok place
    else if name = ".." then .ok place.parent
    else if longestName < name.utf8ByteSize then .error .nameTooLong
    else
      match entries.lookup name with
      | some below => .ok ⟨below, place.here :: place.above⟩
      | none => .error .missing

/-- Follows a path, from the top if it begins with a slash. -/
def follow (place : FilePlace) (path : String) : Except Unreadable FilePlace :=
  if longestPath < path.utf8ByteSize then .error .nameTooLong
  else
    let names := (Text.separated '/' path.toList).map String.ofList
    names.foldlM enter (if path.toList.head? = some '/' then place.root else place)

def read (place : FilePlace) (path : String) : Except Unreadable Bytes :=
  match place.follow path with
  | .error cause => .error cause
  | .ok found =>
    match found.here with
    | .file content => .ok content
    | .directory _ => .error .directory

end FilePlace

end LiveExpr
