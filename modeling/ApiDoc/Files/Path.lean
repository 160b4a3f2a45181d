import ApiDoc.Text.Pieces

/-! # Paths of files

A path is a text of pieces between slashes. Empty pieces and `.` stay where they are, `..` goes up,
and a path that starts with a slash starts at the root; all others start in the working directory.
-/

namespace ApiDoc.Path

def pieces (path : String) : List String :=
  (Text.pieces '/' path.toList).map String.ofList

def ofPieces (pieces : List String) : String :=
  String.ofList (Text.joined '/' (pieces.map String.toList))

def isIdle (piece : String) : Bool := piece == "" || piece == "."

/-- Drops idle pieces at the end, but not what the path starts with. -/
def dropIdleEnd : List String → List String
  | [] => []
  | first :: rest => first :: (rest.reverse.dropWhile isIdle).reverse

def lastPiece? (path : String) : Option String :=
  ((dropIdleEnd (pieces path)).getLast?).filter fun piece => !isIdle piece

/-- What stands behind the last dot of the file's name, if something stands in front of it. -/
def extension? (path : String) : Option String := do
  let name ← lastPiece? path
  if name == ".." then none
  else
    match (Text.pieces '.' name.toList).reverse with
    | extension :: before :: earlier =>
      if before.isEmpty && earlier.isEmpty then none else some (String.ofList extension)
    | _ => none

/-- The path of the directory that a path leads into, unless that is where the path starts. -/
def directory? (path : String) : Option String :=
  match dropIdleEnd (pieces path) with
  | [] | [_] => none
  | "" :: kept =>
    match dropIdleEnd ("" :: kept.dropLast) with
    | [_] => some "/"
    | kept => some (ofPieces kept)
  | kept => some (ofPieces (dropIdleEnd kept.dropLast))

end ApiDoc.Path
