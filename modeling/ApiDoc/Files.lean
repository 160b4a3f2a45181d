import ApiDoc.Data.Table
import ApiDoc.Files.Path

/-! # File trees

The files below a working directory, each under the names that lead to it. A directory is there if
a file is in it. The working directory has directories above it, of which nothing else is known.
-/

namespace ApiDoc

/-- The names that lead from the working directory to a file or a directory; `..` only stands in
front, and `/` in front starts at the root. -/
abbrev Files.Location := List String

/-- Files under their locations. -/
abbrev Files := Table Files.Location ByteArray

namespace Files

def isDirectory (files : Files) (location : Location) : Bool :=
  location.all (· == "..") || location == ["/"] ||
  files.keys.any fun file => location.isPrefixOf file && location != file

def above (location : Location) : Location :=
  if location == ["/"] then location
  else if location.all (· == "..") then location ++ [".."]
  else location.dropLast

/-- Goes from a directory over one piece of a path; none if it leads to no directory. With `making`,
missing directories are made. -/
def enter? (files : Files) (making : Bool) (here : Location) (piece : String) : Option Location :=
  if Path.isIdle piece then some here
  else if piece == ".." then some (above here)
  else
    let next := here ++ [piece]
    if files.contains next then none
    else if making || files.isDirectory next then some next
    else none

/-- Where a path leads to; none if it goes through something that is no directory. -/
def walk? (files : Files) (making : Bool) (pieces : List String) : Option Location :=
  match pieces with
  | "" :: rest => rest.foldlM (files.enter? making) ["/"]
  | pieces => pieces.foldlM (files.enter? making) []

/-- The location of a file that a path leads to, the directories in front of it gone through. -/
def file? (files : Files) (making : Bool) (path : String) : Option Location := do
  let pieces := Path.pieces path
  let name ← pieces.getLast?
  if Path.isIdle name || name == ".." then none
  else
    let directory ← files.walk? making pieces.dropLast
    some (directory ++ [name])

def read? (files : Files) (path : String) : Option ByteArray := do
  files.get? (← files.file? false path)

def present (files : Files) (path : String) : Bool :=
  match files.file? false path with
  | some location => files.contains location || files.isDirectory location
  | none => path != "" && (files.walk? false (Path.pieces path)).isSome

/-- Whether a directory is at a path, or can be made there. -/
def canMakeDirectory (files : Files) (path : String) : Bool :=
  (files.walk? true (Path.pieces path)).isSome

/-- The files once a path holds some content; none if no file can be there. -/
def write? (files : Files) (path : String) (content : ByteArray) : Option Files := do
  let location ← files.file? true path
  if files.isDirectory location then none else some (files.insert location content)

/-- The files of `after` that `before` does not hold with the same content. -/
def changes (before after : Files) : Files :=
  after.filter fun (location, content) => before.get? location != some content

def path (location : Location) : String := Path.ofPieces location

end Files

end ApiDoc
