/-
# Files

The files and directories around a process. A path is followed part by part
from the root or from the directory that the process works in, so that going up
undoes an existing directory and not a name. The working directory and all
directories above it are there from the start.

Key definitions: `Files`, `Files.Path`, `Files.Place`, `Files.makeDirectories`,
`Files.createFile`, `Files.hasDirectory`.
-/

namespace Teardown
namespace Files

/-- A part of a path. -/
abbrev Name := List Char

/-! ### Places -/

/-- Where a place is counted from. -/
inductive Origin where
  | root
  /-- So many levels above the working directory. -/
  | above (levels : Nat)
  deriving DecidableEq, Repr

/-- A place for a file or a directory: the names that lead to it. -/
structure Place where
  origin : Origin := .above 0
  names : List Name := []
  deriving DecidableEq, Repr

namespace Place

def enter (p : Place) (name : Name) : Place := { p with names := p.names ++ [name] }

/-- The place above; the root is above itself. -/
def parent (p : Place) : Place :=
  match p.names, p.origin with
  | [], .root => p
  | [], .above levels => { origin := .above (levels + 1) }
  | names, origin => { origin, names := names.dropLast }

/-- The path of a place within the working directory. -/
def relative? (p : Place) : Option String :=
  if p.origin = .above 0 then some ("/".intercalate (p.names.map String.ofList)) else none

end Place

/-! ### Paths -/

/-- Whether a path starts at the root. -/
def isAbsolute (path : String) : Bool := path.toList.head? = some '/'

/-- A path, then a second one from there. -/
def join (directory path : String) : String :=
  if isAbsolute path || directory.isEmpty then path
  else if directory.toList.getLast? = some '/' then directory ++ path
  else directory ++ "/" ++ path

/-- What stays where it is. -/
def here : Name := ['.']

/-- What goes up. -/
def up : Name := ['.', '.']

/-- A path that can be followed. -/
structure Path where
  start : Place
  parts : List Name
  deriving DecidableEq, Repr

/-- The bytes from which on a path is too long. -/
def pathLimit : Nat := 4096

/-- The bytes that a name has at most. -/
def nameLimit : Nat := 255

/-- The parts of a path, unless it is too long or holds a NUL. -/
def Path.ofString? (path : String) : Option Path :=
  if pathLimit ≤ path.utf8ByteSize || path.toList.contains '\x00' then none
  else
    some {
      start := { origin := if isAbsolute path then .root else .above 0 }
      parts := (path.toList.splitOn '/').filter (· ≠ []) }

/-- The parts of a path without those that stay where they are, but for a first one. -/
def Path.steps (p : Path) : List Name :=
  match p.parts with
  | [] => []
  | first :: rest =>
      (if first = here ∧ p.start.origin = .root then [] else [first]) ++ rest.filter (· ≠ here)

/-- The beginnings of a path, the longest first, without the path itself. -/
def beginnings (parts : List Name) : List (List Name) :=
  (List.range parts.length).reverse.map parts.take

/-! ### Following paths -/

/-- What keeps a path from being followed. -/
inductive Obstacle where
  /-- There is nothing of a name. -/
  | absent
  /-- Something else is there, or a name is too long. -/
  | refused
  deriving DecidableEq, Repr

end Files

/-- What is there: directories and files. -/
structure Files where
  directories : List Files.Place := []
  files : List Files.Place := []
  deriving DecidableEq, Repr

namespace Files

/-- Whether there is a directory at a place. -/
def isDirectory (fs : Files) (p : Place) : Bool := p.names.isEmpty || fs.directories.contains p

/-- The place that a name leads to from a directory. -/
def at? (p : Place) (name : Name) : Except Obstacle Place :=
  if nameLimit < name.foldr (fun c n => c.utf8Size + n) 0 then .error .refused
  else .ok (p.enter name)

/-- Follows parts, each of which must lead to a directory. -/
def follow (fs : Files) : Place → List Name → Except Obstacle Place
  | p, [] => .ok p
  | p, name :: rest =>
      if name = here then follow fs p rest
      else if name = up then follow fs p.parent rest
      else do
        let q ← at? p name
        if fs.isDirectory q then follow fs q rest
        else throw (if fs.files.contains q then .refused else .absent)

/-- Whether a path leads to a directory. -/
def leadsToDirectory (fs : Files) (start : Place) (parts : List Name) : Bool :=
  (fs.follow start parts).isOk

/-- Whether a path leads to a directory; the empty path leads nowhere. -/
def hasDirectory (fs : Files) (path : String) : Bool :=
  !path.isEmpty && (Path.ofString? path).any fun p => fs.leadsToDirectory p.start p.parts

/-- The directory and the name in it that parts lead to, if the last one is a name. -/
def target (fs : Files) (start : Place) (parts : List Name) : Except Obstacle Place :=
  match parts.getLast? with
  | none => .error .refused
  | some name => do
      let p ← fs.follow start parts.dropLast
      if name = here ∨ name = up then throw .refused else at? p name

/-! ### Making directories and files -/

/-- Makes a directory in one that is there. -/
def makeDirectory (fs : Files) (start : Place) (parts : List Name) : Except Obstacle Files := do
  let p ← fs.target start parts
  if fs.isDirectory p ∨ fs.files.contains p then throw .refused
  else return { fs with directories := p :: fs.directories }

/-- Makes the first of some directories; if it lacks a directory to be made in,
the others are made before. -/
def makeFirst (start : Place) : List (List Name) → Files → Option Files
  | [], fs => some fs
  | parts :: others, fs =>
      match fs.makeDirectory start parts with
      | .ok fs => some fs
      | .error .refused => if fs.leadsToDirectory start parts then some fs else none
      | .error .absent => do
          let fs ← makeFirst start others fs
          match fs.makeDirectory start parts with
          | .ok fs => return fs
          | .error _ => if fs.leadsToDirectory start parts then return fs else none

/-- Makes a directory and those that it lacks above it, or fails. A directory
that is there already is no failure. -/
def makeDirectories (fs : Files) (path : String) : Option Files := do
  let p ← Path.ofString? path
  makeFirst p.start (p.parts :: beginnings p.steps) fs

/-- Makes a file, if it is not there, in a directory that is. -/
def makeFile (fs : Files) (start : Place) (parts : List Name) : Except Obstacle (Place × Files) := do
  let p ← fs.target start parts
  if fs.isDirectory p then throw .refused
  else if fs.files.contains p then return (p, fs)
  else return (p, { fs with files := p :: fs.files })

/-- Makes a file, if it is not there, and the directories that it lacks. Gives
its place. -/
def createFile (fs : Files) (path : String) : Option (Place × Files) := do
  let p ← Path.ofString? path
  match fs.makeFile p.start p.parts with
  | .ok made => return made
  | .error _ =>
      let fs ← makeFirst p.start (beginnings p.steps) fs
      (fs.makeFile p.start p.parts).toOption

/-- Files at some paths, and their directories. -/
def ofPaths (paths : List String) : Files :=
  paths.foldl (fun fs path => ((fs.createFile path).map (·.2)).getD fs) {}

end Files
end Teardown
