import PowerShare.Text.Split

/-!
# Folders

A `Folder` is the part of a file system that a run of the program sees: files and devices by their
places, and directories. A directory is also there if a file lies in it, and the one that paths
start from always is, as are those above it.

A path is walked segment by segment, and every segment needs a directory to start from: so
`a/../b` does not lead to `b` if `a` is missing or a file. The first segment that leads nowhere
decides about the error (`Folder.walk`).

* `Folder.read` needs the whole path to lead to a file;
* `Folder.write` needs only the directory of the file, and makes the file if it is missing.
-/

namespace PowerShare

/-- Files, directories and devices by the paths of their places. A device reads as empty and keeps
nothing. -/
structure Folder where
  files : List (String × List UInt8) := []
  directories : List String := []
  devices : List String := []
  deriving DecidableEq, Inhabited

/-- Why a file is not read or written. -/
inductive FileError where
  | missing
  | notDirectory
  | isDirectory
  | nameTooLong
  deriving DecidableEq, Inhabited

def FileError.message : FileError → String
  | missing => "No such file or directory (os error 2)"
  | notDirectory => "Not a directory (os error 20)"
  | isDirectory => "Is a directory (os error 21)"
  | nameTooLong => "File name too long (os error 36)"

/-! ## 1. Paths -/

/-- The parts of a path between slashes. -/
def segments (path : String) : List (List Char) := splitAt '/' path.toList

/-- Whether a segment stays where it starts. -/
def isStill (segment : List Char) : Bool := segment.isEmpty || segment == ['.']

/-- The segment that leads to the directory above. -/
def upward : List Char := ['.', '.']

/-- Whether a path starts from the directory that has none above it. -/
def isAbsolute (path : String) : Bool := path.toList.head? == some '/'

/-- The segments of a path that lead somewhere. An absolute path has an empty one in front. -/
def leadingSegments (path : String) : List (List Char) :=
  let ss := (segments path).filter fun s => !isStill s
  if isAbsolute path then [] :: ss else ss

/-- The path of some segments. -/
def pathOf (ss : List (List Char)) : String := String.ofList (['/'].intercalate ss)

/-- A path without the segments that lead nowhere. -/
def plainPath (path : String) : String := pathOf (leadingSegments path)

/-! ## 2. Places -/

/-- Where a path leads: the names on the way from where it starts. A directory above the start has
one `upward` for each step, and an absolute place starts with an empty name. -/
abbrev Place := List (List Char)

namespace Place

/-- The directory above a place. Nothing is above the one where absolute paths start. -/
def above (p : Place) : Place :=
  match p.getLast? with
  | none => [upward]
  | some last => if last.isEmpty then p else if last == upward then p ++ [upward] else p.dropLast

/-- Where a segment leads from a place. -/
def step (p : Place) (segment : List Char) : Place :=
  if isStill segment then p else if segment == upward then p.above else p ++ [segment]

/-- Where a path starts. -/
def start (path : String) : Place := if isAbsolute path then [[]] else []

/-- Where a path leads if all its segments lead somewhere. -/
def ofPath (path : String) : Place := (segments path).foldl step (start path)

end Place

/-- The longest name of a file in bytes. -/
def longestName : Nat := 255

/-- The longest path in bytes. -/
def longestPath : Nat := 4095

/-! ## 3. Files -/

namespace Folder

/-- The content of a file by the path of its place. -/
def get? (f : Folder) (place : String) : Option (List UInt8) :=
  (f.files.find? fun e => e.1 == place).map (·.2)

/-- Whether a place is that of a device. -/
def hasDevice (f : Folder) (p : Place) : Bool := f.devices.contains (pathOf p)

/-- Whether a place is that of a directory. -/
def hasDirectory (f : Folder) (p : Place) : Bool :=
  p.all (fun s => s.isEmpty || s == upward) || f.directories.contains (pathOf p) ||
    (f.files.map (·.1) ++ f.devices).any fun e =>
      let there := segments e
      p.isPrefixOf there && p.length < there.length

/-- Where a segment leads from a place. -/
def enter (f : Folder) (p : Place) (segment : List Char) : Except FileError Place :=
  let next := p.step segment
  if !f.hasDirectory p then .error .notDirectory
  else if isStill segment || segment == upward then .ok next
  else if longestName < (String.ofList segment).utf8ByteSize then .error .nameTooLong
  else if f.hasDirectory next || f.hasDevice next || (f.get? (pathOf next)).isSome then .ok next
  else .error .missing

/-- Where the given segments of a path lead. -/
def walk (f : Folder) (path : String) (ss : List (List Char)) : Except FileError Place :=
  if path.isEmpty then .error .missing
  else if longestPath < path.utf8ByteSize then .error .nameTooLong
  else ss.foldlM f.enter (Place.start path)

/-- The content of the file at a path. -/
def read (f : Folder) (path : String) : Except FileError (List UInt8) := do
  let place ← f.walk path (segments path)
  if f.hasDirectory place then throw .isDirectory
  if f.hasDevice place then return []
  match f.get? (pathOf place) with
  | some bytes => return bytes
  | none => throw .missing

/-- The content of the file at a path, if there is one that keeps what it holds. -/
def kept? (f : Folder) (path : String) : Option (List UInt8) :=
  if f.hasDevice (Place.ofPath path) then none else (f.read path).toOption

/-- The files with one of them added or replaced. -/
def putFile (place : String) (bytes : List UInt8) :
    List (String × List UInt8) → List (String × List UInt8)
  | [] => [(place, bytes)]
  | (name, old) :: rest =>
    if name == place then (name, bytes) :: rest else (name, old) :: putFile place bytes rest

/-- The segments of a path in front of the slashes at its end. -/
def segmentsToName (path : String) : List (List Char) :=
  ((segments path).reverse.dropWhile List.isEmpty).reverse

/-- The folder with the given content at a path. Only a path that ends with a name can be that of a
file. -/
def write (f : Folder) (path : String) (bytes : List UInt8) : Except FileError Folder := do
  let ss := segmentsToName path
  let directory ← f.walk path ss.dropLast
  if !f.hasDirectory directory then throw .notDirectory
  match ss.getLast? with
  | none => throw .isDirectory
  | some name =>
    let place := directory.step name
    if isStill name || name == upward || ss.length < (segments path).length then throw .isDirectory
    if longestName < (String.ofList name).utf8ByteSize then throw .nameTooLong
    if f.hasDirectory place then throw .isDirectory
    if f.hasDevice place then return f
    return { f with files := putFile (pathOf place) bytes f.files }

end Folder

end PowerShare
