import PowerShare.Command

/-!
# The program

Reads what the command line names, runs the command on it, and writes what the run changed. All
decisions are made by `PowerShare.run`.
-/

namespace PowerShare.Program

/-- The file that lists the environment, each variable ended by a zero byte. -/
def environmentFile : String := "/proc/self/environ"

/-- A variable of the environment. -/
def variableOf (text : List Char) : String × String :=
  (String.ofList (text.takeWhile (· != '=')), String.ofList ((text.dropWhile (· != '=')).drop 1))

/-- All variables of the environment. -/
def environment : IO Settings.Environment := do
  try
    let bytes ← IO.FS.readBinFile environmentFile
    match String.fromUTF8? bytes with
    | some text =>
      return ((splitAt '\x00' text.toList).filter fun v => !v.isEmpty).map variableOf
    | none => return []
  catch _ => return []

/-- The error code of reading a directory as if it were a file. -/
def directoryCode : UInt32 := 21

/-- The file that reads as empty and keeps nothing. -/
def nullDevice : String := "/dev/null"

/-- The folder together with what is at a path. -/
def withPath (folder : Folder) (path : String) : IO Folder := do
  let place := pathOf (Place.ofPath path)
  try
    let bytes ← IO.FS.readBinFile path
    return { folder with files := (place, bytes.toList) :: folder.files }
  catch
    | .inappropriateType _ code _ =>
      if code == directoryCode then
        return { folder with directories := place :: folder.directories }
      else return folder
    | _ => return folder

/-- The paths on the way of a path, of which it is the last one. -/
def pathsTo (path : String) : List String :=
  let ss := segments path
  (List.range ss.length).map fun n => pathOf (ss.take (n + 1))

/-- The part of the file system that a request may read or write: all that lies on the way of the
paths. -/
def folderOf (paths : List String) : IO Folder :=
  (paths.flatMap pathsTo).foldlM withPath { devices := [nullDevice] }

end PowerShare.Program

open PowerShare

def main (words : List String) : IO UInt32 := do
  let before ← Program.folderOf (((Request.ofWords? words).map Request.paths).getD [])
  let done := run words (← Program.environment) before
  for (path, bytes) in done.folder.files do
    if before.get? path != some bytes then IO.FS.writeBinFile path ⟨bytes.toArray⟩
  (← IO.getStdout).putStr done.output
  (← IO.getStderr).putStr done.errors
  return UInt32.ofNat done.code
