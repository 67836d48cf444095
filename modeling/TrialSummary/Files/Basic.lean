import TrialSummary.Extraction.Reading
import TrialSummary.Text.Line

/-!
# Reading files

A run sees the files through a view, which gives the bytes behind a path or says why there are none,
and tells whether there is anything at all. Everything a run does is a function of that view, so two
views that agree on the files of a run cannot be told apart by it.

The reason for which a path cannot be read does not tell whether there is anything behind it: a
directory is there and cannot be read as a file, and a path that is too long, or a loop of links,
leads nowhere for a reason of its own. But what can be read is there.

A text file is read as a whole: either all of its bytes are UTF-8 and it has lines, or it has none.
-/

namespace TrialSummary

/-- Why a path cannot be read as text. -/
inductive ReadFault where
  | notFound
  | isDirectory
  /-- The path goes through something that is not a directory. -/
  | notDirectory
  | notUtf8
  /-- Any other reason, in the words of the system. -/
  | other (reason : String)
  deriving DecidableEq

def ReadFault.message : ReadFault → String
  | .notFound => "No such file or directory (os error 2)"
  | .isDirectory => "Is a directory (os error 21)"
  | .notDirectory => "Not a directory (os error 20)"
  | .notUtf8 => "stream did not contain valid UTF-8"
  | .other reason => reason

/-- A view of the files that a run may read. -/
structure Files where
  read : String → Except ReadFault ByteArray
  /-- Whether there is anything behind a path. -/
  pathExists : String → Bool
  pathExists_of_read : ∀ {path bytes}, read path = .ok bytes → pathExists path = true

namespace Files

/-- The view in which nothing is there but the files that can be read. -/
def ofRead (read : String → Except ReadFault ByteArray) : Files where
  read := read
  pathExists path := (read path).toBool
  pathExists_of_read h := congrArg Except.toBool h

def readText (files : Files) (path : String) : Except ReadFault String :=
  match files.read path with
  | .error fault => .error fault
  | .ok bytes =>
    match String.fromUTF8? bytes with
    | some s => .ok s
    | none => .error .notUtf8

def readLines (files : Files) (path : String) : Except ReadFault TextFile :=
  (files.readText path).map fun s => ⟨path, (Text.lines s.toList).map String.ofList⟩

end Files

/-- A path below a directory. The slash between them is left out when the directory is empty or
already ends in one. -/
def joinPath (dir name : String) : String :=
  if dir.isEmpty || dir.toList.getLast? == some '/' then dir ++ name else dir ++ "/" ++ name

end TrialSummary
