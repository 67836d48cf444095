import TrialSummary.Text.Quoted
import TrialSummary.Trial.Record

/-!
# Filling a record from lines

The measurements of a trial stand on certain lines of its files. Looking at one such line gives a
*reading*: the values found on it, none if the file ends before it, or the reason why the trial
cannot be used. A record is filled from a list of readings in order and keeps what was stored before
the first failure.
-/

namespace TrialSummary

/-- A file that has been read, with the path under which messages name it. -/
structure TextFile where
  path : String
  lines : List String
  deriving DecidableEq

/-- Why a file does not have the expected form. Lines are counted from zero. -/
inductive FormatError where
  /-- The line is there and does not hold what it should. -/
  | malformed (path : String) (line : Nat) (expected found : String)
  /-- The file has only `length` lines, and the line of a needed field is not among them. -/
  | missingLine (path : String) (line : Nat) (field : Field) (length : Nat)
  deriving DecidableEq

namespace FormatError

def message : FormatError → String
  | malformed path line expected found =>
    "unexpected input format in " ++ path ++ " line " ++ line.repr ++ ": expected " ++ expected ++
      ", found " ++ Text.quoted found
  | missingLine path line field length =>
    "unexpected input format in " ++ path ++ ": " ++ field.name ++ " needs line " ++ line.repr ++
      " but file has " ++ length.repr ++ " lines"

end FormatError

/-- What one line gives: values for fields, or a failure. -/
abbrev Reading := Except FormatError (List (Field × Value))

/-- The reading of the line at an offset. A line that is missing is a failure only for the first of
`fields` that is required. -/
def TextFile.reading (file : TextFile) (required fields : List Field) (offset : Nat)
    (parse : String → Option (List (Field × Value))) (expected : String) : Reading :=
  match file.lines[offset]? with
  | some line =>
    match parse line with
    | some values => .ok values
    | none => .error (.malformed file.path offset expected line)
  | none =>
    match fields.find? fun f => required.contains f with
    | some f => .error (.missingLine file.path offset f file.lines.length)
    | none => .ok []

/-- A record and, if filling it failed, the reason. -/
structure Extraction where
  record : Record
  error? : Option FormatError

namespace Extraction

/-- Store the values of readings in order, up to the first failure. -/
def fill : Record → List Reading → Extraction
  | r, [] => ⟨r, none⟩
  | r, .error e :: _ => ⟨r, some e⟩
  | r, .ok values :: rest => fill (r.setAll values) rest

def toExcept (x : Extraction) : Except FormatError Record :=
  match x.error? with
  | none => .ok x.record
  | some e => .error e

@[simp] theorem fill_nil (r : Record) : fill r [] = ⟨r, none⟩ := rfl

@[simp] theorem fill_error (r : Record) (e : FormatError) (rest : List Reading) :
    fill r (.error e :: rest) = ⟨r, some e⟩ := rfl

@[simp] theorem fill_ok (r : Record) (values : List (Field × Value)) (rest : List Reading) :
    fill r (.ok values :: rest) = fill (r.setAll values) rest := rfl

end Extraction

end TrialSummary
