import TrialSummary.Decimal.Layout
import TrialSummary.Settings.Basic
import TrialSummary.Text.Numeral
import TrialSummary.Text.Quoted
import TrialSummary.Toml.Value
import TrialSummary.Trial.Record

/-!
# Settings from a TOML document

A document is turned into settings entry by entry, in the order of the document, and the first entry
that does not fit is reported. Keys that name no setting are ignored, and settings that no key names
keep their defaults. A group of settings is a table, or an array of its settings in their declared
order, which may end early. The line offsets of a log are the exception: all three are needed.
-/

namespace TrialSummary

/-- What a value of a document is said to be. A point in time is said to be a map. -/
inductive Found where
  | integer (z : Int)
  | float (x : Binary64)
  | boolean (b : Bool)
  | string (s : String)
  | sequence
  | map
  deriving DecidableEq

inductive Expected where
  | unsigned32
  | offset
  | boolean
  | string
  | path
  | sequence
  | group (name : String)
  deriving DecidableEq

/-- Why a value does not fit its setting. -/
inductive DataFault where
  | wrongType (found : Found) (expected : Expected)
  | outOfRange (z : Int) (expected : Expected)
  | unknownKind (s : String)
  | missingOffset (field : Field)
  | missingOffsets (given : Nat)
  deriving DecidableEq

namespace Found

def ofValue : Toml.Value → Found
  | .integer z => .integer z
  | .float x => .float x
  | .boolean b => .boolean b
  | .string s => .string s
  | .array _ | .tables _ => .sequence
  | .table _ _ | .datetime _ => .map

def message : Found → String
  | .integer z => "integer `" ++ String.ofList (Text.writeInt z) ++ "`"
  | .float x => "floating point `" ++ String.ofList x.plainText ++ "`"
  | .boolean b => "boolean `" ++ (if b then "true" else "false") ++ "`"
  | .string s => "string " ++ Text.quoted s
  | .sequence => "sequence"
  | .map => "map"

end Found

def Expected.message : Expected → String
  | .unsigned32 => "u32"
  | .offset => "usize"
  | .boolean => "a boolean"
  | .string => "a string"
  | .path => "path string"
  | .sequence => "a sequence"
  | .group name => "struct " ++ name

def DataFault.message : DataFault → String
  | .wrongType found expected =>
    "invalid type: " ++ found.message ++ ", expected " ++ expected.message
  | .outOfRange z expected =>
    "invalid value: " ++ (Found.integer z).message ++ ", expected " ++ expected.message
  | .unknownKind s => TrialKind.unknownMessage s
  | .missingOffset field => "missing field `" ++ field.name ++ "`"
  | .missingOffsets given =>
    "invalid length " ++ given.repr ++ ", expected struct LogOffsets with 3 elements"

/-- A way to read a setting from a value of a document. -/
abbrev Decoder (α : Type) := Toml.Value → Except DataFault α

namespace Decoder

def mismatch {α : Type} (expected : Expected) : Decoder α :=
  fun v => .error (.wrongType (Found.ofValue v) expected)

def unsigned32 : Decoder UInt32
  | .integer z =>
    if 0 ≤ z ∧ z < UInt32.size then .ok (UInt32.ofNat z.toNat) else .error (.outOfRange z .unsigned32)
  | v => mismatch .unsigned32 v

/-- A line offset. Integers of a document are below `2 ^ 63`, so only the sign can be wrong. -/
def offset : Decoder Nat
  | .integer z => if 0 ≤ z then .ok z.toNat else .error (.outOfRange z .offset)
  | v => mismatch .offset v

def boolean : Decoder Bool
  | .boolean b => .ok b
  | v => mismatch .boolean v

def string : Decoder String
  | .string s => .ok s
  | v => mismatch .string v

def path : Decoder String
  | .string s => .ok s
  | v => mismatch .path v

def kind : Decoder TrialKind := fun v => do
  let s ← string v
  match TrialKind.ofText? s with
  | some k => .ok k
  | none => .error (.unknownKind s)

def list {α : Type} (item : Decoder α) : Decoder (List α)
  | .array vs => vs.mapM item
  | .tables elements => elements.mapM fun es => item (.table .header es)
  | v => mismatch .sequence v

/-- A setting of a group: its key, and the group with a value of a document stored for it. -/
structure Member (α : Type) where
  key : String
  store : Toml.Value → α → Except DataFault α

/-- The member that stores what a decoder reads. -/
def member {α β : Type} (key : String) (decoder : Decoder β) (store : β → α → α) : Member α :=
  ⟨key, fun v group => (decoder v).map fun b => store b group⟩

/-- Store the entries of a table in a group. -/
def ofEntries {α : Type} (members : List (Member α)) (group : α) (es : Toml.Entries) :
    Except DataFault α :=
  es.foldlM
    (fun group e =>
      match members.find? fun m => m.key == e.1 with
      | some m => m.store e.2 group
      | none => .ok group)
    group

/-- Store the items of an array in the members of a group, one by one. -/
def ofItems {α : Type} (members : List (Member α)) (group : α) (vs : List Toml.Value) :
    Except DataFault α :=
  (members.zip vs).foldlM (fun group mv => mv.1.store mv.2 group) group

/-- A group, read into the given one. A point in time counts as a table with an unknown key. -/
def group {α : Type} (name : String) (members : List (Member α)) (start : α) : Decoder α
  | .table _ es => ofEntries members start es
  | .datetime _ => .ok start
  | .array vs => ofItems members start vs
  | .tables elements => ofItems members start (elements.map (Toml.Value.table .header))
  | v => mismatch (.group name) v

def input : Decoder InputSettings :=
  group "InputConfig"
    [member "results_dir" path fun s g => { g with resultsDir := s },
      member "log_suffix" string fun s g => { g with logSuffix := s }] {}

def rates : Decoder RateGrid :=
  group "RateRange"
    [member "start" unsigned32 fun n g => { g with first := n },
      member "end" unsigned32 fun n g => { g with last := n },
      member "step" unsigned32 fun n g => { g with step := n }] {}

def sweep : Decoder SweepSettings :=
  group "SweepConfig"
    [member "types" (list kind) fun ks g => { g with kinds := ks },
      member "rates" rates fun r g => { g with rates := r },
      member "trials" unsigned32 fun n g => { g with trials := n }] {}

def primary : Decoder PhaseLines :=
  group "PrimaryLayout"
    [member "phase1_row" offset fun n g => { g with row1 := n },
      member "phase1_time" offset fun n g => { g with time1 := n },
      member "phase2_row" offset fun n g => { g with row2 := n },
      member "phase2_time" offset fun n g => { g with time2 := n },
      member "phase3_count" offset fun n g => { g with count3 := n },
      member "phase3_time" offset fun n g => { g with time3 := n }] {}

/-- Line offsets of a log of which some may still be missing. -/
structure PartialOffsets where
  pgreq1 : Option Nat := none
  pgreqR3 : Option Nat := none
  pgreqS3 : Option Nat := none

/-- How many values of a document stand for the line offsets, if they stand in an array. -/
def arrayLength? : Toml.Value → Option Nat
  | .array vs => some vs.length
  | .tables elements => some elements.length
  | _ => none

def logOffsets : Decoder ScanLines := fun v => do
  let p : PartialOffsets ← group "LogOffsets"
    [member Field.pgreq1.name offset fun n g => { g with pgreq1 := some n },
      member Field.pgreqR3.name offset fun n g => { g with pgreqR3 := some n },
      member Field.pgreqS3.name offset fun n g => { g with pgreqS3 := some n }] {} v
  let missing (f : Field) : DataFault :=
    match arrayLength? v with
    | some given => .missingOffsets given
    | none => .missingOffset f
  match p.pgreq1, p.pgreqR3, p.pgreqS3 with
  | some a, some b, some c => .ok ⟨a, b, c⟩
  | none, _, _ => .error (missing .pgreq1)
  | _, none, _ => .error (missing .pgreqR3)
  | _, _, none => .error (missing .pgreqS3)

def log : Decoder LogSettings :=
  group "LogLayout"
    [member "threshold_counter" string fun s g => { g with thresholdCounter := s },
      member "probabilistic_counter" string fun s g => { g with probabilisticCounter := s },
      member "threshold" logOffsets fun o g => { g with threshold := o },
      member "probabilistic" logOffsets fun o g => { g with probabilistic := o },
      member "adjust_probabilistic_rs" boolean fun b g => { g with adjustProbabilisticRS := b }] {}

def groups : List (Member Settings) :=
  [member "input" input fun i g => { g with input := i },
    member "sweep" sweep fun s g => { g with sweep := s },
    member "primary" primary fun p g => { g with primary := p },
    member "log" log fun l g => { g with log := l }]

end Decoder

def Settings.ofDocument (es : Toml.Entries) : Except DataFault Settings :=
  Decoder.ofEntries Decoder.groups {} es

end TrialSummary
