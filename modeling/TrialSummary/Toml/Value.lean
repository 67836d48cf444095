import TrialSummary.Binary64.Basic

/-!
# TOML documents

The value that a TOML document denotes is a table. A table remembers how it came about, because that
decides what may still be added to it: a table in braces is complete; the table of a header may be
passed through on the way to its parts but not opened again; a table that exists only because a
header names something inside of it may be opened once; a table that dotted keys made takes more
dotted keys. Entries are kept in the order in which they were added.
-/

namespace TrialSummary.Toml

/-- How a table came about. -/
inductive TableOrigin where
  | braces
  | header
  | passedThrough
  | dottedKey
  deriving DecidableEq

/-- A TOML value. Points in time are kept as they are written. -/
inductive Value where
  | string (s : String)
  | integer (z : Int)
  | float (x : Binary64)
  | boolean (b : Bool)
  | datetime (text : String)
  | array (items : List Value)
  | table (origin : TableOrigin) (entries : List (String × Value))
  /-- Tables that were opened one after the other by headers in double brackets. -/
  | tables (elements : List (List (String × Value)))

/-- The entries of a table in order. No key occurs twice. -/
abbrev Entries := List (String × Value)

namespace Entries

def get? (es : Entries) (key : String) : Option Value :=
  (es.find? fun e => e.1 == key).map Prod.snd

/-- Give the key a value. A new key goes to the end, and a known one stays where it is. -/
def put (es : Entries) (key : String) (v : Value) : Entries :=
  if (es.get? key).isSome then es.map fun e => if e.1 = key then (key, v) else e
  else es ++ [(key, v)]

def erase (es : Entries) (key : String) : Entries := es.filter fun e => e.1 != key

/-- Change the table behind a path, making the tables on the way that are not there yet with the
given origin. In an array of tables the way goes through the last one. A path that belongs to a
dotted key cannot pass through the table of a header, and no path leads into other values.
The change sees the origin of the table, and that of the table it starts from is `origin`. -/
def change (dotted : Bool) (f : TableOrigin → Entries → Option Entries) :
    List String → TableOrigin → Entries → Option Entries
  | [], origin, es => f origin es
  | key :: path, _, es =>
    match es.get? key with
    | none =>
      let origin : TableOrigin := if dotted then .dottedKey else .passedThrough
      (change dotted f path origin []).map fun inner => es.put key (.table origin inner)
    | some (.table .braces _) => none
    | some (.table origin inner) =>
      if dotted ∧ origin = .header then none
      else (change dotted f path origin inner).map fun inner => es.put key (.table origin inner)
    | some (.tables elements) =>
      match elements.getLast? with
      | none => none
      | some inner =>
        (change dotted f path .header inner).map fun inner =>
          es.put key (.tables (elements.dropLast ++ [inner]))
    | some _ => none

/-- Add a value under a dotted key, given as the keys before the last one and the last one. The
table that it goes into is the starting one for a plain key, and otherwise one that dotted keys
made. -/
def addKey (origin : TableOrigin) (path : List String) (key : String) (v : Value) (es : Entries) :
    Option Entries :=
  change true
    (fun origin inner =>
      if decide (origin = .dottedKey) == !path.isEmpty && (inner.get? key).isNone then
        some (inner.put key v)
      else none)
    path origin es

/-- Open the table of a header, given as the keys before the last one and the last one. A table that
was only passed through is opened as it is and becomes the last entry around it. -/
def openTable (path : List String) (key : String) (es : Entries) : Option Entries :=
  change false
    (fun _ inner =>
      match inner.get? key with
      | none => some (inner.put key (.table .header []))
      | some (.table .passedThrough known) =>
        some ((Entries.erase inner key).put key (.table .header known))
      | some _ => none)
    path .header es

/-- Open one more table of an array of tables. -/
def openElement (path : List String) (key : String) (es : Entries) : Option Entries :=
  change false
    (fun _ inner =>
      match inner.get? key with
      | none => some (inner.put key (.tables [[]]))
      | some (.tables elements) => some (inner.put key (.tables (elements ++ [[]])))
      | some _ => none)
    path .header es

end Entries

end TrialSummary.Toml
