import TrialSummary.Toml.Scalar

/-!
# Reading TOML documents

A document is a list of statements, one a line: a key and its value, the header of a table, or the
header of one more table of an array of tables. Values are strings, words, arrays and tables in
braces. Arrays may go over several lines with comments in them and may have a comma at the end;
tables in braces stay on one line and may not.

Reading is total. Nesting is limited by a depth that counts down with every array and every table
in braces; all other loops take at least one character in each round, and the length of the text
bounds them.
-/

namespace TrialSummary.Toml

/-- The rest behind a comment, which begins with its number sign and ends with its line or the
text. The line end is left. -/
def skipComment? (cs : List Char) : Option (List Char) :=
  let rest := cs.dropWhile isLineChar
  if rest.isEmpty || (lineEnd? rest).isSome then some rest else none

/-- Skip blanks, and behind them a comment if there is one. -/
def skipLine? (cs : List Char) : Option (List Char) :=
  match skipBlanks cs with
  | '#' :: rest => skipComment? rest
  | rest => some rest

/-- Skip blanks, comments and line ends, at most `n` lines of them. -/
def skipLines? : Nat → List Char → Option (List Char)
  | n, cs =>
    match skipLine? cs with
    | none => none
    | some rest =>
      match lineEnd? rest, n with
      | some rest, n + 1 => skipLines? n rest
      | _, _ => some rest

def skipSpace? (cs : List Char) : Option (List Char) := skipLines? cs.length cs

/-- The items of an array and its closing bracket, at most `n` of them. -/
def scanItems (item : Scanner Value) : Nat → Scanner (List Value)
  | 0, _ => none
  | n + 1, cs => do
    match ← skipSpace? cs with
    | ']' :: rest => return ([], rest)
    | cs =>
      let (v, rest) ← item cs
      match ← skipSpace? rest with
      | ',' :: rest => do
        let (vs, rest) ← scanItems item n rest
        return (v :: vs, rest)
      | ']' :: rest => return ([v], rest)
      | _ => none

/-- A dotted key, the equals sign and the value. -/
def scanPair (item : Scanner Value) : Scanner ((List String × String) × Value) := fun cs => do
  let (keys, rest) ← scanKeys cs
  match rest with
  | '=' :: rest =>
    let (v, rest) ← item (skipBlanks rest)
    return ((keys, v), rest)
  | _ => none

/-- The pairs of a table in braces and its closing brace, at most `n` of them, added to the ones
before. -/
def scanPairs (item : Scanner Value) : Nat → Entries → Scanner Entries
  | 0, _, _ => none
  | n + 1, es, cs => do
    let (((path, key), v), rest) ← scanPair item (skipBlanks cs)
    let es ← es.addKey .braces path key v
    match skipBlanks rest with
    | ',' :: rest => scanPairs item n es rest
    | '\x7d' :: rest => return (es, rest)
    | _ => none

/-- A value with at most `depth` arrays and tables in braces around each other. -/
def scanValue : Nat → Scanner Value
  | depth, cs =>
    match cs with
    | '"' :: _ | '\'' :: _ => do
      let (s, rest) ← scanString cs
      return (.string (String.ofList s), rest)
    | '[' :: rest =>
      match depth with
      | 0 => none
      | depth + 1 => do
        let (vs, rest) ← scanItems (scanValue depth) rest.length rest
        return (.array vs, rest)
    | '\x7b' :: rest =>
      match depth with
      | 0 => none
      | depth + 1 =>
        match skipBlanks rest with
        | '\x7d' :: rest => some (.table .braces [], rest)
        | rest => do
          let (es, rest) ← scanPairs (scanValue depth) rest.length [] rest
          return (.table .braces es, rest)
    | _ => scanWord cs

/-- The rest behind the end of a statement. Nothing but a comment may stand there on its line. -/
def endStatement? (cs : List Char) : Option (List Char) := do
  let rest ← skipLine? cs
  if rest.isEmpty then some [] else lineEnd? rest

/-- A document that is being read: the table so far, and the header whose table takes the next
pairs. -/
structure Draft where
  root : Entries := []
  header : List String := []

namespace Draft

/-- Add a pair to the table of the latest header. -/
def addPair (d : Draft) (path : List String) (key : String) (v : Value) : Option Draft :=
  (d.root.change false (fun origin es => Entries.addKey origin path key v es) d.header .header).map
    fun root => { d with root := root }

/-- One statement and the end of its line. -/
def scanStatement (d : Draft) : Scanner Draft := fun cs =>
  match cs with
  | '[' :: '[' :: cs => do
    let ((path, key), rest) ← scanKeys (skipBlanks cs)
    match rest with
    | ']' :: ']' :: rest =>
      let root ← d.root.openElement path key
      return (⟨root, path ++ [key]⟩, ← endStatement? rest)
    | _ => none
  | '[' :: cs => do
    let ((path, key), rest) ← scanKeys (skipBlanks cs)
    match rest with
    | ']' :: rest =>
      let root ← d.root.openTable path key
      return (⟨root, path ++ [key]⟩, ← endStatement? rest)
    | _ => none
  | cs => do
    let (((path, key), v), rest) ← scanPair (scanValue nestingLimit) cs
    return (← d.addPair path key v, ← endStatement? rest)

/-- At most `n` statements, up to the end of the text. -/
def scanAll : Nat → Draft → List Char → Option Draft
  | n, d, cs => do
    match ← skipSpace? cs with
    | [] => some d
    | cs =>
      match n with
      | 0 => none
      | n + 1 => do
        let (d, rest) ← d.scanStatement cs
        scanAll n d rest

end Draft

/-- The table that a document denotes. A byte order mark in front of it is ignored. -/
def document? (s : String) : Option Entries :=
  let cs := match s.toList with
    | '\uFEFF' :: cs => cs
    | cs => cs
  (Draft.scanAll cs.length {} cs).map Draft.root

end TrialSummary.Toml
