import TrialSummary.Text.Numeral

/-!
# Strings and keys of TOML

Scanners take the beginning of a text and give what it denotes and the rest, or `none` if the text
does not begin as it should. There are four kinds of strings: in double quotes, where a backslash
escapes, and in single quotes, where nothing does; and each either on one line or, with three
quotes, on several. A key is a bare word or a string on one line, and a dotted key has several of
them.

In a string on several lines, a line end directly behind the opening quotes is dropped, every other
one is a line feed, and a backslash at the end of a line takes all blanks up to the next other
character away. One or two quotes may stand directly in front of the closing ones.
-/

namespace TrialSummary.Toml

/-- A scanner: what the beginning of a text denotes, and the rest. -/
abbrev Scanner (α : Type) := List Char → Option (α × List Char)

def isLineBlank (c : Char) : Bool := c == ' ' || c == '\t'

def skipBlanks (cs : List Char) : List Char := cs.dropWhile isLineBlank

/-- Characters that comments and strings may have within a line: all but the controls, and the tab.
Quotes and backslashes are dealt with before. -/
def isLineChar (c : Char) : Bool := c == '\t' || (decide (0x20 ≤ c.toNat) && c.toNat != 0x7f)

def lineEnd? : List Char → Option (List Char)
  | '\n' :: cs => some cs
  | '\r' :: '\n' :: cs => some cs
  | _ => none

def prepend (c : Char) (scanned : Option (List Char × List Char)) :
    Option (List Char × List Char) :=
  scanned.map fun r => (c :: r.1, r.2)

def hexValue? (c : Char) : Option Nat :=
  if '0' ≤ c ∧ c ≤ '9' then some (c.toNat - '0'.toNat)
  else if 'a' ≤ c ∧ c ≤ 'f' then some (c.toNat - 'a'.toNat + 10)
  else if 'A' ≤ c ∧ c ≤ 'F' then some (c.toNat - 'A'.toNat + 10)
  else none

/-- The character with the number given by hexadecimal digits. Surrogates are no characters. -/
def charOfHex? (digits : List Char) : Option Char := do
  let n ← digits.foldlM (fun n c => return 16 * n + (← hexValue? c)) 0
  if n.isValidChar then some (Char.ofNat n) else none

/-- What a backslash and a letter stand for. -/
def escaped? : Char → Option Char
  | 'b' => some '\x08'
  | 't' => some '\t'
  | 'n' => some '\n'
  | 'f' => some '\x0c'
  | 'r' => some '\r'
  | '"' => some '"'
  | '\\' => some '\\'
  | _ => none

/-- The rest of a string in double quotes. -/
def basicString : Scanner (List Char)
  | '"' :: cs => some ([], cs)
  | '\\' :: 'u' :: a :: b :: c :: d :: cs => do
    prepend (← charOfHex? [a, b, c, d]) (basicString cs)
  | '\\' :: 'U' :: a :: b :: c :: d :: e :: f :: g :: h :: cs => do
    prepend (← charOfHex? [a, b, c, d, e, f, g, h]) (basicString cs)
  | '\\' :: c :: cs => do prepend (← escaped? c) (basicString cs)
  | c :: cs => if isLineChar c && c != '\\' then prepend c (basicString cs) else none
  | [] => none

/-- The rest of a string in single quotes. -/
def literalString : Scanner (List Char)
  | '\'' :: cs => some ([], cs)
  | c :: cs => if isLineChar c then prepend c (literalString cs) else none
  | [] => none

/-- Whether nothing but blanks is left on the line. -/
def endsLine (cs : List Char) : Bool := (lineEnd? (skipBlanks cs)).isSome

/-- The rest of a string in three double quotes. After a backslash at the end of a line, `skipping`
is on until something else than a blank or a line end comes. -/
def basicText (skipping : Bool) : Scanner (List Char)
  | '"' :: '"' :: '"' :: '"' :: '"' :: cs => some (['"', '"'], cs)
  | '"' :: '"' :: '"' :: '"' :: cs => some (['"'], cs)
  | '"' :: '"' :: '"' :: cs => some ([], cs)
  | '\r' :: '\n' :: cs => if skipping then basicText true cs else prepend '\n' (basicText false cs)
  | '\n' :: cs => if skipping then basicText true cs else prepend '\n' (basicText false cs)
  | '\\' :: 'u' :: a :: b :: c :: d :: cs => do
    prepend (← charOfHex? [a, b, c, d]) (basicText false cs)
  | '\\' :: 'U' :: a :: b :: c :: d :: e :: f :: g :: h :: cs => do
    prepend (← charOfHex? [a, b, c, d, e, f, g, h]) (basicText false cs)
  | '\\' :: c :: cs =>
    if endsLine (c :: cs) then basicText true (c :: cs)
    else do prepend (← escaped? c) (basicText false cs)
  | c :: cs =>
    if skipping && isLineBlank c then basicText true cs
    else if isLineChar c && c != '\\' then prepend c (basicText false cs)
    else none
  | [] => none

/-- The rest of a string in three single quotes. -/
def literalText : Scanner (List Char)
  | '\'' :: '\'' :: '\'' :: '\'' :: '\'' :: cs => some (['\'', '\''], cs)
  | '\'' :: '\'' :: '\'' :: '\'' :: cs => some (['\''], cs)
  | '\'' :: '\'' :: '\'' :: cs => some ([], cs)
  | '\r' :: '\n' :: cs => prepend '\n' (literalText cs)
  | '\n' :: cs => prepend '\n' (literalText cs)
  | c :: cs => if isLineChar c then prepend c (literalText cs) else none
  | [] => none

def dropLineEnd (cs : List Char) : List Char := (lineEnd? cs).getD cs

def scanString : Scanner (List Char)
  | '"' :: '"' :: '"' :: cs => basicText false (dropLineEnd cs)
  | '"' :: cs => basicString cs
  | '\'' :: '\'' :: '\'' :: cs => literalText (dropLineEnd cs)
  | '\'' :: cs => literalString cs
  | _ => none

def isBareKeyChar (c : Char) : Bool := c.isAlphanum || c == '_' || c == '-'

def scanKey : Scanner String
  | '"' :: cs => (basicString cs).map fun r => (String.ofList r.1, r.2)
  | '\'' :: cs => (literalString cs).map fun r => (String.ofList r.1, r.2)
  | cs =>
    let bare := cs.takeWhile isBareKeyChar
    if bare.isEmpty then none else some (String.ofList bare, cs.drop bare.length)

/-- How deep arrays and tables in braces may be nested, and how many keys a dotted key may have. -/
def nestingLimit : Nat := 79

/-- Up to `n` more keys, each behind a dot. -/
def scanMoreKeys : Nat → Scanner (List String)
  | n, cs =>
    match skipBlanks cs with
    | '.' :: rest =>
      match n with
      | 0 => none
      | n + 1 => do
        let (key, rest) ← scanKey (skipBlanks rest)
        let (keys, rest) ← scanMoreKeys n rest
        return (key :: keys, rest)
    | rest => some ([], rest)

/-- A dotted key with the blanks behind it, as the keys before the last one and the last one. -/
def scanKeys (cs : List Char) : Option ((List String × String) × List Char) := do
  let (key, rest) ← scanKey cs
  let (keys, rest) ← scanMoreKeys (nestingLimit - 1) rest
  return (((key :: keys).dropLast, (key :: keys).getLast (List.cons_ne_nil key keys)), rest)

end TrialSummary.Toml
