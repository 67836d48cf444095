import TrialSummary.Decimal.Basic
import TrialSummary.Toml.Scan
import TrialSummary.Toml.Value

/-!
# Numbers, booleans and points in time of TOML

Every value that is neither a string nor in brackets or braces is a word of letters, digits and a
few signs, and each kind has its own grammar. A whole number has to fit into 64 signed bits. A float
that rounds to positive infinity is refused; infinity is written as a word. Points in time are
checked for the ranges of their parts and the lengths of the months, and they may have a blank
between date and time.
-/

namespace TrialSummary.Toml

/-- Digits with single underscores between some of them; the underscores are dropped. -/
def plainDigits? (isDigit : Char → Bool) (cs : List Char) : Option (List Char) :=
  let parts := cs.splitOn '_'
  if parts.all fun p => !p.isEmpty && p.all isDigit then some parts.flatten else none

/-- Decimal digits of a whole number, which begin with zero only for zero itself. -/
def wholeDigits? (cs : List Char) : Option (List Char) :=
  if cs = ['0'] ∨ cs.head? ≠ some '0' then plainDigits? Char.isDigit cs else none

def int64Value? (z : Int) : Option Value :=
  if Int64.minValue.toInt ≤ z ∧ z ≤ Int64.maxValue.toInt then some (.integer z) else none

/-- A whole number in a power of two as base. -/
def radixInteger? (base : Nat) (cs : List Char) : Option Value := do
  let digits ← plainDigits? (fun c => ((hexValue? c).map fun v => decide (v < base)).getD false) cs
  int64Value? (digits.foldl (fun n c => base * n + (hexValue? c).getD 0) 0)

def integer? : List Char → Option Value
  | '0' :: 'x' :: cs => radixInteger? 16 cs
  | '0' :: 'o' :: cs => radixInteger? 8 cs
  | '0' :: 'b' :: cs => radixInteger? 2 cs
  | cs => do
    let (minus, body) := Text.splitSign cs
    let n := Text.digitsValue (← wholeDigits? body)
    int64Value? (if minus then -(n : Int) else n)

def floatExponent? (cs : List Char) : Option Int := do
  let (minus, body) := Text.splitSign cs
  let n := Text.digitsValue (← plainDigits? Char.isDigit body)
  return if minus then -(n : Int) else n

/-- The exact value of a float, which has a fraction or an exponent or both. -/
def floatDecimal? (cs : List Char) : Option Decimal := do
  let mantissa := cs.takeWhile fun c => c != 'e' && c != 'E'
  let exponent? := (cs.dropWhile fun c => c != 'e' && c != 'E').tail?
  let exponent ← match exponent? with
    | some e => floatExponent? e
    | none => some 0
  match mantissa.splitOn '.' with
  | [whole] =>
    if exponent?.isNone then none
    else return ⟨Text.digitsValue (← wholeDigits? whole), exponent⟩
  | [whole, fraction] =>
    let w ← wholeDigits? whole
    let f ← plainDigits? Char.isDigit fraction
    return ⟨Text.digitsValue (w ++ f), exponent - f.length⟩
  | _ => none

def float? (cs : List Char) : Option Value :=
  let (minus, body) := Text.splitSign cs
  if body = "inf".toList then some (.float (.infinity minus))
  else if body = "nan".toList then some (.float (.nan minus))
  else do
    let x := (← floatDecimal? body).toBinary64 minus
    if x = .infinity false then none else some (.float x)

def twoDigits? (a b : Char) : Option Nat :=
  if a.isDigit && b.isDigit then some (Text.digitsValue [a, b]) else none

def daysInMonth (year month : Nat) : Nat :=
  if month = 2 then
    if year % 4 = 0 ∧ (year % 100 ≠ 0 ∨ year % 400 = 0) then 29 else 28
  else if month = 4 ∨ month = 6 ∨ month = 9 ∨ month = 11 then 30
  else 31

/-- A date, as in `1979-05-27`. -/
def isDate : List Char → Bool
  | [a, b, c, d, '-', m₁, m₂, '-', d₁, d₂] =>
    match twoDigits? a b, twoDigits? c d, twoDigits? m₁ m₂, twoDigits? d₁ d₂ with
    | some century, some year, some month, some day =>
      1 ≤ month && month ≤ 12 && 1 ≤ day && day ≤ daysInMonth (century * 100 + year) month
    | _, _, _, _ => false
  | _ => false

def isHourMinute : List Char → Bool
  | [h₁, h₂, ':', m₁, m₂] =>
    match twoDigits? h₁ h₂, twoDigits? m₁ m₂ with
    | some hour, some minute => hour ≤ 23 && minute ≤ 59
    | _, _ => false
  | _ => false

/-- Seconds with or without a fraction, behind a colon. A minute may have a leap second. -/
def isSecond : List Char → Bool
  | ':' :: a :: b :: rest =>
    (match twoDigits? a b with
      | some second => second ≤ 60
      | none => false) &&
    match rest with
      | [] => true
      | '.' :: fraction => !fraction.isEmpty && fraction.all Char.isDigit
      | _ => false
  | _ => false

/-- A time, as in `07:32:00.5`. -/
def isTime (cs : List Char) : Bool := isHourMinute (cs.take 5) && isSecond (cs.drop 5)

/-- The distance from universal time, which may be left out. -/
def isOffset : List Char → Bool
  | [] | ['Z'] | ['z'] => true
  | '+' :: cs | '-' :: cs => isHourMinute cs
  | _ => false

/-- A date, a time, or both with an offset. -/
def isDateTime (cs : List Char) : Bool :=
  isDate cs || isTime cs ||
    (isDate (cs.take 10) &&
      match cs.drop 10 with
      | sep :: rest =>
        let isTimeChar := fun c : Char => c.isDigit || c == ':' || c == '.'
        (sep == 'T' || sep == 't' || sep == ' ') &&
          isTime (rest.takeWhile isTimeChar) && isOffset (rest.dropWhile isTimeChar)
      | [] => false)

def isWordChar (c : Char) : Bool :=
  c.isAlphanum || c == '+' || c == '-' || c == '_' || c == '.' || c == ':'

def wordValue? (cs : List Char) : Option Value :=
  if cs = "true".toList then some (.boolean true)
  else if cs = "false".toList then some (.boolean false)
  else if isDateTime cs then some (.datetime (String.ofList cs))
  else (integer? cs).or (float? cs)

/-- A word and its value. A date takes the time behind a single blank in. -/
def scanWord : Scanner Value := fun cs => do
  let word := cs.takeWhile isWordChar
  let rest := cs.dropWhile isWordChar
  let plain := (wordValue? word).map fun v => (v, rest)
  match rest with
  | ' ' :: more =>
    let both := word ++ ' ' :: more.takeWhile isWordChar
    if isDate word && isDateTime both then
      some (.datetime (String.ofList both), more.dropWhile isWordChar)
    else plain
  | _ => plain

end TrialSummary.Toml
