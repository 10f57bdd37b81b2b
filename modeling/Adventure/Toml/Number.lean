/-
# Reading numbers and moments

Integers are decimal with a sign, or have one of the marks `0x`, `0o`, `0b`
and no sign; they fit 64 bits.  Between digits, and only there, an underscore
may stand.  Of a float only this is kept, that it is one; a float beyond the
largest double is refused, unless it is negative.  Moments are dates and
times of day, in the ranges of the calendar.
-/
import Adventure.Toml.Quotation

namespace Adventure
namespace Toml
namespace Number

open Scan

/-! ## Digits -/

/-- A decimal digit. -/
def isDigit (c : Char) : Bool :=
  '0' ≤ c && c ≤ '9'

/-- Digits that satisfy a test, with single underscores between them. -/
def digits (test : Char → Bool) : Scan (List Char) := do
  let first ← satisfying test
  let more ← many (satisfying test <|> do
    char '_'
    satisfying test)
  pure (first :: more)

/-- The value of digits in a base. -/
def value (base : Nat) (ds : List Char) : Nat :=
  Quotation.ofDigits base (ds.filterMap Quotation.hexDigit?)

/-- A sign; whether it is a minus. -/
def sign : Scan Bool :=
  (do
    char '+'
    pure false) <|> (do
    char '-'
    pure true) <|> pure false

/-- Decimal digits without a leading zero, unless zero is all there is. -/
def wholeDigits : Scan (List Char) :=
  such (digits isDigit) fun ds => ds.length == 1 || ds.head? != some '0'

/-! ## Integers -/

/-- Digits behind a mark. -/
def marked (mark : Char) (base : Nat) : Scan Int := do
  word ['0', mark]
  let ds ← digits fun c => match Quotation.hexDigit? c with
    | some d => d < base
    | none => false
  pure (value base ds)

/-- A decimal with a sign. -/
def decimal : Scan Int := do
  let negative ← sign
  let ds ← wholeDigits
  let n : Int := value 10 ds
  pure (if negative then -n else n)

/-- An integer of 64 bits. -/
def integer : Scan Int :=
  such (marked 'x' 16 <|> marked 'o' 8 <|> marked 'b' 2 <|> decimal)
    fun n => -(Int.pow 2 63) ≤ n && n < Int.pow 2 63

/-! ## Floats -/

/-- The least number that is nearer to infinity than to the largest double,
ties included. -/
def overflow : Nat := Nat.pow 2 1024 - Nat.pow 2 970

/-- Whether `n * 10 ^ e` is below `overflow`.  Far from it the number of
digits decides. -/
def isFinite (n : Nat) (e : Int) : Bool :=
  let length : Int := (Nat.toDigits 10 n).length
  if n = 0 then true
  else if length + e < 300 then true
  else if 320 < length + e then false
  else if 0 ≤ e then n * Nat.pow 10 e.toNat < overflow
  else n < overflow * Nat.pow 10 (-e).toNat

/-- An exponent. -/
def exponent : Scan Int := do
  char 'e' <|> char 'E'
  let negative ← sign
  let ds ← digits isDigit
  let n : Int := value 10 ds
  pure (if negative then -n else n)

/-- A point and the digits behind it. -/
def fraction : Scan (List Char) := do
  char '.'
  digits isDigit

/-- What makes a float of an integer: an exponent, or a fraction and perhaps
an exponent. -/
def floatTail : Scan (List Char × Int) :=
  (do
    let e ← exponent
    pure ([], e)) <|> do
    let ds ← fraction
    let e ← optional exponent
    pure (ds, e.getD 0)

/-- A float in digits. -/
def finiteFloat : Scan Unit := do
  let negative ← sign
  let whole ← wholeDigits
  let (behind, e) ← floatTail
  if negative || isFinite (value 10 (whole ++ behind)) (e - behind.length) then pure ()
  else failure

/-- Infinity or not a number. -/
def specialFloat : Scan Unit := do
  let _ ← sign
  word ['i', 'n', 'f'] <|> word ['n', 'a', 'n']

/-- A float. -/
def float : Scan Unit :=
  finiteFloat <|> specialFloat

/-! ## Dates and times -/

/-- A number of exactly `count` digits, in a range. -/
def fixed (count low high : Nat) : Scan Nat :=
  such (do
    let ds ← times (satisfying isDigit) count
    pure (value 10 ds)) fun n => low ≤ n && n ≤ high

/-- The number of days in a month. -/
def daysIn (year month : Nat) : Nat :=
  if month = 2 then
    if year % 4 = 0 ∧ (year % 100 ≠ 0 ∨ year % 400 = 0) then 29 else 28
  else if month = 4 ∨ month = 6 ∨ month = 9 ∨ month = 11 then 30
  else 31

/-- A day of the calendar. -/
def date : Scan Unit := do
  let year ← fixed 4 0 9999
  char '-'
  let month ← fixed 2 1 12
  char '-'
  let _ ← fixed 2 1 (daysIn year month)

/-- A time of day; a minute may have a sixtieth second. -/
def time : Scan Unit := do
  let _ ← fixed 2 0 23
  char ':'
  let _ ← fixed 2 0 59
  char ':'
  let _ ← fixed 2 0 60
  let _ ← optional (do
    char '.'
    several (satisfying isDigit))

/-- The distance from universal time. -/
def zone : Scan Unit :=
  char 'Z' <|> char 'z' <|> do
    char '+' <|> char '-'
    let _ ← fixed 2 0 23
    char ':'
    let _ ← fixed 2 0 59

/-- A date, a time of day, or both. -/
def moment : Scan Unit :=
  (do
    date
    let _ ← optional (do
      char 'T' <|> char 't' <|> char ' '
      time
      let _ ← optional zone)) <|> time

end Number
end Toml
end Adventure
