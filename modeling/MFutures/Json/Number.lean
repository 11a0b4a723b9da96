import Mathlib.Data.Rat.Defs
import Mathlib.Algebra.Order.Ring.Rat
import MFutures.Lib.Rounding
import MFutures.Value

namespace MFutures.Json

def maxLargestUInt : Nat := 2 ^ 64 - 1

def maxLargestInt : Nat := 2 ^ 63 - 1

def minLargestInt : Int := -(2 ^ 63)

/-- The doubles, with no largest exponent. -/
def binary64 : Grid := ⟨2, 53, some (-1074), by decide, by decide⟩

/-- The numbers of seventeen decimal digits. -/
def decimal17 : Grid := ⟨10, 17, none, by decide, by decide⟩

section reader

/-- The end of a fractional part, if there is one. -/
def skipFraction (current : List Char) : List Char :=
  match current with
  | '.' :: current => current.dropWhile Char.isDigit
  | _ => current

/-- Whether a minus sign stands in front, and what follows the sign, if there is one. -/
def readSign (s : List Char) : Bool × List Char :=
  match s with
  | '-' :: s => (true, s)
  | '+' :: s => (false, s)
  | _ => (false, s)

/-- The end of an exponential part, if there is one. -/
def skipExponent (current : List Char) : List Char :=
  match current with
  | [] => []
  | c :: rest => if c = 'e' ∨ c = 'E' then (readSign rest).2.dropWhile Char.isDigit else current

/-- The end of a number of which the first character is read. -/
def readNumber (current : List Char) : List Char :=
  skipExponent (skipFraction (current.dropWhile Char.isDigit))

/-- The exponent of a decimal. Without any digit it is no number. -/
def readExponent (s : List Char) : Option Int :=
  let (negative, digits) := readSign s
  if (digits.takeWhile Char.isDigit).isEmpty then none
  else
    let n := Nat.ofDigitChars 10 (digits.takeWhile Char.isDigit) 0
    some (if negative then -(n : Int) else n)

/-- The digits of a fraction, and what follows it. -/
def readFraction (s : List Char) : List Char × List Char :=
  match s with
  | '.' :: s => (s.takeWhile Char.isDigit, s.dropWhile Char.isDigit)
  | _ => ([], s)

/-- The exponent at the front of a text, 0 where there is none. -/
def readScale (s : List Char) : Option Int :=
  match s with
  | [] => some 0
  | c :: s => if c = 'e' ∨ c = 'E' then readExponent s else some 0

/-- The unsigned decimal at the front of a text, as the extraction of a `double`
from a stream takes it. -/
def readUnsigned (s : List Char) : Option ℚ :=
  let int := s.takeWhile Char.isDigit
  let (frac, rest) := readFraction (s.dropWhile Char.isDigit)
  if (int ++ frac).isEmpty then none
  else
    (readScale rest).map fun (exponent : Int) =>
      (Nat.ofDigitChars 10 (int ++ frac) 0 : ℚ) * 10 ^ (exponent - frac.length)

/-- A decimal, by its sign and its size. -/
def readDecimal (s : List Char) : Option (Bool × ℚ) :=
  match s with
  | '-' :: s => (readUnsigned s).map fun magnitude => (true, magnitude)
  | _ => (readUnsigned s).map fun magnitude => (false, magnitude)

/-- The double next to a number. A zero keeps the sign. The extraction fails on a
number that is too large. -/
def nearestDouble (negative : Bool) (magnitude : ℚ) : Option Double :=
  let significand := binary64.significand magnitude
  if 2 ^ 1024 ≤ binary64.round magnitude then none
  else if negative ∧ significand = 0 then some .negZero
  else some (.finite (.ofIntWithPrec (if negative then -significand else significand) (-binary64.ulp magnitude)))

def decodeDouble (token : List Char) : Option Value :=
  ((readDecimal token).bind fun decimal => nearestDouble decimal.1 decimal.2).map .realValue

/-- The loop of `decodeNumber`; `none` where it turns to `decodeDouble`. -/
def decodeInteger (maxIntegerValue : Nat) : Nat → List Char → Option Nat
  | value, [] => some value
  | value, c :: current =>
    if c.isDigit then
      let digit := c.toNat - '0'.toNat
      let threshold := maxIntegerValue / 10
      if threshold ≤ value ∧ (threshold < value ∨ current ≠ [] ∨ maxIntegerValue % 10 < digit) then none
      else decodeInteger maxIntegerValue ((value * 10 + digit) % 2 ^ 64) current
    else none

def decodeNumber (token : List Char) : Option Value :=
  let isNegative := token.head? = some '-'
  let current := if isNegative then token.tail else token
  let maxIntegerValue := if isNegative then maxLargestInt + 1 else maxLargestUInt
  match decodeInteger maxIntegerValue 0 current with
  | none => decodeDouble token
  | some value =>
    if isNegative ∧ value = maxIntegerValue then some (.intValue minLargestInt)
    else if isNegative then some (.intValue (-value))
    else if (value : Int) ≤ maxInt then some (.intValue value)
    else some (.uintValue value)

end reader

section writer

def uintToString (value : Nat) : List Char := Nat.toDigits 10 value

def intToString (value : Int) : List Char :=
  if value = minLargestInt then '-' :: uintToString (maxLargestInt + 1)
  else if value < 0 then '-' :: uintToString value.natAbs
  else uintToString value.natAbs

def stripZeros (digits : List Char) : List Char := (digits.reverse.dropWhile (· = '0')).reverse

/-- A fraction without digits has no point. -/
def withPoint (int frac : List Char) : List Char := if frac = [] then int else int ++ '.' :: frac

/-- The exponent of the `%e` style, with at least two digits. -/
def exponentText (exponent : Int) : List Char :=
  let digits := Nat.toDigits 10 exponent.natAbs
  (if exponent < 0 then '-' else '+') :: (if digits.length < 2 then '0' :: digits else digits)

/-- The seventeen digits next to a positive number, and the exponent of the last. -/
def digits17 (x : ℚ) : Nat × Int :=
  let significand := (decimal17.significand x).toNat
  if significand = 10 ^ 17 then (10 ^ 16, decimal17.ulp x + 1) else (significand, decimal17.ulp x)

/-- `%.17g` of a positive number. -/
def printfG (x : ℚ) : List Char :=
  let digits := Nat.toDigits 10 (digits17 x).1
  let exponent := (digits17 x).2 + 16
  if -4 ≤ exponent ∧ exponent < 17 then
    if 0 ≤ exponent then
      withPoint (digits.take (exponent.toNat + 1)) (stripZeros (digits.drop (exponent.toNat + 1)))
    else withPoint ['0'] (stripZeros (List.replicate (-exponent - 1).toNat '0' ++ digits))
  else withPoint (digits.take 1) (stripZeros (digits.drop 1)) ++ 'e' :: exponentText exponent

/-- `%.17g` of a number with a sign. -/
def snprintfG (negative : Bool) (magnitude : ℚ) : List Char :=
  let digits := if magnitude = 0 then ['0'] else printfG magnitude
  if negative then '-' :: digits else digits

/-- The buffer has a decimal point or an exponent in the end. -/
def withDecimalPoint (buffer : List Char) : List Char :=
  if '.' ∈ buffer ∨ 'e' ∈ buffer then buffer else buffer ++ ['.', '0']

/-- `valueToString` of a double, without special floats. -/
def doubleToString : Double → List Char
  | .finite v => withDecimalPoint (snprintfG (decide (v.toRat < 0)) |v.toRat|)
  | .negZero => withDecimalPoint (snprintfG true 0)
  | .infinite negative => if negative then "-1e+9999".toList else "1e+9999".toList
  | .nan => "null".toList

end writer

end MFutures.Json
