import MailTemplate.Binary64.Decimal
import MailTemplate.Json.Basic
import MailTemplate.Json.Error

/-!
# Numbers in JSON text

Digits are gathered into a 64-bit significand; digits beyond its range only move the decimal
exponent, and fraction digits beyond it are dropped.  The significand becomes a binary64 number,
which is then scaled by a power of ten.  A number without fraction and exponent that fits 64 bits is
an integer.
-/

namespace MailTemplate.Json

-- powers are those of the core library, whatever else is imported
attribute [local instance (high)] instPowNat

/-- The greatest significand. -/
def maxSignificand : Nat := 2 ^ (64 : Nat) - 1

/-- The value of a digit. -/
def digitValue (c : Char) : Nat := c.toNat - '0'.toNat

/-- A significand extended by the digits that keep it in range: the new significand, the number of
digits taken, and the text after them. -/
def gather (significand : Nat) : List Char → Nat × Nat × List Char
  | [] => (significand, 0, [])
  | c :: cs =>
    if c.isDigit && significand * 10 + digitValue c ≤ maxSignificand then
      let (s, n, rest) := gather (significand * 10 + digitValue c) cs
      (s, n + 1, rest)
    else (significand, 0, c :: cs)

/-- Ten to a power, rounded. -/
def powerOfTen (n : Nat) : Binary64 := Binary64.ofDecimal false 1 n

/-- A number scaled by a power of ten, 308 at a time; none if the result has no finite value.  Once
the number is zero, further scaling leaves it so; each step of a negative power brings it nearer
to zero, and `fuel` bounds their number. -/
def scale (x : Binary64) (exponent : Int) : (fuel : Nat) → Option Binary64
  | 0 => some x
  | fuel + 1 =>
    if exponent.natAbs ≤ 308 then
      if 0 ≤ exponent then
        let y := x * powerOfTen exponent.natAbs
        if y.isFinite then some y else none
      else some (x / powerOfTen exponent.natAbs)
    else if x.same 0 then some x
    else if 0 ≤ exponent then none
    else scale (x / powerOfTen 308) (exponent + 308) fuel

/-- The number with a sign, a significand and a decimal exponent, at the place `rest`. -/
def assemble (negative : Bool) (significand : Nat) (exponent : Int) (rest : List Char) :
    Except Fault (Json × List Char) :=
  match scale (Binary64.ofNat significand) exponent 5 with
  | some x => .ok (.float (if negative then x.neg else x), rest)
  | none => .error (.before .numberOutOfRange rest)

/-- An exponent below 2^31 in digits, extending `value`; none when the next digit would exceed
it, with the text after that digit. -/
def exponentDigits (value : Nat) : List Char → Option Nat × List Char
  | [] => (some value, [])
  | c :: cs =>
    if c.isDigit then
      if value * 10 + digitValue c < 2 ^ (31 : Nat) then
        exponentDigits (value * 10 + digitValue c) cs
      else (none, cs)
    else (some value, c :: cs)

/-- An exponent, after its letter. -/
def readExponent (negative : Bool) (significand : Nat) (start : Int) (cs : List Char) :
    Except Fault (Json × List Char) :=
  let (down, cs) := match cs with
    | '+' :: r => (false, r)
    | '-' :: r => (true, r)
    | r => (false, r)
  match cs with
  | [] => .error (.before .endInValue [])
  | c :: rest =>
    if !c.isDigit then .error (.onto .invalidNumber (c :: rest))
    else
      match exponentDigits (digitValue c) rest with
      | (some e, rest) =>
        let exponent := if down then start - e else start + e
        assemble negative significand
          (max (-2 ^ (31 : Nat)) (min (2 ^ (31 : Nat) - 1) exponent)) rest
      | (none, rest) =>
        if significand ≠ 0 ∧ !down then .error (.before .numberOutOfRange rest)
        else .ok (.float (Binary64.signedZero negative), rest.dropWhile Char.isDigit)

/-- What follows the digits of a number that is not an integer. -/
def readTail (negative : Bool) (significand : Nat) (exponent : Int) (cs : List Char) :
    Except Fault (Json × List Char) :=
  match cs with
  | 'e' :: rest => readExponent negative significand exponent rest
  | 'E' :: rest => readExponent negative significand exponent rest
  | rest => assemble negative significand exponent rest

/-- A fraction, after its point: at least one digit. -/
def readFraction (negative : Bool) (significand : Nat) (exponent : Int) (cs : List Char) :
    Except Fault (Json × List Char) :=
  let (s, taken, rest) := gather significand cs
  match rest with
  | [] =>
    if taken = 0 then .error (.before .endInValue [])
    else assemble negative s (exponent - taken) []
  | c :: r =>
    if c.isDigit then readTail negative s (exponent - taken) (r.dropWhile Char.isDigit)
    else if taken = 0 then .error (.onto .invalidNumber (c :: r))
    else readTail negative s (exponent - taken) (c :: r)

/-- What follows the digits of a number whose significand is complete. -/
def readRest (negative : Bool) (significand : Nat) (cs : List Char) :
    Except Fault (Json × List Char) :=
  match cs with
  | '.' :: rest => readFraction negative significand 0 rest
  | 'e' :: rest => readExponent negative significand 0 rest
  | 'E' :: rest => readExponent negative significand 0 rest
  | rest =>
    if !negative then .ok (.int significand, rest)
    else if 0 < significand ∧ significand ≤ 2 ^ (63 : Nat) then .ok (.int (-significand), rest)
    else .ok (.float (Binary64.ofNat significand).neg, rest)

/-- What follows the digits of a number of which `dropped` further digits did not fit. -/
def readLong (negative : Bool) (significand dropped : Nat) (cs : List Char) :
    Except Fault (Json × List Char) :=
  match cs with
  | '.' :: rest => readFraction negative significand dropped rest
  | rest => readTail negative significand dropped rest

/-- A number after its sign. -/
def readNumber (negative : Bool) : List Char → Except Fault (Json × List Char)
  | [] => .error (.before .endInValue [])
  | '0' :: rest =>
    match rest with
    | c :: r => if c.isDigit then .error (.onto .invalidNumber (c :: r))
      else readRest negative 0 (c :: r)
    | [] => readRest negative 0 []
  | c :: rest =>
    if !c.isDigit then .error (.onto .invalidNumber (c :: rest))
    else
      let (s, _, rest) := gather (digitValue c) rest
      let long := rest.takeWhile Char.isDigit
      if long.isEmpty then readRest negative s rest
      else readLong negative s long.length (rest.dropWhile Char.isDigit)

/-- The layout of binary64 numbers: positional from 10^-5 up to below 10^16, always with a fraction
part; elsewhere scientific.  Numbers without a finite value are written `null`. -/
def numberLayout : Layout where
  tie := .even
  positional := some (-4, 16)
  fraction := true
  special := ("null", "null", "null")

end MailTemplate.Json
