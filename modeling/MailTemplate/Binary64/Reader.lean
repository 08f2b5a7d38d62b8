import MailTemplate.Binary64.Basic
import MailTemplate.Text.Affix

/-!
# Reading numbers from decimal text

A number is an optional sign and either digits with an optional point and an optional exponent, or
one of the words `inf`, `infinity` and `nan` in any letter case.  The value is the nearest number.
Whole numbers are an optional plus sign and digits.
-/

namespace MailTemplate

namespace Text

/-- The value of a run of decimal digits. -/
def digitsValue (ds : List Char) : Nat :=
  ds.foldl (fun n d => 10 * n + (d.toNat - '0'.toNat)) 0

/-- A whole number up to `limit`: digits, after at most one plus sign. -/
def wholeNumber? (limit : Nat) (cs : List Char) : Option Nat :=
  let ds := (dropHead? ['+'] cs).getD cs
  if ds.isEmpty || !ds.all Char.isDigit || limit < digitsValue ds then none
  else some (digitsValue ds)

end Text

namespace Binary64

/-- The exponent after the digits: none written is zero. -/
def readExponent? : List Char → Option Int
  | [] => some 0
  | e :: cs =>
    if e = 'e' ∨ e = 'E' then
      let (negative, ds) := match cs with
        | '-' :: ds => (true, ds)
        | '+' :: ds => (false, ds)
        | ds => (false, ds)
      if ds.isEmpty || !ds.all Char.isDigit then none
      else some (if negative then -(Text.digitsValue ds : Int) else Text.digitsValue ds)
    else none

/-- A number without sign: at least one digit, before or after the point. -/
def readUnsigned? (negative : Bool) (cs : List Char) : Option Binary64 :=
  let whole := cs.takeWhile Char.isDigit
  let (fraction, rest) := match cs.dropWhile Char.isDigit with
    | '.' :: r => (r.takeWhile Char.isDigit, r.dropWhile Char.isDigit)
    | r => ([], r)
  if whole.isEmpty && fraction.isEmpty then none
  else do
    let exponent ← readExponent? rest
    return ofDecimal negative (Text.digitsValue (whole ++ fraction)) (exponent - fraction.length)

/-- The number that a text writes. -/
def read? (cs : List Char) : Option Binary64 :=
  let (negative, body) := match cs with
    | '-' :: r => (true, r)
    | '+' :: r => (false, r)
    | r => (false, r)
  let word := Text.lowerAscii body
  if word = "inf".toList ∨ word = "infinity".toList then some (infinite negative)
  else if word = "nan".toList then some nan
  else readUnsigned? negative body

/-- The number that a text writes. -/
def ofText? (s : String) : Option Binary64 := read? s.toList

end Binary64

end MailTemplate
