import MailTemplate.Binary64.Basic
import MailTemplate.Json.Reader
import MailTemplate.Text.Affix
import MailTemplate.Text.Blank

/-!
# Colours

Colours of three byte channels, their hexadecimal text, and the arithmetic that derives lighter and
darker ones.  Arithmetic is on binary64 numbers, each result rounded to the nearest channel value.

Main statement: the two digits of a channel read back (`channel?_channelText`).
-/

namespace MailTemplate

/-- A colour of red, green and blue channels. -/
structure Color where
  red : UInt8
  green : UInt8
  blue : UInt8
  deriving DecidableEq, Repr, Inhabited

namespace Color

/-- A hexadecimal digit in upper case. -/
def digit (n : Nat) : Char := (Nat.digitChar n).toUpper

/-- The two digits of a channel. -/
def channelText (c : UInt8) : List Char := [digit (c.toNat / 16), digit (c.toNat % 16)]

/-- The text of a colour: a number sign and six digits in upper case. -/
def hexChars (c : Color) : List Char :=
  '#' :: (channelText c.red ++ channelText c.green ++ channelText c.blue)

/-- The text of a colour. -/
def hex (c : Color) : String := String.ofList c.hexChars

/-- The channel that two digits write. -/
def channel? (high low : Char) : Option UInt8 := do
  let h ← Json.hexValue? high
  let l ← Json.hexValue? low
  return (h * 16 + l).toUInt8

/-- The colour that three or six digits write; of three, each stands for two. -/
def ofDigits? : List Char → Option Color
  | [r, g, b] => do return ⟨← channel? r r, ← channel? g g, ← channel? b b⟩
  | [r, r', g, g', b, b'] => do return ⟨← channel? r r', ← channel? g g', ← channel? b b'⟩
  | _ => none

/-- The colour that a text writes, with or without number signs before the digits. -/
def parse? (text : String) : Option Color :=
  ofDigits? ((Text.trim text.toList).dropWhile (· == '#'))

theorem channel?_channelText (c : UInt8) :
    channel? (digit (c.toNat / 16)) (digit (c.toNat % 16)) = some c := by
  have h : ∀ n : Fin 256,
      channel? (digit (n.val / 16)) (digit (n.val % 16)) = some n.val.toUInt8 := by
    decide +kernel
  have hc := h ⟨c.toNat, c.toNat_lt⟩
  simpa using hc

/-- A channel as a number. -/
def value (c : UInt8) : Binary64 := Binary64.ofNat c.toNat

/-- The channel nearest to a number. -/
def toChannel (x : Binary64) : UInt8 := x.round.toByte.toUInt8

/-- Every channel changed by one function. -/
def mapChannels (c : Color) (f : UInt8 → UInt8) : Color := ⟨f c.red, f c.green, f c.blue⟩

/-- Each channel moved towards white by the fraction `t` of its distance. -/
def lighten (c : Color) (t : Binary64) : Color :=
  c.mapChannels fun v => toChannel (value v + (Binary64.ofNat 255 - value v) * t)

/-- Each channel moved towards black by the fraction `t`. -/
def darken (c : Color) (t : Binary64) : Color :=
  c.mapChannels fun v => toChannel (value v * (Binary64.ofNat 1 - t))

/-- The perceived luminance, from zero to one. -/
def luminance (c : Color) : Binary64 :=
  let weight (thousandths : Nat) := Binary64.ofDecimal false thousandths (-3)
  (weight 299 * value c.red + weight 587 * value c.green + weight 114 * value c.blue) /
    Binary64.ofNat 255

/-- Black. -/
def black : Color := ⟨0, 0, 0⟩

/-- White. -/
def white : Color := ⟨255, 255, 255⟩

/-- The text colour that is readable on a colour: black on light ones, white on all others. -/
def readableOn (c : Color) : Color :=
  if (Binary64.ofDecimal false 58 (-2)).lt c.luminance then black else white

end Color

end MailTemplate
