/-!
# Base64

Bytes as text: each three bytes as four characters of a fixed alphabet, the last group filled up
with equals signs.
-/

namespace MailTemplate.Base64

-- powers are those of the core library, whatever else is imported
attribute [local instance (high)] instPowNat

/-- The character for a number below 64. -/
def digit (n : Nat) : Char :=
  if n < 26 then Char.ofNat ('A'.toNat + n)
  else if n < 52 then Char.ofNat ('a'.toNat + (n - 26))
  else if n < 62 then Char.ofNat ('0'.toNat + (n - 52))
  else if n = 62 then '+'
  else '/'

/-- Bytes as text. -/
def encode : List UInt8 → List Char
  | a :: b :: c :: rest =>
    let n := (a.toNat * 256 + b.toNat) * 256 + c.toNat
    digit (n / 2 ^ (18 : Nat)) :: digit (n / 2 ^ (12 : Nat) % 64) ::
      digit (n / 2 ^ (6 : Nat) % 64) :: digit (n % 64) :: encode rest
  | [a, b] =>
    let n := (a.toNat * 256 + b.toNat) * 4
    [digit (n / 2 ^ (12 : Nat)), digit (n / 2 ^ (6 : Nat) % 64), digit (n % 64), '=']
  | [a] =>
    let n := a.toNat * 16
    [digit (n / 2 ^ (6 : Nat)), digit (n % 64), '=', '=']
  | [] => []

end MailTemplate.Base64
