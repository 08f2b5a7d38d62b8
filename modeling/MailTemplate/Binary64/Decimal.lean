import MailTemplate.Binary64.Basic

/-!
# Decimal text of binary64 numbers

A finite number is written with the fewest digits that read back as the same number, and among
those with the digits nearest to it.  The search walks decimal grids from coarse to fine and tests
the two neighbours of the number on each; the coarsest grid with a neighbour that reads back gives
the digits.  How digits are laid out is a `Layout`.

Main statement: a decimal that the search returns reads back (`readsBack_of_search`).
-/

namespace MailTemplate

-- powers are those of the core library, whatever else is imported
attribute [local instance (high)] instPowNat

/-- Which of two equally near decimals is written. -/
inductive Tie where
  /-- The greater one. -/
  | up
  /-- The one whose last digit is even. -/
  | even
  deriving DecidableEq

/-- A decimal value: `digits` times ten to the power `exponent`. -/
structure Decimal where
  digits : Nat
  exponent : Int
  deriving DecidableEq

namespace Decimal

/-- The two neighbours of `magnitude` on the grid of multiples of `10 ^ exponent`, nearest first. -/
def neighbours (tie : Tie) (magnitude : Nat) (exponent : Int) : List Decimal :=
  let num := if exponent < 0 then magnitude * 10 ^ (-exponent).toNat else magnitude
  let den := if exponent < 0 then Binary64.one else Binary64.one * 10 ^ exponent.toNat
  let low := num / den
  let twice := 2 * (num % den)
  let upFirst := den < twice ∨ (twice = den ∧ (tie = .up ∨ low % 2 = 1))
  if upFirst then [⟨low + 1, exponent⟩, ⟨low, exponent⟩] else [⟨low, exponent⟩, ⟨low + 1, exponent⟩]

/-- The decimal reads back as the nonnegative number of the given rank. -/
def readsBack (rank : Fin rankLimit) (d : Decimal) : Bool :=
  Binary64.ofDecimal false d.digits d.exponent == .finite false rank

/-- The first decimal that reads back, from the grid `10 ^ exponent` through the next `steps` finer
ones. -/
def search (tie : Tie) (rank : Fin rankLimit) : (steps : Nat) → (exponent : Int) → Option Decimal
  | 0, _ => none
  | steps + 1, exponent =>
    match (neighbours tie (Binary64.magnitude rank) exponent).find? (readsBack rank) with
    | some d => some d
    | none => search tie rank steps (exponent - 1)

/-- The decimal expansion of a number in full. -/
def exact (rank : Fin rankLimit) : Decimal :=
  ⟨Binary64.magnitude rank * 5 ^ (1074 : Nat), -1074⟩

/-- A power of ten above the number: with a value below 2^b, the search need not start above
10^(b·0.3011 + 1). -/
def topExponent (rank : Fin rankLimit) : Int :=
  ((Nat.log2 (Binary64.magnitude rank) : Int) + 1 - 1074) * 1233 / 4096 + 1

/-- The shortest decimal that reads back as the nonnegative number of the given rank. -/
def shortest (tie : Tie) (rank : Fin rankLimit) : Decimal :=
  if rank.val = 0 then ⟨0, 0⟩ else (search tie rank 20 (topExponent rank)).getD (exact rank)

theorem readsBack_of_search {tie : Tie} {rank : Fin rankLimit} {steps : Nat} {exponent : Int}
    {d : Decimal} (h : search tie rank steps exponent = some d) : readsBack rank d = true := by
  induction steps generalizing exponent with
  | zero => simp [search] at h
  | succ n ih =>
    simp only [search] at h
    split at h
    · next d' hd =>
      cases h
      exact List.find?_some hd
    · exact ih h

/-- The digits of the decimal, most significant first. -/
def digitText (d : Decimal) : List Char := Nat.toDigits 10 d.digits

end Decimal

/-- How the digits of a number are laid out. -/
structure Layout where
  /-- Which of two equally near decimals is written. -/
  tie : Tie
  /-- Positional notation is used when the count of digits before the point lies in this range;
  without a range it is always used. -/
  positional : Option (Int × Int)
  /-- An integer is written with a fraction part. -/
  fraction : Bool
  /-- The texts of a number without value, and of the positive and the negative infinity. -/
  special : String × String × String

namespace Layout

/-- The digits around a point that stands after the first `whole` of them. -/
def place (fraction : Bool) (digits : List Char) (whole : Int) : List Char :=
  if whole ≤ 0 then
    '0' :: '.' :: (List.replicate (-whole).toNat '0' ++ digits)
  else
    let before := digits.take whole.toNat
    let padding := List.replicate (whole.toNat - digits.length) '0'
    match digits.drop whole.toNat with
    | [] => before ++ padding ++ if fraction then ['.', '0'] else []
    | after => before ++ '.' :: after

/-- The digits in scientific notation; `whole` counts the digits before the point. -/
def scientific (digits : List Char) (whole : Int) : List Char :=
  let exponent := whole - 1
  let power := (if exponent < 0 then '-' else '+') :: Nat.toDigits 10 exponent.natAbs
  match digits with
  | [] => []
  | [d] => d :: 'e' :: power
  | d :: ds => d :: '.' :: (ds ++ 'e' :: power)

/-- The text of a nonnegative finite number. -/
def unsigned (layout : Layout) (rank : Fin rankLimit) : List Char :=
  let d := Decimal.shortest layout.tie rank
  let digits := d.digitText
  let whole := d.exponent + digits.length
  match layout.positional with
  | none => place layout.fraction digits whole
  | some (low, high) =>
    if low ≤ whole ∧ whole ≤ high then place layout.fraction digits whole
    else scientific digits whole

/-- The text of a number. -/
def chars (layout : Layout) : Binary64 → List Char
  | .nan => layout.special.1.toList
  | .infinite false => layout.special.2.1.toList
  | .infinite true => layout.special.2.2.toList
  | .finite false rank => unsigned layout rank
  | .finite true rank => '-' :: unsigned layout rank

/-- The text of a number. -/
def write (layout : Layout) (x : Binary64) : String := String.ofList (layout.chars x)

/-- Digits and a point only, as style sheets expect them; an integer has no fraction part. -/
def plain : Layout where
  tie := .up
  positional := none
  fraction := false
  special := ("NaN", "inf", "-inf")

end Layout

end MailTemplate
