/-!
# Binary64 numbers

Double-precision numbers with exact arithmetic behind every operation.  A finite number is a sign
and a rank: the ranks count the nonnegative finite numbers upwards from zero, so that order of
numbers is order of ranks.  The value of a number is an integer multiple of the least positive one,
2^(-1074); an operation computes with these multiples and rounds once, to the nearest number, a tie
going to the even rank.
-/

namespace MailTemplate

-- powers are those of the core library, whatever else is imported
attribute [local instance (high)] instPowNat

/-- The number of nonnegative finite binary64 numbers. -/
def rankLimit : Nat := 2047 * 2 ^ (52 : Nat)

/-- A double-precision number. -/
inductive Binary64 where
  /-- The result of an operation without a value. -/
  | nan
  /-- An infinity of the given sign. -/
  | infinite (negative : Bool)
  /-- A finite number: its sign and its place among the nonnegative finite numbers. -/
  | finite (negative : Bool) (rank : Fin rankLimit)
  deriving DecidableEq

namespace Binary64

/-! ### Values of ranks -/

/-- One, as a multiple of the least positive number. -/
def one : Nat := 2 ^ (1074 : Nat)

/-- The number of halvings of precision below a rank: the exponent of its spacing. -/
def spacing (rank : Nat) : Nat := rank / 2 ^ (52 : Nat) - 1

/-- The value of a rank as a multiple of the least positive number. -/
def magnitude (rank : Nat) : Nat :=
  (rank - spacing rank * 2 ^ (52 : Nat)) * 2 ^ spacing rank

/-- A quotient rounded to the nearest integer, a tie going to the even one. -/
def roundEven (num den : Nat) : Nat :=
  let q := num / den
  let r := num % den
  if 2 * r < den then q else if den < 2 * r then q + 1 else q + q % 2

/-- A quotient rounded to the nearest integer, a tie going up. -/
def roundUp (num den : Nat) : Nat :=
  (2 * num + den) / (2 * den)

/-- The rank nearest to `num / den` multiples of the least positive number, as if ranks had no
limit. -/
def nearestRank (num den : Nat) : Nat :=
  let k := Nat.log2 (num / den) - 52
  k * 2 ^ (52 : Nat) + roundEven num (den * 2 ^ k)

/-- The number nearest to a quotient in multiples of the least positive number. -/
def ofQuotient (negative : Bool) (num den : Nat) : Binary64 :=
  let rank := nearestRank num den
  if h : rank < rankLimit then finite negative ⟨rank, h⟩ else infinite negative

/-- Zero of the given sign. -/
def signedZero (negative : Bool) : Binary64 := ofQuotient negative 0 1

/-- The number nearest to an integer multiple of the least positive number; zero is positive. -/
def ofMultiple (n : Int) : Binary64 := ofQuotient (n < 0) n.natAbs 1

/-- The number nearest to a natural number. -/
def ofNat (n : Nat) : Binary64 := ofQuotient false (n * one) 1

/-- The number nearest to an integer. -/
def ofInt (n : Int) : Binary64 := ofQuotient (n < 0) (n.natAbs * one) 1

/-- The number nearest to `digits` times ten to the power `exponent`.

The two early answers keep the powers small: ten to the four hundredth lies above every finite
number, and a value below 2^(-1100) rounds to zero. -/
def ofDecimal (negative : Bool) (digits : Nat) (exponent : Int) : Binary64 :=
  if digits = 0 then signedZero negative
  else if 400 < exponent then infinite negative
  else if (Nat.log2 digits : Int) + 1 + 3 * exponent < -1100 then signedZero negative
  else if 0 ≤ exponent then ofQuotient negative (digits * 10 ^ exponent.toNat * one) 1
  else ofQuotient negative (digits * one) (10 ^ (-exponent).toNat)

instance : Inhabited Binary64 := ⟨signedZero false⟩

instance (n : Nat) : OfNat Binary64 n := ⟨ofNat n⟩

/-! ### Classification and order -/

/-- Neither infinite nor without value. -/
def isFinite : Binary64 → Bool
  | finite _ _ => true
  | _ => false

/-- The order of two numbers; none if one has no value.  The two zeros are equal. -/
def compare? : Binary64 → Binary64 → Option Ordering
  | nan, _ => none
  | _, nan => none
  | infinite s, infinite t => some (compare t.toNat s.toNat)
  | infinite s, finite _ _ => some (if s then .lt else .gt)
  | finite _ _, infinite t => some (if t then .gt else .lt)
  | finite s a, finite t b => some (compare (signed s a) (signed t b))
where
  /-- The rank with its sign, which orders finite numbers as their values do. -/
  signed (negative : Bool) (rank : Fin rankLimit) : Int :=
    if negative then -(rank.val : Int) else rank.val

/-- The first number is smaller; false if one has no value. -/
def lt (x y : Binary64) : Bool := x.compare? y == some .lt

/-- The first number is smaller or equal; false if one has no value. -/
def le (x y : Binary64) : Bool := x.compare? y == some .lt || x.compare? y == some .eq

/-- The numbers have equal values; a number without value equals none, itself included. -/
def same (x y : Binary64) : Bool := x.compare? y == some .eq

/-! ### Arithmetic -/

/-- The number with its sign turned. -/
def neg : Binary64 → Binary64
  | nan => nan
  | infinite s => infinite !s
  | finite s r => finite (!s) r

/-- The number with a positive sign. -/
def abs : Binary64 → Binary64
  | nan => nan
  | infinite _ => infinite false
  | finite _ r => finite false r

/-- The rounded sum; a sum of zero is negative only between negative zeros. -/
def add : Binary64 → Binary64 → Binary64
  | nan, _ => nan
  | _, nan => nan
  | infinite s, infinite t => if s = t then infinite s else nan
  | infinite s, finite _ _ => infinite s
  | finite _ _, infinite t => infinite t
  | finite s a, finite t b =>
    let value (negative : Bool) (rank : Nat) : Int :=
      if negative then -(magnitude rank : Int) else magnitude rank
    let sum := value s a + value t b
    if sum = 0 then signedZero (s && t) else ofMultiple sum

/-- The rounded difference. -/
def sub (x y : Binary64) : Binary64 := x.add y.neg

/-- The rounded product. -/
def mul : Binary64 → Binary64 → Binary64
  | nan, _ => nan
  | _, nan => nan
  | infinite s, infinite t => infinite (s != t)
  | infinite s, finite t b => if b.val = 0 then nan else infinite (s != t)
  | finite s a, infinite t => if a.val = 0 then nan else infinite (s != t)
  | finite s a, finite t b => ofQuotient (s != t) (magnitude a * magnitude b) one

/-- The rounded quotient; a nonzero number over zero is infinite. -/
def div : Binary64 → Binary64 → Binary64
  | nan, _ => nan
  | _, nan => nan
  | infinite _, infinite _ => nan
  | infinite s, finite t _ => infinite (s != t)
  | finite s _, infinite t => signedZero (s != t)
  | finite s a, finite t b =>
    if b.val = 0 then if a.val = 0 then nan else infinite (s != t)
    else ofQuotient (s != t) (magnitude a * one) (magnitude b)

instance : Add Binary64 := ⟨add⟩

instance : Sub Binary64 := ⟨sub⟩

instance : Mul Binary64 := ⟨mul⟩

instance : Div Binary64 := ⟨div⟩

instance : Neg Binary64 := ⟨neg⟩

/-- The nearest integer, a tie going away from zero; the sign is kept. -/
def round : Binary64 → Binary64
  | finite s r => ofQuotient s (roundUp (magnitude r) one * one) 1
  | x => x

/-- The greatest integer that is not above the number. -/
def floor : Binary64 → Binary64
  | finite s r =>
    let m := magnitude r
    ofQuotient s ((if s then (m + one - 1) / one else m / one) * one) 1
  | x => x

/-- The number is finite and an integer. -/
def isInteger : Binary64 → Bool
  | finite _ r => magnitude r % one = 0
  | _ => false

/-- The integer part of a number, moved into the range from `low` to `high`; zero if the number has
no value. -/
def truncateTo (low high : Int) : Binary64 → Int
  | nan => 0
  | infinite s => if s then low else high
  | finite s r =>
    let n : Int := magnitude r / one
    max low (min high (if s then -n else n))

/-- The number as a byte: its integer part between 0 and 255. -/
def toByte (x : Binary64) : Nat := (x.truncateTo 0 255).toNat

/-- The number moved into the range from `low` to `high`; one without value stays. -/
def clamp (x low high : Binary64) : Binary64 :=
  let x := if x.lt low then low else x
  if high.lt x then high else x

end Binary64

end MailTemplate
