/-!
# Double-precision numbers

The numbers of the binary64 format other than its NaNs, by their place in the order. The
non-negative ones in ascending order are numbered from 0, which is zero, to `infinityRank`; the
number of each is its bit pattern. So comparison is comparison of integers, and the two zeros,
both at place 0, are equal in the order.

`rankOfRatio` rounds a quotient of naturals to the nearest of these numbers; of two that are
equally near it takes the one with the even bit pattern.
-/

namespace NetAudit.Number

/-- The place of infinity among the non-negative numbers. -/
def infinityRank : Nat := 0x7ff0000000000000

/-- The bit of the sign. -/
def signBit : Nat := 0x8000000000000000

/-- The least significand of a normal number, and so the number of places between two powers of
two. -/
def leastNormal : Nat := 0x10000000000000

/-- A double-precision number, or an infinity: a sign and a place among the non-negative. -/
structure Binary64 where
  negative : Bool
  rank : Nat
  rank_le : rank ≤ infinityRank
deriving DecidableEq

namespace Binary64

/-- The place of a number among all, zero in the middle. -/
def key (x : Binary64) : Int := if x.negative then -(x.rank : Int) else x.rank

instance : LE Binary64 := ⟨fun x y => x.key ≤ y.key⟩

instance : LT Binary64 := ⟨fun x y => x.key < y.key⟩

instance (x y : Binary64) : Decidable (x ≤ y) := inferInstanceAs (Decidable (x.key ≤ y.key))

instance (x y : Binary64) : Decidable (x < y) := inferInstanceAs (Decidable (x.key < y.key))

/-- The numbers stand at the same place: they are equal as quantities. -/
def same (x y : Binary64) : Bool := x.key == y.key

/-- The 64 bits of the format. -/
def bits (x : Binary64) : Nat := if x.negative then signBit + x.rank else x.rank

/-- The number of a given sign at the place `rank`, or the infinity if that lies beyond it. -/
def atRank (negative : Bool) (rank : Nat) : Binary64 :=
  ⟨negative, min rank infinityRank, Nat.min_le_right ..⟩

end Binary64

/-- The natural nearest to a quotient, of two the even one. -/
def roundHalfEven (num den : Nat) : Nat :=
  let q := num / den
  let r := num % den
  if 2 * r < den then q
  else if den < 2 * r then q + 1
  else if q % 2 = 0 then q else q + 1

/-- The exponent `e` with `2 ^ e ≤ num / den < 2 ^ (e + 1)`. -/
def binaryExponent (num den : Nat) : Int :=
  let e : Int := num.log2 - den.log2
  if num <<< den.log2 < den <<< num.log2 then e - 1 else e

/-- A quotient times a power of a base, as numerator and denominator. -/
def scaled (base num den : Nat) (e : Int) : Nat × Nat :=
  (num * Nat.pow base e.toNat, den * Nat.pow base (-e).toNat)

/-- The place of the number nearest to a quotient, infinity if it lies beyond the largest. -/
def rankOfRatio (num den : Nat) : Nat :=
  if num = 0 then 0
  else
    let unit : Int := max (binaryExponent num den - 52) (-1074)
    let (n, d) := scaled 2 num den (-unit)
    min infinityRank ((unit + 1074).toNat * leastNormal + roundHalfEven n d)

/-- The finite non-negative number at the place `rank`, as a natural times a power of two. -/
def significandAndExponent (rank : Nat) : Nat × Int :=
  if rank < leastNormal then (rank, -1074)
  else (leastNormal + rank % leastNormal, (rank / leastNormal : Nat) - 1075)

namespace Binary64

/-- The number nearest to a natural. -/
def ofNat (n : Nat) : Binary64 := atRank false (rankOfRatio n 1)

instance (n : Nat) : OfNat Binary64 n := ⟨ofNat n⟩

/-- The infinity of a given sign. -/
def infinity (negative : Bool) : Binary64 := atRank negative infinityRank

/-- The number nearest to `digits * 10 ^ exponent`, where `digits` is written with `places` digits.
A value of more than 310 digits before the point is infinite, and one with more than 330 zeros
after it is zero, whatever its digits. -/
def ofDecimal (negative : Bool) (digits places : Nat) (exponent : Int) : Binary64 :=
  if digits = 0 ∨ places + exponent < -330 then atRank negative 0
  else if 310 < places + exponent then infinity negative
  else
    let (n, d) := scaled 10 digits 1 exponent
    atRank negative (rankOfRatio n d)

end Binary64

example : (3000 : Binary64).bits = 0x40a7700000000000 := by decide

end NetAudit.Number
