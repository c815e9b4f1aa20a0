/-!
# Natural numbers in decimal digits

Bounds and sums of counts, and the reading of counts, offsets and indices: ASCII digits with an
optional plus sign, below a bound.

Main statement: `natural?_repr` (a number below the bound is read back from its digits).
-/

namespace NetAudit.Number

/-- One more than the largest count, which has 64 bits. -/
def countBound : Nat := 0x10000000000000000

/-- One more than the largest iteration count or hop index, which have 32 bits. -/
def indexBound : Nat := 0x100000000

/-- The sum of a list. -/
def total : List Nat → Nat
  | [] => 0
  | n :: ns => n + total ns

/-- The value of a text of one or more ASCII digits, if it is below `bound`. -/
def digits? (bound : Nat) (cs : List Char) : Option Nat :=
  if cs.isEmpty || !cs.all Char.isDigit then none
  else if Nat.ofDigitChars 10 cs 0 < bound then some (Nat.ofDigitChars 10 cs 0) else none

/-- The value of a text of ASCII digits, with or without a plus sign, if it is below `bound`. -/
def natural? (bound : Nat) (cs : List Char) : Option Nat :=
  match cs with
  | '+' :: ds => digits? bound ds
  | ds => digits? bound ds

/-- The value of a hexadecimal digit of either case. -/
def hexDigit? (c : Char) : Option Nat :=
  if c.isDigit then some (c.toNat - '0'.toNat)
  else if 'a' ≤ c ∧ c ≤ 'f' then some (c.toNat - 'a'.toNat + 10)
  else if 'A' ≤ c ∧ c ≤ 'F' then some (c.toNat - 'A'.toNat + 10)
  else none

/-- The value of hexadecimal digits, the first of the highest place. -/
def hexDigits? (cs : List Char) : Option Nat :=
  (cs.mapM hexDigit?).map (·.foldl (16 * · + ·) 0)

/-! ### Reading back what is written -/

theorem digits?_toDigits {bound n : Nat} (h : n < bound) :
    digits? bound (Nat.toDigits 10 n) = some n := by
  have hall : (Nat.toDigits 10 n).all Char.isDigit := by
    rw [List.all_eq_true]
    exact fun c hc => Nat.isDigit_of_mem_toDigits (by decide) (by decide) hc
  have hne : (Nat.toDigits 10 n).isEmpty = false := by
    cases hd : Nat.toDigits 10 n with
    | cons => rfl
    | nil =>
      have := Nat.length_toDigits_pos (b := 10) (n := n)
      simp [hd] at this
  simp [digits?, hall, hne, Nat.ofDigitChars_toDigits, h]

/-- A number below the bound is read back from its digits. -/
theorem natural?_repr {bound n : Nat} (h : n < bound) :
    natural? bound (Nat.toDigits 10 n) = some n := by
  unfold natural?
  split
  · next ds hd =>
    have := Nat.isDigit_of_mem_toDigits (b := 10) (n := n) (c := '+') (by decide) (by decide)
      (hd ▸ List.mem_cons_self)
    exact absurd this (by decide)
  · exact digits?_toDigits h

end NetAudit.Number
