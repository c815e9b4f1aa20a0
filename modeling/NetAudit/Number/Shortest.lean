import NetAudit.Number.Binary64

/-!
# The shortest decimal that reads back

A finite double-precision number is written with the fewest significant digits from which it is
read back; of two decimals of that length the nearer one. A number from `0.00001` up to, but
without, `1e16` is written out, with a digit on both sides of the point; any other has an exponent,
which always has a sign.
-/

namespace NetAudit.Number

/-- The least `t` with `num / den < 10 ^ t`, for the value of a number of the format: found from its
binary exponent, since `1233 / 4096` is the logarithm of two to within the format's range. -/
def decimalExponent (num den : Nat) : Int :=
  let guess := binaryExponent num den * 1233 / 4096
  let below (t : Int) : Bool := let (n, d) := scaled 10 num den (-t); n < d
  if below (guess - 1) then guess - 1
  else if below guess then guess
  else if below (guess + 1) then guess + 1
  else guess + 2

/-- The natural next to the value in units of `10 ^ unit` that reads back as `rank`. -/
def readsBack? (rank num den : Nat) (unit : Int) : Option Nat :=
  let (n, d) := scaled 10 num den (-unit)
  let low := n / d
  let good (k : Nat) : Bool :=
    let (a, b) := scaled 10 k 1 unit
    rankOfRatio a b == rank
  match good low, good (low + 1) with
  | true, true => some (roundHalfEven n d)
  | true, false => some low
  | false, true => some (low + 1)
  | false, false => none

/-- The shortest digits and their unit for a positive finite number, from `places` places on. -/
def shortestFrom (rank num den : Nat) (top : Int) : Nat → Nat → Nat × Int
  | 0, _ => (0, 0)
  | fuel + 1, places =>
    match readsBack? rank num den (top - places) with
    | some k => (k, top - places)
    | none => shortestFrom rank num den top fuel (places + 1)

/-- The shortest digits, without zeros at the end, and the power of ten of the last one. -/
def shortest (rank : Nat) : List Char × Int :=
  let (m, q) := significandAndExponent rank
  let (num, den) := scaled 2 m 1 q
  let (k, unit) := shortestFrom rank num den (decimalExponent num den) 17 1
  let ds := Nat.toDigits 10 k
  let kept := (ds.reverse.dropWhile (· == '0')).reverse
  (kept, unit + (ds.length - kept.length : Nat))

/-- A finite number in decimal notation. -/
def Binary64.decimal (x : Binary64) : String :=
  let sign := if x.negative then "-" else ""
  if x.rank = 0 then sign ++ "0.0"
  else
    let (ds, unit) := shortest x.rank
    let point : Int := ds.length + unit
    let zeros (n : Int) : List Char := List.replicate n.toNat '0'
    let body : List Char :=
      if 0 ≤ unit ∧ point ≤ 16 then ds ++ zeros unit ++ ['.', '0']
      else if 0 < point ∧ point ≤ 16 then ds.take point.toNat ++ '.' :: ds.drop point.toNat
      else if -5 < point ∧ point ≤ 0 then '0' :: '.' :: zeros (-point) ++ ds
      else
        let lead := match ds with
          | [] => []
          | [d] => [d]
          | d :: rest => d :: '.' :: rest
        let exponent := point - 1
        lead ++ 'e' :: (if exponent < 0 then '-' else '+') :: Nat.toDigits 10 exponent.natAbs
    sign ++ String.ofList body

end NetAudit.Number
