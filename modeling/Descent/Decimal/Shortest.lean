/-!
# The fewest digits that read back

A finite floating-point number stands for an interval: the reals that round to
it, from halfway to the number below to halfway to the number above, the ends
included when its significand is even. `shortest` finds the decimal with the
fewest digits in that interval, and of those the nearest to the number; of two
equally near ones it takes the larger.

All of it is arithmetic on natural numbers. For one digit, two digits, and so
on, only the two neighbours of the number on that decimal grid are tried: if
any point of a grid lies in the interval, so does one of these two.
-/

namespace Descent

namespace Decimal

/-- A power of two. -/
def twoPow (n : Nat) : Nat := Nat.pow 2 n

/-- A power of ten. -/
def tenPow (n : Nat) : Nat := Nat.pow 10 n

/-- A number `significand * 2 ^ exponent`; `narrowBelow` when the number below is
half as far away as the number above. -/
structure Binary where
  significand : Nat
  exponent : Int
  narrowBelow : Bool
  deriving Repr, DecidableEq

/-- The magnitude of the finite number with these 64 bits. -/
def Binary.ofBits (bits : UInt64) : Binary :=
  let power : Nat := (bits.toNat / twoPow 52) % twoPow 11
  let fraction : Nat := bits.toNat % twoPow 52
  if power = 0 then ⟨fraction, -1074, false⟩
  else ⟨twoPow 52 + fraction, (power : Int) - 1075, fraction = 0 && 1 < power⟩

/-- A number `digits * 10 ^ exponent`. -/
structure Tens where
  digits : Nat
  exponent : Int
  deriving Repr, DecidableEq

/-- Compares `a * 10 ^ i` with `n * 2 ^ j`. -/
def compareScaled (a : Nat) (i : Int) (n : Nat) (j : Int) : Ordering :=
  compare (a * tenPow i.toNat * twoPow (-j).toNat) (n * twoPow j.toNat * tenPow (-i).toNat)

/-- Whether a decimal lies in the interval that a number stands for. -/
def Binary.covers (x : Binary) (d : Tens) : Bool :=
  let low := compareScaled d.digits d.exponent
    (4 * x.significand - if x.narrowBelow then 1 else 2) (x.exponent - 2)
  let high := compareScaled d.digits d.exponent (4 * x.significand + 2) (x.exponent - 2)
  let ends := x.significand % 2 = 0
  (low == .gt || (ends && low == .eq)) && (high == .lt || (ends && high == .eq))

/-- The largest multiple of `10 ^ i` that is not above the number, as its factor. -/
def Binary.floorTo (x : Binary) (i : Int) : Nat :=
  (x.significand * twoPow x.exponent.toNat * tenPow (-i).toNat)
    / (tenPow i.toNat * twoPow (-x.exponent).toNat)

/-- The least power of ten above the number, from an exponent on upwards. -/
def Binary.scaleFrom (x : Binary) : (steps : Nat) → Int → Int
  | 0, k => k
  | steps + 1, k =>
    if compareScaled 1 k x.significand x.exponent == .gt then k else x.scaleFrom steps (k + 1)

/-- The exponent of the least power of ten above the number. The binary logarithm
gives a lower bound for the search. -/
def Binary.scale (x : Binary) : Int :=
  let log := (x.significand.log2 : Int) + x.exponent
  x.scaleFrom 4 (log * 30103 / 100000 - 1)

/-- The better neighbour of the number on the grid of multiples of `10 ^ i`. -/
def Binary.onGrid (x : Binary) (i : Int) : Option Tens :=
  let below : Tens := ⟨x.floorTo i, i⟩
  let above : Tens := ⟨x.floorTo i + 1, i⟩
  match x.covers below, x.covers above with
  | true, false => some below
  | false, true => some above
  | false, false => none
  | true, true =>
    match compareScaled (below.digits + above.digits) i (2 * x.significand) x.exponent with
    | .gt => some below
    | _ => some above

/-- Trailing zeros moved into the exponent. -/
def Tens.strip : (steps : Nat) → Tens → Tens
  | 0, d => d
  | steps + 1, d =>
    if d.digits % 10 = 0 && d.digits != 0 then Tens.strip steps ⟨d.digits / 10, d.exponent + 1⟩
    else d

/-- **The decimal with the fewest digits that stands for the number.** -/
def Binary.shortest (x : Binary) : Tens :=
  if x.significand = 0 then ⟨0, 0⟩
  else
    let k := x.scale
    let found := (List.range 17).findSome? fun (n : Nat) => x.onGrid (k - 1 - (n : Int))
    (found.getD ⟨x.floorTo (k - 17), k - 17⟩).strip 20

end Decimal

end Descent
