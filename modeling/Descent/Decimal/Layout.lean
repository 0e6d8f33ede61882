import Descent.Decimal.Shortest

/-!
# How real numbers are written

A real number is written with the fewest digits that read back, with two
layouts: the plain one never uses an exponent and shows no fraction that is
zero; the detailed one always shows that the number is real, and uses an
exponent for very large and very small ones.
-/

namespace Descent

namespace Decimal

/-- What a layout decides. -/
structure Layout where
  /-- The exponents of the leading digit that are written without an exponent. -/
  positional : Int → Bool
  /-- What an integer written without an exponent ends with. -/
  integerTail : String

/-- The plain layout: no exponents, no empty fractions. -/
def Layout.plain : Layout := ⟨fun _ => true, ""⟩

/-- The detailed layout: exponents from sixteen digits on and below a ten-thousandth. -/
def Layout.detailed : Layout := ⟨fun e => -4 ≤ e && e < 16, ".0"⟩

def zeros (n : Nat) : String := String.ofList (List.replicate n '0')

/-- A decimal that is not zero, in a layout. -/
def Layout.writeTens (layout : Layout) (d : Tens) : String :=
  let digits := toString d.digits
  let count := digits.length
  let leading := d.exponent + count - 1
  if layout.positional leading then
    if 0 ≤ d.exponent then digits ++ zeros d.exponent.toNat ++ layout.integerTail
    else if 0 ≤ leading then
      String.ofList (digits.toList.take (leading.toNat + 1)) ++ "."
        ++ String.ofList (digits.toList.drop (leading.toNat + 1))
    else "0." ++ zeros ((-leading).toNat - 1) ++ digits
  else
    String.ofList (digits.toList.take 1)
      ++ (if count ≤ 1 then "" else "." ++ String.ofList (digits.toList.drop 1))
      ++ "e" ++ toString leading

/-- **A real number in a layout.** -/
def Layout.write (layout : Layout) (x : Float) : String :=
  let bits := x.toBits
  let power := (bits.toNat / twoPow 52) % twoPow 11
  let sign := if bits.toNat / twoPow 63 = 1 then "-" else ""
  if power = 2047 then
    if bits.toNat % twoPow 52 = 0 then sign ++ "inf" else "NaN"
  else
    let b := Binary.ofBits bits
    if b.significand = 0 then sign ++ "0" ++ layout.integerTail
    else sign ++ layout.writeTens b.shortest

end Decimal

end Descent
