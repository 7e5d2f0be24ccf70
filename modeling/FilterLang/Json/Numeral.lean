import FilterLang.Double
import FilterLang.Text.Decimal

/-! Numbers of JSON documents, kept as they are spelled. -/
namespace FilterLang

/-- A number as it is spelled. -/
structure Numeral where
  negative : Bool
  whole : Text
  fraction : Text
  exponent : Int

namespace Numeral

def ofInt (n : Int) : Numeral := ⟨decide (n < 0), Text.ofNat n.natAbs, [], 0⟩

/-- Appends digits to a number as long as it fits in 64 bits, and returns the digits left over. -/
def appendDigits (m : Nat) : Text → Nat × Text
  | [] => (m, [])
  | c :: rest =>
    let longer := 10 * m + (c.toNat - '0'.toNat)
    if longer ≤ 0xFFFFFFFFFFFFFFFF then appendDigits longer rest else (m, c :: rest)

/-- The leading digits as a number of 64 bits, and the power of ten that it is to be multiplied by.
Digits left over in front of the point still count as places, those behind it do not. -/
def scientific (n : Numeral) : Nat × Int :=
  let (m, wholeLeft) := appendDigits 0 n.whole
  let (m, fractionLeft) := appendDigits m n.fraction
  (m, wholeLeft.length - (n.fraction.length - fractionLeft.length : Nat) + n.exponent)

/-- Whether the number is finite as a double. The leading digits and the power of ten are rounded
each for itself, and it is their product that has to be in range. -/
def fitsDouble (n : Numeral) : Bool :=
  let (m, e) := n.scientific
  m == 0 || e < 0 ||
    e ≤ 308 && Double.nearest m * Double.nearest (Nat.pow 10 e.toNat) < Double.overflow

end Numeral

end FilterLang
