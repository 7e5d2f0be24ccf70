/-! Natural numbers as doubles, which have 53 significant bits. -/
namespace FilterLang.Double

/-- The weight of the last bit that is kept of a number. -/
def unit (n : Nat) : Nat := Nat.pow 2 (n.log2 - 52)

/-- The nearest number with 53 significant bits. A tie goes to the even neighbour. -/
def nearest (n : Nat) : Nat :=
  let kept := n / unit n
  let dropped := n % unit n
  if unit n < 2 * dropped || unit n == 2 * dropped && kept % 2 == 1 then (kept + 1) * unit n
  else kept * unit n

/-- The least number that is rounded to infinity: half a unit above the largest double. -/
def overflow : Nat := Nat.pow 2 1024 - Nat.pow 2 970

end FilterLang.Double
