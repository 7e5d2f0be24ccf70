import FilterLang.Text.Basic

/-! Decimal numbers as text. Only ASCII digits count, and a number has to fit in 64 bits. -/
namespace FilterLang.Text

/-- The number that a non-empty run of digits spells; leading zeros are allowed. -/
def digits? (s : Text) : Option Nat :=
  if !s.isEmpty && s.all Char.isDigit then some (Nat.ofDigitChars 10 s 0) else none

theorem digits?_eq_some_iff {s : Text} {n : Nat} :
    digits? s = some n ↔ s ≠ [] ∧ (∀ c ∈ s, c.isDigit) ∧ Nat.ofDigitChars 10 s 0 = n := by
  simp only [digits?, Option.ite_none_right_eq_some, Bool.and_eq_true, Bool.not_eq_true',
    List.isEmpty_eq_false_iff, List.all_eq_true, Option.some.injEq, and_assoc]

/-- A number with an optional sign, of any size. -/
def integer? : Text → Option Int
  | '-' :: s => (digits? s).map fun n => -(n : Int)
  | '+' :: s => (digits? s).map Int.ofNat
  | s => (digits? s).map Int.ofNat

/-- An integer of the signed 64-bit range. -/
def int64? (s : Text) : Option Int :=
  (integer? s).filter fun n => decide (-0x8000000000000000 ≤ n ∧ n ≤ 0x7FFFFFFFFFFFFFFF)

/-- A number of the unsigned 64-bit range. No minus sign is allowed, not even on zero. -/
def nat64? (s : Text) : Option Nat :=
  let unsigned := match s with
    | '+' :: rest => rest
    | _ => s
  (digits? unsigned).filter fun n => decide (n ≤ 0xFFFFFFFFFFFFFFFF)

def ofNat (n : Nat) : Text := Nat.toDigits 10 n

def ofInt : Int → Text
  | .ofNat n => ofNat n
  | .negSucc n => '-' :: ofNat (n + 1)

end FilterLang.Text
