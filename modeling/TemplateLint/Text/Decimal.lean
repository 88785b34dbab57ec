/-
  TemplateLint.Text.Decimal — natural numbers in decimal digits.

  `digits` writes a number and `value` reads a run of digits; leading zeros
  do not change the value.
-/
namespace TemplateLint.Decimal

/-- The decimal digits of `n`, without leading zeros; zero is a single `0`. -/
def digits (n : Nat) : List Char :=
  Nat.toDigits 10 n

/-- The decimal digits of `n` as a string. -/
def render (n : Nat) : String :=
  String.ofList (digits n)

/-- The number that a run of decimal digits denotes. -/
def value (ds : List Char) : Nat :=
  ds.foldl (fun n d => 10 * n + (d.toNat - 48)) 0

end TemplateLint.Decimal
