/-!
# Numerals in messages

Addresses are written in base sixteen behind `0x`, without leading zeros; counts are written in
base ten and, in tables, filled up with zeros on the left.

## Main definitions

* `hex`, `hexUpper` — a number in base sixteen, with small or capital digits.
* `zeroPadded` — a decimal numeral of at least the given width.
-/

namespace DemandPaging

/-- A number in base sixteen, small digits, no leading zeros: `0x0` for zero. -/
def hex (n : Nat) : String :=
  "0x" ++ String.ofList (Nat.toDigits 16 n)

/-- A number in base sixteen with capital digits behind a small `0x`. -/
def hexUpper (n : Nat) : String :=
  "0x" ++ String.ofList ((Nat.toDigits 16 n).map Char.toUpper)

/-- A decimal numeral, filled with zeros on the left up to `width` digits. -/
def zeroPadded (width n : Nat) : String :=
  let digits := Nat.toDigits 10 n
  String.ofList (List.replicate (width - digits.length) '0' ++ digits)

end DemandPaging
