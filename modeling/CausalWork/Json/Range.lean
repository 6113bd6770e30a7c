import CausalWork.Text.Decimal

namespace CausalWork.Json

/-- The nearest number of 53 binary digits, of two that are equally near the even one. -/
def rounded (n : Nat) : Nat :=
  let unit := Nat.pow 2 (n.log2 - 52)
  let half := 2 * (n % unit)
  if unit < half ∨ unit = half ∧ n / unit % 2 = 1 then (n / unit + 1) * unit else n / unit * unit

def limit : Nat := Nat.pow 2 1024 - Nat.pow 2 970

def lead (n : Nat) : List Char → Nat × List Char
  | [] => (n, [])
  | c :: cs =>
    let next := 10 * n + Text.digitValue c
    if next < UInt64.size then lead next cs else (n, c :: cs)

/-- Whether a number is too large, given by its digits before and after the point and its exponent.
Its leading digits and a power of ten are rounded, and then their product. -/
def isHuge (whole fraction : List Char) (exponent : Int) : Bool :=
  let (n, left) := lead 0 whole
  let (n, after) := lead n fraction
  let power := exponent + left.length - (fraction.length - after.length : Nat)
  n ≠ 0 && 0 ≤ power &&
    (308 < power || limit ≤ rounded n * rounded (Nat.pow 10 power.toNat))

end CausalWork.Json
