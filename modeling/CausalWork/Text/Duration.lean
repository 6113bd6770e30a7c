import CausalWork.Text.Decimal

namespace CausalWork.Text

def thousandths (n : Nat) : List Char :=
  match ((fixed 3 n).reverse.dropWhile (· = '0')).reverse with
  | [] => []
  | ds => '.' :: ds

def duration (ms : Nat) : String :=
  if ms = 0 then "0ns"
  else if ms < 1000 then String.ofList (decimal ms) ++ "ms"
  else String.ofList (decimal (ms / 1000) ++ thousandths (ms % 1000)) ++ "s"

end CausalWork.Text
