import CausalWork.Text.Blank
import CausalWork.Text.Decimal
import CausalWork.Timestamp

namespace CausalWork

open Text

namespace Moment

/-- Years of four digits stand alone; all others carry a sign and four digits or more. -/
def yearChars (year : Int) : List Char :=
  if 0 ≤ year ∧ year ≤ 9999 then fixed 4 year.toNat
  else (if year < 0 then '-' else '+') :: padded 4 year.natAbs

/-- The fewest of 0, 3, 6 or 9 digits that show the nanoseconds exactly. -/
def fractionChars (nano : Nat) : List Char :=
  if nano = 0 then []
  else if nano % 1000000 = 0 then '.' :: fixed 3 (nano / 1000000)
  else if nano % 1000 = 0 then '.' :: fixed 6 (nano / 1000)
  else '.' :: fixed 9 nano

def dateChars (d : Date) : List Char :=
  yearChars d.year ++ '-' :: fixed 2 d.month ++ '-' :: fixed 2 d.day

def clockChars (c : Clock) : List Char :=
  let leap := c.nano / 1000000000
  fixed 2 (c.second / 3600) ++ ':' :: fixed 2 (c.second / 60 % 60) ++
    ':' :: fixed 2 (c.second % 60 + leap) ++ fractionChars (c.nano % 1000000000)

def chars (t : Moment) : List Char := dateChars t.date ++ 'T' :: clockChars t.clock ++ ['Z']

def toText (t : Moment) : String := String.ofList (chars t)

end Moment

def Temporal.toText {τ : Type} [Temporal τ] (t : τ) : String := (moment t).toText

namespace Timestamp

def toText (t : Timestamp) : String := t.toMoment.toText

def digits? (most : Nat) (cs : List Char) : Option (List Char × List Char) :=
  match (cs.take most).takeWhile Char.isDigit with
  | [] => none
  | ds => some (ds, cs.drop ds.length)

def pair? (cs : List Char) : Option (Nat × List Char) :=
  (digits? 2 (trimStart cs)).map fun (ds, rest) => (number ds, rest)

def allDigits? (cs : List Char) : Option (List Char × List Char) := digits? cs.length cs

def year? (cs : List Char) : Option (Int × List Char) :=
  match trimStart cs with
  | '-' :: rest => (allDigits? rest).map fun (ds, rest) => (-(number ds : Int), rest)
  | '+' :: rest => (allDigits? rest).map fun (ds, rest) => (number ds, rest)
  | cs => (digits? 4 cs).map fun (ds, rest) => (number ds, rest)

def mark? (c : Char) (cs : List Char) : Option (List Char) :=
  match trimStart cs with
  | d :: rest => if d = c then some rest else none
  | [] => none

def separator? : List Char → Option (List Char)
  | c :: rest => if c = 'T' ∨ c = 't' ∨ c = ' ' then some rest else none
  | [] => none

/-- Nanoseconds after a point; digits after the ninth are dropped. -/
def fraction? : List Char → Option (Nat × List Char)
  | '.' :: rest => do
    let (ds, rest) ← digits? 9 rest
    return (number (ds ++ List.replicate (9 - ds.length) '0'), rest.dropWhile Char.isDigit)
  | rest => some (0, rest)

def east? : List Char → Option (Int × List Char)
  | '+' :: rest => some (1, rest)
  | '-' :: rest => some (-1, rest)
  | '\u2212' :: rest => some (-1, rest)
  | _ => none

def distance? : List Char → Option (Int × List Char)
  | a :: b :: rest =>
    match rest.dropWhile fun c => c = ':' || isBlank c with
    | c :: d :: rest =>
      let hours := 10 * digitValue a + digitValue b
      let minutes := 10 * digitValue c + digitValue d
      if [a, b, c, d].all Char.isDigit ∧ minutes < 60 ∧ hours < 24 then
        some (60 * hours + minutes, rest)
      else none
    | _ => none
  | _ => none

def isUniversal (cs : List Char) : Bool := (cs.take 3).map Char.toUpper = ['U', 'T', 'C']

def zone? (cs : List Char) : Option (Int × List Char) :=
  if isUniversal cs then some (0, cs.drop 3)
  else match cs with
    | 'Z' :: rest => some (0, rest)
    | 'z' :: rest => some (0, rest)
    | cs => do
      let (sign, rest) ← east? cs
      let (minutes, rest) ← distance? rest
      return (sign * minutes, rest)

def ofText? (s : String) : Option Timestamp := do
  let (year, rest) ← year? s.toList
  let (month, rest) ← pair? (← mark? '-' rest)
  let (day, rest) ← pair? (← mark? '-' rest)
  let (hour, rest) ← pair? (← separator? rest)
  let (minute, rest) ← pair? (← mark? ':' rest)
  let (second, rest) ← pair? (← mark? ':' rest)
  let (nano, rest) ← fraction? rest
  let (east, rest) ← zone? (trimStart rest)
  if (trimStart rest).isEmpty then
    ofLocal? (← Date.of? year month day) (← PlainClock.of? hour minute second nano) east
  else none

end Timestamp

end CausalWork
