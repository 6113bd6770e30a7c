namespace CausalWork

def daysIn (year : Int) (month : Nat) : Nat :=
  if month = 2 then
    if year % 4 = 0 ∧ (year % 100 ≠ 0 ∨ year % 400 = 0) then 29 else 28
  else if month ∈ [4, 6, 9, 11] then 30
  else 31

def Date.least : Int := -262143

def Date.greatest : Int := 262142

def Date.isValid (year : Int) (month day : Nat) : Bool :=
  Date.least ≤ year && year ≤ Date.greatest && 1 ≤ month && month ≤ 12 && 1 ≤ day &&
    day ≤ daysIn year month

structure Date where
  year : Int
  month : Nat
  day : Nat
  valid : Date.isValid year month day = true
  deriving DecidableEq

namespace Date

def of? (year : Int) (month day : Nat) : Option Date :=
  if h : isValid year month day = true then some ⟨year, month, day, h⟩ else none

def next? (d : Date) : Option Date :=
  if d.day < daysIn d.year d.month then of? d.year d.month (d.day + 1)
  else if d.month < 12 then of? d.year (d.month + 1) 1
  else of? (d.year + 1) 1 1

def previous? (d : Date) : Option Date :=
  if 1 < d.day then of? d.year d.month (d.day - 1)
  else if 1 < d.month then of? d.year (d.month - 1) (daysIn d.year (d.month - 1))
  else of? (d.year - 1) 12 31

def le (a b : Date) : Bool :=
  a.year < b.year ||
    a.year = b.year && (a.month < b.month || a.month = b.month && a.day ≤ b.day)

end Date

end CausalWork
