import CausalWork.Date

namespace CausalWork

/-- A second of a day and the nanoseconds into it, which go on to two seconds in a leap second. A
leap second may follow any second. -/
structure Clock where
  second : Nat
  nano : Nat
  second_lt : second < 86400
  nano_lt : nano < 2000000000
  deriving DecidableEq

/-- A time of day as a text shows it, where a leap second may only follow the last second of a
minute. -/
structure PlainClock where
  second : Nat
  nano : Nat
  second_lt : second < 86400
  nano_lt : nano < 1000000000 ∨ second % 60 = 59 ∧ nano < 2000000000
  deriving DecidableEq

structure Moment where
  date : Date
  clock : Clock
  deriving DecidableEq

/-- A moment as a text shows it. -/
structure Timestamp where
  date : Date
  clock : PlainClock
  deriving DecidableEq

/-- Any other leap second is shown as the second after it. -/
def Clock.settle (c : Clock) : PlainClock :=
  if h : c.nano < 1000000000 ∨ c.second % 60 = 59 then
    ⟨c.second, c.nano, c.second_lt, h.imp id fun h => ⟨h, c.nano_lt⟩⟩
  else
    ⟨c.second + 1, c.nano - 1000000000, by have := c.second_lt; omega,
      by have := c.nano_lt; omega⟩

def Moment.settle (t : Moment) : Timestamp := ⟨t.date, t.clock.settle⟩

namespace PlainClock

def toClock (c : PlainClock) : Clock :=
  ⟨c.second, c.nano, c.second_lt, by have := c.nano_lt; omega⟩

theorem settle_toClock (c : PlainClock) : c.toClock.settle = c := dif_pos (c.nano_lt.imp id And.left)

def of? (hour minute second nano : Nat) : Option PlainClock :=
  let base := 3600 * hour + 60 * minute
  if h : hour < 24 ∧ minute < 60 ∧ second < 60 ∧ nano < 1000000000 then
    some ⟨base + second, nano, by omega, .inl h.2.2.2⟩
  else if h : hour < 24 ∧ minute < 60 ∧ second = 60 ∧ nano < 1000000000 then
    some ⟨base + 59, 1000000000 + nano, by omega, .inr ⟨by omega, by omega⟩⟩
  else none

def le (a b : PlainClock) : Bool :=
  a.second < b.second || a.second = b.second && a.nano ≤ b.nano

end PlainClock

namespace Timestamp

def toMoment (t : Timestamp) : Moment := ⟨t.date, t.clock.toClock⟩

theorem settle_toMoment (t : Timestamp) : t.toMoment.settle = t :=
  congrArg (mk t.date) t.clock.settle_toClock

def le (a b : Timestamp) : Bool :=
  if a.date = b.date then a.clock.le b.clock else a.date.le b.date

def ofLocal? (date : Date) (clock : PlainClock) (east : Int) : Option Timestamp := do
  let minute := (clock.second / 60 : Nat) - east
  let date ←
    if minute < 0 then date.previous?
    else if 1440 ≤ minute then date.next?
    else some date
  let second := 60 * (minute % 1440).toNat + clock.second % 60
  if h : second < 86400 then
    return ⟨date, ⟨second, clock.nano, h, by have := clock.nano_lt; omega⟩⟩
  else none

end Timestamp

class Temporal (τ : Type) where
  moment : τ → Moment

instance : Temporal Moment := ⟨id⟩

instance : Temporal Timestamp := ⟨Timestamp.toMoment⟩

end CausalWork
