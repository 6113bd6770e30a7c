import CausalWork.Timestamp.Text
import Mathlib.Algebra.Group.Nat.Defs
import Mathlib.Tactic.SplitIfs

namespace CausalWork

namespace Text

theorem number_fixed (width n : Nat) : number (fixed width n) = n % 10 ^ width := by
  induction width generalizing n with
  | zero => simp [fixed, number, Nat.mod_one]
  | succ width ih =>
      rw [fixed, number_append, ih, digitValue_digit, Nat.pow_succ, Nat.mul_comm (10 ^ width),
        Nat.mod_mul]
      omega

theorem number_append_zeros (cs : List Char) (k : Nat) :
    number (cs ++ List.replicate k '0') = number cs * 10 ^ k := by
  induction k with
  | zero => simp
  | succ k ih =>
      have hz : digitValue '0' = 0 := rfl
      rw [List.replicate_succ', ← List.append_assoc, number_append, ih, hz, Nat.pow_succ,
        Nat.add_zero, Nat.mul_comm 10, Nat.mul_assoc]

end Text

namespace Timestamp

open Text Moment

theorem isBlank_of_isDigit {c : Char} (h : c.isDigit) : isBlank c = false := by
  have hc : 48 ≤ c.toNat ∧ c.toNat ≤ 57 := by
    simpa [Char.isDigit, UInt32.le_iff_toNat_le] using h
  simp only [isBlank, blankRanges, List.any_cons, List.any_nil, Bool.or_eq_false_iff,
    Bool.and_eq_false_iff, decide_eq_false_iff_not, and_true]
  omega

theorem trimStart_cons {c : Char} (h : isBlank c = false) (cs : List Char) :
    trimStart (c :: cs) = c :: cs := by
  simp [trimStart, h]

theorem trimStart_digits {ds : List Char} (h : ∀ c ∈ ds, c.isDigit) (hn : ds ≠ [])
    (rest : List Char) : trimStart (ds ++ rest) = ds ++ rest := by
  obtain ⟨c, cs, rfl⟩ := List.exists_cons_of_ne_nil hn
  exact trimStart_cons (isBlank_of_isDigit (h c List.mem_cons_self)) _

theorem digits?_append {ds : List Char} (hd : ∀ c ∈ ds, c.isDigit) (hn : ds ≠ []) {most : Nat}
    {rest : List Char} (hm : ds.length ≤ most)
    (hr : ds.length = most ∨ ∀ c ∈ rest.head?, c.isDigit = false) :
    digits? most (ds ++ rest) = some (ds, rest) := by
  have hstop : (rest.take (most - ds.length)).takeWhile Char.isDigit = [] := by
    rcases hr with hr | hr
    · simp [hr]
    · cases rest with
      | nil => simp
      | cons c rest => cases most - ds.length <;> simp [hr c rfl]
  have htake : ((ds ++ rest).take most).takeWhile Char.isDigit = ds := by
    rw [List.take_append, List.take_of_length_le hm, List.takeWhile_append_of_pos hd, hstop,
      List.append_nil]
  unfold digits?
  rw [htake]
  split
  · exact absurd rfl hn
  · simp

theorem fixed_ne_nil {width : Nat} (h : 0 < width) (n : Nat) : fixed width n ≠ [] :=
  List.ne_nil_of_length_pos (by rwa [length_fixed])

theorem digits?_fixed {width : Nat} (h : 0 < width) (n : Nat) (rest : List Char) :
    digits? width (fixed width n ++ rest) = some (fixed width n, rest) :=
  digits?_append (isDigit_of_mem_fixed width n) (fixed_ne_nil h n)
    (Nat.le_of_eq (length_fixed width n)) (.inl (length_fixed width n))

theorem pair?_fixed {n : Nat} (h : n < 100) (rest : List Char) :
    pair? (fixed 2 n ++ rest) = some (n, rest) := by
  rw [pair?, trimStart_digits (isDigit_of_mem_fixed 2 n) (fixed_ne_nil (by decide) n),
    digits?_fixed (by decide)]
  simp [number_fixed, Nat.mod_eq_of_lt h]

theorem mark?_cons {c : Char} (h : isBlank c = false) (rest : List Char) :
    mark? c (c :: rest) = some rest := by
  simp [mark?, trimStart_cons h]

theorem number_padded (width n : Nat) : number (padded width n) = n := by
  rw [padded, number_zeros_append, number_decimal]

theorem isDigit_of_mem_padded (width n : Nat) : ∀ c ∈ padded width n, c.isDigit := by
  intro c hc
  rcases List.mem_append.1 hc with hc | hc
  · rw [List.eq_of_mem_replicate hc]; decide
  · exact isDigit_of_mem_decimal n c hc

theorem padded_ne_nil (width n : Nat) : padded width n ≠ [] := by
  simp [padded, decimal_ne_nil]

theorem allDigits?_padded (width n : Nat) (rest : List Char) :
    allDigits? (padded width n ++ '-' :: rest) = some (padded width n, '-' :: rest) :=
  digits?_append (isDigit_of_mem_padded width n) (padded_ne_nil width n) (by simp)
    (.inr fun c hc => by cases hc; decide)

theorem year?_digits {ds : List Char} (hd : ∀ c ∈ ds, c.isDigit) (hn : ds ≠ []) (rest : List Char) :
    year? (ds ++ rest) = (digits? 4 (ds ++ rest)).map fun (ds, rest) => (number ds, rest) := by
  obtain ⟨c, cs, rfl⟩ := List.exists_cons_of_ne_nil hn
  have hc : c.isDigit := hd c List.mem_cons_self
  rw [year?, trimStart_digits hd hn, List.cons_append]
  split
  case h_1 heq => cases heq; exact absurd hc (by decide)
  case h_2 heq => cases heq; exact absurd hc (by decide)
  case h_3 => rfl

theorem year?_minus (n : Nat) (rest : List Char) :
    year? ('-' :: (padded 4 n ++ '-' :: rest)) = some (-(n : Int), '-' :: rest) := by
  rw [year?, trimStart_cons (by decide)]
  simp only [allDigits?_padded, Option.map_some, number_padded]

theorem year?_plus (n : Nat) (rest : List Char) :
    year? ('+' :: (padded 4 n ++ '-' :: rest)) = some ((n : Int), '-' :: rest) := by
  rw [year?, trimStart_cons (by decide)]
  simp only [allDigits?_padded, Option.map_some, number_padded]

theorem year?_yearChars (year : Int) (rest : List Char) :
    year? (yearChars year ++ '-' :: rest) = some (year, '-' :: rest) := by
  unfold yearChars
  split
  case isTrue h =>
    rw [year?_digits (isDigit_of_mem_fixed 4 _) (fixed_ne_nil (by decide) _),
      digits?_fixed (by decide)]
    simp only [Option.map_some, number_fixed]
    congr
    omega
  case isFalse h =>
    by_cases hy : year < 0
    · have habs : -(year.natAbs : Int) = year := by omega
      rw [if_pos hy, List.cons_append, year?_minus, habs]
    · have habs : (year.natAbs : Int) = year := by omega
      rw [if_neg hy, List.cons_append, year?_plus, habs]

theorem fraction?_fixed {width : Nat} (hw : 0 < width) (h : width ≤ 9) {n : Nat} (hn : n < 10 ^ width) :
    fraction? ('.' :: (fixed width n ++ ['Z'])) = some (n * 10 ^ (9 - width), ['Z']) := by
  have hd : digits? 9 (fixed width n ++ ['Z']) = some (fixed width n, ['Z']) :=
    digits?_append (isDigit_of_mem_fixed width n) (fixed_ne_nil hw n) (by rwa [length_fixed])
      (.inr fun c hc => by cases hc; decide)
  have hz : ['Z'].dropWhile Char.isDigit = ['Z'] := by decide
  simp [fraction?, hd, length_fixed, number_append_zeros, number_fixed, Nat.mod_eq_of_lt hn, hz]

theorem fraction?_fractionChars {nano : Nat} (h : nano < 1000000000) :
    fraction? (fractionChars nano ++ ['Z']) = some (nano, ['Z']) := by
  unfold fractionChars
  split
  case isTrue h0 => subst h0; rfl
  split
  case isTrue h3 =>
    rw [List.cons_append, fraction?_fixed (by decide) (by decide) (by omega)]
    congr
    omega
  split
  case isTrue h6 =>
    rw [List.cons_append, fraction?_fixed (by decide) (by decide) (by omega)]
    congr
    omega
  case isFalse h9 =>
    rw [List.cons_append, fraction?_fixed (by decide) (by decide) (by omega)]
    congr
    omega

theorem clock_of? (c : PlainClock) :
    PlainClock.of? (c.second / 3600) (c.second / 60 % 60) (c.second % 60 + c.nano / 1000000000)
      (c.nano % 1000000000) = some c := by
  obtain ⟨second, nano, hs, hn⟩ := c
  unfold PlainClock.of?
  dsimp only
  by_cases hl : nano < 1000000000
  · rw [dif_pos ⟨by omega, by omega, by omega, by omega⟩]
    simp only [Option.some.injEq, PlainClock.mk.injEq]
    omega
  · rw [dif_neg (by omega), dif_pos ⟨by omega, by omega, by omega, by omega⟩]
    simp only [Option.some.injEq, PlainClock.mk.injEq]
    omega

theorem date_of? (d : Date) : Date.of? d.year d.month d.day = some d := by
  rw [Date.of?, dif_pos d.valid]

theorem month_and_day_le (d : Date) : d.month ≤ 12 ∧ d.day ≤ 31 := by
  have hd := d.valid
  simp only [Date.isValid, Bool.and_eq_true, decide_eq_true_eq] at hd
  have hdays : daysIn d.year d.month ≤ 31 := by
    unfold daysIn
    split_ifs <;> decide
  omega

theorem ofLocal?_zero (t : Timestamp) : ofLocal? t.date t.clock 0 = some t := by
  obtain ⟨date, second, nano, hs, hn⟩ := t
  have hmin : ¬ ((second / 60 : Nat) : Int) < 0 := by omega
  have hmax : ¬ (1440 : Int) ≤ ((second / 60 : Nat) : Int) := by omega
  have hsec : 60 * (((second / 60 : Nat) : Int) % 1440).toNat + second % 60 = second := by omega
  simp only [ofLocal?, Int.sub_zero, if_neg hmin, if_neg hmax, Option.bind_eq_bind, Option.bind_some,
    hsec, dif_pos hs]
  rfl

theorem ofText?_toText (t : Timestamp) : ofText? t.toText = some t := by
  have hd := month_and_day_le t.date
  have hs := t.clock.second_lt
  have hn := t.clock.nano_lt
  have hhyphen : isBlank '-' = false := by decide
  have hcolon : isBlank ':' = false := by decide
  have hzone : zone? (trimStart ['Z']) = some (0, []) := by decide
  have hend : (trimStart []).isEmpty := rfl
  have hsome {α β : Type} (a : α) (f : α → Option β) : (some a >>= f) = f a := rfl
  rw [ofText?, toText, Moment.toText, String.toList_ofList, chars, dateChars, clockChars]
  simp only [toMoment, PlainClock.toClock, List.append_assoc, List.cons_append, year?_yearChars,
    hsome, mark?_cons hhyphen, separator?]
  rw [pair?_fixed (by omega)]
  simp only [hsome, mark?_cons hhyphen]
  rw [pair?_fixed (by omega)]
  simp only [hsome, true_or, if_true]
  rw [pair?_fixed (by omega)]
  simp only [hsome, mark?_cons hcolon]
  rw [pair?_fixed (by omega)]
  simp only [hsome, mark?_cons hcolon]
  rw [pair?_fixed (by omega)]
  simp only [hsome, fraction?_fractionChars (Nat.mod_lt t.clock.nano (by decide)),
    hzone, hend, if_true, date_of?, clock_of?, ofLocal?_zero]

end Timestamp

namespace Moment

open Text

/-- A leap second that does not end a minute is written like the second after it. -/
theorem clockChars_settle (c : Clock) : clockChars c.settle.toClock = clockChars c := by
  unfold Clock.settle
  split
  · rfl
  next h =>
    obtain ⟨second, nano, hs, hn⟩ := c
    dsimp only at h
    have hhour : (second + 1) / 3600 = second / 3600 := by omega
    have hminute : (second + 1) / 60 % 60 = second / 60 % 60 := by omega
    have hsecond : (second + 1) % 60 + (nano - 1000000000) / 1000000000 =
        second % 60 + nano / 1000000000 := by omega
    have hnano : (nano - 1000000000) % 1000000000 = nano % 1000000000 := by omega
    unfold clockChars PlainClock.toClock
    dsimp only
    rw [hhour, hminute, hsecond, hnano]

theorem toText_settle (t : Moment) : t.settle.toText = t.toText := by
  rw [Timestamp.toText, toText, toText, chars, chars, Timestamp.toMoment, settle, clockChars_settle]

theorem ofText?_toText (t : Moment) : Timestamp.ofText? t.toText = some t.settle := by
  rw [← toText_settle, Timestamp.ofText?_toText]

end Moment

end CausalWork
