import CausalWork.Json.Reader
import Mathlib.Data.List.TakeDrop

namespace CausalWork.Json

open Text

/-- What may follow a value: nothing, or a character that goes on with what the value is part of. -/
def EndsValue (rest : List Char) : Prop := ∀ c ∈ rest.head?, c = ',' ∨ c = ']' ∨ c = '}'

theorem endsValue_nil : EndsValue [] := by
  simp [EndsValue]

theorem endsValue_cons {c : Char} (h : c = ',' ∨ c = ']' ∨ c = '}') (rest : List Char) :
    EndsValue (c :: rest) := by
  simpa [EndsValue] using h

theorem digits_append {ds rest : List Char} (hd : ∀ c ∈ ds, c.isDigit) (hr : EndsValue rest) :
    digits (ds ++ rest) = (ds, rest) := by
  have hstop : rest.takeWhile Char.isDigit = [] ∧ rest.dropWhile Char.isDigit = rest := by
    cases rest with
    | nil => exact ⟨rfl, rfl⟩
    | cons c rest =>
        have hc : c.isDigit = false := by rcases hr c rfl with rfl | rfl | rfl <;> decide
        simp [hc]
  rw [digits, List.span_eq_takeWhile_dropWhile, List.takeWhile_append_of_pos hd,
    List.dropWhile_append_of_pos hd, hstop.1, hstop.2, List.append_nil]

theorem whole?_decimal (n : Nat) {rest : List Char} (hr : EndsValue rest) :
    whole? (Text.decimal n ++ rest) = some (Text.decimal n, rest) := by
  unfold whole?
  rw [digits_append (isDigit_of_mem_decimal n) hr]
  by_cases hn : n = 0
  · subst hn; simp [Text.decimal, digit]
  · have hz := head?_decimal_ne hn
    obtain ⟨c, cs, hc⟩ := List.exists_cons_of_ne_nil (decimal_ne_nil n)
    rw [hc] at hz ⊢
    split <;> simp_all

theorem fraction?_of_endsValue {rest : List Char} (hr : EndsValue rest) :
    fraction? rest = some ([], rest) := by
  unfold fraction?
  split
  · exact absurd (hr '.' rfl) (by decide)
  · rfl

theorem exponent?_of_endsValue {rest : List Char} (hr : EndsValue rest) :
    exponent? rest = some ([], 0, rest) := by
  cases rest with
  | nil => rfl
  | cons c rest => rcases hr c rfl with rfl | rfl | rfl <;> rfl

theorem le_foldl_digits (cs : List Char) (n : Nat) :
    n ≤ cs.foldl (fun n c => 10 * n + digitValue c) n := by
  induction cs generalizing n with
  | nil => exact Nat.le_refl n
  | cons c cs ih =>
      have h := ih (10 * n + digitValue c)
      rw [List.foldl_cons]
      omega

theorem lead_of_lt {cs : List Char} {n : Nat}
    (h : cs.foldl (fun n c => 10 * n + digitValue c) n < UInt64.size) :
    lead n cs = (cs.foldl (fun n c => 10 * n + digitValue c) n, []) := by
  induction cs generalizing n with
  | nil => rfl
  | cons c cs ih =>
      have hn : 10 * n + digitValue c < UInt64.size :=
        Nat.lt_of_le_of_lt (le_foldl_digits cs _) h
      rw [lead, if_pos hn]
      exact ih h

theorem rounded_lt_limit {n : Nat} (h : n < UInt64.size) : rounded n < limit := by
  have hlog : n.log2 - 52 ≤ 11 := by
    by_cases hn : n = 0
    · subst hn; decide
    · have hl : n.log2 < 64 := (Nat.log2_lt hn).2 h
      omega
  have hunit : Nat.pow 2 (n.log2 - 52) ≤ 2 ^ 11 := Nat.pow_le_pow_right (by decide) hlog
  have hlimit : 2 ^ 65 ≤ limit := by decide +kernel
  have hsize : UInt64.size = 2 ^ 64 := rfl
  have hdiv := Nat.div_mul_le_self n (Nat.pow 2 (n.log2 - 52))
  unfold rounded
  dsimp only
  split
  · rw [Nat.add_mul, Nat.one_mul]
    omega
  · omega

theorem isHuge_decimal {n : Nat} (h : n < UInt64.size) :
    isHuge (Text.decimal n) [] 0 = false := by
  have hlead : lead 0 (Text.decimal n) = (n, []) := by
    have hn : (Text.decimal n).foldl (fun n c => 10 * n + digitValue c) 0 = n := number_decimal n
    rw [lead_of_lt (by rwa [hn]), hn]
  have hone : rounded 1 = 1 := by decide
  simp [isHuge, hlead, lead, hone, rounded_lt_limit h]

theorem number?_decimal {n : Nat} (h : n < UInt64.size) {rest : List Char} (hr : EndsValue rest) :
    number? (Text.decimal n ++ rest) = some (natural n, rest) := by
  obtain ⟨c, cs, hc⟩ := List.exists_cons_of_ne_nil (decimal_ne_nil n)
  have hd : c.isDigit := isDigit_of_mem_decimal n c (by simp [hc])
  have hm : c ≠ '-' := by rintro rfl; exact absurd hd (by decide)
  have hu : number? (Text.decimal n ++ rest) = magnitude? [] (Text.decimal n ++ rest) := by
    rw [hc]
    unfold number?
    split <;> simp_all
  simp [hu, magnitude?, whole?_decimal n hr, fraction?_of_endsValue hr, exponent?_of_endsValue hr,
    isHuge_decimal h, number_decimal]

end CausalWork.Json
