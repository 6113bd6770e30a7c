namespace CausalWork.Text

def digit (n : Nat) : Char := Char.ofNat (48 + n % 10)

def fixed : (width : Nat) → Nat → List Char
  | 0, _ => []
  | width + 1, n => fixed width (n / 10) ++ [digit n]

def decimal (n : Nat) : List Char :=
  if n < 10 then [digit n] else decimal (n / 10) ++ [digit n]

def padded (width n : Nat) : List Char :=
  List.replicate (width - (decimal n).length) '0' ++ decimal n

def digitValue (c : Char) : Nat := c.toNat - 48

def number (cs : List Char) : Nat := cs.foldl (fun n c => 10 * n + digitValue c) 0

theorem length_fixed (width n : Nat) : (fixed width n).length = width := by
  induction width generalizing n with
  | zero => rfl
  | succ width ih => simp [fixed, ih]

theorem number_append (cs : List Char) (c : Char) :
    number (cs ++ [c]) = 10 * number cs + digitValue c := by
  simp [number]

theorem digitValue_digit (n : Nat) : digitValue (digit n) = n % 10 := by
  have h : n % 10 < 10 := Nat.mod_lt _ (by decide)
  unfold digit
  generalize n % 10 = k at h
  have : ∀ k < 10, digitValue (Char.ofNat (48 + k)) = k := by decide
  exact this k h

theorem isDigit_digit (n : Nat) : (digit n).isDigit := by
  have h : n % 10 < 10 := Nat.mod_lt _ (by decide)
  unfold digit
  generalize n % 10 = k at h
  have : ∀ k < 10, (Char.ofNat (48 + k)).isDigit := by decide
  exact this k h

theorem number_decimal (n : Nat) : number (decimal n) = n := by
  induction n using decimal.induct with
  | case1 n h => rw [decimal, if_pos h]; simp [number, digitValue_digit, Nat.mod_eq_of_lt h]
  | case2 n h ih => rw [decimal, if_neg h, number_append, ih, digitValue_digit]; omega

theorem isDigit_of_mem_decimal (n : Nat) : ∀ c ∈ decimal n, c.isDigit := by
  induction n using decimal.induct with
  | case1 n h => rw [decimal, if_pos h]; simp [isDigit_digit]
  | case2 n h ih =>
      rw [decimal, if_neg h]
      intro c hc
      rcases List.mem_append.1 hc with hc | hc
      · exact ih c hc
      · rw [List.mem_singleton.1 hc]; exact isDigit_digit n

theorem digit_ne_zero {n : Nat} (h : n % 10 ≠ 0) : digit n ≠ '0' := by
  intro hz
  have hv := digitValue_digit n
  rw [hz] at hv
  exact h hv.symm

theorem decimal_ne_nil (n : Nat) : decimal n ≠ [] := by
  rw [decimal]
  split <;> simp

theorem head?_decimal_ne {n : Nat} (h : n ≠ 0) : (decimal n).head? ≠ some '0' := by
  induction n using decimal.induct with
  | case1 n hn =>
      have hd : digit n ≠ '0' := digit_ne_zero (by omega)
      simpa [decimal, hn] using hd
  | case2 n hn ih =>
      obtain ⟨c, cs, hc⟩ := List.exists_cons_of_ne_nil (decimal_ne_nil (n / 10))
      have hd := ih (by omega)
      rw [decimal, if_neg hn, hc]
      rwa [hc] at hd

theorem isDigit_of_mem_fixed (width n : Nat) : ∀ c ∈ fixed width n, c.isDigit := by
  induction width generalizing n with
  | zero => simp [fixed]
  | succ width ih =>
      intro c hc
      rcases List.mem_append.1 hc with hc | hc
      · exact ih (n / 10) c hc
      · rw [List.mem_singleton.1 hc]; exact isDigit_digit n

theorem number_zeros_append (k : Nat) (cs : List Char) :
    number (List.replicate k '0' ++ cs) = number cs := by
  induction k with
  | zero => rfl
  | succ k ih => simpa [List.replicate_succ, number, digitValue] using ih

end CausalWork.Text
