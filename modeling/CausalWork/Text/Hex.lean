namespace CausalWork.Text

def lastHex (n : Nat) : Fin 16 := ⟨n % 16, Nat.mod_lt n (by decide)⟩

def hexDigit (d : Fin 16) : Char :=
  if d.val < 10 then Char.ofNat (48 + d.val) else Char.ofNat (87 + d.val)

def hexValue? (c : Char) : Option (Fin 16) :=
  if '0' ≤ c ∧ c ≤ '9' then some (lastHex (c.toNat - 48))
  else if 'a' ≤ c ∧ c ≤ 'f' then some (lastHex (c.toNat - 87))
  else if 'A' ≤ c ∧ c ≤ 'F' then some (lastHex (c.toNat - 55))
  else none

def hexNumber (ds : List (Fin 16)) : Nat := ds.foldl (fun n d => 16 * n + d.val) 0

theorem hexValue?_hexDigit (d : Fin 16) : hexValue? (hexDigit d) = some d := by
  revert d
  decide

theorem hexNumber_foldl_inj {ds es : List (Fin 16)} {m n : Nat} (hlen : ds.length = es.length)
    (h : ds.foldl (fun n d => 16 * n + d.val) m = es.foldl (fun n d => 16 * n + d.val) n) :
    m = n ∧ ds = es := by
  induction ds generalizing m n es with
  | nil =>
      obtain rfl : es = [] := List.length_eq_zero_iff.1 hlen.symm
      exact ⟨h, rfl⟩
  | cons d ds ih =>
      obtain ⟨e, es, rfl⟩ := List.exists_cons_of_length_eq_add_one hlen.symm
      obtain ⟨hmn, rfl⟩ := ih (Nat.succ.inj hlen) h
      have hstep : 16 * m + d.val = 16 * n + e.val := hmn
      have hd := d.isLt
      have he := e.isLt
      obtain rfl : m = n := by omega
      obtain rfl : d = e := Fin.ext (by omega)
      exact ⟨rfl, rfl⟩

theorem hexNumber_inj {ds es : List (Fin 16)} (hlen : ds.length = es.length)
    (h : hexNumber ds = hexNumber es) : ds = es :=
  (hexNumber_foldl_inj hlen h).2

end CausalWork.Text
