import CausalWork.Json.Reader
import Mathlib.Tactic.SplitIfs

namespace CausalWork.Json

open Text

theorem escape_cases (c : Char) :
    (∃ e, e ≠ 'u' ∧ escaped? e = some c ∧ escape c = ['\\', e]) ∨
    (c.toNat < 32 ∧ escape c =
      ['\\', 'u', '0', '0', hexDigit (lastHex (c.toNat / 16)), hexDigit (lastHex c.toNat)]) ∨
    (c ≠ '"' ∧ c ≠ '\\' ∧ ¬ c.toNat < 32 ∧ escape c = [c]) := by
  unfold escape
  split_ifs with h1 h2 h3 h4 h5 h6 h7 h8
  · exact .inl ⟨'"', by decide, by rw [h1]; rfl, rfl⟩
  · exact .inl ⟨'\\', by decide, by rw [h2]; rfl, rfl⟩
  · exact .inl ⟨'b', by decide, by rw [h3]; rfl, rfl⟩
  · exact .inl ⟨'f', by decide, by rw [h4]; rfl, rfl⟩
  · exact .inl ⟨'n', by decide, by rw [h5]; rfl, rfl⟩
  · exact .inl ⟨'r', by decide, by rw [h6]; rfl, rfl⟩
  · exact .inl ⟨'t', by decide, by rw [h7]; rfl, rfl⟩
  · exact .inr (.inl ⟨h8, rfl⟩)
  · exact .inr (.inr ⟨h1, h2, h8, rfl⟩)

theorem unit?_of_lt {n : Nat} (h : n < 32) :
    unit? '0' '0' (hexDigit (lastHex (n / 16))) (hexDigit (lastHex n)) = some n := by
  have h0 : hexValue? '0' = some (lastHex 0) := by decide
  simp only [unit?, h0, hexValue?_hexDigit, Option.bind_eq_bind, Option.bind_some, Option.pure_def,
    hexNumber, List.foldl_cons, List.foldl_nil, lastHex, Option.some.injEq]
  omega

theorem unquote?_escape (c : Char) (rest : List Char) :
    unquote? (escape c ++ rest) = (unquote? rest).map (prepend c.toNat) := by
  rcases escape_cases c with ⟨e, hu, hc, he⟩ | ⟨hc, he⟩ | ⟨hq, hb, hc, he⟩
  · cases hr : unquote? rest <;> simp [he, unquote?, hu, hc, hr]
  · cases hr : unquote? rest <;> simp [he, unquote?, unit?_of_lt hc, hr]
  · cases hr : unquote? rest <;> simp [he, unquote?, hb, hc, hr]

theorem unquote?_flatMap_escape (cs rest : List Char) :
    unquote? (cs.flatMap escape ++ '"' :: rest) = some (cs.map Char.toNat, rest) := by
  induction cs with
  | nil => simp [unquote?]
  | cons c cs ih =>
      rw [List.flatMap_cons, List.append_assoc, unquote?_escape, ih]
      rfl

theorem not_isHalf (c : Char) : isHighHalf c.toNat = false ∧ isLowHalf c.toNat = false := by
  have hc : c.toNat < 0xD800 ∨ 0xDFFF < c.toNat ∧ c.toNat < 0x110000 := c.valid
  simp only [isHighHalf, isLowHalf, Bool.and_eq_false_iff, decide_eq_false_iff_not]
  omega

theorem characters?_map_toNat (cs : List Char) : characters? (cs.map Char.toNat) = some cs := by
  induction cs with
  | nil => rfl
  | cons c cs ih =>
      obtain ⟨hh, hl⟩ := not_isHalf c
      cases cs with
      | nil => simp [characters?, hh, hl]
      | cons d cs =>
          rw [List.map_cons, List.map_cons, characters?, if_neg (by simp [hh]), if_neg (by simp [hl]),
            ← List.map_cons, ih]
          simp

theorem string?_map_toNat (s : String) : string? (s.toList.map Char.toNat) = some s := by
  simp [string?, characters?_map_toNat]

theorem printable_of_escaped? {e c : Char} (h : escaped? e = some c) : 32 ≤ e.toNat := by
  unfold escaped? at h
  split at h
  all_goals first | decide | cases h

theorem printable_hexDigit : ∀ d : Fin 16, 32 ≤ (hexDigit d).toNat := by decide

theorem printable_escape (c : Char) : ∀ d ∈ escape c, 32 ≤ d.toNat := by
  rcases escape_cases c with ⟨e, -, hc, he⟩ | ⟨-, he⟩ | ⟨-, -, hc, he⟩
  · simp [he, printable_of_escaped? hc]
  · simp [he, printable_hexDigit]
  · simpa [he] using hc

theorem printable_quote (s : String) : ∀ d ∈ quote s, 32 ≤ d.toNat := by
  intro d hd
  rw [quote, List.mem_append, List.mem_cons, List.mem_flatMap] at hd
  rcases hd with (rfl | ⟨c, -, hc⟩) | hd
  · decide
  · exact printable_escape c d hc
  · obtain rfl := List.mem_singleton.1 hd
    decide

end CausalWork.Json
