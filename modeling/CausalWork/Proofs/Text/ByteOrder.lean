import CausalWork.Text.Bytes
import Mathlib.Data.String.Basic
import Mathlib.Tactic.SplitIfs

namespace CausalWork.Bytes

/-- The order of byte strings: the first byte that differs decides, and a beginning comes first. -/
def Before (a b : Bytes) : Prop := List.Lex (· < ·) a b

def Differs : Bytes → Bytes → Prop
  | x :: xs, y :: ys => x < y ∨ x = y ∧ Differs xs ys
  | _, _ => False

theorem Differs.before_append {a b : Bytes} (h : Differs a b) (r s : Bytes) :
    Before (a ++ r) (b ++ s) := by
  induction a generalizing b with
  | nil => cases h
  | cons x xs ih =>
      cases b with
      | nil => cases h
      | cons y ys =>
          rcases h with hlt | ⟨rfl, h⟩
          · exact .rel hlt
          · exact .cons (ih h)

theorem digits_before {v w : Nat} (h : v < w) :
    v / 262144 < w / 262144 ∨ v / 262144 = w / 262144 ∧
      (v / 4096 % 64 < w / 4096 % 64 ∨ v / 4096 % 64 = w / 4096 % 64 ∧
        (v / 64 % 64 < w / 64 % 64 ∨ v / 64 % 64 = w / 64 % 64 ∧ v % 64 < w % 64)) := by
  have hv : v / 4096 = v / 64 / 64 := by omega
  have hw : w / 4096 = w / 64 / 64 := by omega
  have hv' : v / 262144 = v / 64 / 64 / 64 := by omega
  have hw' : w / 262144 = w / 64 / 64 / 64 := by omega
  rw [hv, hw, hv', hw']
  omega

theorem differs_utf8EncodeChar {c d : Char} (h : c < d) :
    Differs (String.utf8EncodeChar c) (String.utf8EncodeChar d) := by
  have hlt : c.val.toNat < d.val.toNat := h
  have hd : d.val.toNat < 0x110000 := by
    have hv := d.valid
    simp only [UInt32.isValidChar, Nat.isValidChar] at hv
    omega
  have hdigits := digits_before hlt
  have hfirst (n : Nat) : (n % 0x20 + 0xc0) % 2 ^ 8 = n % 0x20 + 0xc0 := by omega
  have hsecond (n : Nat) : (n % 0x10 + 0xe0) % 2 ^ 8 = n % 0x10 + 0xe0 := by omega
  have hthird (n : Nat) (hn : n < 0x110000) :
      (n / 262144 % 0x08 + 0xf0) % 2 ^ 8 = n / 262144 + 0xf0 := by omega
  have hlater (n : Nat) : (n % 0x40 + 0x80) % 2 ^ 8 = n % 0x40 + 0x80 := by omega
  unfold String.utf8EncodeChar
  dsimp only
  split_ifs <;> simp only [Differs, UInt8.lt_iff_toNat_lt, ← UInt8.toNat_inj,
    UInt8.toNat_ofNat', hfirst, hsecond, hlater, hthird _ hd,
    hthird _ (hlt.trans hd)] <;> omega

theorem ofText_before {s t : String} (h : s < t) : Before (ofText s) (ofText t) := by
  have hl : List.Lex (· < ·) s.toList t.toList := String.lt_iff_toList_lt.1 h
  unfold ofText
  generalize s.toList = cs at hl
  generalize t.toList = ds at hl
  induction hl with
  | @nil d ds =>
      have hne := String.utf8EncodeChar_ne_nil (c := d)
      rw [List.flatMap_nil, List.flatMap_cons]
      cases hd : String.utf8EncodeChar d with
      | nil => exact absurd hd hne
      | cons b bs => exact .nil
  | cons h ih => exact List.Lex.append_left _ ih _
  | rel h => exact (differs_utf8EncodeChar h).before_append _ _

/-- Texts are ordered as the bytes that they are written in. -/
theorem ofText_before_iff {s t : String} : Before (ofText s) (ofText t) ↔ s < t := by
  refine ⟨fun h => ?_, ofText_before⟩
  rcases lt_trichotomy s t with hlt | rfl | hgt
  · exact hlt
  · exact absurd h (irrefl_of (List.Lex (· < ·)) _)
  · exact absurd h (asymm_of (List.Lex (· < ·)) (ofText_before hgt))

end CausalWork.Bytes
