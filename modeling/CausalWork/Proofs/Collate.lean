import CausalWork.Collate
import Mathlib.Data.List.Nodup
import Mathlib.Data.String.Basic

namespace CausalWork

section

variable {α β : Type} [LinearOrder β] {before : α → α → Bool} {key : α → β}

theorem key_eq_of_not_before (hb : ∀ a b, before a b ↔ key a < key b) {x y : α}
    (hxy : ¬ before x y) (hyx : ¬ before y x) : key x = key y := by
  rw [hb] at hxy hyx
  exact le_antisymm (not_lt.1 hyx) (not_lt.1 hxy)

theorem find?_insertBy (hb : ∀ a b, before a b ↔ key a < key b) (x : α) (ys : List α) (k : β) :
    (insertBy before x ys).find? (fun a => key a = k) =
      if key x = k then some x else ys.find? fun a => key a = k := by
  induction ys with
  | nil => by_cases hx : key x = k <;> simp [insertBy, hx]
  | cons y ys ih =>
      unfold insertBy
      by_cases hxy : before x y
      · rw [if_pos hxy, List.find?_cons]
        by_cases hx : key x = k <;> simp [hx]
      · rw [if_neg hxy]
        by_cases hyx : before y x
        · rw [if_pos hyx, List.find?_cons, List.find?_cons, ih]
          have hne := ((hb y x).1 hyx).ne
          by_cases hy : key y = k
          · have hx : key x ≠ k := fun hx => hne (hy.trans hx.symm)
            simp [hy, hx]
          · simp [hy]
        · have heq := key_eq_of_not_before hb hxy hyx
          rw [if_neg hyx, List.find?_cons, List.find?_cons, ← heq]
          by_cases hx : key x = k <;> simp [hx]

theorem find?_collate (hb : ∀ a b, before a b ↔ key a < key b) (xs : List α) (k : β) :
    (collate before xs).find? (fun a => key a = k) = xs.find? fun a => key a = k := by
  induction xs with
  | nil => rfl
  | cons x xs ih =>
      have hc : collate before (x :: xs) = insertBy before x (collate before xs) := rfl
      rw [hc, find?_insertBy hb, ih, List.find?_cons]
      by_cases hx : key x = k <;> simp [hx]

theorem mem_map_collate (hb : ∀ a b, before a b ↔ key a < key b) {xs : List α} {k : β} :
    k ∈ (collate before xs).map key ↔ k ∈ xs.map key := by
  have hsome (ys : List α) : k ∈ ys.map key ↔ (ys.find? fun a => key a = k).isSome := by
    simp [List.find?_isSome]
  rw [hsome, find?_collate hb, ← hsome]

theorem pairwise_insertBy (hb : ∀ a b, before a b ↔ key a < key b) {x : α} {ys : List α}
    (h : ys.Pairwise fun a b => key a < key b) :
    (insertBy before x ys).Pairwise fun a b => key a < key b := by
  induction ys with
  | nil => simp [insertBy]
  | cons y ys ih =>
      obtain ⟨hy, hys⟩ := List.pairwise_cons.1 h
      unfold insertBy
      by_cases hxy : before x y
      · rw [if_pos hxy]
        have hlt := (hb x y).1 hxy
        refine List.pairwise_cons.2 ⟨?_, h⟩
        intro z hz
        rcases List.mem_cons.1 hz with rfl | hz
        · exact hlt
        · exact hlt.trans (hy z hz)
      · rw [if_neg hxy]
        by_cases hyx : before y x
        · rw [if_pos hyx]
          refine List.pairwise_cons.2 ⟨?_, ih hys⟩
          intro z hz
          rcases mem_of_mem_insertBy before hz with rfl | hz
          · exact (hb y z).1 hyx
          · exact hy z hz
        · have heq := key_eq_of_not_before hb hxy hyx
          rw [if_neg hyx]
          refine List.pairwise_cons.2 ⟨?_, hys⟩
          intro z hz
          exact heq ▸ hy z hz

theorem pairwise_collate (hb : ∀ a b, before a b ↔ key a < key b) (xs : List α) :
    (collate before xs).Pairwise fun a b => key a < key b := by
  induction xs with
  | nil => exact .nil
  | cons x xs ih => exact pairwise_insertBy hb ih

theorem insertBy_perm (hb : ∀ a b, before a b ↔ key a < key b) {x : α} {ys : List α}
    (h : key x ∉ ys.map key) : (insertBy before x ys).Perm (x :: ys) := by
  induction ys with
  | nil => exact .refl _
  | cons y ys ih =>
      obtain ⟨hne, hout⟩ := not_or.1 (List.mem_cons.not.1 h)
      unfold insertBy
      by_cases hxy : before x y
      · rw [if_pos hxy]
      · by_cases hyx : before y x
        · rw [if_neg hxy, if_pos hyx]
          exact ((ih hout).cons y).trans (.swap x y ys)
        · exact absurd (key_eq_of_not_before hb hxy hyx) hne

theorem mem_collate (hb : ∀ a b, before a b ↔ key a < key b) (hk : Function.Injective key) {x : α}
    {xs : List α} : x ∈ collate before xs ↔ x ∈ xs := by
  have hsome (ys : List α) : x ∈ ys ↔ (ys.find? fun a => key a = key x).isSome := by
    simp [List.find?_isSome, hk.eq_iff]
  rw [hsome, find?_collate hb, ← hsome]

end

theorem find?_key_iff {α β : Type} [DecidableEq β] (key : α → β) {xs : List α}
    (hn : (xs.map key).Nodup) {k : β} {x : α} :
    xs.find? (fun y => key y = k) = some x ↔ x ∈ xs ∧ key x = k := by
  constructor
  · intro h
    exact ⟨List.mem_of_find?_eq_some h, by simpa using List.find?_some h⟩
  · rintro ⟨hx, rfl⟩
    have hsome : (xs.find? fun y => key y = key x).isSome :=
      List.find?_isSome.2 ⟨x, hx, decide_eq_true rfl⟩
    obtain ⟨y, hy⟩ := Option.isSome_iff_exists.1 hsome
    have hkey : key y = key x := by simpa using List.find?_some hy
    rw [hy, List.inj_on_of_nodup_map hn (List.mem_of_find?_eq_some hy) hx hkey]

theorem find?_eq_of_perm {α β : Type} [DecidableEq β] (key : α → β) {xs ys : List α}
    (hp : xs.Perm ys) (hn : (xs.map key).Nodup) (k : β) :
    (xs.find? fun x => key x = k) = ys.find? fun y => key y = k := by
  have hn' := (hp.map key).nodup_iff.1 hn
  ext x
  rw [find?_key_iff key hn, find?_key_iff key hn', hp.mem_iff]

theorem lookup_eq_some_iff_mem {α β : Type} [DecidableEq α] {xs : List (α × β)}
    (h : (xs.map Prod.fst).Nodup) {a : α} {b : β} : xs.lookup a = some b ↔ (a, b) ∈ xs := by
  induction xs with
  | nil => simp
  | cons x xs ih =>
      obtain ⟨hn, hs⟩ := List.nodup_cons.1 h
      obtain ⟨k, v⟩ := x
      rw [List.lookup_cons]
      by_cases he : a = k
      · subst he
        have hout : (a, b) ∉ xs := fun hm => hn (List.mem_map.2 ⟨(a, b), hm, rfl⟩)
        simp [hout, eq_comm]
      · have hb : (a == k) = false := by simpa using he
        simp [hb, he, ih hs]

theorem pairwise_mergeSort_key {α β : Type} [LinearOrder β] (key : α → β) (xs : List α) :
    (xs.mergeSort fun a b => ¬ key b < key a).Pairwise fun a b => key a ≤ key b := by
  have h : (xs.mergeSort fun a b => ¬ key b < key a).Pairwise fun a b => decide (¬ key b < key a) :=
    List.pairwise_mergeSort
      (fun a b c hab hbc => by
        simp only [decide_eq_true_eq, not_lt] at hab hbc ⊢
        exact hab.trans hbc)
      (fun a b => by
        simp only [Bool.or_eq_true, decide_eq_true_eq, not_lt]
        exact le_total (key a) (key b)) xs
  exact h.imp fun hab => not_lt.1 (of_decide_eq_true hab)

theorem eq_of_pairwise_lt_of_mem_iff {α β : Type} [LinearOrder β] {key : α → β} {xs ys : List α}
    (hx : xs.Pairwise fun a b => key a < key b) (hy : ys.Pairwise fun a b => key a < key b)
    (h : ∀ a, a ∈ xs ↔ a ∈ ys) : xs = ys := by
  have hne {a b : α} (hab : key a < key b) : a ≠ b := fun e => hab.ne (congrArg key e)
  refine List.Perm.eq_of_pairwise (fun a b _ _ hab hba => absurd hab (lt_asymm hba)) hx hy ?_
  exact (List.perm_ext_iff_of_nodup (hx.imp hne) (hy.imp hne)).2 h

theorem less_iff (a b : String) : decide (a < b) ↔ id a < id b := decide_eq_true_iff

theorem mem_ascending {x : String} {xs : List String} : x ∈ ascending xs ↔ x ∈ xs :=
  mem_collate less_iff Function.injective_id

theorem pairwise_ascending (xs : List String) : (ascending xs).Pairwise (· < ·) :=
  pairwise_collate less_iff xs

end CausalWork
