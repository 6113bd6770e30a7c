import Mathlib.Data.List.Basic

namespace CausalWork

variable {ε α β : Type} {f : α → Except ε β} {xs : List α}

theorem mapM_eq_ok_iff {ys : List β} : xs.mapM f = .ok ys ↔ xs.map f = ys.map .ok := by
  induction xs generalizing ys with
  | nil => cases ys <;> simp [pure, Except.pure]
  | cons x xs ih =>
      rw [List.mapM_cons, List.map_cons]
      cases hx : f x with
      | error e => cases ys <;> simp [bind, Except.bind]
      | ok y =>
          cases hxs : xs.mapM f with
          | error e =>
              have hne (zs : List β) : xs.map f ≠ zs.map .ok := fun h => by
                cases hxs.symm.trans (ih.2 h)
              cases ys <;> simp [bind, Except.bind, hne]
          | ok zs =>
              rw [hxs] at ih
              cases ys <;> simp [bind, Except.bind, pure, Except.pure, ← ih]

theorem exists_of_mapM_eq_ok {ys : List β} (h : xs.mapM f = .ok ys) {x : α} (hx : x ∈ xs) :
    ∃ y ∈ ys, f x = .ok y := by
  have hmem : f x ∈ ys.map .ok := mapM_eq_ok_iff.1 h ▸ List.mem_map_of_mem hx
  obtain ⟨y, hy, he⟩ := List.mem_map.1 hmem
  exact ⟨y, hy, he.symm⟩

theorem mem_of_mapM_eq_ok {ys : List β} (h : xs.mapM f = .ok ys) {y : β} :
    y ∈ ys ↔ ∃ x ∈ xs, f x = .ok y := by
  constructor
  · intro hy
    exact List.mem_map.1 (mapM_eq_ok_iff.1 h ▸ List.mem_map_of_mem hy)
  · rintro ⟨x, hx, hxy⟩
    obtain ⟨y', hy', he⟩ := exists_of_mapM_eq_ok h hx
    cases hxy.symm.trans he
    exact hy'

theorem exists_of_mapM_eq_error {e : ε} (h : xs.mapM f = .error e) : ∃ x ∈ xs, f x = .error e := by
  induction xs with
  | nil => cases h
  | cons x xs ih =>
      rw [List.mapM_cons] at h
      cases hx : f x with
      | error e' =>
          rw [hx] at h
          cases h
          exact ⟨x, List.mem_cons_self, hx⟩
      | ok y =>
          cases hxs : xs.mapM f with
          | error e' =>
              rw [hx, hxs] at h
              cases h
              obtain ⟨z, hz, he⟩ := ih hxs
              exact ⟨z, List.mem_cons_of_mem x hz, he⟩
          | ok ys =>
              rw [hx, hxs] at h
              cases h

theorem exists_mapM_eq_error_iff :
    (∃ e, xs.mapM f = .error e) ↔ ∃ x ∈ xs, ∃ e, f x = .error e := by
  constructor
  · rintro ⟨e, h⟩
    obtain ⟨x, hx, he⟩ := exists_of_mapM_eq_error h
    exact ⟨x, hx, e, he⟩
  · rintro ⟨x, hx, e, he⟩
    cases h : xs.mapM f with
    | error e => exact ⟨e, rfl⟩
    | ok ys =>
        obtain ⟨y, -, hy⟩ := exists_of_mapM_eq_ok h hx
        cases hy.symm.trans he

end CausalWork
