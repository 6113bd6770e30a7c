namespace CausalWork

variable {α : Type} (before : α → α → Bool)

/-- Puts an item in its place among ordered ones. It takes the place of one that is neither before
nor after it. -/
def insertBy (x : α) : List α → List α
  | [] => [x]
  | y :: ys =>
    if before x y then x :: y :: ys
    else if before y x then y :: insertBy x ys
    else x :: ys

/-- The items in ascending order; among items that stand at one place the first stays. -/
def collate (xs : List α) : List α := xs.foldr (insertBy before) []

def ascending (ids : List String) : List String := collate (fun a b => a < b) ids

theorem mem_of_mem_insertBy {x z : α} {ys : List α} (h : z ∈ insertBy before x ys) :
    z = x ∨ z ∈ ys := by
  induction ys with
  | nil => simpa [insertBy] using h
  | cons y ys ih =>
      unfold insertBy at h
      split at h
      · simpa using h
      · split at h
        · rcases List.mem_cons.1 h with h | h
          · exact .inr (h ▸ List.mem_cons_self)
          · rcases ih h with h | h
            · exact .inl h
            · exact .inr (List.mem_cons_of_mem y h)
        · rcases List.mem_cons.1 h with h | h
          · exact .inl h
          · exact .inr (List.mem_cons_of_mem y h)

theorem mem_of_mem_collate {z : α} {xs : List α} (h : z ∈ collate before xs) : z ∈ xs := by
  induction xs with
  | nil => exact h
  | cons x xs ih =>
      rcases mem_of_mem_insertBy before h with h | h
      · exact h ▸ List.mem_cons_self
      · exact List.mem_cons_of_mem x (ih h)

end CausalWork
