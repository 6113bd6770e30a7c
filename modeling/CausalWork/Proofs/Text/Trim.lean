import CausalWork.Text.Blank
import Mathlib.Data.List.TakeWhile

namespace CausalWork.Text

variable {cs : List Char}

def visible? (cs : List Char) : Option Char := cs.find? fun c => !isBlank c

theorem visible?_eq_none_iff : visible? cs = none ↔ ∀ c ∈ cs, isBlank c := by
  simp [visible?]

theorem visible?_append (front rest : List Char) :
    visible? (front ++ rest) = (visible? front).or (visible? rest) := List.find?_append

theorem not_isBlank_of_trimStart {c : Char} {rest : List Char} (h : trimStart cs = c :: rest) :
    ¬ isBlank c := by
  have hhead := List.head?_dropWhile_not isBlank cs
  rw [← trimStart, h] at hhead
  simpa using hhead

/-- Only blanks are trimmed off, and no blank stands in front of what stays. -/
theorem exists_trim (cs : List Char) : ∃ front back, cs = front ++ (trim cs ++ back) ∧
    (∀ c ∈ front, isBlank c) ∧ (∀ c ∈ back, isBlank c) ∧ ∀ c ∈ (trim cs).head?, ¬ isBlank c := by
  have hstart : trimStart cs = trim cs ++ ((trimStart cs).reverse.takeWhile isBlank).reverse := by
    rw [trim, trimEnd, ← List.reverse_append, List.takeWhile_append_dropWhile, List.reverse_reverse]
  refine ⟨cs.takeWhile isBlank, ((trimStart cs).reverse.takeWhile isBlank).reverse, ?_,
    fun c hc => List.mem_takeWhile_imp hc, fun c hc => List.mem_takeWhile_imp (List.mem_reverse.1 hc),
    fun c hc => ?_⟩
  · rw [← hstart, trimStart, List.takeWhile_append_dropWhile]
  · obtain ⟨rest, hrest⟩ := List.head?_eq_some_iff.1 hc
    rw [hrest, List.cons_append] at hstart
    exact not_isBlank_of_trimStart hstart

theorem trim_subset (cs : List Char) : trim cs ⊆ cs := by
  obtain ⟨front, back, he, -⟩ := exists_trim cs
  intro c hc
  rw [he]
  exact List.mem_append_right _ (List.mem_append_left _ hc)

theorem notMem_trim {c : Char} (h : c ∉ cs) : c ∉ trim cs := fun hm => h (trim_subset cs hm)

theorem visible?_trim (cs : List Char) : visible? (trim cs) = visible? cs := by
  obtain ⟨front, back, he, hfront, hback, -⟩ := exists_trim cs
  conv => rhs; rw [he, visible?_append, visible?_append, visible?_eq_none_iff.2 hfront,
    visible?_eq_none_iff.2 hback, Option.none_or, Option.or_none]

theorem head?_trim (cs : List Char) : (trim cs).head? = visible? cs := by
  obtain ⟨-, -, -, -, -, hhead⟩ := exists_trim cs
  rw [← visible?_trim]
  cases h : trim cs with
  | nil => rfl
  | cons c rest => simp [visible?, hhead c (by simp [h])]

theorem head?_trim_eq (cs : List Char) : (trim cs).head? = visible? (trim cs) :=
  (head?_trim cs).trans (visible?_trim cs).symm

theorem trim_concat {c : Char} (hc : isBlank c) (cs : List Char) : trim (cs ++ [c]) = trim cs := by
  rw [trim, trim, trimStart, trimStart, List.dropWhile_append]
  split
  case isTrue h =>
    rw [List.isEmpty_iff.1 h, List.dropWhile_cons_of_pos hc]
    rfl
  case isFalse => rw [trimEnd, List.reverse_concat, List.dropWhile_cons_of_pos hc, trimEnd]

end CausalWork.Text
