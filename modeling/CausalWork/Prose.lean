import CausalWork.Text.Blank
import CausalWork.Text.Lines

namespace CausalWork.Prose

open Text

def opening : List Char := "<!--".toList

def closing : List Char := "-->".toList

def cut? (mark : List Char) : List Char → Option (List Char × List Char)
  | [] => if mark.isEmpty then some ([], []) else none
  | c :: cs =>
    if mark.isPrefixOf (c :: cs) then some ([], (c :: cs).drop mark.length)
    else (cut? mark cs).map fun (left, right) => (c :: left, right)

theorem length_of_cut? {mark cs left right : List Char} (h : cut? mark cs = some (left, right)) :
    left.length + mark.length + right.length = cs.length := by
  induction cs generalizing left with
  | nil =>
      unfold cut? at h
      split at h
      · rename_i hm
        cases h
        simpa using List.isEmpty_iff.1 hm
      · cases h
  | cons c cs ih =>
      unfold cut? at h
      split at h
      · rename_i hm
        cases h
        have := (List.isPrefixOf_iff_prefix.1 hm).length_le
        simp only [List.length_nil, List.length_drop]
        omega
      · obtain ⟨⟨l, r⟩, hlr, he⟩ := Option.map_eq_some_iff.1 h
        cases he
        have := ih hlr
        simp only [List.length_cons]
        omega

theorem length_dropWhile_le (p : Char → Bool) (cs : List Char) :
    (cs.dropWhile p).length ≤ cs.length :=
  (List.dropWhile_sublist p).length_le

theorem length_trim_le (cs : List Char) : (trim cs).length ≤ cs.length := by
  have h := length_dropWhile_le isBlank (trimStart cs).reverse
  have h' := length_dropWhile_le isBlank cs
  simp only [trim, trimEnd, List.length_reverse] at h ⊢
  unfold trimStart at h ⊢
  omega

/-- What is left of a trimmed line when the comments at its front are taken off, and whether a
comment is still open at its end. -/
def strip (inComment : Bool) (line : List Char) : Bool × List Char :=
  if inComment then
    match _h : cut? closing line with
    | some (_, right) => strip false (trim right)
    | none => (true, [])
  else
    match _h : cut? opening line with
    | some (left, right) => if left.all isBlank then strip true (trim right) else (false, line)
    | none => (false, line)
  termination_by line.length
  decreasing_by
    · have := length_of_cut? _h
      have := length_trim_le right
      simp [closing] at *
      omega
    · have := length_of_cut? _h
      have := length_trim_le right
      simp [opening] at *
      omega

def isProse (line : List Char) : Bool := !line.isEmpty && line.head? ≠ some '#'

def anyProse (inComment : Bool) : List (List Char) → Bool
  | [] => false
  | line :: lines =>
    let (inComment, rest) := strip inComment (trim line)
    isProse rest || anyProse inComment lines

/-- Whether a text has a line that is not blank, not a heading and not inside a comment. -/
def isSubstantive (s : String) : Bool := anyProse false (textLines s)

end CausalWork.Prose
