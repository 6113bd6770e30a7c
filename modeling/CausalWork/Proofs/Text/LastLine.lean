import CausalWork.Text.Lines
import Mathlib.Data.List.DropRight

namespace CausalWork.Text

variable {α : Type} [DecidableEq α]

def lastLine (feed : α) (cs : List α) : List α := cs.rtakeWhile (· ≠ feed)

def fullLines (feed ret : α) (cs : List α) : List (List α) :=
  lines feed ret (cs.rdropWhile (· ≠ feed))

theorem feed_notMem_lastLine (feed : α) (cs : List α) : feed ∉ lastLine feed cs := by
  intro h
  simpa using List.mem_rtakeWhile_imp h

theorem linesFrom_feed_append (feed ret : α) (done cs rest : List α) :
    linesFrom feed ret done (cs ++ feed :: rest) =
      linesFrom feed ret done (cs ++ [feed]) ++ lines feed ret rest := by
  induction cs generalizing done with
  | nil => simp [linesFrom, lines]
  | cons c cs ih =>
      rw [List.cons_append, List.cons_append, linesFrom, linesFrom]
      split <;> simp [ih]

theorem lines_front_append (feed ret : α) (cs rest : List α) :
    lines feed ret (cs.rdropWhile (· ≠ feed) ++ rest) =
      fullLines feed ret cs ++ lines feed ret rest := by
  unfold fullLines
  by_cases h : cs.rdropWhile (· ≠ feed) = []
  · rw [h]
    rfl
  · have hlast : (cs.rdropWhile (· ≠ feed)).getLast h = feed := by
      simpa using List.rdropWhile_last_not (· ≠ feed) cs h
    rw [← List.dropLast_append_getLast h, hlast, List.append_assoc]
    exact linesFrom_feed_append feed ret [] _ rest

theorem linesFrom_of_notMem {feed : α} (ret : α) (done : List α) {line : List α}
    (h : feed ∉ line) : linesFrom feed ret done line =
      if done.isEmpty && line.isEmpty then [] else [done.reverse ++ line] := by
  induction line generalizing done with
  | nil => simp [linesFrom]
  | cons c line ih =>
      have hc : c ≠ feed := fun e => h (e ▸ List.mem_cons_self)
      simp [linesFrom, hc, ih (c :: done) fun m => h (List.mem_cons_of_mem c m)]

theorem lines_eq (feed ret : α) (cs : List α) : lines feed ret cs = fullLines feed ret cs ++
    if (lastLine feed cs).isEmpty then [] else [lastLine feed cs] := by
  have hcs : cs.rdropWhile (· ≠ feed) ++ lastLine feed cs = cs := List.rdropWhile_append_rtakeWhile
  conv_lhs => rw [← hcs]
  rw [lines_front_append, lines, linesFrom_of_notMem ret [] (feed_notMem_lastLine feed cs)]
  rfl

theorem lines_append_line {feed : α} (ret : α) (cs : List α) {line : List α} (h : feed ∉ line) :
    lines feed ret (cs ++ (line ++ [feed])) =
      fullLines feed ret cs ++ [closeLine ret (lastLine feed cs ++ line).reverse] := by
  have hcs : cs.rdropWhile (· ≠ feed) ++ lastLine feed cs = cs := List.rdropWhile_append_rtakeWhile
  have hjoined : feed ∉ lastLine feed cs ++ line := by
    simp [feed_notMem_lastLine, h]
  conv_lhs => rw [← hcs]
  rw [List.append_assoc, lines_front_append, ← List.append_assoc, lines,
    linesFrom_append_feed feed ret [] _ [] hjoined, List.append_nil]
  rfl

end CausalWork.Text
