import CausalWork.Proofs.Comment
import CausalWork.Proofs.Path
import Mathlib.Logic.Relation

namespace CausalWork.Prose

open Text

variable {b : Bool} {cs : List Char}

/-- A line is prose if more is left of it than blanks and it is no heading. -/
def IsProse (line : List Char) : Prop := trim line ≠ [] ∧ (trim line).head? ≠ some '#'

def IsHeading (line : List Char) : Prop := (trim line).head? = some '#'

instance : DecidablePred IsProse := fun line => inferInstanceAs (Decidable (trim line ≠ [] ∧ _))

instance : DecidablePred IsHeading := fun line => inferInstanceAs (Decidable ((trim line).head? = _))

theorem isProse_iff_visible? (line : List Char) :
    IsProse line ↔ ∃ c, visible? line = some c ∧ c ≠ '#' := by
  rw [IsProse, ← head?_trim]
  cases trim line <;> simp

theorem isProse_iff_head? (line : List Char) :
    isProse line ↔ ∃ c, line.head? = some c ∧ c ≠ '#' := by
  cases line <;> simp [isProse]

/-- Whether a comment that is open at the end of a line is taken to go on in the next one: only if
nothing stands outside comments on the line. -/
def goesOn (inComment : Bool) (line : List Char) : Bool :=
  isOpen inComment line && (outside inComment line).all isBlank

theorem goesOn_eq (b : Bool) (line : List Char) :
    goesOn b line = (isOpen b line && (visible? (outside b line)).isNone) := by
  rw [goesOn]
  congr 1
  rw [Bool.eq_iff_iff, List.all_eq_true, Option.isNone_iff_eq_none, visible?_eq_none_iff]

theorem goesOn_trim (b : Bool) (line : List Char) : goesOn b (trim line) = goesOn b line := by
  rw [goesOn_eq, goesOn_eq, isOpen_trim, visible?_outside_trim]

theorem strip_spec (b : Bool) (line : List Char) (hn : '\n' ∉ line) (hh : line.head? = visible? line) :
    (strip b line).1 = goesOn b line ∧ (strip b line).2.head? = visible? (outside b line) := by
  fun_induction strip b line with
  | case1 line left right h ih =>
      have hright : '\n' ∉ right := fun hm => hn (cut?_eq_some h ▸ by simp [hm])
      obtain ⟨houtside, hopen⟩ := outside_of_cut? (b := true) hn h
      obtain ⟨hgoes, hhead⟩ := ih (notMem_trim hright) (head?_trim_eq right)
      rw [hgoes, hhead, goesOn_trim, visible?_outside_trim, goesOn_eq, goesOn_eq, houtside, hopen]
      exact ⟨rfl, rfl⟩
  | case2 line h =>
      obtain ⟨houtside, hopen⟩ := outside_of_cut?_none (b := true) hn h
      rw [goesOn_eq, houtside, hopen]
      exact ⟨rfl, rfl⟩
  | case3 b line hb left right h hleft ih =>
      obtain rfl : b = false := by simpa using hb
      have hright : '\n' ∉ right := fun hm => hn (cut?_eq_some h ▸ by simp [hm])
      have hblank : visible? left = none := visible?_eq_none_iff.2 (List.all_eq_true.1 hleft)
      obtain ⟨houtside, hopen⟩ := outside_of_cut? (b := false) hn h
      obtain ⟨hgoes, hhead⟩ := ih (notMem_trim hright) (head?_trim_eq right)
      rw [hgoes, hhead, goesOn_trim, visible?_outside_trim, goesOn_eq, goesOn_eq, houtside, hopen,
        visible?_append]
      simp [hblank]
  | case4 b line hb left right h hleft =>
      obtain rfl : b = false := by simpa using hb
      obtain ⟨houtside, hopen⟩ := outside_of_cut? (b := false) hn h
      have hsome : visible? left ≠ none := by
        rw [ne_eq, visible?_eq_none_iff, ← List.all_eq_true]
        exact hleft
      obtain ⟨c, hc⟩ := Option.ne_none_iff_exists'.1 hsome
      have hline : visible? line = some c := by
        rw [cut?_eq_some h, visible?_append, hc]
        rfl
      rw [goesOn_eq, hh, houtside, visible?_append, hline]
      simp [hc]
  | case5 b line hb h =>
      obtain rfl : b = false := by simpa using hb
      obtain ⟨houtside, hopen⟩ := outside_of_cut?_none (b := false) hn h
      rw [goesOn_eq, houtside, hopen, hh]
      exact ⟨rfl, rfl⟩

def remainders (leavesOpen : Bool → List Char → Bool) (inComment : Bool) :
    List (List Char) → List (List Char)
  | [] => []
  | line :: lines =>
    outside inComment line :: remainders leavesOpen (leavesOpen inComment line) lines

theorem split_outside (b : Bool) {done : List Char} (hd : '\n' ∉ done) (cs : List Char) :
    split '\n' (outside b (done.reverse ++ cs)) = remainders isOpen b (splitFrom '\n' done cs) := by
  induction cs generalizing b done with
  | nil =>
      have hfree := notMem_outside b (List.mem_reverse.not.2 hd)
      rw [List.append_nil, split, splitFrom_of_notMem [] hfree]
      rfl
  | cons c cs ih =>
      by_cases hc : c = '\n'
      · subst hc
        have hfree := notMem_outside b (List.mem_reverse.not.2 hd)
        have hbreak (b : Bool) : outside b ('\n' :: cs) = '\n' :: outside b cs := by
          rw [outside_cons (not_prefix_of_isBlank (by decide))]
          simp
        rw [outside_append (by decide), hbreak, split, splitFrom_append_sep,
          splitFrom_of_notMem [] hfree, splitFrom, if_pos rfl, remainders]
        have hrest := ih (isOpen b done.reverse) List.not_mem_nil
        rw [List.reverse_nil, List.nil_append] at hrest
        rw [hrest]
        rfl
      · have hdone : '\n' ∉ c :: done := by simp [hd, Ne.symm hc]
        rw [splitFrom, if_neg hc, ← ih b hdone]
        simp

theorem split_outside_eq (b : Bool) (cs : List Char) :
    split '\n' (outside b cs) = remainders isOpen b (split '\n' cs) :=
  split_outside b List.not_mem_nil cs

/-- Whether some line has prose is read off what is left of the lines. -/
theorem anyProse_iff (b : Bool) {lines : List (List Char)} (hn : ∀ line ∈ lines, '\n' ∉ line) :
    anyProse b lines ↔ ∃ line ∈ remainders goesOn b lines, IsProse line := by
  induction lines generalizing b with
  | nil => simp [anyProse, remainders]
  | cons line lines ih =>
      obtain ⟨hgoes, hhead⟩ := strip_spec b (trim line)
        (notMem_trim (hn line List.mem_cons_self)) (head?_trim_eq line)
      have hprose : isProse (strip b (trim line)).2 ↔ IsProse (outside b line) := by
        rw [isProse_iff_head?, hhead, visible?_outside_trim, isProse_iff_visible?]
      rw [anyProse, Bool.or_eq_true, hprose, hgoes, goesOn_trim,
        ih _ fun line hl => hn line (List.mem_cons_of_mem _ hl)]
      simp [remainders]

theorem strip_nil (b : Bool) : strip b [] = (b, []) := by
  cases b <;> rw [strip] <;> rfl

theorem anyProse_linesFrom (b : Bool) (done cs : List Char) :
    anyProse b (linesFrom '\n' '\r' done cs) = anyProse b (splitFrom '\n' done cs) := by
  induction cs generalizing b done with
  | nil =>
      rw [linesFrom, splitFrom]
      split
      case isTrue h =>
        rw [List.isEmpty_iff.1 h]
        simp [anyProse, trim_nil, strip_nil, isProse]
      case isFalse => rfl
  | cons c cs ih =>
      rw [linesFrom, splitFrom]
      split
      · have hclosed : trim (closeLine '\r' done) = trim done.reverse := by
          cases done with
          | nil => rfl
          | cons d done =>
              rw [closeLine]
              split
              case isTrue hd => rw [hd, List.reverse_cons, trim_concat (by decide)]
              case isFalse => rfl
        rw [anyProse, anyProse, hclosed]
        simp only [ih]
      · exact ih b (c :: done)

theorem isSubstantive_iff (s : String) :
    isSubstantive s ↔ ∃ line ∈ remainders goesOn false (split '\n' s.toList), IsProse line := by
  rw [isSubstantive, textLines, lines, anyProse_linesFrom]
  exact anyProse_iff false fun line hl => notMem_of_mem_splitFrom List.not_mem_nil hl

/-- The rule for plans: a comment opens wherever its mark stands outside comments, and some line has
prose outside comments. -/
def Substantive (text : List Char) : Prop := ∃ line ∈ split '\n' (outside false text), IsProse line

instance : DecidablePred Substantive := fun text =>
  inferInstanceAs (Decidable (∃ line ∈ split '\n' (outside false text), IsProse line))

/-- No heading leaves a comment open at the end of its line. -/
def HeadingsClosed (inComment : Bool) : List (List Char) → Prop
  | [] => True
  | line :: lines =>
    (isOpen inComment line → ¬ IsHeading (outside inComment line)) ∧
      HeadingsClosed (isOpen inComment line) lines

instance decidableHeadingsClosed :
    (inComment : Bool) → (lines : List (List Char)) → Decidable (HeadingsClosed inComment lines)
  | _, [] => inferInstanceAs (Decidable True)
  | inComment, line :: lines =>
    have := decidableHeadingsClosed (isOpen inComment line) lines
    inferInstanceAs (Decidable ((isOpen inComment line → ¬ IsHeading (outside inComment line)) ∧ _))

theorem exists_prose_congr {lines : List (List Char)} (h : HeadingsClosed b lines) :
    (∃ line ∈ remainders goesOn b lines, IsProse line) ↔
      ∃ line ∈ remainders isOpen b lines, IsProse line := by
  induction lines generalizing b with
  | nil => rfl
  | cons line lines ih =>
      obtain ⟨hclosed, hrest⟩ := h
      simp only [remainders, List.exists_mem_cons_iff]
      by_cases hprose : IsProse (outside b line)
      · simp [hprose]
      · have hgoes : goesOn b line = isOpen b line := by
          rw [goesOn_eq, Bool.and_eq_left_iff_imp, Option.isNone_iff_eq_none]
          intro hopen
          have hheading := hclosed hopen
          rw [IsHeading, head?_trim] at hheading
          rw [isProse_iff_visible?] at hprose
          cases hfirst : visible? (outside b line) with
          | none => rfl
          | some c => exact absurd ⟨c, hfirst, fun hc => hheading (hc ▸ hfirst)⟩ hprose
        rw [hgoes, ih hrest]

/-- One round over what is left of a line: the end of a comment is passed, or the mark of one that
stands in front of all else. -/
inductive Round : Bool × List Char → Bool × List Char → Prop
  | closes {rest left right} (h : cut? closing rest = some (left, right)) :
      Round (true, rest) (false, trim right)
  | opens {rest left right} (h : cut? opening rest = some (left, right)) (hl : left.all isBlank) :
      Round (false, rest) (true, trim right)

theorem exists_last_round (b : Bool) (line : List Char) : ∃ last,
    Relation.ReflTransGen Round (b, line) last ∧ (∀ next, ¬ Round last next) ∧
      strip b line = (last.1, if last.1 then [] else last.2) := by
  fun_induction strip b line with
  | case1 line left right h ih =>
      obtain ⟨last, hrounds, hlast, hstrip⟩ := ih
      exact ⟨last, .head (.closes h) hrounds, hlast, hstrip⟩
  | case2 line h =>
      refine ⟨(true, line), .refl, ?_, rfl⟩
      rintro next ⟨h'⟩
      cases h.symm.trans h'
  | case3 b line hb left right h hleft ih =>
      obtain rfl : b = false := by simpa using hb
      obtain ⟨last, hrounds, hlast, hstrip⟩ := ih
      exact ⟨last, .head (.opens h hleft) hrounds, hlast, hstrip⟩
  | case4 b line hb left right h hleft =>
      obtain rfl : b = false := by simpa using hb
      refine ⟨(false, line), .refl, ?_, rfl⟩
      rintro next (- | ⟨h', hl⟩)
      cases h.symm.trans h'
      exact hleft hl
  | case5 b line hb h =>
      obtain rfl : b = false := by simpa using hb
      refine ⟨(false, line), .refl, ?_, rfl⟩
      rintro next (- | ⟨h', -⟩)
      cases h.symm.trans h'

/-- A text is substantive exactly if some line has prose outside comments, where a comment that
begins behind something else on a line is taken to end with the line. If no heading leaves a comment
open, these are the comments as they are written. The rounds over each line come to an end. -/
theorem substantive_without_open_headings (s : String) :
    (isSubstantive s ↔ ∃ line ∈ remainders goesOn false (split '\n' s.toList), IsProse line) ∧
    (HeadingsClosed false (split '\n' s.toList) → (isSubstantive s ↔ Substantive s.toList)) ∧
    ∀ inComment line, ∃ last, Relation.ReflTransGen Round (inComment, line) last ∧
      (∀ next, ¬ Round last next) ∧ strip inComment line = (last.1, if last.1 then [] else last.2) := by
  refine ⟨isSubstantive_iff s, fun h => ?_, exists_last_round⟩
  rw [isSubstantive_iff, exists_prose_congr h, Substantive, split_outside_eq]

def steps : String := "# Steps <!-- in order -->\n<!-- one\n# two --> <!-- three --> Split the lexer.\n"

theorem steps_substantive : HeadingsClosed false (split '\n' steps.toList) ∧ isSubstantive steps := by
  have hclosed : HeadingsClosed false (split '\n' steps.toList) := by decide
  exact ⟨hclosed, ((substantive_without_open_headings steps).2.1 hclosed).2 (by decide)⟩

def guidance : String := "# Plan <!--\nDescribe the steps here.\n-->\n"

theorem guidance_taken_for_prose : isSubstantive guidance ∧ ¬ Substantive guidance.toList := by
  constructor
  · decide +kernel
  · decide

end CausalWork.Prose
