import CausalWork.Proofs.Text.Trim
import CausalWork.Prose

namespace CausalWork.Prose

open Text

/-- What stands of a text outside comments. The breaks of lines are kept. -/
def outside : (inComment : Bool) → List Char → List Char
  | _, [] => []
  | false, '<' :: '!' :: '-' :: '-' :: cs => outside true cs
  | true, '-' :: '-' :: '>' :: cs => outside false cs
  | inComment, c :: cs =>
    if inComment ∧ c ≠ '\n' then outside inComment cs else c :: outside inComment cs

def isOpen : (inComment : Bool) → List Char → Bool
  | inComment, [] => inComment
  | false, '<' :: '!' :: '-' :: '-' :: cs => isOpen true cs
  | true, '-' :: '-' :: '>' :: cs => isOpen false cs
  | inComment, _ :: cs => isOpen inComment cs

def mark (inComment : Bool) : List Char := if inComment then closing else opening

variable {b : Bool} {c : Char} {cs : List Char}

theorem outside_mark (b : Bool) (cs : List Char) : outside b (mark b ++ cs) = outside (!b) cs := by
  cases b <;> rfl

theorem isOpen_mark (b : Bool) (cs : List Char) : isOpen b (mark b ++ cs) = isOpen (!b) cs := by
  cases b <;> rfl

theorem outside_cons (h : ¬ mark b <+: c :: cs) :
    outside b (c :: cs) = (if b ∧ c ≠ '\n' then [] else [c]) ++ outside b cs := by
  have hstep : outside b (c :: cs) = if b ∧ c ≠ '\n' then outside b cs else c :: outside b cs := by
    apply outside.eq_4
    · rintro cs' rfl rfl rfl
      exact h ⟨cs', rfl⟩
    · rintro cs' rfl rfl rfl
      exact h ⟨cs', rfl⟩
  rw [hstep]
  split <;> rfl

theorem isOpen_cons (h : ¬ mark b <+: c :: cs) : isOpen b (c :: cs) = isOpen b cs := by
  apply isOpen.eq_4
  · rintro cs' rfl rfl rfl
    exact h ⟨cs', rfl⟩
  · rintro cs' rfl rfl rfl
    exact h ⟨cs', rfl⟩

/-- A text is read by going past a mark or else past one character. -/
@[elab_as_elim]
theorem scan_induction {motive : Bool → List Char → Prop} (nil : ∀ b, motive b [])
    (mark : ∀ b cs, motive (!b) cs → motive b (mark b ++ cs))
    (cons : ∀ b c cs, ¬ Prose.mark b <+: c :: cs → motive b cs → motive b (c :: cs))
    (b : Bool) (cs : List Char) : motive b cs := by
  induction hn : cs.length using Nat.strong_induction_on generalizing b cs with
  | _ n ih =>
      subst hn
      cases cs with
      | nil => exact nil b
      | cons c cs =>
          by_cases h : Prose.mark b <+: c :: cs
          · obtain ⟨rest, hrest⟩ := h
            have hlt : rest.length < (c :: cs).length := by
              rw [← hrest, List.length_append]
              cases b <;> simp [Prose.mark, opening, closing]
            exact hrest ▸ mark b rest (ih _ hlt _ _ rfl)
          · exact cons b c cs h (ih _ (by simp) _ _ rfl)

theorem not_isBlank_of_mem_mark (h : c ∈ mark b) : ¬ isBlank c := by
  have hmark : (mark b).all fun c => !isBlank c := by cases b <;> decide
  simpa using List.all_eq_true.1 hmark c h

theorem not_prefix_of_isBlank (h : isBlank c) : ¬ mark b <+: c :: cs := by
  rintro ⟨rest, hrest⟩
  obtain ⟨first, tail, hmark⟩ : ∃ first tail, mark b = first :: tail := by
    cases b
    · exact ⟨_, _, rfl⟩
    · exact ⟨_, _, rfl⟩
  rw [hmark, List.cons_append] at hrest
  obtain ⟨rfl, -⟩ := List.cons.inj hrest
  exact not_isBlank_of_mem_mark (hmark ▸ List.mem_cons_self) h

theorem prefix_of_prefix_append {front : List Char} (hc : isBlank c)
    (h : mark b <+: front ++ c :: cs) : mark b <+: front := by
  rcases List.prefix_or_prefix_of_prefix h (List.prefix_append front (c :: cs)) with h' | ⟨rest, hrest⟩
  · exact h'
  · rw [← hrest, List.prefix_append_right_inj] at h
    cases rest with
    | nil => exact ⟨[], by simpa using hrest.symm⟩
    | cons d rest =>
        obtain ⟨rfl, -⟩ := List.cons_prefix_cons.1 h
        exact absurd hc (not_isBlank_of_mem_mark (b := b) (hrest ▸ by simp))

theorem isOpen_blanks {front : List Char} (h : ∀ x ∈ front, isBlank x) (cs : List Char) :
    isOpen b (front ++ cs) = isOpen b cs := by
  induction front with
  | nil => rfl
  | cons x front ih =>
      rw [List.cons_append, isOpen_cons (not_prefix_of_isBlank (h x List.mem_cons_self)),
        ih fun y hy => h y (List.mem_cons_of_mem x hy)]

theorem isOpen_append (hc : isBlank c) (b : Bool) (front rest : List Char) :
    isOpen b (front ++ c :: rest) = isOpen (isOpen b front) (c :: rest) := by
  induction b, front using scan_induction with
  | nil b => cases b <;> rfl
  | mark b front ih => rw [List.append_assoc, isOpen_mark, isOpen_mark, ih]
  | cons b x front h ih =>
      have h' : ¬ mark b <+: x :: (front ++ c :: rest) := fun hp => h (prefix_of_prefix_append hc hp)
      rw [List.cons_append, isOpen_cons h', isOpen_cons h, ih]

theorem outside_append (hc : isBlank c) (b : Bool) (front rest : List Char) :
    outside b (front ++ c :: rest) = outside b front ++ outside (isOpen b front) (c :: rest) := by
  induction b, front using scan_induction with
  | nil b => cases b <;> rfl
  | mark b front ih => rw [List.append_assoc, outside_mark, outside_mark, isOpen_mark, ih]
  | cons b x front h ih =>
      have h' : ¬ mark b <+: x :: (front ++ c :: rest) := fun hp => h (prefix_of_prefix_append hc hp)
      rw [List.cons_append, outside_cons h', outside_cons h, isOpen_cons h, ih, List.append_assoc]

theorem mem_of_mem_outside (b : Bool) (cs : List Char) : outside b cs ⊆ cs := by
  induction b, cs using scan_induction with
  | nil b => cases b <;> exact List.Subset.refl []
  | mark b cs ih =>
      rw [outside_mark]
      exact fun x hx => List.mem_append_right _ (ih hx)
  | cons b c cs h ih =>
      rw [outside_cons h]
      intro x hx
      rcases List.mem_append.1 hx with hx | hx
      · split at hx
        · cases hx
        · exact List.mem_singleton.1 hx ▸ List.mem_cons_self
      · exact List.mem_cons_of_mem c (ih hx)

theorem notMem_outside (b : Bool) (h : c ∉ cs) : c ∉ outside b cs :=
  fun hm => h (mem_of_mem_outside b cs hm)

theorem visible?_outside_blanks {front : List Char} (h : ∀ x ∈ front, isBlank x) (cs : List Char) :
    visible? (outside b (front ++ cs)) = visible? (outside b cs) := by
  induction front with
  | nil => rfl
  | cons x front ih =>
      have hx := h x List.mem_cons_self
      have hrest := ih fun y hy => h y (List.mem_cons_of_mem x hy)
      have hkept : visible? (if b ∧ x ≠ '\n' then [] else [x]) = none := by
        split <;> simp [visible?, hx]
      rw [List.cons_append, outside_cons (not_prefix_of_isBlank hx), visible?_append, hkept, hrest]
      rfl

theorem isOpen_trim (b : Bool) (cs : List Char) : isOpen b (trim cs) = isOpen b cs := by
  obtain ⟨front, back, he, hfront, hback, -⟩ := exists_trim cs
  conv => rhs; rw [he, isOpen_blanks hfront]
  cases back with
  | nil => rw [List.append_nil]
  | cons c back =>
      have hrest := isOpen_blanks (b := isOpen b (trim cs)) hback []
      rw [isOpen_append (hback c List.mem_cons_self), ← List.append_nil (c :: back), hrest]
      cases isOpen b (trim cs) <;> rfl

theorem visible?_outside_trim (b : Bool) (cs : List Char) :
    visible? (outside b (trim cs)) = visible? (outside b cs) := by
  obtain ⟨front, back, he, hfront, hback, -⟩ := exists_trim cs
  conv => rhs; rw [he, visible?_outside_blanks hfront]
  cases back with
  | nil => rw [List.append_nil]
  | cons c back =>
      have hnone : visible? (outside (isOpen b (trim cs)) (c :: back)) = none :=
        visible?_eq_none_iff.2 fun x hx => hback x (mem_of_mem_outside _ _ hx)
      rw [outside_append (hback c List.mem_cons_self), visible?_append, hnone, Option.or_none]

theorem cut?_eq_some {mark left right : List Char} (h : cut? mark cs = some (left, right)) :
    cs = left ++ (mark ++ right) := by
  induction cs generalizing left with
  | nil =>
      rw [cut?] at h
      split at h
      · cases h
        simp_all
      · cases h
  | cons c cs ih =>
      rw [cut?] at h
      split at h
      case isTrue hm =>
        cases h
        obtain ⟨rest, hrest⟩ := List.isPrefixOf_iff_prefix.1 hm
        simp [← hrest]
      case isFalse =>
        obtain ⟨⟨l, r⟩, hlr, he⟩ := Option.map_eq_some_iff.1 h
        cases he
        rw [ih hlr, List.cons_append]

/-- A line is read up to the mark that ends what it begins in. -/
theorem outside_of_cut? {left right : List Char} (hn : '\n' ∉ cs)
    (h : cut? (mark b) cs = some (left, right)) :
    outside b cs = (if b then [] else left) ++ outside (!b) right ∧ isOpen b cs = isOpen (!b) right := by
  induction cs generalizing left with
  | nil => cases b <;> cases h
  | cons c cs ih =>
      rw [cut?] at h
      split at h
      case isTrue hm =>
        cases h
        obtain ⟨rest, hrest⟩ := List.isPrefixOf_iff_prefix.1 hm
        rw [← hrest, List.drop_left, outside_mark, isOpen_mark]
        simp
      case isFalse hm =>
        have hp : ¬ mark b <+: c :: cs := fun hp => hm (List.isPrefixOf_iff_prefix.2 hp)
        obtain ⟨⟨l, r⟩, hlr, he⟩ := Option.map_eq_some_iff.1 h
        cases he
        obtain ⟨hc, hcs⟩ := not_or.1 (List.mem_cons.not.1 hn)
        obtain ⟨houtside, hopen⟩ := ih hcs hlr
        rw [outside_cons hp, isOpen_cons hp, houtside, hopen]
        cases b <;> simp [Ne.symm hc]

theorem outside_of_cut?_none (hn : '\n' ∉ cs) (h : cut? (mark b) cs = none) :
    outside b cs = (if b then [] else cs) ∧ isOpen b cs = b := by
  induction cs with
  | nil => cases b <;> simp [outside, isOpen]
  | cons c cs ih =>
      rw [cut?] at h
      split at h
      case isTrue => cases h
      case isFalse hm =>
        have hp : ¬ mark b <+: c :: cs := fun hp => hm (List.isPrefixOf_iff_prefix.2 hp)
        obtain ⟨hc, hcs⟩ := not_or.1 (List.mem_cons.not.1 hn)
        obtain ⟨houtside, hopen⟩ := ih hcs (Option.map_eq_none_iff.1 h)
        rw [outside_cons hp, isOpen_cons hp, houtside, hopen]
        cases b <;> simp [Ne.symm hc]

end CausalWork.Prose
