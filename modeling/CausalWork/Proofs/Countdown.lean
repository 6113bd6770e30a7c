import CausalWork.Countdown
import CausalWork.Proofs.Precedence
import Mathlib.Data.List.Count

namespace CausalWork.Countdown

theorem mem_enter {id x : String} {xs : List String} : x ∈ enter id xs ↔ x = id ∨ x ∈ xs := by
  induction xs with
  | nil => simp [enter]
  | cons y ys ih =>
      unfold enter
      by_cases h : id < y
      · rw [if_pos h, List.mem_cons]
      · rw [if_neg h, List.mem_cons, ih, List.mem_cons, or_left_comm]

theorem pairwise_enter {id : String} {xs : List String} (h : xs.Pairwise (· < ·))
    (hid : id ∉ xs) : (enter id xs).Pairwise (· < ·) := by
  induction xs with
  | nil => simp [enter]
  | cons y ys ih =>
      obtain ⟨hy, hys⟩ := List.pairwise_cons.1 h
      obtain ⟨hne, hnot⟩ := not_or.1 (fun hm => hid (List.mem_cons.2 hm))
      unfold enter
      by_cases hlt : id < y
      · rw [if_pos hlt]
        refine List.pairwise_cons.2 ⟨?_, h⟩
        intro x hx
        rcases List.mem_cons.1 hx with rfl | hx
        · exact hlt
        · exact hlt.trans (hy x hx)
      · rw [if_neg hlt]
        refine List.pairwise_cons.2 ⟨?_, ih hys hnot⟩
        intro x hx
        rcases mem_enter.1 hx with rfl | hx
        · exact lt_of_le_of_ne (not_lt.1 hlt) (Ne.symm hne)
        · exact hy x hx

theorem lookup_cons {β : Type} (x other : String) (n : β) (degrees : List (String × β)) :
    ((x, n) :: degrees).lookup other = if other = x then some n else degrees.lookup other := by
  rw [List.lookup_cons]
  by_cases h : other = x
  · rw [if_pos h, h, beq_self_eq_true]
  · have hb : (other == x) = false := by simpa using h
    rw [if_neg h, hb]

theorem lookup_setDegree (id other : String) (degree : Nat) (degrees : List (String × Nat)) :
    (setDegree id degree degrees).lookup other =
      if other = id then (degrees.lookup id).map fun _ => degree else degrees.lookup other := by
  induction degrees with
  | nil => simp [setDegree]
  | cons d degrees ih =>
      obtain ⟨x, n⟩ := d
      have hs : setDegree id degree ((x, n) :: degrees) =
          (if x = id then id else x, if x = id then degree else n) ::
            setDegree id degree degrees := by
        rw [setDegree, List.map_cons]
        by_cases hx : x = id <;> simp [setDegree, hx]
      rw [hs, lookup_cons, lookup_cons, lookup_cons, ih]
      by_cases hx : x = id
      · subst hx
        simp only [if_true]
        by_cases ho : other = x <;> simp [ho]
      · simp only [if_neg hx, if_neg (Ne.symm hx)]
        by_cases ho : other = id
        · subst ho
          simp [Ne.symm hx]
        · simp [ho]

theorem lower?_eq_some {c : Countdown} {id : String} {n : Nat}
    (hd : c.degrees.lookup id = some (n + 1)) (hr : id ∉ c.ready)
    (hs : c.ready.Pairwise (· < ·)) :
    ∃ c', c.lower? id = some c' ∧
      (∀ x, c'.degrees.lookup x = if x = id then some n else c.degrees.lookup x) ∧
      c'.ready.Pairwise (· < ·) ∧ ∀ x, x ∈ c'.ready ↔ x ∈ c.ready ∨ x = id ∧ n = 0 := by
  refine ⟨⟨setDegree id n c.degrees, if n = 0 then enter id c.ready else c.ready⟩, ?_, ?_, ?_, ?_⟩
  · simp [lower?, hd]
  · intro x
    dsimp only
    rw [lookup_setDegree, hd]
    rfl
  · by_cases h0 : n = 0
    · simpa only [if_pos h0] using pairwise_enter hs hr
    · simpa only [if_neg h0] using hs
  · intro x
    by_cases h0 : n = 0
    · simp only [h0, if_true, mem_enter, and_true, or_comm]
    · simp only [h0, if_false, and_false, or_false]

theorem foldlM_lower? {c : Countdown} {children : List String} (hn : children.Nodup)
    (hd : ∀ x ∈ children, ∃ n, c.degrees.lookup x = some (n + 1))
    (hr : ∀ x ∈ children, x ∉ c.ready) (hs : c.ready.Pairwise (· < ·)) :
    ∃ c', children.foldlM lower? c = some c' ∧
      (∀ x, c'.degrees.lookup x = if x ∈ children then (c.degrees.lookup x).map Nat.pred
        else c.degrees.lookup x) ∧
      c'.ready.Pairwise (· < ·) ∧
      ∀ x, x ∈ c'.ready ↔ x ∈ c.ready ∨ x ∈ children ∧ c.degrees.lookup x = some 1 := by
  induction children generalizing c with
  | nil => exact ⟨c, rfl, by simp, hs, by simp⟩
  | cons y children ih =>
      obtain ⟨hy, hn⟩ := List.nodup_cons.1 hn
      obtain ⟨n, hdy⟩ := hd y List.mem_cons_self
      obtain ⟨c₁, hstep, hd₁, hs₁, hr₁⟩ := lower?_eq_some hdy (hr y List.mem_cons_self) hs
      have hne : ∀ x ∈ children, x ≠ y := fun x hx he => hy (he ▸ hx)
      have hd' : ∀ x ∈ children, ∃ m, c₁.degrees.lookup x = some (m + 1) := by
        intro x hx
        rw [hd₁, if_neg (hne x hx)]
        exact hd x (List.mem_cons_of_mem y hx)
      have hr' : ∀ x ∈ children, x ∉ c₁.ready := by
        intro x hx hm
        rcases (hr₁ x).1 hm with hm | ⟨he, -⟩
        · exact hr x (List.mem_cons_of_mem y hx) hm
        · exact hne x hx he
      obtain ⟨c', hf, hdeg, hsort, hready⟩ := ih hn hd' hr' hs₁
      refine ⟨c', ?_, ?_, hsort, ?_⟩
      · rw [List.foldlM_cons, hstep]
        exact hf
      · intro x
        rw [hdeg, hd₁]
        by_cases hx : x = y
        · subst hx
          simp [hy, hdy]
        · simp [hx]
      · intro x
        rw [hready, hr₁, hd₁]
        by_cases hx : x = y
        · subst hx
          simp [hy, hdy]
        · simp [hx]

theorem countP_notMem {done : List String} {id : String} (hid : id ∉ done) (ps : List String) :
    ps.countP (· ∉ done) = ps.countP (· ∉ id :: done) + ps.count id := by
  induction ps with
  | nil => rfl
  | cons p ps ih =>
      rw [List.countP_cons, List.countP_cons, List.count_cons, ih]
      by_cases hp : p = id
      · subst hp
        simp [hid]
        omega
      · simp [hp]
        omega

theorem countP_notMem_eq_zero {done ps : List String} :
    ps.countP (· ∉ done) = 0 ↔ ∀ p ∈ ps, p ∈ done := by
  rw [List.countP_eq_zero]
  simp only [decide_eq_true_eq, not_not]

variable {r : Precedence} {done : List String} {c : Countdown}

/-- What a countdown says once some ids are placed: the parents that are left, and the ids that
have none left. -/
structure Stands (r : Precedence) (done : List String) (c : Countdown) : Prop where
  placed : r.Placed done
  degree : ∀ id ∈ r.ids, c.degrees.lookup id = some ((r.parents id).countP (· ∉ done))
  sorted : c.ready.Pairwise (· < ·)
  ready : ∀ id, id ∈ c.ready ↔ r.Ready done id

theorem Stands.place {degrees : List (String × Nat)} {id : String} {ready : List String}
    (h : Stands r done ⟨degrees, id :: ready⟩) {children : List String} (hn : children.Nodup)
    (hc : ∀ x, x ∈ children ↔ x ∈ r.ids ∧ id ∈ r.parents x) :
    ∃ c', children.foldlM lower? ⟨degrees, ready⟩ = some c' ∧ Stands r (id :: done) c' := by
  obtain ⟨hfirst, hsorted⟩ := List.pairwise_cons.1 h.sorted
  have hid : r.Ready done id := (h.ready id).1 List.mem_cons_self
  have hmem : ∀ x, x ∈ ready ↔ r.Ready done x ∧ x ≠ id := by
    intro x
    have hx := h.ready x
    rw [List.mem_cons] at hx
    constructor
    · intro hm
      exact ⟨hx.1 (.inr hm), (hfirst x hm).ne'⟩
    · rintro ⟨hr, hne⟩
      exact (hx.2 hr).resolve_left hne
  -- a child still counts `id`, besides the parents that will be left
  have hchild : ∀ x ∈ children, degrees.lookup x =
      some ((r.parents x).countP (· ∉ id :: done) + 1) := by
    intro x hx
    obtain ⟨hxids, hp⟩ := (hc x).1 hx
    have hd : degrees.lookup x = some ((r.parents x).countP (· ∉ done)) := h.degree x hxids
    rw [hd, countP_notMem hid.2.1, List.count_eq_one_of_mem (r.parents_nodup x hxids) hp]
  obtain ⟨c', hf, hdeg, hs, hready⟩ := foldlM_lower? (c := ⟨degrees, ready⟩) hn
    (fun x hx => ⟨_, hchild x hx⟩)
    (fun x hx hm => hid.2.1 (((hmem x).1 hm).1.2.2 id ((hc x).1 hx).2)) hsorted
  refine ⟨c', hf, h.placed.cons hid, ?_, hs, ?_⟩
  · intro x hx
    rw [hdeg]
    by_cases hm : x ∈ children
    · rw [if_pos hm, hchild x hm]
      rfl
    · have hd : degrees.lookup x = some ((r.parents x).countP (· ∉ done)) := h.degree x hx
      have hnot : id ∉ r.parents x := fun hp => hm ((hc x).2 ⟨hx, hp⟩)
      rw [if_neg hm, hd, countP_notMem hid.2.1, List.count_eq_zero_of_not_mem hnot, Nat.add_zero]
  · intro x
    rw [hready, hmem, h.placed.ready_cons_iff hid]
    refine or_congr Iff.rfl ?_
    constructor
    · rintro ⟨hm, hone⟩
      obtain ⟨hx, hp⟩ := (hc x).1 hm
      rw [hchild x hm, Option.some.injEq, Nat.add_eq_right] at hone
      exact ⟨hx, hp, countP_notMem_eq_zero.1 hone⟩
    · rintro ⟨hx, hp, hall⟩
      have hm := (hc x).2 ⟨hx, hp⟩
      exact ⟨hm, by rw [hchild x hm, countP_notMem_eq_zero.2 hall]⟩

/-- If ids can be ordered at all, the countdown places them greedily and none of its counts goes
below zero. -/
theorem place?_greedy {children : String → List String} (hn : ∀ id, (children id).Nodup)
    (hc : ∀ id x, x ∈ children id ↔ x ∈ r.ids ∧ id ∈ r.parents x)
    (hex : ∀ done, (∃ x ∈ r.ids, x ∉ done) → ∃ x, r.Ready done x)
    (h : Stands r done c) {steps : Nat} (hsteps : steps + done.length = r.ids.length) :
    ∃ order, place? children steps c = some order ∧ r.Greedy done order := by
  induction steps generalizing done c with
  | zero =>
      have hall : ∀ id ∈ r.ids, id ∈ done := by
        intro id hid
        exact h.placed.mem_of_length_eq (by omega) hid
      have hempty : c.ready = [] := by
        refine List.eq_nil_iff_forall_not_mem.2 ?_
        intro id hm
        obtain ⟨hid, hnot, -⟩ := (h.ready id).1 hm
        exact hnot (hall id hid)
      exact ⟨[], by simp [place?, hempty], .nil hall⟩
  | succ steps ih =>
      have hlt : ∃ x ∈ r.ids, x ∉ done := by
        by_contra hall
        simp only [not_exists, not_and, not_not] at hall
        have hle := (r.nodup.subperm hall).length_le
        omega
      -- the countdown cannot stop before all ids are placed
      obtain ⟨x, hx⟩ := hex done hlt
      obtain ⟨degrees, ready⟩ := c
      cases ready with
      | nil => cases (h.ready x).2 hx
      | cons id ready =>
          obtain ⟨c', hf, h'⟩ := h.place (hn id) (hc id)
          have hid : r.Ready done id := (h.ready id).1 List.mem_cons_self
          have hleast : ∀ y, r.Ready done y → id ≤ y := by
            intro y hy
            rcases List.mem_cons.1 ((h.ready y).2 hy) with rfl | hm
            · exact le_rfl
            · exact ((List.pairwise_cons.1 h.sorted).1 y hm).le
          obtain ⟨order, ho, hg⟩ := ih h' (by rw [List.length_cons]; omega)
          refine ⟨id :: order, ?_, .cons hid hleast hg⟩
          simp [place?, hf, ho]

end CausalWork.Countdown
