import Mathlib.Data.List.Nodup
import Mathlib.Data.List.Perm.Subperm
import Mathlib.Data.String.Basic

namespace CausalWork

/-- Ids, and for each of them the ids it comes after, which are among them. -/
structure Precedence where
  ids : List String
  parents : String → List String
  nodup : ids.Nodup
  parents_nodup : ∀ id ∈ ids, (parents id).Nodup
  parents_mem : ∀ id ∈ ids, ∀ p ∈ parents id, p ∈ ids

namespace Precedence

variable (r : Precedence)

/-- An id that may be placed next, after those that are done. -/
def Ready (done : List String) (id : String) : Prop :=
  id ∈ r.ids ∧ id ∉ done ∧ ∀ p ∈ r.parents id, p ∈ done

/-- Ids, the latest first, each of which could be placed when it was. -/
inductive Placed : List String → Prop
  | nil : Placed []
  | cons {done : List String} {id : String} (h : Placed done) (hr : r.Ready done id) :
      Placed (id :: done)

/-- An order of all ids that are not done yet, parents first. -/
inductive Extends : List String → List String → Prop
  | nil {done : List String} (h : ∀ id ∈ r.ids, id ∈ done) : Extends done []
  | cons {done order : List String} {id : String} (hr : r.Ready done id)
      (h : Extends (id :: done) order) : Extends done (id :: order)

/-- The order that places the least id at each step. -/
inductive Greedy : List String → List String → Prop
  | nil {done : List String} (h : ∀ id ∈ r.ids, id ∈ done) : Greedy done []
  | cons {done order : List String} {id : String} (hr : r.Ready done id)
      (hleast : ∀ x, r.Ready done x → id ≤ x) (h : Greedy (id :: done) order) :
      Greedy done (id :: order)

/-- Ids, the latest first, each with all its parents before it. -/
inductive Settled : List String → Prop
  | nil : Settled []
  | cons {done : List String} {id : String} (h : Settled done)
      (hp : ∀ p ∈ r.parents id, p ∈ done) : Settled (id :: done)

variable {r} {done order : List String}

theorem Placed.nodup (h : r.Placed done) : done.Nodup := by
  induction h with
  | nil => exact List.nodup_nil
  | cons h hr ih => exact List.nodup_cons.2 ⟨hr.2.1, ih⟩

theorem Placed.subset (h : r.Placed done) : done ⊆ r.ids := by
  induction h with
  | nil => exact List.nil_subset _
  | cons h hr ih => exact List.cons_subset.2 ⟨hr.1, ih⟩

theorem Placed.parents_mem (h : r.Placed done) {id p : String} (hid : id ∈ done)
    (hp : p ∈ r.parents id) : p ∈ done := by
  induction h with
  | nil => cases hid
  | cons h hr ih =>
      apply List.mem_cons_of_mem
      rcases List.mem_cons.1 hid with rfl | hid
      · exact hr.2.2 p hp
      · exact ih hid

theorem Placed.ready_cons_iff (h : r.Placed done) {id x : String} (hid : r.Ready done id) :
    r.Ready (id :: done) x ↔ r.Ready done x ∧ x ≠ id ∨
      x ∈ r.ids ∧ id ∈ r.parents x ∧ ∀ p ∈ r.parents x, p ∈ id :: done := by
  constructor
  · rintro ⟨hx, hnot, hall⟩
    obtain ⟨hne, hnot⟩ := not_or.1 (fun hm => hnot (List.mem_cons.2 hm))
    by_cases hp : id ∈ r.parents x
    · exact .inr ⟨hx, hp, hall⟩
    · refine .inl ⟨⟨hx, hnot, fun q hq => ?_⟩, hne⟩
      exact (List.mem_cons.1 (hall q hq)).resolve_left fun he => hp (he ▸ hq)
  · rintro (⟨⟨hx, hnot, hall⟩, hne⟩ | ⟨hx, hp, hall⟩)
    · exact ⟨hx, List.not_mem_cons_of_ne_of_not_mem hne hnot,
        fun p hp => List.mem_cons_of_mem id (hall p hp)⟩
    · refine ⟨hx, fun hin => ?_, hall⟩
      -- a child that is placed already would have this parent before it
      rcases List.mem_cons.1 hin with rfl | hin
      · exact hid.2.1 (hid.2.2 x hp)
      · exact hid.2.1 (h.parents_mem hin hp)

theorem Placed.mem_of_length_eq (h : r.Placed done) (hl : done.length = r.ids.length) {id : String}
    (hid : id ∈ r.ids) : id ∈ done :=
  ((h.nodup.subperm h.subset).perm_of_length_le hl.ge).mem_iff.2 hid

theorem Settled.exists_ready {all : List String} (h : r.Settled all)
    (hex : ∃ x ∈ all, x ∈ r.ids ∧ x ∉ done) : ∃ x, r.Ready done x := by
  induction h with
  | nil =>
      obtain ⟨x, hx, -⟩ := hex
      cases hx
  | @cons earlier id h hp ih =>
      by_cases hbefore : ∃ x ∈ earlier, x ∈ r.ids ∧ x ∉ done
      · exact ih hbefore
      · obtain ⟨x, hx, hids, hnot⟩ := hex
        rcases List.mem_cons.1 hx with rfl | hx
        · -- the earliest id that is not done: all its parents are
          refine ⟨x, hids, hnot, ?_⟩
          intro p hpx
          by_contra hpd
          exact hbefore ⟨p, hp p hpx, r.parents_mem x hids p hpx, hpd⟩
        · exact absurd ⟨x, hx, hids, hnot⟩ hbefore

theorem Settled.acc (h : r.Settled done) {id : String} (hid : id ∈ done) :
    Acc (fun p x => p ∈ r.parents x) id := by
  induction h generalizing id with
  | nil => cases hid
  | @cons earlier x h hp ih =>
      rcases List.mem_cons.1 hid with rfl | hid
      · exact .intro id fun p hpx => ih (hp p hpx)
      · exact ih hid

theorem Greedy.extends (h : r.Greedy done order) : r.Extends done order := by
  induction h with
  | nil h => exact .nil h
  | cons hr hleast h ih => exact .cons hr ih

theorem Extends.mem (h : r.Extends done order) {id : String} :
    id ∈ order ↔ id ∈ r.ids ∧ id ∉ done := by
  induction h with
  | nil h => simpa using h id
  | @cons done order x hr h ih =>
      rw [List.mem_cons, ih, List.mem_cons, not_or]
      by_cases hx : id = x
      · subst hx
        simp [hr.1, hr.2.1]
      · simp [hx]

theorem Extends.nodup (h : r.Extends done order) : order.Nodup := by
  induction h with
  | nil h => exact List.nodup_nil
  | cons hr h ih =>
      refine List.nodup_cons.2 ⟨?_, ih⟩
      intro hm
      exact (h.mem.1 hm).2 List.mem_cons_self

theorem Extends.ready (h : r.Extends done order) {before rest : List String} {id : String}
    (he : order = before ++ id :: rest) : r.Ready (before.reverse ++ done) id := by
  induction h generalizing before with
  | nil h => simp at he
  | cons hr h ih =>
      cases before with
      | nil =>
          cases he
          exact hr
      | cons x before =>
          cases he
          rw [List.reverse_cons, List.append_assoc]
          exact ih rfl

theorem Greedy.least (h : r.Greedy done order) {before rest : List String} {id x : String}
    (he : order = before ++ id :: rest) (hx : r.Ready (before.reverse ++ done) x) : id ≤ x := by
  induction h generalizing before with
  | nil h => simp at he
  | cons hr hleast h ih =>
      cases before with
      | nil =>
          cases he
          exact hleast x hx
      | cons y before =>
          cases he
          rw [List.reverse_cons, List.append_assoc] at hx
          exact ih rfl hx

theorem extends_of_ready (hall : ∀ id ∈ r.ids, id ∈ order ∨ id ∈ done)
    (hready : ∀ before id rest, order = before ++ id :: rest →
      r.Ready (before.reverse ++ done) id) : r.Extends done order := by
  induction order generalizing done with
  | nil =>
      apply Extends.nil
      intro id hid
      simpa using hall id hid
  | cons x order ih =>
      refine .cons (hready [] x order rfl) (ih ?_ ?_)
      · intro id hid
        rcases hall id hid with hm | hm
        · rcases List.mem_cons.1 hm with rfl | hm
          · exact .inr List.mem_cons_self
          · exact .inl hm
        · exact .inr (List.mem_cons_of_mem x hm)
      · intro before id rest he
        subst he
        have hr := hready (x :: before) id rest rfl
        rwa [List.reverse_cons, List.append_assoc] at hr

/-- No other order with parents first comes before the greedy one. -/
theorem Greedy.eq_or_lex (h : r.Greedy done order) {other : List String}
    (ho : r.Extends done other) : order = other ∨ List.Lex (· < ·) order other := by
  induction h generalizing other with
  | nil h =>
      cases other with
      | nil => exact .inl rfl
      | cons x other => exact .inr .nil
  | cons hr hleast h ih =>
      cases ho with
      | nil hall => exact absurd (hall _ hr.1) hr.2.1
      | cons hro ho =>
          rcases lt_or_eq_of_le (hleast _ hro) with hlt | rfl
          · exact .inr (.rel hlt)
          · rcases ih ho with rfl | hlex
            · exact .inl rfl
            · exact .inr (.cons hlex)

theorem Greedy.unique (h : r.Greedy done order) {other : List String} (ho : r.Greedy done other) :
    order = other := by
  induction h generalizing other with
  | nil h =>
      cases ho with
      | nil => rfl
      | cons hr hleast ho => exact absurd (h _ hr.1) hr.2.1
  | cons hr hleast h ih =>
      cases ho with
      | nil hall => exact absurd (hall _ hr.1) hr.2.1
      | cons hr' hleast' ho =>
          obtain rfl := le_antisymm (hleast _ hr') (hleast' _ hr)
          rw [ih ho]

/-- What holds of the ids that are parents of none, and of the parents of each id of which it holds,
holds of every id. -/
theorem Extends.of_tips (h : r.Extends done order) (hd : r.Placed done) {P : String → Prop}
    (htips : ∀ id ∈ r.ids, (∀ child ∈ r.ids, id ∉ r.parents child) → P id)
    (hparents : ∀ id, P id → ∀ p ∈ r.parents id, P p) : ∀ id ∈ order, P id := by
  induction h with
  | nil => simp
  | @cons done order x hr h ih =>
      have hlater := ih (hd.cons hr)
      have hx : P x := by
        by_cases htip : ∀ child ∈ r.ids, x ∉ r.parents child
        · exact htips x hr.1 htip
        · simp only [not_forall, not_not] at htip
          obtain ⟨child, hchild, hp⟩ := htip
          refine hparents child (hlater child (h.mem.2 ⟨hchild, fun hin => ?_⟩)) x hp
          -- a child that is placed already would have this parent before it
          rcases List.mem_cons.1 hin with rfl | hin
          · exact hr.2.1 (hr.2.2 child hp)
          · exact hr.2.1 (hd.parents_mem hin hp)
      intro id hid
      rcases List.mem_cons.1 hid with rfl | hid
      · exact hx
      · exact hlater id hid

/-- One more id, which comes after exactly those that were parents of none. -/
structure Crowned (r r' : Precedence) (last : String) : Prop where
  fresh : last ∉ r.ids
  ids : ∀ id, id ∈ r'.ids ↔ id = last ∨ id ∈ r.ids
  parents : ∀ id ∈ r.ids, r'.parents id = r.parents id
  tips : ∀ p, p ∈ r'.parents last ↔ p ∈ r.ids ∧ ∀ child ∈ r.ids, p ∉ r.parents child

variable {r' : Precedence} {last : String}

theorem Crowned.tip_iff (h : Crowned r r' last) {id : String} :
    (id ∈ r'.ids ∧ ∀ child ∈ r'.ids, id ∉ r'.parents child) ↔ id = last := by
  have hlast : last ∈ r'.ids := (h.ids last).2 (.inl rfl)
  constructor
  · rintro ⟨hid, htip⟩
    refine ((h.ids id).1 hid).resolve_right fun hid => htip last hlast ((h.tips id).2 ⟨hid, ?_⟩)
    intro child hchild hp
    rw [← h.parents child hchild] at hp
    exact htip child ((h.ids child).2 (.inr hchild)) hp
  · rintro rfl
    refine ⟨hlast, fun child hchild hp => h.fresh ?_⟩
    rcases (h.ids child).1 hchild with rfl | hchild
    · exact ((h.tips child).1 hp).1
    · rw [h.parents child hchild] at hp
      exact r.parents_mem child hchild id hp

theorem Crowned.greedy (h : Crowned r r' last) (hg : r.Greedy done order) (hd : r.Placed done) :
    r'.Greedy done (order ++ [last]) := by
  have hin {id : String} (hid : id ∈ r.ids) : id ∈ r'.ids := (h.ids id).2 (.inr hid)
  induction hg with
  | @nil done hall =>
      have hlast : r'.Ready done last :=
        ⟨(h.ids last).2 (.inl rfl), fun hm => h.fresh (hd.subset hm),
          fun p hp => hall p ((h.tips p).1 hp).1⟩
      have hrest : ∀ id ∈ r'.ids, id ∉ done → id = last := fun id hid hnot =>
        ((h.ids id).1 hid).resolve_right fun hid => hnot (hall id hid)
      refine .cons hlast (fun x hx => (hrest x hx.1 hx.2.1).ge) (.nil fun id hid => ?_)
      by_cases hm : id ∈ done
      · exact List.mem_cons_of_mem last hm
      · exact hrest id hid hm ▸ List.mem_cons_self
  | @cons done order id hr hleast hg ih =>
      have hready : r'.Ready done id :=
        ⟨hin hr.1, hr.2.1, fun p hp => hr.2.2 p (h.parents id hr.1 ▸ hp)⟩
      refine .cons hready (fun x hx => ?_) (ih (hd.cons hr))
      rcases (h.ids x).1 hx.1 with rfl | hxids
      · -- if all ids that are parents of none were placed, so were all ids
        refine absurd ?_ hr.2.1
        exact (Extends.cons hr hg.extends).of_tips hd
          (fun p hp htip => hx.2.2 p ((h.tips p).2 ⟨hp, htip⟩))
          (fun p hp q hq => hd.parents_mem hp hq) id List.mem_cons_self
      · exact hleast x ⟨hxids, hx.2.1, fun p hp => hx.2.2 p ((h.parents x hxids).symm ▸ hp)⟩

end Precedence

end CausalWork
