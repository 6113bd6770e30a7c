import CausalWork.Pool
import CausalWork.Proofs.Collate
import Mathlib.Tactic.SplitIfs

namespace CausalWork.Units

/-- Units that stand each under its own id, with at most one for each artifact that is not over. -/
structure Sound (units : Units) : Prop where
  keyed : ∀ entry ∈ units, entry.2.id = entry.1
  nodup : (units.map Prod.fst).Nodup
  oneLive : ∀ a ∈ units, ∀ b ∈ units, a.2.isLive → b.2.isLive → a.2.kind = b.2.kind →
    a.2.artifactId = b.2.artifactId → a = b

theorem sound_nil : Sound [] where
  keyed := by simp
  nodup := List.nodup_nil
  oneLive := by simp

theorem get?_eq_some_of_mem {units : Units} (h : (units.map Prod.fst).Nodup) {id : Uuid}
    {u : WorkUnit} (hu : (id, u) ∈ units) : units.get? id = some u :=
  (lookup_eq_some_iff_mem h).2 hu

theorem mem_of_get?_eq_some {units : Units} {id : Uuid} {u : WorkUnit}
    (h : units.get? id = some u) : (id, u) ∈ units := by
  obtain ⟨front, back, rfl, -⟩ := List.lookup_eq_some_iff.1 h
  simp

theorem mem_iff_get? {units : Units} (h : (units.map Prod.fst).Nodup) (id : Uuid) (u : WorkUnit) :
    (id, u) ∈ units ↔ units.get? id = some u :=
  ⟨get?_eq_some_of_mem h, mem_of_get?_eq_some⟩

theorem map_fst_put (units : Units) (id : Uuid) (u : WorkUnit) :
    (units.put id u).map Prod.fst =
      if id ∈ units.map Prod.fst then units.map Prod.fst else units.map Prod.fst ++ [id] := by
  induction units with
  | nil => rfl
  | cons entry units ih =>
      by_cases he : entry.1 = id
      · simp [put, he]
      · simp only [put, if_neg he, List.map_cons, ih, List.mem_cons, Ne.symm he, false_or]
        split_ifs <;> rfl

theorem nodup_put {units : Units} (h : (units.map Prod.fst).Nodup) (id : Uuid) (u : WorkUnit) :
    ((units.put id u).map Prod.fst).Nodup := by
  rw [map_fst_put]
  split_ifs with hid
  · exact h
  · refine List.nodup_append.2 ⟨h, by simp, ?_⟩
    intro a ha b hb he
    exact hid (List.mem_singleton.1 hb ▸ he ▸ ha)

theorem mem_put {units : Units} (h : (units.map Prod.fst).Nodup) (id : Uuid) (u : WorkUnit)
    (entry : Uuid × WorkUnit) :
    entry ∈ units.put id u ↔ entry = (id, u) ∨ entry ∈ units ∧ entry.1 ≠ id := by
  obtain ⟨other, v⟩ := entry
  rw [mem_iff_get? (nodup_put h id u), mem_iff_get? h, Prod.mk.injEq]
  by_cases ho : other = id
  · subst ho
    simp [get?_put_self, eq_comm]
  · simp [get?_put_of_ne units u ho, ho]

theorem mem_ofArtifact {units : Units} {kind : Kind} {artifactId : String} {u : WorkUnit} :
    u ∈ Pool.ofArtifact units kind artifactId ↔
      (∃ id, (id, u) ∈ units) ∧ u.kind = kind ∧ u.artifactId = artifactId := by
  simp [Pool.ofArtifact, WorkUnit.isFor]

theorem put_of_get?_eq_none {units : Units} {id : Uuid} (h : units.get? id = none)
    (u : WorkUnit) : units.put id u = units ++ [(id, u)] := by
  induction units with
  | nil => rfl
  | cons entry units ih =>
      have hne : id ≠ entry.1 := by
        intro he
        subst he
        rw [get?_cons_self] at h
        cases h
      rw [get?_cons_of_ne units entry hne] at h
      rw [put, if_neg (Ne.symm hne), ih h]
      rfl

theorem get?_eq_none_of_notMem {units : Units} {id : Uuid} (h : id ∉ units.map Prod.fst) :
    units.get? id = none := by
  refine Option.eq_none_iff_forall_ne_some.2 fun u hu => ?_
  exact h (List.mem_map.2 ⟨(id, u), mem_of_get?_eq_some hu, rfl⟩)

theorem ofArtifact_put_fresh {units : Units} {u : WorkUnit} (h : units.get? u.id = none)
    (kind : Kind) (artifactId : String) :
    Pool.ofArtifact (units.put u.id u) kind artifactId =
      Pool.ofArtifact units kind artifactId ++ [u].filter fun u => u.isFor kind artifactId := by
  rw [put_of_get?_eq_none h, Pool.ofArtifact, List.map_append, List.filter_append]
  rfl

theorem put_of_get?_eq_some {units : Units} (h : (units.map Prod.fst).Nodup) {id : Uuid}
    {u : WorkUnit} (hget : units.get? id = some u) (v : WorkUnit) :
    units.put id v = units.map fun entry => if entry.1 = id then (id, v) else entry := by
  induction units with
  | nil => cases hget
  | cons entry units ih =>
      obtain ⟨hn, hs⟩ := List.nodup_cons.1 h
      rw [put, List.map_cons]
      by_cases he : entry.1 = id
      · have hrest : ∀ other ∈ units, other.1 ≠ id := by
          intro other ho hid
          exact hn (he ▸ hid ▸ List.mem_map_of_mem ho)
        rw [if_pos he, if_pos he, List.map_congr_left fun other ho => if_neg (hrest other ho),
          List.map_id']
      · rw [get?_cons_of_ne units entry (Ne.symm he)] at hget
        rw [if_neg he, if_neg he, ih hs hget]

/-- An event that the pool may record: what it tells can be done with the units as they are. -/
inductive Accepts (units : Units) : Event → Prop
  | enqueued (u : WorkUnit)
      (hlive : ∀ v ∈ Pool.ofArtifact units u.kind u.artifactId, v.isLive = false)
      (hattempt : u.attempt =
        UInt32.ofNat (Pool.ofArtifact units u.kind u.artifactId).length + 1) :
      Accepts units (.enqueued u)
  | transitioned {id : Uuid} {now : Timestamp} {t : Transition} {u v : WorkUnit}
      (hget : units.get? id = some u) (happly : u.apply t now = .ok v) :
      Accepts units (.transitioned id now t)

theorem record_enqueued (units : Units) (u : WorkUnit) :
    units.record (.enqueued u) = units.put u.id u := rfl

theorem record_transitioned {units : Units} {id : Uuid} {now : Timestamp} {t : Transition}
    {u v : WorkUnit} (hget : units.get? id = some u) (happly : u.apply t now = .ok v) :
    units.record (.transitioned id now t) = units.put id v := by
  simp [record, Event.transitioned, hget, happly]

/-- A unit may be stored if no other of its artifact is live, or it is over itself. -/
theorem Sound.put {units : Units} (h : units.Sound) {id : Uuid} {u : WorkUnit} (hid : u.id = id)
    (halone : ∀ entry ∈ units, entry.1 ≠ id → entry.2.isLive → u.isLive →
      entry.2.kind = u.kind → entry.2.artifactId ≠ u.artifactId) : (units.put id u).Sound where
  keyed := by
    intro entry he
    rcases (mem_put h.nodup id u entry).1 he with rfl | ⟨he, -⟩
    · exact hid
    · exact h.keyed entry he
  nodup := nodup_put h.nodup id u
  oneLive := by
    intro a ha b hb hla hlb hk hi
    rcases (mem_put h.nodup id u a).1 ha with rfl | ⟨ha, hna⟩
    · rcases (mem_put h.nodup id u b).1 hb with rfl | ⟨hb, hnb⟩
      · rfl
      · exact absurd hi.symm (halone b hb hnb hlb hla hk.symm)
    · rcases (mem_put h.nodup id u b).1 hb with rfl | ⟨hb, -⟩
      · exact absurd hi (halone a ha hna hla hlb hk)
      · exact h.oneLive a ha b hb hla hlb hk hi

theorem Sound.put_fresh {units : Units} (h : units.Sound) {u : WorkUnit}
    (hlive : ∀ v ∈ Pool.ofArtifact units u.kind u.artifactId, v.isLive = false) :
    (units.put u.id u).Sound := by
  apply h.put rfl
  rintro entry he - hl - hk ha
  have hover := hlive entry.2 (mem_ofArtifact.2 ⟨⟨entry.1, he⟩, hk, ha⟩)
  rw [hover] at hl
  cases hl

theorem Sound.put_moved {units : Units} (h : units.Sound) {id : Uuid} {now : Timestamp}
    {t : Transition} {u v : WorkUnit} (hget : units.get? id = some u)
    (happly : u.apply t now = .ok v) : (units.put id v).Sound := by
  obtain ⟨hcan, rfl⟩ := (WorkUnit.apply_eq_ok_iff u v t now).1 happly
  have hmem := mem_of_get?_eq_some hget
  have hlive : u.isLive := State.canBecome_isLive u.state t.target hcan
  have hkind : (u.advance now t).kind = u.kind := by cases t <;> rfl
  have hartifact : (u.advance now t).artifactId = u.artifactId := by cases t <;> rfl
  apply h.put
  · rw [WorkUnit.advance_id]
    exact h.keyed (id, u) hmem
  · rintro entry he hne hl - hk ha
    rw [hkind] at hk
    rw [hartifact] at ha
    exact hne (congrArg Prod.fst (h.oneLive entry he (id, u) hmem hl hlive hk ha))

theorem Sound.record {units : Units} (h : units.Sound) {e : Event} (he : units.Accepts e) :
    (units.record e).Sound := by
  cases he with
  | enqueued u hlive => exact h.put_fresh hlive
  | transitioned hget happly =>
      rw [record_transitioned hget happly]
      exact h.put_moved hget happly

/-- Events each of which the pool may record after those before it. -/
inductive Accepted : List Event → Prop
  | nil : Accepted []
  | snoc {es : List Event} {e : Event} (h : Accepted es) (he : (replay es).Accepts e) :
      Accepted (es ++ [e])

theorem replay_append_singleton (es : List Event) (e : Event) :
    replay (es ++ [e]) = (replay es).record e := by
  simp [replay]

theorem Accepted.accepts {before after : List Event} {e : Event}
    (h : Accepted (before ++ e :: after)) : (replay before).Accepts e := by
  generalize hes : before ++ e :: after = es at h
  induction h generalizing after with
  | nil => simp at hes
  | snoc h he ih =>
      rcases List.eq_nil_or_concat after with rfl | ⟨after, last, rfl⟩
      · obtain ⟨rfl, hlast⟩ := List.append_inj' hes rfl
        obtain rfl := List.singleton_inj.1 hlast
        exact he
      · rw [List.concat_eq_append, ← List.cons_append, ← List.append_assoc] at hes
        exact ih (List.append_inj' hes rfl).1

theorem Accepted.sound {es : List Event} (h : Accepted es) : (replay es).Sound := by
  induction h with
  | nil => exact sound_nil
  | snoc h he ih =>
      rw [replay_append_singleton]
      exact ih.record he

end CausalWork.Units
