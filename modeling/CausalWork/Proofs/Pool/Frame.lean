import CausalWork.Proofs.Pool.Log
import CausalWork.Proofs.Pool.OneLive

namespace CausalWork

open CausalWork.Units

namespace Units

variable {units : Units}

/-- A unit that is stored replaces the unit under its id, if there is one, and no other. -/
theorem Sound.perm_put (h : units.Sound) (id : Uuid) (u : WorkUnit) :
    ((units.put id u).map Prod.snd).Perm
      (u :: (units.map Prod.snd).filter fun v => v.id ≠ id) := by
  have hk := h.keyed
  have hn := h.nodup
  clear h
  induction units with
  | nil => exact List.Perm.refl _
  | cons entry units ih =>
      obtain ⟨hnot, hs⟩ := List.nodup_cons.1 hn
      have hentry := hk entry List.mem_cons_self
      have hrest : ∀ other ∈ units, other.2.id = other.1 :=
        fun other ho => hk other (List.mem_cons_of_mem _ ho)
      rw [Units.put, List.map_cons]
      by_cases he : entry.1 = id
      · have hothers : ∀ v ∈ units.map Prod.snd, v.id ≠ id := by
          intro v hv hid
          obtain ⟨other, ho, rfl⟩ := List.mem_map.1 hv
          rw [hrest other ho] at hid
          exact hnot (List.mem_map.2 ⟨other, ho, hid.trans he.symm⟩)
        have hself : (units.map Prod.snd).filter (fun v => v.id ≠ id) = units.map Prod.snd :=
          List.filter_eq_self.2 fun v hv => decide_eq_true (hothers v hv)
        rw [if_pos he, List.map_cons, List.filter_cons_of_neg (by simp [hentry, he]), hself]
      · rw [if_neg he, List.map_cons, List.filter_cons_of_pos (by simp [hentry, he])]
        exact ((ih hrest hs).cons entry.2).trans (List.Perm.swap _ _ _)

end Units

namespace Journal

variable {journal : Journal} {es : List Event}

theorem found_of_mem (h : journal.Holds es) (hs : (replay es).Sound) {v : WorkUnit}
    (hv : v ∈ (replay es).map Prod.snd) :
    Pool.get journal v.id = .ok (some v) ∧
      ∃ us, Pool.history journal v.kind v.artifactId = .ok us ∧ v ∈ us := by
  refine ⟨by rw [h.get, hs.get?_id hv], _, h.history v.kind v.artifactId, mem_ordered.2 ?_⟩
  exact List.mem_filter.2 ⟨hv, by simp [WorkUnit.isFor]⟩

theorem get_perform_of_over (h : journal.Holds es) {id : Uuid} {v : WorkUnit}
    (hget : (replay es).get? id = some v) (hover : v.isLive = false) (call : Call)
    (hnew : ∀ u ∈ call.taken (journal.perform call).1, u.id ≠ id) :
    ∃ es', (journal.perform call).2.Holds es' ∧ (replay es').get? id = some v := by
  rcases perform_outcomes h call with
    ⟨error, he⟩ | ⟨u, rfl, -, he⟩ | ⟨now, other, t, u, w, rfl, hg, ha, he⟩
  · rw [he]
    exact ⟨es, h, hget⟩
  · rw [he] at hnew ⊢
    have hne : id ≠ (numbered (replay es) u).id := Ne.symm (hnew u List.mem_cons_self)
    refine ⟨_, h.append _, ?_⟩
    rw [replay_append_singleton, record_enqueued, get?_put_of_ne _ _ hne, hget]
  · -- A unit that moves is live, so it is another one.
    have hne : id ≠ other := by
      rintro rfl
      obtain rfl := Option.some.inj (hget.symm.trans hg)
      have hlive := State.canBecome_isLive _ _ ((WorkUnit.apply_eq_ok_iff v w t now).1 ha).1
      exact absurd (hlive.symm.trans hover) (by decide)
    rw [he]
    refine ⟨_, h.append _, ?_⟩
    rw [replay_append_singleton, record_transitioned hg ha, get?_put_of_ne _ _ hne, hget]

theorem get_foldl_of_over (h : journal.Holds es) {id : Uuid} {v : WorkUnit}
    (hget : (replay es).get? id = some v) (hover : v.isLive = false) (calls : List Call)
    (hnew : ∀ u ∈ journal.accepted calls, u.id ≠ id) :
    Pool.get (calls.foldl (fun journal call => (journal.perform call).2) journal) id =
      .ok (some v) := by
  induction calls generalizing journal es with
  | nil => rw [List.foldl_nil, h.get, hget]
  | cons call calls ih =>
      rw [accepted] at hnew
      obtain ⟨es', h', hget'⟩ := get_perform_of_over h hget hover call
        fun u hu => hnew u (List.mem_append_left _ hu)
      exact ih h' hget' fun u hu => hnew u (List.mem_append_right _ hu)

theorem enqueue_perm (h : journal.Holds es) (ha : Accepted es) (u : WorkUnit) :
    ∃ es', (Pool.enqueue journal u).2.Holds es' ∧ Accepted es' ∧
      ((es' = es ∧ ∃ error, Pool.enqueue journal u = (.error error, journal)) ∨
        (Pool.enqueue journal u).1 = .ok u.id ∧ ∃ attempt, ((replay es').map Prod.snd).Perm
          ({ u with attempt } :: ((replay es).map Prod.snd).filter fun v => v.id ≠ u.id)) := by
  rcases enqueue_cases h u with ⟨live, -, -, he⟩ | ⟨hacc, he⟩
  · rw [he]
    exact ⟨es, h, ha, .inl ⟨rfl, _, rfl⟩⟩
  · rw [he]
    refine ⟨_, h.append _, ha.snoc hacc, .inr ⟨rfl, (numbered (replay es) u).attempt, ?_⟩⟩
    rw [replay_append_singleton]
    exact ha.sound.perm_put u.id (numbered (replay es) u)

/-- A unit that is handed in replaces the unit under its own id, if there is one and the pool takes
it, and leaves all other units as they are. So a unit that is over stays for good as it is, unless
the pool takes in another one under its id. -/
theorem enqueue_keeps_others (calls : List Call) (u : WorkUnit) :
    let journal := ofCalls calls
    let after := (Pool.enqueue journal u).2
    ∃ former latter, Pool.list journal = .ok former ∧ Pool.list after = .ok latter ∧
      (∀ error, (Pool.enqueue journal u).1 = .error error → after = journal) ∧
      (∀ id, (Pool.enqueue journal u).1 = .ok id → id = u.id ∧ ∃ attempt,
        latter.Perm ({ u with attempt } :: former.filter fun v => v.id ≠ u.id)) ∧
      (∀ v ∈ former, v.id ≠ u.id → v ∈ latter ∧ Pool.get after v.id = .ok (some v) ∧
        ∃ us, Pool.history after v.kind v.artifactId = .ok us ∧ v ∈ us) ∧
      ∀ v ∈ former, v.isLive = false → ∀ later, (∀ w ∈ journal.accepted later, w.id ≠ v.id) →
        Pool.get (ofCalls (calls ++ later)) v.id = .ok (some v) := by
  intro journal after
  obtain ⟨es, h, ha⟩ := written_ofCalls calls
  obtain ⟨es', h', ha', hcases⟩ := enqueue_perm h ha u
  have hothers : ∀ v ∈ (replay es).map Prod.snd, v.id ≠ u.id → v ∈ (replay es').map Prod.snd := by
    intro v hv hne
    rcases hcases with ⟨rfl, -⟩ | ⟨-, attempt, hperm⟩
    · exact hv
    · exact hperm.mem_iff.2
        (List.mem_cons_of_mem _ (List.mem_filter.2 ⟨hv, decide_eq_true hne⟩))
  refine ⟨_, _, h.list, h'.list, fun error herror => ?_, fun id hid => ?_, ?_, ?_⟩
  · rcases hcases with ⟨-, _, he⟩ | ⟨hok, -⟩
    · exact congrArg Prod.snd he
    · cases hok.symm.trans herror
  · rcases hcases with ⟨-, _, he⟩ | ⟨hok, attempt, hperm⟩
    · cases (congrArg Prod.fst he).symm.trans hid
    · refine ⟨Except.ok.inj (hid.symm.trans hok), attempt, ?_⟩
      exact (ordered_perm _).trans (hperm.trans (((ordered_perm _).symm.filter _).cons _))
  · intro v hv hne
    have hmem := hothers v (mem_ordered.1 hv) hne
    exact ⟨mem_ordered.2 hmem, found_of_mem h' ha'.sound hmem⟩
  · intro v hv hover later hnew
    rw [ofCalls, List.foldl_append]
    exact get_foldl_of_over h (ha.sound.get?_id (mem_ordered.1 hv)) hover later hnew

open Pool in
/-- A unit that was completed is lost when it is handed in once more. -/
theorem completed_unit_replaced :
    let u := sampleUnit 0
    let calls : List Call := [.enqueue u, .transition sampleTime u.id (.dispatch none),
      .transition sampleTime u.id .complete]
    let done := { u with
      state := .completed, dispatchedAt := some sampleTime, finishedAt := some sampleTime }
    Pool.list (ofCalls calls) = .ok [done] ∧
      (Pool.enqueue (ofCalls calls) u).1 = .ok u.id ∧
      Pool.list (Pool.enqueue (ofCalls calls) u).2 = .ok [{ u with attempt := 2 }] ∧
      Pool.get (Pool.enqueue (ofCalls calls) u).2 done.id ≠ .ok (some done) := by
  intro u calls done
  have h := holds_ofCalls calls
  have h' := (h.perform (.enqueue u)).2
  rw [perform_enqueue] at h'
  rw [h.list, h'.list, h'.get, enqueue_eq h.units]
  decide +kernel

end Journal

end CausalWork
