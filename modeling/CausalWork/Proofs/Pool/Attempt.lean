import CausalWork.Proofs.Pool.Log
import CausalWork.Proofs.Pool.OneLive

namespace CausalWork

open CausalWork.Units

namespace Units

variable {units : Units} {handed : List WorkUnit}

theorem Sound.ofArtifact_moved (h : units.Sound) {id : Uuid} {now : Timestamp} {t : Transition}
    {u v : WorkUnit} (hget : units.get? id = some u) (happly : u.apply t now = .ok v) (kind : Kind)
    (artifactId : String) : Pool.ofArtifact (units.put id v) kind artifactId =
      (Pool.ofArtifact units kind artifactId).map fun w => if w.id = id then v else w := by
  have hput : (units.put id v).map Prod.snd =
      (units.map Prod.snd).map fun w => if w.id = id then v else w := by
    rw [put_of_get?_eq_some h.nodup hget, List.map_map, List.map_map]
    refine List.map_congr_left fun entry he => ?_
    simp only [Function.comp_apply, h.keyed entry he]
    split <;> rfl
  have hfor : ∀ w ∈ units.map Prod.snd,
      (if w.id = id then v else w).isFor kind artifactId = w.isFor kind artifactId := by
    intro w hw
    split
    case isTrue hid =>
      have hwu : some w = some u := (h.get?_id hw).symm.trans (hid ▸ hget)
      obtain ⟨-, rfl⟩ := (WorkUnit.apply_eq_ok_iff u v t now).1 happly
      rw [Option.some.inj hwu, WorkUnit.advance_isFor]
    case isFalse => rfl
  rw [Pool.ofArtifact, hput, List.filter_map, Pool.ofArtifact]
  exact congrArg _ (List.filter_congr hfor)

/-- Units of one artifact with the numbers of their attempts, all but the last of them over. -/
structure InOrder (us : List WorkUnit) : Prop where
  attempts : us.map WorkUnit.attempt = (List.range us.length).map fun i => UInt32.ofNat (i + 1)
  ended : us.Pairwise fun u _ => u.isLive = false

theorem InOrder.concat {us : List WorkUnit} (h : InOrder us) {u : WorkUnit}
    (hover : ∀ v ∈ us, v.isLive = false) (hattempt : u.attempt = UInt32.ofNat us.length + 1) :
    InOrder (us ++ [u]) where
  attempts := by
    rw [List.map_append, h.attempts, List.length_append, List.length_singleton, List.range_succ,
      List.map_append, List.map_singleton, List.map_singleton, hattempt, UInt32.ofNat_add]
    rfl
  ended := List.pairwise_append.2
    ⟨h.ended, List.pairwise_singleton _ _, fun v hv _ _ => hover v hv⟩

theorem InOrder.toNat_attempts {us : List WorkUnit} (h : InOrder us)
    (hlen : us.length < UInt32.size) :
    us.map (fun u => u.attempt.toNat) = (List.range us.length).map (· + 1) := by
  have hnat := congrArg (List.map UInt32.toNat) h.attempts
  rw [List.map_map, List.map_map] at hnat
  refine hnat.trans (List.map_congr_left fun i hi => ?_)
  have hi' : i + 1 < UInt32.size := by
    have := List.mem_range.1 hi
    omega
  exact UInt32.toNat_ofNat_of_lt' hi'

theorem InOrder.map {us : List WorkUnit} (h : InOrder us) (g : WorkUnit → WorkUnit)
    (hattempt : ∀ u ∈ us, (g u).attempt = u.attempt)
    (hover : ∀ u ∈ us, u.isLive = false → (g u).isLive = false) : InOrder (us.map g) where
  attempts := by
    rw [List.map_map, List.length_map, ← h.attempts]
    exact List.map_congr_left hattempt
  ended := by
    rw [List.pairwise_map]
    exact h.ended.imp_of_mem fun hu _ => hover _ hu

theorem InOrder.over_of_mem_dropLast {us : List WorkUnit} (h : InOrder us) {u : WorkUnit}
    (hu : u ∈ us.dropLast) : u.isLive = false := by
  rcases List.eq_nil_or_concat us with rfl | ⟨init, last, rfl⟩
  · cases hu
  · rw [List.concat_eq_append, List.dropLast_concat] at hu
    have happ := h.ended
    rw [List.concat_eq_append] at happ
    exact (List.pairwise_append.1 happ).2.2 u hu last List.mem_cons_self

theorem InOrder.getLast?_of_live {us : List WorkUnit} (h : InOrder us) {u : WorkUnit}
    (hu : u ∈ us) (hl : u.isLive) :
    us.getLast? = some u ∧ u.attempt = UInt32.ofNat us.length := by
  rcases List.eq_nil_or_concat us with rfl | ⟨init, last, rfl⟩
  · cases hu
  · rw [List.concat_eq_append] at hu h ⊢
    rcases List.mem_append.1 hu with hinit | hlast
    · have hover := h.over_of_mem_dropLast (u := u) (by rwa [List.dropLast_concat])
      exact absurd (hl.symm.trans hover) (by decide)
    · obtain rfl := List.mem_singleton.1 hlast
      have hattempt := congrArg List.getLast? h.attempts
      exact ⟨List.getLast?_concat, by simpa [List.getLast?_range] using hattempt⟩

/-- The units of a pool came in one after another, and those of each artifact are in order. -/
structure Numbered (units : Units) (handed : List WorkUnit) : Prop where
  keys : units.map Prod.fst = handed.map WorkUnit.id
  ids : ∀ kind artifactId, (Pool.ofArtifact units kind artifactId).map WorkUnit.id =
    (handed.filter fun u => u.isFor kind artifactId).map WorkUnit.id
  inOrder : ∀ kind artifactId, InOrder (Pool.ofArtifact units kind artifactId)

theorem numbered_nil : Numbered [] [] where
  keys := rfl
  ids _ _ := rfl
  inOrder _ _ := ⟨rfl, List.Pairwise.nil⟩

theorem Numbered.enqueued (hn : units.Numbered handed) {u : WorkUnit}
    (hnew : u.id ∉ handed.map WorkUnit.id)
    (ha : units.Accepts (.enqueued (Journal.numbered units u))) :
    (units.record (.enqueued (Journal.numbered units u))).Numbered (handed ++ [u]) := by
  have hnone : units.get? (Journal.numbered units u).id = none :=
    get?_eq_none_of_notMem (hn.keys ▸ hnew)
  have hid : (Journal.numbered units u).id = u.id := rfl
  have hfor : (Journal.numbered units u).isFor = u.isFor := rfl
  rw [record_enqueued]
  refine ⟨?_, fun kind artifactId => ?_, fun kind artifactId => ?_⟩
  · rw [put_of_get?_eq_none hnone, List.map_append, List.map_append, hn.keys]
    rfl
  · rw [ofArtifact_put_fresh hnone, List.map_append, hn.ids, List.filter_append, List.map_append]
    cases hu : u.isFor kind artifactId <;> simp [hfor, hu, hid]
  · rw [ofArtifact_put_fresh hnone]
    cases hu : u.isFor kind artifactId with
    | false => simpa [hfor, hu] using hn.inOrder kind artifactId
    | true =>
        have hartifact : u.kind = kind ∧ u.artifactId = artifactId := by
          simpa [WorkUnit.isFor] using hu
        obtain ⟨rfl, rfl⟩ := hartifact
        simpa [hfor, hu] using (hn.inOrder u.kind u.artifactId).concat (fun v hv => ha.over hv) rfl

theorem Numbered.transitioned (hn : units.Numbered handed) (hs : units.Sound) {id : Uuid}
    {now : Timestamp} {t : Transition} {u v : WorkUnit} (hget : units.get? id = some u)
    (happly : u.apply t now = .ok v) : (units.put id v).Numbered handed := by
  obtain ⟨hcan, hv⟩ := (WorkUnit.apply_eq_ok_iff u v t now).1 happly
  have hsame : ∀ kind artifactId, ∀ w ∈ Pool.ofArtifact units kind artifactId, w.id = id → w = u := by
    intro kind artifactId w hw hid
    have hwu := (hs.get?_id (mem_of_mem_ofArtifact hw)).symm.trans (hid ▸ hget)
    exact Option.some.inj hwu
  have hvid : v.id = id := by
    rw [← hv, WorkUnit.advance_id]
    exact hs.keyed (id, u) (mem_of_get?_eq_some hget)
  have hattempt : v.attempt = u.attempt := by
    rw [← hv]
    cases t <;> rfl
  refine ⟨?_, fun kind artifactId => ?_, fun kind artifactId => ?_⟩
  · rw [map_fst_put, if_pos (List.mem_map.2 ⟨_, mem_of_get?_eq_some hget, rfl⟩), hn.keys]
  · rw [hs.ofArtifact_moved hget happly, List.map_map, ← hn.ids]
    refine List.map_congr_left fun w _ => ?_
    rw [Function.comp_apply]
    split
    case isTrue hid => rw [hvid, hid]
    case isFalse => rfl
  · rw [hs.ofArtifact_moved hget happly]
    refine (hn.inOrder kind artifactId).map _ (fun w hw => ?_) (fun w hw hover => ?_)
    · split
      case isTrue hid => rw [hattempt, hsame kind artifactId w hw hid]
      case isFalse => rfl
    · split
      case isTrue hid =>
        -- Only a live unit moves, so none that is over comes back to life.
        have hlive := State.canBecome_isLive u.state t.target hcan
        rw [← hsame kind artifactId w hw hid] at hlive
        exact absurd (hlive.symm.trans hover) (by decide)
      case isFalse => exact hover

end Units

namespace Journal

variable {journal : Journal} {es : List Event} {handed : List WorkUnit}

theorem numbered_perform (h : journal.Holds es) (ha : Accepted es)
    (hn : (replay es).Numbered handed) (call : Call)
    (hid : ((handed ++ call.taken (journal.perform call).1).map WorkUnit.id).Nodup) :
    ∃ es', (journal.perform call).2.Holds es' ∧ Accepted es' ∧
      (replay es').Numbered (handed ++ call.taken (journal.perform call).1) := by
  rcases perform_outcomes h call with
    ⟨error, he⟩ | ⟨u, rfl, hacc, he⟩ | ⟨now, id, t, u, v, rfl, hg, hap, he⟩
  · rw [he, Call.taken_error, List.append_nil]
    exact ⟨es, h, ha, hn⟩
  · rw [he, Call.taken, List.map_append] at hid
    -- The unit's own id comes last in a list without repetition.
    have hnew : u.id ∉ handed.map WorkUnit.id := by
      intro hm
      exact (List.nodup_append.1 hid).2.2 _ hm _ List.mem_cons_self rfl
    rw [he]
    refine ⟨_, h.append _, ha.snoc hacc, ?_⟩
    rw [replay_append_singleton]
    exact hn.enqueued hnew hacc
  · rw [he]
    refine ⟨_, h.append _, ha.snoc (.transitioned hg hap), ?_⟩
    rw [replay_append_singleton, record_transitioned hg hap, Call.taken_transition, List.append_nil]
    exact hn.transitioned ha.sound hg hap

theorem numbered_foldl (h : journal.Holds es) (ha : Accepted es)
    (hn : (replay es).Numbered handed) (calls : List Call)
    (hid : ((handed ++ journal.accepted calls).map WorkUnit.id).Nodup) :
    ∃ es', (calls.foldl (fun journal call => (journal.perform call).2) journal).Holds es' ∧
      Accepted es' ∧ (replay es').Numbered (handed ++ journal.accepted calls) := by
  induction calls generalizing journal es handed with
  | nil => exact ⟨es, h, ha, by rwa [accepted, List.append_nil]⟩
  | cons call calls ih =>
      rw [accepted, ← List.append_assoc] at hid ⊢
      -- All ids of the run are different, so those that came in until now are.
      have hfirst : ((handed ++ call.taken (journal.perform call).1).map WorkUnit.id).Nodup := by
        rw [List.map_append] at hid
        exact (List.nodup_append.1 hid).1
      obtain ⟨es', h', ha', hn'⟩ := numbered_perform h ha hn call hfirst
      exact ih h' ha' hn' hid

/-- When no two units that a pool took in have one id, the units of an artifact stand in its history
with the numbers 1, 2, … in the order in which they were taken in, as far as 32 bits count. All but
the last are over, so one that is not is the last. -/
theorem attempts_in_order (calls : List Call)
    (hid : ((accepted none calls).map WorkUnit.id).Nodup) (kind : Kind) (artifactId : String) :
    ∃ us, Pool.history (ofCalls calls) kind artifactId = .ok (ordered us) ∧
      us.map WorkUnit.id =
        ((accepted none calls).filter fun u => u.isFor kind artifactId).map WorkUnit.id ∧
      us.map WorkUnit.attempt = (List.range us.length).map (fun i => UInt32.ofNat (i + 1)) ∧
      (us.length < UInt32.size →
        us.map (fun u => u.attempt.toNat) = (List.range us.length).map (· + 1)) ∧
      (∀ u ∈ us.dropLast, u.state = .completed ∨ u.state = .failed) ∧
      ∀ live, Pool.liveFor (ofCalls calls) kind artifactId = .ok (some live) →
        us.getLast? = some live ∧ live.attempt = UInt32.ofNat us.length := by
  obtain ⟨es, h, ha, hn⟩ := numbered_foldl holds_none .nil numbered_nil calls hid
  have hin := hn.inOrder kind artifactId
  refine ⟨_, h.history kind artifactId, hn.ids kind artifactId, hin.attempts, ?_, ?_, ?_⟩
  · exact hin.toNat_attempts
  · intro u hu
    have hover := hin.over_of_mem_dropLast hu
    unfold WorkUnit.isLive at hover
    cases hs : u.state <;> simp_all [State.isLive]
  · intro live hl
    obtain ⟨hm, hlive⟩ := (liveFor_eq_some_iff h ha.sound).1 hl
    exact hin.getLast?_of_live hm hlive

open Pool in
/-- A chunk whose first unit is refused a rival, fails, and is tried once more. -/
theorem attempts_after_failure :
    let first := sampleUnit 0
    let second := sampleUnit 1
    let calls : List Call := [.enqueue first, .transition sampleTime first.id (.dispatch none),
      .enqueue second, .transition sampleTime first.id (.fail "no tests"), .enqueue second]
    ((accepted none calls).map WorkUnit.id).Nodup ∧
      ∃ us, Pool.history (ofCalls calls) .chunk "parser" = .ok (ordered us) ∧
        us.map WorkUnit.id = [first.id, second.id] ∧ us.map WorkUnit.attempt = [1, 2] ∧
        ∀ live, Pool.liveFor (ofCalls calls) .chunk "parser" = .ok (some live) →
          live.attempt = 2 := by
  intro first second calls
  have haccepted : accepted none calls = [first, second] :=
    (holds_none.accepted calls).trans (by decide +kernel)
  have hid : ((accepted none calls).map WorkUnit.id).Nodup := by
    rw [haccepted]
    decide
  obtain ⟨us, hhistory, hus, hattempts, -, -, hlive⟩ :=
    attempts_in_order calls hid .chunk "parser"
  have hfor : [first, second].filter (fun u => u.isFor .chunk "parser") = [first, second] := by
    decide +kernel
  rw [haccepted, hfor] at hus
  have hlen : us.length = 2 := by simpa using congrArg List.length hus
  rw [hlen] at hattempts hlive
  exact ⟨hid, us, hhistory, hus, hattempts, fun live hl => (hlive live hl).2⟩

end Journal

end CausalWork
