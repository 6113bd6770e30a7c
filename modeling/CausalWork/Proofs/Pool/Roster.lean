import CausalWork.Proofs.Pool.Log
import CausalWork.Proofs.Pool.Ordered
import CausalWork.Proofs.Pool.Settled

namespace CausalWork

instance : Hashable Uuid := ⟨fun u => hash u.digits⟩

/-- Units by their ids: what a pool would be that kept its units and no events. -/
abbrev Roster := Std.HashMap Uuid WorkUnit

namespace Roster

def units (r : Roster) : List WorkUnit := r.toList.map Prod.snd

def ofArtifact (r : Roster) (kind : Kind) (artifactId : String) : List WorkUnit :=
  r.units.filter fun u => u.isFor kind artifactId

def list (r : Roster) : List WorkUnit := Units.ordered r.units

def history (r : Roster) (kind : Kind) (artifactId : String) : List WorkUnit :=
  Units.ordered (r.ofArtifact kind artifactId)

def liveFor (r : Roster) (kind : Kind) (artifactId : String) : Option WorkUnit :=
  (r.history kind artifactId).find? WorkUnit.isLive

def enqueue (r : Roster) (u : WorkUnit) : Except PoolError Answer × Roster :=
  match r.liveFor u.kind u.artifactId with
  | some live => (.error (.conflict u.artifactId live.id), r)
  | none =>
    let count := (r.ofArtifact u.kind u.artifactId).length
    (.ok (.queued u.id), r.insert u.id { u with attempt := UInt32.ofNat (1 + count) })

def transition (r : Roster) (now : Timestamp) (id : Uuid) (t : Transition) :
    Except PoolError Answer × Roster :=
  match r[id]? with
  | none => (.error (.unknownUnit id), r)
  | some u =>
    match u.apply t now with
    | .error step => (.error (.invalidTransition step), r)
    | .ok v => (.ok (.moved v), r.insert id v)

def perform (r : Roster) : Call → Except PoolError Answer × Roster
  | .enqueue u => r.enqueue u
  | .transition now id t => r.transition now id t

def ofCalls (calls : List Call) : Roster :=
  calls.foldl (fun r call => (r.perform call).2) ∅

open CausalWork.Units

variable {r : Roster} {us : Units}

theorem perm_toList (h : us.Sound) (hr : ∀ id, r[id]? = us.get? id) : us.Perm r.toList := by
  have hn : r.toList.Nodup := by
    refine Std.HashMap.distinct_keys_toList.imp ?_
    intro a b hab he
    simp [he] at hab
  refine (List.perm_ext_iff_of_nodup (List.Nodup.of_map Prod.fst h.nodup) hn).2 ?_
  rintro ⟨id, u⟩
  rw [mem_iff_get? h.nodup, Std.HashMap.mem_toList_iff_getElem?_eq_some, hr]

theorem ofArtifact_perm (h : us.Sound) (hr : ∀ id, r[id]? = us.get? id) (kind : Kind)
    (artifactId : String) :
    (Pool.ofArtifact us kind artifactId).Perm (r.ofArtifact kind artifactId) :=
  ((perm_toList h hr).map Prod.snd).filter _

theorem list_eq (h : us.Sound) (hr : ∀ id, r[id]? = us.get? id) :
    ordered (us.map Prod.snd) = r.list :=
  ordered_eq_of_perm ((perm_toList h hr).map Prod.snd) fun _ ha _ hb => h.id_inj ha hb

theorem history_eq (h : us.Sound) (hr : ∀ id, r[id]? = us.get? id) (kind : Kind)
    (artifactId : String) :
    ordered (Pool.ofArtifact us kind artifactId) = r.history kind artifactId := by
  refine ordered_eq_of_perm (ofArtifact_perm h hr kind artifactId) fun a ha b hb => ?_
  exact h.id_inj (mem_of_mem_ofArtifact ha) (mem_of_mem_ofArtifact hb)

theorem getElem?_insert (hr : ∀ id, r[id]? = us.get? id) (id : Uuid) (u : WorkUnit)
    (other : Uuid) : (r.insert id u)[other]? = (us.put id u).get? other := by
  rw [Std.HashMap.getElem?_insert]
  by_cases h : other = id
  · subst h
    simp [get?_put_self]
  · simp [get?_put_of_ne us u h, hr, Ne.symm h]

end Roster

namespace Journal

open CausalWork.Units

/-- A roster has the units that the events of a journal make. -/
def Tells (journal : Journal) (roster : Roster) : Prop :=
  ∃ es, journal.Holds es ∧ Accepted es ∧ ∀ id, roster[id]? = (replay es).get? id

/-- Whatever is asked of a pool is answered as the roster answers it. -/
structure AnswersAs (journal : Journal) (roster : Roster) : Prop where
  get : ∀ id, Pool.get journal id = .ok roster[id]?
  list : Pool.list journal = .ok roster.list
  history : ∀ kind artifactId,
    Pool.history journal kind artifactId = .ok (roster.history kind artifactId)
  liveFor : ∀ kind artifactId,
    Pool.liveFor journal kind artifactId = .ok (roster.liveFor kind artifactId)

variable {journal : Journal} {roster : Roster} {es : List Event}

theorem Tells.answersAs (h : journal.Tells roster) : journal.AnswersAs roster := by
  obtain ⟨es, hes, ha, hr⟩ := h
  refine ⟨?_, ?_, ?_, ?_⟩
  · intro id
    rw [hes.get, hr]
  · rw [hes.list, Roster.list_eq ha.sound hr]
  · intro kind artifactId
    rw [hes.history, Roster.history_eq ha.sound hr]
  · intro kind artifactId
    rw [hes.liveFor, Roster.history_eq ha.sound hr]
    rfl

theorem Tells.enqueue (h : journal.Tells roster) (u : WorkUnit) :
    (journal.perform (.enqueue u)).1 = (roster.enqueue u).1 ∧
      (journal.perform (.enqueue u)).2.Tells (roster.enqueue u).2 := by
  have hlive := h.answersAs.liveFor u.kind u.artifactId
  obtain ⟨es, hes, ha, hr⟩ := h
  rw [Roster.enqueue]
  cases hl : roster.liveFor u.kind u.artifactId with
  | some live =>
      rw [hl] at hlive
      rw [perform, enqueue_of_live hes ha.sound hlive]
      exact ⟨rfl, es, hes, ha, hr⟩
  | none =>
      rw [hl] at hlive
      obtain ⟨hacc, he⟩ := enqueue_of_none hes ha.sound hlive
      have hattempt : UInt32.ofNat (1 + (roster.ofArtifact u.kind u.artifactId).length) =
          (numbered (replay es) u).attempt := by
        rw [numbered, (Roster.ofArtifact_perm ha.sound hr u.kind u.artifactId).length_eq,
          Nat.add_comm, UInt32.ofNat_add]
        rfl
      rw [perform, he]
      refine ⟨rfl, es ++ [.enqueued (numbered (replay es) u)], hes.append _, ha.snoc hacc, ?_⟩
      intro id
      rw [replay_append_singleton, record_enqueued]
      dsimp only
      rw [hattempt]
      exact Roster.getElem?_insert hr _ _ id

theorem Tells.transition (h : journal.Tells roster) (now : Timestamp) (id : Uuid)
    (t : Transition) :
    let call : Call := .transition now id t
    (journal.perform call).1 = (roster.transition now id t).1 ∧
      (journal.perform call).2.Tells (roster.transition now id t).2 := by
  obtain ⟨es, hes, ha, hr⟩ := h
  cases hg : (replay es).get? id with
  | none =>
      simp only [perform, Pool.transition, hes.units, Roster.transition, hr, hg]
      exact ⟨rfl, es, hes, ha, hr⟩
  | some u =>
      cases hap : u.apply t now with
      | error step =>
          simp only [perform, Pool.transition, hes.units, Roster.transition, hr, hg, hap]
          exact ⟨rfl, es, hes, ha, hr⟩
      | ok v =>
          simp only [perform, Pool.transition, hes.units, Roster.transition, hr, hg, hap]
          refine ⟨rfl, es ++ [.transitioned id now t], hes.append _,
            ha.snoc (.transitioned hg hap), ?_⟩
          intro other
          rw [replay_append_singleton, record_transitioned hg hap]
          exact Roster.getElem?_insert hr id v other

theorem Tells.perform (h : journal.Tells roster) (call : Call) :
    (journal.perform call).1 = (roster.perform call).1 ∧
      (journal.perform call).2.Tells (roster.perform call).2 := by
  cases call with
  | enqueue u => exact h.enqueue u
  | transition now id t => exact h.transition now id t

theorem Tells.foldl (h : journal.Tells roster) (calls : List Call) :
    (calls.foldl (fun journal call => (journal.perform call).2) journal).Tells
      (calls.foldl (fun roster call => (roster.perform call).2) roster) := by
  induction calls generalizing journal roster with
  | nil => exact h
  | cons call calls ih => exact ih (h.perform call).2

theorem tells_ofCalls (calls : List Call) : (ofCalls calls).Tells (Roster.ofCalls calls) := by
  refine Tells.foldl ⟨[], holds_none, .nil, fun id => ?_⟩ calls
  rw [Std.HashMap.getElem?_empty]
  rfl

theorem perform_ok (h : journal.Holds es) {call : Call} {answer : Answer}
    (ha : (journal.perform call).1 = .ok answer) :
    ∃ e, (journal.perform call).2 = some (journal.getD [] ++ entry e ++ [10]) ∧
      byteLines ((journal.perform call).2.getD []) = byteLines (journal.getD []) ++ [entry e] ∧
      (journal.perform call).2.events = .ok (es ++ [e]) := by
  rcases perform_cases h call with ⟨error, he⟩ | ⟨answer', e, -, he⟩
  · rw [he] at ha
    cases ha
  · rw [he]
    refine ⟨e, ?_, ?_, (h.append e).events⟩
    · rw [Journal.append, line_eq, List.append_assoc]
    · rw [h.append e, h, byteLines_lines, byteLines_lines, List.map_append, List.map_singleton]

theorem get_transition (h : journal.Holds es) {now : Timestamp} {id : Uuid} {t : Transition}
    {v : WorkUnit} (hv : (Pool.transition journal now id t).1 = .ok v) :
    Pool.get (Pool.transition journal now id t).2 id = .ok (some v) := by
  rcases transition_cases h now id t with ⟨error, he⟩ | ⟨u, w, hg, ha, he⟩
  · rw [he] at hv
    cases hv
  · rw [he] at hv ⊢
    obtain rfl : w = v := Except.ok.inj hv
    rw [(h.append _).get, replay_append_singleton, record_transitioned hg ha, get?_put_self]

/-- After any calls the file is read back as the roster that took the same calls, with every moment
settled: it gives the same answers, no event of it is passed over, and the next call adds one line
or nothing. -/
theorem refines_roster (calls : List (Call Moment)) :
    let journal := ofCalls calls
    let roster := Roster.ofCalls (calls.map (Call.map Moment.settle))
    journal.AnswersAs roster ∧
      (∃ es, journal.events = .ok es ∧
        (∀ before e after, es = before ++ e :: after → (replay before).Accepts e) ∧
        ∀ (call : Call Moment) answer, (journal.perform call).1 = .ok answer →
          ∃ e line, 10 ∉ line ∧
            (journal.perform call).2 = some (journal.getD [] ++ line ++ [10]) ∧
            byteLines ((journal.perform call).2.getD []) = byteLines (journal.getD []) ++ [line] ∧
            (journal.perform call).2.events = .ok (es ++ [e])) ∧
      (∀ call, (journal.perform call).1 = (roster.perform (call.map Moment.settle)).1) ∧
      (∀ (call : Call Moment) error, (journal.perform call).1 = .error error →
        (journal.perform call).2 = journal) ∧
      (∀ now id t v, (Pool.transition journal now id t).1 = .ok v →
        Pool.get (Pool.transition journal now id t).2 id = .ok (some v)) ∧
      ∀ plain : List Call, calls = plain.map (Call.map Timestamp.toMoment) →
        roster = Roster.ofCalls plain := by
  have hsettle : ofCalls (calls.map (Call.map Moment.settle)) = ofCalls calls :=
    ofCalls_map Temporal.toText_settle calls
  have hperform (journal : Journal) (call : Call Moment) :
      journal.perform (call.map Moment.settle) = journal.perform call :=
    perform_map Temporal.toText_settle journal call
  have ht := tells_ofCalls (calls.map (Call.map Moment.settle))
  obtain ⟨es, h, ha⟩ := written_ofCalls (calls.map (Call.map Moment.settle))
  rw [hsettle] at ht h
  refine ⟨ht.answersAs, ⟨es, h.events, ?_, ?_⟩, ?_, ?_, ?_, ?_⟩
  · intro before e after hes
    subst hes
    exact ha.accepts
  · intro call answer hok
    rw [← hperform] at hok ⊢
    obtain ⟨e, hbytes, hlines, hevents⟩ := perform_ok h hok
    exact ⟨e, entry e, newline_notMem_entry e, hbytes, hlines, hevents⟩
  · intro call
    rw [← hperform]
    exact (ht.perform _).1
  · intro call error herror
    rw [← hperform] at herror ⊢
    rcases perform_cases h (call.map Moment.settle) with ⟨error', he⟩ | ⟨answer, e, -, he⟩
    · rw [he]
    · rw [he] at herror
      cases herror
  · exact fun now id t v hv => get_transition h hv
  · rintro plain rfl
    rw [List.map_map, funext (f := Call.map _ ∘ _) Call.map_settle_map, List.map_id']

open Pool in
/-- A unit that was queued in a leap second amid a minute is queued in the next second when it is
read back, and a second unit of its artifact is not let in. -/
theorem leap_second_settled :
    let leap : Moment := ⟨sampleTime.date, ⟨30, 1500000000, by decide, by decide⟩⟩
    let next : Timestamp := ⟨sampleTime.date, ⟨31, 500000000, by decide, by decide⟩⟩
    let u : WorkUnit Moment := { (sampleUnit 0).map Timestamp.toMoment with queuedAt := leap }
    let other : WorkUnit Moment := (sampleUnit 1).map Timestamp.toMoment
    let journal := ofCalls [.enqueue u, .enqueue other]
    next.toMoment ≠ u.queuedAt ∧
      Pool.get journal u.id = .ok (some { sampleUnit 0 with queuedAt := next }) ∧
      Pool.list journal = .ok [{ sampleUnit 0 with queuedAt := next }] ∧
      (Pool.enqueue journal other).1 = .error (.conflict u.artifactId u.id) := by
  intro leap next u other journal
  have h := holds_ofCalls ([Call.enqueue u, .enqueue other].map (Call.map Moment.settle))
  rw [ofCalls_map Temporal.toText_settle] at h
  rw [h.get, h.list, enqueue_eq h.units]
  decide +kernel

end Journal

end CausalWork
