import CausalWork.Proofs.Pool.Attempt
import CausalWork.Proofs.Pool.Frame
import Mathlib.Logic.Relation

namespace CausalWork

open CausalWork.Units

inductive State.Moves : State → State → Prop
  | dispatch : Moves queued dispatched
  | complete : Moves dispatched completed
  | fail : Moves dispatched failed

theorem State.canBecome_iff {s t : State} : s.canBecome t ↔ s.Moves t := by
  constructor
  · intro h
    cases s <;> cases t <;> cases h <;> constructor
  · rintro ⟨⟩ <;> rfl

namespace WorkUnit

/-- A unit has the fields that its state calls for and none that its state rules out. -/
def Fits (u : WorkUnit) : Prop :=
  match u.state with
  | .queued =>
    u.dispatchedAt = none ∧ u.finishedAt = none ∧ u.assignedAgent = none ∧ u.error = none
  | .dispatched => u.dispatchedAt.isSome ∧ u.finishedAt = none ∧ u.error = none
  | .completed => u.dispatchedAt.isSome ∧ u.finishedAt.isSome ∧ u.error = none
  | .failed => u.dispatchedAt.isSome ∧ u.finishedAt.isSome ∧ u.error.isSome

/-- What a unit may be later on: the same piece of work, in a state that steps lead to. -/
structure Becomes (u v : WorkUnit) : Prop where
  id : v.id = u.id
  artifactId : v.artifactId = u.artifactId
  kind : v.kind = u.kind
  external : v.external = u.external
  attempt : v.attempt = u.attempt
  queuedAt : v.queuedAt = u.queuedAt
  state : Relation.ReflTransGen State.Moves u.state v.state

variable {u v w : WorkUnit}

theorem Becomes.refl (u : WorkUnit) : u.Becomes u := ⟨rfl, rfl, rfl, rfl, rfl, rfl, .refl⟩

theorem Becomes.trans (h : u.Becomes v) (h' : v.Becomes w) : u.Becomes w where
  id := h'.id.trans h.id
  artifactId := h'.artifactId.trans h.artifactId
  kind := h'.kind.trans h.kind
  external := h'.external.trans h.external
  attempt := h'.attempt.trans h.attempt
  queuedAt := h'.queuedAt.trans h.queuedAt
  state := h.state.trans h'.state

theorem becomes_advance {t : Transition} (h : u.state.Moves t.target) (now : Timestamp) :
    u.Becomes (u.advance now t) := by
  have hstate : Relation.ReflTransGen State.Moves u.state (u.advance now t).state := by
    rw [advance_state]
    exact .single h
  cases t <;> exact ⟨rfl, rfl, rfl, rfl, rfl, rfl, hstate⟩

theorem fits_queued (id : Uuid) (now : Timestamp) (a : Artifact) : (queued id now a).Fits :=
  ⟨rfl, rfl, rfl, rfl⟩

theorem Fits.advance (h : u.Fits) {t : Transition} (ht : u.state.Moves t.target)
    (now : Timestamp) : (u.advance now t).Fits := by
  unfold Fits at h
  generalize u.state = s at h ht
  cases t with
  | dispatch agent =>
      cases ht
      obtain ⟨-, hfinished, -, herror⟩ := h
      exact ⟨rfl, hfinished, herror⟩
  | complete =>
      cases ht
      obtain ⟨hdispatched, -, herror⟩ := h
      exact ⟨hdispatched, rfl, herror⟩
  | fail reason =>
      cases ht
      exact ⟨h.1, rfl, rfl⟩

end WorkUnit

namespace Units

variable {units : Units}

def Fit (units : Units) : Prop := ∀ id u, units.get? id = some u → u.Fits

theorem Fit.put (h : units.Fit) (id : Uuid) {u : WorkUnit} (hu : u.Fits) : (units.put id u).Fit := by
  intro other v hv
  by_cases ho : other = id
  · subst ho
    rw [get?_put_self] at hv
    exact Option.some.inj hv ▸ hu
  · rw [get?_put_of_ne units u ho] at hv
    exact h other v hv

def Leads (units later : Units) : Prop :=
  ∀ id u, units.get? id = some u → ∃ v, later.get? id = some v ∧ u.Becomes v

theorem Leads.refl (units : Units) : units.Leads units := fun _ u hu => ⟨u, hu, .refl u⟩

theorem Leads.trans {later last : Units} (h : units.Leads later) (h' : later.Leads last) :
    units.Leads last := by
  intro id u hu
  obtain ⟨v, hv, huv⟩ := h id u hu
  obtain ⟨w, hw, hvw⟩ := h' id v hv
  exact ⟨w, hw, huv.trans hvw⟩

theorem leads_put {id : Uuid} {v : WorkUnit}
    (h : ∀ u, units.get? id = some u → u.Becomes v) : units.Leads (units.put id v) := by
  intro other u hu
  by_cases ho : other = id
  · subst ho
    exact ⟨v, get?_put_self units other v, h u hu⟩
  · exact ⟨u, (get?_put_of_ne units v ho).trans hu, .refl u⟩

end Units

namespace Journal

variable {journal : Journal} {es es' : List Event} {handed : List WorkUnit}

theorem Holds.unique (h : journal.Holds es) (h' : journal.Holds es') : es = es' :=
  Except.ok.inj (h.events.symm.trans h'.events)

/-- One call leaves every unit in a state that its fields fit, and moves one unit at most. -/
theorem fit_perform (h : journal.Holds es) (hf : (replay es).Fit) (call : Call)
    (hnew : ∀ u ∈ call.taken (journal.perform call).1, u.Fits ∧ (replay es).get? u.id = none)
    (h' : (journal.perform call).2.Holds es') :
    (replay es').Fit ∧ (replay es).Leads (replay es') := by
  rcases perform_outcomes h call with
    ⟨error, he⟩ | ⟨u, rfl, -, he⟩ | ⟨now, id, t, u, v, rfl, hg, ha, he⟩
  · rw [he] at h'
    obtain rfl := h.unique h'
    exact ⟨hf, .refl _⟩
  · rw [he] at h' hnew
    obtain ⟨hu, hnone⟩ := hnew u List.mem_cons_self
    rw [← (h.append _).unique h', replay_append_singleton, record_enqueued]
    refine ⟨hf.put _ hu, leads_put fun v hv => ?_⟩
    cases hnone.symm.trans hv
  · rw [he] at h'
    rw [← (h.append _).unique h', replay_append_singleton, record_transitioned hg ha]
    obtain ⟨hcan, rfl⟩ := (WorkUnit.apply_eq_ok_iff u v t now).1 ha
    have hmoves := State.canBecome_iff.1 hcan
    refine ⟨hf.put id ((hf id u hg).advance hmoves now), leads_put fun w hw => ?_⟩
    obtain rfl := Option.some.inj (hg.symm.trans hw)
    exact WorkUnit.becomes_advance hmoves now

theorem fit_foldl (h : journal.Holds es) (ha : Accepted es) (hn : (replay es).Numbered handed)
    (hf : (replay es).Fit) (calls : List Call)
    (hid : ((handed ++ journal.accepted calls).map WorkUnit.id).Nodup)
    (hfits : ∀ u ∈ journal.accepted calls, u.Fits) :
    ∃ es', (calls.foldl (fun journal call => (journal.perform call).2) journal).Holds es' ∧
      Accepted es' ∧ (replay es').Numbered (handed ++ journal.accepted calls) ∧
      (replay es').Fit ∧ (replay es).Leads (replay es') := by
  induction calls generalizing journal es handed with
  | nil => exact ⟨es, h, ha, by rwa [accepted, List.append_nil], hf, .refl _⟩
  | cons call calls ih =>
      rw [accepted] at hfits
      rw [accepted, ← List.append_assoc] at hid ⊢
      have hfirst : ((handed ++ call.taken (journal.perform call).1).map WorkUnit.id).Nodup := by
        rw [List.map_append] at hid
        exact (List.nodup_append.1 hid).1
      obtain ⟨es₁, h₁, ha₁, hn₁⟩ := numbered_perform h ha hn call hfirst
      -- The ids that are in use are those of the units taken in before.
      have hnew : ∀ u ∈ call.taken (journal.perform call).1,
          u.Fits ∧ (replay es).get? u.id = none := by
        intro u hu
        refine ⟨hfits u (List.mem_append_left _ hu), get?_eq_none_of_notMem fun hin => ?_⟩
        rw [hn.keys] at hin
        rw [List.map_append] at hfirst
        exact (List.nodup_append.1 hfirst).2.2 _ hin _ (List.mem_map_of_mem hu) rfl
      obtain ⟨hf₁, hleads⟩ := fit_perform h hf call hnew h₁
      obtain ⟨es', h', ha', hn', hf', hleads'⟩ :=
        ih h₁ ha₁ hn₁ hf₁ hid fun u hu => hfits u (List.mem_append_right _ hu)
      exact ⟨es', h', ha', hn', hf', hleads.trans hleads'⟩

theorem accepted_append (journal : Journal) (calls later : List Call) :
    journal.accepted (calls ++ later) = journal.accepted calls ++
      (calls.foldl (fun journal call => (journal.perform call).2) journal).accepted later := by
  induction calls generalizing journal with
  | nil => rfl
  | cons call calls ih =>
      rw [List.cons_append, accepted, accepted, ih, List.append_assoc]
      rfl

theorem get_enqueue (h : journal.Holds es) {u : WorkUnit} {id : Uuid}
    (hok : (Pool.enqueue journal u).1 = .ok id) : ∃ attempt,
      Pool.get (Pool.enqueue journal u).2 u.id = .ok (some { u with attempt }) := by
  rcases enqueue_cases h u with ⟨live, -, -, he⟩ | ⟨-, he⟩
  · rw [he] at hok
    cases hok
  · refine ⟨(numbered (replay es) u).attempt, ?_⟩
    rw [he, (h.append _).get, replay_append_singleton, record_enqueued]
    exact congrArg Except.ok (get?_put_self _ u.id (numbered (replay es) u))

theorem list_transition (h : journal.Holds es) (hs : (replay es).Sound) {now : Timestamp}
    {id : Uuid} {t : Transition} {v : WorkUnit}
    (hok : (Pool.transition journal now id t).1 = .ok v) :
    ∃ u us, (replay es).get? id = some u ∧ u.state.Moves v.state ∧ u.Becomes v ∧
      Pool.list (Pool.transition journal now id t).2 = .ok us ∧
      us.Perm (v :: ((replay es).map Prod.snd).filter fun w => w.id ≠ id) := by
  rcases transition_cases h now id t with ⟨error, he⟩ | ⟨u, w, hg, ha, he⟩
  · rw [he] at hok
    cases hok
  · rw [he] at hok ⊢
    obtain rfl : w = v := Except.ok.inj hok
    obtain ⟨hcan, rfl⟩ := (WorkUnit.apply_eq_ok_iff u w t now).1 ha
    have hmoves := State.canBecome_iff.1 hcan
    refine ⟨u, _, hg, u.advance_state now t ▸ hmoves, WorkUnit.becomes_advance hmoves now,
      (h.append _).list, ?_⟩
    rw [replay_append_singleton, record_transitioned hg ha]
    exact (ordered_perm _).trans (hs.perm_put id _)

/-- When the units that a pool takes in are fresh and no two of them have one id, every unit has at
all times the fields of its state, and is later on the same unit in a state that steps lead to. A
call that is refused changes nothing, and a step that is taken changes only the unit that moves. -/
theorem lifecycle_kept (calls later : List Call)
    (hid : ((accepted none (calls ++ later)).map WorkUnit.id).Nodup)
    (hfresh : ∀ u ∈ accepted none (calls ++ later), ∃ id now a, u = WorkUnit.queued id now a) :
    let before := ofCalls calls
    let after := ofCalls (calls ++ later)
    ∃ former latter, Pool.list before = .ok former ∧ Pool.list after = .ok latter ∧
      (∀ u ∈ former, u.Fits) ∧ (∀ u ∈ latter, u.Fits) ∧
      (∀ u ∈ former, ∃ v ∈ latter, u.Becomes v) ∧
      (∀ u id, (Pool.enqueue before u).1 = .ok id → ∃ attempt,
        Pool.get (Pool.enqueue before u).2 u.id = .ok (some { u with attempt })) ∧
      (∀ (call : Call) error, (before.perform call).1 = .error error →
        (before.perform call).2 = before) ∧
      ∀ now id t v, (Pool.transition before now id t).1 = .ok v →
        ∃ u ∈ former, u.id = id ∧ u.state.Moves v.state ∧ u.Becomes v ∧
          ∃ us, Pool.list (Pool.transition before now id t).2 = .ok us ∧
            us.Perm (v :: former.filter fun w => w.id ≠ id) := by
  intro before after
  have hfits : ∀ u ∈ accepted none (calls ++ later), u.Fits := by
    intro u hu
    obtain ⟨id, now, a, rfl⟩ := hfresh u hu
    exact WorkUnit.fits_queued id now a
  rw [accepted_append] at hid hfits
  have hfirst : ((accepted none calls).map WorkUnit.id).Nodup := by
    rw [List.map_append] at hid
    exact (List.nodup_append.1 hid).1
  obtain ⟨es, h, ha, hn, hf, -⟩ := fit_foldl holds_none .nil numbered_nil
    (fun _ _ hu => nomatch hu) calls hfirst fun u hu => hfits u (List.mem_append_left _ hu)
  obtain ⟨es', h', ha', -, hf', hleads⟩ := fit_foldl h ha hn hf later hid
    fun u hu => hfits u (List.mem_append_right _ hu)
  rw [← List.foldl_append] at h'
  have hget : ∀ {es : List Event}, Accepted es → ∀ u ∈ ordered ((replay es).map Prod.snd),
      (replay es).get? u.id = some u := fun ha u hu => ha.sound.get?_id (mem_ordered.1 hu)
  refine ⟨_, _, h.list, h'.list, fun u hu => hf _ u (hget ha u hu),
    fun u hu => hf' _ u (hget ha' u hu), fun u hu => ?_, fun u id => get_enqueue h,
    fun call error herror => ?_, fun now id t v hok => ?_⟩
  · obtain ⟨v, hv, hb⟩ := hleads u.id u (hget ha u hu)
    exact ⟨v, mem_ordered.2 (List.mem_map.2 ⟨_, mem_of_get?_eq_some hv, rfl⟩), hb⟩
  · rcases perform_cases h call with ⟨_, he⟩ | ⟨answer, e, -, he⟩
    · exact congrArg Prod.snd he
    · cases (congrArg Prod.fst he).symm.trans herror
  · obtain ⟨u, us, hg, hmoves, hb, hlist, hperm⟩ := list_transition h ha.sound hok
    have hmem := mem_of_get?_eq_some hg
    refine ⟨u, mem_ordered.2 (List.mem_map.2 ⟨_, hmem, rfl⟩), ha.sound.keyed _ hmem, hmoves, hb, us,
      hlist, hperm.trans (((ordered_perm _).symm.filter _).cons v)⟩

open Pool in
theorem lifecycle_after_failure :
    let first := sampleUnit 0
    let second := sampleUnit 1
    let calls : List Call := [.enqueue first, .transition sampleTime first.id (.dispatch none),
      .enqueue second, .transition sampleTime first.id (.fail "no tests")]
    let later : List Call :=
      [.enqueue second, .transition sampleTime second.id (.dispatch (some "smith"))]
    ((accepted none (calls ++ later)).map WorkUnit.id).Nodup ∧
      (∀ u ∈ accepted none (calls ++ later), ∃ id now a, u = WorkUnit.queued id now a) ∧
      ∃ former latter, Pool.list (ofCalls calls) = .ok former ∧
        Pool.list (ofCalls (calls ++ later)) = .ok latter ∧ (∀ u ∈ latter, u.Fits) ∧
        ∀ u ∈ former, ∃ v ∈ latter, u.Becomes v := by
  intro first second calls later
  have haccepted : accepted none (calls ++ later) = [first, second] :=
    (holds_none.accepted _).trans (by decide +kernel)
  have hid : ((accepted none (calls ++ later)).map WorkUnit.id).Nodup := by
    rw [haccepted]
    decide
  have hfresh : ∀ u ∈ accepted none (calls ++ later),
      ∃ id now a, u = WorkUnit.queued id now a := by
    rw [haccepted]
    exact List.forall_mem_cons.2 ⟨⟨_, _, _, rfl⟩, List.forall_mem_singleton.2 ⟨_, _, _, rfl⟩⟩
  obtain ⟨former, latter, hformer, hlatter, -, hfits, hbecomes, -⟩ :=
    lifecycle_kept calls later hid hfresh
  exact ⟨hid, hfresh, former, latter, hformer, hlatter, hfits, hbecomes⟩

end Journal

end CausalWork
