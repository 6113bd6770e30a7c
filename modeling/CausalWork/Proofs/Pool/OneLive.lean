import CausalWork.Proofs.Pool.Call
import Mathlib.Data.List.Nodup
import Mathlib.Data.List.Perm.Subperm

namespace CausalWork

open CausalWork.Units

namespace Units

theorem ordered_perm (us : List WorkUnit) : (ordered us).Perm us := List.mergeSort_perm _ _

theorem mem_ordered {us : List WorkUnit} {u : WorkUnit} : u ∈ ordered us ↔ u ∈ us :=
  (ordered_perm us).mem_iff

variable {units : Units}

theorem Sound.eq_of_live (h : units.Sound) {kind : Kind} {artifactId : String} {u v : WorkUnit}
    (hu : u ∈ Pool.ofArtifact units kind artifactId)
    (hv : v ∈ Pool.ofArtifact units kind artifactId) (hlu : u.isLive) (hlv : v.isLive) :
    u = v := by
  obtain ⟨⟨i, hi⟩, rfl, rfl⟩ := mem_ofArtifact.1 hu
  obtain ⟨⟨j, hj⟩, hk, ha⟩ := mem_ofArtifact.1 hv
  have he := h.oneLive (i, u) hi (j, v) hj hlu hlv hk.symm ha.symm
  exact congrArg Prod.snd he

theorem mem_of_mem_ofArtifact {kind : Kind} {artifactId : String} {u : WorkUnit}
    (hu : u ∈ Pool.ofArtifact units kind artifactId) : u ∈ units.map Prod.snd :=
  (List.mem_filter.1 hu).1

theorem Sound.get?_id (h : units.Sound) {u : WorkUnit} (hu : u ∈ units.map Prod.snd) :
    units.get? u.id = some u := by
  obtain ⟨⟨id, u⟩, hid, rfl⟩ := List.mem_map.1 hu
  obtain rfl : u.id = id := h.keyed (id, u) hid
  exact get?_eq_some_of_mem h.nodup hid

theorem Sound.id_inj (h : units.Sound) {u v : WorkUnit} (hu : u ∈ units.map Prod.snd)
    (hv : v ∈ units.map Prod.snd) (hid : u.id = v.id) : u = v := by
  have hg := h.get?_id hu
  rw [hid, h.get?_id hv] at hg
  exact (Option.some.inj hg).symm

theorem Sound.countP_le_one (h : units.Sound) (kind : Kind) (artifactId : String) :
    (units.map Prod.snd).countP (fun u => u.isFor kind artifactId && u.isLive) ≤ 1 := by
  rw [List.countP_map, List.countP_eq_length_filter]
  have hn := (List.Nodup.of_map Prod.fst h.nodup).filter
    ((fun u : WorkUnit => u.isFor kind artifactId && u.isLive) ∘ Prod.snd)
  generalize hl : units.filter _ = live at hn
  have heq : ∀ a ∈ live, ∀ b ∈ live, b = a := by
    subst hl
    intro a ha b hb
    simp only [List.mem_filter, Function.comp_apply, WorkUnit.isFor, Bool.and_eq_true,
      decide_eq_true_eq] at ha hb
    obtain ⟨ha, ⟨hka, haa⟩, hla⟩ := ha
    obtain ⟨hb, ⟨hkb, hab⟩, hlb⟩ := hb
    exact h.oneLive b hb a ha hlb hla (hkb.trans hka.symm) (hab.trans haa.symm)
  cases live with
  | nil => exact Nat.zero_le 1
  | cons a live =>
      have hsub : a :: live ⊆ [a] := by
        intro b hb
        exact List.mem_singleton.2 (heq a List.mem_cons_self b hb)
      exact (hn.subperm hsub).length_le

theorem Accepts.over {u v : WorkUnit} (h : units.Accepts (.enqueued u))
    (hv : v ∈ Pool.ofArtifact units u.kind u.artifactId) : v.isLive = false := by
  generalize he : Event.enqueued u = e at h
  cases h with
  | enqueued w hlive _ =>
      cases congrArg Event.change he
      exact hlive v hv
  | transitioned => cases congrArg Event.change he

end Units

namespace Journal

variable {journal : Journal} {es : List Event}

theorem Holds.get (h : journal.Holds es) (id : Uuid) :
    Pool.get journal id = .ok ((replay es).get? id) := by
  rw [Pool.get, h.units]
  rfl

theorem Holds.list (h : journal.Holds es) :
    Pool.list journal = .ok (ordered ((replay es).map Prod.snd)) := by
  rw [Pool.list, h.units]
  rfl

theorem Holds.history (h : journal.Holds es) (kind : Kind) (artifactId : String) :
    Pool.history journal kind artifactId =
      .ok (ordered (Pool.ofArtifact (replay es) kind artifactId)) := by
  rw [Pool.history, h.units]
  rfl

theorem Holds.liveFor (h : journal.Holds es) (kind : Kind) (artifactId : String) :
    Pool.liveFor journal kind artifactId =
      .ok ((ordered (Pool.ofArtifact (replay es) kind artifactId)).find? WorkUnit.isLive) := by
  rw [Pool.liveFor, h.history]
  rfl

theorem liveFor_eq_some_iff (h : journal.Holds es) (hs : (replay es).Sound) {kind : Kind}
    {artifactId : String} {live : WorkUnit} :
    Pool.liveFor journal kind artifactId = .ok (some live) ↔
      live ∈ Pool.ofArtifact (replay es) kind artifactId ∧ live.isLive := by
  rw [h.liveFor, Except.ok.injEq]
  constructor
  · intro hf
    exact ⟨mem_ordered.1 (List.mem_of_find?_eq_some hf), List.find?_some hf⟩
  · rintro ⟨hm, hl⟩
    obtain ⟨u, hu⟩ := Option.isSome_iff_exists.1
      (List.find?_isSome.2 ⟨live, mem_ordered.2 hm, hl⟩)
    have he := hs.eq_of_live hm (mem_ordered.1 (List.mem_of_find?_eq_some hu)) hl
      (List.find?_some hu)
    exact he ▸ hu

theorem enqueue_of_live (h : journal.Holds es) (hs : (replay es).Sound) {u live : WorkUnit}
    (hl : Pool.liveFor journal u.kind u.artifactId = .ok (some live)) :
    Pool.enqueue journal u = (.error (.conflict u.artifactId live.id), journal) := by
  obtain ⟨hm, hlive⟩ := (liveFor_eq_some_iff h hs).1 hl
  rcases enqueue_cases h u with ⟨other, hmo, hlo, he⟩ | ⟨ha, -⟩
  · rw [he, hs.eq_of_live hmo hm hlo hlive]
  · have hover := ha.over hm
    rw [hlive] at hover
    cases hover

theorem enqueue_of_none (h : journal.Holds es) (hs : (replay es).Sound) {u : WorkUnit}
    (hl : Pool.liveFor journal u.kind u.artifactId = .ok none) :
    (replay es).Accepts (.enqueued (numbered (replay es) u)) ∧
      Pool.enqueue journal u =
        (.ok u.id, journal.append (.enqueued (numbered (replay es) u))) := by
  rcases enqueue_cases h u with ⟨live, hm, hlive, -⟩ | hok
  · rw [(liveFor_eq_some_iff h hs).2 ⟨hm, hlive⟩] at hl
    cases hl
  · exact hok

theorem enqueue_eq_conflict_iff (h : journal.Holds es) (hs : (replay es).Sound) (u : WorkUnit)
    (artifactId : String) (existing : Uuid) :
    (Pool.enqueue journal u).1 = .error (.conflict artifactId existing) ↔
      artifactId = u.artifactId ∧ ∃ live,
        Pool.liveFor journal u.kind u.artifactId = .ok (some live) ∧ live.id = existing := by
  cases hl : (ordered (Pool.ofArtifact (replay es) u.kind u.artifactId)).find? WorkUnit.isLive with
  | none =>
      have hnone := (h.liveFor u.kind u.artifactId).trans (congrArg Except.ok hl)
      rw [(enqueue_of_none h hs hnone).2, hnone]
      simp
  | some live =>
      have hsome := (h.liveFor u.kind u.artifactId).trans (congrArg Except.ok hl)
      rw [enqueue_of_live h hs hsome, hsome]
      simp [eq_comm]

/-- Whatever was asked of a pool, no artifact has two units that are not over. A unit is refused
just when its artifact has one, and then by the id of that one. -/
theorem one_live_per_artifact (calls : List Call) :
    let journal := ofCalls calls
    ∃ units, Pool.list journal = .ok units ∧
      (∀ kind artifactId,
        units.countP (fun u => u.isFor kind artifactId && u.isLive) ≤ 1) ∧
      (∀ kind artifactId live, Pool.liveFor journal kind artifactId = .ok (some live) ↔
        live ∈ units ∧ live.isFor kind artifactId ∧ live.isLive) ∧
      (∀ kind artifactId live, Pool.liveFor journal kind artifactId = .ok (some live) →
        Pool.get journal live.id = .ok (some live)) ∧
      (∀ kind artifactId, ∃ live?, Pool.liveFor journal kind artifactId = .ok live?) ∧
      ∀ (u : WorkUnit) artifactId existing,
        (Pool.enqueue journal u).1 = .error (.conflict artifactId existing) ↔
          artifactId = u.artifactId ∧ ∃ live,
            Pool.liveFor journal u.kind u.artifactId = .ok (some live) ∧ live.id = existing := by
  obtain ⟨es, h, ha⟩ := written_ofCalls calls
  have hs := ha.sound
  refine ⟨_, h.list, ?_, ?_, ?_, ?_, ?_⟩
  · intro kind artifactId
    rw [(ordered_perm _).countP_eq]
    exact hs.countP_le_one kind artifactId
  · intro kind artifactId live
    rw [liveFor_eq_some_iff h hs, mem_ordered, Pool.ofArtifact, List.mem_filter, and_assoc]
  · intro kind artifactId live hl
    obtain ⟨hm, -⟩ := (liveFor_eq_some_iff h hs).1 hl
    rw [h.get, hs.get?_id (mem_of_mem_ofArtifact hm)]
  · intro kind artifactId
    exact ⟨_, h.liveFor kind artifactId⟩
  · exact fun u artifactId existing => enqueue_eq_conflict_iff h hs u artifactId existing

end Journal

end CausalWork
