import CausalWork.Graph
import CausalWork.Proofs.Collate
import CausalWork.Proofs.Countdown

namespace CausalWork.Graph

open CausalNode

variable {α : Type} [CausalNode α]

theorem precedes_iff (a b : α) : precedes a b ↔ label a < label b := decide_eq_true_iff

def ofNodes (items : List α) : Graph α := ⟨collate precedes items⟩

theorem ofItems?_eq_ok {items : List α} {g : Graph α} (h : ofItems? items = .ok g) :
    g = ofNodes items ∧ g.cycle? = none := by
  unfold ofItems? at h
  dsimp only at h
  cases hc : (⟨collate precedes items⟩ : Graph α).cycle? with
  | none =>
      rw [hc] at h
      cases h
      exact ⟨rfl, hc⟩
  | some ids =>
      rw [hc] at h
      cases h

theorem ofClosed?_eq_ok {items : List α} {g : Graph α} (h : ofClosed? items = .ok g) :
    ofItems? items = .ok g := by
  unfold ofClosed? at h
  split at h
  · exact h
  · cases h

theorem get?_ofNodes (items : List α) (id : String) :
    (ofNodes items).get? id = items.find? fun item => label item = id :=
  find?_collate precedes_iff items id

theorem pairwise_ids (items : List α) : (ofNodes items).ids.Pairwise (· < ·) :=
  List.pairwise_map.2 (pairwise_collate precedes_iff items)

theorem nodup_ids (items : List α) : (ofNodes items).ids.Nodup :=
  (pairwise_ids items).imp ne_of_lt

variable {g : Graph α}

theorem mem_ids_iff_get? {id : String} : id ∈ g.ids ↔ ∃ node, g.get? id = some node := by
  rw [← Option.isSome_iff_exists, get?, List.find?_isSome, ids, List.mem_map]
  simp only [decide_eq_true_eq]

theorem mem_ids_ofNodes {items : List α} {id : String} :
    id ∈ (ofNodes items).ids ↔ id ∈ items.map label := by
  rw [mem_ids_iff_get?, get?_ofNodes, ← Option.isSome_iff_exists, List.find?_isSome, List.mem_map]
  simp only [decide_eq_true_eq]

theorem label_of_get? {id : String} {node : α} (h : g.get? id = some node) : label node = id := by
  unfold get? at h
  simpa using List.find?_some h

theorem get?_label (hn : g.ids.Nodup) {node : α} (h : node ∈ g.nodes) :
    g.get? (label node) = some node :=
  (find?_key_iff label hn).2 ⟨h, rfl⟩

theorem mem_parents {node : α} {p : String} : p ∈ g.parents node ↔ p ∈ after node ∧ p ∈ g.ids := by
  rw [parents, mem_ascending, List.mem_filter, decide_eq_true_eq]

theorem parentsOf_eq {id : String} {node : α} (h : g.get? id = some node) :
    g.parentsOf id = g.parents node := by
  rw [parentsOf, h]
  rfl

theorem nodup_parents (node : α) : (g.parents node).Nodup :=
  (pairwise_ascending _).imp ne_of_lt

theorem pairwise_parentsOf (id : String) : (g.parentsOf id).Pairwise (· < ·) := by
  unfold parentsOf
  cases g.get? id with
  | none => exact .nil
  | some node => exact pairwise_ascending _

theorem length_ids : g.ids.length = g.nodes.length := List.length_map label

def precedence (g : Graph α) (hn : g.ids.Nodup) : Precedence where
  ids := g.ids
  parents := g.parentsOf
  nodup := hn
  parents_nodup := by
    intro id hid
    obtain ⟨node, h⟩ := mem_ids_iff_get?.1 hid
    rw [parentsOf_eq h]
    exact nodup_parents node
  parents_mem := by
    intro id hid p hp
    obtain ⟨node, h⟩ := mem_ids_iff_get?.1 hid
    rw [parentsOf_eq h] at hp
    exact (mem_parents.1 hp).2

theorem lookup_map_label {β : Type} (f : α → β) (nodes : List α) (id : String) :
    (nodes.map fun node => (label node, f node)).lookup id =
      (nodes.find? fun node => label node = id).map f := by
  induction nodes with
  | nil => rfl
  | cons node nodes ih =>
      rw [List.map_cons, Countdown.lookup_cons, ih, List.find?_cons]
      by_cases h : label node = id
      · simp [h]
      · simp [h, Ne.symm h]

theorem mem_filter_links (hn : g.ids.Nodup) {p : String × List String → Bool} {x : String} :
    x ∈ (g.links.filter p).map Prod.fst ↔ x ∈ g.ids ∧ p (x, g.parentsOf x) := by
  simp only [links, List.mem_map, List.mem_filter]
  constructor
  · rintro ⟨l, ⟨⟨node, hm, rfl⟩, hp⟩, rfl⟩
    refine ⟨List.mem_map_of_mem hm, ?_⟩
    rwa [parentsOf_eq (get?_label hn hm)]
  · rintro ⟨hx, hp⟩
    obtain ⟨node, h⟩ := mem_ids_iff_get?.1 hx
    obtain rfl := label_of_get? h
    rw [parentsOf_eq h] at hp
    exact ⟨_, ⟨⟨node, List.mem_of_find?_eq_some h, rfl⟩, hp⟩, rfl⟩

theorem map_fst_links : g.links.map Prod.fst = g.ids := by
  rw [links, List.map_map]
  rfl

theorem nodup_filter_links (hn : g.ids.Nodup) (p : String × List String → Bool) :
    ((g.links.filter p).map Prod.fst).Nodup := by
  rw [← map_fst_links] at hn
  exact hn.sublist ((List.filter_sublist).map Prod.fst)

theorem stands_start (h : g.ids.Pairwise (· < ·)) :
    Countdown.Stands (g.precedence (h.imp ne_of_lt)) [] (Countdown.start g.links) where
  placed := .nil
  degree := by
    intro id hid
    obtain ⟨node, hg⟩ := mem_ids_iff_get?.1 hid
    have hp : (g.precedence (h.imp ne_of_lt)).parents id = g.parents node := parentsOf_eq hg
    have hl : (Countdown.start g.links).degrees.lookup id =
        (g.get? id).map fun node => (g.parents node).length := by
      rw [Countdown.start, links, List.map_map]
      exact lookup_map_label (fun node => (g.parents node).length) g.nodes id
    rw [hl, hg, hp]
    simp
  sorted := by
    have hs : g.links.Pairwise fun a b => a.1 < b.1 := by
      rw [← map_fst_links] at h
      exact List.pairwise_map.1 h
    exact List.pairwise_map.2 (hs.filter _)
  ready := by
    intro id
    have hm : id ∈ (Countdown.start g.links).ready ↔ _ := mem_filter_links (h.imp ne_of_lt)
    rw [hm, List.isEmpty_iff, List.eq_nil_iff_forall_not_mem]
    simp only [Precedence.Ready, List.not_mem_nil, not_false_eq_true, true_and]
    rfl

theorem order?_greedy (h : g.ids.Pairwise (· < ·))
    (hex : ∀ done, (∃ x ∈ g.ids, x ∉ done) →
      ∃ x, (g.precedence (h.imp ne_of_lt)).Ready done x) :
    ∃ order, g.order? = some order ∧ (g.precedence (h.imp ne_of_lt)).Greedy [] order := by
  refine Countdown.place?_greedy (fun id => nodup_filter_links (h.imp ne_of_lt) _) ?_ hex
    (stands_start h) ?_
  · intro id x
    rw [mem_filter_links (h.imp ne_of_lt), decide_eq_true_eq]
    rfl
  · exact length_ids.symm

end CausalWork.Graph
