import CausalWork.Proofs.Graph.Search
import CausalWork.Proofs.Text.ByteOrder

namespace CausalWork.Graph

open CausalNode Precedence

variable {α : Type} [CausalNode α] {g : Graph α} {items : List α}

/-- An order of what items give: of each id the first item, and no item before its parents. -/
structure Linear (items order : List α) : Prop where
  nodup : (order.map label).Nodup
  mem : ∀ node, node ∈ order ↔ items.find? (fun item => label item = label node) = some node
  parents_first : ∀ before node rest, order = before ++ node :: rest →
    ∀ p ∈ after node, p ∈ items.map label → p ∈ before.map label

theorem map_label_filterMap {ids : List String} (h : ∀ id ∈ ids, id ∈ g.ids) :
    (ids.filterMap g.get?).map label = ids := by
  induction ids with
  | nil => rfl
  | cons id ids ih =>
      obtain ⟨node, hg⟩ := mem_ids_iff_get?.1 (h id List.mem_cons_self)
      rw [List.filterMap_cons_some hg, List.map_cons, label_of_get? hg,
        ih fun x hx => h x (List.mem_cons_of_mem id hx)]

theorem filterMap_map_label {nodes : List α} (h : ∀ node ∈ nodes, g.get? (label node) = some node) :
    (nodes.map label).filterMap g.get? = nodes := by
  induction nodes with
  | nil => rfl
  | cons node nodes ih =>
      rw [List.map_cons, List.filterMap_cons_some (h node List.mem_cons_self),
        ih fun x hx => h x (List.mem_cons_of_mem node hx)]

theorem lex_map_ofText {xs ys : List String} (h : List.Lex (· < ·) xs ys) :
    List.Lex Bytes.Before (xs.map Bytes.ofText) (ys.map Bytes.ofText) := by
  induction h with
  | nil => exact .nil
  | cons h ih => exact .cons ih
  | rel h => exact .rel (Bytes.ofText_before_iff.2 h)

theorem ready_iff {done : List String} {node : α}
    (hf : items.find? (fun item => label item = label node) = some node) :
    ((ofNodes items).precedence (nodup_ids items)).Ready done (label node) ↔
      label node ∉ done ∧ ∀ p ∈ after node, p ∈ items.map label → p ∈ done := by
  rw [← get?_ofNodes] at hf
  have hid : label node ∈ (ofNodes items).ids := mem_ids_iff_get?.2 ⟨node, hf⟩
  have hp : ((ofNodes items).precedence (nodup_ids items)).parents (label node) =
      (ofNodes items).parents node := parentsOf_eq hf
  unfold Ready
  rw [hp]
  constructor
  · rintro ⟨-, hnot, hall⟩
    exact ⟨hnot, fun p hpa hpi => hall p (mem_parents.2 ⟨hpa, mem_ids_ofNodes.2 hpi⟩)⟩
  · rintro ⟨hnot, hall⟩
    refine ⟨hid, hnot, fun p hpm => ?_⟩
    obtain ⟨hpa, hpi⟩ := mem_parents.1 hpm
    exact hall p hpa (mem_ids_ofNodes.1 hpi)

theorem Linear.extends {order : List α} (h : Linear items order) :
    ((ofNodes items).precedence (nodup_ids items)).Extends [] (order.map label) := by
  apply extends_of_ready
  · intro id hid
    left
    obtain ⟨node, hg⟩ := mem_ids_iff_get?.1 (show id ∈ (ofNodes items).ids from hid)
    obtain rfl := label_of_get? hg
    rw [get?_ofNodes] at hg
    exact List.mem_map_of_mem ((h.mem node).2 hg)
  · intro before id rest he
    obtain ⟨nodes, others, rfl, rfl, hr⟩ := List.map_eq_append_iff.1 he
    obtain ⟨node, others, rfl, rfl, rfl⟩ := List.map_eq_cons_iff.1 hr
    have hf := (h.mem node).1 (by simp)
    rw [ready_iff hf, List.append_nil]
    refine ⟨?_, ?_⟩
    · have hn := h.nodup
      rw [he] at hn
      intro hm
      exact (List.nodup_append.1 hn).2.2 _ (List.mem_reverse.1 hm) _ List.mem_cons_self rfl
    · intro p hp hpi
      exact List.mem_reverse.2 (h.parents_first nodes node others rfl p hp hpi)

theorem linear_of_extends {ids : List String}
    (h : ((ofNodes items).precedence (nodup_ids items)).Extends [] ids) :
    Linear items (ids.filterMap (ofNodes items).get?) := by
  have hmem : ∀ id, id ∈ ids ↔ id ∈ (ofNodes items).ids := by
    intro id
    rw [h.mem]
    simp [precedence]
  have hlabels := map_label_filterMap fun id hid => (hmem id).1 hid
  have hnodes : ∀ node, node ∈ ids.filterMap (ofNodes items).get? ↔
      items.find? (fun item => label item = label node) = some node := by
    intro node
    rw [List.mem_filterMap, ← get?_ofNodes]
    constructor
    · rintro ⟨id, -, hg⟩
      rwa [label_of_get? hg]
    · intro hg
      exact ⟨label node, (hmem _).2 (mem_ids_iff_get?.2 ⟨node, hg⟩), hg⟩
  refine ⟨hlabels.symm ▸ h.nodup, hnodes, ?_⟩
  intro before node rest he p hp hpi
  have hf := (hnodes node).1 (he ▸ by simp)
  rw [he, List.map_append, List.map_cons] at hlabels
  have hr := h.ready hlabels.symm
  rw [ready_iff hf, List.append_nil] at hr
  exact List.mem_reverse.1 (hr.2 p hp hpi)

theorem topologicalOrder_ofNodes (h : (ofNodes items).cycle? = none) :
    ∃ ids, (ofNodes items).order? = some ids ∧
      ((ofNodes items).precedence (nodup_ids items)).Greedy [] ids ∧
      (ofNodes items).topologicalOrder = ids.filterMap (ofNodes items).get? := by
  obtain ⟨all, hs, hall⟩ := exists_settled (nodup_ids items) h
  obtain ⟨ids, ho, hg⟩ := order?_greedy (pairwise_ids items) (by
    rintro done ⟨x, hx, hnot⟩
    exact hs.exists_ready ⟨x, hall x hx, hx, hnot⟩)
  exact ⟨ids, ho, hg, by rw [topologicalOrder, ho]; rfl⟩

/-- Of all orders with parents before children the topological one is the least by the bytes of the
ids, as it places at each step the least id whose parents are placed. Its counts of parents never go
below zero. -/
theorem topologicalOrder_least (h : ofItems? items = .ok g ∨ ofClosed? items = .ok g) :
    Linear items g.topologicalOrder ∧
      (∀ before node rest other, g.topologicalOrder = before ++ node :: rest →
        items.find? (fun item => label item = label other) = some other →
        label other ∉ before.map label →
        (∀ p ∈ after other, p ∈ items.map label → p ∈ before.map label) →
        label node = label other ∨
          Bytes.Before (Bytes.ofText (label node)) (Bytes.ofText (label other))) ∧
      (∀ order, Linear items order → g.topologicalOrder = order ∨
        List.Lex Bytes.Before (g.topologicalOrder.map fun node => Bytes.ofText (label node))
          (order.map fun node => Bytes.ofText (label node))) ∧
      g.order?.isSome ∧ g.causalOrder = g.topologicalOrder.reverse := by
  obtain ⟨rfl, hc⟩ := ofItems?_eq_ok (h.elim id ofClosed?_eq_ok)
  obtain ⟨ids, ho, hg, he⟩ := topologicalOrder_ofNodes hc
  have hlinear := linear_of_extends hg.extends
  have hlabels : (ids.filterMap (ofNodes items).get?).map label = ids :=
    map_label_filterMap fun id hid => (hg.extends.mem.1 hid).1
  rw [he]
  refine ⟨hlinear, ?_, ?_, by rw [ho]; rfl, by rw [causalOrder, he]⟩
  · intro before node rest other hsplit hf hnot hp
    rw [hsplit, List.map_append, List.map_cons] at hlabels
    have hr : ((ofNodes items).precedence (nodup_ids items)).Ready
        ((before.map label).reverse ++ []) (label other) := by
      rw [ready_iff hf, List.append_nil]
      exact ⟨fun hm => hnot (List.mem_reverse.1 hm),
        fun p hpa hpi => List.mem_reverse.2 (hp p hpa hpi)⟩
    rcases lt_or_eq_of_le (hg.least hlabels.symm hr) with hlt | heq
    · exact .inr (Bytes.ofText_before_iff.2 hlt)
    · exact .inl heq
  · intro order hl
    rcases hg.eq_or_lex hl.extends with heq | hlex
    · left
      rw [heq]
      apply filterMap_map_label
      intro node hm
      rw [get?_ofNodes]
      exact (hl.mem node).1 hm
    · right
      have hmap (nodes : List α) : (nodes.map fun node => Bytes.ofText (label node)) =
          (nodes.map label).map Bytes.ofText := by
        rw [List.map_map]
        rfl
      rw [hmap, hmap, hlabels]
      exact lex_map_ofText hlex

def sampleChunks : List Artifact :=
  [("c", ["b", "a", "b"]), ("b", []), ("a", ["z"]), ("b", ["c"])].map fun (id, parents) =>
    ⟨id, .chunk, .chunk .future, parents, [], .home⟩

theorem topologicalOrder_sampleChunks : ∃ g, ofItems? sampleChunks = .ok g ∧
    Linear sampleChunks g.topologicalOrder ∧ g.causalOrder.map Artifact.id = ["c", "b", "a"] := by
  have hok : (ofItems? sampleChunks).toOption.isSome := by decide +kernel
  cases h : ofItems? sampleChunks with
  | error e =>
      rw [h] at hok
      cases hok
  | ok g =>
      obtain ⟨hl, -, -, -, -⟩ := topologicalOrder_least (.inl h)
      refine ⟨g, rfl, hl, ?_⟩
      obtain ⟨rfl, -⟩ := ofItems?_eq_ok h
      decide +kernel

end CausalWork.Graph
