import CausalWork.Proofs.Graph.Cycle
import CausalWork.Proofs.Graph.Order
import Mathlib.Data.List.Perm.Basic
import Mathlib.Data.List.Sort

namespace CausalWork

open CausalNode

variable {α : Type} [CausalNode α] {items others : List α}

/-- Nodes of one id that name the same parents, in whatever order and however often. -/
def SameNode (a b : α) : Prop := label a = label b ∧ ∀ p, p ∈ after a ↔ p ∈ after b

/-- The same nodes in another order. -/
def Rearranged (items others : List α) : Prop :=
  Relation.Comp List.Perm (List.Forall₂ SameNode) items others

theorem SameNode.symm {a b : α} (h : SameNode a b) : SameNode b a :=
  ⟨h.1.symm, fun p => (h.2 p).symm⟩

theorem Rearranged.of_perm (h : items.Perm others) : Rearranged items others :=
  ⟨others, h, List.forall₂_same.2 fun _ _ => ⟨rfl, fun _ => .rfl⟩⟩

theorem Rearranged.symm (h : Rearranged items others) : Rearranged others items := by
  obtain ⟨mid, hperm, hsame⟩ := h
  have hback : List.Forall₂ SameNode others mid := (hsame.imp fun _ _ => SameNode.symm).flip
  have hcomp : Relation.Comp (List.Forall₂ SameNode) List.Perm others items :=
    ⟨mid, hback, hperm.symm⟩
  rwa [List.forall₂_comp_perm_eq_perm_comp_forall₂] at hcomp

theorem Rearranged.perm_labels (h : Rearranged items others) :
    (items.map label).Perm (others.map label) := by
  obtain ⟨mid, hperm, hsame⟩ := h
  have hlabels : mid.map label = others.map label := by
    rw [← List.forall₂_eq_eq_eq, List.forall₂_map_left_iff, List.forall₂_map_right_iff]
    exact hsame.imp fun _ _ hab => hab.1
  exact hlabels ▸ hperm.map label

theorem exists_same_of_mem {mid : List α} (h : List.Forall₂ SameNode mid others) {a : α}
    (ha : a ∈ mid) : ∃ b ∈ others, SameNode a b := by
  induction h with
  | nil => cases ha
  | cons hxy _ ih =>
      rcases List.mem_cons.1 ha with rfl | ha
      · exact ⟨_, List.mem_cons_self, hxy⟩
      · obtain ⟨b, hb, hab⟩ := ih ha
        exact ⟨b, List.mem_cons_of_mem _ hb, hab⟩

theorem Rearranged.exists_same (h : Rearranged items others) {a : α} (ha : a ∈ items) :
    ∃ b ∈ others, SameNode a b := by
  obtain ⟨mid, hperm, hsame⟩ := h
  exact exists_same_of_mem hsame (hperm.mem_iff.1 ha)

theorem Rearranged.dangling (h : Rearranged items others) {e : Edge} (he : Dangling items e) :
    Dangling others e := by
  obtain ⟨a, ha, hchild, hp, hn⟩ := he
  obtain ⟨b, hb, hlabel, hafter⟩ := h.exists_same ha
  exact ⟨b, hb, hlabel.symm.trans hchild, (hafter _).1 hp,
    fun hm => hn (h.perm_labels.mem_iff.2 hm)⟩

theorem Rearranged.danglingEdges_eq (h : Rearranged items others) :
    danglingEdges items = danglingEdges others := by
  refine eq_of_pairwise_lt_of_mem_iff (pairwise_collate Edge.before_iff _)
    (pairwise_collate Edge.before_iff _) fun e => ?_
  exact mem_danglingEdges.trans
    ((Iff.intro h.dangling h.symm.dangling).trans mem_danglingEdges.symm)

theorem mem_labels_tipsOf {id : String} : id ∈ (tipsOf items).map label ↔
    id ∈ items.map label ∧ ∀ item ∈ items, label item ≠ id → id ∉ after item := by
  unfold tipsOf
  dsimp only
  rw [mem_map_collate Graph.precedes_iff, List.mem_map, List.mem_map]
  have hnamed (id : String) :
      id ∉ items.flatMap (fun item => (after item).filter (· ≠ label item)) ↔
        ∀ item ∈ items, label item ≠ id → id ∉ after item := by
    simp only [List.mem_flatMap, List.mem_filter, decide_eq_true_eq, not_exists, not_and, not_not]
    exact forall₂_congr fun item _ => ⟨fun h hne hm => hne (h hm).symm,
      fun h hm => by_contra fun hne => h (Ne.symm hne) hm⟩
  constructor
  · rintro ⟨item, hm, rfl⟩
    obtain ⟨hm, hn⟩ := List.mem_filter.1 hm
    exact ⟨⟨item, hm, rfl⟩, (hnamed _).1 (of_decide_eq_true hn)⟩
  · rintro ⟨⟨item, hm, rfl⟩, hn⟩
    exact ⟨item, List.mem_filter.2 ⟨hm, decide_eq_true ((hnamed _).2 hn)⟩, rfl⟩

theorem pairwise_labels_tipsOf (items : List α) : ((tipsOf items).map label).Pairwise (· < ·) :=
  List.pairwise_map.2 (pairwise_collate Graph.precedes_iff _)

theorem Rearranged.unnamed (h : Rearranged items others) {id : String}
    (hn : ∀ item ∈ items, label item ≠ id → id ∉ after item) :
    ∀ item ∈ others, label item ≠ id → id ∉ after item := by
  intro b hb hne hm
  obtain ⟨a, ha, hlabel, hafter⟩ := h.symm.exists_same hb
  exact hn a ha (hlabel ▸ hne) ((hafter id).1 hm)

theorem Rearranged.labels_tipsOf_eq (h : Rearranged items others) :
    (tipsOf items).map label = (tipsOf others).map label := by
  refine List.Pairwise.eq_of_mem_iff (pairwise_labels_tipsOf items)
    (pairwise_labels_tipsOf others) fun id => ?_
  rw [mem_labels_tipsOf, mem_labels_tipsOf, h.perm_labels.mem_iff]
  exact and_congr_right fun _ => ⟨h.unnamed, h.symm.unnamed⟩

namespace Graph

variable {g g' : Graph α}

structure SameShape (g g' : Graph α) : Prop where
  ids : g.ids = g'.ids
  parentsOf : g.parentsOf = g'.parentsOf

theorem visit_congr (h : g.parentsOf = g'.parentsOf) (steps : Nat) (path done : List String)
    (id : String) : g.visit steps path done id = g'.visit steps path done id := by
  induction steps generalizing path done id with
  | zero => rfl
  | succ steps ih =>
      have hvisit : g.visit steps (id :: path) = g'.visit steps (id :: path) := by
        funext done p
        exact ih (id :: path) done p
      rw [visit, visit, h, hvisit]

/-- The search goes from id to parents and sees nothing else of a graph. -/
theorem SameShape.cycle?_eq (h : SameShape g g') : g.cycle? = g'.cycle? := by
  have hvisit : g.visit (g.nodes.length + 1) [] = g'.visit (g'.nodes.length + 1) [] := by
    funext done id
    rw [← length_ids, h.ids, length_ids]
    exact visit_congr h.parentsOf _ _ _ _
  rw [cycle?, cycle?, h.ids, hvisit]

theorem links_eq (hn : g.ids.Nodup) : g.links = g.ids.map fun id => (id, g.parentsOf id) := by
  rw [links, ids, List.map_map]
  refine List.map_congr_left fun node hm => ?_
  rw [Function.comp_apply, parentsOf_eq (get?_label hn hm)]

theorem SameShape.order?_eq (h : SameShape g g') (hn : g.ids.Nodup) : g.order? = g'.order? := by
  have hlinks : g.links = g'.links := by
    rw [links_eq hn, links_eq (h.ids ▸ hn), h.ids, h.parentsOf]
  have hsize : g.size = g'.size := by
    rw [size, size, ← length_ids (g := g), ← length_ids (g := g'), h.ids]
  rw [order?, order?, hlinks, hsize]

theorem flatMap_parents (hn : g.ids.Nodup) : g.nodes.flatMap g.parents = g.ids.flatMap g.parentsOf := by
  rw [ids, List.flatMap_map]
  refine List.flatMap_congr fun node hm => ?_
  rw [parentsOf_eq (get?_label hn hm)]

theorem labels_tips (hn : g.ids.Nodup) :
    g.tips.map label = g.ids.filter fun id => id ∉ g.ids.flatMap g.parentsOf := by
  unfold tips
  dsimp only
  rw [flatMap_parents hn, ids, List.filter_map]
  rfl

theorem labels_topologicalOrder (h : (ofNodes items).cycle? = none) :
    (ofNodes items).topologicalOrder.map label = (ofNodes items).order?.getD [] := by
  obtain ⟨ids, ho, hg, he⟩ := topologicalOrder_ofNodes h
  rw [he, ho, Option.getD_some]
  exact map_label_filterMap fun id hid => (hg.extends.mem.1 hid).1

/-- Two attempts to make a graph that end in the same refusal or in graphs that order the same ids
in the same way. -/
inductive SameOutcome : Except GraphError (Graph α) → Except GraphError (Graph α) → Prop
  | refused (e : GraphError) : SameOutcome (.error e) (.error e)
  | made {g g' : Graph α}
      (topological : g.topologicalOrder.map label = g'.topologicalOrder.map label)
      (causal : g.causalOrder.map label = g'.causalOrder.map label)
      (tips : g.tips.map label = g'.tips.map label) : SameOutcome (.ok g) (.ok g')

theorem SameOutcome.refused_iff {outcome outcome' : Except GraphError (Graph α)}
    (h : SameOutcome outcome outcome') (e : GraphError) : outcome = .error e ↔ outcome' = .error e := by
  cases h with
  | refused => rfl
  | made => constructor <;> rintro ⟨⟩

theorem SameShape.sameOutcome (h : SameShape (ofNodes items) (ofNodes others)) :
    SameOutcome (ofItems? items) (ofItems? others) := by
  rw [ofItems?_eq, ofItems?_eq, ← h.cycle?_eq]
  cases hc : (ofNodes items).cycle? with
  | some walk => exact .refused (.cycle walk)
  | none =>
      have hn := nodup_ids items
      have horder : (ofNodes items).topologicalOrder.map label =
          (ofNodes others).topologicalOrder.map label := by
        rw [labels_topologicalOrder hc, labels_topologicalOrder (h.cycle?_eq ▸ hc), h.order?_eq hn]
      refine .made horder ?_ ?_
      · rw [causalOrder, causalOrder, List.map_reverse, List.map_reverse, horder]
      · rw [labels_tips hn, labels_tips (nodup_ids others), h.ids, h.parentsOf]

end Graph

namespace Rearranged

open CausalWork.Graph

variable (h : Rearranged items others)

include h

theorem ids_eq : (ofNodes items).ids = (ofNodes others).ids := by
  refine List.Pairwise.eq_of_mem_iff (pairwise_ids items) (pairwise_ids others) fun id => ?_
  rw [mem_ids_ofNodes, mem_ids_ofNodes, h.perm_labels.mem_iff]

variable (hn : (items.map label).Nodup)

include hn

theorem find?_same {id : String} {a : α} (ha : items.find? (fun item => label item = id) = some a) :
    ∃ b, others.find? (fun item => label item = id) = some b ∧ SameNode a b := by
  have hn' := h.perm_labels.nodup_iff.1 hn
  obtain ⟨hm, rfl⟩ := (find?_key_iff label hn).1 ha
  obtain ⟨b, hb, hab⟩ := h.exists_same hm
  exact ⟨b, (find?_key_iff label hn').2 ⟨hb, hab.1.symm⟩, hab⟩

theorem parentsOf_subset {id p : String} (hp : p ∈ (ofNodes items).parentsOf id) :
    p ∈ (ofNodes others).parentsOf id := by
  obtain ⟨a, ha, hpa, hpi⟩ := names_iff.2 hp
  obtain ⟨b, hb, hab⟩ := h.find?_same hn ha
  exact names_iff.1 ⟨b, hb, (hab.2 p).1 hpa, h.perm_labels.mem_iff.1 hpi⟩

theorem sameShape : SameShape (ofNodes items) (ofNodes others) where
  ids := h.ids_eq
  parentsOf := by
    funext id
    refine List.Pairwise.eq_of_mem_iff (pairwise_parentsOf id) (pairwise_parentsOf id) fun p => ?_
    exact ⟨h.parentsOf_subset hn, h.symm.parentsOf_subset (h.perm_labels.nodup_iff.1 hn)⟩

end Rearranged

/-- What is made of nodes, or why they are refused, does not depend on the order in which they are
given, nor on the order and the repetition of the parents that each names. -/
theorem Graph.outcome_of_rearranged (hn : (items.map label).Nodup) (h : Rearranged items others) :
    SameOutcome (ofItems? items) (ofItems? others) ∧
      SameOutcome (ofClosed? items) (ofClosed? others) ∧
      danglingEdges items = danglingEdges others ∧
      (tipsOf items).map label = (tipsOf others).map label := by
  have hopen := (h.sameShape hn).sameOutcome
  refine ⟨hopen, ?_, h.danglingEdges_eq, h.labels_tipsOf_eq⟩
  unfold ofClosed?
  rw [← h.danglingEdges_eq]
  cases danglingEdges items with
  | nil => exact hopen
  | cons e edges => exact .refused (.dangling e)

def Graph.retangledChunks : List Artifact :=
  [⟨"a", .chunk, .chunk .future, ["b", "y", "b"], [], .home⟩,
    ⟨"b", .chunk, .chunk .future, ["z", "a"], [], .home⟩]

theorem Graph.outcome_of_rearranged_tangled :
    (tangledChunks.map label).Nodup ∧ Rearranged tangledChunks retangledChunks ∧
      ofItems? retangledChunks = .error (.cycle ["a", "b", "a"]) ∧
      danglingEdges retangledChunks = [⟨"a", "y"⟩, ⟨"b", "z"⟩] := by
  have hn : (tangledChunks.map label).Nodup := by decide
  have h : Rearranged tangledChunks retangledChunks := by
    refine ⟨tangledChunks.reverse, (List.reverse_perm _).symm, .cons ⟨rfl, ?_⟩ (.cons ⟨rfl, ?_⟩ .nil)⟩
    · change ∀ p, p ∈ ["y", "b"] ↔ p ∈ ["b", "y", "b"]
      simp [or_comm]
    · change ∀ p, p ∈ ["a", "z"] ↔ p ∈ ["z", "a"]
      simp [or_comm]
  have hcycle : (ofNodes tangledChunks).cycle? = some ["a", "b", "a"] := by decide +kernel
  have hdangling : danglingEdges tangledChunks = [⟨"a", "y"⟩, ⟨"b", "z"⟩] := by decide +kernel
  obtain ⟨hitems, -, hedges, -⟩ := outcome_of_rearranged hn h
  refine ⟨hn, h, ?_, hedges ▸ hdangling⟩
  rw [ofItems?_eq, hcycle] at hitems
  generalize ofItems? retangledChunks = outcome at hitems
  cases hitems
  rfl

end CausalWork
