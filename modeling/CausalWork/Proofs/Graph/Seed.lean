import CausalWork.Proofs.Graph.Insertion
import CausalWork.Proofs.Graph.Shape

namespace CausalWork.Graph

open CausalNode Precedence

variable {α : Type} [CausalNode α] {g : Graph α} {items before rest : List α} {n : α}

theorem not_dangling_of_ofClosed? (h : ofClosed? items = .ok g) (e : Edge) : ¬ Dangling items e := by
  intro hd
  obtain ⟨e, he⟩ := exists_dangling_iff.2 ⟨e, hd⟩
  cases h.symm.trans he

theorem mem_labels_tips {id : String} : id ∈ (ofNodes items).tips.map label ↔
    id ∈ (ofNodes items).ids ∧
      ∀ child ∈ (ofNodes items).ids, id ∉ (ofNodes items).parentsOf child := by
  rw [labels_tips (nodup_ids items), List.mem_filter, decide_eq_true_eq, List.mem_flatMap]
  simp only [not_exists, not_and]

theorem mem_of_mem_tips {id : String} (h : id ∈ (ofNodes items).tips.map label) :
    id ∈ items.map label :=
  mem_ids_ofNodes.1 (mem_labels_tips.1 h).1

section

variable (hnew : label n ∉ (before ++ rest).map label)
  (hunnamed : ∀ item ∈ before ++ n :: rest, label n ∉ after item)
  (hafter : ∀ p, p ∈ after n ↔ p ∈ (ofNodes (before ++ rest)).tips.map label)

include hnew hunnamed

theorem parentsOf_insert {id : String} (hid : id ∈ (ofNodes (before ++ rest)).ids) :
    (ofNodes (before ++ n :: rest)).parentsOf id = (ofNodes (before ++ rest)).parentsOf id := by
  have hne : id ≠ label n := fun he => hnew (he ▸ mem_ids_ofNodes.1 hid)
  refine List.Pairwise.eq_of_mem_iff (pairwise_parentsOf id) (pairwise_parentsOf id) fun p => ?_
  rw [← names_iff, ← names_iff, names_insert_iff hunnamed hne]

include hafter

theorem crowned_insert : Crowned ((ofNodes (before ++ rest)).precedence (nodup_ids _))
    ((ofNodes (before ++ n :: rest)).precedence (nodup_ids _)) (label n) where
  fresh hid := hnew (mem_ids_ofNodes.1 hid)
  ids id := by
    change id ∈ (ofNodes (before ++ n :: rest)).ids ↔ id = label n ∨ id ∈ (ofNodes (before ++ rest)).ids
    rw [mem_ids_ofNodes, mem_ids_ofNodes, mem_labels_insert]
  parents id hid := parentsOf_insert hnew hunnamed hid
  tips p := by
    have hp : p ∈ (ofNodes (before ++ n :: rest)).parentsOf (label n) ↔
        p ∈ (ofNodes (before ++ rest)).tips.map label := by
      rw [← names_iff, ← hafter]
      constructor
      · rintro ⟨node, hf, hp, -⟩
        obtain rfl := Option.some.inj ((find?_insert_self hnew).symm.trans hf)
        exact hp
      · intro hp
        exact ⟨n, find?_insert_self hnew, hp,
          mem_labels_insert.2 (.inr (mem_of_mem_tips ((hafter p).1 hp)))⟩
    exact hp.trans mem_labels_tips

theorem tips_insert : (ofNodes (before ++ n :: rest)).tips = [n] := by
  have hlabels : (ofNodes (before ++ n :: rest)).tips.map label = [label n] := by
    refine List.Pairwise.eq_of_mem_iff
      (labels_tips (nodup_ids (before ++ n :: rest)) ▸ (pairwise_ids _).filter _)
      (List.pairwise_singleton _ _) fun id => ?_
    rw [List.mem_singleton]
    exact mem_labels_tips.trans (crowned_insert hnew hunnamed hafter).tip_iff
  obtain ⟨node, htips, hlabel⟩ := List.map_eq_singleton_iff.1 hlabels
  have hnode : node ∈ (ofNodes (before ++ n :: rest)).nodes :=
    List.mem_of_mem_filter (htips ▸ List.mem_cons_self)
  have hget := get?_label (nodup_ids _) hnode
  rw [hlabel, get?_ofNodes, find?_insert_self hnew] at hget
  rw [htips, ← Option.some.inj hget]

theorem topologicalOrder_insert (h : (ofNodes (before ++ rest)).cycle? = none)
    (h' : (ofNodes (before ++ n :: rest)).cycle? = none) :
    (ofNodes (before ++ n :: rest)).topologicalOrder =
      (ofNodes (before ++ rest)).topologicalOrder ++ [n] := by
  obtain ⟨ids, -, hg, he⟩ := topologicalOrder_ofNodes h
  obtain ⟨ids', -, hg', he'⟩ := topologicalOrder_ofNodes h'
  obtain rfl := hg'.unique ((crowned_insert hnew hunnamed hafter).greedy hg .nil)
  have hlast : (ofNodes (before ++ n :: rest)).get? (label n) = some n := by
    rw [get?_ofNodes, find?_insert_self hnew]
  rw [he, he', List.filterMap_append, List.filterMap_cons_some hlast, List.filterMap_nil]
  congr 1
  refine List.filterMap_congr fun id hid => ?_
  have hin : id ∈ (ofNodes (before ++ rest)).ids := (hg.extends.mem.1 hid).1
  have hne : label n ≠ id := fun he => hnew (he ▸ mem_ids_ofNodes.1 hin)
  rw [get?_ofNodes, get?_ofNodes, find?_insert_of_ne hne]

end

/-- A new node that was created after the tips continues a history at its head: it becomes the only
tip and goes before all that was there, whose order stays. -/
theorem seed_from_tips (h : ofClosed? (before ++ rest) = .ok g)
    (hnew : label n ∉ (before ++ rest).map label)
    (hafter : ∀ p, p ∈ after n ↔ p ∈ g.tips.map label) :
    ∃ g', ofClosed? (before ++ n :: rest) = .ok g' ∧ g'.tips = [n] ∧
      g'.causalOrder = n :: g.causalOrder := by
  have hopen := ofClosed?_eq_ok h
  obtain ⟨rfl, hc⟩ := ofItems?_eq_ok hopen
  have hclosed : ∀ item ∈ before ++ n :: rest, ∀ p ∈ after item, p ∈ (before ++ rest).map label := by
    intro item hm p hp
    rw [List.mem_append, List.mem_cons, or_left_comm, ← List.mem_append] at hm
    rcases hm with rfl | hm
    · exact mem_of_mem_tips ((hafter p).1 hp)
    · by_contra hn
      exact not_dangling_of_ofClosed? h ⟨label item, p⟩ ⟨item, hm, rfl, hp, hn⟩
  have hunnamed : ∀ item ∈ before ++ n :: rest, label n ∉ after item :=
    fun item hm hp => hnew (hclosed item hm _ hp)
  have hnot : ∀ e, ¬ Dangling (before ++ n :: rest) e := by
    rintro e ⟨item, hm, -, hp, hn⟩
    exact hn (mem_labels_insert.2 (.inr (hclosed item hm _ hp)))
  cases hg : ofItems? (before ++ n :: rest) with
  | error e =>
      obtain ⟨e, he⟩ := (ofItems?_insert_iff hunnamed hnew).1 ⟨e, hg⟩
      cases hopen.symm.trans he
  | ok g' =>
      obtain ⟨rfl, hc'⟩ := ofItems?_eq_ok hg
      refine ⟨_, (ofClosed?_of_closed hnot).trans hg, tips_insert hnew hunnamed hafter, ?_⟩
      rw [causalOrder, topologicalOrder_insert hnew hunnamed hafter hc hc', List.reverse_append]
      rfl

def chunkAfter (id : String) (parents : List String) : Artifact :=
  ⟨id, .chunk, .chunk .future, parents, [], .home⟩

def earlyChunks : List Artifact := [chunkAfter "lexer" ["ast"]]

def lateChunks : List Artifact := [chunkAfter "docs" [], chunkAfter "ast" []]

def headChunk : Artifact := chunkAfter "app" ["lexer", "docs"]

theorem seed_from_tips_app : ∃ g g', ofClosed? (earlyChunks ++ lateChunks) = .ok g ∧
    label headChunk ∉ (earlyChunks ++ lateChunks).map label ∧
    (∀ p, p ∈ after headChunk ↔ p ∈ g.tips.map label) ∧
    ofClosed? (earlyChunks ++ headChunk :: lateChunks) = .ok g' ∧ g'.tips = [headChunk] ∧
    g'.causalOrder.map label = ["app", "lexer", "docs", "ast"] := by
  have hok : (ofClosed? (earlyChunks ++ lateChunks)).toOption.isSome := by decide +kernel
  have hnew : label headChunk ∉ (earlyChunks ++ lateChunks).map label := by decide
  cases h : ofClosed? (earlyChunks ++ lateChunks) with
  | error e =>
      rw [h] at hok
      cases hok
  | ok g =>
      obtain ⟨hg, -⟩ := ofItems?_eq_ok (ofClosed?_eq_ok h)
      have htips : g.tips.map label = ["docs", "lexer"] := by
        rw [hg]
        decide +kernel
      have hcausal : g.causalOrder.map label = ["lexer", "docs", "ast"] := by
        rw [hg]
        decide +kernel
      have hafter : ∀ p, p ∈ after headChunk ↔ p ∈ g.tips.map label := by
        intro p
        rw [htips]
        exact List.Perm.mem_iff (.swap "docs" "lexer" [])
      obtain ⟨g', hg', htip, horder⟩ := seed_from_tips h hnew hafter
      exact ⟨g, g', rfl, hnew, hafter, hg', htip, by rw [horder, List.map_cons, hcausal]; rfl⟩

end CausalWork.Graph
