import CausalWork.Proofs.Graph.Shape

namespace CausalWork.Graph

open CausalNode Relation

variable {α : Type} [CausalNode α] {items : List α} {g : Graph α}

theorem mem_nodes_iff (hn : (items.map label).Nodup) {node : α} :
    node ∈ (ofNodes items).nodes ↔ node ∈ items := by
  have hfind := find?_key_iff (k := label node) (x := node) label hn
  rw [and_iff_left rfl, ← get?_ofNodes] at hfind
  rw [← hfind]
  exact ⟨get?_label (nodup_ids items), List.mem_of_find?_eq_some⟩

theorem mem_tips_iff (hn : (items.map label).Nodup) {node : α} :
    node ∈ (ofNodes items).tips ↔ node ∈ items ∧ ∀ item ∈ items, label node ∉ after item := by
  unfold tips
  dsimp only
  rw [List.mem_filter, decide_eq_true_eq, List.mem_flatMap, mem_nodes_iff hn]
  refine and_congr_right fun hm => ?_
  simp only [not_exists, not_and, mem_nodes_iff hn, mem_parents, mem_ids_ofNodes]
  exact forall₂_congr fun item _ =>
    ⟨fun h ha => h ha (List.mem_map_of_mem hm), fun h ha => absurd ha h⟩

theorem pairwise_tips (items : List α) : ((ofNodes items).tips.map label).Pairwise (· < ·) := by
  rw [labels_tips (nodup_ids items)]
  exact (pairwise_ids items).filter _

theorem mem_tipsOf_iff (hn : (items.map label).Nodup) {node : α} :
    node ∈ tipsOf items ↔
      node ∈ items ∧ ∀ other ∈ items, label other ≠ label node → label node ∉ after other := by
  constructor
  · intro h
    exact ⟨(List.mem_filter.1 (mem_of_mem_collate precedes h)).1,
      (mem_labels_tipsOf.1 (List.mem_map_of_mem h)).2⟩
  · rintro ⟨hm, hnot⟩
    obtain ⟨tip, htip, hlabel⟩ :=
      List.mem_map.1 (mem_labels_tipsOf.2 ⟨List.mem_map_of_mem hm, hnot⟩)
    have hin := (List.mem_filter.1 (mem_of_mem_collate precedes htip)).1
    rwa [← List.inj_on_of_nodup_map hn hin hm hlabel]

theorem names_of_mem (hn : (items.map label).Nodup) {node : α} (hm : node ∈ items) {p : String}
    (hp : p ∈ after node) (hi : p ∈ items.map label) : Names items (label node) p :=
  ⟨node, (find?_key_iff label hn).2 ⟨hm, rfl⟩, hp, hi⟩

theorem label_notMem_after (hn : (items.map label).Nodup) (h : ofItems? items = .ok g) {node : α}
    (hm : node ∈ items) : label node ∉ after node := by
  intro hp
  have hid : label node ∈ items.map label := List.mem_map_of_mem hm
  exact not_transGen_of_acc (acc_of_ofItems?_eq_ok h hid) (.single (names_of_mem hn hm hp hid))

theorem tips_eq_tipsOf (hn : (items.map label).Nodup) (h : ofItems? items = .ok g) :
    g.tips = tipsOf items := by
  obtain ⟨rfl, -⟩ := ofItems?_eq_ok h
  have htips : (ofNodes items).tips.Pairwise fun a b => label a < label b :=
    List.pairwise_map.1 (pairwise_tips items)
  have htipsOf : (tipsOf items).Pairwise fun a b => label a < label b :=
    List.pairwise_map.1 (pairwise_labels_tipsOf items)
  refine eq_of_pairwise_lt_of_mem_iff htips htipsOf fun node => ?_
  rw [mem_tips_iff hn, mem_tipsOf_iff hn]
  refine and_congr_right fun hm => forall₂_congr fun other ho => ?_
  constructor
  · exact fun hnot _ => hnot
  · intro hnot hp
    refine hnot (fun he => ?_) hp
    obtain rfl := List.inj_on_of_nodup_map hn ho hm he
    exact label_notMem_after hn h hm hp

theorem linear_topologicalOrder (h : ofItems? items = .ok g) : Linear items g.topologicalOrder := by
  obtain ⟨rfl, hc⟩ := ofItems?_eq_ok h
  obtain ⟨ids, -, hgreedy, he⟩ := topologicalOrder_ofNodes hc
  rw [he]
  exact linear_of_extends hgreedy.extends

theorem mem_causalOrder_iff (hn : (items.map label).Nodup) (h : ofItems? items = .ok g) {node : α} :
    node ∈ g.causalOrder ↔ node ∈ items := by
  rw [causalOrder, List.mem_reverse, (linear_topologicalOrder h).mem, find?_key_iff label hn]
  exact and_iff_left rfl

theorem topologicalOrder_of_split {before rest : List α} {node : α}
    (h : g.causalOrder = before ++ node :: rest) :
    g.topologicalOrder = rest.reverse ++ node :: before.reverse := by
  have hr := congrArg List.reverse h
  rw [causalOrder, List.reverse_reverse] at hr
  rw [hr]
  simp

theorem mem_before_of_names (h : ofItems? items = .ok g) {before rest : List α} {node child : α}
    (hsplit : g.causalOrder = before ++ node :: rest) (hc : child ∈ g.causalOrder)
    (hp : label node ∈ after child) : child ∈ before := by
  have hl := linear_topologicalOrder h
  have horder := topologicalOrder_of_split hsplit
  have hnode : node ∈ g.topologicalOrder := by simp [horder]
  obtain ⟨front, back, hback⟩ := List.append_of_mem (List.mem_reverse.1 hc)
  have hitem : label node ∈ items.map label :=
    List.mem_map_of_mem (List.mem_of_find?_eq_some ((hl.mem node).1 hnode))
  -- The node is a parent of the child, so it stands in front of it in topological order.
  obtain ⟨other, ho, hlabel⟩ := List.mem_map.1 (hl.parents_first front child back hback _ hp hitem)
  obtain rfl : other = node :=
    List.inj_on_of_nodup_map hl.nodup (hback ▸ List.mem_append_left _ ho) hnode hlabel
  obtain ⟨first, middle, rfl⟩ := List.append_of_mem ho
  have hnodup := hl.nodup.of_map label
  rw [horder] at hback hnodup
  have hout := (List.nodup_cons.1 (List.nodup_middle.1 hnodup)).1
  rw [List.append_assoc, List.cons_append, List.append_cons_inj_of_notMem
    (fun hm => hout (List.mem_append_left _ hm)) fun hm => hout (List.mem_append_right _ hm)] at hback
  exact List.mem_reverse.1 (by simp [hback.2.2])

theorem mem_tips_of_split (hn : (items.map label).Nodup) (h : ofItems? items = .ok g)
    {before rest : List α} {node : α} (hsplit : g.causalOrder = before ++ node :: rest)
    (hbefore : ∀ child ∈ before, label node ∉ after child) : node ∈ g.tips := by
  have hm : node ∈ items := (mem_causalOrder_iff hn h).1 (by simp [hsplit])
  have hunnamed : ∀ child ∈ items, label node ∉ after child := fun child hc hp =>
    hbefore child (mem_before_of_names h hsplit ((mem_causalOrder_iff hn h).2 hc) hp) hp
  obtain ⟨rfl, -⟩ := ofItems?_eq_ok h
  exact (mem_tips_iff hn).2 ⟨hm, hunnamed⟩

theorem head?_causalOrder (hn : (items.map label).Nodup) (h : ofItems? items = .ok g)
    (hne : items ≠ []) : ∃ tip ∈ g.tips, g.causalOrder.head? = some tip := by
  obtain ⟨node, hm⟩ := List.exists_mem_of_ne_nil items hne
  obtain ⟨tip, rest, hsplit⟩ :=
    List.exists_cons_of_ne_nil (List.ne_nil_of_mem ((mem_causalOrder_iff hn h).2 hm))
  have hfirst : g.causalOrder = [] ++ tip :: rest := hsplit
  exact ⟨tip, mem_tips_of_split hn h hfirst (by simp), by rw [hsplit]; rfl⟩

theorem exists_unnamed (hn : (items.map label).Nodup) (h : ofItems? items = .ok g) {p : α → Prop}
    {node : α} (hm : node ∈ items) (hp : p node) :
    ∃ first ∈ items, p first ∧ ∀ child ∈ items, p child → label first ∉ after child := by
  classical
  -- The first one in causal order: what names it comes before it.
  obtain ⟨first, hfound⟩ : ∃ first, g.causalOrder.find? (fun x => p x) = some first := by
    rw [← Option.isSome_iff_exists, List.find?_isSome]
    exact ⟨node, (mem_causalOrder_iff hn h).2 hm, decide_eq_true hp⟩
  obtain ⟨hfirst, before, rest, hsplit, hbefore⟩ := List.find?_eq_some_iff_append.1 hfound
  refine ⟨first, (mem_causalOrder_iff hn h).1 (List.mem_of_find?_eq_some hfound),
    of_decide_eq_true hfirst, fun child hc hpc hnamed => ?_⟩
  have hmem := mem_before_of_names h hsplit ((mem_causalOrder_iff hn h).2 hc) hnamed
  have hnot := hbefore child hmem
  rw [decide_eq_true hpc] at hnot
  cases hnot

theorem exists_tip_reaching (hn : (items.map label).Nodup) (h : ofItems? items = .ok g) {node : α}
    (hm : node ∈ items) : ∃ tip ∈ g.tips, ReflTransGen (Names items) (label tip) (label node) := by
  obtain ⟨tip, hin, hreach, hunnamed⟩ := exists_unnamed hn h
    (p := fun x => ReflTransGen (Names items) (label x) (label node)) hm .refl
  refine ⟨tip, ?_, hreach⟩
  obtain ⟨rfl, -⟩ := ofItems?_eq_ok h
  refine (mem_tips_iff hn).2 ⟨hin, fun child hc hp => hunnamed child hc ?_ hp⟩
  -- What names a node from which this one can be come to is another such node.
  exact .head (names_of_mem hn hc hp (List.mem_map_of_mem hin)) hreach

/-- The tips of a graph are what the tips of its items are told to be: the nodes that no other one
names. One of them is first in causal order, and every node is a tip or an ancestor of one. Of any
items at all the tips are those whose ids no item of another id names. -/
theorem tips_cover (items : List α) :
    ((items.map label).Nodup → ∀ g, ofItems? items = .ok g →
      g.tips = tipsOf items ∧ (g.tips.map label).Pairwise (· < ·) ∧
      (∀ node, node ∈ g.tips ↔
        node ∈ items ∧ ∀ other ∈ items, label other ≠ label node → label node ∉ after other) ∧
      (items ≠ [] → ∃ tip ∈ g.tips, g.causalOrder.head? = some tip) ∧
      ∀ node ∈ items, node ∈ g.tips ∨ ∃ tip ∈ g.tips, TransGen (Names items) (label tip) (label node)) ∧
    ((tipsOf items).map label).Pairwise (· < ·) ∧
    ∀ id, id ∈ (tipsOf items).map label ↔
      id ∈ items.map label ∧ ∀ item ∈ items, label item ≠ id → id ∉ after item := by
  refine ⟨fun hn g h => ?_, pairwise_labels_tipsOf items, fun id => mem_labels_tipsOf⟩
  have hsame := tips_eq_tipsOf hn h
  refine ⟨hsame, hsame ▸ pairwise_labels_tipsOf items, fun node => hsame ▸ mem_tipsOf_iff hn,
    head?_causalOrder hn h, fun node hm => ?_⟩
  obtain ⟨tip, htip, hreach⟩ := exists_tip_reaching hn h hm
  rcases reflTransGen_iff_eq_or_transGen.1 hreach with heq | htrans
  · have hin : tip ∈ items := ((mem_tipsOf_iff hn).1 (hsame ▸ htip)).1
    exact .inl (List.inj_on_of_nodup_map hn hm hin heq ▸ htip)
  · exact .inr ⟨tip, htip, htrans⟩

def forkedChunks : List Artifact :=
  [("parser", ["lexer"]), ("lexer", ["ast"]), ("docs", ["lexer", "parser"]), ("cli", ["lexer"])].map
    fun (id, parents) => ⟨id, .chunk, .chunk .future, parents, [], .home⟩

theorem tips_cover_forked : (forkedChunks.map label).Nodup ∧ ∃ g, ofItems? forkedChunks = .ok g ∧
    g.tips = tipsOf forkedChunks ∧ (tipsOf forkedChunks).map label = ["cli", "docs"] ∧
    (∃ tip ∈ g.tips, g.causalOrder.head? = some tip) ∧
    ∀ node ∈ forkedChunks, node ∈ g.tips ∨
      ∃ tip ∈ g.tips, TransGen (Names forkedChunks) (label tip) (label node) := by
  have hn : (forkedChunks.map label).Nodup := by decide
  have hok : (ofItems? forkedChunks).toOption.isSome := by decide +kernel
  cases h : ofItems? forkedChunks with
  | error e =>
      rw [h] at hok
      cases hok
  | ok g =>
      obtain ⟨hsame, -, -, hhead, hcovers⟩ := (tips_cover forkedChunks).1 hn g h
      exact ⟨hn, g, rfl, hsame, by decide +kernel, hhead (by decide), hcovers⟩

end CausalWork.Graph
