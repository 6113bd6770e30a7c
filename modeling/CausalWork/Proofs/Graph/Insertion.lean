import CausalWork.Proofs.Graph.Cycle

namespace CausalWork.Graph

open CausalNode Relation

section

variable {parent parent' : String → String → Prop} {walk : List String}

theorem Loop.mono (h : Loop parent walk) (hp : ∀ x ∈ walk, ∀ p, parent x p → parent' x p) :
    Loop parent' walk where
  length := h.length
  closed := h.closed
  nodup := h.nodup
  chain := h.chain.imp_of_mem_imp fun x p hx _ => hp x hx p

theorem Loop.exists_child (h : Loop parent walk) {id : String} (hid : id ∈ walk) :
    ∃ child ∈ walk, parent child id := by
  obtain ⟨hlength, hclosed, -, hchain⟩ := h
  have hrest : ∃ first rest, walk = first :: rest ∧ id ∈ rest := by
    match walk with
    | [] | [_] => simp at hlength
    | first :: next :: rest =>
        refine ⟨first, next :: rest, rfl, ?_⟩
        rcases List.mem_cons.1 hid with rfl | hid
        · rw [List.head?_cons, List.getLast?_cons_cons] at hclosed
          exact List.mem_of_getLast? hclosed.symm
        · exact hid
  obtain ⟨first, rest, rfl, hin⟩ := hrest
  obtain ⟨front, back, rfl⟩ := List.append_of_mem hin
  rw [← List.cons_append, List.isChain_split] at hchain
  refine ⟨(first :: front).getLast (List.cons_ne_nil first front), ?_, ?_⟩
  · rw [← List.cons_append]
    exact List.mem_append_left _ (List.getLast_mem _)
  · exact hchain.1.rel_getLast_head_of_append (List.cons_ne_nil first front) (List.cons_ne_nil id [])

end

variable {α : Type} [CausalNode α] {items before rest : List α} {n : α}

theorem exists_loop_iff : (∃ e, ofItems? items = .error e) ↔ ∃ walk, Loop (Names items) walk := by
  constructor
  · rintro ⟨e, h⟩
    obtain ⟨walk, -, hl⟩ := loop_of_ofItems?_eq_error h
    exact ⟨walk, hl⟩
  · rintro ⟨walk, hl⟩
    exact ofItems?_eq_error_iff.2 hl.transGen

theorem find?_insert_of_ne {id : String} (h : label n ≠ id) :
    (before ++ n :: rest).find? (fun item => label item = id) =
      (before ++ rest).find? fun item => label item = id := by
  rw [List.find?_append, List.find?_append, List.find?_cons_of_neg (by simpa using h)]

theorem mem_labels_insert {id : String} :
    id ∈ (before ++ n :: rest).map label ↔ id = label n ∨ id ∈ (before ++ rest).map label := by
  simp only [List.map_append, List.map_cons, List.mem_append, List.mem_cons, or_left_comm]

theorem find?_insert_self (hnew : label n ∉ (before ++ rest).map label) :
    (before ++ n :: rest).find? (fun item => label item = label n) = some n := by
  have hbefore : before.find? (fun item => label item = label n) = none := by
    refine List.find?_eq_none.2 fun item hm he => hnew ?_
    exact List.mem_map.2 ⟨item, List.mem_append_left rest hm, of_decide_eq_true he⟩
  rw [List.find?_append, hbefore, Option.none_or, List.find?_cons_of_pos (by simp)]

section

variable (hunnamed : ∀ item ∈ before ++ n :: rest, label n ∉ after item)

include hunnamed

theorem names_insert_iff {id p : String} (hid : id ≠ label n) :
    Names (before ++ n :: rest) id p ↔ Names (before ++ rest) id p := by
  unfold Names
  rw [find?_insert_of_ne hid.symm]
  refine exists_congr fun node => and_congr_right fun hf => and_congr_right fun hp => ?_
  have hne : p ≠ label n := by
    rintro rfl
    have hm : node ∈ before ++ n :: rest := by
      rw [← find?_insert_of_ne hid.symm] at hf
      exact List.mem_of_find?_eq_some hf
    exact hunnamed node hm hp
  rw [mem_labels_insert, or_iff_right hne]

variable (hnew : label n ∉ (before ++ rest).map label)

include hnew

/-- What nothing names is on no loop, wherever it stands among the nodes. -/
theorem loop_insert_iff {walk : List String} :
    Loop (Names (before ++ n :: rest)) walk ↔ Loop (Names (before ++ rest)) walk := by
  constructor
  · intro h
    refine h.mono fun id hid p => (names_insert_iff hunnamed ?_).1
    rintro rfl
    obtain ⟨child, -, node, hf, hp, -⟩ := h.exists_child hid
    exact hunnamed node (List.mem_of_find?_eq_some hf) hp
  · intro h
    refine h.mono fun id hid p => (names_insert_iff hunnamed ?_).2
    rintro rfl
    obtain ⟨child, -, node, hf, -, hin⟩ := h.exists_child hid
    exact hnew hin

theorem ofItems?_insert_iff : (∃ e, ofItems? (before ++ n :: rest) = .error e) ↔
    ∃ e, ofItems? (before ++ rest) = .error e := by
  rw [exists_loop_iff, exists_loop_iff]
  exact exists_congr fun walk => loop_insert_iff hunnamed hnew

end

end CausalWork.Graph
