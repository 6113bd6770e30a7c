import CausalWork.Proofs.Graph.Dangling
import CausalWork.Proofs.Graph.Search
import Mathlib.Data.List.Chain

namespace CausalWork.Graph

open CausalNode Precedence Relation

variable {α : Type} [CausalNode α] {g : Graph α} {items : List α}

/-- An item names a parent that is an item too. Of items with one id the first counts. -/
def Names (items : List α) (id parent : String) : Prop :=
  ∃ node, items.find? (fun item => label item = id) = some node ∧ parent ∈ after node ∧
    parent ∈ items.map label

/-- A walk over parents that comes back to where it began and is nowhere else twice. -/
structure Loop (parent : String → String → Prop) (walk : List String) : Prop where
  length : 2 ≤ walk.length
  closed : walk.head? = walk.getLast?
  nodup : walk.dropLast.Nodup
  chain : walk.IsChain parent

theorem names_iff {id p : String} : Names items id p ↔ p ∈ (ofNodes items).parentsOf id := by
  unfold Names parentsOf
  rw [← get?_ofNodes]
  cases (ofNodes items).get? id with
  | none => simp
  | some node => simp [mem_parents, mem_ids_ofNodes]

variable {parent : String → String → Prop}

theorem Loop.transGen {walk : List String} (h : Loop parent walk) : ∃ id, TransGen parent id id := by
  obtain ⟨hlength, hclosed, -, hchain⟩ := h
  match walk with
  | [] | [_] => simp at hlength
  | id :: next :: rest =>
      have hlast : (next :: rest).getLast (List.cons_ne_nil next rest) = id := by
        rw [List.head?_cons, List.getLast?_cons_cons,
          List.getLast?_eq_some_getLast (List.cons_ne_nil next rest)] at hclosed
        exact (Option.some.inj hclosed).symm
      obtain ⟨hstep, hrest⟩ := List.isChain_cons_cons.1 hchain
      exact ⟨id, .head' hstep (List.relationReflTransGen_of_exists_isChain_cons rest hrest hlast)⟩

theorem loop_closeWalk {path : List String} {id : String} (hid : id ∈ path) (hpath : path.Nodup)
    (hchain : path.IsChain fun p x => parent x p) (hhead : ∀ x ∈ path.head?, parent x id) :
    Loop parent (closeWalk path id) := by
  obtain ⟨front, back, rfl, hnot⟩ := List.eq_append_cons_of_mem hid
  have hfront : (front ++ id :: back).takeWhile (· ≠ id) = front := by
    rw [List.takeWhile_append_of_pos]
    · simp
    · intro x hx
      exact decide_eq_true fun he => hnot (he ▸ hx)
  have hwalk : closeWalk (front ++ id :: back) id = id :: front.reverse ++ [id] := by
    rw [closeWalk, hfront]
  rw [hwalk]
  refine ⟨by simp, by rw [List.getLast?_concat]; rfl, ?_, ?_⟩
  · rw [List.dropLast_concat]
    have hn := (List.nodup_append.1 hpath).1
    exact List.nodup_cons.2 ⟨fun hm => hnot (List.mem_reverse.1 hm), List.nodup_reverse.2 hn⟩
  · have hreverse : id :: front.reverse ++ [id] = (id :: front ++ [id]).reverse := by simp
    rw [hreverse, List.isChain_reverse]
    have hall : (id :: (front ++ id :: back)).IsChain fun p x => parent x p :=
      List.isChain_cons.2 ⟨hhead, hchain⟩
    exact hall.prefix ⟨back, by simp⟩

theorem Visits.loop {path done ids : List String} {outcome : Except (List String) (List String)}
    (h : Visits g path done ids outcome) (hpath : path.Nodup)
    (hchain : path.IsChain fun p x => p ∈ g.parentsOf x)
    (hhead : ∀ id ∈ ids, ∀ x ∈ path.head?, id ∈ g.parentsOf x) :
    ∀ walk, outcome = .error walk → Loop (fun x p => p ∈ g.parentsOf x) walk := by
  induction h with
  | nil =>
      intro walk he
      cases he
  | known hid hm hrest ih =>
      exact ih hpath hchain fun id hm => hhead id (List.mem_cons_of_mem _ hm)
  | closes hid hnew hin =>
      intro walk he
      cases he
      exact loop_closeWalk hin hpath hchain (hhead _ List.mem_cons_self)
  | enters hid hnew hout h hrest ihparents ihrest =>
      exact ihrest hpath hchain fun id hm => hhead id (List.mem_cons_of_mem _ hm)
  | @fails path done walk id ids hid hnew hout h ih =>
      intro walk' he
      cases he
      refine ih (List.nodup_cons.2 ⟨hout, hpath⟩)
        (List.isChain_cons.2 ⟨hhead id List.mem_cons_self, hchain⟩) ?_ walk rfl
      intro p hp x hx
      obtain rfl : id = x := Option.some.inj hx
      exact hp

theorem ofItems?_eq (items : List α) : ofItems? items = match (ofNodes items).cycle? with
    | none => .ok (ofNodes items)
    | some walk => .error (.cycle walk) := rfl

theorem exists_visits_ofItems (items : List α) :
    ∃ outcome, Visits (ofNodes items) [] [] (ofNodes items).ids outcome ∧
      ofItems? items = match outcome with
        | .ok _ => .ok (ofNodes items)
        | .error walk => .error (.cycle walk) := by
  obtain ⟨outcome, hv, hc⟩ := exists_visits (ofNodes items)
  refine ⟨outcome, hv, ?_⟩
  cases outcome <;> rw [ofItems?_eq, hc]

theorem loop_of_ofItems?_eq_error {e : GraphError} (h : ofItems? items = .error e) :
    ∃ walk, e = .cycle walk ∧ Loop (Names items) walk := by
  obtain ⟨outcome, hv, he⟩ := exists_visits_ofItems items
  cases outcome with
  | ok done => cases h.symm.trans he
  | error walk =>
      cases h.symm.trans he
      have hl := hv.loop List.nodup_nil .nil (by simp) walk rfl
      simp only [← names_iff] at hl
      exact ⟨walk, rfl, hl⟩

theorem acc_of_ofItems?_eq_ok (h : ofItems? items = .ok g) {id : String}
    (hid : id ∈ items.map label) : Acc (fun p x => Names items x p) id := by
  obtain ⟨rfl, hc⟩ := ofItems?_eq_ok h
  obtain ⟨all, hs, hall⟩ := exists_settled (nodup_ids items) hc
  have hacc := hs.acc (hall id (mem_ids_ofNodes.2 hid))
  simp only [names_iff]
  exact hacc

theorem not_transGen_of_acc {id : String} (h : Acc (fun p x => parent x p) id) :
    ¬ TransGen parent id id := by
  induction h with
  | intro x h ih =>
      intro hx
      obtain ⟨p, hstep, hback⟩ := TransGen.head'_iff.1 hx
      exact ih p hstep (.tail' hback hstep)

theorem ofItems?_eq_error_iff :
    (∃ e, ofItems? items = .error e) ↔ ∃ id, TransGen (Names items) id id := by
  constructor
  · rintro ⟨e, h⟩
    obtain ⟨walk, -, hl⟩ := loop_of_ofItems?_eq_error h
    exact hl.transGen
  · rintro ⟨id, hcycle⟩
    cases h : ofItems? items with
    | error e => exact ⟨e, rfl⟩
    | ok g =>
        obtain ⟨p, -, hback⟩ := TransGen.tail'_iff.1 hcycle
        obtain ⟨node, -, -, hid⟩ := hback
        exact absurd hcycle (not_transGen_of_acc (acc_of_ofItems?_eq_ok h hid))

theorem ofClosed?_of_closed (h : ∀ e, ¬ Dangling items e) : ofClosed? items = ofItems? items := by
  rw [ofClosed?, danglingEdges_eq_nil_iff.2 h]

theorem ofClosed?_eq_dangling_iff {e : Edge} : ofClosed? items = .error (.dangling e) ↔
    ∃ edges, danglingEdges items = e :: edges := by
  constructor
  · intro h
    cases hd : danglingEdges items with
    | nil =>
        rw [ofClosed?, hd] at h
        obtain ⟨walk, he, -⟩ := loop_of_ofItems?_eq_error h
        cases he
    | cons e' edges =>
        rw [ofClosed?, hd] at h
        cases h
        exact ⟨edges, rfl⟩
  · rintro ⟨edges, h⟩
    rw [ofClosed?, h]

theorem exists_dangling_iff :
    (∃ e, ofClosed? items = .error (.dangling e)) ↔ ∃ e, Dangling items e := by
  simp only [ofClosed?_eq_dangling_iff, ← mem_danglingEdges]
  constructor
  · rintro ⟨e, edges, h⟩
    exact ⟨e, h ▸ List.mem_cons_self⟩
  · rintro ⟨e, h⟩
    obtain ⟨first, edges, hd⟩ := List.exists_cons_of_ne_nil (List.ne_nil_of_mem h)
    exact ⟨first, edges, hd⟩

theorem least_of_ofClosed?_eq_dangling {e : Edge} (h : ofClosed? items = .error (.dangling e)) :
    Dangling items e ∧ ∀ other, Dangling items other → e = other ∨ e.Precedes other := by
  obtain ⟨edges, hd⟩ := ofClosed?_eq_dangling_iff.1 h
  exact ⟨mem_danglingEdges.1 (hd ▸ List.mem_cons_self),
    fun other ho => precedes_of_danglingEdges_eq hd ho⟩

/-- A graph is made of items exactly if they have no cycle, and a closed one if besides they have no
dangling edge. A refusal names the least dangling edge, or else a loop that was met by a finite
search, which looked at nothing but nodes. -/
theorem accepts_closed_acyclic (items : List α) :
    ((∃ e, ofItems? items = .error e) ↔ ∃ id, TransGen (Names items) id id) ∧
      (∀ e, ofItems? items = .error e → ∃ walk, e = .cycle walk ∧ Loop (Names items) walk) ∧
      ((∃ e, ofClosed? items = .error (.dangling e)) ↔ ∃ e, Dangling items e) ∧
      (∀ e, ofClosed? items = .error (.dangling e) →
        Dangling items e ∧ ∀ other, Dangling items other → e = other ∨ e.Precedes other) ∧
      ((∀ e, ¬ Dangling items e) → ofClosed? items = ofItems? items) ∧
      ∃ outcome, Visits (ofNodes items) [] [] (ofNodes items).ids outcome ∧
        ofItems? items = match outcome with
          | .ok _ => .ok (ofNodes items)
          | .error walk => .error (.cycle walk) :=
  ⟨ofItems?_eq_error_iff, fun _ h => loop_of_ofItems?_eq_error h, exists_dangling_iff,
    fun _ h => least_of_ofClosed?_eq_dangling h, ofClosed?_of_closed, exists_visits_ofItems items⟩

def tangledChunks : List Artifact :=
  [⟨"b", .chunk, .chunk .future, ["a", "z"], [], .home⟩,
    ⟨"a", .chunk, .chunk .future, ["y", "b"], [], .home⟩]

example : (match ofClosed? tangledChunks with | .error e => some e | .ok _ => none) =
    some (.dangling ⟨"a", "y"⟩) := by decide +kernel

example : (match ofItems? tangledChunks with | .error e => some e | .ok _ => none) =
    some (.cycle ["a", "b", "a"]) := by decide +kernel

end CausalWork.Graph
