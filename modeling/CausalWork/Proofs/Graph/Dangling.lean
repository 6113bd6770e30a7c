import CausalWork.Graph
import CausalWork.Proofs.Collate
import CausalWork.Proofs.Text.ByteOrder
import Mathlib.Data.Prod.Lex

namespace CausalWork

open CausalNode

variable {α : Type} [CausalNode α] {items : List α} {e : Edge}

def Dangling (items : List α) (e : Edge) : Prop :=
  ∃ item ∈ items, label item = e.child ∧ e.parent ∈ after item ∧ e.parent ∉ items.map label

namespace Edge

def key (e : Edge) : String ×ₗ String := toLex (e.child, e.parent)

theorem key_injective : Function.Injective key := by
  rintro ⟨child, parent⟩ ⟨child', parent'⟩ h
  cases h
  rfl

theorem before_iff (a b : Edge) : a.before b ↔ a.key < b.key := by
  rw [key, key, Prod.Lex.toLex_lt_toLex]
  simp [before]

/-- The order of edges by the bytes of the child, then by those of the parent. -/
def Precedes (a b : Edge) : Prop :=
  Bytes.Before (Bytes.ofText a.child) (Bytes.ofText b.child) ∨
    a.child = b.child ∧ Bytes.Before (Bytes.ofText a.parent) (Bytes.ofText b.parent)

theorem precedes_iff (a b : Edge) : a.Precedes b ↔ a.key < b.key := by
  rw [key, key, Prod.Lex.toLex_lt_toLex, Precedes, Bytes.ofText_before_iff,
    Bytes.ofText_before_iff]

end Edge

theorem mem_danglingEdges : e ∈ danglingEdges items ↔ Dangling items e := by
  rw [danglingEdges, mem_collate Edge.before_iff Edge.key_injective, List.mem_flatMap]
  refine exists_congr fun item => and_congr_right fun _ => ?_
  rw [List.mem_map]
  constructor
  · rintro ⟨parent, hp, rfl⟩
    obtain ⟨ha, hn⟩ := List.mem_filter.1 hp
    exact ⟨rfl, ha, of_decide_eq_true hn⟩
  · rintro ⟨hc, ha, hn⟩
    exact ⟨e.parent, List.mem_filter.2 ⟨ha, decide_eq_true hn⟩, by rw [hc]⟩

theorem danglingEdges_map {f : α → α} (hl : ∀ item, label (f item) = label item)
    (ha : ∀ item, after (f item) = after item) (items : List α) :
    danglingEdges (items.map f) = danglingEdges items := by
  unfold danglingEdges
  simp only [List.map_map, List.flatMap_map, Function.comp_def, hl, ha]

theorem danglingEdges_eq_nil_iff : danglingEdges items = [] ↔ ∀ e, ¬ Dangling items e := by
  rw [List.eq_nil_iff_forall_not_mem]
  exact forall_congr' fun e => not_congr mem_danglingEdges

theorem precedes_of_danglingEdges_eq {edges : List Edge} (h : danglingEdges items = e :: edges)
    {other : Edge} (ho : Dangling items other) : e = other ∨ e.Precedes other := by
  have hp : (danglingEdges items).Pairwise fun a b => a.key < b.key :=
    pairwise_collate Edge.before_iff _
  rw [h] at hp
  rw [← mem_danglingEdges, h] at ho
  rcases List.mem_cons.1 ho with rfl | ho
  · exact .inl rfl
  · exact .inr ((e.precedes_iff other).2 ((List.pairwise_cons.1 hp).1 other ho))

end CausalWork
