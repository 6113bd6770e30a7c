import CausalWork.Proofs.Pool.OneLive
import Mathlib.Data.Prod.Lex

namespace CausalWork

def Timestamp.place (t : Timestamp) : ℤ ×ₗ ℕ ×ₗ ℕ ×ₗ ℕ ×ₗ ℕ :=
  toLex (t.date.year, toLex (t.date.month, toLex (t.date.day,
    toLex (t.clock.second, t.clock.nano))))

namespace Timestamp

theorem place_inj {a b : Timestamp} (h : a.place = b.place) : a = b := by
  obtain ⟨⟨year, month, day, hd⟩, ⟨second, nano, hs, hn⟩⟩ := a
  obtain ⟨⟨year', month', day', hd'⟩, ⟨second', nano', hs', hn'⟩⟩ := b
  simp only [place, EmbeddingLike.apply_eq_iff_eq, Prod.mk.injEq] at h
  obtain ⟨rfl, rfl, rfl, rfl, rfl⟩ := h
  rfl

theorem le_iff_place (a b : Timestamp) : a.le b ↔ a.place ≤ b.place := by
  by_cases h : a.date = b.date
  · simp [le, PlainClock.le, place, Prod.Lex.toLex_le_toLex, h]
  · have hne : a.date.year = b.date.year → a.date.month = b.date.month →
        a.date.day ≠ b.date.day := by
      intro hy hm hd
      apply h
      obtain ⟨⟨year, month, day, hv⟩, c⟩ := a
      obtain ⟨⟨year', month', day', hv'⟩, c'⟩ := b
      cases hy
      cases hm
      cases hd
      rfl
    simp only [le, if_neg h, Date.le, place, Prod.Lex.toLex_le_toLex, Bool.or_eq_true,
      Bool.and_eq_true, decide_eq_true_eq]
    omega

end Timestamp

theorem Uuid.hexNumber_inj {a b : Uuid} (h : Text.hexNumber a.digits = Text.hexNumber b.digits) :
    a = b := by
  obtain ⟨ds, hds⟩ := a
  obtain ⟨es, hes⟩ := b
  obtain rfl := Text.hexNumber_inj (hds.trans hes.symm) h
  rfl

def WorkUnit.place (u : WorkUnit) : (ℤ ×ₗ ℕ ×ₗ ℕ ×ₗ ℕ ×ₗ ℕ) ×ₗ ℕ :=
  toLex (u.queuedAt.place, Text.hexNumber u.id.digits)

namespace WorkUnit

theorem id_eq_of_place {a b : WorkUnit} (h : a.place = b.place) : a.id = b.id := by
  simp only [place, EmbeddingLike.apply_eq_iff_eq, Prod.mk.injEq] at h
  exact Uuid.hexNumber_inj h.2

end WorkUnit

namespace Units

theorem ordered_eq (us : List WorkUnit) :
    ordered us = us.mergeSort fun a b => a.place ≤ b.place := by
  unfold ordered
  congr 1
  funext a b
  rw [Bool.eq_iff_iff, decide_eq_true_eq]
  by_cases h : a.queuedAt = b.queuedAt
  · simp [h, Uuid.le, WorkUnit.place, Prod.Lex.toLex_le_toLex]
  · have hne : a.queuedAt.place ≠ b.queuedAt.place := fun hp => h (Timestamp.place_inj hp)
    rw [if_neg h, Timestamp.le_iff_place, WorkUnit.place, WorkUnit.place,
      Prod.Lex.toLex_le_toLex, le_iff_lt_or_eq]
    simp [hne]

theorem pairwise_ordered (us : List WorkUnit) :
    (ordered us).Pairwise fun a b => a.place ≤ b.place := by
  rw [ordered_eq]
  refine (List.pairwise_mergeSort (fun a b c hab hbc => ?_) (fun a b => ?_) us).imp ?_
  · simp only [decide_eq_true_eq] at hab hbc ⊢
    exact hab.trans hbc
  · simp only [Bool.or_eq_true, decide_eq_true_eq]
    exact le_total a.place b.place
  · intro a b hab
    simpa using hab

theorem ordered_eq_of_perm {us vs : List WorkUnit} (hp : us.Perm vs)
    (hid : ∀ a ∈ us, ∀ b ∈ us, a.id = b.id → a = b) : ordered us = ordered vs := by
  refine List.Perm.eq_of_pairwise ?_ (pairwise_ordered us) (pairwise_ordered vs)
    ((ordered_perm us).trans (hp.trans (ordered_perm vs).symm))
  intro a b ha hb hab hba
  exact hid a (mem_ordered.1 ha) b (hp.mem_iff.2 (mem_ordered.1 hb))
    (WorkUnit.id_eq_of_place (le_antisymm hab hba))

end Units

end CausalWork
