import CausalWork.Proofs.Resolution
import Mathlib.Data.Set.Function

namespace CausalWork

def asking (refs : List Reference) : Set Wanted := {w | w.pin = none ∨ ∃ r ∈ refs, r.wanted = w}

theorem Wanted.eq_of_question {w w' : Wanted} (hq : w.question = w'.question)
    (hp : w.pin = w'.pin) : w = w' := by
  obtain ⟨kind, id, pin⟩ := w
  obtain ⟨hk, hid, -⟩ := Question.mk.inj hq
  obtain rfl : pin = w'.pin := hp
  cases hk
  cases hid
  rfl

theorem Wanted.pin_isSome_eq {w w' : Wanted} (hq : w.question = w'.question) :
    w.pin.isSome = w'.pin.isSome := by
  have hrepo : w.pin.map Locator.repo = w'.pin.map Locator.repo := (Question.mk.inj hq).2.2
  rw [← Option.isSome_map (f := Locator.repo), hrepo, Option.isSome_map]

theorem injOn_asking {refs : List Reference} (h : ∀ r ∈ refs, ∀ r' ∈ refs,
    r.question = r'.question → r.locator = r'.locator) :
    Set.InjOn Wanted.question (asking refs) := by
  intro w hw w' hw' hq
  have hsome := Wanted.pin_isSome_eq hq
  refine Wanted.eq_of_question hq ?_
  rcases hw with hnone | ⟨r, hr, rfl⟩
  · rw [hnone, Option.isSome_none] at hsome
    rw [hnone, Option.isNone_iff_eq_none.1 (Option.isSome_eq_false_iff.1 hsome.symm)]
  · rcases hw' with hnone | ⟨r', hr', rfl⟩
    · rw [hnone] at hsome
      cases hsome
    · exact congrArg some (h r hr r' hr' hq)

theorem mapM_cons_apply {σ α β : Type} (k : α → StateM σ β) (a : α) (as : List α) (s : σ) :
    (a :: as).mapM k s = ((k a s).1 :: (as.mapM k (k a s).2).1, (as.mapM k (k a s).2).2) := by
  rw [List.mapM_cons]
  rfl

theorem mapM_pair_apply {σ α β : Type} (k : α → StateM σ β) (as : List α) (s : σ) :
    (as.mapM (fun a => Prod.mk a <$> k a) s).1 = as.zip (as.mapM k s).1 := by
  induction as generalizing s with
  | nil => rfl
  | cons a as ih =>
      rw [mapM_cons_apply, mapM_cons_apply]
      exact congrArg ((a, (k a s).1) :: ·) (ih (k a s).2)

namespace Network

variable (n : Network) (ws : Set Wanted)

def outcome (w : Wanted) : Outcome := (n.inquire w.question w.pin).1

def Recalls (m : Memo) : Prop :=
  ∀ q o, (q, o) ∈ m.outcomes → ∃ w ∈ ws, w.question = q ∧ n.outcome w = o

/-- What is seen of the result is the same whatever was learned before. -/
def Steady {β γ : Type} (f : β → γ) (x : StateM Memo β) : Prop :=
  ∀ m, n.Recalls ws m → f (x m).1 = f (x Memo.empty).1 ∧ n.Recalls ws (x m).2

variable {n ws} {α β γ δ ε : Type} {x : StateM Memo β} {f : β → γ}

theorem recalls_empty : n.Recalls ws Memo.empty := by
  intro q o h
  cases h

theorem Recalls.mono {ws' : Set Wanted} {m : Memo} (h : n.Recalls ws m) (hs : ws ⊆ ws') :
    n.Recalls ws' m := by
  intro q o hm
  obtain ⟨w, hw, hq⟩ := h q o hm
  exact ⟨w, hs hw, hq⟩

theorem steady_pure (b : β) : n.Steady ws f (pure b) := fun _ hm => ⟨rfl, hm⟩

theorem Steady.map {g : β → δ} {f' : δ → ε} (h : n.Steady ws f x)
    (hg : ∀ a b, f a = f b → f' (g a) = f' (g b)) : n.Steady ws f' (g <$> x) :=
  fun m hm => ⟨hg _ _ (h m hm).1, (h m hm).2⟩

theorem Steady.bind {k : β → StateM Memo δ} {f' : δ → ε} (h : n.Steady ws id x)
    (hk : n.Steady ws f' (k (x Memo.empty).1)) : n.Steady ws f' (x >>= k) := by
  intro m hm
  obtain ⟨he, hm'⟩ := h m hm
  have hrun (m : Memo) : (x >>= k) m = k (x m).1 (x m).2 := rfl
  rw [hrun, hrun, show (x m).1 = (x Memo.empty).1 from he]
  obtain ⟨hf, hr⟩ := hk _ hm'
  exact ⟨hf.trans (hk _ (h _ recalls_empty).2).1.symm, hr⟩

theorem Steady.bind_of_view {k : β → StateM Memo δ} {f' : δ → ε} (h : n.Steady ws f x)
    (hk : ∀ b, n.Steady ws f' (k b))
    (hf : ∀ b b', f b = f b' → f' (k b Memo.empty).1 = f' (k b' Memo.empty).1) :
    n.Steady ws f' (x >>= k) := by
  intro m hm
  obtain ⟨he, hm'⟩ := h m hm
  obtain ⟨hkept, hr⟩ := hk (x m).1 (x m).2 hm'
  have hfresh := (hk (x Memo.empty).1 (x Memo.empty).2 (h _ recalls_empty).2).1
  exact ⟨hkept.trans ((hf _ _ he).trans hfresh.symm), hr⟩

theorem Steady.bind_empty {k : β → StateM Memo δ} (h : n.Steady ws id x)
    (hk : n.Steady ws id (k (x Memo.empty).1)) :
    ((x >>= k) Memo.empty).1 = (k (x Memo.empty).1 Memo.empty).1 :=
  (hk _ (h _ recalls_empty).2).1

theorem mapM_of_steady {k : α → StateM Memo β} {as : List α} (h : ∀ a ∈ as, n.Steady ws f (k a))
    {m : Memo} (hm : n.Recalls ws m) :
    (as.mapM k m).1.map f = as.map (fun a => f (k a Memo.empty).1) ∧
      n.Recalls ws (as.mapM k m).2 := by
  induction as generalizing m with
  | nil => exact ⟨rfl, hm⟩
  | cons a as ih =>
      obtain ⟨hf, hm'⟩ := h a List.mem_cons_self m hm
      obtain ⟨hrest, hr⟩ := ih (fun b hb => h b (List.mem_cons_of_mem a hb)) hm'
      rw [mapM_cons_apply]
      exact ⟨by rw [List.map_cons, List.map_cons, hf, hrest], hr⟩

/-- One request for many things finds of each what a request for it alone finds. -/
theorem mapM_empty {k : α → StateM Memo β} {as : List α} (h : ∀ a ∈ as, n.Steady ws id (k a)) :
    (as.mapM k Memo.empty).1 = as.map fun a => (k a Memo.empty).1 := by
  have hm := (mapM_of_steady h recalls_empty).1
  rwa [List.map_id] at hm

theorem steady_mapM {k : α → StateM Memo β} {as : List α} (h : ∀ a ∈ as, n.Steady ws f (k a)) :
    n.Steady ws (List.map f) (as.mapM k) := by
  intro m hm
  obtain ⟨hf, hr⟩ := mapM_of_steady h hm
  exact ⟨hf.trans (mapM_of_steady h recalls_empty).1.symm, hr⟩

theorem lookup_eq (n : Network) (w : Wanted) (m : Memo) : n.lookup w.kind w.id w.pin m =
    match m.outcomes.lookup w.question with
    | some outcome => (outcome, m)
    | none => (n.outcome w,
        ⟨(w.question, n.outcome w) :: m.outcomes, (n.inquire w.question w.pin).2 ++ m.asked⟩) := rfl

theorem lookup_told (n : Network) (w : Wanted) (m : Memo) :
    (n.lookup w.kind w.id w.pin m).2.outcomes.lookup w.question =
      some (n.lookup w.kind w.id w.pin m).1 := by
  rw [lookup_eq]
  cases hl : m.outcomes.lookup w.question with
  | some outcome => exact hl
  | none => exact List.lookup_cons_self

/-- Outcomes that look the same for all that is wanted under one question make lookups steady. -/
theorem steady_lookup {f : Outcome → γ} (hf : ∀ w ∈ ws, ∀ w' ∈ ws, w.question = w'.question →
    f (n.outcome w) = f (n.outcome w')) {w : Wanted} (hw : w ∈ ws) :
    n.Steady ws f (n.lookup w.kind w.id w.pin) := by
  intro m hm
  have hempty : (n.lookup w.kind w.id w.pin Memo.empty).1 = n.outcome w := rfl
  rw [hempty, lookup_eq]
  cases hl : m.outcomes.lookup w.question with
  | some outcome =>
      obtain ⟨before, after, ho, -⟩ := List.lookup_eq_some_iff.1 hl
      obtain ⟨w', hw', hq, rfl⟩ := hm w.question outcome (ho ▸ by simp)
      exact ⟨hf w' hw' w hw hq, hm⟩
  | none =>
      refine ⟨rfl, fun q o h => ?_⟩
      rcases List.mem_cons.1 h with h | h
      · cases h
        exact ⟨w, hw, rfl, rfl⟩
      · exact hm q o h

end Network

end CausalWork
