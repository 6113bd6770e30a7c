import CausalWork.Resolution
import CausalWork.Store.Memory

namespace CausalWork

/-- A store that gives a record only to those who ask for its kind and id. -/
structure Store.Honest (s : Store) : Prop where
  own : ∀ kind id a, s.get kind id = .ok (some (.own a)) → a.kind = kind ∧ a.id = id
  external : ∀ kind id r, s.get kind id = .ok (some (.external r)) → r.kind = kind ∧ r.id = id

theorem MemoryStore.honest_store {s : MemoryStore}
    (ho : ∀ kind a, (kind, Entry.own a) ∈ s.entries → a.kind = kind)
    (hr : ∀ kind r, (kind, Entry.external r) ∈ s.entries → r.kind = kind) : s.store.Honest := by
  have hg : ∀ kind id e, s.store.get kind id = .ok (some e) →
      (kind, e) ∈ s.entries ∧ e.id = id := by
    intro kind id e h
    have hf : s.answer ((s.ofKind kind).find? fun e => e.id = id) = .ok (some e) := h
    unfold answer at hf
    split at hf
    · cases hf
    · have hf := Except.ok.inj hf
      obtain ⟨⟨k, e⟩, hm, rfl⟩ := List.mem_map.1
        (mem_of_mem_collate _ (List.mem_of_find?_eq_some hf))
      obtain ⟨hm, hk⟩ := List.mem_filter.1 hm
      have hid := List.find?_some hf
      exact ⟨of_decide_eq_true hk ▸ hm, of_decide_eq_true hid⟩
  refine ⟨fun kind id a h => ?_, fun kind id r h => ?_⟩
  · obtain ⟨hm, hid⟩ := hg kind id _ h
    exact ⟨ho kind a hm, hid⟩
  · obtain ⟨hm, hid⟩ := hg kind id _ h
    exact ⟨hr kind r hm, hid⟩

theorem Memo.ok_of_bind {α β : Type} {x : StateM Memo (Except Failure α)}
    {k : Except Failure α → StateM Memo (Except Failure β)} {m : Memo} {b : β}
    (h : ((x >>= k) m).1 = .ok b) (hk : ∀ e, k (.error e) = pure (.error e)) :
    ∃ a, (x m).1 = .ok a ∧ (k (.ok a) (x m).2).1 = .ok b := by
  replace h : (k (x m).1 (x m).2).1 = .ok b := h
  cases hx : (x m).1 with
  | error e =>
      rw [hx, hk] at h
      cases h
  | ok a =>
      rw [hx] at h
      exact ⟨a, rfl, h⟩

namespace Remote

theorem get_of_ask {r : Remote} {deadline : Option Nat} {kind : Kind} {id : String} {a : Artifact}
    (ha : r.ask deadline kind id = .owned a) : r.store.get kind id = .ok (some (.own a)) := by
  unfold ask at ha
  dsimp only at ha
  split at ha
  · cases ha
  · split at ha
    next b hb =>
        cases ha
        exact hb
    all_goals cases ha

theorem ask_owned {r : Remote} (h : r.store.Honest) {deadline : Option Nat} {kind : Kind}
    {id : String} {a : Artifact} (ha : r.ask deadline kind id = .owned a) :
    a.kind = kind ∧ a.id = id :=
  h.own kind id a (get_of_ask ha)

end Remote

namespace Network

variable {n : Network} {q : Question} {pin : Option Locator} {a : Artifact}

theorem survey_cons (deadline : Option Nat) (q : Question) (pin : Option Locator)
    (reasons : List String) (asked : List Nat) (place : Nat) (r : Remote)
    (remotes : List (Nat × Remote)) :
    survey deadline q pin reasons asked ((place, r) :: remotes) =
      match r.ask deadline q.kind q.id with
      | .owned a => (.found { a with source := .external (pin.getD r.locator) }, place :: asked)
      | .disclaimed => survey deadline q pin reasons (place :: asked) remotes
      | .failed reason => survey deadline q pin (reason :: reasons) (place :: asked) remotes := by
  rw [survey]
  cases r.ask deadline q.kind q.id <;> rfl

theorem survey_found {deadline : Option Nat} {reasons : List String} {asked : List Nat}
    {remotes : List (Nat × Remote)} (hs : ∀ r ∈ remotes, r.2.store.Honest)
    (h : (survey deadline q pin reasons asked remotes).1 = .found a) :
    a.kind = q.kind ∧ a.id = q.id := by
  induction remotes generalizing reasons asked with
  | nil => cases reasons <;> cases h
  | cons r remotes ih =>
      obtain ⟨place, r⟩ := r
      have hr := hs (place, r) List.mem_cons_self
      have hrest : ∀ r ∈ remotes, r.2.store.Honest := fun r hm => hs r (List.mem_cons_of_mem _ hm)
      rw [survey_cons] at h
      cases ha : r.ask deadline q.kind q.id with
      | owned b =>
          have hb := Remote.ask_owned hr ha
          rw [ha] at h
          cases h
          exact hb
      | disclaimed =>
          rw [ha] at h
          exact ih hrest h
      | failed reason =>
          rw [ha] at h
          exact ih hrest h

theorem mem_candidates {repo : Option String} {r : Nat × Remote} (h : r ∈ n.candidates repo) :
    r.2 ∈ n.remotes := by
  have hz : r ∈ n.remotes.zipIdx.map Prod.swap := by
    cases repo with
    | none => exact h
    | some repo => exact (List.mem_filter.1 h).1
  obtain ⟨⟨remote, place⟩, hm, rfl⟩ := List.mem_map.1 hz
  exact List.fst_mem_of_mem_zipIdx hm

theorem inquire_found (hs : ∀ r ∈ n.remotes, r.store.Honest)
    (h : (n.inquire q pin).1 = .found a) : a.kind = q.kind ∧ a.id = q.id := by
  unfold inquire at h
  split at h
  · cases h
  · exact survey_found (fun r hr => hs r.2 (mem_candidates hr)) h

end Network

def Reference.question (r : Reference) : Question := ⟨r.kind, r.id, some r.locator.repo⟩

namespace Network

variable {n : Network} {q : Question} {pin : Option Locator} {a : Artifact}

theorem resolveReference_eq (n : Network) (r : Reference) :
    n.resolveReference r = r.settle <$> n.lookup r.kind r.id (some r.locator) := rfl

theorem resolveForeign_eq (n : Network) (kind : Kind) (id : String) :
    n.resolveForeign kind id = Outcome.settle kind id <$> n.lookup kind id none := rfl

theorem resolveReference_empty (n : Network) (r : Reference) : (n.resolveReference r Memo.empty).1 =
    r.settle (n.inquire r.question (some r.locator)).1 := by
  rw [resolveReference_eq]
  rfl

theorem resolveForeign_empty (n : Network) (kind : Kind) (id : String) :
    (n.resolveForeign kind id Memo.empty).1 = (n.inquire ⟨kind, id, none⟩ none).1.settle kind id := by
  rw [resolveForeign_eq]
  rfl

theorem resolveReference_ok (hs : ∀ r ∈ n.remotes, r.store.Honest) {r : Reference}
    (h : (n.resolveReference r Memo.empty).1 = .ok a) : a.kind = r.kind ∧ a.id = r.id := by
  rw [resolveReference_empty] at h
  cases hi : (n.inquire r.question (some r.locator)).1 with
  | found b =>
      rw [hi] at h
      cases h
      exact inquire_found hs hi
  | unclaimed | unreachable =>
      rw [hi] at h
      cases h

theorem resolveForeign_ok (hs : ∀ r ∈ n.remotes, r.store.Honest) {kind : Kind} {id : String}
    (h : (n.resolveForeign kind id Memo.empty).1 = .ok a) : a.kind = kind ∧ a.id = id := by
  rw [resolveForeign_empty] at h
  cases hi : (n.inquire ⟨kind, id, none⟩ none).1 with
  | found b =>
      rw [hi] at h
      cases h
      exact inquire_found hs hi
  | unclaimed | unreachable =>
      rw [hi] at h
      cases h

theorem resolve_ok {home : Store} (hh : home.Honest) (hs : ∀ r ∈ n.remotes, r.store.Honest)
    {kind : Kind} {id : String} (h : (n.resolve home kind id Memo.empty).1 = .ok a) :
    a.kind = kind ∧ a.id = id := by
  unfold resolve at h
  cases hg : home.get kind id with
  | error e =>
      rw [hg] at h
      cases h
  | ok entry =>
      rw [hg] at h
      match entry with
      | none => exact resolveForeign_ok hs h
      | some (.own b) =>
          cases h
          exact hh.own kind id a hg
      | some (.external r) =>
          obtain ⟨hk, hid⟩ := hh.external kind id r hg
          exact hk ▸ hid ▸ resolveReference_ok hs h
      | some (.malformed id reason) => cases h

end Network

end CausalWork
