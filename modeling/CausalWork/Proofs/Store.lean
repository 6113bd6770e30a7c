import CausalWork.Proofs.Collate
import CausalWork.Proofs.Resolution
import CausalWork.Store.Files
import Mathlib.Data.List.Nodup

namespace CausalWork

def Store.Holds (s : Store) (kind : Kind) (e : Entry) : Prop :=
  (∃ entries, s.list kind = .ok entries ∧ e ∈ entries) ∨ ∃ id, s.get kind id = .ok (some e)

/-- What a store lists of a kind is what it gives out by id. To get a bad record may be an error. -/
structure Store.Agrees (s : Store) (kind : Kind) (entries : List Entry) : Prop where
  listed : ∀ e ∈ entries, s.get kind e.id = .ok (some e) ∨
    ∃ store id reason, e = .malformed id reason ∧
      s.get kind id = .error (.malformed store kind id reason)
  unlisted : ∀ id, id ∉ entries.map Entry.id → s.get kind id = .ok none

theorem Store.Agrees.eq_of_id {s : Store} {kind : Kind} {entries : List Entry}
    (h : s.Agrees kind entries) :
    ∀ e ∈ entries, ∀ e' ∈ entries, e.id = e'.id → e = e' := by
  intro e he e' he' hid
  rcases h.listed e he with hg | ⟨store, id, reason, rfl, hg⟩
  · rcases h.listed e' he' with hg' | ⟨store', id', reason', rfl, hg'⟩
    · rw [hid, hg'] at hg
      cases hg
      rfl
    · rw [hid] at hg
      cases hg.symm.trans hg'
  · rcases h.listed e' he' with hg' | ⟨store', id', reason', rfl, hg'⟩
    · rw [← hid] at hg'
      cases hg.symm.trans hg'
    · obtain rfl : id = id' := hid
      cases hg.symm.trans hg'
      rfl

theorem Store.Agrees.mem_of_get {s : Store} {kind : Kind} {entries : List Entry} {id : String}
    (h : s.Agrees kind entries) {e : Entry} (hg : s.get kind id = .ok (some e)) :
    e ∈ entries ∧ e.id = id := by
  by_cases hid : id ∈ entries.map Entry.id
  · obtain ⟨e', he', rfl⟩ := List.mem_map.1 hid
    rcases h.listed e' he' with hg' | ⟨store, id, reason, rfl, hg'⟩
    · cases hg.symm.trans hg'
      exact ⟨he', rfl⟩
    · cases hg.symm.trans hg'
  · cases hg.symm.trans (h.unlisted id hid)

def Entry.FiledUnder (kind : Kind) : Entry → Prop
  | own a => a.kind = kind
  | external r => r.kind = kind
  | malformed _ _ => True

namespace MemoryStore

def Filed (s : MemoryStore) : Prop := ∀ kind e, (kind, e) ∈ s.entries → e.FiledUnder kind

variable {s : MemoryStore}

theorem filed_named (name : String) : (named name).Filed := fun _ _ h => absurd h List.not_mem_nil

theorem Filed.insert (h : s.Filed) {kind : Kind} {e : Entry} (he : e.FiledUnder kind) :
    (s.insert kind e).Filed := by
  intro k x hx
  rcases List.mem_cons.1 hx with heq | hx
  · cases heq
    exact he
  · exact h k x (List.mem_filter.1 hx).1

theorem Filed.insertArtifact (h : s.Filed) (a : Artifact) : (s.insertArtifact a).Filed :=
  h.insert rfl

theorem Filed.insertReference (h : s.Filed) (r : Reference) : (s.insertReference r).Filed :=
  h.insert rfl

theorem Filed.honest (h : s.Filed) : s.store.Honest :=
  honest_store (fun kind a hm => h kind (.own a) hm) fun kind r hm => h kind (.external r) hm

theorem entry_before_iff (a b : Entry) : decide (a.id < b.id) ↔ a.id < b.id := decide_eq_true_iff

theorem agrees_store {kind : Kind} {entries : List Entry} (h : s.store.list kind = .ok entries) :
    s.store.Agrees kind entries := by
  replace h : s.answer (s.ofKind kind) = .ok entries := h
  have hget (id : String) :
      s.store.get kind id = s.answer ((s.ofKind kind).find? fun e => e.id = id) := rfl
  unfold answer at h hget
  split at h
  · cases h
  · rename_i honline
    cases h
    simp only [if_neg honline] at hget
    have hn : ((s.ofKind kind).map Entry.id).Nodup :=
      (List.pairwise_map.2 (pairwise_collate entry_before_iff _)).imp ne_of_lt
    refine ⟨fun e he => .inl ?_, fun id hid => ?_⟩
    · rw [hget, (find?_key_iff Entry.id hn).2 ⟨he, rfl⟩]
    · rw [hget, List.find?_eq_none.2]
      intro e he hkey
      exact hid (List.mem_map.2 ⟨e, he, of_decide_eq_true hkey⟩)

theorem answer_cases (s : MemoryStore) :
    (∃ e, ∀ {α : Type} (a : α), s.answer a = .error e) ∨ ∀ {α : Type} (a : α), s.answer a = .ok a := by
  unfold answer
  cases s.offline with
  | true => exact .inl ⟨_, fun _ => if_pos rfl⟩
  | false => exact .inr fun _ => if_neg Bool.false_ne_true

theorem mem_of_holds {kind : Kind} {e : Entry} (h : s.store.Holds kind e) : e ∈ s.ofKind kind := by
  rcases s.answer_cases with ⟨err, hoffline⟩ | honline
  · rcases h with ⟨entries, hl, -⟩ | ⟨id, hg⟩
    · cases (hoffline _).symm.trans hl
    · cases (hoffline _).symm.trans hg
  · rcases h with ⟨entries, hl, he⟩ | ⟨id, hg⟩
    · cases (honline _).symm.trans hl
      exact he
    · have hfound := Except.ok.inj ((honline _).symm.trans hg)
      exact List.mem_of_find?_eq_some hfound

end MemoryStore

theorem Record.artifact_ok {kind : Kind} {id text : String} {a : Artifact}
    (h : Record.artifact kind id text = .ok a) : a.kind = kind ∧ a.id = id := by
  unfold Record.artifact at h
  split at h
  · cases h
  · split at h
    · cases h
    · cases h
      exact ⟨rfl, rfl⟩

theorem Record.reference_ok {kind : Kind} {id text : String} {r : Reference}
    (h : Record.reference kind id text = .ok r) : r.kind = kind ∧ r.id = id := by
  unfold Record.reference at h
  split at h
  · cases h
  · rename_i r' hr
    cases h
    obtain ⟨y, -, hy⟩ := Option.bind_eq_some_iff.1 hr
    unfold Record.foreign? at hy
    simp only [Option.bind_eq_bind, Option.bind_eq_some_iff] at hy
    obtain ⟨fields, -, hy⟩ := hy
    split at hy
    · simp only [Option.bind_eq_some_iff] at hy
      obtain ⟨repo, -, track, -, pinned, -, parents, -, hy⟩ := hy
      cases hy
      exact ⟨rfl, rfl⟩
    · cases hy

theorem ok_of_bind {ε α β : Type} {x : Except ε α} {k : α → Except ε β} {b : β}
    (h : x >>= k = .ok b) : ∃ a, x = .ok a ∧ k a = .ok b := by
  cases x with
  | error e => cases h
  | ok a => exact ⟨a, rfl, h⟩

theorem error_of_bind {ε α β : Type} {x : Except ε α} {k : α → Except ε β} {e : ε}
    (h : x >>= k = .error e) (hk : ∀ a, x = .ok a → k a ≠ .error e) : x = .error e := by
  cases x with
  | error e =>
      cases h
      rfl
  | ok a => exact absurd h (hk a rfl)

namespace FileStore

variable {s : FileStore} {kind : Kind} {id : String} {e : Entry}

theorem ok_of_decoded {α : Type} {x : Except Record.Fault α} {a : α}
    (h : s.decoded kind id x = .ok a) : x = .ok a := by
  cases x with
  | error fault => cases h
  | ok b =>
      cases h
      rfl

theorem load_ok {directory : String} (h : s.load kind id directory = .ok (some e)) :
    e.FiledUnder kind ∧ e.id = id := by
  obtain ⟨there, -, h⟩ := ok_of_bind h
  split at h
  · obtain ⟨text, -, h⟩ := ok_of_bind h
    obtain ⟨a, ha, h⟩ := ok_of_bind h
    cases h
    exact Record.artifact_ok (ok_of_decoded ha)
  · obtain ⟨there, -, h⟩ := ok_of_bind h
    split at h
    · obtain ⟨text, -, h⟩ := ok_of_bind h
      obtain ⟨r, hr, h⟩ := ok_of_bind h
      cases h
      exact Record.reference_ok (ok_of_decoded hr)
    · cases h

theorem get_ok (h : s.get kind id = .ok (some e)) : e.FiledUnder kind ∧ e.id = id := by
  unfold get at h
  split at h
  · cases h
  · obtain ⟨there, -, h⟩ := ok_of_bind h
    split at h
    · cases h
    · exact load_ok h

theorem honest_store (s : FileStore) : s.store.Honest where
  own _ _ _ h := get_ok h
  external _ _ _ h := get_ok h

end FileStore

end CausalWork
