import CausalWork.Proofs.Examination
import CausalWork.Proofs.Graph.Insertion
import CausalWork.Proofs.Graph.Shape
import CausalWork.Proofs.Store

namespace CausalWork

open Project (request)

/-- A record is added to a store. What the store gives out under other ids stays. -/
structure Store.Adds (s s' : Store) (kind : Kind) (added : Entry) : Prop where
  list_error : ∀ e, s.list kind = .error e → s'.list kind = .error e
  list_ok : ∀ entries, s.list kind = .ok entries →
    ∃ entries', s'.list kind = .ok entries' ∧ entries'.Perm (added :: entries)
  get : ∀ id, id ≠ added.id → s'.get kind id = s.get kind id

/-- A record that is not in the store has nothing to do with an id: it is not the one of that id,
and neither a record of the store nor itself names it. -/
structure Store.Unrelated (s : Store) (kind : Kind) (added : Entry) (x : String) : Prop where
  other : added.id ≠ x
  fresh : ∀ e, s.Holds kind e → e.id ≠ added.id
  unnamed : ∀ e, s.Holds kind e → added.id ∉ e.createdAfter
  unnamed_self : added.id ∉ added.createdAfter

theorem Store.Adds.nodup {s s' : Store} {kind : Kind} {added : Entry} (h : s.Adds s' kind added)
    (hfresh : ∀ e, s.Holds kind e → e.id ≠ added.id)
    (hn : ∀ entries, s.list kind = .ok entries → (entries.map Entry.id).Nodup) :
    ∀ entries, s'.list kind = .ok entries → (entries.map Entry.id).Nodup := by
  intro entries' hl'
  cases hl : s.list kind with
  | error e => cases (h.list_error e hl).symm.trans hl'
  | ok entries =>
      obtain ⟨_, hlisted, hperm⟩ := h.list_ok entries hl
      cases hlisted.symm.trans hl'
      rw [(hperm.map Entry.id).nodup_iff]
      refine List.nodup_cons.2 ⟨fun hin => ?_, hn entries hl⟩
      obtain ⟨e, he, hid⟩ := List.mem_map.1 hin
      exact hfresh e (.inl ⟨entries, hl, he⟩) hid

namespace MemoryStore

variable {s : MemoryStore} {kind : Kind} {added : Entry}

theorem ofKind_insert (h : added.id ∉ (s.ofKind kind).map Entry.id) :
    (s.insert kind added).ofKind kind =
      insertBy (fun a b => a.id < b.id) added (s.ofKind kind) := by
  have hkept : (s.entries.filter fun old => (old.1, old.2.id) ≠ (kind, added.id)).filter
      (fun e => e.1 = kind) = s.entries.filter fun e => e.1 = kind := by
    rw [List.filter_filter]
    refine List.filter_congr fun old hm => ?_
    by_cases hk : old.1 = kind
    · have hin : old.2.id ∈ (s.ofKind kind).map Entry.id := by
        refine (mem_map_collate entry_before_iff).2 ?_
        exact List.mem_map_of_mem (List.mem_map_of_mem (List.mem_filter.2 ⟨hm, decide_eq_true hk⟩))
      have hne : old.2.id ≠ added.id := fun he => h (he ▸ hin)
      simp [hk, hne]
    · simp [hk]
  unfold ofKind insert
  dsimp only
  rw [List.filter_cons_of_pos (by simp), hkept]
  rfl

theorem adds_insert (h : added.id ∉ (s.ofKind kind).map Entry.id) :
    s.store.Adds (s.insert kind added).store kind added := by
  have hinsert := ofKind_insert h
  have hget (id : String) (hid : id ≠ added.id) :
      ((s.insert kind added).ofKind kind).find? (fun e => e.id = id) =
        (s.ofKind kind).find? fun e => e.id = id := by
    rw [hinsert, find?_insertBy entry_before_iff, if_neg hid.symm]
  rcases s.answer_cases with ⟨e, hoffline⟩ | honline
  · refine ⟨fun e' he => he ▸ (hoffline _).trans (hoffline _).symm, fun entries he => ?_,
      fun id _ => (hoffline _).trans (hoffline _).symm⟩
    cases (hoffline _).symm.trans he
  · refine ⟨fun e he => ?_, fun entries he => ?_, fun id hid => congrArg s.answer (hget id hid)⟩
    · cases (honline _).symm.trans he
    · cases (honline _).symm.trans he
      exact ⟨_, (honline _).trans (congrArg _ hinsert), insertBy_perm entry_before_iff h⟩

end MemoryStore

namespace Snapshot

variable {n : Network} {home : Store} {kind : Kind} {entries : List Entry} {s s' : Snapshot}
  {row : Row} {a : Artifact}

/-- A snapshot has one more row, under an id of its own. -/
structure Adds (s s' : Snapshot) (row : Row) : Prop where
  perm : s'.rows.Perm (row :: s.rows)
  nodup : (s'.rows.map Row.id).Nodup

theorem Adds.get?_eq (h : s.Adds s' row) {id : String} (hid : id ≠ row.id) :
    s'.get? id = s.get? id := by
  unfold get?
  rw [find?_eq_of_perm Row.id h.perm h.nodup, List.find?_cons_of_neg (by simpa using hid.symm)]

theorem Adds.withArtifact (h : s.Adds s' row) (ha : a.id ≠ row.id) :
    (Project.withArtifact s a).Adds (Project.withArtifact s' a) row := by
  unfold Project.withArtifact
  rw [h.get?_eq ha]
  cases hg : s.get? a.id with
  | some _ => exact h
  | none =>
      have hnew : a.id ∉ s'.rows.map Row.id := get?_eq_none_iff.1 ((h.get?_eq ha).trans hg)
      refine ⟨h.perm.append_right [.artifact a], ?_⟩
      rw [List.map_append, List.map_singleton]
      exact List.nodup_append_comm.2 (List.nodup_cons.2 ⟨hnew, h.nodup⟩)

/-- A row that no row names does not make a cycle and does not break one. -/
theorem Adds.refused_iff (h : s.Adds s' row) (hunnamed : ∀ r ∈ row :: s.rows, row.id ∉ r.createdAfter) :
    (∃ e, Graph.ofItems? s'.rows = .error e) ↔ ∃ e, Graph.ofItems? s.rows = .error e := by
  have hsame := ((Rearranged.of_perm h.perm).sameShape h.nodup).sameOutcome
  have hnew : row.id ∉ s.rows.map Row.id :=
    (List.nodup_cons.1 ((h.perm.map Row.id).nodup_iff.1 h.nodup)).1
  rw [exists_congr hsame.refused_iff]
  exact @Graph.ofItems?_insert_iff Row _ [] s.rows row hunnamed hnew

theorem exists_loaded_alone (hr : n.remotes = []) (hl : home.list kind = .ok entries)
    (hn : (entries.map Entry.id).Nodup) :
    ∃ s, request (load home n kind) = .ok s ∧ s.rows.Perm (entries.map (homeRow n kind)) := by
  obtain ⟨s, missing, hload, h⟩ := exists_loaded (n := n) (by simp [hr]) hl
    fun e he e' he' => List.inj_on_of_nodup_map hn he he'
  refine ⟨s, hload, ?_⟩
  have hnone : missing.filterMap (parentRow? n kind (s.rows.map Row.id)) = [] :=
    List.filterMap_eq_nil_iff.2 fun id _ => parentRow?_of_disclaimed (by simp [hr])
  rw [← List.append_nil (entries.map _), ← hnone]
  exact h.perm

end Snapshot

namespace Project

variable {p p' : Project} {kind : Kind} {x : String} {a : Artifact} {s s' : Snapshot} {row : Row}
  {added : Entry}

/-- A record is added at home. The content of other artifacts stays. -/
structure Adds (p p' : Project) (kind : Kind) (added : Entry) : Prop where
  home : p.home.Adds p'.home kind added
  content : ∀ a, a.id ≠ added.id → p'.content a = p.content a
  network : p'.network = p.network

/-- Two verdicts are the same, or both refuse a cycle, which need not be the same one. -/
def SameVerdict {α : Type} (x y : Except Failure α) : Prop :=
  x = y ∨ ∃ walk walk', x = .error (.graph (.cycle walk)) ∧ y = .error (.graph (.cycle walk'))

theorem SameVerdict.map {α β : Type} {x y : Except Failure α} (h : SameVerdict x y) (f : α → β) :
    SameVerdict (x.map f) (y.map f) := by
  obtain rfl | ⟨walk, walk', rfl, rfl⟩ := h
  · exact .inl rfl
  · exact .inr ⟨walk, walk', rfl, rfl⟩

theorem brokenLinks_congr (n : Network) (h : ∀ id ∈ a.createdAfter, s'.get? id = s.get? id) :
    brokenLinks n a s' = brokenLinks n a s := by
  have hget (id : String) (hid : id ∈ ascending a.createdAfter) : s'.get? id = s.get? id :=
    h id (mem_ascending.1 hid)
  unfold brokenLinks
  dsimp only
  rw [List.filter_congr fun id hid => congrArg (fun row => (row.bind Row.unresolved?).isSome) (hget id hid),
    List.filter_congr fun id hid => congrArg Option.isNone (hget id hid)]

/-- An artifact is judged alike by two snapshots if the one row more of the second is of no concern
to it and to the other rows. -/
theorem sameVerdict_judge (hrow : s.Adds s' row) (hnetwork : p'.network = p.network)
    (hcontent : p'.content a = p.content a) (ha : row.id ∉ a.createdAfter)
    (hunnamed : ∀ r ∈ row :: s.rows, row.id ∉ r.createdAfter) :
    SameVerdict (request (judge p' a s')) (request (judge p a s)) := by
  have hrefused := hrow.refused_iff hunnamed
  have hlinks : brokenLinks p'.network a s' = brokenLinks p.network a s := by
    rw [hnetwork]
    exact brokenLinks_congr _ fun id hid => hrow.get?_eq (ne_of_mem_of_not_mem hid ha)
  have hsummary : p'.summary a = p.summary a := by
    rw [summary, summary, hcontent]
  cases hs : Graph.ofItems? s.rows with
  | error e =>
      obtain ⟨e', hs'⟩ := hrefused.2 ⟨e, hs⟩
      obtain ⟨walk, rfl, -⟩ := Graph.loop_of_ofItems?_eq_error hs
      obtain ⟨walk', rfl, -⟩ := Graph.loop_of_ofItems?_eq_error hs'
      exact .inr ⟨walk', walk, request_judge_of_error hs', request_judge_of_error hs⟩
  | ok g =>
      cases hs' : Graph.ofItems? s'.rows with
      | error e' =>
          obtain ⟨e, he⟩ := hrefused.1 ⟨e', hs'⟩
          cases hs.symm.trans he
      | ok g' =>
          left
          rw [request_judge_of_ok hs', request_judge_of_ok hs, hlinks, hsummary]

theorem get_of_resolve {n : Network} {home : Store} (hr : n.remotes = [])
    (h : request (n.resolve home kind x) = .ok a) : home.get kind x = .ok (some (.own a)) := by
  have hnot {q : Question} {remote : Remote} {b : Artifact} : n.owner? q ≠ some (remote, b) :=
    fun ho => List.not_mem_nil (hr ▸ Network.owner_mem ho)
  cases Network.resolve_eq_ok_iff.1 h with
  | own hg => exact hg
  | referred _ ho | foreign _ ho => exact absurd ho hnot

theorem request_examine_of_own (hg : p.home.get kind x = .ok (some (.own a)))
    (hn : ∀ entries, p.home.list kind = .ok entries → (entries.map Entry.id).Nodup) :
    request (p.examine kind x) =
      (request (p.snapshot kind)).bind fun s => request (judge p a (withArtifact s a)) := by
  have hresolve : request (p.network.resolve p.home kind x) = .ok a := by
    unfold Network.resolve
    rw [hg]
    rfl
  have hlisted (r : Reference) (hr : r ∈ p.refs kind x) :
      ∃ entries, p.home.list kind = .ok entries ∧ .external r ∈ entries := by
    refine (mem_refs.1 hr).resolve_left fun he => ?_
    cases hg.symm.trans he
  rw [request_examine fun r hr r' hr' hid => ?_, hresolve]
  · rfl
  · obtain ⟨entries, hl, he⟩ := hlisted r hr
    obtain ⟨entries', hl', he'⟩ := hlisted r' hr'
    cases hl.symm.trans hl'
    exact Entry.external.inj (List.inj_on_of_nodup_map (hn entries hl) he he' hid)

theorem exists_adds_snapshot (h : p.Adds p' kind added) (hr : p.network.remotes = [])
    {entries : List Entry} (hl : p.home.list kind = .ok entries)
    (hn : (entries.map Entry.id).Nodup)
    (hn' : ∀ entries, p'.home.list kind = .ok entries → (entries.map Entry.id).Nodup) :
    ∃ s s', request (p.snapshot kind) = .ok s ∧ request (p'.snapshot kind) = .ok s' ∧
      s.Adds s' (Snapshot.homeRow p.network kind added) ∧
      ∀ r ∈ s.rows, ∃ e ∈ entries, r.createdAfter = e.createdAfter := by
  obtain ⟨entries', hl', hperm⟩ := h.home.list_ok entries hl
  obtain ⟨s, hs, hrows⟩ := Snapshot.exists_loaded_alone hr hl hn
  obtain ⟨s', hs', hrows'⟩ := Snapshot.exists_loaded_alone hr hl' (hn' entries' hl')
  have hsnapshot : request (p'.snapshot kind) = .ok s' := by
    rw [snapshot, h.network, hs']
  refine ⟨s, s', hs, hsnapshot, ⟨?_, ?_⟩, fun r hm => ?_⟩
  · exact (hrows'.trans (hperm.map _)).trans (hrows.symm.cons _)
  · rw [(hrows'.map Row.id).nodup_iff, Snapshot.map_id_homeRow (by simp [hr])]
    exact hn' entries' hl'
  · obtain ⟨e, he, rfl⟩ := List.mem_map.1 (hrows.mem_iff.1 hm)
    exact ⟨e, he, Snapshot.homeRow_createdAfter p.network kind e⟩

/-- A record that has nothing to do with an artifact does not change what is said of the artifact,
whatever is wrong with the record: where there are no remotes, both times a cycle is refused or both
times the answer is the same. -/
theorem validate_ignores_unrelated (h : p.Adds p' kind added) (hr : p.network.remotes = [])
    (hn : ∀ entries, p.home.list kind = .ok entries → (entries.map Entry.id).Nodup)
    (hu : p.home.Unrelated kind added x) :
    SameVerdict (request (p'.validate kind x)) (request (p.validate kind x)) := by
  rw [request_validate, request_validate]
  refine SameVerdict.map ?_ Prod.snd
  have hget := h.home.get x hu.other.symm
  have hresolve : p'.network.resolve p'.home kind x = p.network.resolve p.home kind x := by
    rw [Network.resolve, Network.resolve, hget, h.network]
  cases ha : request (p.network.resolve p.home kind x) with
  | error e =>
      left
      rw [examine_eq, examine_eq, hresolve, Network.request_andThen_of_error ha,
        Network.request_andThen_of_error ha]
  | ok a =>
      have hg := get_of_resolve hr ha
      have hn' := h.home.nodup hu.fresh hn
      rw [request_examine_of_own hg hn, request_examine_of_own (hget.trans hg) hn']
      cases hl : p.home.list kind with
      | error e =>
          left
          rw [request_snapshot_of_error hl, request_snapshot_of_error (h.home.list_error e hl)]
          rfl
      | ok entries =>
          obtain ⟨s, s', hs, hs', hrow, hnamed⟩ :=
            exists_adds_snapshot h hr hl (hn entries hl) hn'
          have hid : (Snapshot.homeRow p.network kind added).id = added.id :=
            Snapshot.homeRow_id (by simp [hr]) kind added
          have hold : p.home.Holds kind (.own a) := .inr ⟨x, hg⟩
          rw [hs, hs']
          refine sameVerdict_judge (hrow.withArtifact (hid ▸ hu.fresh _ hold)) h.network
            (h.content a (hu.fresh _ hold)) (hid ▸ hu.unnamed _ hold) fun r hm => ?_
          rw [hid]
          rcases List.mem_cons.1 hm with rfl | hm
          · rw [Snapshot.homeRow_createdAfter]
            exact hu.unnamed_self
          · rcases mem_withArtifact hm with hm | rfl
            · obtain ⟨e, he, hafter⟩ := hnamed r hm
              rw [hafter]
              exact hu.unnamed e (.inl ⟨entries, hl, he⟩)
            · exact hu.unnamed _ hold

def strandedApp : Artifact := ⟨"app", .chunk, .chunk .future, ["ghost"], [], .home⟩

def stray : Entry := .external ⟨"stray", .chunk, ⟨"gone", none, none⟩, ["app", "nowhere"]⟩

theorem validate_ignores_stray :
    let home := (MemoryStore.named "home").insertArtifact strandedApp
    let home' := home.insert .chunk stray
    let p : Project := ⟨home.store, home.content, ⟨[], none⟩⟩
    let p' : Project := ⟨home'.store, home'.content, ⟨[], none⟩⟩
    p.Adds p' .chunk stray ∧ p.network.remotes = [] ∧
      (∀ entries, p.home.list .chunk = .ok entries → (entries.map Entry.id).Nodup) ∧
      p.home.Unrelated .chunk stray "app" ∧
      request (p.validate .chunk "app") = .ok [strandedApp.brokenLink "ghost"] ∧
      request (p'.validate .chunk "app") = .ok [strandedApp.brokenLink "ghost"] := by
  intro home home' p p'
  have hadds : p.Adds p' .chunk stray :=
    ⟨MemoryStore.adds_insert (by decide +kernel), fun _ _ => rfl, rfl⟩
  have hn : ∀ entries, p.home.list .chunk = .ok entries → (entries.map Entry.id).Nodup := by
    intro entries hl
    cases hl
    decide +kernel
  have hall : ∀ e ∈ home.ofKind .chunk, e.id ≠ stray.id ∧ stray.id ∉ e.createdAfter := by
    decide +kernel
  have hu : p.home.Unrelated .chunk stray "app" :=
    ⟨by decide, fun e he => (hall e (MemoryStore.mem_of_holds he)).1,
      fun e he => (hall e (MemoryStore.mem_of_holds he)).2, by decide⟩
  have hbefore : request (p.validate .chunk "app") = .ok [strandedApp.brokenLink "ghost"] := by
    decide +kernel
  refine ⟨hadds, rfl, hn, hu, hbefore, ?_⟩
  rcases validate_ignores_unrelated hadds rfl hn hu with he | ⟨walk, walk', -, hcycle⟩
  · exact he.trans hbefore
  · cases hbefore.symm.trans hcycle

end Project

end CausalWork
