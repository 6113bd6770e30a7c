import CausalWork.Proofs.Graph.Cycle
import CausalWork.Proofs.Graph.Order
import CausalWork.Proofs.Snapshot.Load
import CausalWork.Proofs.Store

namespace CausalWork.Snapshot

open Project (request)

variable {n : Network} {home : Store} {kind : Kind} {entries : List Entry} {missing : List String}
  {s : Snapshot}

/-- What a snapshot shows of the records at home and of what the remotes tell. -/
structure Contents (n : Network) (kind : Kind) (entries : List Entry) (s : Snapshot) : Prop where
  ascending : (s.rows.map Row.id).Pairwise (· < ·)
  ids : ∀ id, id ∈ s.rows.map Row.id ↔ id ∈ entries.map Entry.id ∨ Lacks entries id ∧
    (n.Claims ⟨kind, id, none⟩ ∨ n.Fails ⟨kind, id, none⟩ ∧ ¬ n.Claims ⟨kind, id, none⟩)
  own : ∀ a, .own a ∈ entries → .artifact a ∈ s.rows
  claimed : ∀ r, .external r ∈ entries → n.Claims r.question →
    ∃ remote a, n.owner? r.question = some (remote, a) ∧ .artifact (r.claim a) ∈ s.rows
  unclaimed : ∀ r, .external r ∈ entries → ¬ n.Claims r.question →
    ∃ reason, .unresolved ⟨r.id, kind, some r.locator, r.createdAfter, reason⟩ ∈ s.rows
  malformed : ∀ id reason, .malformed id reason ∈ entries →
    .unresolved ⟨id, kind, none, [], "malformed record: " ++ reason⟩ ∈ s.rows
  pulled : ∀ id, Lacks entries id → n.Claims ⟨kind, id, none⟩ →
    ∃ remote a, n.owner? ⟨kind, id, none⟩ = some (remote, a) ∧
      .artifact { a with
        source := .external remote.locator
        createdAfter := a.createdAfter.filter (· ∈ s.rows.map Row.id) } ∈ s.rows
  unreached : ∀ id, Lacks entries id → n.Fails ⟨kind, id, none⟩ → ¬ n.Claims ⟨kind, id, none⟩ →
    ∃ reason, .unresolved ⟨id, kind, none, [], reason⟩ ∈ s.rows
  dangling : ∀ e, e ∈ s.dangling ↔
    (∃ entry ∈ entries, entry.id = e.child ∧ e.parent ∈ entry.createdAfter) ∧
      e.parent ∉ entries.map Entry.id ∧
      ∀ r ∈ n.remotes, r.ask n.deadline kind e.parent = .disclaimed
  refused : ∀ e, s.listing = .error (.graph (.dangling e)) ↔ s.dangling.head? = some e
  listed : ∀ rows, s.listing = .ok rows → rows.Perm s.rows

namespace Loaded

variable (h : Loaded n kind entries missing s)

include h

theorem mem_rows {row : Row} : row ∈ s.rows ↔
    (∃ e ∈ entries, homeRow n kind e = row) ∨
      ∃ id, Lacks entries id ∧ parentRow? n kind (s.rows.map Row.id) id = some row := by
  rw [h.perm.mem_iff, List.mem_append, List.mem_map, List.mem_filterMap]
  simp only [h.lacks]

variable (hs : ∀ r ∈ n.remotes, r.store.Honest)

include hs

theorem mem_ids {id : String} : id ∈ s.rows.map Row.id ↔ id ∈ entries.map Entry.id ∨
    Lacks entries id ∧ (n.Claims ⟨kind, id, none⟩ ∨ n.Fails ⟨kind, id, none⟩) := by
  rw [List.mem_map]
  simp only [h.mem_rows]
  constructor
  · rintro ⟨row, ⟨e, he, rfl⟩ | ⟨id, hl, hr⟩, rfl⟩
    · rw [homeRow_id hs]
      exact .inl (List.mem_map_of_mem he)
    · rw [parentRow?_id hs hr]
      exact .inr ⟨hl, (parentRow?_isSome _).1 (by rw [hr]; rfl)⟩
  · rintro (hin | ⟨hl, htold⟩)
    · obtain ⟨e, he, rfl⟩ := List.mem_map.1 hin
      exact ⟨_, .inl ⟨e, he, rfl⟩, homeRow_id hs kind e⟩
    · obtain ⟨row, hr⟩ := Option.isSome_iff_exists.1
        ((parentRow?_isSome (s.rows.map Row.id)).2 htold)
      exact ⟨row, .inr ⟨id, hl, hr⟩, parentRow?_id hs hr⟩

theorem nodup_ids (hd : (entries.map Entry.id).Nodup) : (s.rows.map Row.id).Nodup := by
  have hid (id id' : String)
      (hr : id' ∈ (parentRow? n kind (s.rows.map Row.id) id).map Row.id) : id' = id := by
    obtain ⟨row, hrow, rfl⟩ := Option.map_eq_some_iff.1 hr
    exact parentRow?_id hs hrow
  rw [(h.perm.map Row.id).nodup_iff, List.map_append, map_id_homeRow hs, List.map_filterMap,
    List.nodup_append]
  refine ⟨hd, h.nodup.filterMap fun id id' x hx hx' => ?_, ?_⟩
  · exact (hid id x hx).symm.trans (hid id' x hx')
  · rintro id he x hx rfl
    obtain ⟨id', hm, hr⟩ := List.mem_filterMap.1 hx
    obtain rfl := hid id' id hr
    exact ((h.lacks id).1 hm).2 he

theorem mem_dangling {e : Edge} : e ∈ s.dangling ↔
      (∃ entry ∈ entries, entry.id = e.child ∧ e.parent ∈ entry.createdAfter) ∧
        e.parent ∉ s.rows.map Row.id := by
  rw [dangling, mem_danglingEdges]
  constructor
  · rintro ⟨row, hm, hchild, hp, hn⟩
    refine ⟨?_, hn⟩
    rcases h.mem_rows.1 hm with ⟨entry, he, rfl⟩ | ⟨id, hl, hr⟩
    · exact ⟨entry, he, (homeRow_id hs kind entry).symm.trans hchild,
        homeRow_createdAfter n kind entry ▸ hp⟩
    · exact absurd (parentRow?_createdAfter hr _ hp) hn
  · rintro ⟨⟨entry, he, hchild, hp⟩, hn⟩
    rw [← homeRow_createdAfter n kind entry] at hp
    exact ⟨_, h.mem_rows.2 (.inl ⟨entry, he, rfl⟩), (homeRow_id hs kind entry).trans hchild, hp, hn⟩

theorem notMem_ids_iff {e : Entry} (he : e ∈ entries) {id : String} (hp : id ∈ e.createdAfter) :
    id ∉ s.rows.map Row.id ↔ id ∉ entries.map Entry.id ∧
      ∀ r ∈ n.remotes, r.ask n.deadline kind id = .disclaimed := by
  have hdisclaimed := Network.disclaimed_iff (n := n) (q := ⟨kind, id, none⟩)
  rw [h.mem_ids hs, not_or]
  refine and_congr_right fun hout => ?_
  have hl : Lacks entries id := ⟨⟨e, he, hp⟩, hout⟩
  rw [and_iff_right hl, not_or]
  exact hdisclaimed

end Loaded

theorem perm_of_listing (hn : (s.rows.map Row.id).Nodup) {rows : List Row}
    (h : s.listing = .ok rows) : rows.Perm s.rows := by
  unfold listing at h
  cases hg : Graph.ofClosed? s.rows with
  | error e =>
      rw [hg] at h
      cases h
  | ok g =>
      rw [hg] at h
      cases h
      obtain ⟨rfl, hc⟩ := Graph.ofItems?_eq_ok (Graph.ofClosed?_eq_ok hg)
      obtain ⟨ids, -, hgreedy, he⟩ := Graph.topologicalOrder_ofNodes hc
      have hl := Graph.linear_of_extends hgreedy.extends
      rw [Graph.causalOrder, he]
      refine (List.reverse_perm _).trans ?_
      refine (List.perm_ext_iff_of_nodup (hl.nodup.of_map _) (hn.of_map _)).2 fun row => ?_
      rw [hl.mem, find?_key_iff CausalNode.label hn, and_iff_left rfl]

theorem listing_eq_dangling_iff {e : Edge} :
    s.listing = .error (.graph (.dangling e)) ↔ s.dangling.head? = some e := by
  have hc : Graph.ofClosed? s.rows = .error (.dangling e) ↔ _ := Graph.ofClosed?_eq_dangling_iff
  rw [dangling, List.head?_eq_some_iff, ← hc]
  unfold listing
  cases Graph.ofClosed? s.rows <;> simp

theorem Loaded.contents (h : Loaded n kind entries missing s)
    (hs : ∀ r ∈ n.remotes, r.store.Honest) (hd : (entries.map Entry.id).Nodup) :
    Contents n kind entries s where
  ascending := List.pairwise_map.2
    ((h.sorted.and (List.pairwise_map.1 (h.nodup_ids hs hd))).imp
      fun hab => lt_of_le_of_ne hab.1 hab.2)
  ids := by
    intro id
    rw [h.mem_ids hs]
    by_cases hc : n.Claims ⟨kind, id, none⟩ <;> simp [hc]
  own a ha := h.mem_rows.2 (.inl ⟨_, ha, rfl⟩)
  claimed := by
    intro r hr hc
    obtain ⟨remote, a, ho⟩ := Network.claims_iff.1 hc
    exact ⟨remote, a, ho, h.mem_rows.2 (.inl ⟨_, hr, homeRow_of_owner ho kind⟩)⟩
  unclaimed := by
    intro r hr hc
    obtain ⟨reason, he⟩ := homeRow_of_unclaimed hc kind
    exact ⟨reason, h.mem_rows.2 (.inl ⟨_, hr, he⟩)⟩
  malformed id reason hm := h.mem_rows.2 (.inl ⟨_, hm, rfl⟩)
  pulled := by
    intro id hl hc
    obtain ⟨remote, a, ho⟩ := Network.claims_iff.1 hc
    exact ⟨remote, a, ho, h.mem_rows.2 (.inr ⟨id, hl, parentRow?_of_owner ho⟩)⟩
  unreached := by
    intro id hl hf hc
    obtain ⟨reason, hr⟩ := parentRow?_of_fails (s.rows.map Row.id) hc hf
    exact ⟨reason, h.mem_rows.2 (.inr ⟨id, hl, hr⟩)⟩
  dangling := by
    intro e
    rw [h.mem_dangling hs]
    refine and_congr_right fun hnamed => ?_
    obtain ⟨entry, he, -, hp⟩ := hnamed
    exact h.notMem_ids_iff hs he hp
  refused e := listing_eq_dangling_iff
  listed rows := perm_of_listing (h.nodup_ids hs hd)

/-- A kind can be loaded whenever its records at home can be listed. The snapshot has one row for
each record and for each missing parent that some remote owns or cannot tell about. -/
theorem load_contents (home : Store) (n : Network) (kind : Kind)
    (hs : ∀ r ∈ n.remotes, r.store.Honest)
    (hd : ∀ entries, home.list kind = .ok entries → (entries.map Entry.id).Nodup) :
    (∀ e, home.list kind = .error e → request (load home n kind) = .error (.ofStore e)) ∧
      ∀ entries, home.list kind = .ok entries →
        ∃ s, request (load home n kind) = .ok s ∧ Contents n kind entries s := by
  constructor
  · intro e hl
    unfold request load
    rw [hl]
    rfl
  · intro entries hl
    have hn := hd entries hl
    obtain ⟨s, missing, hload, h⟩ :=
      exists_loaded hs hl fun e he e' he' => List.inj_on_of_nodup_map hn he he'
    exact ⟨s, hload, h.contents hs hn⟩

def sampleHome : MemoryStore :=
  (MemoryStore.named "home")
    |>.insertArtifact ⟨"app", .chunk, .chunk .future, ["ghost", "parser", "tool", "vault", "zlib"],
        [], .home⟩
    |>.insertReference ⟨"parser", .chunk, ⟨"lib", some "main", none⟩, []⟩
    |>.insertReference ⟨"tool", .chunk, ⟨"gone", none, none⟩, ["parser"]⟩
    |>.insert .chunk (.malformed "junk" "<yaml>")

def sampleRemote : MemoryStore :=
  (MemoryStore.named "lib")
    |>.insertArtifact ⟨"parser", .chunk, .chunk .future, ["zlib"], [], .home⟩
    |>.insertArtifact ⟨"zlib", .chunk, .chunk .future, ["parser", "stub"], [], .home⟩
    |>.insert .chunk (.malformed "vault" "<yaml>")

def sampleNetwork : Network := ⟨[⟨⟨"lib", none, none⟩, sampleRemote.store⟩], none⟩

theorem honest_sampleNetwork : ∀ r ∈ sampleNetwork.remotes, r.store.Honest := by
  intro r hr
  obtain rfl := List.mem_singleton.1 hr
  have hfiled : sampleRemote.Filed :=
    (((MemoryStore.filed_named "lib").insertArtifact _).insertArtifact _).insert trivial
  exact hfiled.honest

/-- Of three parents that home lacks, the remote owns one, fails on one and disclaims one. -/
theorem load_contents_sample :
    (∀ r ∈ sampleNetwork.remotes, r.store.Honest) ∧
      ∃ entries s, sampleHome.store.list .chunk = .ok entries ∧ (entries.map Entry.id).Nodup ∧
        request (load sampleHome.store sampleNetwork .chunk) = .ok s ∧
        Contents sampleNetwork .chunk entries s ∧ "vault" ∈ s.rows.map Row.id ∧
        "zlib" ∈ s.rows.map Row.id ∧ ⟨"app", "ghost"⟩ ∈ s.dangling := by
  have hd : ∀ entries, sampleHome.store.list .chunk = .ok entries →
      (entries.map Entry.id).Nodup := by
    intro entries hl
    cases hl
    decide +kernel
  obtain ⟨s, hload, hc⟩ :=
    (load_contents sampleHome.store sampleNetwork .chunk honest_sampleNetwork hd).2 _ rfl
  have hlacks : ∀ id ∈ ["zlib", "vault"], Lacks (sampleHome.ofKind .chunk) id := by
    unfold Lacks
    decide +kernel
  have hzlib : sampleNetwork.Claims ⟨.chunk, "zlib", none⟩ := ⟨_, List.mem_cons_self, _, rfl⟩
  have hvault : sampleNetwork.Fails ⟨.chunk, "vault", none⟩ := ⟨_, List.mem_cons_self, _, rfl⟩
  have hnot : ¬ sampleNetwork.Claims ⟨.chunk, "vault", none⟩ := by
    rintro ⟨r, hr, a, ha⟩
    obtain rfl := List.mem_singleton.1 hr
    cases ha
  refine ⟨honest_sampleNetwork, _, s, rfl, hd _ rfl, hload, hc, ?_, ?_, ?_⟩
  · exact (hc.ids "vault").2 (.inr ⟨hlacks _ (by decide), .inr ⟨hvault, hnot⟩⟩)
  · exact (hc.ids "zlib").2 (.inr ⟨hlacks _ (by decide), .inl hzlib⟩)
  · refine (hc.dangling ⟨"app", "ghost"⟩).2 ⟨by decide +kernel, by decide +kernel, ?_⟩
    intro r hr
    obtain rfl := List.mem_singleton.1 hr
    rfl

end CausalWork.Snapshot
