import CausalWork.Proofs.FileTree.Walk
import CausalWork.Proofs.Snapshot.Kept
import CausalWork.Proofs.Store

namespace CausalWork

open Project (request)

inductive Remote.Kept : Remote → Prop
  | memory (locator : Locator) {s : MemoryStore} (h : s.Filed) : Kept ⟨locator, s.store⟩
  | files (locator : Locator) (s : FileStore) : Kept ⟨locator, s.store⟩

/-- A remote that cannot be consulted about an id: it is offline, too slow, or its files fail. -/
inductive Remote.Unreached (deadline : Option Nat) (kind : Kind) (id : String) : Remote → Prop
  | offline (locator : Locator) {s : MemoryStore} (h : s.offline) :
      Unreached deadline kind id ⟨locator, s.store⟩
  | late {r : Remote} (h : r.isLate deadline id) : Unreached deadline kind id r
  | broken (locator : Locator) {s : FileStore} {e : StoreError} (h : s.get kind id = .error e) :
      Unreached deadline kind id ⟨locator, s.store⟩

namespace Remote

variable {r : Remote} {deadline : Option Nat} {kind : Kind} {id : String}

theorem Kept.honest (h : r.Kept) : r.store.Honest := by
  cases h with
  | memory locator h => exact h.honest
  | files locator s => exact s.honest_store

theorem ask_of_error {e : StoreError} (h : r.store.get kind id = .error e) :
    ∃ reason, r.ask deadline kind id = .failed reason := by
  unfold ask
  rw [h]
  dsimp only
  split <;> exact ⟨_, rfl⟩

theorem Unreached.ask (h : r.Unreached deadline kind id) :
    ∃ reason, r.ask deadline kind id = .failed reason := by
  cases h with
  | @offline locator s hoff =>
      have hget : s.store.get kind id = .error (.unavailable s.name "store is offline") := if_pos hoff
      exact ask_of_error hget
  | late hlate =>
      unfold Remote.ask
      dsimp only
      rw [if_pos hlate]
      exact ⟨_, rfl⟩
  | broken locator herror => exact ask_of_error herror

end Remote

namespace Network

variable {n : Network} {ws ws' : Set Wanted} {m : Memo} {kind : Kind}

theorem eq_error_of_map {view : Artifact → Artifact} {x : Except Failure Artifact} {e : Failure}
    (h : x.map view = .error e) : x = .error e := by
  cases x with
  | ok a => cases h
  | error e' =>
      cases h
      rfl

theorem resolveForeign_kept {id : String} {e : Failure}
    (h : request (n.resolveForeign kind id) = .error e)
    (hm : n.Recalls Set.univ m) : (n.resolveForeign kind id m).1 = .error e := by
  have hsteady : n.Steady Set.univ (Except.map Artifact.unpinned) (n.resolveForeign kind id) :=
    steady_resolveForeign (n.alike_unpinned _) trivial
  exact eq_error_of_map ((hsteady m hm).1.trans (congrArg (Except.map Artifact.unpinned) h))

theorem mem_resolveIds {ids : List String} {p reason : String} (hp : p ∈ ids)
    (h : request (n.resolveForeign kind p) = .error (.unresolved p reason))
    (hm : n.Recalls Set.univ m) :
    (p, .error (.unresolved p reason)) ∈ (n.resolveIds kind ids m).1 := by
  have hsteady : n.Steady Set.univ (List.map (Prod.map id (Except.map Artifact.unpinned)))
      (n.resolveIds kind ids) := steady_resolveIds (n.alike_unpinned _) kind fun _ _ => trivial
  have hmap : _ = (request (n.resolveIds kind ids)).map _ := (hsteady m hm).1
  rw [request_resolveIds, List.map_map] at hmap
  have hseen := List.mem_map_of_mem (f := fun p => (p, (request (n.resolveForeign kind p)).map
    Artifact.unpinned)) hp
  rw [h] at hseen
  obtain ⟨⟨p', told⟩, htold, he⟩ := List.mem_map.1 (hmap ▸ hseen)
  obtain ⟨rfl, he⟩ := Prod.mk.inj he
  cases eq_error_of_map he
  exact htold

end Network

namespace Snapshot

variable {n : Network} {m : Memo} {home : Store} {kind : Kind} {entries : List Entry} {id : String}

theorem mem_missingParents_kept (hs : ∀ r ∈ n.remotes, r.store.Honest)
    (hm : n.Recalls Set.univ m) : id ∈ missingParents (entries.filterMap (homeRow? kind) ++
      (n.resolveReferences (entries.filterMap reference?) m).1.map (referenceRow kind)) ↔
        Lacks entries id := by
  rw [← mem_missingParents hs (perm_homeRows n kind entries), ← missingParents_unpinned,
    homeRows_unpinned kind entries (seen_resolveReferences _ hm), missingParents_unpinned]

theorem complete_unreached {rows : List Row} {reason : String} (hremotes : n.hasRemotes)
    (hid : id ∈ missingParents rows)
    (h : request (n.resolveForeign kind id) = .error (.unresolved id reason))
    (hm : n.Recalls Set.univ m) : ∃ s, (complete n kind rows m).1 = .ok s ∧
      .unresolved ⟨id, kind, none, [], (Failure.unresolved id reason).message⟩ ∈ s.rows := by
  have htold := Network.mem_resolveIds hid h hm
  refine ⟨⟨kind, sorted (addParents kind rows (n.resolveIds kind (missingParents rows) m).1)⟩, ?_,
    ?_⟩
  · unfold complete
    rw [if_pos hremotes]
    rfl
  · have hrow := List.mem_filterMap.2 ⟨_, htold, show unreachedRow? kind _ = some _ from rfl⟩
    exact (sorted_perm _).mem_iff.2 (List.mem_append_left _ (List.mem_append_right _ hrow))

theorem load_unreached {reason : String} (hs : ∀ r ∈ n.remotes, r.store.Honest)
    (hremotes : n.hasRemotes) (hl : home.list kind = .ok entries) (hlacks : Lacks entries id)
    (h : request (n.resolveForeign kind id) = .error (.unresolved id reason))
    (hm : n.Recalls Set.univ m) : ∃ s, (load home n kind m).1 = .ok s ∧
      .unresolved ⟨id, kind, none, [], (Failure.unresolved id reason).message⟩ ∈ s.rows := by
  have hm' : n.Recalls Set.univ (n.resolveReferences (entries.filterMap reference?) m).2 :=
    (Network.steady_resolveReferences (n.alike_unpinned Set.univ) (by simp) m hm).2
  rw [load_eq n hl]
  exact complete_unreached hremotes ((mem_missingParents_kept hs hm).2 hlacks) h hm'

theorem parent_ne_of_mem_dangling {s : Snapshot} {row : Row} (h : row ∈ s.rows) :
    ∀ e ∈ s.dangling, e.parent ≠ row.id := by
  intro e he hp
  obtain ⟨-, -, -, -, hn⟩ := mem_danglingEdges.1 he
  exact hn (List.mem_map.2 ⟨row, h, hp.symm⟩)

end Snapshot

theorem FileStore.get_of_root_missing {s : FileStore} {kind : Kind} {id : String}
    (hroot : s.tree.node? s.root = .error .notFound) (hne : s.root ≠ "")
    (hnul : '\x00' ∉ id.toList)
    (hshort : (Path.join (s.kindDirectory kind) id).utf8ByteSize ≤ FileTree.longestPath) :
    s.get kind id = .ok none := by
  unfold get
  by_cases hp : Path.isPlain id
  · have hslash := ((Path.isPlain_iff id).1 hp).2.1
    have hplural : Path.isPlain kind.plural ∧ '\x00' ∉ kind.plural.toList := by
      cases kind <;> decide
    have hfree := (FileTree.check_eq_ok_iff.1 (FileTree.check_of_notFound hroot hne)).1
    have hcheck : FileTree.check (s.kindDirectory kind) = .ok () := by
      refine (FileTree.check_join hfree hplural.1 hplural.2).trans (if_neg (Nat.not_lt.2 ?_))
      exact (Path.utf8ByteSize_le_join _ hslash).trans hshort
    obtain ⟨hfree', -, hne'⟩ := FileTree.check_eq_ok_iff.1 hcheck
    have hkind := FileTree.node?_join_of_error hroot hne hplural.1 hcheck
    have hdirectory := FileTree.node?_join_of_error hkind hne' hp
      ((FileTree.check_join hfree' hp hnul).trans (if_neg (Nat.not_lt.2 hshort)))
    have hthere : s.tree.isThere (Path.join (s.kindDirectory kind) id) = .ok false := by
      rw [FileTree.isThere, kindDirectory, hdirectory]
    simp [hp, hthere, attempt, bind, Except.bind, pure, Except.pure]
  · simp [hp, pure, Except.pure]

namespace Network

open Snapshot (Lacks load)

/-- Where no remote tells of an id and one of them cannot be consulted, the id is unresolved and not
unknown, whatever was asked before, and a parent of that id has a row and is not dangling. Where all
remotes can be consulted it is unknown. But a file store whose root is not there can be consulted:
it disclaims every id. -/
theorem unreached_unresolved (n : Network) (home : Store) (kind : Kind) (id : String)
    (calls : List Inquiry) (hkept : ∀ r ∈ n.remotes, r.Kept)
    (hnone : ∀ r ∈ n.remotes, ∀ a, r.ask n.deadline kind id ≠ .owned a) :
    let memo := (calls.mapM (n.answer home) Memo.empty).2
    ((∃ r ∈ n.remotes, r.Unreached n.deadline kind id) → ∃ reason,
      (home.get kind id = .ok none →
        (n.resolve home kind id memo).1 = .error (.unresolved id reason)) ∧
      (n.resolveForeign kind id memo).1 = .error (.unresolved id reason) ∧
      ∀ entries, home.list kind = .ok entries → Lacks entries id →
        ∃ s, (load home n kind memo).1 = .ok s ∧
          .unresolved ⟨id, kind, none, [], (Failure.unresolved id reason).message⟩ ∈ s.rows ∧
          ∀ e ∈ s.dangling, e.parent ≠ id) ∧
    ((∀ r ∈ n.remotes, r.ask n.deadline kind id = .disclaimed) →
      (n.resolveForeign kind id memo).1 = .error (.notFound kind id)) ∧
    ∀ s : FileStore, s.tree.node? s.root = .error .notFound → s.root ≠ "" → '\x00' ∉ id.toList →
      (Path.join (s.kindDirectory kind) id).utf8ByteSize ≤ FileTree.longestPath →
      s.get kind id = .ok none := by
  intro memo
  have hmemo : n.Recalls Set.univ memo := recalls_calls n home calls
  refine ⟨fun ⟨r, hr, hunreached⟩ => ?_,
    fun hall => resolveForeign_kept (resolveForeign_of_disclaimed hall) hmemo,
    fun s => FileStore.get_of_root_missing⟩
  have hs : ∀ r ∈ n.remotes, r.store.Honest := fun r hr => (hkept r hr).honest
  have hc : ¬ n.Claims ⟨kind, id, none⟩ := fun ⟨r, hr, a, ha⟩ => hnone r hr a ha
  have hf : n.Fails ⟨kind, id, none⟩ := ⟨r, hr, hunreached.ask⟩
  have hremotes : n.hasRemotes := by
    simpa [hasRemotes] using List.ne_nil_of_mem hr
  obtain ⟨reason, hfresh⟩ := resolveForeign_of_fails hc hf
  have htold := resolveForeign_kept hfresh hmemo
  refine ⟨reason, fun hget => ?_, htold, fun entries hl hlacks => ?_⟩
  · rw [resolve_eq_of_get_none hget]
    exact htold
  · obtain ⟨s, hload, hrow⟩ := Snapshot.load_unreached hs hremotes hl hlacks hfresh hmemo
    exact ⟨s, hload, hrow, Snapshot.parent_ne_of_mem_dangling hrow⟩

def sampleChild : MemoryStore :=
  (MemoryStore.named "home").insertArtifact
    ⟨"app", .chunk, .chunk .future, ["parser"], [], .home⟩

def sampleFiles (root : String) : FileStore := ⟨"lib", root, ⟨.directory [("here", Node.empty)], []⟩, 0⟩

theorem unreached_unresolved_offline :
    let vault : MemoryStore := { MemoryStore.named "vault" with offline := true }
    let n : Network := ⟨[⟨⟨"lib", none, none⟩, (sampleFiles "/here").store⟩,
      ⟨⟨"vault", none, none⟩, vault.store⟩], none⟩
    (∀ r ∈ n.remotes, r.Kept) ∧
      (∀ r ∈ n.remotes, ∀ a, r.ask n.deadline .chunk "parser" ≠ .owned a) ∧
      ∃ reason, request (n.resolve sampleChild.store .chunk "parser") =
          .error (.unresolved "parser" reason) ∧
        ∃ s, request (load sampleChild.store n .chunk) = .ok s ∧
          (∃ message, .unresolved ⟨"parser", .chunk, none, [], message⟩ ∈ s.rows) ∧
          ∀ e ∈ s.dangling, e.parent ≠ "parser" := by
  intro vault n
  have hkept : ∀ r ∈ n.remotes, r.Kept :=
    List.forall_mem_cons.2 ⟨.files _ _,
      List.forall_mem_singleton.2 (.memory _ (MemoryStore.filed_named "vault"))⟩
  have hnone : ∀ r ∈ n.remotes, ∀ a, r.ask n.deadline .chunk "parser" ≠ .owned a := by
    refine List.forall_mem_cons.2 ⟨fun a ha => ?_, List.forall_mem_singleton.2 fun a ha => ?_⟩
    · have hdisclaims : (⟨⟨"lib", none, none⟩, (sampleFiles "/here").store⟩ : Remote).ask none .chunk
          "parser" = .disclaimed := by
        decide +kernel
      cases hdisclaims.symm.trans ha
    · cases ha
  obtain ⟨hunreached, -⟩ := unreached_unresolved n sampleChild.store .chunk "parser" [] hkept hnone
  obtain ⟨reason, hresolve, -, hload⟩ :=
    hunreached ⟨_, List.mem_cons_of_mem _ List.mem_cons_self, .offline _ rfl⟩
  obtain ⟨s, hs, hrow, hdangling⟩ := hload (sampleChild.ofKind .chunk) rfl (by
    unfold Lacks
    decide +kernel)
  exact ⟨hkept, hnone, reason, hresolve (by decide +kernel), s, hs, ⟨_, hrow⟩, hdangling⟩

/-- A root that is not there makes a list fail, but to ask for an id there ends as if it was not
owned, and the edge to it dangles. -/
theorem missing_root_taken_for_unknown :
    let n : Network := ⟨[⟨⟨"lib", none, none⟩, (sampleFiles "/gone").store⟩], none⟩
    (sampleFiles "/gone").list .chunk =
        .error (.unavailable "lib" "root directory does not exist: /gone") ∧
      sampleChild.store.get .chunk "parser" = .ok none ∧
      request (n.resolve sampleChild.store .chunk "parser") = .error (.notFound .chunk "parser") ∧
      request (n.resolveForeign .chunk "parser") = .error (.notFound .chunk "parser") ∧
      (request (load sampleChild.store n .chunk)).map Snapshot.dangling =
        .ok [⟨"app", "parser"⟩] := by
  decide +kernel

end Network

end CausalWork
