import CausalWork.Proofs.Graph.Seed
import CausalWork.Proofs.Graph.Tips
import CausalWork.Proofs.Snapshot.Contents

namespace CausalWork

open CausalNode
open Project (request)

namespace Graph

variable {α : Type} [CausalNode α] {items : List α} {g : Graph α}

theorem causalOrder_parents_last (h : ofClosed? items = .ok g) {before rest : List α} {node : α}
    (hsplit : g.causalOrder = before ++ node :: rest) {parent : String} (hp : parent ∈ after node) :
    parent ∈ rest.map label := by
  have hclosed := not_dangling_of_ofClosed? h
  have hl := linear_topologicalOrder (ofClosed?_eq_ok h)
  have horder := topologicalOrder_of_split hsplit
  have hnode : node ∈ items :=
    List.mem_of_find?_eq_some ((hl.mem node).1 (by simp [horder]))
  have hitem : parent ∈ items.map label := by
    by_cases hm : parent ∈ items.map label
    · exact hm
    · exact absurd ⟨node, hnode, rfl, hp, hm⟩ (hclosed ⟨label node, parent⟩)
  have hrest := hl.parents_first _ _ _ horder parent hp hitem
  rwa [List.map_reverse, List.mem_reverse] at hrest

end Graph

namespace Snapshot

variable {home : Store} {n : Network} {kind : Kind} {s : Snapshot} {rows : List Row}

theorem exists_list_of_load (h : request (load home n kind) = .ok s) :
    s.kind = kind ∧ ∃ entries, home.list kind = .ok entries := by
  cases hl : home.list kind with
  | error e =>
      rw [request, load_of_error n hl] at h
      cases h
  | ok entries =>
      refine ⟨?_, entries, rfl⟩
      rw [load_eq n hl] at h
      unfold complete at h
      split at h
      all_goals
        cases h
        rfl

theorem exists_graph_of_listing (h : s.listing = .ok rows) :
    ∃ g, Graph.ofClosed? s.rows = .ok g ∧ g.causalOrder = rows := by
  unfold listing at h
  cases hg : Graph.ofClosed? s.rows with
  | error e =>
      rw [hg] at h
      cases h
  | ok g =>
      rw [hg] at h
      cases h
      exact ⟨g, rfl, rfl⟩

theorem causalOrder_of_listing (h : s.listing = .ok rows) :
    s.causalOrder = .ok (rows.filterMap Row.artifact?) := by
  rw [causalOrder, h]
  rfl

theorem latest_of_listing (h : s.listing = .ok rows) :
    s.latest = match rows.filterMap Row.artifact? with
      | [] => .error (.emptySet s.kind)
      | a :: _ => .ok a := by
  rw [latest, causalOrder_of_listing h]
  cases rows.filterMap Row.artifact? <;> rfl

theorem mem_artifacts_iff {a : Artifact} : a ∈ rows.filterMap Row.artifact? ↔ .artifact a ∈ rows := by
  rw [List.mem_filterMap]
  constructor
  · rintro ⟨row, hm, hr⟩
    cases row with
    | artifact b =>
        cases hr
        exact hm
    | unresolved u => cases hr
  · exact fun hm => ⟨_, hm, rfl⟩

theorem pairwise_artifacts {rel : String → String → Prop} {rows : List Row}
    (h : (rows.map Row.id).Pairwise rel) :
    ((rows.filterMap Row.artifact?).map Artifact.id).Pairwise rel := by
  refine List.pairwise_map.2 ((List.pairwise_map.1 h).filterMap _ fun row row' hr a ha b hb => ?_)
  cases row with
  | unresolved u => cases ha
  | artifact a' =>
      cases row' with
      | unresolved u => cases hb
      | artifact b' =>
          cases ha
          cases hb
          exact hr

theorem tips_of_listing (hn : (s.rows.map Row.id).Nodup) (h : s.listing = .ok rows) :
    ∃ tips, s.tips = .ok tips ∧ (tips.map Artifact.id).Pairwise (· < ·) ∧
      ∀ a, a ∈ tips ↔ .artifact a ∈ s.rows ∧ ∀ row ∈ s.rows, a.id ∉ row.createdAfter := by
  obtain ⟨g, hg, -⟩ := exists_graph_of_listing h
  have htips : s.tips = .ok (g.tips.filterMap Row.artifact?) := by rw [tips, hg]
  obtain ⟨rfl, -⟩ := Graph.ofItems?_eq_ok (Graph.ofClosed?_eq_ok hg)
  exact ⟨_, htips, pairwise_artifacts (Graph.pairwise_tips s.rows),
    fun a => mem_artifacts_iff.trans (Graph.mem_tips_iff hn)⟩

theorem Loaded.not_lacks {missing : List String} {entries : List Entry}
    (h : Loaded n kind entries missing s) {id : String}
    (hu : ∀ row ∈ s.rows, id ∉ row.createdAfter) : ¬ Lacks entries id := by
  rintro ⟨⟨e, he, hp⟩, -⟩
  rw [← homeRow_createdAfter n kind e] at hp
  exact hu _ (h.mem_rows.2 (.inl ⟨e, he, rfl⟩)) hp

/-- The artifacts that records at home stand for: their own, and those that references resolve to.
-/
def AtHome (n : Network) (entries : List Entry) (a : Artifact) : Prop :=
  .own a ∈ entries ∨
    ∃ r, .external r ∈ entries ∧ r.id = a.id ∧ request (n.resolveReference r) = .ok a

theorem atHome_of_homeRow (hs : ∀ r ∈ n.remotes, r.store.Honest) {entries : List Entry} {e : Entry}
    (he : e ∈ entries) {a : Artifact} (h : homeRow n kind e = .artifact a) : AtHome n entries a := by
  cases e with
  | own b =>
      cases h
      exact .inl he
  | malformed id reason => cases h
  | external r =>
      refine .inr ⟨r, he, ?_, ?_⟩
      · have hid := homeRow_id hs kind (.external r)
        rw [h] at hid
        exact hid.symm
      · rw [homeRow] at h
        cases hr : request (n.resolveReference r) with
        | ok b =>
            rw [hr] at h
            cases h
            rfl
        | error e =>
            rw [hr] at h
            cases h

theorem Loaded.atHome {missing : List String} {entries : List Entry}
    (h : Loaded n kind entries missing s) (hs : ∀ r ∈ n.remotes, r.store.Honest) {a : Artifact}
    (ha : .artifact a ∈ s.rows) (hu : ∀ row ∈ s.rows, a.id ∉ row.createdAfter) :
    AtHome n entries a := by
  rcases h.mem_rows.1 ha with ⟨e, he, hrow⟩ | ⟨id, hl, hr⟩
  · exact atHome_of_homeRow hs he hrow
  · obtain rfl : a.id = id := parentRow?_id hs hr
    exact absurd hl (h.not_lacks hu)

end Snapshot

namespace Project

variable {p : Project} {kind : Kind} {entries : List Entry} {s : Snapshot} {rows : List Row}
  {tips : List Artifact}

/-- Every row stands before the rows that it names, and it names no other ones. -/
def ParentsLast (rows : List Row) : Prop :=
  ∀ before row rest, rows = before ++ row :: rest →
    ∀ parent ∈ row.createdAfter, parent ∈ rest.map Row.id

/-- What the queries for a kind tell when its snapshot can be listed. -/
structure Agrees (p : Project) (kind : Kind) (entries : List Entry) (s : Snapshot) (rows : List Row)
    (tips : List Artifact) : Prop where
  loaded : request (p.snapshot kind) = .ok s
  perm : rows.Perm s.rows
  nodup : (rows.map Row.id).Nodup
  parents_last : ParentsLast rows
  causalOrder_eq : request (p.causalOrder kind) = .ok (rows.filterMap Row.artifact?)
  latest_eq : request (p.latest kind) = match rows.filterMap Row.artifact? with
    | [] => .error (.emptySet kind)
    | a :: _ => .ok a
  tips_eq : request (p.tips kind) = .ok tips
  ascending : (tips.map Artifact.id).Pairwise (· < ·)
  mem_tips : ∀ a, a ∈ tips ↔ .artifact a ∈ rows ∧ ∀ row ∈ rows, a.id ∉ row.createdAfter
  tips_atHome : ∀ a ∈ tips, Snapshot.AtHome p.network entries a ∧ ¬ Snapshot.Lacks entries a.id
  latest_mem_tips : (∀ u, .unresolved u ∈ rows → ∃ row ∈ rows, u.id ∈ row.createdAfter) →
    rows.filterMap Row.artifact? ≠ [] → ∃ a ∈ tips, request (p.latest kind) = .ok a

theorem request_query {α : Type} (h : request (p.snapshot kind) = .ok s)
    (ask : Snapshot → Except Failure α) : request (p.query kind ask) = ask s :=
  congrArg (Except.bind · ask) h

theorem unnamed_of_first {row : Row} {rest : List Row} (hn : ((row :: rest).map Row.id).Nodup)
    (hp : ParentsLast (row :: rest)) : ∀ row' ∈ row :: rest, row.id ∉ row'.createdAfter := by
  intro row' hm hnamed
  obtain ⟨before, rest', hsplit⟩ := List.append_of_mem hm
  have hafter := hp before row' rest' hsplit _ hnamed
  have hfirst := (List.nodup_cons.1 hn).1
  cases before with
  | nil =>
      obtain ⟨rfl, rfl⟩ := List.cons.inj hsplit
      exact hfirst hafter
  | cons first before =>
      obtain ⟨rfl, rfl⟩ := List.cons.inj hsplit
      exact hfirst (by simpa using .inr (.inr (by simpa using hafter)))

/-- The first artifact of a listing is a tip unless the rows before it could not be resolved. -/
theorem first_mem_tips (hn : (rows.map Row.id).Nodup) (hp : ParentsLast rows)
    (ht : ∀ a, a ∈ tips ↔ .artifact a ∈ rows ∧ ∀ row ∈ rows, a.id ∉ row.createdAfter)
    (hu : ∀ u, .unresolved u ∈ rows → ∃ row ∈ rows, u.id ∈ row.createdAfter)
    (hne : rows.filterMap Row.artifact? ≠ []) :
    ∃ a ∈ tips, (rows.filterMap Row.artifact?).head? = some a := by
  cases rows with
  | nil => exact absurd rfl hne
  | cons row rest =>
      have hfirst := unnamed_of_first hn hp
      cases row with
      | artifact a => exact ⟨a, (ht a).2 ⟨List.mem_cons_self, hfirst⟩, rfl⟩
      | unresolved u =>
          obtain ⟨row', hm, hnamed⟩ := hu u List.mem_cons_self
          exact absurd hnamed (hfirst row' hm)

theorem Agrees.of_loaded {missing : List String} (hs : ∀ r ∈ p.network.remotes, r.store.Honest)
    (hd : (entries.map Entry.id).Nodup) (hload : request (p.snapshot kind) = .ok s)
    (h : Snapshot.Loaded p.network kind entries missing s) (hlist : s.listing = .ok rows) :
    ∃ tips, p.Agrees kind entries s rows tips := by
  have hn := h.nodup_ids hs hd
  have hperm := Snapshot.perm_of_listing hn hlist
  have hrows := (hperm.map Row.id).nodup_iff.2 hn
  obtain ⟨tips, htips, hascending, hmem⟩ := Snapshot.tips_of_listing hn hlist
  have hlatest : request (p.latest kind) = match rows.filterMap Row.artifact? with
      | [] => .error (.emptySet kind)
      | a :: _ => .ok a := by
    rw [latest, request_query hload, Snapshot.latest_of_listing hlist,
      (Snapshot.exists_list_of_load hload).1]
  have hlast : ParentsLast rows := by
    intro before row rest hsplit parent hp
    obtain ⟨g, hg, rfl⟩ := Snapshot.exists_graph_of_listing hlist
    exact Graph.causalOrder_parents_last hg hsplit hp
  have hmem' : ∀ a, a ∈ tips ↔ .artifact a ∈ rows ∧ ∀ row ∈ rows, a.id ∉ row.createdAfter := by
    intro a
    rw [hmem]
    simp only [hperm.mem_iff]
  refine ⟨tips, hload, hperm, hrows, hlast, ?_, hlatest, ?_, hascending, hmem', ?_, ?_⟩
  · exact (request_query hload _).trans (Snapshot.causalOrder_of_listing hlist)
  · exact (request_query hload _).trans htips
  · intro a ha
    obtain ⟨hrow, hu⟩ := (hmem a).1 ha
    exact ⟨h.atHome hs hrow hu, h.not_lacks hu⟩
  · intro hu hne
    obtain ⟨a, ha, hhead⟩ := first_mem_tips hrows hlast hmem' hu hne
    obtain ⟨others, hfirst⟩ := List.head?_eq_some_iff.1 hhead
    exact ⟨a, ha, by rw [hlatest, hfirst]⟩

/-- The queries for a kind agree on one snapshot, each asked on its own. -/
theorem queries_agree (p : Project) (kind : Kind) (hs : ∀ r ∈ p.network.remotes, r.store.Honest)
    (hd : ∀ entries, p.home.list kind = .ok entries → (entries.map Entry.id).Nodup)
    {rows : List Row} (h : request (p.listing kind) = .ok rows) :
    ∃ entries s tips, p.home.list kind = .ok entries ∧ p.Agrees kind entries s rows tips := by
  obtain ⟨s, hload, hlist⟩ := ok_of_bind (x := request (p.snapshot kind)) h
  obtain ⟨-, entries, hl⟩ := Snapshot.exists_list_of_load hload
  have hn := hd entries hl
  obtain ⟨s', missing, hload', hloaded⟩ :=
    Snapshot.exists_loaded hs hl fun e he e' he' => List.inj_on_of_nodup_map hn he he'
  obtain rfl := Except.ok.inj (hload.symm.trans hload')
  obtain ⟨tips, ha⟩ := Agrees.of_loaded hs hn hload hloaded hlist
  exact ⟨entries, s, tips, hl, ha⟩

def plannedHome : MemoryStore :=
  (MemoryStore.named "home")
    |>.insertArtifact ⟨"app", .chunk, .chunk .future, ["parser", "vault"], [], .home⟩
    |>.insertReference ⟨"parser", .chunk, ⟨"lib", none, none⟩, ["zlib"]⟩

def plannedRemote : MemoryStore :=
  (MemoryStore.named "lib")
    |>.insertArtifact ⟨"parser", .chunk, .chunk .future, [], [], .home⟩
    |>.insertArtifact ⟨"zlib", .chunk, .chunk .future, ["stub"], [], .home⟩
    |>.insert .chunk (.malformed "vault" "<yaml>")

def planned : Project :=
  ⟨plannedHome.store, plannedHome.content, ⟨[⟨⟨"lib", none, none⟩, plannedRemote.store⟩], none⟩⟩

def plannedRows : List Row :=
  let lib : Locator := ⟨"lib", none, none⟩
  [.artifact ⟨"app", .chunk, .chunk .future, ["parser", "vault"], [], .home⟩,
    .artifact ⟨"parser", .chunk, .chunk .future, ["zlib"], [], .external lib⟩,
    .unresolved ⟨"vault", .chunk, none, [],
      (Failure.unresolved "vault" "lib: malformed record: <yaml>").message⟩,
    .artifact ⟨"zlib", .chunk, .chunk .future, [], [], .external lib⟩]

theorem snapshot_planned : request (planned.snapshot .chunk) = .ok ⟨.chunk, plannedRows⟩ := by
  have hsorted : Snapshot.sorted plannedRows = plannedRows :=
    List.mergeSort_of_pairwise (by decide +kernel)
  conv => rhs; rw [← hsorted]
  rfl

theorem queries_agree_planned :
    (∀ r ∈ planned.network.remotes, r.store.Honest) ∧
      ∃ entries s rows tips, planned.home.list .chunk = .ok entries ∧
        (entries.map Entry.id).Nodup ∧ request (planned.listing .chunk) = .ok rows ∧
        planned.Agrees .chunk entries s rows tips ∧
        rows.map Row.id = ["app", "parser", "zlib", "vault"] := by
  have hs : ∀ r ∈ planned.network.remotes, r.store.Honest := by
    intro r hr
    obtain rfl := List.mem_singleton.1 hr
    have hfiled : plannedRemote.Filed :=
      (((MemoryStore.filed_named "lib").insertArtifact _).insertArtifact _).insert trivial
    exact hfiled.honest
  have hd : ∀ entries, planned.home.list .chunk = .ok entries → (entries.map Entry.id).Nodup := by
    intro entries hl
    cases hl
    decide +kernel
  have hids : (Snapshot.listing ⟨.chunk, plannedRows⟩).toOption.map (List.map Row.id) =
      some ["app", "parser", "zlib", "vault"] := by decide +kernel
  cases hrows : Snapshot.listing ⟨.chunk, plannedRows⟩ with
  | error e =>
      rw [hrows] at hids
      cases hids
  | ok rows =>
      rw [hrows] at hids
      have hlist := (request_query snapshot_planned _).trans hrows
      obtain ⟨entries, s, tips, hl, ha⟩ := queries_agree planned .chunk hs hd hlist
      exact ⟨hs, entries, s, rows, tips, hl, hd entries hl, hlist, ha, Option.some.inj hids⟩

end Project

end CausalWork
