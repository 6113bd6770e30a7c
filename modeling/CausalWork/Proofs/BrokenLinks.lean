import CausalWork.Proofs.Examination
import CausalWork.Proofs.Snapshot.Contents
import CausalWork.Proofs.Validation

namespace CausalWork

open Project (request)

theorem Artifact.missingParents_map (a : Artifact) (parents : List String) :
    a.missingParents (parents.map fun parent => ⟨a.id, parent⟩) = ascending parents := by
  have hall : (parents.map fun parent => (⟨a.id, parent⟩ : Edge)).filter (fun e => e.child = a.id) =
      parents.map fun parent => ⟨a.id, parent⟩ := by
    rw [List.filter_eq_self]
    intro e he
    obtain ⟨parent, -, rfl⟩ := List.mem_map.1 he
    exact decide_eq_true rfl
  rw [missingParents, hall, List.map_map]
  exact congrArg ascending (List.map_id parents)

namespace Snapshot

variable {n : Network} {home : Store} {kind : Kind} {entries : List Entry} {missing : List String}
  {s : Snapshot}

theorem homeRow_eq_artifact_iff (ha : home.Agrees kind entries) {e : Entry} (he : e ∈ entries)
    {a : Artifact} :
    homeRow n kind e = .artifact a ↔ request (n.resolve home kind e.id) = .ok a := by
  unfold request Network.resolve
  rcases ha.listed e he with hg | ⟨store, id, reason, rfl, hg⟩
  · rw [hg]
    cases e with
    | own b =>
        change Row.artifact b = .artifact a ↔ (Except.ok b : Except Failure Artifact) = .ok a
        simp
    | malformed id reason => constructor <;> rintro ⟨⟩
    | external r =>
        change referenceRow kind (r, request (n.resolveReference r)) = .artifact a ↔
          request (n.resolveReference r) = .ok a
        cases request (n.resolveReference r) <;> simp [referenceRow]
  · rw [show (Entry.malformed id reason).id = id from rfl, hg]
    constructor <;> rintro ⟨⟩

theorem parentRow?_eq_artifact_iff {known : List String} {id : String} {row : Row}
    (h : parentRow? n kind known id = some row) :
    (∃ a, row = .artifact a) ↔ ∃ a, request (n.resolveForeign kind id) = .ok a := by
  rcases parentRow?_cases h with ⟨remote, a, ho, rfl⟩ | ⟨⟨reason, he⟩, _, rfl⟩
  · simp [Network.resolveForeign_of_owner ho]
  · simp [he]

theorem get?_withArtifact (s : Snapshot) (a : Artifact) (id : String) :
    (Project.withArtifact s a).get? id =
      (s.get? id).or (if a.id = id then some (.artifact a) else none) := by
  unfold Project.withArtifact
  cases hg : s.get? a.id with
  | some row =>
      by_cases hid : a.id = id
      · subst hid
        simp [hg]
      · simp [hid]
  | none =>
      have hrow : (Row.artifact a).id = a.id := rfl
      by_cases hid : a.id = id <;> simp [get?, List.find?_append, hrow, hid]

namespace Loaded

variable (h : Loaded n kind entries missing s) (hs : ∀ r ∈ n.remotes, r.store.Honest)
  (ha : home.Agrees kind entries)

include h hs ha

theorem artifact_iff {row : Row} (hm : row ∈ s.rows) :
    (∃ a, row = .artifact a) ↔ ∃ a, request (n.resolve home kind row.id) = .ok a := by
  rcases h.mem_rows.1 hm with ⟨e, he, rfl⟩ | ⟨id, hl, hr⟩
  · rw [homeRow_id hs]
    exact exists_congr fun a => homeRow_eq_artifact_iff ha he
  · rw [parentRow?_id hs hr, Network.resolve_of_get_none (ha.unlisted id hl.2)]
    exact parentRow?_eq_artifact_iff hr

theorem unresolved_iff {row : Row} (hm : row ∈ s.rows) :
    (∃ u, row = .unresolved u) ↔ ∃ e, request (n.resolve home kind row.id) = .error e := by
  have hiff := h.artifact_iff hs ha hm
  cases row with
  | artifact a =>
      obtain ⟨b, hb⟩ := hiff.1 ⟨a, rfl⟩
      simp [hb]
  | unresolved u =>
      cases hr : request (n.resolve home kind (Row.unresolved u).id) with
      | ok b =>
          obtain ⟨a, he⟩ := hiff.2 ⟨b, hr⟩
          cases he
      | error e => simp

theorem resolve_of_no_row {id : String} (hn : id ∉ s.rows.map Row.id) :
    request (n.resolve home kind id) = request (n.resolveForeign kind id) :=
  Network.resolve_of_get_none (ha.unlisted id fun hin => hn ((h.mem_ids hs).2 (.inl hin)))

theorem dangling_iff {e : Entry} (he : e ∈ entries) {parent : String} :
    ⟨e.id, parent⟩ ∈ s.dangling ↔ parent ∈ e.createdAfter ∧ parent ∉ s.rows.map Row.id := by
  rw [h.mem_dangling hs]
  refine and_congr_left fun _ => ⟨?_, fun hp => ⟨e, he, rfl, hp⟩⟩
  rintro ⟨e', he', hid, hp⟩
  exact ha.eq_of_id e' he' e he hid ▸ hp

theorem resolve_of_named {e : Entry} (he : e ∈ entries) {id : String}
    (hp : id ∈ e.createdAfter) (hn : id ∉ s.rows.map Row.id) :
    request (n.resolve home kind id) = .error (.notFound kind id) := by
  rw [h.resolve_of_no_row hs ha hn]
  exact Network.resolveForeign_of_disclaimed ((h.notMem_ids_iff hs he hp).1 hn).2

theorem unresolved_parent_iff {e : Entry} (he : e ∈ entries) {parent : String} :
    (parent ∈ e.createdAfter ∧ ∃ err, request (n.resolve home kind parent) = .error err) ↔
      ⟨e.id, parent⟩ ∈ s.dangling ∨
        parent ∈ e.createdAfter ∧ ∃ u, .unresolved u ∈ s.rows ∧ u.id = parent := by
  rw [h.dangling_iff hs ha he]
  constructor
  · rintro ⟨hp, herr⟩
    by_cases hin : parent ∈ s.rows.map Row.id
    · obtain ⟨row, hm, rfl⟩ := List.mem_map.1 hin
      obtain ⟨u, rfl⟩ := (h.unresolved_iff hs ha hm).2 herr
      exact .inr ⟨hp, u, hm, rfl⟩
    · exact .inl ⟨hp, hin⟩
  · rintro (⟨hp, hn⟩ | ⟨hp, u, hu, rfl⟩)
    · exact ⟨hp, _, h.resolve_of_named hs ha he hp hn⟩
    · exact ⟨hp, (h.unresolved_iff hs ha hu).1 ⟨u, rfl⟩⟩

/-- A look into the snapshot and then to the remotes finds what does not resolve. -/
theorem lookup_fails_iff {a : Artifact} (hr : request (n.resolve home kind a.id) = .ok a)
    {id : String} :
    ((∃ u, (Project.withArtifact s a).get? id = some (.unresolved u)) ∨
        (Project.withArtifact s a).get? id = none ∧
          ∃ e, request (n.resolveForeign kind id) = .error e) ↔
      ∃ e, request (n.resolve home kind id) = .error e := by
  rw [get?_withArtifact]
  cases hg : s.get? id with
  | some row =>
      have hid : row.id = id := by simpa using List.find?_some hg
      rw [← hid, ← h.unresolved_iff hs ha (List.mem_of_find?_eq_some hg)]
      simp
  | none =>
      have hn := get?_eq_none_iff.1 hg
      by_cases hid : a.id = id
      · subst hid
        simp [hr]
      · rw [h.resolve_of_no_row hs ha hn]
        simp [hid]

end Loaded

end Snapshot

namespace Project

variable {p : Project} {n : Network} {kind : Kind} {id : String} {a : Artifact} {s : Snapshot}

theorem missingAmong_told (n : Network) (kind : Kind) (ids : List String) :
    missingAmong (ids.map fun id => (id, request (n.resolveForeign kind id))) =
      .ok (ids.filter fun id => (request (n.resolveForeign kind id)).toOption.isNone) := by
  induction ids with
  | nil => rfl
  | cons id ids ih =>
      rw [List.map_cons, missingAmong, ih, List.filter_cons]
      cases hr : request (n.resolveForeign kind id) with
      | ok a => rfl
      | error e =>
          rcases Network.resolveForeign_error hr with rfl | ⟨reason, rfl⟩ <;> rfl

theorem request_brokenLinks (n : Network) (a : Artifact) (s : Snapshot) :
    ∃ broken : List String,
      request (brokenLinks n a s) = .ok (broken.map fun parent => ⟨a.id, parent⟩) ∧
      ∀ parent, parent ∈ broken ↔ parent ∈ a.createdAfter ∧
        ((∃ u, s.get? parent = some (.unresolved u)) ∨
          s.get? parent = none ∧ ∃ e, request (n.resolveForeign a.kind parent) = .error e) := by
  let parents := ascending a.createdAfter
  let unresolved := parents.filter fun parent => ((s.get? parent).bind Row.unresolved?).isSome
  let unknown := parents.filter fun parent => (s.get? parent).isNone
  let failing := fun id => (request (n.resolveForeign a.kind id)).toOption.isNone
  refine ⟨ascending (unresolved ++ unknown.filter failing), ?_, fun parent => ?_⟩
  · have hrun : request (brokenLinks n a s) =
        (missingAmong (request (n.resolveIds a.kind unknown))).map fun missing =>
          (ascending (unresolved ++ missing)).map fun parent => ⟨a.id, parent⟩ := rfl
    rw [hrun, Network.request_resolveIds, missingAmong_told]
    rfl
  · have hunresolved : ((s.get? parent).bind Row.unresolved?).isSome ↔
        ∃ u, s.get? parent = some (.unresolved u) := by
      cases s.get? parent with
      | none => simp
      | some row => cases row <;> simp [Row.unresolved?]
    have hfailing : failing parent ↔ ∃ e, request (n.resolveForeign a.kind parent) = .error e := by
      dsimp only [failing]
      cases request (n.resolveForeign a.kind parent) <;> simp [Except.toOption]
    rw [mem_ascending, List.mem_append, List.mem_filter, List.mem_filter, List.mem_filter,
      mem_ascending, hunresolved, hfailing, Option.isNone_iff_eq_none, and_assoc, ← and_or_left]

theorem list_of_examine {issues : List Issue} (h : request (p.examine kind id) = .ok (a, issues)) :
    ∃ entries, p.home.list kind = .ok entries := by
  obtain ⟨m, s, m', g, links, summary, -, hsnap, -⟩ := examine_ok_iff.1 h
  cases hl : p.home.list kind with
  | ok entries => exact ⟨entries, rfl⟩
  | error e =>
      rw [snapshot, Snapshot.load_of_error p.network hl] at hsnap
      cases hsnap

/-- What an examination that comes to its end has found, each thing as if it was asked alone. -/
theorem examine_request {issues : List Issue} {entries : List Entry}
    (hl : p.home.list kind = .ok entries) (ha : p.home.Agrees kind entries)
    (h : request (p.examine kind id) = .ok (a, issues)) :
    ∃ s links summary, request (p.network.resolve p.home kind id) = .ok a ∧
      request (p.snapshot kind) = .ok s ∧
      request (brokenLinks p.network a (withArtifact s a)) = .ok links ∧
      a.issues summary links = issues := by
  have hlisted (r : Reference) (hr : r ∈ p.refs kind id) : .external r ∈ entries := by
    rcases mem_refs.1 hr with hg | ⟨entries', hl', he⟩
    · exact (ha.mem_of_get hg).1
    · cases hl.symm.trans hl'
      exact he
  rw [request_examine fun r hr r' hr' hid =>
    Entry.external.inj (ha.eq_of_id _ (hlisted r hr) _ (hlisted r' hr') hid)] at h
  cases hr : request (p.network.resolve p.home kind id) with
  | error e =>
      rw [hr] at h
      cases h
  | ok b =>
      rw [hr] at h
      cases hs : request (p.snapshot kind) with
      | error e =>
          simp only [hs] at h
          cases h
      | ok s =>
          simp only [hs] at h
          obtain ⟨links, summary, hb, hi, rfl⟩ := request_judge_ok h
          exact ⟨s, links, summary, rfl, rfl, hb, hi⟩

/-- If an artifact can be checked at all, the issues about its links name exactly those of its
parents that do not resolve. Of a record at home these are the parents that dangle and those of
which the snapshot only knows that they were not to be had. -/
theorem broken_links_exact (p : Project) (kind : Kind) (id : String) (issues : List Issue)
    (hh : p.home.Honest) (hs : ∀ r ∈ p.network.remotes, r.store.Honest)
    (ha : ∀ entries, p.home.list kind = .ok entries → p.home.Agrees kind entries)
    (h : request (p.validate kind id) = .ok issues) :
    ∃ (a : Artifact) (broken : List String) (s : Snapshot) (edges : List Edge),
      request (p.network.resolve p.home kind id) = .ok a ∧
      request (p.snapshot kind) = .ok s ∧ request (p.dangling kind) = .ok edges ∧
      issues.filter (fun i => i.code = .brokenLink) = broken.map a.brokenLink ∧
      broken.Pairwise (· < ·) ∧
      (∀ parent, parent ∈ broken ↔ parent ∈ a.createdAfter ∧
        ∃ e, request (p.network.resolve p.home kind parent) = .error e) ∧
      (p.home.get kind id ≠ .ok none → ∀ parent, parent ∈ broken ↔ ⟨id, parent⟩ ∈ edges ∨
        parent ∈ a.createdAfter ∧ ∃ u, .unresolved u ∈ s.rows ∧ u.id = parent) := by
  rw [request_validate] at h
  cases he : request (p.examine kind id) with
  | error e =>
      rw [he] at h
      cases h
  | ok found =>
      obtain ⟨a, found⟩ := found
      rw [he] at h
      obtain rfl : found = issues := Except.ok.inj h
      obtain ⟨entries, hl⟩ := list_of_examine he
      obtain ⟨s, links, summary, hr, hsnap, hb, rfl⟩ := examine_request hl (ha entries hl) he
      obtain ⟨hk, hid⟩ := Network.resolve_ok hh hs hr
      replace ha := ha entries hl
      obtain ⟨s', missing, hload, hs'⟩ := Snapshot.exists_loaded hs hl ha.eq_of_id
      obtain rfl : s' = s := Except.ok.inj (hload.symm.trans hsnap)
      obtain ⟨broken, hbroken, hmem⟩ := request_brokenLinks p.network a (withArtifact s' a)
      obtain rfl : links = _ := Except.ok.inj (hb.symm.trans hbroken)
      have hfails (parent : String) : parent ∈ ascending broken ↔ parent ∈ a.createdAfter ∧
          ∃ e, request (p.network.resolve p.home kind parent) = .error e := by
        rw [mem_ascending, hmem, hk, hs'.lookup_fails_iff hs ha (hid ▸ hr)]
      have hdangling : request (p.dangling kind) = (request (p.snapshot kind)).bind
          fun s => .ok s.dangling := rfl
      refine ⟨a, ascending broken, s', s'.dangling, hr, hsnap, ?_, ?_, pairwise_ascending _, hfails,
        fun hx parent => ?_⟩
      · rw [hdangling, hsnap]
        rfl
      · rw [Artifact.filter_issues, Artifact.missingParents_map]
      · have hin : id ∈ entries.map Entry.id := by
          by_contra hout
          exact hx (ha.unlisted id hout)
        obtain ⟨e, hm, rfl⟩ := List.mem_map.1 hin
        have hrow := (Snapshot.homeRow_eq_artifact_iff ha hm).2 hr
        have hparents : a.createdAfter = e.createdAfter := by
          rw [← Snapshot.homeRow_createdAfter p.network kind e, hrow]
          rfl
        rw [hfails, hparents]
        exact hs'.unresolved_parent_iff hs ha hm

def sampleProject : Project :=
  ⟨Snapshot.sampleHome.store, Snapshot.sampleHome.content, Snapshot.sampleNetwork⟩

def sampleApp : Artifact :=
  ⟨"app", .chunk, .chunk .future, ["ghost", "parser", "tool", "vault", "zlib"], [], .home⟩

def sampleLinks : List Edge := [⟨"app", "ghost"⟩, ⟨"app", "tool"⟩, ⟨"app", "vault"⟩]

def sampleRows : List Row :=
  let lib : Locator := ⟨"lib", none, none⟩
  let gone : Locator := ⟨"gone", none, none⟩
  let bad : String := "malformed record: <yaml>"
  [.artifact sampleApp,
    .unresolved ⟨"junk", .chunk, none, [], bad⟩,
    .artifact ⟨"parser", .chunk, .chunk .future, [], [], .external { lib with track := some "main" }⟩,
    .unresolved ⟨"tool", .chunk, some gone, ["parser"],
      (Failure.unresolved "tool" "no remote configured for gone").message⟩,
    .unresolved ⟨"vault", .chunk, none, [], (Failure.unresolved "vault" ("lib: " ++ bad)).message⟩,
    .artifact ⟨"zlib", .chunk, .chunk .future, ["parser"], [], .external lib⟩]

theorem snapshot_sampleProject : sampleProject.snapshot .chunk Memo.empty =
    (.ok ⟨.chunk, sampleRows⟩, (sampleProject.snapshot .chunk Memo.empty).2) := by
  have hsorted : Snapshot.sorted sampleRows = sampleRows :=
    List.mergeSort_of_pairwise (by decide +kernel)
  refine Prod.ext ?_ rfl
  conv => rhs; rw [← hsorted]
  rfl

/-- Three parents of a chunk are broken: no remote has one, a remote fails on another, and the third
is a reference to a repository that is not there. -/
theorem broken_links_sample :
    sampleProject.home.Honest ∧ (∀ r ∈ sampleProject.network.remotes, r.store.Honest) ∧
      (∀ entries, sampleProject.home.list .chunk = .ok entries →
        sampleProject.home.Agrees .chunk entries) ∧
      ∃ (issues : List Issue) (a : Artifact) (broken : List String),
        request (sampleProject.validate .chunk "app") = .ok issues ∧
        request (sampleProject.network.resolve sampleProject.home .chunk "app") = .ok a ∧
        issues.filter (fun i => i.code = .brokenLink) = broken.map a.brokenLink ∧
        ["ghost", "tool", "vault"] ⊆ broken ∧ "parser" ∉ broken := by
  have hh : sampleProject.home.Honest := by
    have hfiled : Snapshot.sampleHome.Filed :=
      ((((MemoryStore.filed_named "home").insertArtifact _).insertReference _).insertReference
        _).insert trivial
    exact hfiled.honest
  have ha : ∀ entries, sampleProject.home.list .chunk = .ok entries →
      sampleProject.home.Agrees .chunk entries := fun entries hl => MemoryStore.agrees_store hl
  have hgraph : (Graph.ofItems? sampleRows).toOption.isSome := by decide +kernel
  have hvalidate : ∃ issues, request (sampleProject.validate .chunk "app") = .ok issues := by
    cases hg : Graph.ofItems? sampleRows with
    | error e =>
        rw [hg] at hgraph
        cases hgraph
    | ok g =>
        have hexamine : request (sampleProject.examine .chunk "app") =
            .ok (sampleApp, sampleApp.issues ⟨false⟩ sampleLinks) :=
          examine_ok_iff.2 ⟨_, _, _, g, sampleLinks, _, rfl, snapshot_sampleProject, hg, rfl, rfl, rfl⟩
        exact ⟨_, congrArg (Except.map Prod.snd) hexamine⟩
  obtain ⟨issues, hvalidate⟩ := hvalidate
  obtain ⟨a, broken, s, edges, hr, -, -, hissues, -, hmem, -⟩ := broken_links_exact
    sampleProject .chunk "app" issues hh Snapshot.honest_sampleNetwork ha hvalidate
  refine ⟨hh, Snapshot.honest_sampleNetwork, ha, issues, a, broken, hvalidate, hr, hissues, ?_, ?_⟩
  · cases hr
    simp only [List.cons_subset, List.nil_subset, and_true]
    exact ⟨(hmem _).2 ⟨by decide, _, rfl⟩, (hmem _).2 ⟨by decide, _, rfl⟩,
      (hmem _).2 ⟨by decide, _, rfl⟩⟩
  · intro hparser
    obtain ⟨-, e, he⟩ := (hmem "parser").1 hparser
    cases he

end Project

end CausalWork
