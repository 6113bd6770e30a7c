import CausalWork.Proofs.Graph.Dangling
import CausalWork.Proofs.Resolution.Inquiry

namespace CausalWork

open Project (request)

def Entry.createdAfter : Entry → List String
  | own a => a.createdAfter
  | external r => r.createdAfter
  | malformed _ _ => []

namespace Snapshot

variable {n : Network} {home : Store} {kind : Kind} {entries : List Entry}

def homeRow (n : Network) (kind : Kind) : Entry → Row
  | .own a => .artifact a
  | .external r => referenceRow kind (r, request (n.resolveReference r))
  | .malformed id reason =>
    .unresolved ⟨id, kind, none, [], "malformed record: " ++ reason⟩

/-- The row of a parent that home lacks. Of its own parents it keeps the known ones. -/
def parentRow? (n : Network) (kind : Kind) (known : List String) (id : String) : Option Row :=
  match request (n.resolveForeign kind id) with
  | .ok a => some (.artifact { a with createdAfter := a.createdAfter.filter (· ∈ known) })
  | .error (.notFound _ _) => none
  | .error e => some (.unresolved ⟨id, kind, none, [], e.message⟩)

def Lacks (entries : List Entry) (id : String) : Prop :=
  (∃ e ∈ entries, id ∈ e.createdAfter) ∧ id ∉ entries.map Entry.id

/-- The rows of a snapshot: one for each record, and one for each missing parent that some remote
owns or cannot tell about. -/
structure Loaded (n : Network) (kind : Kind) (entries : List Entry) (missing : List String)
    (s : Snapshot) : Prop where
  perm : s.rows.Perm (entries.map (homeRow n kind) ++
    missing.filterMap (parentRow? n kind (s.rows.map Row.id)))
  sorted : s.rows.Pairwise fun a b => a.id ≤ b.id
  nodup : missing.Nodup
  lacks : ∀ id, id ∈ missing ↔ Lacks entries id

theorem filterMap_append_filterMap_perm {α β : Type} {f g h : α → Option β} {as : List α}
    (hs : ∀ a ∈ as, f a = h a ∧ g a = none ∨ f a = none ∧ g a = h a) :
    (as.filterMap f ++ as.filterMap g).Perm (as.filterMap h) := by
  induction as with
  | nil => exact .nil
  | cons a as ih =>
      have hrest := ih fun b hb => hs b (List.mem_cons_of_mem a hb)
      simp only [List.filterMap_cons]
      rcases hs a List.mem_cons_self with ⟨hf, hg⟩ | ⟨hf, hg⟩
      · rw [hf, hg]
        cases h a with
        | none => exact hrest
        | some b => exact hrest.cons b
      · rw [hf, hg]
        cases h a with
        | none => exact hrest
        | some b => exact List.perm_middle.trans (hrest.cons b)

theorem perm_homeRows (n : Network) (kind : Kind) (entries : List Entry) :
    (entries.filterMap (homeRow? kind) ++
      ((entries.filterMap reference?).map fun r => (r, request (n.resolveReference r))).map
        (referenceRow kind)).Perm (entries.map (homeRow n kind)) := by
  rw [List.map_map, List.map_filterMap, ← List.filterMap_eq_map]
  refine filterMap_append_filterMap_perm fun e _ => ?_
  cases e with
  | own a => exact .inl ⟨rfl, rfl⟩
  | external r => exact .inr ⟨rfl, rfl⟩
  | malformed id reason => exact .inl ⟨rfl, rfl⟩

theorem perm_addParents (n : Network) (kind : Kind) (rows : List Row) (missing : List String) :
    ∃ known, (addParents kind rows
        (missing.map fun id => (id, request (n.resolveForeign kind id)))).Perm
          (rows ++ missing.filterMap (parentRow? n kind known)) ∧
      known.Perm ((addParents kind rows
        (missing.map fun id => (id, request (n.resolveForeign kind id)))).map Row.id) := by
  unfold addParents
  dsimp only
  generalize hknown : List.map Row.id (rows ++ _) ++ List.map Artifact.id _ = known
  refine ⟨known, ?_, ?_⟩
  · rw [List.append_assoc, List.filterMap_map, List.filterMap_map, List.map_filterMap]
    refine (filterMap_append_filterMap_perm fun id _ => ?_).append_left rows
    unfold parentRow?
    dsimp only [Function.comp_apply]
    cases request (n.resolveForeign kind id) with
    | ok a => exact .inr ⟨rfl, rfl⟩
    | error e => cases e <;> exact .inl ⟨rfl, rfl⟩
  · rw [← hknown]
    simp only [List.map_append, List.map_map]
    exact .refl _

theorem homeRow_of_owner {r : Reference} {remote : Remote} {a : Artifact}
    (h : n.owner? r.question = some (remote, a)) (kind : Kind) :
    homeRow n kind (.external r) = .artifact (r.claim a) := by
  simp only [homeRow, Network.resolveReference_of_owner h, referenceRow]

theorem homeRow_of_unclaimed {r : Reference} (h : ¬ n.Claims r.question) (kind : Kind) :
    ∃ reason, homeRow n kind (.external r) =
      .unresolved ⟨r.id, kind, some r.locator, r.createdAfter, reason⟩ := by
  obtain ⟨reason, he⟩ := Network.resolveReference_of_unclaimed h
  exact ⟨(Failure.unresolved r.id reason).message, by simp only [homeRow, he, referenceRow]⟩

theorem homeRow_cases (n : Network) (kind : Kind) (r : Reference) :
    (∃ remote a, n.owner? r.question = some (remote, a) ∧
        homeRow n kind (.external r) = .artifact (r.claim a)) ∨
      ∃ reason, homeRow n kind (.external r) =
        .unresolved ⟨r.id, kind, some r.locator, r.createdAfter, reason⟩ := by
  by_cases hc : n.Claims r.question
  · obtain ⟨remote, a, ho⟩ := Network.claims_iff.1 hc
    exact .inl ⟨remote, a, ho, homeRow_of_owner ho kind⟩
  · exact .inr (homeRow_of_unclaimed hc kind)

theorem homeRow_createdAfter (n : Network) (kind : Kind) (e : Entry) :
    (homeRow n kind e).createdAfter = e.createdAfter := by
  cases e with
  | own a => rfl
  | malformed id reason => rfl
  | external r =>
      rcases homeRow_cases n kind r with ⟨remote, a, -, hr⟩ | ⟨reason, hr⟩
      all_goals
        rw [hr]
        rfl

theorem homeRow_id (hs : ∀ r ∈ n.remotes, r.store.Honest) (kind : Kind) (e : Entry) :
    (homeRow n kind e).id = e.id := by
  cases e with
  | own a => rfl
  | malformed id reason => rfl
  | external r =>
      rcases homeRow_cases n kind r with ⟨remote, a, ho, hr⟩ | ⟨reason, hr⟩
      · rw [hr]
        exact (Network.resolveReference_ok hs (Network.resolveReference_of_owner ho)).2
      · rw [hr]
        rfl

theorem map_id_homeRow (hs : ∀ r ∈ n.remotes, r.store.Honest) (kind : Kind)
    (entries : List Entry) : (entries.map (homeRow n kind)).map Row.id = entries.map Entry.id := by
  rw [List.map_map]
  exact List.map_congr_left fun e _ => homeRow_id hs kind e

theorem parentRow?_of_owner {known : List String} {id : String} {remote : Remote} {a : Artifact}
    (h : n.owner? ⟨kind, id, none⟩ = some (remote, a)) :
    parentRow? n kind known id = some (.artifact { a with
      source := .external remote.locator
      createdAfter := a.createdAfter.filter (· ∈ known) }) := by
  rw [parentRow?, Network.resolveForeign_of_owner h]

theorem parentRow?_of_fails (known : List String) {id : String}
    (h : ¬ n.Claims ⟨kind, id, none⟩) (hf : n.Fails ⟨kind, id, none⟩) :
    ∃ reason, parentRow? n kind known id = some (.unresolved ⟨id, kind, none, [], reason⟩) := by
  obtain ⟨reason, he⟩ := Network.resolveForeign_of_fails h hf
  exact ⟨_, by rw [parentRow?, he]⟩

theorem parentRow?_of_disclaimed {known : List String} {id : String}
    (h : ∀ r ∈ n.remotes, r.ask n.deadline kind id = .disclaimed) :
    parentRow? n kind known id = none := by
  rw [parentRow?, Network.resolveForeign_of_disclaimed h]

theorem parentRow?_isSome (known : List String) {id : String} :
    (parentRow? n kind known id).isSome ↔ n.Claims ⟨kind, id, none⟩ ∨ n.Fails ⟨kind, id, none⟩ := by
  by_cases hc : n.Claims ⟨kind, id, none⟩
  · obtain ⟨remote, a, ho⟩ := Network.claims_iff.1 hc
    simp [parentRow?_of_owner ho, hc]
  · by_cases hf : n.Fails ⟨kind, id, none⟩
    · obtain ⟨reason, hr⟩ := parentRow?_of_fails known hc hf
      simp [hr, hf]
    · have hd := Network.disclaimed_iff.1 ⟨hc, hf⟩
      simp [parentRow?_of_disclaimed hd, hc, hf]

theorem parentRow?_cases {known : List String} {id : String} {row : Row}
    (h : parentRow? n kind known id = some row) :
    (∃ remote a, n.owner? ⟨kind, id, none⟩ = some (remote, a) ∧ row = .artifact { a with
        source := .external remote.locator
        createdAfter := a.createdAfter.filter (· ∈ known) }) ∨
      (∃ reason, request (n.resolveForeign kind id) = .error (.unresolved id reason)) ∧
        ∃ reason, row = .unresolved ⟨id, kind, none, [], reason⟩ := by
  by_cases hc : n.Claims ⟨kind, id, none⟩
  · obtain ⟨remote, a, ho⟩ := Network.claims_iff.1 hc
    exact .inl ⟨remote, a, ho, Option.some.inj (h.symm.trans (parentRow?_of_owner ho))⟩
  · have hsome : (parentRow? n kind known id).isSome := by rw [h]; rfl
    have hf := ((parentRow?_isSome known).1 hsome).resolve_left hc
    obtain ⟨reason, hr⟩ := parentRow?_of_fails known hc hf
    exact .inr ⟨Network.resolveForeign_of_fails hc hf, reason, Option.some.inj (h.symm.trans hr)⟩

theorem parentRow?_id (hs : ∀ r ∈ n.remotes, r.store.Honest) {known : List String} {id : String}
    {row : Row} (h : parentRow? n kind known id = some row) : row.id = id := by
  rcases parentRow?_cases h with ⟨remote, a, ho, rfl⟩ | ⟨-, reason, rfl⟩
  · exact (Network.resolveForeign_ok hs (Network.resolveForeign_of_owner ho)).2
  · rfl

theorem parentRow?_createdAfter {known : List String} {id : String} {row : Row}
    (h : parentRow? n kind known id = some row) : ∀ p ∈ row.createdAfter, p ∈ known := by
  intro p hp
  rcases parentRow?_cases h with ⟨remote, a, -, rfl⟩ | ⟨-, reason, rfl⟩
  · exact of_decide_eq_true (List.mem_filter.1 hp).2
  · cases hp

theorem parentRow?_congr {known known' : List String} (h : ∀ id, id ∈ known ↔ id ∈ known') :
    parentRow? n kind known = parentRow? n kind known' := by
  funext id
  unfold parentRow?
  simp only [h]

theorem mem_missingParents_iff {rows : List Row} {id : String} : id ∈ missingParents rows ↔
    (∃ row ∈ rows, id ∈ row.createdAfter) ∧ id ∉ rows.map Row.id := by
  rw [missingParents, mem_ascending, List.mem_map]
  constructor
  · rintro ⟨e, he, rfl⟩
    obtain ⟨row, hm, -, ha, hn⟩ := mem_danglingEdges.1 he
    exact ⟨⟨row, hm, ha⟩, hn⟩
  · rintro ⟨⟨row, hm, ha⟩, hn⟩
    exact ⟨⟨row.id, id⟩, mem_danglingEdges.2 ⟨row, hm, rfl, ha, hn⟩, rfl⟩

theorem mem_missingParents {rows : List Row} (hs : ∀ r ∈ n.remotes, r.store.Honest)
    (hp : rows.Perm (entries.map (homeRow n kind))) {id : String} :
    id ∈ missingParents rows ↔ Lacks entries id := by
  have hids : id ∈ rows.map Row.id ↔ id ∈ entries.map Entry.id := by
    rw [(hp.map Row.id).mem_iff, map_id_homeRow hs]
  have hnames : (∃ row ∈ rows, id ∈ row.createdAfter) ↔ ∃ e ∈ entries, id ∈ e.createdAfter := by
    simp only [hp.mem_iff, List.mem_map, exists_exists_and_eq_and, homeRow_createdAfter]
  rw [mem_missingParents_iff, Lacks, hids, hnames]

theorem sorted_perm (rows : List Row) : (sorted rows).Perm rows := List.mergeSort_perm ..

theorem pairwise_sorted (rows : List Row) : (sorted rows).Pairwise fun a b => a.id ≤ b.id :=
  pairwise_mergeSort_key Row.id rows

theorem mem_references {r : Reference} : r ∈ entries.filterMap reference? ↔ .external r ∈ entries := by
  rw [List.mem_filterMap]
  constructor
  · rintro ⟨e, he, h⟩
    cases e with
    | external r' =>
        cases h
        exact he
    | own | malformed => cases h
  · exact fun h => ⟨_, h, rfl⟩

theorem injOn_references (hd : ∀ e ∈ entries, ∀ e' ∈ entries, e.id = e'.id → e = e') :
    Set.InjOn Wanted.question (asking (entries.filterMap reference?)) := by
  refine injOn_asking fun r hr r' hr' hq => ?_
  have he := hd _ (mem_references.1 hr) _ (mem_references.1 hr') (Question.mk.inj hq).2.1
  cases he
  rfl

theorem get?_eq_none_iff {s : Snapshot} {id : String} : s.get? id = none ↔ id ∉ s.rows.map Row.id := by
  simp [get?]

def complete (n : Network) (kind : Kind) (rows : List Row) :
    StateM Memo (Except Failure Snapshot) := do
  if n.hasRemotes then
    let told ← n.resolveIds kind (missingParents rows)
    return .ok ⟨kind, sorted (addParents kind rows told)⟩
  else return .ok ⟨kind, sorted rows⟩

theorem load_of_error (n : Network) {e : StoreError} (hl : home.list kind = .error e) :
    load home n kind = pure (.error (.ofStore e)) := by
  unfold load
  rw [hl]

theorem load_eq (n : Network) (hl : home.list kind = .ok entries) : load home n kind =
    n.resolveReferences (entries.filterMap reference?) >>= fun resolved =>
      complete n kind (entries.filterMap (homeRow? kind) ++ resolved.map (referenceRow kind)) := by
  unfold load
  rw [hl]
  rfl

theorem steady_complete {refs : List Reference} (hinj : Set.InjOn Wanted.question (asking refs))
    (rows : List Row) : n.Steady (asking refs) id (complete n kind rows) := by
  unfold complete
  split
  · exact (Network.steady_resolveIds_id hinj kind fun _ _ => .inl rfl).bind (Network.steady_pure _)
  · exact Network.steady_pure _

theorem steady_load {refs : List Reference} (hinj : Set.InjOn Wanted.question (asking refs))
    (hrefs : ∀ entries, home.list kind = .ok entries → entries.filterMap reference? ⊆ refs) :
    n.Steady (asking refs) id (load home n kind) := by
  cases hl : home.list kind with
  | error e =>
      rw [load_of_error n hl]
      exact Network.steady_pure _
  | ok entries =>
      rw [load_eq n hl]
      exact (Network.steady_resolveReferences_id hinj
        fun r hr => .inr ⟨r, hrefs entries hl hr, rfl⟩).bind (steady_complete hinj _)

theorem request_complete (n : Network) (kind : Kind) (rows : List Row) :
    ∃ all known, request (complete n kind rows) = .ok ⟨kind, sorted all⟩ ∧
      all.Perm (rows ++ (missingParents rows).filterMap (parentRow? n kind known)) ∧
      known.Perm (all.map Row.id) := by
  unfold complete
  by_cases hr : n.hasRemotes
  · rw [if_pos hr]
    obtain ⟨known, hall, hknown⟩ := perm_addParents n kind rows (missingParents rows)
    refine ⟨_, known, ?_, hall, hknown⟩
    rw [← Network.request_resolveIds]
    rfl
  · rw [if_neg hr]
    refine ⟨rows, rows.map Row.id, rfl, ?_, .refl _⟩
    have hnone : n.remotes = [] := by simpa [Network.hasRemotes] using hr
    rw [List.filterMap_eq_nil_iff.2, List.append_nil]
    exact fun id _ => parentRow?_of_disclaimed (by simp [hnone])

/-- What is loaded when the records at home can be listed. -/
theorem exists_loaded (hs : ∀ r ∈ n.remotes, r.store.Honest) (hl : home.list kind = .ok entries)
    (hd : ∀ e ∈ entries, ∀ e' ∈ entries, e.id = e'.id → e = e') :
    ∃ s missing, request (load home n kind) = .ok s ∧ Loaded n kind entries missing s := by
  have hinj := injOn_references hd
  have hrows := perm_homeRows n kind entries
  generalize hrow : entries.filterMap (homeRow? kind) ++ List.map (referenceRow kind) _ = rows
    at hrows
  have hload : request (load home n kind) = request (complete n kind rows) := by
    rw [load_eq n hl, ← hrow, ← Network.request_resolveReferences hinj]
    exact (Network.steady_resolveReferences_id hinj fun r hr => .inr ⟨r, hr, rfl⟩).bind_empty
      (steady_complete hinj _)
  obtain ⟨all, known, hall, hperm, hknown⟩ := request_complete n kind rows
  have hsorted := sorted_perm all
  have hids (id : String) : id ∈ known ↔ id ∈ (sorted all).map Row.id := by
    rw [hknown.mem_iff, (hsorted.map Row.id).mem_iff]
  refine ⟨⟨kind, sorted all⟩, missingParents rows, hload.trans hall, ?_, pairwise_sorted all,
    (pairwise_ascending _).imp ne_of_lt, fun id => mem_missingParents hs hrows⟩
  rw [← parentRow?_congr hids]
  exact hsorted.trans (hperm.trans (hrows.append_right _))

end Snapshot

end CausalWork
