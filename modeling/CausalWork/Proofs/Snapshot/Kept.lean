import CausalWork.Proofs.Resolution.Agreement
import CausalWork.Proofs.Snapshot.Contents

namespace CausalWork

open Project (request)

namespace Memo

def Within (m m' : Memo) : Prop := ∀ q o, m.outcomes.lookup q = some o → m'.outcomes.lookup q = some o

variable {m m' m'' : Memo}

theorem Within.refl (m : Memo) : m.Within m := fun _ _ h => h

theorem Within.trans (h : m.Within m') (h' : m'.Within m'') : m.Within m'' :=
  fun q o hl => h' q o (h q o hl)

theorem within_foldl_learn (m : Memo) (trail : List Lookup) :
    Within m (trail.foldl Lookup.learn m) := by
  intro q o hl
  rw [lookup_foldl_learn, hl]
  rfl

end Memo

/-- A computation that forgets nothing and that can be made again at any later time: it then has the
same result and learns nothing. -/
structure Repeats {β : Type} (x : StateM Memo β) : Prop where
  grows : ∀ m : Memo, m.Within (x m).2
  again : ∀ m m', (x m).2.Within m' → x m' = ((x m).1, m')

namespace Repeats

variable {α β γ : Type} {x : StateM Memo β}

theorem pure (b : β) : Repeats (Pure.pure b) where
  grows := Memo.Within.refl
  again := fun _ _ _ => rfl

theorem bind {k : β → StateM Memo γ} (hx : Repeats x) (hk : ∀ b, Repeats (k b)) :
    Repeats (x >>= k) where
  grows := fun m => (hx.grows m).trans ((hk (x m).1).grows (x m).2)
  again := by
    intro m m' hw
    have hrun (m : Memo) : (x >>= k) m = k (x m).1 (x m).2 := rfl
    rw [hrun, hrun, hx.again m m' (((hk (x m).1).grows (x m).2).trans hw)]
    exact (hk (x m).1).again (x m).2 m' hw

theorem map (hx : Repeats x) (g : β → γ) : Repeats (g <$> x) := hx.bind fun b => pure (g b)

theorem mapM {k : α → StateM Memo β} (hk : ∀ a, Repeats (k a)) (as : List α) :
    Repeats (as.mapM k) := by
  induction as with
  | nil => exact pure []
  | cons a as ih =>
      rw [List.mapM_cons]
      exact (hk a).bind fun b => ih.bind fun bs => pure (b :: bs)

theorem lookup (n : Network) (w : Wanted) : Repeats (n.lookup w.kind w.id w.pin) where
  grows := by
    intro m
    rw [(Follows.lookup n w).learns m]
    exact m.within_foldl_learn _
  again := by
    intro m m' hw
    rw [Network.lookup_eq n w m', hw _ _ (n.lookup_told w m)]

end Repeats

namespace Network

variable (n : Network)

theorem repeats_resolveReferences (refs : List Reference) : Repeats (n.resolveReferences refs) := by
  rw [resolveReferences_eq]
  refine Repeats.mapM (fun r => Repeats.map ?_ _) refs
  rw [resolveReference_eq]
  exact (Repeats.lookup n r.wanted).map r.settle

theorem repeats_resolveIds (kind : Kind) (ids : List String) : Repeats (n.resolveIds kind ids) := by
  rw [resolveIds_eq]
  refine Repeats.mapM (fun id => Repeats.map ?_ _) ids
  rw [resolveForeign_eq]
  exact (Repeats.lookup n ⟨kind, id, none⟩).map (Outcome.settle kind id)

theorem recalls_calls (n : Network) (home : Store) (calls : List Inquiry) :
    n.Recalls Set.univ (calls.mapM (n.answer home) Memo.empty).2 := by
  have hsteady : ∀ call ∈ calls, n.Steady (asking (calls.flatMap (Inquiry.refs home)))
      (Inquiry.Answer.map Artifact.unpinned) (n.answer home call) :=
    fun call hm => steady_answer (n.alike_unpinned _) fun r hr => List.mem_flatMap.2 ⟨call, hm, hr⟩
  exact (mapM_of_steady hsteady recalls_empty).2.mono (Set.subset_univ _)

end Network

namespace Row

/-- A row whose artifact, if it has one, has a locator that says no more than the repository. -/
def unpinned : Row → Row
  | artifact a => artifact a.unpinned
  | unresolved u => unresolved u

@[simp]
theorem id_unpinned (row : Row) : row.unpinned.id = row.id := by
  cases row <;> rfl

@[simp]
theorem createdAfter_unpinned (row : Row) : row.unpinned.createdAfter = row.createdAfter := by
  cases row <;> rfl

end Row

namespace Snapshot

variable {n : Network} {m : Memo} {home : Store} {kind : Kind} {entries : List Entry}

/-- What a snapshot shows whatever was asked before it was loaded. -/
def unpinned (s : Snapshot) : Snapshot := ⟨s.kind, s.rows.map Row.unpinned⟩

theorem missingParents_unpinned (rows : List Row) :
    missingParents (rows.map Row.unpinned) = missingParents rows := by
  rw [missingParents, missingParents,
    danglingEdges_map (f := Row.unpinned) Row.id_unpinned Row.createdAfter_unpinned]

theorem sorted_unpinned (rows : List Row) :
    sorted (rows.map Row.unpinned) = (sorted rows).map Row.unpinned :=
  (List.map_mergeSort fun a _ b _ => by rw [Row.id_unpinned, Row.id_unpinned]).symm

def seen {α : Type} (told : List (α × Except Failure Artifact)) : List (α × Except Failure Artifact) :=
  told.map (Prod.map id (Except.map Artifact.unpinned))

theorem referenceRow_unpinned (kind : Kind) (r : Reference) (told : Except Failure Artifact) :
    referenceRow kind (r, told.map Artifact.unpinned) = (referenceRow kind (r, told)).unpinned := by
  cases told <;> rfl

theorem unreachedRow?_unpinned (kind : Kind) (t : String × Except Failure Artifact) :
    unreachedRow? kind (t.1, t.2.map Artifact.unpinned) = (unreachedRow? kind t).map Row.unpinned := by
  obtain ⟨id, told⟩ := t
  cases told with
  | ok a => rfl
  | error e => cases e <;> rfl

theorem addParents_seen (kind : Kind) (rows : List Row)
    (told : List (String × Except Failure Artifact)) :
    addParents kind (rows.map Row.unpinned) (seen told) =
      (addParents kind rows told).map Row.unpinned := by
  have hunreached : (seen told).filterMap (unreachedRow? kind) =
      (told.filterMap (unreachedRow? kind)).map Row.unpinned := by
    rw [seen, List.filterMap_map, List.map_filterMap]
    exact List.filterMap_congr fun t _ => unreachedRow?_unpinned kind t
  have hpulled : (seen told).filterMap (fun t => t.2.toOption) =
      (told.filterMap fun t => t.2.toOption).map Artifact.unpinned := by
    rw [seen, List.filterMap_map, List.map_filterMap]
    refine List.filterMap_congr fun t _ => ?_
    obtain ⟨id, told⟩ := t
    cases told <;> rfl
  unfold addParents
  simp only [hunreached, hpulled, List.map_append, List.map_map, Function.comp_def,
    Row.id_unpinned]
  rfl

theorem complete_unpinned (rows : List Row) (m : Memo) :
    (complete n kind rows m).1.map unpinned = .ok ⟨kind, sorted <|
      if n.hasRemotes then
        addParents kind (rows.map Row.unpinned) (seen (n.resolveIds kind (missingParents rows) m).1)
      else rows.map Row.unpinned⟩ := by
  unfold complete
  split
  · rw [addParents_seen, sorted_unpinned]
    rfl
  · rw [sorted_unpinned]
    rfl

theorem steady_complete_unpinned (rows : List Row) :
    n.Steady Set.univ (Except.map unpinned) (complete n kind rows) := by
  intro m hm
  have hids : n.Steady Set.univ seen (n.resolveIds kind (missingParents rows)) :=
    Network.steady_resolveIds (n.alike_unpinned _) kind fun _ _ => trivial
  obtain ⟨hseen, hm'⟩ := hids m hm
  refine ⟨by rw [complete_unpinned, complete_unpinned, hseen], ?_⟩
  unfold complete
  split
  · exact hm'
  · exact hm

theorem steady_resolveReferences_seen (refs : List Reference) :
    n.Steady Set.univ seen (n.resolveReferences refs) :=
  Network.steady_resolveReferences (n.alike_unpinned _) fun _ _ => trivial

theorem seen_resolveReferences (refs : List Reference) (hm : n.Recalls Set.univ m) :
    seen (n.resolveReferences refs m).1 =
      seen (refs.map fun r => (r, request (n.resolveReference r))) := by
  have hsteady : ∀ r ∈ refs, n.Steady Set.univ (Prod.map id (Except.map Artifact.unpinned))
      (Prod.mk r <$> n.resolveReference r) := fun r _ =>
    (Network.steady_resolveReference (n.alike_unpinned _) (Set.mem_univ r.wanted)).map
      fun a b h => congrArg (Prod.mk r) h
  rw [seen, seen, List.map_map]
  exact (Network.mapM_of_steady hsteady hm).1

theorem homeRows_unpinned (kind : Kind) (entries : List Entry)
    {told told' : List (Reference × Except Failure Artifact)} (h : seen told = seen told') :
    (entries.filterMap (homeRow? kind) ++ told.map (referenceRow kind)).map Row.unpinned =
      (entries.filterMap (homeRow? kind) ++ told'.map (referenceRow kind)).map Row.unpinned := by
  have hrows (told : List (Reference × Except Failure Artifact)) :
      (told.map (referenceRow kind)).map Row.unpinned = (seen told).map (referenceRow kind) := by
    rw [seen, List.map_map, List.map_map]
    exact List.map_congr_left fun t _ => (referenceRow_unpinned kind t.1 t.2).symm
  rw [List.map_append, List.map_append, hrows, hrows, h]

/-- Whatever was asked before, a snapshot is the one that is loaded afresh, but for the branch and
the revision in the locators of artifacts. -/
theorem steady_load_unpinned (home : Store) (n : Network) (kind : Kind) :
    n.Steady Set.univ (Except.map unpinned) (load home n kind) := by
  cases hl : home.list kind with
  | error e =>
      rw [load_of_error n hl]
      exact Network.steady_pure _
  | ok entries =>
      rw [load_eq n hl]
      refine (steady_resolveReferences_seen _).bind_of_view
        (fun told => steady_complete_unpinned _) fun told told' h => ?_
      have hrows := homeRows_unpinned kind entries h
      rw [complete_unpinned, complete_unpinned, hrows, ← missingParents_unpinned, hrows,
        missingParents_unpinned]

theorem nodup_ids_of_load (hs : ∀ r ∈ n.remotes, r.store.Honest)
    (hd : ∀ entries, home.list kind = .ok entries → (entries.map Entry.id).Nodup)
    (hm : n.Recalls Set.univ m) {s : Snapshot} (h : (load home n kind m).1 = .ok s) :
    (s.rows.map Row.id).Nodup := by
  have hview := (steady_load_unpinned home n kind m hm).1
  cases hl : home.list kind with
  | error e =>
      rw [load_of_error n hl] at h
      cases h
  | ok entries =>
      have hn := hd entries hl
      obtain ⟨s', missing, hload, hloaded⟩ :=
        exists_loaded hs hl fun e he e' he' => List.inj_on_of_nodup_map hn he he'
      have hsame : s.unpinned = s'.unpinned := by
        rw [h] at hview
        exact Except.ok.inj (hview.trans (congrArg (Except.map unpinned) hload))
      have hids (s : Snapshot) : s.unpinned.rows.map Row.id = s.rows.map Row.id := by
        rw [unpinned, List.map_map]
        exact List.map_congr_left fun row _ => row.id_unpinned
      rw [← hids, hsame, hids]
      exact hloaded.nodup_ids hs hn

theorem repeats_complete (n : Network) (kind : Kind) (rows : List Row) :
    Repeats (complete n kind rows) := by
  unfold complete
  split
  · exact (n.repeats_resolveIds kind _).bind fun told => Repeats.pure _
  · exact Repeats.pure _

theorem repeats_load (home : Store) (n : Network) (kind : Kind) : Repeats (load home n kind) := by
  cases hl : home.list kind with
  | error e =>
      rw [load_of_error n hl]
      exact Repeats.pure _
  | ok entries =>
      rw [load_eq n hl]
      exact (n.repeats_resolveReferences _).bind fun told => repeats_complete n kind _

end Snapshot

end CausalWork
