import CausalWork.Proofs.Injection
import CausalWork.Proofs.Snapshot.Load

namespace CausalWork

open Project (request)

def Memo.andThen {α β : Type} (x : StateM Memo (Except Failure α))
    (k : α → StateM Memo (Except Failure β)) : StateM Memo (Except Failure β) := do
  match ← x with
  | .error e => return .error e
  | .ok a => k a

namespace Network

variable {n : Network} {ws : Set Wanted} {α β : Type} {x : StateM Memo (Except Failure α)}
  {k : α → StateM Memo (Except Failure β)}

theorem Steady.andThen (h : n.Steady ws id x) (hk : ∀ a, n.Steady ws id (k a)) :
    n.Steady ws id (Memo.andThen x k) := by
  refine h.bind ?_
  split
  · exact steady_pure _
  · exact hk _

theorem Steady.request_andThen (h : n.Steady ws id x) (hk : ∀ a, n.Steady ws id (k a)) :
    request (Memo.andThen x k) = (request x).bind fun a => request (k a) := by
  have hrun : request (Memo.andThen x k) = (Memo.andThen x k Memo.empty).1 := rfl
  rw [hrun, Memo.andThen, h.bind_empty]
  · change _ = (x Memo.empty).1.bind fun a => request (k a)
    cases (x Memo.empty).1 <;> rfl
  · split
    · exact steady_pure _
    · exact hk _

theorem request_andThen_of_error {e : Failure} (h : request x = .error e) :
    request (Memo.andThen x k) = .error e := by
  unfold request at h ⊢
  unfold Memo.andThen
  simp only [bind, StateT.bind]
  generalize x Memo.empty = out at h ⊢
  obtain ⟨answer, m⟩ := out
  subst h
  rfl

theorem steady_resolve_id {home : Store} (hinj : Set.InjOn Wanted.question ws) {kind : Kind}
    {p : String} (hr : ∀ r, home.get kind p = .ok (some (.external r)) → r.wanted ∈ ws)
    (hw : ⟨kind, p, none⟩ ∈ ws) : n.Steady ws id (n.resolve home kind p) := by
  have h := steady_resolve (alike_id (n := n) hinj) hr hw
  rwa [Except.map_id] at h

end Network

namespace Project

theorem withArtifact_cases (s : Snapshot) (a : Artifact) : withArtifact s a = s ∨
    a.id ∉ s.rows.map Row.id ∧ (withArtifact s a).rows = s.rows ++ [.artifact a] := by
  unfold withArtifact
  cases hg : s.get? a.id with
  | some row => exact .inl rfl
  | none => exact .inr ⟨Snapshot.get?_eq_none_iff.1 hg, rfl⟩

theorem mem_withArtifact {s : Snapshot} {a : Artifact} {row : Row}
    (h : row ∈ (withArtifact s a).rows) : row ∈ s.rows ∨ row = .artifact a := by
  rcases withArtifact_cases s a with hsame | ⟨-, hrows⟩
  · exact .inl (hsame ▸ h)
  · simpa [hrows] using h

/-- What an examination comes to once the artifact and the snapshot with it are known. -/
def judge (p : Project) (a : Artifact) (s : Snapshot) :
    StateM Memo (Except Failure (Artifact × List Issue)) :=
  match Graph.ofItems? s.rows with
  | .error e => pure (.error (.graph e))
  | .ok _ => do
    let links ← brokenLinks p.network a s
    return do
      let links ← links
      let summary ← p.summary a
      return (a, a.issues summary links)

theorem examine_eq (p : Project) (kind : Kind) (x : String) : p.examine kind x =
    Memo.andThen (p.network.resolve p.home kind x) fun a =>
      Memo.andThen (p.snapshot kind) fun s => judge p a (withArtifact s a) := by
  unfold examine Memo.andThen judge
  refine bind_congr fun told => ?_
  cases told with
  | error e => rfl
  | ok a =>
      refine bind_congr fun told => ?_
      cases told <;> rfl

section

variable {p : Project} {a : Artifact} {s : Snapshot}

theorem request_judge_of_error {e : GraphError} (h : Graph.ofItems? s.rows = .error e) :
    request (judge p a s) = .error (.graph e) := by
  unfold judge
  rw [h]
  rfl

theorem request_judge_of_ok {g : Graph Row} (h : Graph.ofItems? s.rows = .ok g) :
    request (judge p a s) = (request (brokenLinks p.network a s)).bind fun links =>
      (p.summary a).bind fun summary => .ok (a, a.issues summary links) := by
  unfold judge
  rw [h]
  rfl

theorem request_judge_ok {b : Artifact} {issues : List Issue}
    (h : request (judge p a s) = .ok (b, issues)) :
    ∃ links summary, request (brokenLinks p.network a s) = .ok links ∧
      a.issues summary links = issues ∧ a = b := by
  cases hg : Graph.ofItems? s.rows with
  | error e => cases (request_judge_of_error hg).symm.trans h
  | ok g =>
      rw [request_judge_of_ok hg] at h
      cases hb : request (brokenLinks p.network a s) with
      | error e =>
          rw [hb] at h
          cases h
      | ok links =>
          rw [hb] at h
          cases hs : p.summary a with
          | error e =>
              simp only [hs] at h
              cases h
          | ok summary =>
              simp only [hs] at h
              cases h
              exact ⟨links, summary, rfl, rfl, rfl⟩

end

section

variable {refs : List Reference} (hinj : Set.InjOn Wanted.question (asking refs))

include hinj

theorem steady_brokenLinks {n : Network} (a : Artifact) (s : Snapshot) :
    n.Steady (asking refs) id (brokenLinks n a s) := by
  unfold brokenLinks
  exact (Network.steady_resolveIds_id hinj a.kind fun _ _ => .inl rfl).bind (Network.steady_pure _)

theorem steady_judge (p : Project) (a : Artifact) (s : Snapshot) :
    p.network.Steady (asking refs) id (judge p a s) := by
  unfold judge
  split
  · exact Network.steady_pure _
  · exact (steady_brokenLinks hinj a s).bind (Network.steady_pure _)

theorem steady_snapshot (p : Project) {kind : Kind} (hrefs : ∀ entries, p.home.list kind = .ok entries →
      entries.filterMap Snapshot.reference? ⊆ refs) :
    p.network.Steady (asking refs) id (p.snapshot kind) :=
  Snapshot.steady_load hinj hrefs

end

theorem request_snapshot_of_error {p : Project} {kind : Kind} {e : StoreError}
    (hl : p.home.list kind = .error e) : request (p.snapshot kind) = .error (.ofStore e) := by
  rw [request, snapshot, Snapshot.load_of_error p.network hl]
  rfl

def refs (p : Project) (kind : Kind) (x : String) : List Reference :=
  Inquiry.refs p.home (.resolve kind x) ++ match p.home.list kind with
    | .ok entries => entries.filterMap Snapshot.reference?
    | .error _ => []

variable {p : Project} {kind : Kind} {x : String}

theorem mem_refs {r : Reference} : r ∈ p.refs kind x ↔
    p.home.get kind x = .ok (some (.external r)) ∨
      ∃ entries, p.home.list kind = .ok entries ∧ .external r ∈ entries := by
  have hget : r ∈ Inquiry.refs p.home (.resolve kind x) ↔
      p.home.get kind x = .ok (some (.external r)) := by
    rw [Inquiry.refs]
    split
    next r' hg => simp [hg, eq_comm]
    next hnot => exact ⟨fun hr => absurd hr List.not_mem_nil, fun hg => absurd hg (hnot r)⟩
  rw [refs, List.mem_append, hget]
  refine or_congr_right ?_
  cases p.home.list kind with
  | error e => simp
  | ok entries => simp [Snapshot.mem_references, -List.mem_filterMap]

theorem request_examine
    (hone : ∀ r ∈ p.refs kind x, ∀ r' ∈ p.refs kind x, r.id = r'.id → r = r') :
    request (p.examine kind x) =
      (request (p.network.resolve p.home kind x)).bind fun a =>
        (request (p.snapshot kind)).bind fun s => request (judge p a (withArtifact s a)) := by
  have hinj : Set.InjOn Wanted.question (asking (p.refs kind x)) :=
    injOn_asking fun r hr r' hr' hq =>
      congrArg Reference.locator (hone r hr r' hr' (Question.mk.inj hq).2.1)
  have hresolve := Network.steady_resolve_id (n := p.network) hinj
    (fun r hg => .inr ⟨r, mem_refs.2 (.inl hg), rfl⟩) (.inl rfl)
  have hsnapshot := steady_snapshot hinj p fun entries hl r hr =>
    mem_refs.2 (.inr ⟨entries, hl, Snapshot.mem_references.1 hr⟩)
  have hjudge (a : Artifact) := fun s => steady_judge hinj p a (withArtifact s a)
  rw [examine_eq, hresolve.request_andThen fun a => hsnapshot.andThen (hjudge a)]
  refine congrArg _ (funext fun a => ?_)
  exact hsnapshot.request_andThen (hjudge a)

end Project

end CausalWork
