import CausalWork.Proofs.BrokenLinks

namespace CausalWork.Project

open CausalWork.Graph

variable {p : Project} {kind : Kind}

/-- A request about a kind ends in a failure. -/
inductive Fails (p : Project) (kind : Kind) (e : Failure) : Prop
  | listing (h : request (p.listing kind) = .error e)
  | causalOrder (h : request (p.causalOrder kind) = .error e)
  | tips (h : request (p.tips kind) = .error e)
  | latest (h : request (p.latest kind) = .error e)
  | validate (id : String) (h : request (p.validate kind id) = .error e)
  | inject (journal : Journal) (fresh : Uuid) (now : Timestamp) (id : String)
      (h : (p.inject journal fresh now kind id).1 = .error e)

theorem loop_of_ofClosed? {rows : List Row} {walk : List String}
    (h : Graph.ofClosed? rows = .error (.cycle walk)) : Loop (Names rows) walk := by
  unfold Graph.ofClosed? at h
  split at h
  · obtain ⟨walk', he, hl⟩ := loop_of_ofItems?_eq_error h
    cases he
    exact hl
  · cases h

section

variable {s : Snapshot} {walk : List String}

theorem loop_of_tips (h : s.tips = .error (.graph (.cycle walk))) :
    Loop (Names s.rows) walk := by
  unfold Snapshot.tips at h
  split at h
  · cases h
  · cases h
    exact loop_of_ofClosed? ‹_›

theorem loop_of_listing (h : s.listing = .error (.graph (.cycle walk))) :
    Loop (Names s.rows) walk := by
  unfold Snapshot.listing at h
  split at h
  · cases h
  · cases h
    exact loop_of_ofClosed? ‹_›

theorem loop_of_causalOrder (h : s.causalOrder = .error (.graph (.cycle walk))) :
    Loop (Names s.rows) walk :=
  loop_of_listing (error_of_bind h fun _ _ he => by cases he)

theorem loop_of_latest (h : s.latest = .error (.graph (.cycle walk))) :
    Loop (Names s.rows) walk :=
  loop_of_causalOrder (error_of_bind h fun as _ he => by cases as <;> cases he)

end

theorem ofStore_ne_graph (e : StoreError) (g : GraphError) : Failure.ofStore e ≠ .graph g := by
  cases e <;> rintro ⟨⟩

theorem resolve_ne_graph (n : Network) (home : Store) (kind : Kind) (x : String) (g : GraphError) :
    request (n.resolve home kind x) ≠ .error (.graph g) := by
  intro h
  cases hg : home.get kind x with
  | error e =>
      unfold Network.resolve at h
      rw [hg] at h
      exact ofStore_ne_graph e g (Except.error.inj h)
  | ok entry =>
      match entry with
      | none =>
          rw [Network.resolve_of_get_none hg] at h
          rcases Network.resolveForeign_error h with he | ⟨reason, he⟩ <;> cases he
      | some (.external r) =>
          unfold Network.resolve at h
          rw [hg] at h
          replace h : request (n.resolveReference r) = .error (.graph g) := h
          by_cases hc : n.Claims r.question
          · obtain ⟨remote, a, ho⟩ := Network.claims_iff.1 hc
            cases (Network.resolveReference_of_owner ho).symm.trans h
          · obtain ⟨reason, he⟩ := Network.resolveReference_of_unclaimed hc
            cases he.symm.trans h
      | some (.own a) | some (.malformed id reason) =>
          unfold Network.resolve at h
          rw [hg] at h
          cases h

theorem judge_graph_error {a : Artifact} {s : Snapshot} {g : GraphError}
    (h : request (judge p a s) = .error (.graph g)) : Graph.ofItems? s.rows = .error g := by
  cases hs : Graph.ofItems? s.rows with
  | error e =>
      cases (request_judge_of_error hs).symm.trans h
      rfl
  | ok _ =>
      obtain ⟨broken, hlinks, -⟩ := request_brokenLinks p.network a s
      rw [request_judge_of_ok hs, hlinks] at h
      have hsummary : p.summary a = .error (.graph g) := error_of_bind h fun _ _ he => by cases he
      unfold summary at hsummary
      split at hsummary
      · cases hsummary
      · split at hsummary
        · cases hsummary
        · exact absurd (Except.error.inj hsummary) (ofStore_ne_graph _ g)

theorem validate_graph_error {x : String} {g : GraphError}
    (h : request (p.validate kind x) = .error (.graph g)) :
    request (p.examine kind x) = .error (.graph g) :=
  error_of_bind (k := fun found => .ok (Prod.snd found)) h fun _ _ he => by cases he

theorem inject_graph_error {journal : Journal} {fresh : Uuid} {now : Timestamp} {x : String}
    {g : GraphError} (h : (p.inject journal fresh now kind x).1 = .error (.graph g)) :
    request (p.examine kind x) = .error (.graph g) := by
  unfold inject at h
  cases hprepare : request (p.prepare fresh now kind x) with
  | error e =>
      rw [hprepare] at h
      cases h
      rw [request_prepare] at hprepare
      refine error_of_bind hprepare fun found _ he => ?_
      dsimp only at he
      split at he <;> cases he
  | ok u =>
      rw [hprepare] at h
      dsimp only at h
      generalize Pool.enqueue journal u = out at h
      obtain ⟨answer, after⟩ := out
      cases answer with
      | ok id => cases h
      | error e => cases e <;> cases h

/-- A walk is a cycle among the rows of a snapshot, or of one with a row more for an artifact that
is asked for. -/
def Meets (p : Project) (kind : Kind) (walk : List String) : Prop :=
  ∃ entries s missing, p.home.list kind = .ok entries ∧
    Snapshot.Loaded p.network kind entries missing s ∧
    (Loop (Names s.rows) walk ∨ ∃ x a,
      request (p.network.resolve p.home kind x) = .ok a ∧
        Loop (Names (withArtifact s a).rows) walk)

section

variable (hs : ∀ r ∈ p.network.remotes, r.store.Honest)
  (hone : ∀ e, p.home.Holds kind e → ∀ e', p.home.Holds kind e' → e.id = e'.id → e = e')

include hs hone

theorem query_graph_error {α : Type} {ask : Snapshot → Except Failure α} {g : GraphError}
    (h : request (p.query kind ask) = .error (.graph g)) :
    ∃ entries s missing, p.home.list kind = .ok entries ∧ request (p.snapshot kind) = .ok s ∧
      Snapshot.Loaded p.network kind entries missing s ∧ ask s = .error (.graph g) := by
  replace h : (request (p.snapshot kind)).bind ask = .error (.graph g) := h
  cases hl : p.home.list kind with
  | error e =>
      rw [request_snapshot_of_error hl] at h
      exact absurd (Except.error.inj h) (ofStore_ne_graph e g)
  | ok entries =>
      obtain ⟨s, missing, hload, hs'⟩ := Snapshot.exists_loaded hs hl fun e he e' he' =>
        hone e (.inl ⟨entries, hl, he⟩) e' (.inl ⟨entries, hl, he'⟩)
      replace hload : request (p.snapshot kind) = .ok s := hload
      rw [hload] at h
      exact ⟨entries, s, missing, rfl, hload, hs', h⟩

theorem examine_graph_error {x : String} {g : GraphError}
    (h : request (p.examine kind x) = .error (.graph g)) :
    ∃ entries s missing a, p.home.list kind = .ok entries ∧
      Snapshot.Loaded p.network kind entries missing s ∧
      request (p.network.resolve p.home kind x) = .ok a ∧
      Graph.ofItems? (withArtifact s a).rows = .error g := by
  have hheld (r : Reference) (hr : r ∈ p.refs kind x) : p.home.Holds kind (.external r) := by
    rcases mem_refs.1 hr with hg | ⟨entries, hl, he⟩
    · exact .inr ⟨x, hg⟩
    · exact .inl ⟨entries, hl, he⟩
  rw [request_examine fun r hr r' hr' hid =>
    Entry.external.inj (hone _ (hheld r hr) _ (hheld r' hr') hid)] at h
  cases ha : request (p.network.resolve p.home kind x) with
  | error e =>
      rw [ha] at h
      cases h
      exact absurd ha (resolve_ne_graph _ _ _ _ g)
  | ok a =>
      rw [ha] at h
      obtain ⟨entries, s, missing, hl, hload, hloaded, hjudge⟩ := query_graph_error hs hone h
      exact ⟨entries, s, missing, a, hl, hloaded, rfl, judge_graph_error hjudge⟩

theorem meets_of_query {α : Type} {ask : Snapshot → Except Failure α} {walk : List String}
    (hask : ∀ s, ask s = .error (.graph (.cycle walk)) → Loop (Names s.rows) walk)
    (h : request (p.query kind ask) = .error (.graph (.cycle walk))) : p.Meets kind walk := by
  obtain ⟨entries, s, missing, hl, -, hloaded, hs'⟩ := query_graph_error hs hone h
  exact ⟨entries, s, missing, hl, hloaded, .inl (hask s hs')⟩

theorem meets_of_examine {x : String} {walk : List String}
    (h : request (p.examine kind x) = .error (.graph (.cycle walk))) : p.Meets kind walk := by
  obtain ⟨entries, s, missing, a, hl, hloaded, ha, hg⟩ := examine_graph_error hs hone h
  obtain ⟨_, he, hloop⟩ := loop_of_ofItems?_eq_error hg
  cases he
  exact ⟨entries, s, missing, hl, hloaded, .inr ⟨x, a, ha, hloop⟩⟩

theorem Fails.meets {walk : List String} (h : p.Fails kind (.graph (.cycle walk))) :
    p.Meets kind walk := by
  cases h with
  | listing h => exact meets_of_query hs hone (fun _ => loop_of_listing) h
  | causalOrder h => exact meets_of_query hs hone (fun _ => loop_of_causalOrder) h
  | tips h => exact meets_of_query hs hone (fun _ => loop_of_tips) h
  | latest h => exact meets_of_query hs hone (fun _ => loop_of_latest) h
  | validate id h => exact meets_of_examine hs hone (validate_graph_error h)
  | inject journal fresh now id h => exact meets_of_examine hs hone (inject_graph_error h)

end

end CausalWork.Project
