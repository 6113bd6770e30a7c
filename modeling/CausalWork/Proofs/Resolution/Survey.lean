import CausalWork.Project
import CausalWork.Proofs.Resolution

namespace CausalWork

open Project (request)

namespace Remote

def owned? (r : Remote) (deadline : Option Nat) (kind : Kind) (id : String) : Option Artifact :=
  match r.ask deadline kind id with
  | .owned a => some a
  | _ => none

def failure? (r : Remote) (deadline : Option Nat) (kind : Kind) (id : String) : Option String :=
  match r.ask deadline kind id with
  | .failed reason => some reason
  | _ => none

variable {r : Remote} {deadline : Option Nat} {kind : Kind} {id : String}

theorem owned?_eq_some {a : Artifact} :
    r.owned? deadline kind id = some a ↔ r.ask deadline kind id = .owned a := by
  unfold owned?
  cases r.ask deadline kind id <;> simp

theorem failure?_eq_some {reason : String} :
    r.failure? deadline kind id = some reason ↔ r.ask deadline kind id = .failed reason := by
  unfold failure?
  cases r.ask deadline kind id <;> simp

end Remote

namespace Network

variable (n : Network)

def asked (repo : Option String) : List Remote :=
  match repo with
  | none => n.remotes
  | some repo => n.remotes.filter fun r => r.locator.repo = repo

def Claims (q : Question) : Prop :=
  ∃ r ∈ n.asked q.repo, ∃ a, r.ask n.deadline q.kind q.id = .owned a

def Fails (q : Question) : Prop :=
  ∃ r ∈ n.asked q.repo, ∃ reason, r.ask n.deadline q.kind q.id = .failed reason

/-- The first of the remotes that owns what a question is about, and what it has of it. -/
def owner? (q : Question) : Option (Remote × Artifact) :=
  (n.asked q.repo).findSome? fun r => (r.owned? n.deadline q.kind q.id).map (Prod.mk r)

def failures (q : Question) : List String :=
  (n.asked q.repo).filterMap fun r => r.failure? n.deadline q.kind q.id

def silence (q : Question) : Outcome :=
  match n.asked q.repo, q.repo with
  | [], some repo => .unreachable ("no remote configured for " ++ repo)
  | _, _ =>
    match n.failures q with
    | [] => .unclaimed
    | reasons => .unreachable (String.intercalate "; " reasons)

variable {n} {q : Question}

theorem owner?_eq_some {r : Remote} {a : Artifact} (h : n.owner? q = some (r, a)) :
    r ∈ n.asked q.repo ∧ r.ask n.deadline q.kind q.id = .owned a := by
  obtain ⟨r', hr, ho⟩ := List.exists_of_findSome?_eq_some h
  obtain ⟨a', ha, he⟩ := Option.map_eq_some_iff.1 ho
  cases he
  exact ⟨hr, Remote.owned?_eq_some.1 ha⟩

theorem mem_of_mem_asked {repo : Option String} {r : Remote} (h : r ∈ n.asked repo) :
    r ∈ n.remotes := by
  cases repo with
  | none => exact h
  | some repo => exact (List.mem_filter.1 h).1

theorem owner_mem {r : Remote} {a : Artifact} (h : n.owner? q = some (r, a)) : r ∈ n.remotes :=
  mem_of_mem_asked (owner?_eq_some h).1

theorem claims_iff : n.Claims q ↔ ∃ r a, n.owner? q = some (r, a) := by
  constructor
  · rintro ⟨r, hr, a, ha⟩
    cases ho : n.owner? q with
    | some found => exact ⟨found.1, found.2, rfl⟩
    | none =>
        have hn := List.findSome?_eq_none_iff.1 ho r hr
        rw [Remote.owned?_eq_some.2 ha] at hn
        cases hn
  · rintro ⟨r, a, h⟩
    obtain ⟨hr, ha⟩ := owner?_eq_some h
    exact ⟨r, hr, a, ha⟩

theorem owner?_eq_none (h : ¬ n.Claims q) : n.owner? q = none := by
  rw [claims_iff] at h
  exact Option.eq_none_iff_forall_ne_some.2 fun found hf => h ⟨found.1, found.2, hf⟩

theorem fails_iff : n.Fails q ↔ n.failures q ≠ [] := by
  constructor
  · rintro ⟨r, hr, reason, h⟩
    exact List.ne_nil_of_mem (List.mem_filterMap.2 ⟨r, hr, Remote.failure?_eq_some.2 h⟩)
  · intro h
    obtain ⟨reason, hm⟩ := List.exists_mem_of_ne_nil _ h
    obtain ⟨r, hr, hf⟩ := List.mem_filterMap.1 hm
    exact ⟨r, hr, reason, Remote.failure?_eq_some.1 hf⟩

theorem disclaimed_iff : ¬ n.Claims q ∧ ¬ n.Fails q ↔
    ∀ r ∈ n.asked q.repo, r.ask n.deadline q.kind q.id = .disclaimed := by
  constructor
  · rintro ⟨hc, hf⟩ r hr
    cases h : r.ask n.deadline q.kind q.id with
    | disclaimed => rfl
    | owned a => exact absurd ⟨r, hr, a, h⟩ hc
    | failed reason => exact absurd ⟨r, hr, reason, h⟩ hf
  · intro h
    constructor
    · rintro ⟨r, hr, a, ha⟩
      cases (h r hr).symm.trans ha
    · rintro ⟨r, hr, reason, ha⟩
      cases (h r hr).symm.trans ha

theorem map_snd_candidates (repo : Option String) :
    (n.candidates repo).map Prod.snd = n.asked repo := by
  have hplaced : (n.remotes.zipIdx.map Prod.swap).map Prod.snd = n.remotes := by
    rw [List.map_map]
    exact List.zipIdx_map_fst 0 n.remotes
  cases repo with
  | none => exact hplaced
  | some repo =>
      have hfilter := List.filter_map (f := Prod.snd)
        (p := fun r : Remote => decide (r.locator.repo = repo))
        (l := n.remotes.zipIdx.map Prod.swap)
      rw [hplaced] at hfilter
      exact hfilter.symm

/-- The first remote that owns an id decides, whatever failed before it. Without one the failures
do, and without failures nobody owns it. -/
theorem survey_fst (deadline : Option Nat) (q : Question) (pin : Option Locator)
    (reasons : List String) (places : List Nat) (remotes : List (Nat × Remote)) :
    (survey deadline q pin reasons places remotes).1 =
      match (remotes.map Prod.snd).findSome? fun r =>
          (r.owned? deadline q.kind q.id).map (Prod.mk r) with
      | some (r, a) => .found { a with source := .external (pin.getD r.locator) }
      | none =>
        match reasons.reverse ++ (remotes.map Prod.snd).filterMap fun r =>
            r.failure? deadline q.kind q.id with
        | [] => .unclaimed
        | reasons => .unreachable (String.intercalate "; " reasons) := by
  induction remotes generalizing reasons places with
  | nil =>
      cases reasons with
      | nil => rfl
      | cons reason reasons =>
          have hne : (reason :: reasons).reverse ≠ [] := by simp
          have hnil : survey deadline q pin (reason :: reasons) places [] =
            (.unreachable (String.intercalate "; " (reason :: reasons).reverse), places) := rfl
          rw [hnil]
          generalize (reason :: reasons).reverse = all at hne
          cases all with
          | nil => exact absurd rfl hne
          | cons first rest => simp
  | cons r remotes ih =>
      obtain ⟨place, r⟩ := r
      rw [survey_cons, List.map_cons, List.findSome?_cons, List.filterMap_cons]
      unfold Remote.owned? Remote.failure? at ih ⊢
      cases r.ask deadline q.kind q.id with
      | owned a => rfl
      | disclaimed => exact ih reasons (place :: places)
      | failed reason =>
          have hrest := ih (reason :: reasons) (place :: places)
          rw [List.reverse_cons, List.append_assoc] at hrest
          exact hrest

theorem inquire_fst (n : Network) (q : Question) (pin : Option Locator) :
    (n.inquire q pin).1 =
      match n.owner? q with
      | some (r, a) => .found { a with source := .external (pin.getD r.locator) }
      | none => n.silence q := by
  obtain ⟨kind, id, repo⟩ := q
  have hasked : (n.candidates repo).map Prod.snd = n.asked repo := map_snd_candidates repo
  unfold inquire silence
  dsimp only
  cases hc : n.candidates repo with
  | nil =>
      rw [hc, List.map_nil] at hasked
      have hfail : n.failures ⟨kind, id, repo⟩ = [] := by rw [failures, ← hasked, List.filterMap_nil]
      rw [owner?, hfail, ← hasked]
      cases repo <;> rfl
  | cons c cs =>
      have hs := survey_fst n.deadline ⟨kind, id, repo⟩ pin [] [] (n.candidates repo)
      rw [hasked, hc] at hs
      have hcons : n.asked repo = c.2 :: cs.map Prod.snd := by rw [← hasked, hc, List.map_cons]
      rw [hcons]
      cases repo <;> exact hs

theorem request_resolveReference (n : Network) (r : Reference) : request (n.resolveReference r) =
    match n.owner? r.question with
    | some (_, a) => .ok (r.claim a)
    | none => r.settle (n.silence r.question) := by
  rw [request, resolveReference_empty, inquire_fst]
  cases n.owner? r.question <;> rfl

theorem request_resolveForeign (n : Network) (kind : Kind) (id : String) :
    request (n.resolveForeign kind id) =
      match n.owner? ⟨kind, id, none⟩ with
      | some (r, a) => .ok { a with source := .external r.locator }
      | none => (n.silence ⟨kind, id, none⟩).settle kind id := by
  rw [request, resolveForeign_empty, inquire_fst]
  cases n.owner? ⟨kind, id, none⟩ <;> rfl

theorem resolveReference_of_owner {r : Reference} {remote : Remote} {a : Artifact}
    (h : n.owner? r.question = some (remote, a)) :
    request (n.resolveReference r) = .ok (r.claim a) := by
  rw [request_resolveReference, h]

theorem resolveReference_of_unclaimed {r : Reference} (h : ¬ n.Claims r.question) :
    ∃ reason, request (n.resolveReference r) = .error (.unresolved r.id reason) := by
  rw [request_resolveReference, owner?_eq_none h]
  unfold silence
  dsimp only
  split
  · exact ⟨_, rfl⟩
  · split <;> exact ⟨_, rfl⟩

theorem resolveForeign_of_owner {kind : Kind} {id : String} {remote : Remote} {a : Artifact}
    (h : n.owner? ⟨kind, id, none⟩ = some (remote, a)) :
    request (n.resolveForeign kind id) = .ok { a with source := .external remote.locator } := by
  rw [request_resolveForeign, h]

theorem silence_unpinned (n : Network) (kind : Kind) (id : String) : n.silence ⟨kind, id, none⟩ =
    match n.failures ⟨kind, id, none⟩ with
    | [] => .unclaimed
    | reasons => .unreachable (String.intercalate "; " reasons) := by
  unfold silence
  dsimp only
  cases n.asked none <;> rfl

theorem resolveForeign_of_fails {kind : Kind} {id : String} (h : ¬ n.Claims ⟨kind, id, none⟩)
    (hf : n.Fails ⟨kind, id, none⟩) :
    ∃ reason, request (n.resolveForeign kind id) = .error (.unresolved id reason) := by
  rw [request_resolveForeign, owner?_eq_none h, silence_unpinned]
  obtain ⟨first, rest, hr⟩ := List.exists_cons_of_ne_nil (fails_iff.1 hf)
  rw [hr]
  exact ⟨_, rfl⟩

theorem resolveForeign_of_disclaimed {kind : Kind} {id : String}
    (h : ∀ r ∈ n.remotes, r.ask n.deadline kind id = .disclaimed) :
    request (n.resolveForeign kind id) = .error (.notFound kind id) := by
  obtain ⟨hc, hf⟩ := (disclaimed_iff (n := n) (q := ⟨kind, id, none⟩)).2 h
  rw [request_resolveForeign, owner?_eq_none hc, silence_unpinned, Decidable.not_not.1 (mt fails_iff.2 hf)]
  rfl

theorem resolveForeign_error {kind : Kind} {id : String} {e : Failure}
    (h : request (n.resolveForeign kind id) = .error e) :
    e = .notFound kind id ∨ ∃ reason, e = .unresolved id reason := by
  by_cases hc : n.Claims ⟨kind, id, none⟩
  · obtain ⟨remote, a, ho⟩ := claims_iff.1 hc
    cases (resolveForeign_of_owner ho).symm.trans h
  · by_cases hf : n.Fails ⟨kind, id, none⟩
    · obtain ⟨reason, he⟩ := resolveForeign_of_fails hc hf
      cases he.symm.trans h
      exact .inr ⟨reason, rfl⟩
    · cases (resolveForeign_of_disclaimed (disclaimed_iff.1 ⟨hc, hf⟩)).symm.trans h
      exact .inl rfl

theorem resolve_eq_of_get_none {home : Store} {kind : Kind} {id : String}
    (h : home.get kind id = .ok none) : n.resolve home kind id = n.resolveForeign kind id := by
  unfold resolve
  rw [h]

theorem resolve_of_get_none {home : Store} {kind : Kind} {id : String} (h : home.get kind id = .ok none) :
    request (n.resolve home kind id) = request (n.resolveForeign kind id) := by
  rw [resolve_eq_of_get_none h]

/-- What an id resolves to: an artifact at home, what a reference at home stands for, or what the
first remote has that owns it. -/
inductive Resolved (n : Network) (home : Store) (kind : Kind) (id : String) : Artifact → Prop
  | own {a : Artifact} (hg : home.get kind id = .ok (some (.own a))) : Resolved n home kind id a
  | referred {r : Reference} {remote : Remote} {a : Artifact}
      (hg : home.get kind id = .ok (some (.external r)))
      (ho : n.owner? r.question = some (remote, a)) : Resolved n home kind id (r.claim a)
  | foreign {remote : Remote} {a : Artifact} (hg : home.get kind id = .ok none)
      (ho : n.owner? ⟨kind, id, none⟩ = some (remote, a)) :
      Resolved n home kind id { a with source := .external remote.locator }

theorem exists_owner_of_resolveReference {r : Reference} {a : Artifact}
    (h : request (n.resolveReference r) = .ok a) :
    ∃ remote b, n.owner? r.question = some (remote, b) ∧ r.claim b = a := by
  by_cases hc : n.Claims r.question
  · obtain ⟨remote, b, ho⟩ := claims_iff.1 hc
    exact ⟨remote, b, ho, Except.ok.inj ((resolveReference_of_owner ho).symm.trans h)⟩
  · obtain ⟨reason, he⟩ := resolveReference_of_unclaimed hc
    cases he.symm.trans h

theorem exists_owner_of_resolveForeign {kind : Kind} {id : String} {a : Artifact}
    (h : request (n.resolveForeign kind id) = .ok a) :
    ∃ remote b, n.owner? ⟨kind, id, none⟩ = some (remote, b) ∧
      { b with source := .external remote.locator } = a := by
  by_cases hc : n.Claims ⟨kind, id, none⟩
  · obtain ⟨remote, b, ho⟩ := claims_iff.1 hc
    exact ⟨remote, b, ho, Except.ok.inj ((resolveForeign_of_owner ho).symm.trans h)⟩
  · rw [request_resolveForeign, owner?_eq_none hc, silence_unpinned] at h
    cases hf : n.failures ⟨kind, id, none⟩ <;> simp [hf, Outcome.settle] at h

theorem resolve_eq_ok_iff {home : Store} {kind : Kind} {id : String} {a : Artifact} :
    request (n.resolve home kind id) = .ok a ↔ n.Resolved home kind id a := by
  constructor
  · intro h
    unfold resolve at h
    cases hg : home.get kind id with
    | error e =>
        rw [hg] at h
        cases h
    | ok entry =>
        rw [hg] at h
        match entry with
        | none =>
            obtain ⟨remote, b, ho, rfl⟩ := exists_owner_of_resolveForeign h
            exact .foreign hg ho
        | some (.own b) =>
            cases h
            exact .own hg
        | some (.external r) =>
            obtain ⟨remote, b, ho, rfl⟩ := exists_owner_of_resolveReference h
            exact .referred hg ho
        | some (.malformed id reason) => cases h
  · intro h
    unfold resolve
    cases h with
    | own hg =>
        rw [hg]
        rfl
    | referred hg ho =>
        rw [hg]
        exact resolveReference_of_owner ho
    | foreign hg ho =>
        rw [hg]
        exact resolveForeign_of_owner ho

end Network

end CausalWork
