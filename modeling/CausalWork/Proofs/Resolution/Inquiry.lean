import CausalWork.Proofs.Resolution.Recall
import CausalWork.Proofs.Resolution.Survey

namespace CausalWork

open Project (request)

inductive Inquiry
  | resolve (kind : Kind) (id : String)
  | reference (r : Reference)
  | foreign (kind : Kind) (id : String)
  | references (refs : List Reference)
  | ids (kind : Kind) (ids : List String)

namespace Inquiry

inductive Answer
  | one (told : Except Failure Artifact)
  | references (told : List (Reference × Except Failure Artifact))
  | ids (told : List (String × Except Failure Artifact))
  deriving DecidableEq

def refs (home : Store) : Inquiry → List Reference
  | resolve kind id =>
    match home.get kind id with
    | .ok (some (.external r)) => [r]
    | _ => []
  | reference r => [r]
  | references refs => refs
  | foreign _ _ | ids _ _ => []

def Answer.map (view : Artifact → Artifact) : Answer → Answer
  | one told => one (told.map view)
  | references told => references (told.map (Prod.map id (Except.map view)))
  | ids told => ids (told.map (Prod.map id (Except.map view)))

end Inquiry

theorem Inquiry.Answer.map_id : Answer.map id = id := by
  funext a
  cases a <;> simp [map]

def Network.answer (n : Network) (home : Store) : Inquiry → StateM Memo Inquiry.Answer
  | .resolve kind id => .one <$> n.resolve home kind id
  | .reference r => .one <$> n.resolveReference r
  | .foreign kind id => .one <$> n.resolveForeign kind id
  | .references refs => .references <$> n.resolveReferences refs
  | .ids kind ids => .ids <$> n.resolveIds kind ids

/-- An artifact whose locator says no more than the repository. -/
def Artifact.unpinned (a : Artifact) : Artifact :=
  { a with source := match a.source with
    | .home => .home
    | .external l => .external ⟨l.repo, none, none⟩ }

def Outcome.map (view : Artifact → Artifact) : Outcome → Outcome
  | found a => found (view a)
  | unclaimed => unclaimed
  | unreachable reason => unreachable reason

theorem Outcome.eq_or_found_of_map {view : Artifact → Artifact} {o o' : Outcome}
    (h : o.map view = o'.map view) :
    o = o' ∨ ∃ a b, o = .found a ∧ o' = .found b ∧ view a = view b := by
  cases o with
  | found a =>
      cases o' with
      | found b => exact .inr ⟨a, b, rfl, rfl, Outcome.found.inj h⟩
      | unclaimed | unreachable => cases h
  | unclaimed | unreachable =>
      cases o' with
      | found b => cases h
      | unclaimed | unreachable =>
          cases h <;> exact .inl rfl

namespace Network

variable {n : Network} {home : Store} {ws : Set Wanted} {view : Artifact → Artifact}

/-- Through a view of artifacts, the remotes answer alike all that is wanted under one question, and
what a reference says of an artifact does not matter. -/
structure Alike (n : Network) (ws : Set Wanted) (view : Artifact → Artifact) : Prop where
  outcome : ∀ w ∈ ws, ∀ w' ∈ ws, w.question = w'.question →
    (n.outcome w).map view = (n.outcome w').map view
  after : ∀ (a b : Artifact) (ids : List String), view a = view b →
    view { a with createdAfter := ids } = view { b with createdAfter := ids }

theorem alike_id (h : Set.InjOn Wanted.question ws) : n.Alike ws id where
  outcome := by
    intro w hw w' hw' hq
    rw [h hw hw' hq]
  after := by
    intro a b ids h
    rw [show a = b from h]

theorem survey_unpinned (deadline : Option Nat) (q : Question) {pin pin' : Option Locator}
    (h : pin.map Locator.repo = pin'.map Locator.repo) (reasons : List String) (asked : List Nat)
    (remotes : List (Nat × Remote)) :
    (survey deadline q pin reasons asked remotes).1.map Artifact.unpinned =
      (survey deadline q pin' reasons asked remotes).1.map Artifact.unpinned := by
  induction remotes generalizing reasons asked with
  | nil => cases reasons <;> rfl
  | cons r remotes ih =>
      obtain ⟨place, r⟩ := r
      rw [survey_cons, survey_cons]
      cases r.ask deadline q.kind q.id with
      | disclaimed => exact ih _ _
      | failed reason => exact ih _ _
      | owned a =>
          have hrepo : (pin.getD r.locator).repo = (pin'.getD r.locator).repo := by
            rw [← Option.getD_map Locator.repo, h, Option.getD_map]
          simp only [Outcome.map, Artifact.unpinned, hrepo]

theorem alike_unpinned (n : Network) (ws : Set Wanted) : n.Alike ws Artifact.unpinned where
  outcome := by
    intro w _ w' _ hq
    unfold outcome inquire
    rw [hq]
    split
    · rfl
    · exact survey_unpinned _ _ (Question.mk.inj hq).2.2 _ _ _
  after := by
    intro a b ids h
    obtain ⟨hid, hk, hs, -, hsub, hsrc⟩ := Artifact.mk.inj h
    exact Artifact.mk.injEq .. ▸ ⟨hid, hk, hs, rfl, hsub, hsrc⟩

theorem resolveReferences_eq (n : Network) (refs : List Reference) :
    n.resolveReferences refs = refs.mapM fun r => Prod.mk r <$> n.resolveReference r := rfl

theorem resolveIds_eq (n : Network) (kind : Kind) (ids : List String) :
    n.resolveIds kind ids = ids.mapM fun id => Prod.mk id <$> n.resolveForeign kind id := rfl

theorem Alike.settle_reference (ha : n.Alike ws view) (r : Reference) {o o' : Outcome}
    (h : o.map view = o'.map view) : (r.settle o).map view = (r.settle o').map view := by
  rcases Outcome.eq_or_found_of_map h with rfl | ⟨a, b, rfl, rfl, hab⟩
  · rfl
  · exact congrArg Except.ok (ha.after a b r.createdAfter hab)

theorem settle_foreign (kind : Kind) (id : String) {o o' : Outcome}
    (h : o.map view = o'.map view) : (o.settle kind id).map view = (o'.settle kind id).map view := by
  rcases Outcome.eq_or_found_of_map h with rfl | ⟨a, b, rfl, rfl, hab⟩
  · rfl
  · exact congrArg Except.ok hab

theorem steady_resolveReference (ha : n.Alike ws view) {r : Reference} (hr : r.wanted ∈ ws) :
    n.Steady ws (Except.map view) (n.resolveReference r) := by
  rw [resolveReference_eq]
  exact (steady_lookup ha.outcome hr).map fun _ _ => ha.settle_reference r

theorem steady_resolveForeign (ha : n.Alike ws view) {kind : Kind} {id : String}
    (hw : ⟨kind, id, none⟩ ∈ ws) : n.Steady ws (Except.map view) (n.resolveForeign kind id) := by
  rw [resolveForeign_eq]
  exact (steady_lookup ha.outcome hw).map fun _ _ => settle_foreign kind id

theorem steady_resolveReferences (ha : n.Alike ws view) {refs : List Reference}
    (hr : ∀ r ∈ refs, r.wanted ∈ ws) :
    n.Steady ws (List.map (Prod.map id (Except.map view))) (n.resolveReferences refs) := by
  rw [resolveReferences_eq]
  refine steady_mapM fun r hm => (steady_resolveReference ha (hr r hm)).map fun a b h => ?_
  exact congrArg (Prod.mk r) h

theorem steady_resolveIds (ha : n.Alike ws view) (kind : Kind) {ids : List String}
    (hw : ∀ id ∈ ids, ⟨kind, id, none⟩ ∈ ws) :
    n.Steady ws (List.map (Prod.map id (Except.map view))) (n.resolveIds kind ids) := by
  rw [resolveIds_eq]
  refine steady_mapM fun id hm => (steady_resolveForeign ha (hw id hm)).map fun a b h => ?_
  exact congrArg (Prod.mk id) h

theorem steady_resolve (ha : n.Alike ws view) {kind : Kind} {id : String}
    (hr : ∀ r, home.get kind id = .ok (some (.external r)) → r.wanted ∈ ws)
    (hw : ⟨kind, id, none⟩ ∈ ws) : n.Steady ws (Except.map view) (n.resolve home kind id) := by
  unfold resolve
  cases hg : home.get kind id with
  | error e => exact steady_pure _
  | ok entry =>
      match entry with
      | none => exact steady_resolveForeign ha hw
      | some (.own a) => exact steady_pure _
      | some (.external r) => exact steady_resolveReference ha (hr r hg)
      | some (.malformed id reason) => exact steady_pure _

section

variable (hinj : Set.InjOn Wanted.question ws)

include hinj

theorem steady_resolveReference_id {r : Reference} (hr : r.wanted ∈ ws) :
    n.Steady ws id (n.resolveReference r) := by
  have h := steady_resolveReference (alike_id (n := n) hinj) hr
  rwa [Except.map_id] at h

theorem steady_resolveForeign_id {kind : Kind} {p : String} (hw : ⟨kind, p, none⟩ ∈ ws) :
    n.Steady ws id (n.resolveForeign kind p) := by
  have h := steady_resolveForeign (alike_id (n := n) hinj) hw
  rwa [Except.map_id] at h

theorem steady_resolveReferences_id {refs : List Reference} (hr : ∀ r ∈ refs, r.wanted ∈ ws) :
    n.Steady ws id (n.resolveReferences refs) := by
  have h := steady_resolveReferences (alike_id (n := n) hinj) hr
  rwa [Except.map_id, Prod.map_id, List.map_id_fun] at h

theorem steady_resolveIds_id (kind : Kind) {ids : List String}
    (hw : ∀ id ∈ ids, ⟨kind, id, none⟩ ∈ ws) : n.Steady ws id (n.resolveIds kind ids) := by
  have h := steady_resolveIds (alike_id (n := n) hinj) kind hw
  rwa [Except.map_id, Prod.map_id, List.map_id_fun] at h

end

theorem request_resolveReferences {refs : List Reference}
    (hinj : Set.InjOn Wanted.question (asking refs)) :
    request (n.resolveReferences refs) = refs.map fun r => (r, request (n.resolveReference r)) :=
  mapM_empty fun r hr => (steady_resolveReference_id hinj (.inr ⟨r, hr, rfl⟩)).map
    fun _ _ h => congrArg (Prod.mk r) h

theorem request_resolveIds (n : Network) (kind : Kind) (ids : List String) :
    request (n.resolveIds kind ids) = ids.map fun id => (id, request (n.resolveForeign kind id)) := by
  have hinj : Set.InjOn Wanted.question (asking []) := injOn_asking (by simp)
  exact mapM_empty fun p _ => (steady_resolveForeign_id hinj (.inl rfl)).map
    fun _ _ h => congrArg (Prod.mk p) h

theorem steady_answer {asked : List Reference} (ha : n.Alike (asking asked) view) {call : Inquiry}
    (hr : ∀ r ∈ call.refs home, r ∈ asked) :
    n.Steady (asking asked) (Inquiry.Answer.map view) (n.answer home call) := by
  have hwanted : ∀ r ∈ call.refs home, r.wanted ∈ asking asked :=
    fun r hm => .inr ⟨r, hr r hm, rfl⟩
  cases call with
  | resolve kind id =>
      refine (steady_resolve ha ?_ (.inl rfl)).map fun a b h => congrArg Inquiry.Answer.one h
      intro r hg
      exact hwanted r (by simp [Inquiry.refs, hg])
  | reference r =>
      exact (steady_resolveReference ha (hwanted r List.mem_cons_self)).map
        fun a b h => congrArg Inquiry.Answer.one h
  | foreign kind id =>
      exact (steady_resolveForeign ha (.inl rfl)).map fun a b h => congrArg Inquiry.Answer.one h
  | references refs =>
      exact (steady_resolveReferences ha hwanted).map
        fun a b h => congrArg Inquiry.Answer.references h
  | ids kind ids =>
      exact (steady_resolveIds ha kind fun _ _ => .inl rfl).map
        fun a b h => congrArg Inquiry.Answer.ids h

theorem map_kept_answers {calls : List Inquiry}
    (ha : n.Alike (asking (calls.flatMap (Inquiry.refs home))) view) :
    (request (calls.mapM (n.answer home))).map (Inquiry.Answer.map view) =
      calls.map fun call => (request (n.answer home call)).map view :=
  (mapM_of_steady (fun call hm => steady_answer ha fun _ hr => List.mem_flatMap.2 ⟨call, hm, hr⟩)
    recalls_empty).1

theorem source_of_resolveReference {r : Reference} {a : Artifact}
    (h : request (n.resolveReference r) = .ok a) : a.source = .external r.locator := by
  by_cases hc : n.Claims r.question
  · obtain ⟨remote, b, ho⟩ := claims_iff.1 hc
    cases (resolveReference_of_owner ho).symm.trans h
    rfl
  · obtain ⟨reason, he⟩ := resolveReference_of_unclaimed hc
    cases he.symm.trans h

/-- One resolver that is kept for all calls tells of each what a fresh one tells, but for the branch
and the revision in the locators of what it found. Those are right too if the references to one
artifact of one repository agree on them. -/
theorem kept_answers (n : Network) (home : Store) (calls : List Inquiry) :
    let kept := request (calls.mapM (n.answer home))
    let fresh := calls.map fun call => request (n.answer home call)
    let refs := calls.flatMap (Inquiry.refs home)
    kept.map (Inquiry.Answer.map Artifact.unpinned) =
        fresh.map (Inquiry.Answer.map Artifact.unpinned) ∧
      ((∀ r ∈ refs, ∀ r' ∈ refs, r.kind = r'.kind → r.id = r'.id →
          r.locator.repo = r'.locator.repo → r.locator = r'.locator) → kept = fresh) ∧
      ∀ r a, request (n.resolveReference r) = .ok a → a.source = .external r.locator := by
  intro kept fresh refs
  refine ⟨?_, fun hagree => ?_, fun r a => source_of_resolveReference⟩
  · rw [List.map_map]
    exact map_kept_answers (n.alike_unpinned _)
  · have hinj : Set.InjOn Wanted.question (asking refs) := by
      refine injOn_asking fun r hr r' hr' hq => ?_
      obtain ⟨hkind, hid, hrepo⟩ := Question.mk.inj hq
      exact hagree r hr r' hr' hkind hid (Option.some.inj hrepo)
    have hmap := map_kept_answers (alike_id (n := n) hinj)
    rw [Inquiry.Answer.map_id, List.map_id] at hmap
    exact hmap

/-- Of two references to one chunk, the second gets the branch of the first and not its own
revision. -/
theorem kept_locator_stale :
    let lib := (MemoryStore.named "lib").insertArtifact
      ⟨"parser", .chunk, .chunk .future, [], [], .home⟩
    let n : Network := ⟨[⟨⟨"lib", none, none⟩, lib.store⟩], none⟩
    let home := (MemoryStore.named "home").store
    let main : Reference := ⟨"parser", .chunk, ⟨"lib", some "main", none⟩, ["lexer"]⟩
    let fixed : Reference := ⟨"parser", .chunk, ⟨"lib", none, some "v2"⟩, ["ast"]⟩
    let found (l : Locator) (parents : List String) : Inquiry.Answer :=
      .one (.ok ⟨"parser", .chunk, .chunk .future, parents, [], .external l⟩)
    let calls : List Inquiry := [.reference main, .reference fixed]
    request (calls.mapM (n.answer home)) =
        [found main.locator ["lexer"], found main.locator ["ast"]] ∧
      (calls.map fun call => request (n.answer home call)) =
        [found main.locator ["lexer"], found fixed.locator ["ast"]] ∧
      main.locator ≠ fixed.locator := by
  decide +kernel

end Network

end CausalWork
