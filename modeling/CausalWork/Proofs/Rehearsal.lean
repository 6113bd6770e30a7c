import CausalWork.Command.Run
import CausalWork.Proofs.Examination
import CausalWork.Proofs.Pool.Closed
import CausalWork.Proofs.Store

namespace CausalWork

open Project (request)

def Failure.exit : Failure → Exit
  | rejected _ _ => .rejected
  | alreadyInjected _ _ => .alreadyInjected
  | _ => .failed

theorem Failure.exit_ofStore (e : StoreError) : (ofStore e).exit = .failed := by cases e <;> rfl

namespace Memo

variable {α β : Type} {x : StateM Memo (Except Failure α)} {k : α → StateM Memo (Except Failure β)}

/-- A request fails neither for issues nor for a live unit, whatever it was told before. -/
def Plain (x : StateM Memo (Except Failure α)) : Prop :=
  ∀ m e, (x m).1 = .error e → e.exit = .failed

theorem plain_pure {r : Except Failure α} (h : ∀ e, r = .error e → e.exit = .failed) :
    Plain (pure r) := fun _ e => h e

theorem Plain.andThen (hx : Plain x) (hk : ∀ a, Plain (k a)) : Plain (andThen x k) := by
  intro m e h
  have hrun : (Memo.andThen x k m).1 = match x m with
      | (.error e, _) => .error e
      | (.ok a, m) => (k a m).1 := by
    unfold Memo.andThen
    simp only [bind, StateT.bind]
    obtain ⟨told, m'⟩ := x m
    cases told <;> rfl
  rw [hrun] at h
  cases hx' : x m with
  | mk told m' =>
      rw [hx'] at h
      cases told with
      | ok a => exact hk a m' e h
      | error e' =>
          obtain rfl := Except.error.inj h
          exact hx m e' (by rw [hx'])

end Memo

open Memo

namespace Network

variable (n : Network) {home : Store} {kind : Kind} {id : String}

theorem resolveForeign_error_cases {m : Memo} {e : Failure}
    (h : (n.resolveForeign kind id m).1 = .error e) :
    e = .notFound kind id ∨ ∃ reason, e = .unresolved id reason := by
  rw [resolveForeign_eq] at h
  replace h : (n.lookup kind id none m).1.settle kind id = .error e := h
  cases ho : (n.lookup kind id none m).1 with
  | found a =>
      rw [ho] at h
      cases h
  | unclaimed =>
      rw [ho] at h
      cases h
      exact .inl rfl
  | unreachable reason =>
      rw [ho] at h
      cases h
      exact .inr ⟨reason, rfl⟩

theorem plain_resolveForeign : Plain (n.resolveForeign kind id) := by
  intro m e h
  rcases n.resolveForeign_error_cases h with rfl | ⟨reason, rfl⟩ <;> rfl

theorem plain_resolveReference (r : Reference) : Plain (n.resolveReference r) := by
  intro m e h
  rw [resolveReference_eq] at h
  replace h : r.settle (n.lookup r.kind r.id (some r.locator) m).1 = .error e := h
  cases ho : (n.lookup r.kind r.id (some r.locator) m).1 with
  | found a =>
      rw [ho] at h
      cases h
  | unclaimed | unreachable =>
      rw [ho] at h
      cases h
      rfl

theorem plain_resolve : Plain (n.resolve home kind id) := by
  rw [resolve]
  split
  · exact plain_pure fun e h => Except.error.inj h ▸ Failure.exit_ofStore _
  · exact plain_pure fun e h => by cases h
  · exact n.plain_resolveReference _
  · exact plain_pure fun e h => Except.error.inj h ▸ rfl
  · exact n.plain_resolveForeign

end Network

theorem Snapshot.plain_load (home : Store) (n : Network) (kind : Kind) :
    Plain (Snapshot.load home n kind) := by
  cases hl : home.list kind with
  | error e =>
      rw [Snapshot.load_of_error n hl]
      exact plain_pure fun e h => Except.error.inj h ▸ Failure.exit_ofStore _
  | ok entries =>
      intro m e h
      rw [Snapshot.load_eq n hl] at h
      unfold Snapshot.complete at h
      split at h <;> cases h

namespace Project

variable {p : Project} {kind : Kind} {id : String}

theorem missingAmong_resolveIds (n : Network) (kind : Kind) (ids : List String) (m : Memo) :
    ∃ missing, missingAmong (n.resolveIds kind ids m).1 = .ok missing := by
  induction ids generalizing m with
  | nil => exact ⟨[], rfl⟩
  | cons id ids ih =>
      have hcons : (n.resolveIds kind (id :: ids) m).1 = (id, (n.resolveForeign kind id m).1) ::
          (n.resolveIds kind ids (n.resolveForeign kind id m).2).1 := by
        rw [Network.resolveIds, List.mapM_cons]
        rfl
      obtain ⟨missing, hrest⟩ := ih (n.resolveForeign kind id m).2
      rw [hcons, missingAmong, hrest]
      cases hr : (n.resolveForeign kind id m).1 with
      | ok a => exact ⟨_, rfl⟩
      | error e => rcases n.resolveForeign_error_cases hr with rfl | ⟨reason, rfl⟩ <;> exact ⟨_, rfl⟩

theorem exists_brokenLinks (n : Network) (a : Artifact) (s : Snapshot) (m : Memo) :
    ∃ links, (brokenLinks n a s m).1 = .ok links := by
  let unknown := (ascending a.createdAfter).filter fun parent => (s.get? parent).isNone
  have hrun : ∃ link, (brokenLinks n a s m).1 =
      (missingAmong (n.resolveIds a.kind unknown m).1).map link := ⟨_, rfl⟩
  obtain ⟨link, hrun⟩ := hrun
  obtain ⟨missing, hmissing⟩ := missingAmong_resolveIds n a.kind unknown m
  rw [hrun, hmissing]
  exact ⟨_, rfl⟩

theorem exit_summary {a : Artifact} {e : Failure} (h : p.summary a = .error e) : e.exit = .failed := by
  unfold summary at h
  split at h
  · cases h
  · split at h
    · cases h
    · exact Except.error.inj h ▸ Failure.exit_ofStore _

theorem plain_judge (p : Project) (a : Artifact) (s : Snapshot) : Plain (judge p a s) := by
  unfold judge
  split
  · exact plain_pure fun e h => Except.error.inj h ▸ rfl
  · intro m e h
    obtain ⟨links, hlinks⟩ := exists_brokenLinks p.network a s m
    replace h : ((brokenLinks p.network a s m).1.bind fun links =>
        (p.summary a).bind fun summary => .ok (a, a.issues summary links)) = .error e := h
    rw [hlinks] at h
    exact exit_summary (error_of_bind h fun _ _ he => by cases he)

/-- An examination ends without a verdict only for what cannot be looked at. -/
theorem plain_examine (p : Project) (kind : Kind) (id : String) : Plain (p.examine kind id) := by
  rw [examine_eq]
  exact p.network.plain_resolve.andThen fun a =>
    (Snapshot.plain_load _ _ _).andThen fun s => plain_judge p a _

end Project

namespace Pool

variable {t : FileTree} {path : String} {u : WorkUnit}

/-- The journal that is read in a file once the file is held. -/
def Reads (t : FileTree) (path : String) (before : Journal) : Prop :=
  (lock t path).1 = .ok () ∧ journal (lock t path).2 path = .ok before

/-- How the pool in a file may answer to a unit that is to be added. -/
inductive Answers (t : FileTree) (path : String) (u : WorkUnit) : Exit → Prop
  | held {e : FileError} (h : (lock t path).1 = .error e) : Answers t path u .failed
  | unread {e : FileError} (hl : (lock t path).1 = .ok ())
      (h : journal (lock t path).2 path = .error e) : Answers t path u .failed
  | damaged {before : Journal} {e : PoolError} (hr : Reads t path before)
      (h : before.units = .error e) : Answers t path u .failed
  | busy {before : Journal} {units : Units} (hr : Reads t path before)
      (hu : before.units = .ok units)
      (h : ∃ live ∈ units.map Prod.snd, live.isFor u.kind u.artifactId ∧ live.isLive) :
      Answers t path u .alreadyInjected
  | unsaved {before : Journal} {units : Units} {e : FileError} (hr : Reads t path before)
      (hu : before.units = .ok units)
      (h : ∀ v ∈ units.map Prod.snd, v.isFor u.kind u.artifactId → v.isLive = false)
      (hs : save (lock t path).2 path before (enqueue before u).2 = .error e) :
      Answers t path u .failed
  | taken {before : Journal} {units : Units} {after : FileTree} (hr : Reads t path before)
      (hu : before.units = .ok units)
      (h : ∀ v ∈ units.map Prod.snd, v.isFor u.kind u.artifactId → v.isLive = false)
      (hs : save (lock t path).2 path before (enqueue before u).2 = .ok after) :
      Answers t path u .done

def exit : Except PoolError Uuid → Exit
  | .ok _ => .done
  | .error e => (Failure.ofPool e).exit

theorem exit_event?_error {line : Bytes} {e : PoolError} (h : Journal.event? line = .error e) :
    (Failure.ofPool e).exit = .failed := by
  unfold Journal.event? at h
  split at h
  · cases h
    rfl
  · split at h
    · cases h
    · split at h
      · cases h
        rfl
      · cases h

theorem exit_units_error {before : Journal} {e : PoolError} (h : before.units = .error e) :
    (Failure.ofPool e).exit = .failed := by
  have hevents : before.events = .error e := error_of_bind h fun _ _ he => by cases he
  obtain ⟨line, -, hline⟩ :=
    exists_of_mapM_eq_error (error_of_bind hevents fun _ _ he => by cases he)
  exact exit_event?_error hline

theorem enqueue_cases (before : Journal) (u : WorkUnit) :
    (∃ e, before.units = .error e ∧ enqueue before u = (.error e, before)) ∨
    (∃ units live, before.units = .ok units ∧ live ∈ units.map Prod.snd ∧
      live.isFor u.kind u.artifactId ∧ live.isLive ∧
      enqueue before u = (.error (.conflict u.artifactId live.id), before)) ∨
    ∃ units, before.units = .ok units ∧
      (∀ v ∈ units.map Prod.snd, v.isFor u.kind u.artifactId → v.isLive = false) ∧
      (enqueue before u).1 = .ok u.id := by
  cases hu : before.units with
  | error e => exact .inl ⟨e, rfl, by rw [enqueue, hu]⟩
  | ok units =>
      right
      cases hf : (ofArtifact units u.kind u.artifactId).find? WorkUnit.isLive with
      | some live =>
          obtain ⟨hm, hfor⟩ := List.mem_filter.1 (List.mem_of_find?_eq_some hf)
          exact .inl ⟨units, live, rfl, hm, hfor, List.find?_some hf,
            by rw [Journal.enqueue_eq hu, hf]⟩
      | none =>
          refine .inr ⟨units, rfl, fun v hv hfor => ?_, by rw [Journal.enqueue_eq hu, hf]⟩
          simpa using List.find?_eq_none.1 hf v (List.mem_filter.2 ⟨hv, hfor⟩)

theorem onFile_fst {α : Type} (t : FileTree) (path : String)
    (operation : Journal → Except PoolError α × Journal) : (onFile t path operation).1 =
      (attempt (lock t path).1).bind fun _ =>
        (attempt (journal (lock t path).2 path)).bind fun before =>
          (attempt (save (lock t path).2 path before (operation before).2)).bind fun _ =>
            (operation before).1 := by
  unfold onFile
  obtain ⟨taken, locked⟩ := lock t path
  cases taken with
  | error e => rfl
  | ok _ =>
      dsimp only
      cases journal locked path with
      | error e => rfl
      | ok before =>
          dsimp only [attempt, Except.bind]
          cases save locked path before (operation before).2 <;> rfl

theorem answers_onFile (t : FileTree) (path : String) (u : WorkUnit) :
    Answers t path u (exit (onFile t path fun journal => enqueue journal u).1) := by
  rw [onFile_fst]
  cases hl : (lock t path).1 with
  | error e => exact .held hl
  | ok _ =>
      cases hj : journal (lock t path).2 path with
      | error e => exact .unread hl hj
      | ok before =>
          have hr : Reads t path before := ⟨hl, hj⟩
          change Answers t path u (exit ((attempt (save (lock t path).2 path before
            (enqueue before u).2)).bind fun _ => (enqueue before u).1))
          have hkept : save (lock t path).2 path before before = .ok (lock t path).2 := if_pos rfl
          rcases enqueue_cases before u with ⟨e, hu, he⟩ | ⟨units, live, hu, hm, hfor, hlive, he⟩ |
            ⟨units, hu, hfree, he⟩
          · rw [he, hkept]
            have hexit : exit (.error e) = .failed := exit_units_error hu
            exact hexit ▸ .damaged hr hu
          · rw [he, hkept]
            exact .busy hr hu ⟨live, hm, hfor, hlive⟩
          · rw [he]
            cases hs : save (lock t path).2 path before (enqueue before u).2 with
            | error e => exact .unsaved hr hu hfree hs
            | ok after => exact .taken hr hu hfree hs

theorem Answers.eq_of_busy {x : Exit} (h : Answers t path u x) {before : Journal}
    (hr : Reads t path before) {units : Units} (hu : before.units = .ok units) {live : WorkUnit}
    (hm : live ∈ units.map Prod.snd) (hfor : live.isFor u.kind u.artifactId) (hlive : live.isLive) :
    x = .alreadyInjected := by
  have hsame {other : Journal} (ho : Reads t path other) : other = before :=
    Except.ok.inj (ho.2.symm.trans hr.2)
  cases h with
  | held h => cases h.symm.trans hr.1
  | unread _ h => cases h.symm.trans hr.2
  | damaged ho h =>
      obtain rfl := hsame ho
      cases h.symm.trans hu
  | busy => rfl
  | unsaved ho hu' h | taken ho hu' h =>
      obtain rfl := hsame ho
      obtain rfl := Except.ok.inj (hu'.symm.trans hu)
      rw [h live hm hfor] at hlive
      cases hlive

end Pool

namespace Config

variable (c : Config) (t : FileTree) {fresh : Uuid} {now : Timestamp} {kind : Kind} {id : String}

theorem honest_home : (c.project t).home.Honest := FileStore.honest_store _

theorem honest_remotes : ∀ r ∈ (c.project t).network.remotes, r.store.Honest := by
  intro r hr
  obtain ⟨checkout, -, rfl⟩ := List.mem_map.1 hr
  exact FileStore.honest_store _

theorem inject_of_prepare_error {e : Failure}
    (h : request ((c.project t).prepare fresh now kind id) = .error e) :
    c.inject t fresh now kind id = (.error e, t) := by
  rw [inject, h]

theorem inject_of_prepare {u : WorkUnit}
    (h : request ((c.project t).prepare fresh now kind id) = .ok u) :
    (c.inject t fresh now kind id).1 =
      (Pool.onFile t c.journal fun journal => Pool.enqueue journal u).1.mapError .ofPool := by
  rw [inject, h]
  dsimp only
  obtain ⟨answer, after⟩ := Pool.onFile t c.journal fun journal => Pool.enqueue journal u
  cases answer <;> rfl

end Config

namespace Command

open Run

variable {around : Surroundings} {t : FileTree} {fresh : Uuid} {now : Timestamp} {kind : Kind}
  {id : String}

theorem exit_injected (kind : Kind) (id : String) (json : Bool) (t : FileTree)
    (result : Except Failure Uuid) : (injected kind id json t result).exit =
      match result with
      | .ok _ => .done
      | .error e => e.exit := by
  cases result with
  | ok id => cases json <;> rfl
  | error e => cases e <;> rfl

theorem withPool_cases (around : Surroundings) (t : FileTree) :
    (∃ made message causes, t.Grows made ∅ ∧
      ∀ next, withPool around t next = stopped made message causes) ∨
    ∃ c made, t.Grows made ∅ ∧ Config.load t around = .ok c ∧
      t.makeDirectories ((Path.parent? c.journal).getD "") = (.ok (), made) ∧
      ∀ next, withPool around t next = next c made := by
  cases hc : Config.load t around with
  | error e => exact .inl ⟨t, e.message, [], .refl t ∅, fun next => by rw [withPool, withConfig, hc]⟩
  | ok c =>
      have hgrows := FileTree.grows_makeChain (Path.ancestors ((Path.parent? c.journal).getD "")) t
      cases hm : t.makeDirectories ((Path.parent? c.journal).getD "") with
      | mk made tree =>
          have hmade : t.Grows tree ∅ := by
            unfold FileTree.makeDirectories at hm
            rwa [hm] at hgrows
          cases made with
          | error e =>
              refine .inl ⟨tree, "Failed to open work pool", [e.message], hmade, fun next => ?_⟩
              simp only [withPool, withConfig, hc, hm]
          | ok _ =>
              refine .inr ⟨c, tree, hmade, rfl, hm, fun next => ?_⟩
              simp only [withPool, withConfig, hc, hm]

section

variable (c : Config) (made : FileTree) (fresh : Uuid) (now : Timestamp)

theorem exit_validate_error {e : Failure}
    (h : request ((c.project made).validate kind id) = .error e) : e.exit = .failed := by
  rw [Project.request_validate] at h
  cases hx : request ((c.project made).examine kind id) with
  | ok found =>
      rw [hx] at h
      cases h
  | error e' =>
      rw [hx] at h
      obtain rfl := Except.error.inj h
      exact Project.plain_examine _ _ _ Memo.empty e' hx

theorem exit_inject_of_validate_error {e : Failure}
    (h : request ((c.project made).validate kind id) = .error e) (json : Bool) (t : FileTree) :
    (injected kind id json t (c.inject made fresh now kind id).1).exit = .failed := by
  rw [c.inject_of_prepare_error made (Project.prepare_of_validate_error h fresh now), exit_injected]
  exact exit_validate_error c made h

theorem exit_inject_of_issues {issues : List Issue}
    (h : request ((c.project made).validate kind id) = .ok issues) (hne : issues ≠ []) (json : Bool)
    (t : FileTree) :
    (injected kind id json t (c.inject made fresh now kind id).1).exit = .rejected := by
  rw [c.inject_of_prepare_error made (Project.prepare_of_issues (c.honest_home made)
    (c.honest_remotes made) h hne fresh now), exit_injected]
  rfl

/-- Without issues the pool decides. -/
theorem answers_of_no_issues (h : request ((c.project made).validate kind id) = .ok []) (json : Bool)
    (t : FileTree) : ∃ a, a.kind = kind ∧ a.id = id ∧
      Pool.Answers made c.journal (WorkUnit.queued fresh now a)
        (injected kind id json t (c.inject made fresh now kind id).1).exit := by
  obtain ⟨a, -, hk, hid, hp⟩ :=
    Project.prepare_of_no_issues (c.honest_home made) (c.honest_remotes made) h fresh now
  refine ⟨a, hk, hid, ?_⟩
  have hanswers := Pool.answers_onFile made c.journal (WorkUnit.queued fresh now a)
  rw [c.inject_of_prepare made hp, exit_injected]
  generalize (Pool.onFile made c.journal _).1 = answer at hanswers ⊢
  cases answer <;> exact hanswers

end

theorem run_inject (json : Bool) : run around t fresh now (.inject id kind json) =
    withPool around t fun c made => injected kind id json (c.inject made fresh now kind id).2
      (c.inject made fresh now kind id).1 := rfl

theorem run_validate (json : Bool) : run around t fresh now (.validate id kind json) =
    withPool around t fun c made =>
      match request ((c.project made).validate kind id) with
      | .ok issues => validated kind id json made issues
      | .error e => ofFailure made e := rfl

/-- What the end of an injection has to do with the end of its check, where the pool is at hand. -/
structure Foretells (c : Config) (made : FileTree) (fresh : Uuid) (now : Timestamp) (kind : Kind)
    (id : String) (check real : Exit) : Prop where
  refused : check ≠ .done → real = check
  blind : check ≠ .alreadyInjected
  accepted : check = .done → ∃ a, a.kind = kind ∧ a.id = id ∧
    Pool.Answers made c.journal (WorkUnit.queued fresh now a) real

theorem Foretells.of_refused {c : Config} {made : FileTree} {check real : Exit} (h : real = check)
    (hdone : check ≠ .done) (hblind : check ≠ .alreadyInjected) :
    Foretells c made fresh now kind id check real :=
  ⟨fun _ => h, hblind, fun hd => absurd hd hdone⟩

theorem foretells_inject (c : Config) (made : FileTree) (json json' : Bool) :
    Foretells c made fresh now kind id
      (match request ((c.project made).validate kind id) with
        | .ok issues => validated kind id json made issues
        | .error e => ofFailure made e).exit
      (injected kind id json' (c.inject made fresh now kind id).2
        (c.inject made fresh now kind id).1).exit := by
  cases hv : request ((c.project made).validate kind id) with
  | error e =>
      exact .of_refused (exit_inject_of_validate_error c made fresh now hv json' _) (by rintro ⟨⟩)
        (by rintro ⟨⟩)
  | ok issues =>
      cases issues with
      | nil =>
          refine ⟨fun hne => absurd rfl hne, by rintro ⟨⟩, fun _ => ?_⟩
          exact answers_of_no_issues c made fresh now hv json' _
      | cons issue issues =>
          exact .of_refused (exit_inject_of_issues c made fresh now hv (List.cons_ne_nil _ _) json' _)
            (by rintro ⟨⟩) (by rintro ⟨⟩)

theorem foretells_run {c : Config} {made : FileTree}
    (h : ∀ next, withPool around t next = next c made) (fresh : Uuid) (now : Timestamp)
    (kind : Kind) (id : String) (json json' : Bool) :
    Foretells c made fresh now kind id (run around t fresh now (.validate id kind json)).exit
      (run around t fresh now (.inject id kind json')).exit := by
  rw [run_validate, run_inject, h, h]
  exact foretells_inject c made json json'

theorem tree_check (c : Config) (made : FileTree) (json : Bool) :
    (match request ((c.project made).validate kind id) with
      | .ok issues => validated kind id json made issues
      | .error e => ofFailure made e).tree = made := by
  cases request ((c.project made).validate kind id) <;> rfl

theorem find?_file_of_grows {made : FileTree} (hg : t.Grows made ∅) (names : List String)
    (content : Bytes) : made.root.find? names = some (.file content) ↔
      t.root.find? names = some (.file content) := by
  rw [← Node.look_eq_content_iff, ← Node.look_eq_content_iff]
  refine ⟨fun hv => ?_, hg.within names _⟩
  rcases hg.added names _ hv with hold | hdir | ⟨-, hfresh⟩
  · exact hold
  · cases hdir
  · exact absurd hfresh (Set.notMem_empty _)

/-- A check never looks into the pool. An injection ends as its check does, unless the check finds
nothing; then it ends as the pool decides, which may be that the artifact has a live unit. A check
changes no file. -/
theorem check_leaves_pool (around : Surroundings) (t : FileTree) (fresh : Uuid) (now : Timestamp)
    (kind : Kind) (id : String) (json json' : Bool) :
    let check := run around t fresh now (.validate id kind json)
    let real := run around t fresh now (.inject id kind json')
    (check.exit ≠ .done → real.exit = check.exit) ∧
      check.exit ≠ .alreadyInjected ∧
      (check.exit = .done → ∃ c made a, Config.load t around = .ok c ∧
        t.makeDirectories ((Path.parent? c.journal).getD "") = (.ok (), made) ∧
        a.kind = kind ∧ a.id = id ∧
        Pool.Answers made c.journal (WorkUnit.queued fresh now a) real.exit) ∧
      ∀ names content, check.tree.root.find? names = some (.file content) ↔
        t.root.find? names = some (.file content) := by
  rcases withPool_cases around t with ⟨made, message, causes, hg, hstop⟩ |
    ⟨c, made, hg, hc, hm, hnext⟩
  · rw [run_validate, run_inject, hstop, hstop]
    exact ⟨fun _ => rfl, by rintro ⟨⟩, by rintro ⟨⟩, find?_file_of_grows hg⟩
  · obtain ⟨hrefused, hblind, haccepted⟩ := foretells_run hnext fresh now kind id json json'
    refine ⟨hrefused, hblind, fun hd => ?_, ?_⟩
    · obtain ⟨a, hk, hid, ha⟩ := haccepted hd
      exact ⟨c, made, a, hc, hm, hk, hid, ha⟩
    · rw [run_validate, hnext, tree_check]
      exact find?_file_of_grows hg

def sampleTree (content : Bytes) : FileTree :=
  let chunk := Node.directory [("artifact.yaml", .file (Bytes.ofText "status: FUTURE\n"))]
  ⟨.directory [("docs", .directory [("chunks", .directory [("lexer", chunk)])]),
    ("state", .directory [("work_pool.jsonl", .file content)])], []⟩

def sampleSurroundings : Surroundings := ⟨some "/user", some "/state", some "/docs"⟩

def sampleConfig : Config := ⟨"/state", "/docs", [], none, none⟩

theorem withPool_sample (content : Bytes) (next : Config → FileTree → Run) :
    withPool sampleSurroundings (sampleTree content) next =
      next sampleConfig (sampleTree content) := by
  have hload : Config.load (sampleTree content) sampleSurroundings = .ok sampleConfig := by rfl
  have hmade : (sampleTree content).makeDirectories ((Path.parent? sampleConfig.journal).getD "") =
      (.ok (), sampleTree content) := by rfl
  simp only [withPool, withConfig, hload, hmade]

theorem reads_sample (content : Bytes) :
    Pool.Reads (sampleTree content) sampleConfig.journal (some content) := by
  exact ⟨by rfl, by rfl⟩

theorem exit_inject_sample {now : Timestamp} {u : WorkUnit} (hk : u.kind = .chunk)
    (hid : u.artifactId = "lexer") (hlive : u.isLive)
    (hcheck : (run sampleSurroundings (sampleTree (Journal.line (.enqueued u))) fresh now
      (.validate "lexer" .chunk false)).exit = .done) :
    (run sampleSurroundings (sampleTree (Journal.line (.enqueued u))) fresh now
      (.inject "lexer" .chunk false)).exit = .alreadyInjected := by
  obtain ⟨a, hak, haid, ha⟩ :=
    (foretells_run (withPool_sample _) fresh now .chunk "lexer" false false).accepted hcheck
  have hholds : Journal.Holds (some (Journal.line (.enqueued u))) [.enqueued u] := by
    simp [Journal.Holds]
  have hm : u ∈ (Units.replay [.enqueued u]).map Prod.snd := List.mem_singleton_self u
  have hfor : u.isFor a.kind a.id := by simp [WorkUnit.isFor, hk, hid, hak, haid]
  exact ha.eq_of_busy (reads_sample _) hholds.units hm hfor hlive

/-- A chunk that waits in the pool is found injectable, and it is not. -/
theorem live_unit_unseen :
    let now : Timestamp := ⟨⟨2024, 2, 29, by decide⟩, ⟨0, 0, by decide, by decide⟩⟩
    let lexer : Artifact := ⟨"lexer", .chunk, .chunk .future, [], [], .home⟩
    let t := sampleTree (Journal.line (.enqueued (WorkUnit.queued Uuid.zero now lexer)))
    (run sampleSurroundings t Uuid.zero now (.validate "lexer" .chunk false)).exit = .done ∧
      (run sampleSurroundings t Uuid.zero now (.inject "lexer" .chunk false)).exit =
        .alreadyInjected := by
  intro now lexer t
  have hcheck : (run sampleSurroundings t Uuid.zero now (.validate "lexer" .chunk false)).exit =
      .done := by decide +kernel
  exact ⟨hcheck, exit_inject_sample rfl rfl rfl hcheck⟩

end Command

end CausalWork
