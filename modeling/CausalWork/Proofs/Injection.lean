import CausalWork.Injection
import CausalWork.Proofs.Pool.OneLive
import CausalWork.Proofs.Resolution

namespace CausalWork

open Journal CausalWork.Units

namespace Journal

variable {journal : Journal} {es : List Event}

theorem enqueue_fresh (h : journal.Holds es) (hs : (replay es).Sound) {u : WorkUnit}
    (hl : Pool.liveFor journal u.kind u.artifactId = .ok none)
    (hf : Pool.get journal u.id = .ok none) :
    ∃ former latter v, v = { u with attempt := UInt32.ofNat (former.length + 1) } ∧
      (Pool.enqueue journal u).1 = .ok u.id ∧
      (Pool.enqueue journal u).2.events = .ok (es ++ [.enqueued v]) ∧
      Pool.history journal u.kind u.artifactId = .ok former ∧
      Pool.history (Pool.enqueue journal u).2 u.kind u.artifactId = .ok latter ∧
      latter.Perm (former ++ [v]) ∧
      Pool.get (Pool.enqueue journal u).2 u.id = .ok (some v) ∧
      ∀ other, other ≠ u.id →
        Pool.get (Pool.enqueue journal u).2 other = Pool.get journal other := by
  obtain ⟨-, he⟩ := enqueue_of_none h hs hl
  rw [h.get, Except.ok.injEq] at hf
  have hformer := h.history u.kind u.artifactId
  generalize hordered : ordered (Pool.ofArtifact (replay es) u.kind u.artifactId) = former at hformer
  have hlength : former.length = (Pool.ofArtifact (replay es) u.kind u.artifactId).length :=
    hordered ▸ (ordered_perm _).length_eq
  have hv : numbered (replay es) u = { u with attempt := UInt32.ofNat (former.length + 1) } := by
    rw [hlength, UInt32.ofNat_add]
    rfl
  have hafter := h.append (.enqueued (numbered (replay es) u))
  have hput : Pool.ofArtifact ((replay es).put u.id (numbered (replay es) u)) u.kind
      u.artifactId = Pool.ofArtifact (replay es) u.kind u.artifactId ++
        [numbered (replay es) u] := by
    have happ := ofArtifact_put_fresh (u := numbered (replay es) u) hf u.kind u.artifactId
    simpa [numbered, WorkUnit.isFor] using happ
  rw [he]
  refine ⟨former, _, numbered (replay es) u, hv, rfl, hafter.events, hformer,
    hafter.history _ _, ?_, ?_, ?_⟩
  · rw [replay_append_singleton, record_enqueued]
    refine (ordered_perm _).trans ?_
    rw [show (numbered (replay es) u).id = u.id from rfl, hput, ← hordered]
    exact (ordered_perm _).symm.append_right _
  · rw [hafter.get, replay_append_singleton, record_enqueued]
    exact congrArg Except.ok (get?_put_self _ _ _)
  · intro other hne
    rw [hafter.get, h.get, replay_append_singleton, record_enqueued]
    exact congrArg Except.ok (get?_put_of_ne _ _ hne)

end Journal

namespace Project

variable {p : Project} {kind : Kind} {id : String} {a : Artifact} {issues : List Issue}

theorem examine_ok_iff {m : Memo} : (p.examine kind id m).1 = .ok (a, issues) ↔
    ∃ m' s m'' g links summary, p.network.resolve p.home kind id m = (.ok a, m') ∧
      p.snapshot kind m' = (.ok s, m'') ∧ Graph.ofItems? (withArtifact s a).rows = .ok g ∧
      (brokenLinks p.network a (withArtifact s a) m'').1 = .ok links ∧
      p.summary a = .ok summary ∧ a.issues summary links = issues := by
  unfold examine
  constructor
  · intro h
    obtain ⟨b, hr, h⟩ := Memo.ok_of_bind h fun _ => rfl
    obtain ⟨s, hl, h⟩ := Memo.ok_of_bind h fun _ => rfl
    dsimp only at h
    cases hg : Graph.ofItems? (withArtifact s b).rows with
    | error e =>
        rw [hg] at h
        cases h
    | ok g =>
        rw [hg] at h
        obtain ⟨links, hb, h⟩ := Memo.ok_of_bind h fun _ => rfl
        cases hs : p.summary b with
        | error e =>
            simp only [hs] at h
            cases h
        | ok summary =>
            simp only [hs] at h
            cases h
            exact ⟨_, s, _, g, links, summary, Prod.ext hr rfl, Prod.ext hl rfl, hg, hb, hs, rfl⟩
  · rintro ⟨m', s, m'', g, links, summary, hr, hl, hg, hb, hs, rfl⟩
    simp only [bind, StateT.bind, hr, hl, hg, hs]
    generalize brokenLinks p.network a (withArtifact s a) m'' = told at hb
    obtain ⟨told, known⟩ := told
    obtain rfl := hb
    rfl

theorem examine_ok {m : Memo} (h : (p.examine kind id m).1 = .ok (a, issues)) :
    (p.network.resolve p.home kind id m).1 = .ok a := by
  obtain ⟨m', s, m'', g, links, summary, hr, -⟩ := examine_ok_iff.1 h
  rw [hr]

theorem request_validate (p : Project) (kind : Kind) (id : String) :
    request (p.validate kind id) = (request (p.examine kind id)).map Prod.snd := rfl

theorem request_prepare (p : Project) (fresh : Uuid) (now : Timestamp) (kind : Kind)
    (id : String) : request (p.prepare fresh now kind id) =
      (request (p.examine kind id)).bind fun (a, issues) =>
        if issues.isEmpty then .ok (WorkUnit.queued fresh now a)
        else .error (.rejected a.id issues) := rfl

theorem prepare_of_validate_error {e : Failure} (h : request (p.validate kind id) = .error e)
    (fresh : Uuid) (now : Timestamp) : request (p.prepare fresh now kind id) = .error e := by
  rw [request_validate] at h
  cases he : request (p.examine kind id) with
  | error e' =>
      rw [he] at h
      cases h
      rw [request_prepare, he]
      rfl
  | ok found =>
      rw [he] at h
      cases h

theorem prepare_of_issues (hh : p.home.Honest) (hs : ∀ r ∈ p.network.remotes, r.store.Honest)
    (h : request (p.validate kind id) = .ok issues) (hne : issues ≠ []) (fresh : Uuid)
    (now : Timestamp) : request (p.prepare fresh now kind id) = .error (.rejected id issues) := by
  rw [request_validate] at h
  cases he : request (p.examine kind id) with
  | error e' =>
      rw [he] at h
      cases h
  | ok found =>
      obtain ⟨a, found⟩ := found
      rw [he] at h
      obtain rfl : found = issues := Except.ok.inj h
      obtain ⟨-, hid⟩ := Network.resolve_ok hh hs (examine_ok he)
      have hf : found.isEmpty = false := by simpa using hne
      rw [request_prepare, he]
      simp [Except.bind, hf, hid]

theorem inject_of_validate_error {e : Failure} (h : request (p.validate kind id) = .error e)
    (journal : Journal) (fresh : Uuid) (now : Timestamp) :
    p.inject journal fresh now kind id = (.error e, journal) := by
  rw [inject, prepare_of_validate_error h]

theorem inject_of_issues (hh : p.home.Honest) (hs : ∀ r ∈ p.network.remotes, r.store.Honest)
    (h : request (p.validate kind id) = .ok issues) (hne : issues ≠ []) (journal : Journal)
    (fresh : Uuid) (now : Timestamp) :
    p.inject journal fresh now kind id = (.error (.rejected id issues), journal) := by
  rw [inject, prepare_of_issues hh hs h hne]

/-- Without issues, the pool is asked to take a fresh unit for what the id resolves to. -/
theorem prepare_of_no_issues (hh : p.home.Honest)
    (hs : ∀ r ∈ p.network.remotes, r.store.Honest)
    (h : request (p.validate kind id) = .ok []) (fresh : Uuid) (now : Timestamp) :
    ∃ a, request (p.network.resolve p.home kind id) = .ok a ∧ a.kind = kind ∧ a.id = id ∧
      request (p.prepare fresh now kind id) = .ok (WorkUnit.queued fresh now a) := by
  rw [request_validate] at h
  cases he : request (p.examine kind id) with
  | error e' =>
      rw [he] at h
      cases h
  | ok found =>
      obtain ⟨a, found⟩ := found
      rw [he] at h
      obtain rfl : found = [] := Except.ok.inj h
      have hr := examine_ok he
      obtain ⟨hk, hid⟩ := Network.resolve_ok hh hs hr
      refine ⟨a, hr, hk, hid, ?_⟩
      rw [request_prepare, he]
      rfl

/-- An injection does what its check says, and either adds one unit or nothing: a request that the
check or the pool refuses leaves the journal as it was. -/
theorem inject_all_or_nothing (p : Project) (hh : p.home.Honest)
    (hs : ∀ r ∈ p.network.remotes, r.store.Honest) (calls : List Call) (fresh : Uuid)
    (now : Timestamp) (kind : Kind) (id : String) :
    let journal := ofCalls calls
    let result := p.inject journal fresh now kind id
    let check := request (p.validate kind id)
    (∀ e, check = .error e → result = (.error e, journal)) ∧
      (∀ issues, check = .ok issues → issues ≠ [] →
        result = (.error (.rejected id issues), journal)) ∧
      (∀ live, check = .ok [] → Pool.liveFor journal kind id = .ok (some live) →
        result = (.error (.alreadyInjected id live.id), journal)) ∧
      (check = .ok [] → Pool.liveFor journal kind id = .ok none →
        Pool.get journal fresh = .ok none →
        ∃ a es former latter u, request (p.network.resolve p.home kind id) = .ok a ∧
          result.1 = .ok fresh ∧
          journal.events = .ok es ∧ result.2.events = .ok (es ++ [.enqueued u]) ∧
          Pool.history journal kind id = .ok former ∧
          Pool.history result.2 kind id = .ok latter ∧ latter.Perm (former ++ [u]) ∧
          u.id = fresh ∧ u.state = .queued ∧ u.external = a.isExternal ∧
          u.attempt = UInt32.ofNat (former.length + 1) ∧
          Pool.get result.2 fresh = .ok (some u) ∧
          ∀ other, other ≠ fresh → Pool.get result.2 other = Pool.get journal other) := by
  obtain ⟨es, h, ha⟩ := written_ofCalls calls
  refine ⟨?_, ?_, ?_, ?_⟩
  · exact fun e he => inject_of_validate_error he _ fresh now
  · exact fun issues hi hne => inject_of_issues hh hs hi hne _ fresh now
  · intro live hc hl
    obtain ⟨a, -, rfl, rfl, hp⟩ := prepare_of_no_issues hh hs hc fresh now
    rw [inject, hp]
    dsimp only
    rw [enqueue_of_live h ha.sound hl]
    rfl
  · intro hc hl hf
    obtain ⟨a, hr, rfl, rfl, hp⟩ := prepare_of_no_issues hh hs hc fresh now
    obtain ⟨former, latter, v, rfl, hid, hevents, hformer, hlatter, hperm, hget, hother⟩ :=
      enqueue_fresh (u := WorkUnit.queued fresh now a) h ha.sound hl hf
    have hresult : p.inject (ofCalls calls) fresh now a.kind a.id =
        (.ok fresh, (Pool.enqueue (ofCalls calls) (WorkUnit.queued fresh now a)).2) := by
      rw [inject, hp]
      dsimp only
      generalize Pool.enqueue (ofCalls calls) (WorkUnit.queued fresh now a) = out at hid ⊢
      obtain ⟨answer, after⟩ := out
      cases hid
      rfl
    rw [hresult]
    exact ⟨a, es, former, latter, _, hr, rfl, h.events, hevents, hformer, hlatter, hperm, rfl, rfl,
      rfl, rfl, hget, hother⟩

def borrowing : Project :=
  let lib : Locator := ⟨"lib", none, none⟩
  let home := (MemoryStore.named "home").insertReference ⟨"parser", .chunk, lib, []⟩
  let remote := (MemoryStore.named "lib").insertArtifact
    ⟨"parser", .chunk, .chunk .future, [], [], .home⟩
  ⟨home.store, home.content, ⟨[⟨lib, remote.store⟩], none⟩⟩

theorem inject_borrowing :
    let now : Timestamp := ⟨⟨2024, 2, 29, by decide⟩, ⟨0, 0, by decide, by decide⟩⟩
    let result := borrowing.inject none Uuid.zero now .chunk "parser"
    borrowing.home.Honest ∧ (∀ r ∈ borrowing.network.remotes, r.store.Honest) ∧
      result.1 = .ok Uuid.zero ∧
      ∃ u, result.2.events = .ok [.enqueued u] ∧ u.attempt = 1 ∧ u.external := by
  intro now result
  have hh : borrowing.home.Honest :=
    MemoryStore.honest_store (by simp [MemoryStore.named, MemoryStore.insertReference,
      MemoryStore.insert]) (by simp [MemoryStore.named, MemoryStore.insertReference,
      MemoryStore.insert])
  have hs : ∀ r ∈ borrowing.network.remotes, r.store.Honest := by
    intro r hr
    obtain rfl := List.mem_singleton.1 hr
    exact MemoryStore.honest_store (by simp [MemoryStore.named, MemoryStore.insertArtifact,
      MemoryStore.insert]) (by simp [MemoryStore.named, MemoryStore.insertArtifact,
      MemoryStore.insert])
  obtain ⟨-, -, -, hok⟩ := inject_all_or_nothing borrowing hh hs [] Uuid.zero now .chunk "parser"
  obtain ⟨a, es, former, latter, u, hr, hid, hes, hevents, hformer, -, -, -, -, he, ha, -⟩ :=
    hok (by decide +kernel) (by decide +kernel) rfl
  have hexternal : (request (borrowing.network.resolve borrowing.home .chunk "parser")).toOption.map
      Artifact.isExternal = some true := by decide +kernel
  rw [hr] at hexternal
  cases hes
  have hempty : Pool.history none .chunk "parser" = .ok [] := by decide +kernel
  cases hformer.symm.trans hempty
  exact ⟨hh, hs, hid, u, hevents, ha, he.trans (Option.some.inj hexternal)⟩

end Project

end CausalWork
