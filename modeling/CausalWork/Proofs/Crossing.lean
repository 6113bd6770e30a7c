import CausalWork.Proofs.Graph.Insertion
import CausalWork.Proofs.Refusal

namespace CausalWork

open Project (request)
open Relation

theorem transGen_of_closed {α : Type} {r t : α → α → Prop} {x : α} (inside : α → Prop)
    (h : TransGen r x x) (hx : inside x)
    (hstep : ∀ y z, inside y → r y z → TransGen r z z → inside z ∧ t y z) : TransGen t x x := by
  have hway : ∀ y, TransGen r x y → ReflTransGen r y x → inside y ∧ TransGen t x y := by
    intro y hy
    induction hy with
    | single hxy =>
        intro hback
        obtain ⟨hin, ht⟩ := hstep _ _ hx hxy (.tail' hback hxy)
        exact ⟨hin, .single ht⟩
    | tail hy hyz ih =>
        intro hback
        obtain ⟨hin, ht⟩ := ih (.head hyz hback)
        obtain ⟨hin', ht'⟩ := hstep _ _ hin hyz (.tail' (hback.trans hy.to_reflTransGen) hyz)
        exact ⟨hin', ht.tail ht'⟩
  exact (hway x h .refl).2

namespace Store

variable (s : Store) (kind : Kind)

def Declares (id parent : String) : Prop := ∃ e, s.Holds kind e ∧ e.id = id ∧ parent ∈ e.createdAfter

/-- A record that a store holds says what an id comes after. -/
def Orders (id : String) : Prop := ∃ parent, s.Declares kind id parent

def Owns (id : String) : Prop := ∃ a, s.Holds kind (.own a) ∧ a.id = id

def OwnsAfter (id parent : String) : Prop :=
  ∃ a, s.Holds kind (.own a) ∧ a.id = id ∧ parent ∈ a.createdAfter

end Store

/-- The repository that an id is of as a remote knows it: its own, or the one that it refers to. -/
def Remote.Means (r : Remote) (kind : Kind) (id repo : String) : Prop :=
  (r.store.Owns kind id ∧ r.locator.repo = repo) ∨
    ∃ e, r.store.Holds kind (.external e) ∧ e.id = id ∧ e.locator.repo = repo

/-- A parent that home lacks is taken from a remote, the first one that owns it. -/
def Network.Pulls (n : Network) (kind : Kind) (entries : List Entry) (id : String) (remote : Remote)
    (a : Artifact) : Prop :=
  Snapshot.Lacks entries id ∧ n.owner? ⟨kind, id, none⟩ = some (remote, a)

theorem Network.ownsAfter_of_owner {n : Network} (hs : ∀ r ∈ n.remotes, r.store.Honest) {kind : Kind}
    {id parent : String} {remote : Remote} {a : Artifact}
    (h : n.owner? ⟨kind, id, none⟩ = some (remote, a)) (hp : parent ∈ a.createdAfter) :
    remote.store.OwnsAfter kind id parent := by
  have ha := (Network.owner?_eq_some h).2
  exact ⟨a, .inr ⟨id, Remote.get_of_ask ha⟩, (Remote.ask_owned (hs _ (Network.owner_mem h)) ha).2, hp⟩

theorem Snapshot.Loaded.unnamed_of_owner {n : Network} {kind : Kind} {entries : List Entry}
    {missing : List String} {s : Snapshot} (h : Loaded n kind entries missing s)
    (hs : ∀ r ∈ n.remotes, r.store.Honest) {id : String} {remote : Remote} {a : Artifact}
    (hnew : id ∉ s.rows.map Row.id) (ho : n.owner? ⟨kind, id, none⟩ = some (remote, a)) :
    ∀ row ∈ s.rows, id ∉ row.createdAfter := by
  intro row hm hp
  rcases h.mem_rows.1 hm with ⟨e, he, rfl⟩ | ⟨id', -, hr⟩
  · rw [homeRow_createdAfter] at hp
    have hdisclaimed := ((h.notMem_ids_iff hs he hp).1 hnew).2 remote (Network.owner_mem ho)
    cases hdisclaimed.symm.trans (Network.owner?_eq_some ho).2
  · exact hnew (parentRow?_createdAfter hr id hp)

namespace Project

variable {p : Project} {kind : Kind} {called : String → Prop} {entries : List Entry}

/-- The repositories, by their names, that an id of the rows may be of: those that home is called
by, the one that home refers to, or the one that the artifact is taken from. -/
inductive Stands (p : Project) (kind : Kind) (called : String → Prop) (entries : List Entry)
    (id : String) : (String → Prop) → Prop
  | own (h : p.home.Owns kind id) : Stands p kind called entries id called
  | referred {r : Reference} (h : p.home.Holds kind (.external r)) (hid : r.id = id) :
      Stands p kind called entries id (· = r.locator.repo)
  | pulled {remote : Remote} {a : Artifact} (h : p.network.Pulls kind entries id remote a) :
      Stands p kind called entries id (· = remote.locator.repo)

/-- No remote is called as home is, and a parent that an artifact of a remote names, if the remote
knows what it is of, is of the same repository in the rows. -/
structure Distinct (p : Project) (kind : Kind) (called : String → Prop) : Prop where
  apart : ∀ r ∈ p.network.remotes, ¬ called r.locator.repo
  same : ∀ entries, p.home.list kind = .ok entries → ∀ r ∈ p.network.remotes,
    ∀ child parent repo, r.store.OwnsAfter kind child parent → r.Means kind parent repo →
      ∀ repos, p.Stands kind called entries parent repos → repos repo

/-- The owner of a parent that home lacks names a parent which home orders itself, or which is taken
from another remote. What the owner means by it, if it knows, is what it stands for in the rows. -/
def Crosses (p : Project) (kind : Kind) (called : String → Prop) (entries : List Entry)
    (child parent : String) : Prop :=
  ∃ remote a, p.network.Pulls kind entries child remote a ∧ parent ∈ a.createdAfter ∧
    (p.home.Orders kind parent ∨
      ∃ other b, p.network.Pulls kind entries parent other b ∧ other ≠ remote) ∧
    ∀ repo, remote.Means kind parent repo →
      ∃ repos, p.Stands kind called entries parent repos ∧ repos repo

inductive States (p : Project) (kind : Kind) (entries : List Entry) (child parent : String) : Prop
  | home (h : p.home.Declares kind child parent)
  | owner {remote : Remote} {a : Artifact} (h : p.network.Pulls kind entries child remote a)
      (hp : parent ∈ a.createdAfter)

def Traced (p : Project) (kind : Kind) (entries : List Entry) (rows : List Row) : Prop :=
  ∀ row ∈ rows, ∀ parent ∈ row.createdAfter, p.States kind entries row.id parent

theorem traced_of_loaded {missing : List String} {s : Snapshot}
    (hs : ∀ r ∈ p.network.remotes, r.store.Honest) (hl : p.home.list kind = .ok entries)
    (h : Snapshot.Loaded p.network kind entries missing s) : p.Traced kind entries s.rows := by
  intro row hm parent hp
  rcases h.mem_rows.1 hm with ⟨e, he, rfl⟩ | ⟨id, hlacks, hr⟩
  · rw [Snapshot.homeRow_createdAfter] at hp
    exact .home ⟨e, .inl ⟨entries, hl, he⟩, (Snapshot.homeRow_id hs kind e).symm, hp⟩
  · rw [Snapshot.parentRow?_id hs hr]
    rcases Snapshot.parentRow?_cases hr with ⟨remote, a, ho, rfl⟩ | ⟨-, reason, rfl⟩
    · exact .owner ⟨hlacks, ho⟩ (List.mem_filter.1 hp).1
    · cases hp

theorem crosses_of_pulls (hdistinct : p.Distinct kind called) (hl : p.home.list kind = .ok entries)
    (hs : ∀ r ∈ p.network.remotes, r.store.Honest) {child parent : String} {remote : Remote}
    {a : Artifact} (h : p.network.Pulls kind entries child remote a) (hp : parent ∈ a.createdAfter)
    (hto : p.home.Orders kind parent ∨
      ∃ other b, p.network.Pulls kind entries parent other b ∧ other ≠ remote) :
    p.Crosses kind called entries child parent := by
  have hstands : ∃ repos, p.Stands kind called entries parent repos := by
    rcases hto with ⟨q, e, he, hid, hq⟩ | ⟨other, b, hother, -⟩
    · cases e with
      | own b => exact ⟨_, .own ⟨b, he, hid⟩⟩
      | external r => exact ⟨_, .referred he hid⟩
      | malformed id reason => cases hq
    · exact ⟨_, .pulled hother⟩
  refine ⟨remote, a, h, hp, hto, fun repo hmeans => ?_⟩
  obtain ⟨repos, hrepos⟩ := hstands
  exact ⟨repos, hrepos, hdistinct.same entries hl remote (Network.owner_mem h.2) child parent repo
    (Network.ownsAfter_of_owner hs h.2 hp) hmeans repos hrepos⟩

theorem parents_of_resolve {n : Network} (hs : ∀ r ∈ n.remotes, r.store.Honest) {home : Store}
    {x : String} {a : Artifact} (h : request (n.resolve home kind x) = .ok a) :
    (∃ e, home.Holds kind e ∧ e.id = a.id ∧ a.createdAfter = e.createdAfter) ∨
      ∃ remote b, n.owner? ⟨kind, a.id, none⟩ = some (remote, b) ∧
        a.createdAfter = b.createdAfter := by
  cases Network.resolve_eq_ok_iff.1 h with
  | own hg => exact .inl ⟨_, .inr ⟨x, hg⟩, rfl, rfl⟩
  | referred hg ho =>
      have hid := Network.resolveReference_ok hs (Network.resolveReference_of_owner ho)
      exact .inl ⟨_, .inr ⟨x, hg⟩, hid.2.symm, rfl⟩
  | @foreign remote b hg ho =>
      have hid := (Network.resolveForeign_ok hs (Network.resolveForeign_of_owner ho)).2
      exact .inr ⟨remote, b, hid.symm ▸ ho, rfl⟩

section

variable {edge : String → String → Prop} (hstates : ∀ x y, edge x y → p.States kind entries x y)

include hstates

theorem orders_or_pulls {x : String} (hx : TransGen edge x x) :
    p.home.Orders kind x ∨ ∃ remote a, p.network.Pulls kind entries x remote a := by
  obtain ⟨y, hxy, -⟩ := TransGen.head'_iff.1 hx
  cases hstates x y hxy with
  | home h => exact .inl ⟨y, h⟩
  | owner h => exact .inr ⟨_, _, h⟩

variable (huncrossed : ∀ x y, edge x y → ¬ p.Crosses kind called entries x y)
  (hdistinct : p.Distinct kind called) (hl : p.home.list kind = .ok entries)
  (hs : ∀ r ∈ p.network.remotes, r.store.Honest)
  (hremotes : ∀ r ∈ p.network.remotes, ∀ id, ¬ TransGen (r.store.OwnsAfter kind) id id)

include huncrossed hdistinct hl hs hremotes

theorem orders_of_cycle {x : String} (hx : TransGen edge x x) : p.home.Orders kind x := by
  by_contra hnot
  obtain ⟨remote, a, hpulls⟩ := (orders_or_pulls hstates hx).resolve_left hnot
  let inside (y : String) : Prop :=
    ¬ p.home.Orders kind y ∧ ∃ a, p.network.Pulls kind entries y remote a
  refine hremotes remote (Network.owner_mem hpulls.2) x
    (transGen_of_closed inside hx ⟨hnot, a, hpulls⟩ ?_)
  rintro y z ⟨hnot, a, hpulls⟩ hyz hz
  have hstay (hto : p.home.Orders kind z ∨ ∃ other b, p.network.Pulls kind entries z other b ∧
      other ≠ remote) (hp : z ∈ a.createdAfter) : False :=
    huncrossed y z hyz (crosses_of_pulls hdistinct hl hs hpulls hp hto)
  cases hstates y z hyz with
  | home h => exact absurd ⟨z, h⟩ hnot
  | owner h hp =>
      cases hpulls.2.symm.trans h.2
      have hnotz : ¬ p.home.Orders kind z := fun hz => hstay (.inl hz) hp
      obtain ⟨other, b, hother⟩ := (orders_or_pulls hstates hz).resolve_left hnotz
      obtain rfl : other = remote :=
        by_contra fun hne => hstay (.inr ⟨other, b, hother, hne⟩) hp
      exact ⟨⟨hnotz, b, hother⟩, Network.ownsAfter_of_owner hs hpulls.2 hp⟩

/-- Edges of home and of the remotes make no cycle unless one of them crosses. -/
theorem not_transGen_of_uncrossed (hhome : ∀ id, ¬ TransGen (p.home.Declares kind) id id)
    (x : String) : ¬ TransGen edge x x := by
  have horders {y : String} (hy : TransGen edge y y) : p.home.Orders kind y :=
    orders_of_cycle hstates huncrossed hdistinct hl hs hremotes hy
  intro hx
  refine hhome x (transGen_of_closed (p.home.Orders kind) hx (horders hx) ?_)
  intro y z hy hyz hz
  cases hstates y z hyz with
  | home h => exact ⟨horders hz, h⟩
  | owner h hp =>
      exact absurd (crosses_of_pulls hdistinct hl hs h hp (.inl (horders hz))) (huncrossed y z hyz)

end

section

variable (hdistinct : p.Distinct kind called) (hl : p.home.list kind = .ok entries)
  (hs : ∀ r ∈ p.network.remotes, r.store.Honest)
  (hhome : ∀ id, ¬ TransGen (p.home.Declares kind) id id)
  (hremotes : ∀ r ∈ p.network.remotes, ∀ id, ¬ TransGen (r.store.OwnsAfter kind) id id)

include hdistinct hl hs hhome hremotes

theorem Traced.crosses {rows : List Row} (h : p.Traced kind entries rows) {walk : List String}
    (hloop : Graph.Loop (Graph.Names rows) walk) :
    ∃ child parent, [child, parent] <:+: walk ∧ p.Crosses kind called entries child parent := by
  by_contra hno
  let edge (x y : String) : Prop := Graph.Names rows x y ∧ ¬ p.Crosses kind called entries x y
  have hchain : walk.IsChain edge := by
    refine (List.isChain_isInfix walk).imp fun x y hin => ⟨?_, fun hc => hno ⟨x, y, hin, hc⟩⟩
    have hpair := List.IsChain.infix hloop.chain hin
    exact List.isChain_pair.1 hpair
  have hstates (x y : String) (hxy : edge x y) : p.States kind entries x y := by
    obtain ⟨⟨row, hf, hp, -⟩, -⟩ := hxy
    obtain rfl : CausalNode.label row = x := by simpa using List.find?_some hf
    exact h row (List.mem_of_find?_eq_some hf) y hp
  obtain ⟨x, hx⟩ := Graph.Loop.transGen ⟨hloop.length, hloop.closed, hloop.nodup, hchain⟩
  exact not_transGen_of_uncrossed hstates (fun _ _ h => h.2) hdistinct hl hs hremotes hhome x hx

theorem crosses_of_examined {missing : List String} {s : Snapshot} {a : Artifact} {x : String}
    (hloaded : Snapshot.Loaded p.network kind entries missing s)
    (ha : request (p.network.resolve p.home kind x) = .ok a) {walk : List String}
    (h : Graph.Loop (Graph.Names (withArtifact s a).rows) walk) :
    ∃ child parent, [child, parent] <:+: walk ∧ p.Crosses kind called entries child parent := by
  have htraced := traced_of_loaded hs hl hloaded
  rcases withArtifact_cases s a with hsame | ⟨hnew, hrows⟩
  · exact htraced.crosses hdistinct hl hs hhome hremotes (hsame ▸ h)
  · rw [hrows] at h
    rcases parents_of_resolve hs ha with ⟨e, he, hid, hafter⟩ | ⟨remote, b, ho, hafter⟩
    · have htraced' : p.Traced kind entries (s.rows ++ [.artifact a]) :=
        List.forall_mem_append.2 ⟨htraced, List.forall_mem_singleton.2 fun parent hp =>
          .home ⟨e, he, hid, hafter ▸ hp⟩⟩
      exact htraced'.crosses hdistinct hl hs hhome hremotes h
    · have hself : a.id ∉ a.createdAfter := fun hp =>
        hremotes remote (Network.owner_mem ho) a.id
          (.single (Network.ownsAfter_of_owner hs ho (hafter ▸ hp)))
      have hunnamed : ∀ row ∈ s.rows ++ [.artifact a], a.id ∉ row.createdAfter :=
        List.forall_mem_append.2
          ⟨hloaded.unnamed_of_owner hs hnew ho, List.forall_mem_singleton.2 hself⟩
      have hnames : Graph.Loop (Graph.Names (s.rows ++ [])) walk :=
        (Graph.loop_insert_iff hunnamed (by rwa [List.append_nil])).1 h
      rw [List.append_nil] at hnames
      exact htraced.crosses hdistinct hl hs hhome hremotes hnames

end

/-- Where no id means one thing here and another there, what home declares has no cycle and what
each remote owns has none, a request is refused for a cycle only if the cycle goes from one
repository to another: the owner of a parent that home lacks names what home orders or what is taken
from another remote. -/
theorem cycle_crosses {walk : List String} (hs : ∀ r ∈ p.network.remotes, r.store.Honest)
    (hdistinct : p.Distinct kind called)
    (hone : ∀ e, p.home.Holds kind e → ∀ e', p.home.Holds kind e' → e.id = e'.id → e = e')
    (hhome : ∀ id, ¬ TransGen (p.home.Declares kind) id id)
    (hremotes : ∀ r ∈ p.network.remotes, ∀ id, ¬ TransGen (r.store.OwnsAfter kind) id id)
    (h : p.Fails kind (.graph (.cycle walk))) :
    ∃ entries child parent, p.home.list kind = .ok entries ∧ [child, parent] <:+: walk ∧
      p.Crosses kind called entries child parent := by
  obtain ⟨entries, s, missing, hl, hloaded, hloop⟩ := h.meets hs hone
  have hcrosses : ∃ child parent, [child, parent] <:+: walk ∧
      p.Crosses kind called entries child parent := by
    rcases hloop with hloop | ⟨x, a, ha, hloop⟩
    · exact (traced_of_loaded hs hl hloaded).crosses hdistinct hl hs hhome hremotes hloop
    · exact crosses_of_examined hdistinct hl hs hhome hremotes hloaded ha hloop
  obtain ⟨child, parent, hin, hc⟩ := hcrosses
  exact ⟨entries, child, parent, hl, hin, hc⟩

def entangledHome : MemoryStore := (MemoryStore.named "home").insertArtifact
  ⟨"app", .chunk, .chunk .future, ["parser"], [], .home⟩

def entangledRemote : MemoryStore :=
  ((MemoryStore.named "lib").insertArtifact
    ⟨"parser", .chunk, .chunk .future, ["app"], [], .home⟩).insertReference
      ⟨"app", .chunk, ⟨"home", none, none⟩, []⟩

def entangled : Project :=
  ⟨entangledHome.store, entangledHome.content, ⟨[⟨⟨"lib", none, none⟩, entangledRemote.store⟩], none⟩⟩

theorem not_transGen_of_single {edge : String → String → Prop} {a b : String} (hne : a ≠ b)
    (h : ∀ x y, edge x y → x = a ∧ y = b) (x : String) : ¬ TransGen edge x x := by
  intro hx
  obtain ⟨y, hy, -⟩ := TransGen.head'_iff.1 hx
  obtain ⟨z, -, hz⟩ := TransGen.tail'_iff.1 hx
  exact hne ((h x y hy).1.symm.trans (h z x hz).2)

theorem entangledRemote_parents : ∀ e ∈ entangledRemote.ofKind .chunk, ∀ p ∈ e.createdAfter,
    e.id = "parser" ∧ p = "app" := by
  decide +kernel

theorem distinct_entangled : entangled.Distinct .chunk (· = "home") where
  apart := by
    intro r hr
    obtain rfl := List.mem_singleton.1 hr
    decide
  same := by
    rintro entries hl r hr child parent repo ⟨a, ha, -, hp⟩ hmeans repos hstands
    obtain rfl := List.mem_singleton.1 hr
    obtain ⟨-, rfl⟩ := entangledRemote_parents (.own a) (MemoryStore.mem_of_holds ha) parent hp
    have hhome : ∀ e ∈ entangledHome.ofKind .chunk,
        e = .own ⟨"app", .chunk, .chunk .future, ["parser"], [], .home⟩ := by
      decide +kernel
    have hremote : ∀ e ∈ entangledRemote.ofKind .chunk, e.id = "app" →
        e = .external ⟨"app", .chunk, ⟨"home", none, none⟩, []⟩ := by
      decide +kernel
    have hrepo : repo = "home" := by
      rcases hmeans with ⟨⟨b, hb, hid⟩, -⟩ | ⟨e, he, hid, rfl⟩
      · cases hremote _ (MemoryStore.mem_of_holds hb) hid
      · cases hremote _ (MemoryStore.mem_of_holds he) hid
        rfl
    cases hstands with
    | own => exact hrepo
    | referred h => cases hhome _ (MemoryStore.mem_of_holds h)
    | pulled h =>
        have hlist : entangled.home.list .chunk =
            .ok [.own ⟨"app", .chunk, .chunk .future, ["parser"], [], .home⟩] := by
          decide +kernel
        cases hl.symm.trans hlist
        exact absurd List.mem_cons_self h.1.2

theorem entangled_apart : (∀ r ∈ entangled.network.remotes, r.store.Honest) ∧
    entangled.Distinct .chunk (· = "home") ∧
    (∀ e, entangled.home.Holds .chunk e → ∀ e', entangled.home.Holds .chunk e' →
      e.id = e'.id → e = e') ∧
    (∀ id, ¬ TransGen (entangled.home.Declares .chunk) id id) ∧
    ∀ r ∈ entangled.network.remotes, ∀ id, ¬ TransGen (r.store.OwnsAfter .chunk) id id := by
  refine ⟨fun r hr => ?_, distinct_entangled, fun e he e' he' hid => ?_, ?_, fun r hr => ?_⟩
  · obtain rfl := List.mem_singleton.1 hr
    exact (((MemoryStore.filed_named "lib").insertArtifact _).insertReference _).honest
  · have hone : ∀ e ∈ entangledHome.ofKind .chunk, ∀ e' ∈ entangledHome.ofKind .chunk,
        e.id = e'.id → e = e' := by
      decide +kernel
    exact hone e (MemoryStore.mem_of_holds he) e' (MemoryStore.mem_of_holds he') hid
  · refine not_transGen_of_single (a := "app") (b := "parser") (by decide) ?_
    rintro x y ⟨e, he, rfl, hp⟩
    have hall : ∀ e ∈ entangledHome.ofKind .chunk, ∀ p ∈ e.createdAfter,
        e.id = "app" ∧ p = "parser" := by
      decide +kernel
    exact hall e (MemoryStore.mem_of_holds he) y hp
  · obtain rfl := List.mem_singleton.1 hr
    refine not_transGen_of_single (a := "parser") (b := "app") (by decide) ?_
    rintro x y ⟨a, ha, rfl, hp⟩
    exact entangledRemote_parents (.own a) (MemoryStore.mem_of_holds ha) y hp

def entangledRows : List Row :=
  [.artifact ⟨"app", .chunk, .chunk .future, ["parser"], [], .home⟩,
    .artifact ⟨"parser", .chunk, .chunk .future, ["app"], [], .external ⟨"lib", none, none⟩⟩]

theorem snapshot_entangled : request (entangled.snapshot .chunk) = .ok ⟨.chunk, entangledRows⟩ := by
  have hsorted : Snapshot.sorted entangledRows = entangledRows :=
    List.mergeSort_of_pairwise (by decide +kernel)
  conv => rhs; rw [← hsorted]
  rfl

theorem query_entangled {α : Type} (ask : Snapshot → Except Failure α) :
    request (entangled.query .chunk ask) = ask ⟨.chunk, entangledRows⟩ :=
  congrArg (Except.bind · ask) snapshot_entangled

theorem validate_entangled : request (entangled.validate .chunk "app") =
    .error (.graph (.cycle ["app", "parser", "app"])) := by
  have hrefs : entangled.refs .chunk "app" = [] := by decide +kernel
  have hresolve : request (entangled.network.resolve entangled.home .chunk "app") =
      .ok ⟨"app", .chunk, .chunk .future, ["parser"], [], .home⟩ := by decide +kernel
  have hcycle : (Graph.ofNodes entangledRows).cycle? = some ["app", "parser", "app"] := by
    decide +kernel
  rw [request_validate, request_examine (by simp [hrefs]), hresolve, snapshot_entangled]
  refine congrArg (Except.map Prod.snd) (request_judge_of_error ?_)
  exact (Graph.ofItems?_eq entangledRows).trans (by rw [hcycle])

/-- A home and a remote without cycles of their own, which mean the same by their ids, make one
together, and every request is refused for it. -/
theorem entangled_refused :
    let cycle : Failure := .graph (.cycle ["app", "parser", "app"])
    let now : Timestamp := ⟨⟨2024, 2, 29, by decide⟩, ⟨0, 0, by decide, by decide⟩⟩
    (∀ r ∈ entangled.network.remotes, r.store.Honest) ∧
      entangled.Distinct .chunk (· = "home") ∧
      (∀ e, entangled.home.Holds .chunk e → ∀ e', entangled.home.Holds .chunk e' →
        e.id = e'.id → e = e') ∧
      (∀ id, ¬ TransGen (entangled.home.Declares .chunk) id id) ∧
      (∀ r ∈ entangled.network.remotes, ∀ id, ¬ TransGen (r.store.OwnsAfter .chunk) id id) ∧
      request (entangled.listing .chunk) = .error cycle ∧
      request (entangled.causalOrder .chunk) = .error cycle ∧
      request (entangled.tips .chunk) = .error cycle ∧
      request (entangled.latest .chunk) = .error cycle ∧
      request (entangled.validate .chunk "app") = .error cycle ∧
      (entangled.inject none Uuid.zero now .chunk "app").1 = .error cycle := by
  intro cycle now
  obtain ⟨hs, hdistinct, hone, hhome, hremotes⟩ := entangled_apart
  refine ⟨hs, hdistinct, hone, hhome, hremotes, (query_entangled _).trans ?_,
    (query_entangled _).trans ?_, (query_entangled _).trans ?_, (query_entangled _).trans ?_,
    validate_entangled,
    congrArg Prod.fst (inject_of_validate_error validate_entangled none Uuid.zero now)⟩
  all_goals decide +kernel

theorem cycle_crosses_entangled :
    (∀ r ∈ entangled.network.remotes, r.store.Honest) ∧
      entangled.Distinct .chunk (· = "home") ∧
      (∀ e, entangled.home.Holds .chunk e → ∀ e', entangled.home.Holds .chunk e' →
        e.id = e'.id → e = e') ∧
      (∀ id, ¬ TransGen (entangled.home.Declares .chunk) id id) ∧
      (∀ r ∈ entangled.network.remotes, ∀ id, ¬ TransGen (r.store.OwnsAfter .chunk) id id) ∧
      entangled.Fails .chunk (.graph (.cycle ["app", "parser", "app"])) ∧
      ∃ entries child parent, entangled.home.list .chunk = .ok entries ∧
        [child, parent] <:+: ["app", "parser", "app"] ∧
        entangled.Crosses .chunk (· = "home") entries child parent := by
  obtain ⟨hs, hdistinct, hone, hhome, hremotes⟩ := entangled_apart
  have h : entangled.Fails .chunk (.graph (.cycle ["app", "parser", "app"])) :=
    .validate "app" validate_entangled
  exact ⟨hs, hdistinct, hone, hhome, hremotes, h,
    cycle_crosses hs hdistinct hone hhome hremotes h⟩

end Project

end CausalWork
