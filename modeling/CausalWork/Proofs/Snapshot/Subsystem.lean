import CausalWork.Proofs.Snapshot.Kept
import CausalWork.Proofs.Snapshot.Queries

namespace CausalWork

open CausalNode
open Project (request)

namespace Snapshot

variable {s : Snapshot} {picks : String → Bool} {tips found : List Artifact} {a : Artifact}

def Picked (s : Snapshot) (picks : String → Bool) (a : Artifact) : Prop :=
  .artifact a ∈ s.rows ∧ ∃ name ∈ a.subsystems, picks name

/-- What the tips of the picked artifacts are, and what they have to do with the tips of all. -/
structure Narrowed (s : Snapshot) (picks : String → Bool) (tips found : List Artifact) : Prop where
  ascending : (found.map Artifact.id).Pairwise (· < ·)
  mem : ∀ a, a ∈ found ↔
    s.Picked picks a ∧ ∀ b, s.Picked picks b → b.id ≠ a.id → a.id ∉ b.createdAfter
  of_tip : ∀ a ∈ tips, (∃ name ∈ a.subsystems, picks name) → a ∈ found
  none_picked : found = [] → ∀ a, ¬ s.Picked picks a

theorem mem_filter_picked :
    a ∈ s.artifacts.filter (fun a => a.subsystems.any picks) ↔ s.Picked picks a := by
  rw [List.mem_filter, artifacts, mem_artifacts_iff, List.any_eq_true]
  rfl

theorem mem_tipsOf_picked (hn : (s.rows.map Row.id).Nodup) :
    a ∈ tipsOf (s.artifacts.filter fun a => a.subsystems.any picks) ↔
      s.Picked picks a ∧ ∀ b, s.Picked picks b → b.id ≠ a.id → a.id ∉ b.createdAfter := by
  have hpicked : ((s.artifacts.filter fun a => a.subsystems.any picks).map label).Nodup :=
    (pairwise_artifacts hn).sublist (List.filter_sublist.map _)
  rw [Graph.mem_tipsOf_iff hpicked, mem_filter_picked]
  simp only [mem_filter_picked]
  rfl

theorem exists_unnamed_picked {g : Graph Row} (hn : (s.rows.map Row.id).Nodup)
    (hg : Graph.ofClosed? s.rows = .ok g) (ha : s.Picked picks a) :
    ∃ first, s.Picked picks first ∧ ∀ b, s.Picked picks b → first.id ∉ b.createdAfter := by
  obtain ⟨row, -, ⟨first, rfl, hfirst⟩, hnone⟩ :=
    Graph.exists_unnamed hn (Graph.ofClosed?_eq_ok hg)
      (p := fun row => ∃ b, row = .artifact b ∧ s.Picked picks b) ha.1 ⟨a, rfl, ha⟩
  exact ⟨first, hfirst, fun b hb => hnone (.artifact b) hb.1 ⟨b, rfl, hb⟩⟩

theorem tipsAmong_of_tips (hn : (s.rows.map Row.id).Nodup) (h : s.tips = .ok tips)
    (picks : String → Bool) :
    ∃ found, s.tipsAmong picks = .ok found ∧ s.Narrowed picks tips found := by
  cases hg : Graph.ofClosed? s.rows with
  | error e =>
      rw [Snapshot.tips, hg] at h
      cases h
  | ok g =>
      have hlisting : s.listing = .ok g.causalOrder := by rw [listing, hg]
      obtain ⟨tips', htips, -, hunnamed⟩ := tips_of_listing hn hlisting
      obtain rfl := Except.ok.inj (h.symm.trans htips)
      refine ⟨_, by rw [tipsAmong, hg], ?_⟩
      constructor
      case ascending => exact pairwise_labels_tipsOf _
      case mem => exact fun a => mem_tipsOf_picked hn
      case of_tip =>
        intro a ha hname
        obtain ⟨hrow, hnot⟩ := (hunnamed a).1 ha
        exact (mem_tipsOf_picked hn).2 ⟨⟨hrow, hname⟩, fun b hb _ => hnot _ hb.1⟩
      case none_picked =>
        intro hnil a ha
        obtain ⟨first, hfirst, hnone⟩ := exists_unnamed_picked hn hg ha
        have hfound := (mem_tipsOf_picked hn).2 ⟨hfirst, fun b hb _ => hnone b hb⟩
        rw [hnil] at hfound
        cases hfound

theorem tipsAmong_eq_error_iff (s : Snapshot) (picks : String → Bool) (e : Failure) :
    s.tipsAmong picks = .error e ↔ s.tips = .error e := by
  unfold tipsAmong tips
  cases Graph.ofClosed? s.rows <;> simp

end Snapshot

namespace Project

variable (p : Project) (kind : Kind)

def known (calls : List Inquiry) (m : Memo) : Memo :=
  (calls.mapM (p.network.answer p.home) m).2

theorem within_known (calls : List Inquiry) (m : Memo) : m.Within (p.known calls m) := by
  have hfollows := Follows.mapM fun call (_ : call ∈ calls) => p.network.follows_answer p.home call
  rw [known, hfollows.learns m]
  exact m.within_foldl_learn _

theorem snapshot_again {m m' : Memo} (h : (p.snapshot kind m).2.Within m') :
    (p.snapshot kind m').1 = (p.snapshot kind m).1 := by
  rw [snapshot, (Snapshot.repeats_load p.home p.network kind).again m m' h]

/-- The tips among the artifacts with a subsystem that a pattern covers, for any pattern and for
anything else that picks subsystems. They cannot be had when the tips of all cannot be had, and
otherwise they are those picked artifacts that no other picked one names. It does not matter what
the resolver was asked before, nor which of the two is asked for first. -/
theorem tipsFor_narrows (earlier between : List Inquiry)
    (hs : ∀ r ∈ p.network.remotes, r.store.Honest)
    (hd : ∀ entries, p.home.list kind = .ok entries → (entries.map Entry.id).Nodup) :
    let now := p.known earlier Memo.empty
    let later := p.known between (p.snapshot kind now).2
    (∀ text pattern, Pattern.ofText? text = .ok pattern →
      p.tipsFor kind text = p.query kind fun s => s.tipsAmong pattern.covers) ∧
    ∀ picks, ∀ m ∈ [now, later], ∀ m' ∈ [now, later],
      let narrowed := (p.query kind (fun s => s.tipsAmong picks) m).1
      (∀ e, narrowed = .error e ↔ (p.tips kind m').1 = .error e) ∧
      ∀ tips, (p.tips kind m').1 = .ok tips → ∃ s found, (p.snapshot kind m').1 = .ok s ∧
        narrowed = .ok found ∧ s.Narrowed picks tips found := by
  intro now later
  refine ⟨fun text pattern h => by rw [tipsFor, h], fun picks m hm m' hm' => ?_⟩
  have hsame : ∀ m ∈ [now, later], (p.snapshot kind m).1 = (p.snapshot kind now).1 := by
    have hlater := p.snapshot_again kind (p.within_known between (p.snapshot kind now).2)
    exact List.forall_mem_cons.2 ⟨rfl, List.forall_mem_singleton.2 hlater⟩
  intro narrowed
  have hnarrowed : narrowed = ((p.snapshot kind now).1).bind fun s => s.tipsAmong picks := by
    rw [← hsame m hm]
    rfl
  have htips : (p.tips kind m').1 = ((p.snapshot kind now).1).bind Snapshot.tips := by
    rw [← hsame m' hm']
    rfl
  rw [hnarrowed, htips, hsame m' hm']
  cases hload : (p.snapshot kind now).1 with
  | error e => exact ⟨fun e' => Iff.rfl, fun tips h => by cases h⟩
  | ok s =>
      refine ⟨s.tipsAmong_eq_error_iff picks, fun tips h => ?_⟩
      have hn := Snapshot.nodup_ids_of_load hs hd (p.network.recalls_calls p.home earlier) hload
      obtain ⟨found, hfound, hrest⟩ := Snapshot.tipsAmong_of_tips hn h picks
      exact ⟨s, found, rfl, hfound, hrest⟩

def layeredHome : MemoryStore :=
  (MemoryStore.named "home")
    |>.insertArtifact ⟨"app", .chunk, .chunk .future, ["parser"], ["cli"], .home⟩
    |>.insertArtifact ⟨"docs", .chunk, .chunk .future, ["app"], ["site"], .home⟩
    |>.insertReference ⟨"parser", .chunk, ⟨"lib", none, none⟩, []⟩

def layeredRemote : MemoryStore :=
  (MemoryStore.named "lib").insertArtifact
    ⟨"parser", .chunk, .chunk .future, [], ["syntax", "client"], .home⟩

def layered : Project :=
  ⟨layeredHome.store, layeredHome.content,
    ⟨[⟨⟨"lib", none, none⟩, layeredRemote.store⟩], none⟩⟩

def layeredRows : List Row :=
  [.artifact ⟨"app", .chunk, .chunk .future, ["parser"], ["cli"], .home⟩,
    .artifact ⟨"docs", .chunk, .chunk .future, ["app"], ["site"], .home⟩,
    .artifact ⟨"parser", .chunk, .chunk .future, [], ["syntax", "client"],
      .external ⟨"lib", none, none⟩⟩]

theorem snapshot_layered : request (layered.snapshot .chunk) = .ok ⟨.chunk, layeredRows⟩ := by
  have hsorted : Snapshot.sorted layeredRows = layeredRows :=
    List.mergeSort_of_pairwise (by decide +kernel)
  conv => rhs; rw [← hsorted]
  rfl

def cliPattern : Pattern := ⟨[.exactly 'c', .exactly 'l', .exactly 'i', .run]⟩

theorem tipsFor_narrows_layered :
    (∀ r ∈ layered.network.remotes, r.store.Honest) ∧
      (∀ entries, layered.home.list .chunk = .ok entries → (entries.map Entry.id).Nodup) ∧
      ∃ tips found, Pattern.ofText? "cli*" = .ok cliPattern ∧
        request (layered.tipsFor .chunk "cli*") = .ok found ∧
        (layered.tips .chunk (layered.snapshot .chunk Memo.empty).2).1 = .ok tips ∧
        Snapshot.Narrowed ⟨.chunk, layeredRows⟩ cliPattern.covers tips found ∧
        found.map Artifact.id = ["app"] ∧ tips.map Artifact.id = ["docs"] := by
  have hs : ∀ r ∈ layered.network.remotes, r.store.Honest := by
    intro r hr
    obtain rfl := List.mem_singleton.1 hr
    exact ((MemoryStore.filed_named "lib").insertArtifact _).honest
  have hd : ∀ entries, layered.home.list .chunk = .ok entries → (entries.map Entry.id).Nodup := by
    intro entries hl
    cases hl
    decide +kernel
  have hpattern : Pattern.ofText? "cli*" = .ok cliPattern := by decide +kernel
  have hsnapshot := (layered.snapshot_again .chunk (Memo.Within.refl _)).trans snapshot_layered
  have htips : (layered.tips .chunk (layered.snapshot .chunk Memo.empty).2).1 =
      .ok [⟨"docs", .chunk, .chunk .future, ["app"], ["site"], .home⟩] := by
    refine (congrArg (Except.bind · Snapshot.tips) hsnapshot).trans ?_
    decide +kernel
  obtain ⟨htext, hall⟩ := tipsFor_narrows layered .chunk [] [] hs hd
  obtain ⟨-, hfound⟩ := hall cliPattern.covers _ List.mem_cons_self _
    (List.mem_cons_of_mem _ List.mem_cons_self)
  obtain ⟨s, found, hs', hnarrowed, hrest⟩ := hfound _ htips
  obtain rfl := Except.ok.inj (hsnapshot.symm.trans hs')
  have hfirst : request (layered.tipsFor .chunk "cli*") = .ok found := by
    rw [htext _ _ hpattern]
    exact hnarrowed
  have happ : request (layered.tipsFor .chunk "cli*") =
      .ok [⟨"app", .chunk, .chunk .future, ["parser"], ["cli"], .home⟩] := by
    rw [htext _ _ hpattern, request_query snapshot_layered]
    decide +kernel
  obtain rfl := Except.ok.inj (hfirst.symm.trans happ)
  exact ⟨hs, hd, _, _, hpattern, hfirst, htips, hrest, rfl, rfl⟩

end Project

end CausalWork
