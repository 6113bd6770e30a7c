import CausalWork.Validation
import CausalWork.Proofs.Collate
import Mathlib.Data.List.DropRight
import Mathlib.Data.List.Sort

namespace CausalWork

namespace Artifact

variable (a : Artifact) (summary : Summary) (links : List Edge)

theorem statusIssues_of_terminal (h : a.status.isTerminal) :
    ∃ message, a.statusIssues summary = [⟨.terminalStatus, message⟩] := ⟨_, if_pos h⟩

theorem statusIssues_of_unplanned (h : a.status.isTerminal = false) (hr : a.status.requiresPlan)
    (hp : summary.hasSubstantivePlan = false) :
    ∃ message, a.statusIssues summary = [⟨.emptyPlan, message⟩] := by
  simp [statusIssues, h, hr, hp]

theorem statusIssues_eq_nil_iff : a.statusIssues summary = [] ↔
    a.status.isTerminal = false ∧ (a.status.requiresPlan → summary.hasSubstantivePlan) := by
  cases ht : a.status.isTerminal with
  | true =>
      obtain ⟨message, hm⟩ := a.statusIssues_of_terminal summary ht
      simp [hm]
  | false =>
      by_cases hp : a.status.requiresPlan → summary.hasSubstantivePlan
      · cases hr : a.status.requiresPlan <;> simp_all [statusIssues]
      · obtain ⟨hr, hn⟩ := not_forall.1 hp
        obtain ⟨message, hm⟩ := a.statusIssues_of_unplanned summary ht hr (by simpa using hn)
        simp [hm, hp]

theorem statusIssues_cases : a.statusIssues summary = [] ∨
    ∃ i, a.statusIssues summary = [i] ∧ i.code ≠ .brokenLink := by
  unfold statusIssues
  split
  · exact .inr ⟨_, rfl, nofun⟩
  · split
    · exact .inr ⟨_, rfl, nofun⟩
    · exact .inl rfl

theorem mem_missingParents {parent : String} :
    parent ∈ a.missingParents links ↔ ⟨a.id, parent⟩ ∈ links := by
  rw [missingParents, mem_ascending, List.mem_map]
  constructor
  · rintro ⟨e, he, rfl⟩
    obtain ⟨he, hid⟩ := List.mem_filter.1 he
    rwa [← of_decide_eq_true hid]
  · exact fun h => ⟨_, List.mem_filter.2 ⟨h, decide_eq_true rfl⟩, rfl⟩

theorem missingParents_eq_nil_iff :
    a.missingParents links = [] ↔ ∀ e ∈ links, e.child ≠ a.id := by
  simp only [List.eq_nil_iff_forall_not_mem, mem_missingParents]
  exact ⟨fun h e he hid => h e.parent (hid ▸ he), fun h parent hp => h _ hp rfl⟩

theorem brokenLink_injective : Function.Injective a.brokenLink := by
  intro p q h
  have hmessage := congrArg Issue.message h
  simpa [brokenLink, String.append_assoc, String.append_right_inj, String.append_left_inj] using
    hmessage

theorem filter_issues : (a.issues summary links).filter (fun i => i.code = .brokenLink) =
    (a.missingParents links).map a.brokenLink := by
  have hstatus : (a.statusIssues summary).filter (fun i => i.code = .brokenLink) = [] := by
    rcases a.statusIssues_cases summary with hnil | ⟨i, hi, hcode⟩
    · rw [hnil]
      rfl
    · rw [hi, List.filter_cons_of_neg (by simpa using hcode), List.filter_nil]
  rw [issues, List.filter_append, hstatus, List.nil_append, List.filter_eq_self]
  intro i hi
  obtain ⟨parent, -, rfl⟩ := List.mem_map.1 hi
  rfl

theorem nodup_issues : (a.issues summary links).Nodup := by
  have hlinks : ((a.missingParents links).map a.brokenLink).Nodup :=
    List.Nodup.map a.brokenLink_injective ((pairwise_ascending _).imp ne_of_lt)
  rcases a.statusIssues_cases summary with hnil | ⟨i, hi, hcode⟩
  · rwa [issues, hnil]
  · rw [issues, hi]
    refine List.nodup_cons.2 ⟨fun hm => ?_, hlinks⟩
    obtain ⟨parent, -, rfl⟩ := List.mem_map.1 hm
    exact hcode rfl

theorem issues_congr {links links' : List Edge}
    (h : ∀ parent, (⟨a.id, parent⟩ : Edge) ∈ links' ↔ ⟨a.id, parent⟩ ∈ links) :
    a.issues summary links' = a.issues summary links := by
  have hmissing : a.missingParents links' = a.missingParents links := by
    refine List.Pairwise.eq_of_mem_iff (pairwise_ascending _) (pairwise_ascending _) fun parent => ?_
    exact (a.mem_missingParents links').trans ((h parent).trans (a.mem_missingParents links).symm)
  rw [issues, issues, hmissing]

/-- An artifact has no issues just if its status and all its links are in order. Otherwise the one
about its status comes first, which a plan does not change if the status is terminal, and then one
for each missing parent in ascending order. How often and in what order links are told does not
matter, nor do links of others. -/
theorem issues_exact :
    (a.issues summary links = [] ↔ a.status.isTerminal = false ∧
        (a.status.requiresPlan → summary.hasSubstantivePlan) ∧ ∀ e ∈ links, e.child ≠ a.id) ∧
      (∃ (status : List Issue) (parents : List String),
        a.issues summary links = status ++ parents.map a.brokenLink ∧
        (a.status.isTerminal → ∃ message, status = [⟨.terminalStatus, message⟩]) ∧
        (a.status.isTerminal = false → a.status.requiresPlan → summary.hasSubstantivePlan = false →
          ∃ message, status = [⟨.emptyPlan, message⟩]) ∧
        (a.status.isTerminal = false → (a.status.requiresPlan → summary.hasSubstantivePlan) →
          status = []) ∧
        parents.Pairwise (· < ·) ∧ ∀ parent, parent ∈ parents ↔ ⟨a.id, parent⟩ ∈ links) ∧
      (a.issues summary links).Nodup ∧
      ∀ links' : List Edge, (∀ parent, ⟨a.id, parent⟩ ∈ links' ↔ ⟨a.id, parent⟩ ∈ links) →
        a.issues summary links' = a.issues summary links := by
  refine ⟨?_, ⟨a.statusIssues summary, a.missingParents links, rfl,
    a.statusIssues_of_terminal summary, a.statusIssues_of_unplanned summary,
    fun ht hp => (a.statusIssues_eq_nil_iff summary).2 ⟨ht, hp⟩, pairwise_ascending _,
    fun _ => a.mem_missingParents links⟩, a.nodup_issues summary links,
    fun _ => a.issues_congr summary⟩
  rw [issues, List.append_eq_nil_iff, List.map_eq_nil_iff, statusIssues_eq_nil_iff,
    missingParents_eq_nil_iff, and_assoc]

end Artifact

/-- The last word of what an issue tells. For an empty plan it is the status to go back to. -/
def Issue.lastWord (i : Issue) : String := String.ofList (i.message.toList.rtakeWhile (· ≠ ' '))

theorem Issue.lastWord_eq (code : IssueCode) (front : String) {word : String}
    (h : ' ' ∉ word.toList) : lastWord ⟨code, front ++ (" " ++ word)⟩ = word := by
  have hword : ∀ c ∈ word.toList.reverse, c ≠ ' ' :=
    fun c hc => ne_of_mem_of_not_mem (List.mem_reverse.1 hc) h
  have hlist : (front ++ (" " ++ word)).toList.rtakeWhile (· ≠ ' ') = word.toList := by
    rw [String.toList_append, String.toList_append, List.rtakeWhile, List.reverse_append,
      List.reverse_append, List.append_assoc, List.takeWhile_append_of_pos (by simpa using hword)]
    simp
  rw [lastWord, hlist, String.ofList_toList]

namespace Artifact

variable {a : Artifact} {summary : Summary} {links : List Edge} {i : Issue}

theorem of_emptyPlan (hi : i ∈ a.issues summary links) (hc : i.code = .emptyPlan) :
    a.status.isTerminal = false ∧ i.lastWord = (unplanned a.kind).name := by
  rcases List.mem_append.1 hi with hi | hi
  · unfold statusIssues at hi
    split at hi
    · obtain rfl := List.mem_singleton.1 hi
      cases hc
    · next ht =>
        split at hi
        · obtain rfl := List.mem_singleton.1 hi
          have hblank : ' ' ∉ (unplanned a.kind).name.toList := by cases a.kind <;> decide
          have hend : " but its plan is empty; write a plan, or revert the status to " =
              " but its plan is empty; write a plan, or revert the status to" ++ " " := rfl
          refine ⟨by simpa using ht, ?_⟩
          rw [hend, ← String.append_assoc, String.append_assoc]
          exact Issue.lastWord_eq _ _ hblank
        · cases hi
  · obtain ⟨parent, -, rfl⟩ := List.mem_map.1 hi
    cases hc

theorem ofText?_unplanned (k : Kind) : Status.ofText? k (unplanned k).name = some (unplanned k) := by
  cases k <;> decide

theorem isTerminal_unplanned_iff (k : Kind) : (unplanned k).isTerminal ↔ k = .investigation := by
  cases k <;> decide

theorem not_requiresPlan_unplanned (k : Kind) : (unplanned k).requiresPlan = false := by
  cases k <;> rfl

/-- Once there is a plan, of all issues with an empty one those about links stay. With the status
that the report names it is the same, unless the artifact is an investigation: then the status that
it names is terminal, and the artifact is refused for that. -/
theorem remedies (hi : i ∈ a.issues summary links) (hc : i.code = .emptyPlan) :
    let broken := (a.issues summary links).filter fun i => i.code = .brokenLink
    a.issues ⟨true⟩ links = broken ∧
      ∃ status, Status.ofText? a.kind i.lastWord = some status ∧
        (a.kind ≠ .investigation → { a with status }.issues summary links = broken) ∧
        (a.kind = .investigation → ∃ message,
          { a with status }.issues summary links = ⟨.terminalStatus, message⟩ :: broken) := by
  intro broken
  obtain ⟨ht, hword⟩ := of_emptyPlan hi hc
  have hbroken : broken = (a.missingParents links).map a.brokenLink := a.filter_issues summary links
  refine ⟨?_, unplanned a.kind, hword ▸ ofText?_unplanned a.kind, fun hk => ?_, fun hk => ?_⟩
  · rw [issues, (a.statusIssues_eq_nil_iff ⟨true⟩).2 ⟨ht, fun _ => rfl⟩, hbroken]
    rfl
  · have hfine : { a with status := unplanned a.kind }.statusIssues summary = [] := by
      refine (statusIssues_eq_nil_iff _ summary).2 ⟨?_, fun hr => ?_⟩
      · exact Bool.eq_false_iff.2 fun h => hk ((isTerminal_unplanned_iff a.kind).1 h)
      · exact absurd hr (by simp [not_requiresPlan_unplanned])
    rw [issues, hfine, hbroken]
    rfl
  · obtain ⟨message, hm⟩ := statusIssues_of_terminal { a with status := unplanned a.kind } summary
      ((isTerminal_unplanned_iff a.kind).2 hk)
    refine ⟨message, ?_⟩
    rw [issues, hm, hbroken]
    rfl

def unplannedChunk : Artifact := ⟨"parser", .chunk, .chunk .active, ["ghost"], [], .home⟩

theorem remedies_unplannedChunk :
    let links : List Edge := [⟨"parser", "ghost"⟩]
    ∃ i ∈ unplannedChunk.issues ⟨false⟩ links, i.code = .emptyPlan ∧
      unplannedChunk.issues ⟨true⟩ links = [unplannedChunk.brokenLink "ghost"] ∧
      ∃ status, Status.ofText? .chunk i.lastWord = some status ∧
        { unplannedChunk with status }.issues ⟨false⟩ links = [unplannedChunk.brokenLink "ghost"] := by
  intro links
  obtain ⟨i, hi, hc⟩ : ∃ i ∈ unplannedChunk.issues ⟨false⟩ links, i.code = .emptyPlan := by
    decide +kernel
  obtain ⟨hplan, status, hstatus, hreverted, -⟩ := remedies hi hc
  have hbroken : (unplannedChunk.issues ⟨false⟩ links).filter (fun i => i.code = .brokenLink) =
      [unplannedChunk.brokenLink "ghost"] := by decide +kernel
  rw [hbroken] at hplan hreverted
  exact ⟨i, hi, hc, hplan, status, hstatus, hreverted (by decide)⟩

/-- Who goes back with an investigation to the status that the report names is refused again. -/
theorem remedy_refused :
    let a : Artifact := ⟨"leak", .investigation, .investigation .ongoing, [], [], .home⟩
    let i : Issue := ⟨.emptyPlan, "investigation 'leak' is ONGOING but its plan is empty; " ++
      "write a plan, or revert the status to DEFERRED"⟩
    a.issues ⟨false⟩ [] = [i] ∧ i.lastWord = "DEFERRED" ∧
      Status.ofText? a.kind i.lastWord = some (.investigation .deferred) ∧
      ({ a with status := .investigation .deferred }.issues ⟨false⟩ []).map Issue.code =
        [.terminalStatus] := by
  decide +kernel

end Artifact

end CausalWork
