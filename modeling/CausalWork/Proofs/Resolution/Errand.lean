import CausalWork.Flight
import CausalWork.Proofs.Resolution.Recall
import CausalWork.Proofs.Resolution.Survey
import CausalWork.Store.Memory
import Mathlib.Data.List.Dedup
import Mathlib.Data.List.Induction

namespace CausalWork

namespace Network

variable (n : Network) {q : Question} {w : Wanted}

def holding (n : Network) (stores : Nat → Store) : Network :=
  { n with remotes := n.remotes.mapIdx fun place r => { r with store := stores place } }

def hold (stores : Nat → Store) (r : Nat × Remote) : Nat × Remote :=
  (r.1, { r.2 with store := stores r.1 })

theorem candidates_holding (stores : Nat → Store) (repo : Option String) :
    (n.holding stores).candidates repo = (n.candidates repo).map (hold stores) := by
  have hplaced : (n.holding stores).remotes.zipIdx.map Prod.swap =
      (n.remotes.zipIdx.map Prod.swap).map (hold stores) := by
    refine List.ext_getElem (by simp [holding]) fun i _ _ => ?_
    simp [holding, hold]
  cases repo with
  | none => exact hplaced
  | some repo =>
      have hfilter := List.filter_map (f := hold stores)
        (p := fun r : Nat × Remote => decide (r.2.locator.repo = repo))
        (l := n.remotes.zipIdx.map Prod.swap)
      rw [← hplaced] at hfilter
      exact hfilter

theorem places_sublist (repo : Option String) :
    ((n.candidates repo).map Prod.fst).Sublist (List.range n.remotes.length) := by
  have hplaced : (n.remotes.zipIdx.map Prod.swap).map Prod.fst = List.range n.remotes.length := by
    rw [List.map_map, List.range_eq_range']
    exact List.zipIdx_map_snd 0 n.remotes
  rw [← hplaced]
  refine List.Sublist.map Prod.fst ?_
  cases repo with
  | none => exact List.Sublist.refl _
  | some repo => exact List.filter_sublist

theorem nodup_places (repo : Option String) : ((n.candidates repo).map Prod.fst).Nodup :=
  List.nodup_range.sublist (n.places_sublist repo)

/-- What an errand comes to if the remotes that it has still to ask hold these stores. -/
def finish (stores : Nat → Store) (e : Errand) : Outcome :=
  (survey n.deadline e.leader.question e.leader.pin e.reasons [] (e.remotes.map (hold stores))).1

theorem finish_cons (stores : Nat → Store) (w : Wanted) (reasons : List String) (place : Nat)
    (r : Remote) (rest : List (Nat × Remote)) :
    n.finish stores ⟨w, reasons, (place, r) :: rest⟩ =
      match ({ r with store := stores place } : Remote).heed w.pin reasons
        (({ r with store := stores place } : Remote).ask n.deadline w.kind w.id) with
      | .inl outcome => outcome
      | .inr reasons => n.finish stores ⟨w, reasons, rest⟩ := by
  rw [finish, List.map_cons, hold, survey]
  dsimp only [Wanted.question]
  cases Remote.heed _ w.pin reasons _ with
  | inl outcome => rfl
  | inr reasons =>
      dsimp only
      rw [finish, survey_fst, survey_fst]
      rfl

theorem outcome_holding (stores : Nat → Store) (h : n.candidates w.question.repo ≠ []) :
    (n.holding stores).outcome w = n.finish stores ⟨w, [], n.candidates w.question.repo⟩ := by
  rw [outcome, inquire, finish, candidates_holding]
  split
  next hnil _ => exact absurd (List.map_eq_nil_iff.1 hnil) h
  · rfl

theorem outcome_holding_of_nil (stores : Nat → Store) (h : n.candidates w.question.repo = []) :
    (n.holding stores).outcome w = (n.inquire w.question w.pin).1 := by
  rw [outcome, inquire, inquire, candidates_holding, h]
  cases w.question.repo <;> rfl

def Leads (acts : List Act) (w : Wanted) : Prop :=
  ∃ before i t after, acts = before ++ .enter i :: after ∧
    (n.fly before).cells w.question = .idle ∧ (n.fly before).callers[i]? = some t ∧
    t.sought.wanted = w

/-- Of the remotes that a question goes to, some first ones were heard for the sake of a lookup that
leads. The stores are those that they then had. -/
structure Underway (acts : List Act) (q : Question) (w : Wanted) (done rest : List (Nat × Remote))
    (stores : Nat → Store) : Prop where
  question : w.question = q
  leads : n.Leads acts w
  asked : n.candidates q.repo = done ++ rest
  heard : ∀ r ∈ done, .hear q r.1 (stores r.1) ∈ acts

/-- How a cell came to hold what it holds, if these places were asked for the sake of its question.
What a busy errand comes to is what its lookup is told by stores that are as they were heard. -/
inductive Tracks (acts : List Act) (q : Question) : List Nat → Cell → Prop
  | idle : Tracks acts q [] .idle
  | busy {w : Wanted} (reasons : List String) {done rest : List (Nat × Remote)} (called : Bool)
      {stores : Nat → Store} (h : n.Underway acts q w done rest stores) (hrest : rest ≠ [])
      (hfinish : ∀ stores' : Nat → Store, (∀ r ∈ done, stores' r.1 = stores r.1) →
        (n.holding stores').outcome w = n.finish stores' ⟨w, reasons, rest⟩) :
      Tracks acts q ((done ++ rest.take called.toNat).map Prod.fst) (.busy ⟨w, reasons, rest⟩ called)
  | full {w : Wanted} {done rest : List (Nat × Remote)} {stores : Nat → Store}
      (h : n.Underway acts q w done rest stores) :
      Tracks acts q (done.map Prod.fst) (.full ((n.holding stores).outcome w))

variable {n} {acts : List Act} {places : List Nat} {done rest : List (Nat × Remote)}
  {stores : Nat → Store} {reasons : List String} {place : Nat} {r : Remote}

theorem Leads.append (h : n.Leads acts w) (more : List Act) : n.Leads (acts ++ more) w := by
  obtain ⟨before, i, t, after, rfl, hidle, ht, hw⟩ := h
  exact ⟨before, i, t, after ++ more, by simp, hidle, ht, hw⟩

theorem Underway.append (h : n.Underway acts q w done rest stores) (more : List Act) :
    n.Underway (acts ++ more) q w done rest stores :=
  ⟨h.question, h.leads.append more, h.asked, fun r hr => List.mem_append_left more (h.heard r hr)⟩

/-- The next remote is heard with the store that it then has. What was heard before stays. -/
theorem Underway.hear (h : n.Underway acts q w done ((place, r) :: rest) stores) {store : Store}
    (hheard : .hear q place store ∈ acts) :
    n.Underway acts q w (done ++ [(place, r)]) rest (Function.update stores place store) ∧
      ∀ r' ∈ done, Function.update stores place store r'.1 = stores r'.1 := by
  have hkept : ∀ r' ∈ done, Function.update stores place store r'.1 = stores r'.1 := by
    intro r' hr'
    refine Function.update_of_ne (fun he => ?_) store stores
    have hn := n.nodup_places q.repo
    rw [h.asked, List.map_append, List.nodup_append] at hn
    exact hn.2.2 r'.1 (List.mem_map_of_mem hr') place (by simp) he
  refine ⟨⟨h.question, h.leads, by rw [h.asked, List.append_cons], fun r' hr' => ?_⟩, hkept⟩
  rcases List.mem_append.1 hr' with hr' | hr'
  · rw [hkept r' hr']
    exact h.heard r' hr'
  · obtain rfl := List.mem_singleton.1 hr'
    rwa [Function.update_self]

theorem Tracks.append {c : Cell} (h : n.Tracks acts q places c) (more : List Act) :
    n.Tracks (acts ++ more) q places c := by
  cases h with
  | idle => exact .idle
  | busy reasons called h hrest hfinish => exact .busy reasons called (h.append more) hrest hfinish
  | full h => exact .full (h.append more)

theorem Tracks.places_eq_nil (h : n.Tracks acts q places .idle) : places = [] := by
  cases h
  rfl

theorem Tracks.call (h : n.Tracks acts q places (.busy ⟨w, reasons, (place, r) :: rest⟩ false)) :
    n.Tracks acts q (places ++ [place]) (.busy ⟨w, reasons, (place, r) :: rest⟩ true) := by
  cases h with
  | busy _ _ h hrest hfinish => simpa using Tracks.busy reasons true h hrest hfinish

theorem Underway.next (h : n.Underway acts q w done rest stores)
    (hfinish : ∀ stores' : Nat → Store, (∀ r ∈ done, stores' r.1 = stores r.1) →
      (n.holding stores').outcome w = n.finish stores' ⟨w, reasons, rest⟩) :
    n.Tracks acts q (done.map Prod.fst) (Errand.next ⟨w, reasons, rest⟩) := by
  cases rest with
  | nil =>
      have ho : .ofReasons reasons = (n.holding stores).outcome w :=
        (hfinish stores fun _ _ => rfl).symm
      rw [Errand.next]
      dsimp only
      rw [ho]
      exact .full h
  | cons r rest =>
      simpa [Errand.next] using Tracks.busy reasons false h (List.cons_ne_nil r rest) hfinish

theorem Tracks.resume (h : n.Tracks acts q places (.busy ⟨w, reasons, (place, r) :: rest⟩ true))
    {store : Store} (hheard : .hear q place store ∈ acts) :
    n.Tracks acts q places (n.resume w reasons { r with store } rest) := by
  cases h with
  | @busy _ _ done _ _ stores h hrest hfinish =>
      obtain ⟨h', hkept⟩ := h.hear hheard
      have hplaces : done ++ List.take true.toNat ((place, r) :: rest) = done ++ [(place, r)] := by
        simp
      have hoh : ∀ stores' : Nat → Store,
          (∀ r' ∈ done ++ [(place, r)], stores' r'.1 = Function.update stores place store r'.1) →
          (n.holding stores').outcome w = n.finish stores' ⟨w, reasons, (place, r) :: rest⟩ ∧
            stores' place = store := by
        intro stores' hagree
        refine ⟨hfinish stores' fun r' hr' => ?_, ?_⟩
        · exact (hagree r' (List.mem_append_left _ hr')).trans (hkept r' hr')
        · exact (hagree (place, r) (by simp)).trans (Function.update_self ..)
      rw [hplaces]
      rw [Network.resume]
      cases hreply : ({ r with store } : Remote).heed w.pin reasons
          (({ r with store } : Remote).ask n.deadline w.kind w.id) with
      | inl outcome =>
          obtain ⟨ho, hthis⟩ := hoh _ fun _ _ => rfl
          rw [finish_cons, hthis, hreply] at ho
          dsimp only at ho ⊢
          rw [← ho]
          exact .full h'
      | inr reasons' =>
          refine h'.next fun stores' hagree => ?_
          obtain ⟨ho, hthis⟩ := hoh stores' hagree
          rw [ho, finish_cons, hthis, hreply]

theorem tracks_embark (hlead : n.Leads acts w) : n.Tracks acts w.question [] (n.embark w) := by
  have h : n.Underway acts w.question w [] (n.candidates w.question.repo)
      fun _ => (MemoryStore.named "").store := ⟨rfl, hlead, rfl, by simp⟩
  rw [embark]
  split
  next hnil =>
      rw [← outcome_holding_of_nil n (fun _ => (MemoryStore.named "").store) hnil]
      exact .full h
  next hne => exact .busy [] false h hne fun stores' _ => n.outcome_holding stores' hne

end Network

end CausalWork
